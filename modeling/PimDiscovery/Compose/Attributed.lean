import Mathlib.Algebra.GroupWithZero.Nat
import PimDiscovery.Compose.Interleaved

/-! How `collect_within` ends, and that it does not wait where there is nothing to wait for. -/

namespace PimDiscovery
open Interaction

namespace CollectWithin
variable {F T : Type}

section
variable {Finishes : F → T → Prop} {tasks : List F} {deadline : Nat} {s s' : State F T} {index : Nat}
  {worker : Worker F T} {phase : Phase T}

theorem Inv.received (h : Inv Finishes tasks s) (hspawned : s.workers.length = tasks.length)
    (hfilled : s.written.length = tasks.length) :
    s.channel = [] ∧ ∀ worker ∈ s.workers, ∃ value, worker.phase.message = some value := by
  have hlt : ∀ index value, s.message index = some value → index < tasks.length := by
    intro index value hmessage
    obtain ⟨worker, hworker, -⟩ := Option.bind_eq_some_iff.mp hmessage
    rw [← hspawned]
    exact (List.getElem?_eq_some_iff.mp hworker).1
  have hwritten : ∀ index ∈ s.written, ∃ value, s.message index = some value := by
    intro index hindex
    obtain ⟨value, hslot⟩ := h.delivered.filled index hindex
    exact ⟨value, (h.delivered.slots index value hslot).2⟩
  -- The written slots are pairwise different and as many as there are.
  have hall : ∀ index < tasks.length, index ∈ s.written := by
    have hsubset : s.written ⊆ List.range tasks.length := by
      intro index hindex
      obtain ⟨value, hmessage⟩ := hwritten index hindex
      exact List.mem_range.mpr (hlt index value hmessage)
    have hperm := (List.subperm_of_subset (List.nodup_append'.mp h.delivered.nodup).1 hsubset).perm_of_length_le
      (by rw [List.length_range, hfilled])
    intro index hindex
    exact hperm.mem_iff.mpr (List.mem_range.mpr hindex)
  refine ⟨?_, fun worker hworker => ?_⟩
  · rw [List.eq_nil_iff_forall_not_mem]
    rintro ⟨index, value⟩ hmem
    have hmessage := h.delivered.pending index value hmem
    have hdisjoint := (List.nodup_append'.mp h.delivered.nodup).2.2
    exact hdisjoint (hall index (hlt index value hmessage)) (List.mem_map_of_mem hmem)
  · obtain ⟨index, hindex⟩ := List.mem_iff_getElem?.mp hworker
    have hbound := (List.getElem?_eq_some_iff.mp hindex).1
    obtain ⟨value, hmessage⟩ := hwritten index (hall index (hspawned ▸ hbound))
    exact ⟨value, (message_eq hindex).symm.trans hmessage⟩

/-- A loop that did not end by the deadline, or that ended with nothing left to receive, has filled the
slots of all the tasks that finished. -/
theorem Inv.filled (h : Inv Finishes tasks s) {ending : Ending} (hdone : s.caller = .done ending)
    (hdrained : ending ≠ .deadline ∨
      s.channel = [] ∧ ∀ worker ∈ s.workers, ∃ value, worker.phase = .gone value) :
    (∀ worker ∈ s.workers, worker.phase ≠ .running) ∧ s.results = s.workers.map (·.phase.value) := by
  obtain ⟨hspawned, hslots⟩ := h.lengths (by simp [hdone])
  have hequal := hspawned.trans hslots.symm
  have hgone : (s.channel = [] ∧ ∀ worker ∈ s.workers, ∃ value, worker.phase = .gone value) →
      (∀ worker ∈ s.workers, worker.phase ≠ .running) ∧ s.results = s.workers.map (·.phase.value) := by
    rintro ⟨hchannel, hgone⟩
    refine ⟨fun worker hworker hrunning => ?_, h.results_eq hequal hchannel fun worker hworker => ?_⟩
    · obtain ⟨value, hphase⟩ := hgone worker hworker
      rw [hphase] at hrunning
      cases hrunning
    · obtain ⟨value, hphase⟩ := hgone worker hworker
      rw [hphase]
      rfl
  cases ending with
  | deadline => exact hgone (hdrained.resolve_left fun hne => hne rfl)
  | disconnected => exact hgone (h.closed hdone)
  | received =>
    have hlocated := h.located
    rw [hdone] at hlocated
    obtain ⟨hchannel, hsent⟩ := h.received hspawned hlocated.2.2
    refine ⟨fun worker hworker hrunning => ?_, h.results_eq hequal hchannel fun worker hworker => ?_⟩
    · obtain ⟨value, hmessage⟩ := hsent worker hworker
      rw [hrunning] at hmessage
      cases hmessage
    · obtain ⟨value, hmessage⟩ := hsent worker hworker
      rw [hmessage, Phase.value_of_message hmessage]

/-! How far it is to the end when no time passes. -/

def Phase.effort {T : Type} : Phase T → Nat
  | running => 6
  | returned _ => 5
  | sent _ => 1
  | refused _ | gone _ => 0

def Caller.effort (count : Nat) : Caller → Nat
  | .spawning index => 7 * (count - index) + 4
  | .checking _ => 3
  | .calling _ _ => 2
  | .waiting _ _ _ => 1
  | .done _ | .panicked => 0

/-- A bound on the steps to come: a message takes three of the caller. -/
def State.effort (count : Nat) (s : State F T) : Nat :=
  (s.workers.map (·.phase.effort)).sum + 3 * s.channel.length + s.caller.effort count

theorem sum_map_set {α : Type} (f : α → Nat) {xs : List α} {i : Nat} {x : α} (h : xs[i]? = some x)
    (y : α) : ((xs.set i y).map f).sum + f x = (xs.map f).sum + f y := by
  induction xs generalizing i with
  | nil => cases h
  | cons x' xs ih =>
    cases i with
    | zero =>
      obtain rfl := Option.some.inj h
      simp only [List.set_cons_zero, List.map_cons, List.sum_cons]
      omega
    | succ i =>
      have hrest := ih h
      simp only [List.set_cons_succ, List.map_cons, List.sum_cons]
      omega

theorem effort_setPhase (hworker : s.workers[index]? = some worker) (phase : Phase T) :
    ((s.setPhase index worker phase).workers.map (·.phase.effort)).sum + worker.phase.effort =
      (s.workers.map (·.phase.effort)).sum + phase.effort :=
  sum_map_set (·.phase.effort) hworker _

theorem effort_setPhase_lt (hworker : s.workers[index]? = some worker)
    (hphase : phase.effort < worker.phase.effort) (count : Nat) :
    (s.setPhase index worker phase).effort count < s.effort count := by
  have hsum := effort_setPhase hworker phase
  show _ + 3 * s.channel.length + s.caller.effort count < _
  unfold State.effort
  omega

theorem Steps.effort_lt (h : Steps Finishes tasks deadline s s') :
    s'.effort tasks.length < s.effort tasks.length := by
  cases h with
  | works h =>
    cases h with
    | finishes hworker hphase | panics hworker hphase | drops hworker hphase | ends hworker hphase =>
      apply effort_setPhase_lt hworker
      simp [hphase, Phase.effort]
    | sends hworker hphase =>
      rename_i index worker value hlistens
      have hsum := effort_setPhase hworker (.sent value)
      rw [hphase, show (Phase.returned value).effort = 5 from rfl,
        show (Phase.sent value).effort = 1 from rfl] at hsum
      simp only [State.effort, List.length_append, List.length_singleton]
      show _ + _ + s.caller.effort _ < _
      omega
  | calls h =>
    cases h with
    | spawn hcaller htask =>
      have hlt := (List.getElem?_eq_some_iff.mp htask).1
      simp only [State.effort, hcaller, Caller.effort, List.map_append, List.map_singleton,
        List.sum_append_nat, List.sum_singleton, Phase.effort]
      omega
    | receive hcaller hchannel =>
      simp only [State.effort, hcaller, hchannel, Caller.effort, List.length_cons]
      omega
    | outOfBounds hcaller hchannel =>
      simp only [State.effort, hcaller, hchannel, Caller.effort, List.length_cons]
      omega
    | loop hcaller | complete hcaller | late hcaller | check hcaller | call hcaller | disconnect hcaller
      | timeout hcaller =>
      simp only [State.effort, hcaller, Caller.effort]
      omega

/-- Where no task runs any more and the caller has not ended, some thread can go on. -/
theorem Reachable.progress (h : Reachable Finishes tasks deadline s)
    (hended : ∀ worker ∈ s.workers, worker.phase ≠ .running)
    (hcaller : ∀ ending, s.caller ≠ .done ending) : ∃ s', Steps Finishes tasks deadline s s' := by
  have hinv := h.inv
  by_cases hlive : ∃ worker ∈ s.workers, ∀ value, worker.phase ≠ .gone value
  -- A thread that holds a value or its sender goes on.
  · obtain ⟨worker, hmem, hne⟩ := hlive
    obtain ⟨index, hworker⟩ := List.mem_iff_getElem?.mp hmem
    cases hphase : worker.phase with
    | running => exact absurd hphase (hended worker hmem)
    | returned value =>
      cases hlistens : s.caller.listens with
      | true => exact ⟨_, .works (.sends hworker hphase hlistens)⟩
      | false => exact ⟨_, .works (.drops hworker hphase hlistens)⟩
    | sent value => exact ⟨_, .works (.ends hworker hphase)⟩
    | gone value => exact absurd hphase (hne value)
    | refused value => exact absurd hphase (h.unrefused (hinv.listens hcaller) worker hmem value)
  -- With all of them gone, the caller does not wait.
  · push Not at hlive
    cases hplace : s.caller with
    | done ending => exact absurd hplace (hcaller ending)
    | panicked =>
      have hlistens := hinv.listens hcaller
      rw [hplace] at hlistens
      cases hlistens
    | spawning index =>
      cases htask : tasks[index]? with
      | none => exact ⟨_, .calls (.loop hplace htask)⟩
      | some task => exact ⟨_, .calls (.spawn hplace htask)⟩
    | checking left =>
      cases left with
      | zero => exact ⟨_, .calls (.complete hplace)⟩
      | succ left =>
        by_cases hzero : s.stop - s.clock = 0
        · exact ⟨_, .calls (.late hplace hzero)⟩
        · exact ⟨_, .calls (.check hplace hzero)⟩
    | calling left remaining => exact ⟨_, .calls (.call hplace)⟩
    | waiting left remaining since =>
      cases hchannel : s.channel with
      | nil => exact ⟨_, .calls (.disconnect hplace hchannel hlive)⟩
      | cons message rest =>
        obtain ⟨index, value⟩ := message
        obtain ⟨hspawned, hslots⟩ := hinv.lengths (by simp [hplace])
        exact ⟨_, .calls (.receive hplace hchannel (hinv.index_lt (hspawned.trans hslots.symm) hchannel))⟩

inductive Ran (Finishes : F → T → Prop) (tasks : List F) (deadline : Nat) (s : State F T) :
    Nat → State F T → Prop where
  | refl : Ran Finishes tasks deadline s 0 s
  | steps {n : Nat} {s' s'' : State F T} (h : Ran Finishes tasks deadline s n s')
      (hstep : Steps Finishes tasks deadline s' s'') : Ran Finishes tasks deadline s (n + 1) s''
  | passes {n : Nat} {s' : State F T} (h : Ran Finishes tasks deadline s n s') {clock : Nat}
      (hclock : s'.clock ≤ clock) : Ran Finishes tasks deadline s n { s' with clock }

def Settled (s : State F T) : Prop :=
  (∀ worker ∈ s.workers, worker.phase ≠ .running) ∧ ∀ index, s.caller ≠ .spawning index

theorem Settled.steps (h : Settled s) (hstep : Steps Finishes tasks deadline s s') :
    Settled s' ∧ s'.stop = s.stop := by
  obtain ⟨hended, hspawned⟩ := h
  cases hstep with
  | works hstep =>
    obtain ⟨hcaller, -, hstop, -⟩ := hstep.located
    refine ⟨⟨?_, fun index => hcaller ▸ hspawned index⟩, hstop⟩
    have hset : ∀ {index : Nat} {worker : Worker F T} {phase : Phase T}, phase ≠ .running →
        ∀ other ∈ (s.setPhase index worker phase).workers, other.phase ≠ .running := by
      intro index worker phase hphase other hother
      rcases List.mem_or_eq_of_mem_set hother with hmem | rfl
      · exact hended other hmem
      · exact hphase
    cases hstep with
    | finishes | panics | sends | drops | ends => exact hset (fun hrunning => by cases hrunning)
  | calls hstep =>
    cases hstep with
    | spawn hcaller | loop hcaller => exact absurd hcaller (hspawned _)
    | complete | late | check | call | receive | outOfBounds | disconnect | timeout =>
      exact ⟨⟨hended, fun index hspawning => by cases hspawning⟩, rfl⟩

theorem Ran.settled {n : Nat} (h : Ran Finishes tasks deadline s n s') (hsettled : Settled s) :
    Settled s' ∧ s'.stop = s.stop := by
  induction h with
  | refl => exact ⟨hsettled, rfl⟩
  | steps _ hstep ih =>
    obtain ⟨hnext, hstop⟩ := ih.1.steps hstep
    exact ⟨hnext, hstop.trans ih.2⟩
  | passes _ _ ih => exact ih

theorem Ran.reachable {n : Nat} (h : Ran Finishes tasks deadline s n s')
    (hs : Reachable Finishes tasks deadline s) : Reachable Finishes tasks deadline s' := by
  induction h with
  | refl => exact hs
  | steps _ hstep ih =>
    obtain ⟨clock, hmoves⟩ := ih
    exact ⟨clock, hmoves.tail (.steps hstep)⟩
  | passes _ hclock ih =>
    obtain ⟨clock, hmoves⟩ := ih
    exact ⟨clock, hmoves.tail (.passes hclock)⟩

theorem Ran.effort_le {n : Nat} (h : Ran Finishes tasks deadline s n s') :
    n + s'.effort tasks.length ≤ s.effort tasks.length := by
  induction h with
  | refl => exact (Nat.zero_add _).le
  | steps _ hstep ih =>
    have hless := hstep.effort_lt
    omega
  | passes _ _ ih => exact ih

/-- Before the deadline, a loop over tasks that all finished or panicked is never at a stand: some thread
can go on in no time, for so many steps at most, or it has ended with all the slots filled. -/
theorem Reachable.ends_early (h : Reachable Finishes tasks deadline s) (hsettled : Settled s) {n : Nat}
    (hran : Ran Finishes tasks deadline s n s') :
    n ≤ s.effort tasks.length ∧ (s'.clock < s.stop →
      (∃ ending, s'.caller = .done ending ∧ s'.results = s'.workers.map (·.phase.value)) ∨
        ∃ s'', Steps Finishes tasks deadline s' s'') := by
  obtain ⟨hsettled', hstop⟩ := hran.settled hsettled
  have hreached := hran.reachable h
  have heffort := hran.effort_le
  refine ⟨by omega, fun hclock => ?_⟩
  by_cases hdone : ∃ ending, s'.caller = .done ending
  · obtain ⟨ending, hdone⟩ := hdone
    have hending : ending ≠ .deadline := by
      rintro rfl
      have hlocated := hreached.inv.located
      rw [hdone, hstop] at hlocated
      exact absurd hlocated.2.2 (Nat.not_le.mpr hclock)
    exact .inl ⟨ending, hdone, (hreached.inv.filled hdone (.inl hending)).2⟩
  · exact .inr (hreached.progress hsettled'.1 fun ending hending => hdone ⟨ending, hending⟩)

end

/-! The caller runs the program of the compose client. -/

section
open Compose
variable {kind : TaskKind} {Finishes : Task kind → kind.Result → Prop} {tasks : List (Task kind)}
  {deadline : Nat} {s s' : State (Task kind) kind.Result}

def wait (tasks : List (Task kind)) (stop left remaining : Nat) (results : List (Option kind.Result)) :
    Compose (List (Option kind.Result)) :=
  ask (.recv kind tasks remaining) >>= fun report =>
    match report with
    | some (index, value) => receive tasks stop left (results.set index (some value))
    | none => pure results

def rest (tasks : List (Task kind)) (deadline : Nat) (s : State (Task kind) kind.Result) :
    Compose (List (Option kind.Result)) :=
  match s.caller with
  | .spawning index => spawnFrom index (tasks.drop index) >>= fun _ =>
    ask .now >>= fun now => receive tasks (now + deadline) tasks.length (tasks.map fun _ => none)
  | .checking left => receive tasks s.stop left s.results
  | .calling left remaining | .waiting left remaining _ => wait tasks s.stop left remaining s.results
  | .done _ | .panicked => pure s.results

theorem receive_succ (tasks : List (Task kind)) (stop left : Nat) (results : List (Option kind.Result)) :
    receive tasks stop (left + 1) results = Prog.ask .now fun now =>
      if stop - now = 0 then pure results else wait tasks stop left (stop - now) results := by
  show Prog.ask Effect.now _ = _
  congr 1
  funext now
  show (if stop - now = 0 then _ else _) = _
  congr 1
  show Prog.ask _ _ = Prog.ask _ _
  congr 1
  funext report
  rcases report with _ | ⟨index, value⟩
  · rfl
  · rfl

inductive Told (s s' : State (Task kind) kind.Result) : (effect : Effect) → effect.Answer → Prop where
  | spawned {index : Nat} {task : Task kind}
      (h : s'.workers = s.workers ++ [{ index, task, phase := .running }]) :
      Told s s' (.spawn kind index task) ()
  | now : Told s s' .now s.clock
  | received {tasks : List (Task kind)} {remaining : Nat} {report : Nat × kind.Result}
      (h : s.channel = report :: s'.channel) : Told s s' (.recv kind tasks remaining) (some report)
  | nothing {tasks : List (Task kind)} {remaining : Nat} (h : s'.channel = s.channel) :
      Told s s' (.recv kind tasks remaining) none

inductive Answered {α : Type} : Compose α → (effect : Effect) → effect.Answer → Compose α → Prop where
  | answered (effect : Effect) (answer : effect.Answer) (next : effect.Answer → Compose α) :
      Answered (Prog.ask effect next) effect answer (next answer)

theorem rest_start (tasks : List (Task kind)) (deadline clock : Nat) :
    rest tasks deadline (start (Task kind) kind.Result clock) = collectWithin tasks deadline := rfl

theorem rest_done {ending : Ending} (h : s.caller = .done ending) :
    rest tasks deadline s = pure s.results := by
  simp only [rest, h]

theorem rest_congr (hcaller : s'.caller = s.caller) (hstop : s'.stop = s.stop)
    (hresults : s'.results = s.results) : rest tasks deadline s' = rest tasks deadline s := by
  simp only [rest, hcaller, hstop, hresults]

theorem rest_calls (hinv : Inv Finishes tasks s) (h : Calls tasks deadline s s') :
    rest tasks deadline s' = rest tasks deadline s ∨ ∃ effect answer,
      Answered (rest tasks deadline s) effect answer (rest tasks deadline s') ∧
        Told s s' effect answer := by
  cases h with
  | @spawn index task hcaller htask =>
    have hdrop : tasks.drop index = task :: tasks.drop (index + 1) := by
      rw [List.drop_eq_getElem?_toList_append, htask]
      rfl
    refine .inr ⟨.spawn kind index task, (), ?_, .spawned rfl⟩
    simp only [rest, hcaller, hdrop]
    exact .answered _ _ _
  | loop hcaller hall =>
    refine .inr ⟨.now, s.clock, ?_, .now⟩
    simp only [rest, hcaller, List.drop_eq_nil_of_le (List.getElem?_eq_none_iff.mp hall)]
    exact .answered _ _ _
  | complete hcaller =>
    left
    simp only [rest, hcaller]
    rfl
  | @late left hcaller hzero =>
    refine .inr ⟨.now, s.clock, ?_, .now⟩
    have hanswered := Answered.answered .now s.clock fun now =>
      if s.stop - now = 0 then pure s.results else wait tasks s.stop left (s.stop - now) s.results
    rw [← receive_succ, if_pos hzero] at hanswered
    simpa only [rest, hcaller] using hanswered
  | @check left hcaller hremaining =>
    refine .inr ⟨.now, s.clock, ?_, .now⟩
    have hanswered := Answered.answered .now s.clock fun now =>
      if s.stop - now = 0 then pure s.results else wait tasks s.stop left (s.stop - now) s.results
    rw [← receive_succ, if_neg hremaining] at hanswered
    simpa only [rest, hcaller] using hanswered
  | call hcaller =>
    left
    simp only [rest, hcaller]
  | @receive left remaining since index value tail hcaller hchannel hindex =>
    refine .inr ⟨.recv kind tasks remaining, some (index, value), ?_, .received hchannel⟩
    simp only [rest, hcaller]
    exact .answered _ _ _
  | outOfBounds hcaller hchannel hindex =>
    obtain ⟨hspawned, hslots⟩ := hinv.lengths (by simp [hcaller])
    exact absurd (hinv.index_lt (hspawned.trans hslots.symm) hchannel) (Nat.not_lt.mpr hindex)
  | @disconnect left remaining since hcaller hchannel hgone =>
    refine .inr ⟨.recv kind tasks remaining, none, ?_, .nothing rfl⟩
    simp only [rest, hcaller]
    exact .answered _ _ _
  | @timeout left remaining since hcaller hover =>
    refine .inr ⟨.recv kind tasks remaining, none, ?_, .nothing rfl⟩
    simp only [rest, hcaller]
    exact .answered _ _ _

theorem rest_moves (hinv : Inv Finishes tasks s) (h : Moves Finishes tasks deadline s s') :
    rest tasks deadline s' = rest tasks deadline s ∨ ∃ effect answer,
      Answered (rest tasks deadline s) effect answer (rest tasks deadline s') ∧
        Told s s' effect answer := by
  cases h with
  | passes => exact .inl (rest_congr rfl rfl rfl)
  | steps h =>
    cases h with
    | calls h => exact rest_calls hinv h
    | works h =>
      obtain ⟨hcaller, -, hstop, -, hresults, -⟩ := h.located
      exact .inl (rest_congr hcaller hstop hresults)

/-- The slots at the end of a call are what the program returns when it is told what the caller is. -/
theorem Reachable.returns (h : Reachable Finishes tasks deadline s) {ending : Ending}
    (hdone : s.caller = .done ending) :
    (collectWithin tasks deadline).Returns
      (fun effect answer => ∃ s s' : State (Task kind) kind.Result, Told s s' effect answer)
      s.results := by
  obtain ⟨clock, hmoves⟩ := h
  suffices hback : ∀ results, (rest tasks deadline s).Returns
      (fun effect answer => ∃ s s' : State (Task kind) kind.Result, Told s s' effect answer) results →
      (collectWithin tasks deadline).Returns
        (fun effect answer => ∃ s s' : State (Task kind) kind.Result, Told s s' effect answer)
        results by
    apply hback
    rw [rest_done hdone]
    rfl
  clear hdone
  induction hmoves with
  | refl => exact fun _ hreturns => hreturns
  | @tail s s' hmoves hmove ih =>
    intro results hreturns
    apply ih
    have hinv := Reachable.inv ⟨clock, hmoves⟩
    rcases rest_moves hinv hmove with hsame | ⟨effect, answer, hanswered, htold⟩
    · rwa [← hsame]
    · generalize rest tasks deadline s = before at hanswered ⊢
      generalize rest tasks deadline s' = after at hanswered hreturns
      cases hanswered with
      | answered _ _ next => exact ⟨answer, ⟨s, s', htold⟩, hreturns⟩

end

section
variable {Finishes : F → T → Prop} {tasks : List F} {deadline : Nat} {s s' : State F T}

/-- Whatever the order of the steps: no index is out of bounds, there is one slot for each task, a slot
holds what its own task has finished with and is written once, and the slots of all the tasks that finished
are filled at the end unless the deadline was observed before the channel was drained. Tasks that have all
finished or panicked are not waited for until the deadline. -/
theorem attributes_results (h : Reachable Finishes tasks deadline s) :
    s.caller ≠ .panicked ∧
    ((∀ index, s.caller ≠ .spawning index) → s.results.length = tasks.length) ∧
    (∀ (index : Nat) (value : T), s.results[index]? = some (some value) →
      ∃ worker, s.workers[index]? = some worker ∧ tasks[index]? = some worker.task ∧
        worker.phase.value = some value ∧ Finishes worker.task value) ∧
    s.written.Nodup ∧
    (∀ index : Nat, index ∈ s.written ↔ ∃ value, s.results[index]? = some (some value)) ∧
    (∀ ending, s.caller = .done ending → (ending ≠ .deadline ∨
        s.channel = [] ∧ ∀ worker ∈ s.workers, ∃ value, worker.phase = .gone value) →
      (∀ worker ∈ s.workers, worker.phase ≠ .running) ∧
        s.results = s.workers.map (·.phase.value)) ∧
    ((∀ worker ∈ s.workers, worker.phase ≠ .running) → (∀ index, s.caller ≠ .spawning index) →
      ∀ n s', Ran Finishes tasks deadline s n s' → n ≤ s.effort tasks.length ∧ (s'.clock < s.stop →
        (∃ ending, s'.caller = .done ending ∧ s'.results = s'.workers.map (·.phase.value)) ∨
          ∃ s'', Steps Finishes tasks deadline s' s'')) := by
  have hinv := h.inv
  refine ⟨fun hpanicked => ?_, fun hspawned => (hinv.lengths hspawned).2, fun index value hslot => ?_,
    (List.nodup_append'.mp hinv.delivered.nodup).1, fun index => ⟨hinv.delivered.filled index, ?_⟩,
    fun ending => hinv.filled, fun hended hspawned n s' => h.ends_early ⟨hended, hspawned⟩⟩
  · have hlocated := hinv.located
    rw [hpanicked] at hlocated
    exact hlocated
  · obtain ⟨-, hmessage⟩ := hinv.delivered.slots index value hslot
    obtain ⟨worker, hworker, hsent⟩ := Option.bind_eq_some_iff.mp hmessage
    have hvalue := Phase.value_of_message hsent
    obtain ⟨-, htask, hfinishes⟩ := hinv.placed index worker hworker
    exact ⟨worker, hworker, htask, hvalue, hfinishes value hvalue⟩
  · rintro ⟨value, hslot⟩
    exact (hinv.delivered.slots index value hslot).1

end

def oneOfTwo : State Nat Nat where
  clock := 0
  workers :=
    [{ index := 0, task := 7, phase := .gone (some 7) }, { index := 1, task := 8, phase := .gone none }]
  channel := []
  stop := 10
  results := [some 7, none]
  written := [0]
  caller := .done .disconnected

theorem oneOfTwo_gone : ∀ worker ∈ oneOfTwo.workers, ∃ value, worker.phase = .gone value := by
  simp [oneOfTwo]

theorem oneOfTwo_reachable : Reachable (fun task value => value = task) [7, 8] 10 oneOfTwo := by
  refine ⟨0, ?_⟩
  refine .head (.steps (.calls (.spawn rfl rfl))) ?_
  refine .head (.steps (.calls (.spawn rfl rfl))) ?_
  refine .head (.steps (.calls (.loop rfl rfl))) ?_
  refine .head (.steps (.works (@Works.finishes _ _ _ _ 0 _ 7 rfl rfl rfl))) ?_
  refine .head (.steps (.works (@Works.sends _ _ _ _ 0 _ _ rfl rfl rfl))) ?_
  refine .head (.steps (.works (@Works.ends _ _ _ _ 0 _ _ rfl rfl))) ?_
  refine .head (.steps (.works (@Works.panics _ _ _ _ 1 _ rfl rfl))) ?_
  refine .head (.steps (.calls (.check rfl (by decide)))) ?_
  refine .head (.steps (.calls (.call rfl))) ?_
  refine .head (.steps (.calls (.receive rfl rfl (by decide)))) ?_
  refine .head (.steps (.calls (.check rfl (by decide)))) ?_
  refine .head (.steps (.calls (.call rfl))) ?_
  refine .head (.steps (.calls (.disconnect rfl rfl oneOfTwo_gone))) ?_
  exact .refl

theorem attributes_oneOfTwo :
    oneOfTwo.caller = .done .disconnected ∧
      oneOfTwo.results = oneOfTwo.workers.map (·.phase.value) ∧ oneOfTwo.results = [some 7, none] := by
  have hattributes := attributes_results oneOfTwo_reachable
  exact ⟨rfl, (hattributes.2.2.2.2.2.1 .disconnected rfl (.inl (by decide))).2, rfl⟩

end CollectWithin
end PimDiscovery
