import Mathlib.Logic.Relation
import PimDiscovery.Compose.Client

/-! `collect_within` step by step: the thread of the caller, those of the tasks, the channel between them
and the clock, in any order. -/

namespace PimDiscovery
open Interaction

namespace CollectWithin

/-- Where the thread of a task has got to: its closure runs; has returned; its value was sent, or nobody
was left to send it to; the thread is gone and its sender with it, having sent a value or panicked. -/
inductive Phase (T : Type) where
  | running
  | returned (value : T)
  | sent (value : T)
  | refused (value : T)
  | gone (value : Option T)
  deriving DecidableEq, Repr

namespace Phase
variable {T : Type}

def value : Phase T → Option T
  | running => none
  | returned value | sent value | refused value => some value
  | gone value => value

def message : Phase T → Option T
  | running | returned _ | refused _ => none
  | sent value => some value
  | gone value => value

theorem value_of_message {phase : Phase T} {value : T} (h : phase.message = some value) :
    phase.value = some value := by
  cases phase with
  | running | returned | refused => cases h
  | sent | gone => exact h

end Phase

structure Worker (F T : Type) where
  index : Nat
  task : F
  phase : Phase T

inductive Ending where
  | received
  | disconnected
  | deadline
  deriving DecidableEq, Repr

/-- Where the caller is: at the next spawn, at the head of the loop with so many rounds left, before and
in `recv_timeout`. -/
inductive Caller where
  | spawning (index : Nat)
  | checking (left : Nat)
  | calling (left remaining : Nat)
  | waiting (left remaining since : Nat)
  | done (ending : Ending)
  | panicked
  deriving DecidableEq, Repr

/-- The receiver is dropped on return. -/
def Caller.listens : Caller → Bool
  | .spawning _ | .checking _ | .calling _ _ | .waiting _ _ _ => true
  | .done _ | .panicked => false

/-- The threads and what they share, the locals of the caller, and the slots that it has written. -/
structure State (F T : Type) where
  clock : Nat
  workers : List (Worker F T)
  channel : List (Nat × T)
  stop : Nat
  results : List (Option T)
  written : List Nat
  caller : Caller

def start (F T : Type) (clock : Nat) : State F T where
  clock := clock
  workers := []
  channel := []
  stop := 0
  results := []
  written := []
  caller := .spawning 0

variable {F T : Type}

namespace State
variable (s : State F T)

def message (index : Nat) : Option T := (s.workers[index]?).bind (·.phase.message)

def setPhase (index : Nat) (worker : Worker F T) (phase : Phase T) : State F T :=
  { s with workers := s.workers.set index { worker with phase } }

end State

inductive Calls (tasks : List F) (deadline : Nat) : State F T → State F T → Prop where
  | spawn {s : State F T} {index : Nat} {task : F} (hcaller : s.caller = .spawning index)
      (htask : tasks[index]? = some task) :
      Calls tasks deadline s
        { s with
          workers := s.workers ++ [{ index, task, phase := .running }]
          caller := .spawning (index + 1) }
  | loop {s : State F T} {index : Nat} (hcaller : s.caller = .spawning index)
      (hall : tasks[index]? = none) :
      Calls tasks deadline s
        { s with
          stop := s.clock + deadline, results := tasks.map fun _ => none
          caller := .checking tasks.length }
  | complete {s : State F T} (hcaller : s.caller = .checking 0) :
      Calls tasks deadline s { s with caller := .done .received }
  | late {s : State F T} {left : Nat} (hcaller : s.caller = .checking (left + 1))
      (hzero : s.stop - s.clock = 0) : Calls tasks deadline s { s with caller := .done .deadline }
  | check {s : State F T} {left : Nat} (hcaller : s.caller = .checking (left + 1))
      (hremaining : s.stop - s.clock ≠ 0) :
      Calls tasks deadline s { s with caller := .calling left (s.stop - s.clock) }
  | call {s : State F T} {left remaining : Nat} (hcaller : s.caller = .calling left remaining) :
      Calls tasks deadline s { s with caller := .waiting left remaining s.clock }
  | receive {s : State F T} {left remaining since index : Nat} {value : T} {rest : List (Nat × T)}
      (hcaller : s.caller = .waiting left remaining since) (hchannel : s.channel = (index, value) :: rest)
      (hindex : index < s.results.length) :
      Calls tasks deadline s
        { s with
          channel := rest, results := s.results.set index (some value)
          written := s.written ++ [index], caller := .checking left }
  | outOfBounds {s : State F T} {left remaining since index : Nat} {value : T} {rest : List (Nat × T)}
      (hcaller : s.caller = .waiting left remaining since) (hchannel : s.channel = (index, value) :: rest)
      (hindex : s.results.length ≤ index) :
      Calls tasks deadline s { s with channel := rest, caller := .panicked }
  | disconnect {s : State F T} {left remaining since : Nat} (hcaller : s.caller = .waiting left remaining since)
      (hchannel : s.channel = []) (hgone : ∀ worker ∈ s.workers, ∃ value, worker.phase = .gone value) :
      Calls tasks deadline s { s with caller := .done .disconnected }
  | timeout {s : State F T} {left remaining since : Nat} (hcaller : s.caller = .waiting left remaining since)
      (hover : since + remaining ≤ s.clock) : Calls tasks deadline s { s with caller := .done .deadline }

/-- The steps of the threads of the tasks, where `Finishes task value` says what a task may return. -/
inductive Works (Finishes : F → T → Prop) : State F T → State F T → Prop where
  | finishes {s : State F T} {index : Nat} {worker : Worker F T} {value : T}
      (hworker : s.workers[index]? = some worker) (hphase : worker.phase = .running)
      (hvalue : Finishes worker.task value) :
      Works Finishes s (s.setPhase index worker (.returned value))
  | panics {s : State F T} {index : Nat} {worker : Worker F T}
      (hworker : s.workers[index]? = some worker) (hphase : worker.phase = .running) :
      Works Finishes s (s.setPhase index worker (.gone none))
  | sends {s : State F T} {index : Nat} {worker : Worker F T} {value : T}
      (hworker : s.workers[index]? = some worker) (hphase : worker.phase = .returned value)
      (hlistens : s.caller.listens = true) :
      Works Finishes s
        { s.setPhase index worker (.sent value) with
          channel := s.channel ++ [(worker.index, value)] }
  | drops {s : State F T} {index : Nat} {worker : Worker F T} {value : T}
      (hworker : s.workers[index]? = some worker) (hphase : worker.phase = .returned value)
      (hlistens : s.caller.listens = false) :
      Works Finishes s (s.setPhase index worker (.refused value))
  | ends {s : State F T} {index : Nat} {worker : Worker F T} {value : T}
      (hworker : s.workers[index]? = some worker) (hphase : worker.phase = .sent value) :
      Works Finishes s (s.setPhase index worker (.gone (some value)))

inductive Steps (Finishes : F → T → Prop) (tasks : List F) (deadline : Nat) :
    State F T → State F T → Prop where
  | calls {s s' : State F T} (h : Calls tasks deadline s s') : Steps Finishes tasks deadline s s'
  | works {s s' : State F T} (h : Works Finishes s s') : Steps Finishes tasks deadline s s'

inductive Moves (Finishes : F → T → Prop) (tasks : List F) (deadline : Nat) :
    State F T → State F T → Prop where
  | steps {s s' : State F T} (h : Steps Finishes tasks deadline s s') : Moves Finishes tasks deadline s s'
  | passes {s : State F T} {clock : Nat} (h : s.clock ≤ clock) :
      Moves Finishes tasks deadline s { s with clock }

def Reachable (Finishes : F → T → Prop) (tasks : List F) (deadline : Nat) (s : State F T) : Prop :=
  ∃ clock, Relation.ReflTransGen (Moves Finishes tasks deadline) (start F T clock) s

/-! What every step keeps. -/

/-- The messages sent are in the channel, or were taken from it and written to the slots of their tasks. -/
structure Delivered (message : Nat → Option T) (channel : List (Nat × T)) (written : List Nat)
    (results : List (Option T)) : Prop where
  nodup : (written ++ channel.map Prod.fst).Nodup
  sent : ∀ index value, message index = some value → index ∈ written ∨ (index, value) ∈ channel
  pending : ∀ index value, (index, value) ∈ channel → message index = some value
  filled : ∀ index ∈ written, ∃ value, results[index]? = some (some value)
  slots : ∀ index value, results[index]? = some (some value) →
    index ∈ written ∧ message index = some value

namespace Delivered
variable {message message' : Nat → Option T} {channel rest : List (Nat × T)} {written : List Nat}
  {results : List (Option T)} {index : Nat} {value : T}

theorem slot_eq (h : Delivered message [] written results) (hindex : index < results.length) :
    results[index]? = some (message index) := by
  cases hslot : results[index] with
  | some value =>
    have hfound : results[index]? = some (some value) := by rw [List.getElem?_eq_getElem hindex, hslot]
    rw [hfound, (h.slots index value hfound).2]
  | none =>
    have hfound : results[index]? = some none := by rw [List.getElem?_eq_getElem hindex, hslot]
    cases hmessage : message index with
    | none => exact hfound
    | some value =>
      rcases h.sent index value hmessage with hwritten | hchannel
      · obtain ⟨other, hother⟩ := h.filled index hwritten
        rw [hfound] at hother
        cases hother
      · cases hchannel

theorem not_sent (h : Delivered message channel written results) (hnone : message index = none) :
    index ∉ written ++ channel.map Prod.fst := by
  intro hmem
  rcases List.mem_append.mp hmem with hwritten | hchannel
  · obtain ⟨value, hslot⟩ := h.filled index hwritten
    rw [(h.slots index value hslot).2] at hnone
    cases hnone
  · obtain ⟨⟨_, value⟩, hpending, rfl⟩ := List.mem_map.mp hchannel
    rw [h.pending _ value hpending] at hnone
    cases hnone

theorem congr (h : Delivered message channel written results)
    (hsame : ∀ index, message' index = message index) :
    Delivered message' channel written results := by
  obtain rfl : message' = message := funext hsame
  exact h

theorem nothing_written (h : Delivered message channel written []) : written = [] := by
  rw [List.eq_nil_iff_forall_not_mem]
  intro index hindex
  obtain ⟨value, hslot⟩ := h.filled index hindex
  cases hslot

theorem slots_made {F : Type} (h : Delivered message channel [] []) (tasks : List F) :
    Delivered message channel [] (tasks.map fun _ => none) := by
  refine ⟨h.nodup, h.sent, h.pending, List.forall_mem_nil _, fun index value hslot => ?_⟩
  rw [List.getElem?_map] at hslot
  obtain ⟨task, -, hnone⟩ := Option.map_eq_some_iff.mp hslot
  cases hnone

theorem sends (h : Delivered message channel written results) (hnone : message index = none)
    (hsends : message' index = some value) (hothers : ∀ i, i ≠ index → message' i = message i) :
    Delivered message' (channel ++ [(index, value)]) written results := by
  have hold : ∀ {i v}, message i = some v → message' i = some v := by
    intro i v hv
    have hne : i ≠ index := by
      rintro rfl
      rw [hnone] at hv
      cases hv
    rw [hothers i hne, hv]
  refine ⟨?_, ?_, ?_, h.filled, ?_⟩
  · rw [List.map_append, List.map_singleton, ← List.append_assoc, List.nodup_append',
      List.disjoint_singleton]
    exact ⟨h.nodup, List.nodup_singleton _, h.not_sent hnone⟩
  · intro i v hv
    by_cases hi : i = index
    · subst hi
      rw [hsends] at hv
      obtain rfl := Option.some.inj hv
      exact .inr (by simp)
    · rw [hothers i hi] at hv
      exact (h.sent i v hv).imp_right (List.mem_append_left _)
  · intro i v hmem
    rcases List.mem_append.mp hmem with hmem | hmem
    · exact hold (h.pending i v hmem)
    · obtain ⟨rfl, rfl⟩ := Prod.mk.inj (List.mem_singleton.mp hmem)
      exact hsends
  · intro i v hslot
    obtain ⟨hwritten, hv⟩ := h.slots i v hslot
    exact ⟨hwritten, hold hv⟩

theorem receive (h : Delivered message ((index, value) :: rest) written results)
    (hindex : index < results.length) :
    Delivered message rest (written ++ [index]) (results.set index (some value)) := by
  have hvalue : message index = some value := h.pending index value (List.mem_cons_self ..)
  have hslot : (results.set index (some value))[index]? = some (some value) := by
    rw [List.getElem?_set_self hindex]
  have hothers : ∀ i, i ≠ index → (results.set index (some value))[i]? = results[i]? :=
    fun i hi => List.getElem?_set_ne (Ne.symm hi)
  refine ⟨?_, ?_, fun i v hmem => h.pending i v (List.mem_cons_of_mem _ hmem), ?_, ?_⟩
  · rw [List.append_assoc]
    exact h.nodup
  · intro i v hv
    rcases h.sent i v hv with hwritten | hmem
    · exact .inl (List.mem_append_left _ hwritten)
    · rcases List.mem_cons.mp hmem with heq | hmem
      · obtain ⟨rfl, -⟩ := Prod.mk.inj heq
        exact .inl (by simp)
      · exact .inr hmem
  · intro i hi
    by_cases hsame : i = index
    · subst hsame
      exact ⟨value, hslot⟩
    · rw [hothers i hsame]
      refine h.filled i ((List.mem_append.mp hi).resolve_right ?_)
      simpa using hsame
  · intro i v hi
    by_cases hsame : i = index
    · subst hsame
      rw [hslot] at hi
      obtain rfl := Option.some.inj (Option.some.inj hi)
      exact ⟨by simp, hvalue⟩
    · rw [hothers i hsame] at hi
      obtain ⟨hwritten, hv⟩ := h.slots i v hi
      exact ⟨List.mem_append_left _ hwritten, hv⟩

end Delivered
def Placed (Finishes : F → T → Prop) (tasks : List F) (workers : List (Worker F T)) : Prop :=
  ∀ (index : Nat) (worker : Worker F T), workers[index]? = some worker → worker.index = index ∧
    tasks[index]? = some worker.task ∧ ∀ value, worker.phase.value = some value →
      Finishes worker.task value

/-- What the place of the caller says of the threads spawned, of the slots and of those that are filled. -/
def Located (count clock stop spawned slots filled : Nat) : Caller → Prop
  | .spawning index => spawned = index ∧ index ≤ count ∧ slots = 0
  | .checking left => spawned = count ∧ slots = count ∧ left + filled = count
  | .calling left remaining =>
    spawned = count ∧ slots = count ∧ left + 1 + filled = count ∧ stop ≤ clock + remaining
  | .waiting left remaining since =>
    spawned = count ∧ slots = count ∧ left + 1 + filled = count ∧ stop ≤ since + remaining
  | .done .received => spawned = count ∧ slots = count ∧ filled = count
  | .done .disconnected => spawned = count ∧ slots = count
  | .done .deadline => spawned = count ∧ slots = count ∧ stop ≤ clock
  | .panicked => False

structure Inv (Finishes : F → T → Prop) (tasks : List F) (s : State F T) : Prop where
  placed : Placed Finishes tasks s.workers
  delivered : Delivered s.message s.channel s.written s.results
  located : Located tasks.length s.clock s.stop s.workers.length s.results.length s.written.length
    s.caller
  closed : s.caller = .done .disconnected →
    s.channel = [] ∧ ∀ worker ∈ s.workers, ∃ value, worker.phase = .gone value

section
variable {Finishes : F → T → Prop} {tasks : List F} {deadline : Nat} {s s' : State F T} {index : Nat}
  {worker : Worker F T} {phase : Phase T}

theorem message_eq (hworker : s.workers[index]? = some worker) : s.message index = worker.phase.message := by
  rw [State.message, hworker]
  rfl

theorem message_setPhase (hworker : s.workers[index]? = some worker) :
    (s.setPhase index worker phase).message index = phase.message := by
  have hindex := (List.getElem?_eq_some_iff.mp hworker).1
  simp only [State.message, State.setPhase]
  rw [List.getElem?_set_self hindex]
  rfl

theorem message_setPhase_ne {i : Nat} (hi : i ≠ index) :
    (s.setPhase index worker phase).message i = s.message i := by
  simp only [State.message, State.setPhase]
  rw [List.getElem?_set_ne (Ne.symm hi)]

theorem message_setPhase_silent (hworker : s.workers[index]? = some worker)
    (hsilent : phase.message = worker.phase.message) (i : Nat) :
    (s.setPhase index worker phase).message i = s.message i := by
  by_cases hi : i = index
  · subst hi
    rw [message_setPhase hworker, message_eq hworker, hsilent]
  · exact message_setPhase_ne hi

theorem Placed.setPhase (h : Placed Finishes tasks s.workers) (hworker : s.workers[index]? = some worker)
    (hvalue : ∀ value, phase.value = some value → Finishes worker.task value) :
    Placed Finishes tasks (s.setPhase index worker phase).workers := by
  intro i found hfound
  obtain ⟨hindex, htask, -⟩ := h index worker hworker
  by_cases hi : i = index
  · subst hi
    have hlt := (List.getElem?_eq_some_iff.mp hworker).1
    rw [State.setPhase, List.getElem?_set_self hlt] at hfound
    obtain rfl := Option.some.inj hfound
    exact ⟨hindex, htask, hvalue⟩
  · rw [State.setPhase, List.getElem?_set_ne (Ne.symm hi)] at hfound
    exact h i found hfound

theorem Works.located (h : Works Finishes s s') : s'.caller = s.caller ∧ s'.clock = s.clock ∧
    s'.stop = s.stop ∧ s'.workers.length = s.workers.length ∧ s'.results = s.results ∧
    s'.written = s.written := by
  cases h with
  | finishes | panics | sends | drops | ends =>
    exact ⟨rfl, rfl, rfl, List.length_set, rfl, rfl⟩

theorem Works.lives (h : Works Finishes s s') :
    ∃ worker ∈ s.workers, ∀ value, worker.phase ≠ .gone value := by
  have hlives : ∀ {index : Nat} {worker : Worker F T} {phase : Phase T},
      s.workers[index]? = some worker → worker.phase = phase → (∀ value, phase ≠ .gone value) →
      ∃ worker ∈ s.workers, ∀ value, worker.phase ≠ .gone value := by
    rintro index worker phase hworker rfl hne
    exact ⟨worker, List.mem_of_getElem? hworker, hne⟩
  cases h with
  | finishes hworker hphase | panics hworker hphase | sends hworker hphase | drops hworker hphase
    | ends hworker hphase => exact hlives hworker hphase (fun value h => by cases h)

theorem Inv.works (h : Inv Finishes tasks s) (hstep : Works Finishes s s') : Inv Finishes tasks s' := by
  have hlives := hstep.lives
  obtain ⟨hcaller, hclock, hstop, hlength, hresults, hwritten⟩ := hstep.located
  refine ⟨?_, ?_, ?_, fun hdone => ?_⟩
  · cases hstep with
    | finishes hworker hphase hvalue =>
      exact h.placed.setPhase hworker fun value hreturned => by cases hreturned; exact hvalue
    | panics hworker hphase =>
      exact h.placed.setPhase hworker fun value hreturned => by cases hreturned
    | sends hworker hphase | drops hworker hphase | ends hworker hphase =>
      refine h.placed.setPhase hworker fun value hvalue => ?_
      refine (h.placed _ _ hworker).2.2 value ?_
      rw [hphase]
      exact hvalue
  · rw [hresults, hwritten]
    cases hstep with
    | finishes hworker hphase | panics hworker hphase | drops hworker hphase | ends hworker hphase =>
      refine h.delivered.congr (message_setPhase_silent hworker ?_)
      rw [hphase]
      rfl
    | sends hworker hphase =>
      rw [(h.placed _ _ hworker).1]
      refine h.delivered.sends ?_ (message_setPhase hworker) fun i => message_setPhase_ne
      rw [message_eq hworker, hphase]
      rfl
  · rw [hcaller, hclock, hstop, hlength, hresults, hwritten]
    exact h.located
  -- All the threads were gone when the caller found the channel closed.
  · obtain ⟨worker, hworker, hne⟩ := hlives
    obtain ⟨value, hgone⟩ := (h.closed (hcaller ▸ hdone)).2 worker hworker
    exact absurd hgone (hne value)

theorem message_spawn {task : F} {caller : Caller} (i : Nat) :
    State.message { s with workers := s.workers ++ [{ index, task, phase := .running }], caller } i =
      s.message i := by
  simp only [State.message]
  by_cases hi : i < s.workers.length
  · rw [List.getElem?_append_left hi]
  · rw [List.getElem?_append_right (Nat.le_of_not_lt hi), List.getElem?_eq_none (Nat.le_of_not_lt hi)]
    cases i - s.workers.length <;> rfl

theorem Placed.spawn (h : Placed Finishes tasks s.workers) {task : F}
    (htask : tasks[s.workers.length]? = some task) :
    Placed Finishes tasks (s.workers ++ [{ index := s.workers.length, task, phase := .running }]) := by
  intro i found hfound
  rcases Nat.lt_or_ge i s.workers.length with hi | hi
  · rw [List.getElem?_append_left hi] at hfound
    exact h i found hfound
  · rw [List.getElem?_append_right hi] at hfound
    obtain rfl : i = s.workers.length := by
      have hlt := (List.getElem?_eq_some_iff.mp hfound).1
      rw [List.length_singleton] at hlt
      omega
    rw [Nat.sub_self, List.getElem?_cons_zero] at hfound
    obtain rfl := Option.some.inj hfound
    exact ⟨rfl, htask, fun value hvalue => by cases hvalue⟩

theorem Inv.index_lt (h : Inv Finishes tasks s) (hspawned : s.workers.length = s.results.length)
    {value : T} {rest : List (Nat × T)} (hchannel : s.channel = (index, value) :: rest) :
    index < s.results.length := by
  have hmessage : s.message index = some value :=
    h.delivered.pending index value (hchannel ▸ List.mem_cons_self ..)
  obtain ⟨worker, hworker, -⟩ := Option.bind_eq_some_iff.mp hmessage
  rw [← hspawned]
  exact (List.getElem?_eq_some_iff.mp hworker).1

theorem Inv.calls (h : Inv Finishes tasks s) (hstep : Calls tasks deadline s s') :
    Inv Finishes tasks s' := by
  have hlocated := h.located
  cases hstep with
  | spawn hcaller htask =>
    rw [hcaller] at hlocated
    obtain ⟨rfl, hle, hslots⟩ := hlocated
    have hlt := (List.getElem?_eq_some_iff.mp htask).1
    refine ⟨h.placed.spawn htask, h.delivered.congr message_spawn, ?_, fun hdone => by cases hdone⟩
    refine ⟨?_, hlt, hslots⟩
    rw [List.length_append, List.length_singleton]
  | loop hcaller hall =>
    rw [hcaller] at hlocated
    obtain ⟨rfl, hle, hslots⟩ := hlocated
    have hspawned := hle.antisymm (List.getElem?_eq_none_iff.mp hall)
    have hdelivered := h.delivered
    rw [List.length_eq_zero_iff.mp hslots] at hdelivered
    have hwritten := hdelivered.nothing_written
    rw [hwritten] at hdelivered
    refine ⟨h.placed, ?_, ⟨hspawned, List.length_map _, ?_⟩, fun hdone => by cases hdone⟩
    · show Delivered s.message s.channel s.written _
      rw [hwritten]
      exact hdelivered.slots_made tasks
    · show tasks.length + s.written.length = tasks.length
      rw [hwritten]
      rfl
  | complete hcaller =>
    rw [hcaller] at hlocated
    obtain ⟨hspawned, hslots, hfilled⟩ := hlocated
    have hall : s.written.length = tasks.length := (Nat.zero_add _).symm.trans hfilled
    exact ⟨h.placed, h.delivered, ⟨hspawned, hslots, hall⟩, fun hdone => by cases hdone⟩
  | late hcaller hzero =>
    rw [hcaller] at hlocated
    obtain ⟨hspawned, hslots, -⟩ := hlocated
    refine ⟨h.placed, h.delivered, ⟨hspawned, hslots, ?_⟩, fun hdone => by cases hdone⟩
    exact Nat.sub_eq_zero_iff_le.mp hzero
  | check hcaller hremaining =>
    rw [hcaller] at hlocated
    obtain ⟨hspawned, hslots, hfilled⟩ := hlocated
    refine ⟨h.placed, h.delivered, ⟨hspawned, hslots, hfilled, ?_⟩, fun hdone => by cases hdone⟩
    show s.stop ≤ s.clock + (s.stop - s.clock)
    omega
  | call hcaller =>
    rw [hcaller] at hlocated
    exact ⟨h.placed, h.delivered, hlocated, fun hdone => by cases hdone⟩
  | receive hcaller hchannel hindex =>
    rw [hcaller] at hlocated
    obtain ⟨hspawned, hslots, hfilled, -⟩ := hlocated
    have hdelivered := h.delivered
    rw [hchannel] at hdelivered
    refine ⟨h.placed, hdelivered.receive hindex, ⟨hspawned, ?_, ?_⟩, fun hdone => by cases hdone⟩
    · rw [List.length_set]
      exact hslots
    · rw [List.length_append, List.length_singleton]
      omega
  | outOfBounds hcaller hchannel hindex =>
    rw [hcaller] at hlocated
    obtain ⟨hspawned, hslots, -⟩ := hlocated
    exact absurd (h.index_lt (hspawned.trans hslots.symm) hchannel) (Nat.not_lt.mpr hindex)
  | disconnect hcaller hchannel hgone =>
    rw [hcaller] at hlocated
    exact ⟨h.placed, h.delivered, ⟨hlocated.1, hlocated.2.1⟩, fun _ => ⟨hchannel, hgone⟩⟩
  | timeout hcaller hover =>
    rw [hcaller] at hlocated
    obtain ⟨hspawned, hslots, -, hstop⟩ := hlocated
    exact ⟨h.placed, h.delivered, ⟨hspawned, hslots, hstop.trans hover⟩, fun hdone => by cases hdone⟩

theorem Inv.passes (h : Inv Finishes tasks s) {clock : Nat} (hclock : s.clock ≤ clock) :
    Inv Finishes tasks { s with clock } := by
  refine ⟨h.placed, h.delivered, ?_, h.closed⟩
  have hlocated := h.located
  revert hlocated
  unfold Located
  dsimp only
  split
  · exact id
  · exact id
  · rintro ⟨hspawned, hslots, hfilled, hstop⟩
    exact ⟨hspawned, hslots, hfilled, hstop.trans (Nat.add_le_add_right hclock _)⟩
  · exact id
  · exact id
  · exact id
  · rintro ⟨hspawned, hslots, hstop⟩
    exact ⟨hspawned, hslots, hstop.trans hclock⟩
  · exact id

theorem inv_start (Finishes : F → T → Prop) (tasks : List F) (clock : Nat) :
    Inv Finishes tasks (start F T clock) := by
  refine ⟨?_, ⟨List.nodup_nil, ?_, ?_, ?_, ?_⟩, ⟨rfl, Nat.zero_le _, rfl⟩, ?_⟩
  · exact fun index worker hworker => by cases hworker
  · exact fun index value hmessage => by cases hmessage
  · exact fun index value hmem => by cases hmem
  · exact fun index hmem => by cases hmem
  · exact fun index value hslot => by cases hslot
  · exact fun hdone => by cases hdone

theorem Inv.moves (h : Inv Finishes tasks s) (hmove : Moves Finishes tasks deadline s s') :
    Inv Finishes tasks s' := by
  cases hmove with
  | steps hstep =>
    cases hstep with
    | calls hstep => exact h.calls hstep
    | works hstep => exact h.works hstep
  | passes hclock => exact h.passes hclock

theorem Reachable.inv (h : Reachable Finishes tasks deadline s) : Inv Finishes tasks s := by
  obtain ⟨clock, hmoves⟩ := h
  induction hmoves with
  | refl => exact inv_start Finishes tasks clock
  | tail _ hmove ih => exact ih.moves hmove

theorem Inv.lengths (h : Inv Finishes tasks s) (hcaller : ∀ index, s.caller ≠ .spawning index) :
    s.workers.length = tasks.length ∧ s.results.length = tasks.length := by
  have hlocated := h.located
  revert hlocated
  unfold Located
  split
  · rename_i index hspawning
    exact absurd hspawning (hcaller index)
  all_goals intro hlocated
  · exact ⟨hlocated.1, hlocated.2.1⟩
  · exact ⟨hlocated.1, hlocated.2.1⟩
  · exact ⟨hlocated.1, hlocated.2.1⟩
  · exact ⟨hlocated.1, hlocated.2.1⟩
  · exact hlocated
  · exact ⟨hlocated.1, hlocated.2.1⟩
  · exact hlocated.elim

/-- A caller that has not ended listens: no index was out of bounds. -/
theorem Inv.listens (h : Inv Finishes tasks s) (hcaller : ∀ ending, s.caller ≠ .done ending) :
    s.caller.listens = true := by
  have hlocated := h.located
  cases hplace : s.caller with
  | spawning | checking | calling | waiting => rfl
  | done ending => exact absurd hplace (hcaller ending)
  | panicked =>
    rw [hplace] at hlocated
    exact hlocated.elim

def Unrefused (s : State F T) : Prop :=
  s.caller.listens = true → ∀ worker ∈ s.workers, ∀ value, worker.phase ≠ .refused value

theorem Unrefused.moves (h : Unrefused s) (hmove : Moves Finishes tasks deadline s s') :
    Unrefused s' := by
  have hset : ∀ {index : Nat} {worker : Worker F T} {phase : Phase T},
      (s.caller.listens = true → ∀ value, phase ≠ .refused value) →
      Unrefused (s.setPhase index worker phase) := by
    intro index worker phase hphase hlistens other hother
    rcases List.mem_or_eq_of_mem_set hother with hmem | rfl
    · exact h hlistens other hmem
    · exact hphase hlistens
  cases hmove with
  | passes => exact h
  | steps hstep =>
    cases hstep with
    | works hstep =>
      cases hstep with
      | finishes | panics | ends => exact hset fun _ value hrefused => by cases hrefused
      | sends => exact hset fun _ value hrefused => by cases hrefused
      | drops _ _ hdeaf =>
        refine hset fun hlistens => ?_
        rw [hdeaf] at hlistens
        cases hlistens
    | calls hstep =>
      cases hstep with
      | spawn hcaller =>
        intro _ worker hworker
        rcases List.mem_append.mp hworker with hmem | hmem
        · exact h (by rw [hcaller]; rfl) worker hmem
        · obtain rfl := List.mem_singleton.mp hmem
          exact fun value hrefused => by cases hrefused
      | loop hcaller | check hcaller | call hcaller | receive hcaller =>
        exact fun _ => h (by rw [hcaller]; rfl)
      | complete | late | outOfBounds | disconnect | timeout => exact fun hlistens => by cases hlistens

theorem Reachable.unrefused (h : Reachable Finishes tasks deadline s) : Unrefused s := by
  obtain ⟨clock, hmoves⟩ := h
  induction hmoves with
  | refl => exact fun _ => List.forall_mem_nil _
  | tail _ hmove ih => exact ih.moves hmove

/-- With the channel drained and nobody left with a value to send, each slot holds what its task has
finished with. -/
theorem Inv.results_eq (h : Inv Finishes tasks s) (hspawned : s.workers.length = s.results.length)
    (hchannel : s.channel = [])
    (hsent : ∀ worker ∈ s.workers, worker.phase.message = worker.phase.value) :
    s.results = s.workers.map (·.phase.value) := by
  have hdelivered := h.delivered
  rw [hchannel] at hdelivered
  apply List.ext_getElem?
  intro index
  rcases Nat.lt_or_ge index s.results.length with hindex | hindex
  · obtain ⟨worker, hworker⟩ : ∃ worker, s.workers[index]? = some worker :=
      ⟨_, List.getElem?_eq_getElem (hspawned ▸ hindex)⟩
    rw [hdelivered.slot_eq hindex, List.getElem?_map, hworker, Option.map_some, message_eq hworker,
      hsent worker (List.mem_of_getElem? hworker)]
  · rw [List.getElem?_eq_none hindex, List.getElem?_eq_none]
    rw [List.length_map, hspawned]
    exact hindex

end
end CollectWithin
end PimDiscovery
