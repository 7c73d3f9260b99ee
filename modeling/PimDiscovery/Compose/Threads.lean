import Mathlib.Logic.Relation
import PimDiscovery.Compose.Passes
import PimDiscovery.Interaction.Environment

/-! The threads of the client, the channel they report to and the clock, as they move on their own
between the questions of a run. -/

namespace PimDiscovery
open Interaction

deriving instance DecidableEq for Task

instance (entry : Sigma Task) (entries : List (Sigma Task)) : Decidable (entry ∈ entries) :=
  inferInstance

structure Threads where
  clock : Nat
  kind : TaskKind
  running : List (Nat × Task kind)
  channel : List (Nat × kind.Result)

namespace Threads
variable {o : Answers} {kind : TaskKind} {clock : Nat} {tasks : List (Task kind)} {t t' : Threads}

/-- Time passes, and a running thread ends as `o` says: with a report, or in a panic. -/
inductive Moves (o : Answers) : Threads → Threads → Prop where
  | passes {kind : TaskKind} {running : List (Nat × Task kind)} {channel : List (Nat × kind.Result)}
      {clock clock' : Nat} (h : clock ≤ clock') :
      Moves o ⟨clock, kind, running, channel⟩ ⟨clock', kind, running, channel⟩
  | reports {kind : TaskKind} {left right : List (Nat × Task kind)}
      {channel : List (Nat × kind.Result)} {clock index : Nat} {task : Task kind}
      {value : kind.Result} (h : o (.join kind task) = some value) :
      Moves o ⟨clock, kind, left ++ (index, task) :: right, channel⟩
        ⟨clock, kind, left ++ right, channel ++ [(index, value)]⟩
  | panics {kind : TaskKind} {left right : List (Nat × Task kind)}
      {channel : List (Nat × kind.Result)} {clock index : Nat} {task : Task kind}
      (h : o (.join kind task) = none) :
      Moves o ⟨clock, kind, left ++ (index, task) :: right, channel⟩
        ⟨clock, kind, left ++ right, channel⟩

abbrev Idles (o : Answers) : Threads → Threads → Prop := Relation.ReflTransGen (Moves o)

/-- How the threads answer an effect. The first spawn of a fan-out opens a channel, and what still runs
of an earlier one reports to nobody; a receive takes the oldest report, and ends without one when no
thread is left to report or its time is over. -/
inductive Serves (o : Answers) : Threads → (effect : Effect) → effect.Answer → Threads → Prop where
  | run {t t' : Threads} {job : Job} (h : Idles o t t') : Serves o t (.run job) (o (.run job)) t'
  | join {t t' : Threads} {kind : TaskKind} {task : Task kind} (h : Idles o t t') :
      Serves o t (.join kind task) (o (.join kind task)) t'
  | opens {t t' : Threads} {kind : TaskKind} {task : Task kind} (h : Idles o t t') :
      Serves o t (.spawn kind 0 task) () ⟨t'.clock, kind, [(0, task)], []⟩
  | spawns {t : Threads} {kind : TaskKind} {running : List (Nat × Task kind)}
      {channel : List (Nat × kind.Result)} {clock index : Nat} {task : Task kind}
      (h : Idles o t ⟨clock, kind, running, channel⟩) :
      Serves o t (.spawn kind (index + 1) task) ()
        ⟨clock, kind, running ++ [(index + 1, task)], channel⟩
  | now {t t' : Threads} (h : Idles o t t') : Serves o t .now t'.clock t'
  | received {t : Threads} {kind : TaskKind} {running : List (Nat × Task kind)}
      {channel : List (Nat × kind.Result)} {report : Nat × kind.Result} {clock remaining : Nat}
      {tasks : List (Task kind)} (h : Idles o t ⟨clock, kind, running, report :: channel⟩) :
      Serves o t (.recv kind tasks remaining) (some report) ⟨clock, kind, running, channel⟩
  | disconnected {t : Threads} {kind : TaskKind} {clock remaining : Nat} {tasks : List (Task kind)}
      (h : Idles o t ⟨clock, kind, [], []⟩) :
      Serves o t (.recv kind tasks remaining) none ⟨clock, kind, [], []⟩
  | timedOut {t : Threads} {kind : TaskKind} {running : List (Nat × Task kind)}
      {clock remaining : Nat} {tasks : List (Task kind)}
      (h : Idles o t ⟨clock, kind, running, []⟩) (hover : t.clock + remaining ≤ clock) :
      Serves o t (.recv kind tasks remaining) none ⟨clock, kind, running, []⟩

theorem Moves.clock_le (h : Moves o t t') : t.clock ≤ t'.clock := by
  cases h with
  | passes h => exact h
  | reports | panics => exact le_rfl

theorem Idles.clock_le (h : Idles o t t') : t.clock ≤ t'.clock := by
  induction h with
  | refl => exact le_rfl
  | tail _ hmove ih => exact ih.trans hmove.clock_le

theorem Serves.clock_le {effect : Effect} {answer : effect.Answer} (h : Serves o t effect answer t') :
    t.clock ≤ t'.clock := by
  cases h with
  | run h | join h | opens h | spawns h | now h | received h | disconnected h | timedOut h =>
    exact h.clock_le

/-- The threads and the channel of a fan-out with so many tasks spawned and so many receives to go. A
task is running, has reported or panicked, or its report was taken. -/
structure Accounts (o : Answers) (tasks : List (Task kind)) (spawned count : Nat)
    (taken : List (Sigma Task)) (running : List (Nat × Task kind))
    (channel : List (Nat × kind.Result)) : Prop where
  threads : ∀ thread ∈ running, tasks[thread.1]? = some thread.2
  reports : ∀ report ∈ channel, ∃ task, tasks[report.1]? = some task ∧
    o (.join kind task) = some report.2
  few : running.length + channel.length ≤ count
  account : ∀ index < spawned, ∀ task, tasks[index]? = some task → (index, task) ∈ running ∨
    (∃ value, (index, value) ∈ channel) ∨ ⟨kind, task⟩ ∈ taken ∨ o (.join kind task) = none

def Serving (o : Answers) (tasks : List (Task kind)) (spawned count : Nat)
    (taken : List (Sigma Task)) (t : Threads) : Prop :=
  ∃ clock running channel, t = ⟨clock, kind, running, channel⟩ ∧
    Accounts o tasks spawned count taken running channel

variable {spawned count : Nat} {taken : List (Sigma Task)}

theorem Serving.moves (h : Serving o tasks spawned count taken t) (hmove : Moves o t t') :
    Serving o tasks spawned count taken t' := by
  obtain ⟨clock, running, channel, rfl, hrunning, hchannel, hcount, htask⟩ := h
  cases hmove with
  | passes => exact ⟨_, _, _, rfl, hrunning, hchannel, hcount, htask⟩
  | @reports _ left right _ _ index task value hvalue =>
    have hleft : left ++ right ⊆ left ++ (index, task) :: right :=
      ((List.sublist_cons_self _ right).append_left left).subset
    refine ⟨_, _, _, rfl, fun thread hthread => hrunning thread (hleft hthread), ?_, ?_,
      fun i hi found hfound => ?_⟩
    · rw [List.forall_mem_append, List.forall_mem_singleton]
      exact ⟨hchannel, task, hrunning (index, task) (by simp), hvalue⟩
    · simp only [List.length_append, List.length_cons, List.length_nil] at hcount ⊢
      omega
    -- The reporting thread leaves the running ones with its value in the channel.
    · rcases htask i hi found hfound with hmem | ⟨v, hmem⟩ | hrest
      · rcases List.mem_cons.mp (List.perm_middle.mem_iff.mp hmem) with heq | hmem
        · obtain ⟨rfl, rfl⟩ := Prod.mk.inj heq
          exact .inr (.inl ⟨value, by simp⟩)
        · exact .inl hmem
      · exact .inr (.inl ⟨v, List.mem_append_left _ hmem⟩)
      · exact .inr (.inr hrest)
  | @panics _ left right _ _ index task hnone =>
    have hleft : left ++ right ⊆ left ++ (index, task) :: right :=
      ((List.sublist_cons_self _ right).append_left left).subset
    refine ⟨_, _, _, rfl, fun thread hthread => hrunning thread (hleft hthread), hchannel, ?_,
      fun i hi found hfound => ?_⟩
    · simp only [List.length_append, List.length_cons] at hcount ⊢
      omega
    -- A thread that panics is gone without a value.
    · rcases htask i hi found hfound with hmem | hrest
      · rcases List.mem_cons.mp (List.perm_middle.mem_iff.mp hmem) with heq | hmem
        · obtain ⟨rfl, rfl⟩ := Prod.mk.inj heq
          exact .inr (.inr (.inr hnone))
        · exact .inl hmem
      · exact .inr hrest

theorem Serving.idles (h : Serving o tasks spawned count taken t) (hidles : Idles o t t') :
    Serving o tasks spawned count taken t' := by
  induction hidles with
  | refl => exact h
  | tail _ hmove ih => exact ih.moves hmove

theorem Serving.now (h : Serving o tasks spawned count taken t) {answer : Nat}
    (hs : Serves o t .now answer t') : Serving o tasks spawned count taken t' ∧ answer = t'.clock := by
  cases hs with
  | now hidles => exact ⟨h.idles hidles, rfl⟩

theorem Serving.recv (h : Serving o tasks spawned (count + 1) taken t) {remaining : Nat}
    {report : Nat × kind.Result} (hs : Serves o t (.recv kind tasks remaining) (some report) t') :
    ∃ task, tasks[report.1]? = some task ∧ o (.join kind task) = some report.2 ∧
      Serving o tasks spawned count (taken ++ [⟨kind, task⟩]) t' := by
  cases hs with
  | received hidles =>
    obtain ⟨_, _, _, heq, hrunning, hchannel, hcount, htask⟩ := h.idles hidles
    cases heq
    rw [List.forall_mem_cons] at hchannel
    obtain ⟨⟨task, hindex, hvalue⟩, hchannel⟩ := hchannel
    refine ⟨task, hindex, hvalue, _, _, _, rfl, hrunning, hchannel, ?_, fun i hi found hfound => ?_⟩
    · simp only [List.length_cons] at hcount
      omega
    · rcases htask i hi found hfound with hmem | ⟨v, hmem⟩ | hmem | hnone
      · exact .inl hmem
      · rcases List.mem_cons.mp hmem with heq | hmem
        · obtain rfl : found = task := by
            rw [← heq, hfound] at hindex
            exact Option.some.inj hindex
          exact .inr (.inr (.inl (by simp)))
        · exact .inr (.inl ⟨v, hmem⟩)
      · exact .inr (.inr (.inl (List.mem_append_left _ hmem)))
      · exact .inr (.inr (.inr hnone))

theorem Accounts.done {running : List (Nat × Task kind)} {channel : List (Nat × kind.Result)}
    (h : Accounts o tasks tasks.length 0 taken running channel) {task : Task kind}
    (htask : task ∈ tasks) : ⟨kind, task⟩ ∈ taken ∨ o (.join kind task) = none := by
  obtain ⟨index, hindex⟩ := List.mem_iff_getElem?.mp htask
  have hlength : running.length + channel.length = 0 := Nat.le_zero.mp h.few
  obtain ⟨hrunning, hchannel⟩ := Nat.add_eq_zero_iff.mp hlength
  rw [List.length_eq_zero_iff] at hrunning hchannel
  have hlt : index < tasks.length := (List.getElem?_eq_some_iff.mp hindex).1
  have hcases := h.account index hlt task hindex
  rw [hrunning, hchannel] at hcases
  simpa using hcases

theorem Serving.ended (h : Serving o tasks tasks.length count taken t) {remaining : Nat}
    (hs : Serves o t (.recv kind tasks remaining) none t') :
    (∀ task ∈ tasks, ⟨kind, task⟩ ∈ taken ∨ o (.join kind task) = none) ∨
      t.clock + remaining ≤ t'.clock := by
  cases hs with
  | disconnected hidles =>
    obtain ⟨_, _, _, heq, hrunning, hchannel, -, htask⟩ := h.idles hidles
    cases heq
    have haccounts : Accounts o tasks tasks.length 0 taken [] [] :=
      ⟨hrunning, hchannel, le_rfl, htask⟩
    exact .inl fun task => haccounts.done
  | timedOut _ hover => exact .inr hover

theorem serving_opens {task : Task kind} (htask : tasks[0]? = some task)
    (hs : Serves o t (.spawn kind 0 task) () t') : Serving o tasks 1 1 taken t' := by
  cases hs with
  | opens =>
    refine ⟨_, _, _, rfl, fun thread hthread => ?_, List.forall_mem_nil _, le_rfl,
      fun index hindex found hfound => ?_⟩
    · obtain rfl := List.mem_singleton.mp hthread
      exact htask
    · obtain rfl : index = 0 := by omega
      rw [htask] at hfound
      obtain rfl := Option.some.inj hfound
      exact .inl (List.mem_singleton_self _)

theorem Serving.spawns {index : Nat} (h : Serving o tasks (index + 1) (index + 1) taken t)
    {task : Task kind} (htask : tasks[index + 1]? = some task)
    (hs : Serves o t (.spawn kind (index + 1) task) () t') :
    Serving o tasks (index + 2) (index + 2) taken t' := by
  cases hs with
  | spawns hidles =>
    obtain ⟨_, _, _, heq, hrunning, hchannel, hcount, haccount⟩ := h.idles hidles
    cases heq
    refine ⟨_, _, _, rfl, fun thread hthread => ?_, hchannel, ?_, fun i hi found hfound => ?_⟩
    · rcases List.mem_append.mp hthread with hmem | hmem
      · exact hrunning thread hmem
      · obtain rfl := List.mem_singleton.mp hmem
        exact htask
    · simp only [List.length_append, List.length_singleton]
      omega
    · rcases Nat.lt_succ_iff_lt_or_eq.mp hi with hi | rfl
      · rcases haccount i hi found hfound with hmem | hrest
        · exact .inl (List.mem_append_left _ hmem)
        · exact .inr hrest
      · rw [htask] at hfound
        obtain rfl := Option.some.inj hfound
        exact .inl (by simp)

/-! A schedule in which the threads have ended whenever the client asks for something. -/

def flush (o : Answers) (t : Threads) : Threads :=
  { t with
    running := []
    channel := t.channel ++ t.running.filterMap fun thread =>
      (o (.join t.kind thread.2)).map (thread.1, ·) }

theorem idles_flush (o : Answers) (t : Threads) : Idles o t (flush o t) := by
  obtain ⟨clock, kind, running, channel⟩ := t
  induction running generalizing channel with
  | nil =>
    simp only [flush, List.filterMap_nil, List.append_nil]
    exact .refl
  | cons thread running ih =>
    obtain ⟨index, task⟩ := thread
    cases hresult : o (.join kind task) with
    | none =>
      have hflush : flush o ⟨clock, kind, (index, task) :: running, channel⟩ =
          flush o ⟨clock, kind, running, channel⟩ := by
        simp [flush, hresult]
      rw [hflush]
      have hmove : Moves o ⟨clock, kind, [] ++ (index, task) :: running, channel⟩
          ⟨clock, kind, [] ++ running, channel⟩ := .panics hresult
      exact .head hmove (ih channel)
    | some value =>
      have hflush : flush o ⟨clock, kind, (index, task) :: running, channel⟩ =
          flush o ⟨clock, kind, running, channel ++ [(index, value)]⟩ := by
        simp [flush, hresult]
      rw [hflush]
      have hmove : Moves o ⟨clock, kind, [] ++ (index, task) :: running, channel⟩
          ⟨clock, kind, [] ++ running, channel ++ [(index, value)]⟩ := .reports hresult
      exact .head hmove (ih _)

/-- So much time passes before a look at the clock, by the kind of the last fan-out. -/
def schedule (o : Answers) (delay : TaskKind → Nat) (t : Threads) :
    (effect : Effect) → Option (effect.Answer × Threads)
  | .run job => some (o (.run job), t)
  | .join kind task => some (o (.join kind task), t)
  | .spawn kind 0 task => some ((), ⟨t.clock, kind, [(0, task)], []⟩)
  | .spawn kind (index + 1) task =>
    if h : kind = t.kind then
      some ((), { flush o t with running := [(index + 1, h ▸ task)] })
    else none
  | .recv kind _ _ =>
    if h : t.kind = kind then
      match (flush o t).channel with
      | [] => some (none, flush o t)
      | report :: channel => some (some (h ▸ report), { flush o t with channel })
    else none
  | .now =>
    let t' := { flush o t with clock := t.clock + delay t.kind }
    some (t'.clock, t')

theorem schedule_serves {delay : TaskKind → Nat} {effect : Effect} {answer : effect.Answer}
    (h : schedule o delay t effect = some (answer, t')) : Serves o t effect answer t' := by
  obtain ⟨clock, kind', running, channel⟩ := t
  have hflush : Idles o ⟨clock, kind', running, channel⟩
      ⟨clock, kind', [], (flush o ⟨clock, kind', running, channel⟩).channel⟩ := idles_flush o _
  cases effect with
  | run job =>
    cases h
    exact .run .refl
  | join kind task =>
    cases h
    exact .join .refl
  | spawn kind index task =>
    cases index with
    | zero =>
      cases h
      exact .opens .refl
    | succ index =>
      simp only [schedule] at h
      split at h
      · rename_i hkind
        subst hkind
        cases h
        exact .spawns hflush
      · cases h
  | recv kind tasks remaining =>
    simp only [schedule] at h
    split at h
    · rename_i hkind
      subst hkind
      split at h
      · rename_i hchannel
        have hsilent : flush o ⟨clock, kind', running, channel⟩ = ⟨clock, kind', [], []⟩ :=
          congrArg (Threads.mk clock kind' []) hchannel
        rw [hsilent] at h
        cases h
        rw [hchannel] at hflush
        exact .disconnected hflush
      · rename_i report rest hchannel
        cases h
        rw [hchannel] at hflush
        exact .received hflush
    · cases h
  | now =>
    cases h
    exact .now (hflush.tail (.passes (Nat.le_add_right clock _)))

end Threads

/-! What a run leaves behind: the tasks it has spawned, the reports it has taken, and the time it has
waited for them. -/

abbrev Trace : Type := List (Moment Threads Effect Effect.Answer)

def Effect.spawned : Effect → Option (Sigma Task)
  | .spawn kind _ task => some ⟨kind, task⟩
  | _ => none

def Effect.taken : (effect : Effect) → effect.Answer → Option (Sigma Task)
  | .recv kind tasks _, some report => tasks[report.1]?.map fun task => ⟨kind, task⟩
  | _, _ => none

def Effect.isReceive : Effect → Bool
  | .recv _ _ _ => true
  | _ => false

def Effect.observes : Effect → Bool
  | .recv _ _ _ | .now => true
  | _ => false

namespace Trace

def spawned (trace : Trace) : List (Sigma Task) := trace.filterMap (·.question.spawned)

def taken (trace : Trace) : List (Sigma Task) :=
  trace.filterMap fun moment => moment.question.taken moment.answer

def late (trace : Trace) : List (Sigma Task) := trace.spawned.filter (· ∉ trace.taken)

def waited : Trace → Nat
  | [] => 0
  | moment :: trace =>
    (if moment.question.isReceive then moment.after.clock - moment.before.clock else 0) + waited trace

variable (trace new : Trace)

@[simp] theorem spawned_append : Trace.spawned (trace ++ new) = spawned trace ++ spawned new :=
  List.filterMap_append

@[simp] theorem taken_append : Trace.taken (trace ++ new) = taken trace ++ taken new :=
  List.filterMap_append

@[simp] theorem waited_append : Trace.waited (trace ++ new) = waited trace + waited new := by
  induction trace with
  | nil => exact (Nat.zero_add _).symm
  | cons moment trace ih =>
    rw [List.cons_append, waited, waited, ih, Nat.add_assoc]

/-- Since a time at which `waited` had been spent in receives, no more than the time that has passed. -/
def Spent (since waited : Nat) (trace : Trace) (t : Threads) : Prop :=
  since + trace.waited ≤ waited + t.clock

def Overdue (limit : Nat) (trace : Trace) : Prop :=
  ∃ moment ∈ trace, moment.question.observes = true ∧ limit ≤ moment.after.clock

/-- All threads have reported or panicked by every time the client observes. -/
def Prompt (trace : Trace) : Prop :=
  ∀ moment ∈ trace, moment.question.observes = true → moment.after.running = []

def Settled (o : Answers) (trace : Trace) : Prop :=
  ∀ entry ∈ trace.spawned, entry ∈ trace.taken ∨ o (.join entry.1 entry.2) = none

def Ended (o : Answers) (limit : Nat) (trace : Trace) : Prop := Overdue limit trace ∨ Settled o trace

variable {trace new} {o : Answers}

theorem settled_nil (o : Answers) : Settled o [] := List.forall_mem_nil _

theorem Settled.append (h : Settled o trace) (hnew : Settled o new) : Settled o (trace ++ new) := by
  intro entry he
  rw [spawned_append] at he
  rw [taken_append]
  rcases List.mem_append.mp he with he | he
  · exact (h entry he).imp_left (List.mem_append_left _)
  · exact (hnew entry he).imp_left (List.mem_append_right _)

theorem Overdue.mono {limit limit' : Nat} (h : Overdue limit trace) (hlimit : limit' ≤ limit)
    {trace' : Trace} (htrace : trace ⊆ trace') : Overdue limit' trace' := by
  obtain ⟨moment, hmoment, hlooks, hclock⟩ := h
  exact ⟨moment, htrace hmoment, hlooks, hlimit.trans hclock⟩

theorem Ended.mono {limit limit' : Nat} (h : Ended o limit trace) (hlimit : limit' ≤ limit) :
    Ended o limit' trace := h.imp_left fun hover => hover.mono hlimit (List.Subset.refl _)

theorem Ended.append {limit limit' : Nat} (h : Ended o limit trace) (hlimit : limit ≤ limit')
    (hnew : Ended o limit' new) : Ended o limit (trace ++ new) := by
  rcases h with hover | hsettled
  · exact .inl (hover.mono le_rfl (List.subset_append_left trace new))
  · rcases hnew with hover | hnew
    · exact .inl (hover.mono hlimit (List.subset_append_right trace new))
    · exact .inr (hsettled.append hnew)

theorem Spent.step {since waited : Nat} {t t' : Threads} (hspent : Spent since waited trace t)
    {effect : Effect} {answer : effect.Answer} (h : Threads.Serves o t effect answer t') :
    Spent since waited (trace ++ [⟨t, effect, answer, t'⟩]) t' := by
  have hclock := h.clock_le
  have hmoment : Trace.waited [⟨t, effect, answer, t'⟩] ≤ t'.clock - t.clock := by
    simp only [Trace.waited, Nat.add_zero]
    split
    · exact le_rfl
    · exact Nat.zero_le _
  unfold Spent at hspent ⊢
  rw [waited_append]
  omega

/-- What is left of a deadline can be spent without going over it, and only past the deadline is it
spent. -/
theorem Spent.left {since deadline : Nat} {t : Threads} (h : Spent since 0 trace t) :
    (deadline - (t.clock - since) ≠ 0 → trace.waited + (deadline - (t.clock - since)) ≤ deadline) ∧
      since + deadline ≤ t.clock + (deadline - (t.clock - since)) := by
  unfold Spent at h
  omega

structure Looked (trace trace' : Trace) : Prop where
  kept : trace ⊆ trace'
  spawned : trace'.spawned = trace.spawned
  taken : trace'.taken = trace.taken
  waited : trace'.waited = trace.waited

theorem Looked.ended {trace' : Trace} (h : Looked trace trace') {limit : Nat}
    (hended : Ended o limit trace) : Ended o limit trace' := by
  rcases hended with hover | hsettled
  · exact .inl (hover.mono le_rfl h.kept)
  · refine .inr fun entry he => ?_
    rw [h.spawned] at he
    rw [h.taken]
    exact hsettled entry he

end Trace

/-- The answers of threads of which some are too late to be heard. -/
def Answers.without (o : Answers) (late : List (Sigma Task)) : Answers
  | .join kind task => if ⟨kind, task⟩ ∈ late then none else o (.join kind task)
  | effect => o effect

/-- A receive that waits no longer than the earlier ones leave of the deadline, or no wait at all. -/
def Effect.Affords (deadline : Nat) (trace : Trace) : Effect → Prop
  | .recv _ _ remaining => trace.waited + remaining ≤ deadline
  | .spawn _ _ _ | .now => True
  | .run _ | .join _ _ => False

section
variable {o : Answers} {kind : TaskKind} {tasks : List (Task kind)} {deadline : Nat}

def heard (o : Answers) (tasks : List (Task kind)) (taken : List (Sigma Task)) :
    List (Option kind.Result) :=
  tasks.map fun task => if ⟨kind, task⟩ ∈ taken then o (.join kind task) else none

theorem heard_set (hnodup : tasks.Nodup) (taken : List (Sigma Task)) {index : Nat} {task : Task kind}
    {value : kind.Result} (htask : tasks[index]? = some task)
    (hvalue : o (.join kind task) = some value) :
    (heard o tasks taken).set index (some value) = heard o tasks (taken ++ [⟨kind, task⟩]) := by
  obtain ⟨hindex, rfl⟩ := List.getElem?_eq_some_iff.mp htask
  unfold heard
  apply List.ext_getElem
  · simp
  · intro i hi hi'
    have hlength : i < tasks.length := by simpa using hi'
    rw [List.getElem_set, List.getElem_map, List.getElem_map]
    by_cases heq : index = i
    · subst heq
      simp [hvalue]
    · have hne : tasks[i] ≠ tasks[index] := fun h => heq ((hnodup.getElem_inj_iff).mp h).symm
      simp [heq, hne]

theorem heard_append {taken : List (Sigma Task)} (h : ∀ entry ∈ taken, entry.1 ≠ kind)
    (taken' : List (Sigma Task)) : heard o tasks (taken ++ taken') = heard o tasks taken' := by
  refine List.map_congr_left fun task _ => ?_
  have hnone : ⟨kind, task⟩ ∉ taken := fun hmem => h _ hmem rfl
  simp only [List.mem_append, hnone, false_or]

structure FannedOut (o : Answers) (tasks : List (Task kind)) (new : Trace)
    (results : List (Option kind.Result)) : Prop where
  spawned : new.spawned = tasks.map fun task => ⟨kind, task⟩
  taken : ∀ entry ∈ new.taken, entry.1 = kind
  answered : ∀ entry ∈ new.taken, o (.join entry.1 entry.2) ≠ none
  results : results = heard o tasks new.taken

theorem FannedOut.settled {new : Trace} {results : List (Option kind.Result)}
    (h : FannedOut o tasks new results)
    (hdone : ∀ task ∈ tasks, ⟨kind, task⟩ ∈ new.taken ∨ o (.join kind task) = none) :
    Trace.Settled o new := by
  intro entry he
  rw [h.spawned] at he
  obtain ⟨task, htask, rfl⟩ := List.mem_map.mp he
  exact hdone task htask

theorem FannedOut.look {new : Trace} {results : List (Option kind.Result)}
    (h : FannedOut o tasks new results) {moment : Moment Threads Effect Effect.Answer}
    (hspawned : moment.question.spawned = none)
    (htaken : moment.question.taken moment.answer = none) :
    FannedOut o tasks (new ++ [moment]) results := by
  have hnew : Trace.spawned [moment] = [] := List.filterMap_cons_none hspawned
  have hnone : Trace.taken [moment] = [] := List.filterMap_cons_none htaken
  refine ⟨?_, ?_, ?_, ?_⟩
  · rw [Trace.spawned_append, hnew, List.append_nil]
    exact h.spawned
  · rw [Trace.taken_append, hnone, List.append_nil]
    exact h.taken
  · rw [Trace.taken_append, hnone, List.append_nil]
    exact h.answered
  · rw [Trace.taken_append, hnone, List.append_nil]
    exact h.results

theorem FannedOut.last {task : Task kind} {new : Trace} {results : List (Option kind.Result)}
    (h : FannedOut o [task] new results) : results.getLast?.join =
      if ⟨kind, task⟩ ∈ new.taken then o (.join kind task) else none := by
  rw [h.results]
  rfl

theorem taken_received {t t' : Threads} {remaining : Nat} {report : Nat × kind.Result}
    {task : Task kind} (htask : tasks[report.1]? = some task) :
    Trace.taken [⟨t, .recv kind tasks remaining, some report, t'⟩] = [⟨kind, task⟩] := by
  apply List.filterMap_cons_some
  show tasks[report.1]?.map _ = _
  rw [htask]
  rfl

theorem FannedOut.receive (hnodup : tasks.Nodup) {new : Trace} {results : List (Option kind.Result)}
    (h : FannedOut o tasks new results) {t t' : Threads} {remaining : Nat}
    {report : Nat × kind.Result} {task : Task kind} (htask : tasks[report.1]? = some task)
    (hvalue : o (.join kind task) = some report.2) :
    FannedOut o tasks (new ++ [⟨t, .recv kind tasks remaining, some report, t'⟩])
      (results.set report.1 (some report.2)) := by
  have hnew : Trace.taken [⟨t, .recv kind tasks remaining, some report, t'⟩] = [⟨kind, task⟩] :=
    taken_received htask
  refine ⟨?_, ?_, ?_, ?_⟩
  · rw [Trace.spawned_append]
    exact (List.append_nil _).trans h.spawned
  · rw [Trace.taken_append, hnew, List.forall_mem_append]
    exact ⟨h.taken, by simp⟩
  · rw [Trace.taken_append, hnew, List.forall_mem_append, List.forall_mem_singleton, hvalue]
    exact ⟨h.answered, nofun⟩
  · rw [Trace.taken_append, hnew, h.results]
    exact heard_set hnodup _ htask hvalue

namespace Compose

theorem now_upholds {α : Type} {asks : Trace → Threads → Effect → Prop}
    {post : Trace → Threads → α → Prop} {f : Nat → Compose α} {trace : Trace} {t : Threads}
    (hasks : asks trace t .now)
    (hf : ∀ trace' t', Trace.Looked trace trace' → t.clock ≤ t'.clock → (∀ since waited,
      Trace.Spent since waited trace t → Trace.Spent since waited trace' t') →
        (f t'.clock).Upholds (Threads.Serves o) asks post trace' t') :
    (ask .now >>= f).Upholds (Threads.Serves o) asks post trace t := by
  refine ⟨hasks, fun now t' hs => ?_⟩
  have hlooked : Trace.Looked trace (trace ++ [⟨t, .now, now, t'⟩]) := by
    refine ⟨List.subset_append_left _ _, ?_, ?_, ?_⟩
    · exact (Trace.spawned_append _ _).trans (List.append_nil _)
    · exact (Trace.taken_append _ _).trans (List.append_nil _)
    · exact Trace.waited_append _ _
  have hclock := hs.clock_le
  have hspent : ∀ since waited, Trace.Spent since waited trace t →
      Trace.Spent since waited (trace ++ [⟨t, .now, now, t'⟩]) t' := fun _ _ h => h.step hs
  cases hs with
  | now => exact hf _ t' hlooked hclock hspent

theorem spawnFrom_upholds {index : Nat} {rest : List (Task kind)} (hrest : rest = tasks.drop index)
    (hindex : index ≤ tasks.length) {trace : Trace} {t : Threads}
    (hserving : index ≠ 0 → Threads.Serving o tasks index index [] t) :
    (spawnFrom index rest).Upholds (Threads.Serves o) (fun trace _ q => q.Affords deadline trace)
      (fun trace' t' _ => t.clock ≤ t'.clock ∧ ∃ new, trace' = trace ++ new ∧
        Trace.spawned new = rest.map (fun task => ⟨kind, task⟩) ∧ Trace.taken new = [] ∧
        Trace.waited new = 0 ∧
        (tasks ≠ [] → Threads.Serving o tasks tasks.length tasks.length [] t')) trace t := by
  induction rest generalizing index trace t with
  | nil =>
    refine ⟨le_rfl, [], by simp, rfl, rfl, rfl, fun htasks => ?_⟩
    have hlength : tasks.length = index := hindex.antisymm' (List.drop_eq_nil_iff.mp hrest.symm)
    rw [hlength]
    apply hserving
    rw [← hlength]
    exact fun hnil => htasks (List.length_eq_zero_iff.mp hnil)
  | cons task rest ih =>
    have htask : tasks[index]? = some task := by
      rw [← List.head?_drop, ← hrest, List.head?_cons]
    have hdrop : rest = tasks.drop (index + 1) := by
      rw [← List.tail_drop, ← hrest, List.tail_cons]
    have hlt : index < tasks.length := (List.getElem?_eq_some_iff.mp htask).1
    have hspawned : ∀ t', Threads.Serves o t (.spawn kind index task) () t' →
        Threads.Serving o tasks (index + 1) (index + 1) [] t' := by
      intro t' hs
      cases index with
      -- The first spawn opens the channel, the others share it.
      | zero => exact Threads.serving_opens htask hs
      | succ index => exact (hserving (Nat.succ_ne_zero index)).spawns htask hs
    refine ⟨trivial, fun _ t' hs => ?_⟩
    refine (ih hdrop hlt fun _ => hspawned t' hs).mono (fun _ _ _ hq => hq) fun trace' t'' _ => ?_
    rintro ⟨hclock, new, rfl, hnew, htaken, hwaited, hserving'⟩
    refine ⟨hs.clock_le.trans hclock, ⟨t, .spawn kind index task, (), t'⟩ :: new, by simp, ?_, htaken,
      ?_, hserving'⟩
    · rw [List.map_cons, ← hnew]
      rfl
    · rw [← hwaited]
      exact Nat.zero_add _

/-- The loop over the channel, with the reports taken so far in their slots. -/
theorem receive_upholds (hnodup : tasks.Nodup) {since left count : Nat} {before new : Trace}
    (hleft : left ≠ 0 → before.waited + left ≤ deadline) {t : Threads}
    (hcount : tasks = [] → count = 0)
    (hserving : tasks ≠ [] → Threads.Serving o tasks tasks.length count new.taken t)
    (hspent : Trace.Spent since before.waited (before ++ new) t)
    {results : List (Option kind.Result)} (h : FannedOut o tasks new results) :
    (receive tasks (since + left) count results).Upholds (Threads.Serves o)
      (fun trace _ q => q.Affords deadline trace)
      (fun trace _ results => ∃ new, trace = before ++ new ∧ FannedOut o tasks new results ∧
        Trace.Ended o (since + left) new) (before ++ new) t := by
  induction count generalizing new t results with
  | zero =>
    -- Every thread has reported or ended: there is nothing left to receive.
    refine ⟨new, rfl, h, .inr (h.settled fun task htask => ?_)⟩
    obtain ⟨_, _, _, rfl, haccounts⟩ := hserving (List.ne_nil_of_mem htask)
    exact haccounts.done htask
  | succ count ih =>
    have hne : tasks ≠ [] := fun hnil => Nat.succ_ne_zero count (hcount hnil)
    refine ⟨trivial, fun now t' hs => ?_⟩
    obtain ⟨hserving', rfl⟩ := (hserving hne).now hs
    have hspent' := hspent.step hs
    have hlooked : FannedOut o tasks (new ++ [⟨t, .now, t'.clock, t'⟩]) results := h.look rfl rfl
    rw [List.append_assoc] at hspent' ⊢
    show Prog.Upholds _ _ _ (if since + left - t'.clock = 0 then _ else _) _ _
    split
    -- The deadline has passed: the loop stops with what it has.
    · rename_i hover
      refine ⟨_, rfl, hlooked, .inl
        ⟨_, List.mem_append_right _ (List.mem_singleton_self _), rfl, ?_⟩⟩
      show since + left ≤ t'.clock
      omega
    -- Otherwise it waits for what is left, which the budget affords.
    · rename_i hremaining
      refine ⟨?_, fun answer t'' hs' => ?_⟩
      · show Trace.waited _ + (since + left - t'.clock) ≤ deadline
        unfold Trace.Spent at hspent'
        rw [Trace.waited_append] at hspent' ⊢
        have hbudget := hleft (by omega)
        omega
      · have hspent'' := hspent'.step hs'
        have htaken : Trace.taken (new ++ [⟨t, .now, t'.clock, t'⟩]) = new.taken :=
          (Trace.taken_append _ _).trans (List.append_nil _)
        rw [List.append_assoc] at hspent'' ⊢
        cases answer with
        | none =>
          have hended : FannedOut o tasks (new ++ [⟨t, .now, t'.clock, t'⟩] ++
              [⟨t', .recv kind tasks (since + left - t'.clock), none, t''⟩]) results :=
            hlooked.look rfl rfl
          refine ⟨_, rfl, hended, ?_⟩
          -- No report: either all the senders are gone, or the wait ran out.
          rcases hserving'.ended hs' with hdone | hover
          · refine .inr (hended.settled fun task htask => (hdone task htask).imp_left fun hmem => ?_)
            rw [Trace.taken_append, htaken]
            exact List.mem_append_left _ hmem
          · refine .inl
              ⟨_, List.mem_append_right _ (List.mem_singleton_self _), rfl, ?_⟩
            show since + left ≤ t''.clock
            omega
        | some report =>
          obtain ⟨task, htask, hvalue, hserving''⟩ := hserving'.recv hs'
          refine ih (fun hnil => absurd hnil hne) (fun _ => ?_) hspent''
            (hlooked.receive hnodup htask hvalue)
          rwa [Trace.taken_append, htaken, taken_received htask]

theorem collectWithin_upholds (hnodup : tasks.Nodup) {left : Nat} {before : Trace} {t : Threads}
    (hleft : left ≠ 0 → before.waited + left ≤ deadline) :
    (collectWithin tasks left).Upholds (Threads.Serves o) (fun trace _ q => q.Affords deadline trace)
      (fun trace _ results => ∃ new, trace = before ++ new ∧ FannedOut o tasks new results ∧
        Trace.Ended o (t.clock + left) new) before t := by
  have hspawn := @spawnFrom_upholds o _ tasks deadline 0 tasks rfl (Nat.zero_le _) before t
    fun h => absurd rfl h
  refine hspawn.bind fun trace t₁ _ => ?_
  rintro ⟨hclock, new, rfl, hspawned, htaken, hwaited, hserving⟩
  refine ⟨trivial, fun now t' hs => ?_⟩
  obtain rfl : now = t'.clock := by
    cases hs with
    | now => rfl
  have hclock' : t.clock ≤ t'.clock := hclock.trans hs.clock_le
  have hfanned : FannedOut o tasks new (tasks.map fun _ => none) := by
    refine ⟨hspawned, ?_, ?_, ?_⟩
    · rw [htaken]
      exact List.forall_mem_nil _
    · rw [htaken]
      exact List.forall_mem_nil _
    · rw [htaken]
      simp [heard]
  have hlooked : FannedOut o tasks (new ++ [⟨t₁, .now, t'.clock, t'⟩]) (tasks.map fun _ => none) :=
    hfanned.look rfl rfl
  have htaken' : Trace.taken (new ++ [⟨t₁, .now, t'.clock, t'⟩]) = [] := by
    rw [Trace.taken_append, htaken]
    rfl
  have hserving' : tasks ≠ [] → Threads.Serving o tasks tasks.length tasks.length
      (Trace.taken (new ++ [⟨t₁, .now, t'.clock, t'⟩])) t' := by
    intro htasks
    rw [htaken']
    exact ((hserving htasks).now hs).1
  have hspent : Trace.Spent t'.clock before.waited
      (before ++ (new ++ [⟨t₁, .now, t'.clock, t'⟩])) t' := by
    have hlook : Trace.waited [⟨t₁, .now, t'.clock, t'⟩] = 0 := rfl
    unfold Trace.Spent
    rw [Trace.waited_append, Trace.waited_append, hwaited, hlook]
    omega
  rw [List.append_assoc]
  refine (receive_upholds hnodup hleft (fun hnil => List.length_eq_zero_iff.mpr hnil) hserving'
    hspent hlooked).mono (fun _ _ _ hq => hq) fun trace' t'' results => ?_
  rintro ⟨new', rfl, hnew, hends⟩
  exact ⟨new', rfl, hnew, hends.mono (Nat.add_le_add_right hclock' left)⟩

end Compose
end
end PimDiscovery
