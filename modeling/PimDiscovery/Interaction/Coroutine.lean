import PimDiscovery.Interaction.Program

/-! Coroutines that a driver resumes with inputs, and the programs they run: a program's questions
are answered by leaf coroutines, one at a time, and a state machine refines the program when its
states stand for the points such a run can be at. -/

namespace Interaction

/-- One resume: an intermediate yield, the end, or a panic. -/
inductive Step (Y σ ρ : Type) where
  | yielded (y : Y) (s : σ)
  | complete (r : ρ)
  | panicked

namespace Step
variable {Y σ τ ρ π : Type}

def elim {κ : Type} (onYield : Y → σ → κ) (onComplete : ρ → κ) (onPanic : κ) : Step Y σ ρ → κ
  | yielded y s => onYield y s
  | complete r => onComplete r
  | panicked => onPanic

def mapState (f : σ → τ) : Step Y σ ρ → Step Y τ ρ
  | yielded y s => yielded y (f s)
  | complete r => complete r
  | panicked => panicked

def mapResult (f : ρ → π) : Step Y σ ρ → Step Y σ π
  | yielded y s => yielded y s
  | complete r => complete (f r)
  | panicked => panicked

@[simp] theorem mapState_yielded (f : σ → τ) (y : Y) (s : σ) :
    (yielded y s : Step Y σ ρ).mapState f = yielded y (f s) := rfl

@[simp] theorem mapState_complete (f : σ → τ) (r : ρ) :
    (complete r : Step Y σ ρ).mapState f = complete r := rfl

end Step

section
variable {I Y σ τ ρ : Type}

/-- What a coroutine ends with when the last of these inputs, in order, ends it. -/
def outcome (resume : σ → Option I → Step Y σ ρ) : σ → List (Option I) → Option ρ
  | _, [] => none
  | s, arg :: args =>
    match resume s arg with
    | .yielded _ s => outcome resume s args
    | .complete r => if args.isEmpty then some r else none
    | .panicked => none

def yields (resume : σ → Option I → Step Y σ ρ) : σ → List (Option I) → List Y
  | _, [] => []
  | s, arg :: args => (resume s arg).elim (fun y s => y :: yields resume s args) (fun _ => []) []

def reads (args : List (Option I)) : Nat := args.countP Option.isSome

/-- The input of a run of resumes, the resumes without any left out. -/
def received (args : List (Option (List I))) : List I := (args.filterMap id).flatten

@[simp] theorem received_cons (arg : Option (List I)) (args : List (Option (List I))) :
    received (arg :: args) = arg.getD [] ++ received args := by
  cases arg <;> simp [received]

theorem received_append (args args' : List (Option (List I))) :
    received (args ++ args') = received args ++ received args' := by
  simp [received]

theorem outcome_mapResult {π : Type} {resume : σ → Option I → Step Y σ ρ} (f : ρ → π) (s : σ)
    (args : List (Option I)) :
    outcome (fun s arg => (resume s arg).mapResult f) s args = (outcome resume s args).map f := by
  induction args generalizing s with
  | nil => rfl
  | cons arg args ih =>
    unfold outcome
    cases resume s arg with
    | yielded y s' => exact ih s'
    | complete r => cases args <;> rfl
    | panicked => rfl

theorem outcome_mapState {resume : σ → Option I → Step Y σ ρ} {resume' : τ → Option I → Step Y τ ρ}
    {f : σ → τ} (h : ∀ s arg, (resume s arg).mapState f = resume' (f s) arg) (s : σ)
    (args : List (Option I)) : outcome resume s args = outcome resume' (f s) args := by
  induction args generalizing s with
  | nil => rfl
  | cons arg args ih =>
    unfold outcome
    rw [← h s arg]
    cases resume s arg with
    | yielded y s' => exact ih s'
    | complete r => rfl
    | panicked => rfl

theorem yields_mapState {resume : σ → Option I → Step Y σ ρ} {resume' : τ → Option I → Step Y τ ρ}
    {f : σ → τ} (h : ∀ s arg, (resume s arg).mapState f = resume' (f s) arg) (s : σ)
    (args : List (Option I)) : yields resume s args = yields resume' (f s) args := by
  induction args generalizing s with
  | nil => rfl
  | cons arg args ih =>
    unfold yields
    rw [← h s arg]
    cases resume s arg with
    | yielded y s' => exact congrArg (y :: ·) (ih s')
    | complete r => rfl
    | panicked => rfl

end

/-- The coroutines that answer the questions of a program. -/
structure Leaves (Q : Type) (A : Q → Type) (I Y : Type) where
  State : Q → Type
  start : ∀ q, State q
  resume : ∀ q, State q → Option I → Step Y (State q) (A q)

variable {Q : Type} {A : Q → Type} {I Y α β σ : Type}

/-- A point in a run of a program: before a program, inside a leaf with the program that follows
it, or after the end. -/
inductive Proc (L : Leaves Q A I Y) (α : Type) where
  | enter (p : Prog Q A α)
  | inside (q : Q) (s : L.State q) (next : A q → Prog Q A α)
  | dead

variable (L : Leaves Q A I Y)

/-- Runs a program up to the first yield of a leaf. -/
def drive : Prog Q A α → Step Y (Proc L α) α
  | .pure a => .complete a
  | .ask q next =>
    (L.resume q (L.start q) none).elim (fun y s => .yielded y (.inside q s next))
      (fun a => drive (next a)) .panicked

variable {L}

namespace Proc

def resume : Proc L α → Option I → Step Y (Proc L α) α
  | enter p, _ => drive L p
  | inside q s next, arg =>
    (L.resume q s arg).elim (fun y s => .yielded y (inside q s next)) (fun a => drive L (next a))
      .panicked
  | dead, _ => .panicked

def andThen : Proc L α → (α → Prog Q A β) → Proc L β
  | enter p, f => enter (p >>= f)
  | inside q s next, f => inside q s fun a => next a >>= f
  | dead, _ => dead

end Proc

def Step.andThen (step : Step Y (Proc L α) α) (f : α → Prog Q A β) : Step Y (Proc L β) β :=
  match step with
  | yielded y t => yielded y (t.andThen f)
  | complete a => drive L (f a)
  | panicked => panicked

theorem drive_bind (p : Prog Q A α) (f : α → Prog Q A β) :
    drive L (p >>= f) = (drive L p).andThen f := by
  induction p with
  | pure a => rfl
  | ask q next ih =>
    rw [Prog.ask_bind, drive, drive]
    cases L.resume q (L.start q) none with
    | yielded y s => rfl
    | complete a => exact ih a
    | panicked => rfl

namespace Proc

@[simp] theorem resume_enter (p : Prog Q A α) (arg : Option I) :
    (enter p : Proc L α).resume arg = drive L p := rfl

theorem resume_start (q : Q) (next : A q → Prog Q A α) :
    (inside q (L.start q) next : Proc L α).resume none = drive L (.ask q next) := by
  rw [drive, resume]

theorem resume_andThen (t : Proc L α) (f : α → Prog Q A β) (arg : Option I) :
    (t.andThen f).resume arg = (t.resume arg).andThen f := by
  cases t with
  | enter p => exact drive_bind p f
  | inside q s next =>
    simp only [andThen, resume]
    cases L.resume q s arg with
    | yielded y s => rfl
    | complete a => exact drive_bind (next a) f
    | panicked => rfl
  | dead => rfl

end Proc

/-- A state machine refines the program its states stand for points of. -/
def Refines (resume : σ → Option I → Step Y σ α) (toProc : σ → Proc L α) : Prop :=
  ∀ s arg, (resume s arg).mapState toProc = (toProc s).resume arg

theorem Refines.mapResult {resume : σ → Option I → Step Y σ α} {toProc : σ → Proc L α}
    (h : Refines resume toProc) (f : α → β) :
    Refines (fun s arg => (resume s arg).mapResult f) fun s => (toProc s).andThen fun a => .pure (f a) := by
  intro s arg
  simp only [Proc.resume_andThen, ← h s arg]
  cases resume s arg <;> rfl

variable (L) in
/-- While `p` runs, the inputs drive each leaf it starts to the answer `o` gives. -/
def Serves (o : ∀ q, A q) : Prog Q A α → List (Option I) → Prop
  | .pure _, args => args = []
  | .ask q next, args =>
    ∃ used rest, args = used ++ rest ∧ outcome (L.resume q) (L.start q) (none :: used) = some (o q) ∧
      Serves o (next (o q)) rest

variable (L) in
def serves [∀ q, DecidableEq (A q)] (o : ∀ q, A q) : Prog Q A α → List (List (Option I)) → Bool
  | .pure _, groups => groups.isEmpty
  | .ask _ _, [] => false
  | .ask q next, used :: groups =>
    outcome (L.resume q) (L.start q) (none :: used) = some (o q) && serves o (next (o q)) groups

theorem serves_sound [∀ q, DecidableEq (A q)] {o : ∀ q, A q} {p : Prog Q A α}
    {groups : List (List (Option I))} (h : serves L o p groups = true) :
    Serves L o p groups.flatten := by
  induction p generalizing groups with
  | pure a =>
    rw [serves, List.isEmpty_iff] at h
    rw [h]
    rfl
  | ask q next ih =>
    cases groups with
    | nil => simp [serves] at h
    | cons used groups =>
      rw [serves, Bool.and_eq_true, decide_eq_true_eq] at h
      exact ⟨used, groups.flatten, rfl, h.1, ih _ h.2⟩

theorem outcome_inside {q : Q} {next : A q → Prog Q A α} {rest : List (Option I)} {a : A q} {r : α}
    (hnext : outcome Proc.resume (Proc.enter (next a) : Proc L α) (none :: rest) = some r)
    {used : List (Option I)} {s : L.State q} (h : outcome (L.resume q) s used = some a) :
    outcome Proc.resume (Proc.inside q s next : Proc L α) (used ++ rest) = some r := by
  induction used generalizing s with
  | nil => exact absurd h (by simp [outcome])
  | cons arg used ih =>
    rw [List.cons_append]
    unfold outcome at h ⊢
    simp only [Proc.resume] at h ⊢
    cases hs : L.resume q s arg with
    | yielded y s' =>
      rw [hs] at h
      exact ih h
    | complete b =>
      rw [hs] at h
      cases used with
      | nil =>
        obtain rfl : b = a := by simpa using h
        exact hnext
      | cons => simp at h
    | panicked =>
      rw [hs] at h
      exact absurd h (by simp)

end Interaction
