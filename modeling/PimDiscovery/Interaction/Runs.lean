import Mathlib.Data.Stream.Init
import PimDiscovery.Interaction.Coroutine

/-! Whole runs of a machine: that none of its resumes panics before its end, that a complete run is a
sequence of complete exchanges, and how many of these there can be. -/

namespace Interaction
variable {Q : Type} {A : Q → Type} {I Y α β σ τ ρ π : Type}

theorem mem_yields {resume : σ → Option I → Step Y σ ρ} {good : Y → Prop}
    (h : ∀ s arg y s', resume s arg = .yielded y s' → good y) {args : List (Option I)} {s : σ} :
    ∀ y ∈ yields resume s args, good y := by
  induction args generalizing s with
  | nil => exact List.forall_mem_nil _
  | cons arg args ih =>
    unfold yields
    cases hs : resume s arg with
    | yielded y s' => exact List.forall_mem_cons.mpr ⟨h s arg y s' hs, ih⟩
    | complete r => exact List.forall_mem_nil _
    | panicked => exact List.forall_mem_nil _

/-- A step that does not panic, and leaves a live state behind when it yields. -/
def Step.Keeps (live : σ → Prop) : Step Y σ ρ → Prop
  | yielded _ s => live s
  | complete _ => True
  | panicked => False

theorem Step.Keeps.mapResult {live : σ → Prop} {step : Step Y σ ρ} (h : step.Keeps live) (f : ρ → π) :
    (step.mapResult f).Keeps live := by
  cases step <;> exact h

theorem Step.Keeps.mapState {live : σ → Prop} {live' : τ → Prop} {step : Step Y σ ρ}
    (h : step.Keeps live) {f : σ → τ} (hf : ∀ s, live s → live' (f s)) :
    (step.mapState f).Keeps live' := by
  cases step with
  | yielded y s => exact hf s h
  | complete r => trivial
  | panicked => exact h

inductive Resumed (resume : σ → Option I → Step Y σ ρ) : σ → List (Option I) → σ → Prop where
  | refl (s : σ) : Resumed resume s [] s
  | yielded {s s' s'' : σ} {arg : Option I} {args : List (Option I)} {y : Y}
      (h : resume s arg = .yielded y s') (hrest : Resumed resume s' args s'') :
      Resumed resume s (arg :: args) s''

/-- However it is resumed, a machine in this state is live until it completes, and does not panic. -/
def StaysLive (resume : σ → Option I → Step Y σ ρ) (live : σ → Prop) (s : σ) : Prop :=
  ∀ args s', Resumed resume s args s' → live s' ∧ ∀ arg, resume s' arg ≠ .panicked

theorem staysLive_of_keeps {resume : σ → Option I → Step Y σ ρ} {live : σ → Prop}
    (h : ∀ s arg, live s → (resume s arg).Keeps live) {s : σ} (hs : live s) :
    StaysLive resume live s := by
  intro args s' hrun
  induction hrun with
  | refl s =>
    refine ⟨hs, fun arg hpanicked => ?_⟩
    have hkeeps := h s arg hs
    rwa [hpanicked] at hkeeps
  | @yielded s s' s'' arg args y hstep hrest ih =>
    apply ih
    have hkeeps := h s arg hs
    rwa [hstep] at hkeeps

structure Turn (Q : Type) (A : Q → Type) (I : Type) where
  question : Q
  answer : A question
  used : List (Option I)

def inputs (turns : List (Turn Q A I)) : List (Option I) := turns.flatMap (·.used)

section
variable (L : Leaves Q A I Y)

def Turn.Complete (turn : Turn Q A I) : Prop :=
  outcome (L.resume turn.question) (L.start turn.question) (none :: turn.used) = some turn.answer

def Turn.yields (turn : Turn Q A I) : List Y :=
  Interaction.yields (L.resume turn.question) (L.start turn.question) (none :: turn.used)

structure Runs (resume : σ → Option I → Step Y σ α) (s : σ) (turns : List (Turn Q A I)) (r : α) :
    Prop where
  complete : ∀ turn ∈ turns, turn.Complete L
  outcome : outcome resume s (none :: inputs turns) = some r
  yields : yields resume s (none :: inputs turns) = turns.flatMap (·.yields L)

inductive Reaches : Prog Q A α → List (Turn Q A I) → Prog Q A α → Prop where
  | refl (p : Prog Q A α) : Reaches p [] p
  | turn {turn : Turn Q A I} {next : A turn.question → Prog Q A α} {turns : List (Turn Q A I)}
      {p : Prog Q A α} (h : turn.Complete L) (hrest : Reaches (next turn.answer) turns p) :
      Reaches (.ask turn.question next) (turn :: turns) p

variable {L} in
theorem Reaches.trans {p p' p'' : Prog Q A α} {turns turns' : List (Turn Q A I)}
    (h : Reaches L p turns p') (h' : Reaches L p' turns' p'') : Reaches L p (turns ++ turns') p'' := by
  induction h with
  | refl p => exact h'
  | turn hturn _ ih => exact .turn hturn (ih h')

/-- Over these inputs, every exchange that a run of `p` comes to completes. -/
def Completing (p : Prog Q A α) (stream : Stream' (Option I)) : Prop :=
  ∀ turns q next, Reaches L p turns (.ask q next) → inputs turns = stream.take (inputs turns).length →
    ∃ n a, outcome (L.resume q) (L.start q)
      (none :: (stream.drop (inputs turns).length).take n) = some a

variable {L}

theorem yields_inside {q : Q} {next : A q → Prog Q A α} {rest : List (Option I)} {a : A q}
    {used : List (Option I)} {s : L.State q} (h : outcome (L.resume q) s used = some a) :
    yields Proc.resume (Proc.inside q s next : Proc L α) (used ++ rest) =
      yields (L.resume q) s used ++
        yields Proc.resume (Proc.enter (next a) : Proc L α) (none :: rest) := by
  induction used generalizing s with
  | nil => exact absurd h (by simp [Interaction.outcome])
  | cons arg used ih =>
    rw [List.cons_append]
    unfold Interaction.outcome at h
    conv => lhs; unfold Interaction.yields
    conv => rhs; arg 1; unfold Interaction.yields
    simp only [Proc.resume] at h ⊢
    cases hs : L.resume q s arg with
    | yielded y s' =>
      rw [hs] at h
      exact congrArg (y :: ·) (ih h)
    | complete b =>
      rw [hs] at h
      cases used with
      | nil =>
        obtain rfl : b = a := by simpa using h
        rfl
      | cons => simp at h
    | panicked =>
      rw [hs] at h
      exact absurd h (by simp)

theorem Reaches.runs_enter {p : Prog Q A α} {turns : List (Turn Q A I)} {r : α}
    (h : Reaches L p turns (.pure r)) : Runs L Proc.resume (Proc.enter p : Proc L α) turns r := by
  generalize hlast : Prog.pure r = last at h
  induction h with
  | refl p =>
    subst hlast
    exact ⟨List.forall_mem_nil _, rfl, rfl⟩
  | @turn turn next turns last hturn hrest ih =>
    have hruns := ih hlast
    refine ⟨List.forall_mem_cons.mpr ⟨hturn, hruns.complete⟩, ?_, ?_⟩
    · have hin : outcome Proc.resume
          (Proc.inside turn.question (L.start turn.question) next : Proc L α)
          ((none :: turn.used) ++ inputs turns) = some r := outcome_inside hruns.outcome hturn
      rw [List.cons_append] at hin
      unfold Interaction.outcome at hin ⊢
      rwa [Proc.resume_start] at hin
    · have hin : yields Proc.resume
          (Proc.inside turn.question (L.start turn.question) next : Proc L α)
          ((none :: turn.used) ++ inputs turns) = _ := yields_inside hturn
      rw [hruns.yields, List.cons_append] at hin
      unfold Interaction.yields at hin
      rw [Proc.resume_start] at hin
      exact hin

theorem Refines.runs {resume : σ → Option I → Step Y σ α} {toProc : σ → Proc L α}
    (h : Refines resume toProc) {s : σ} {p : Prog Q A α} (hs : (toProc s).resume none = drive L p)
    {turns : List (Turn Q A I)} {r : α} (hp : Reaches L p turns (.pure r)) :
    Runs L resume s turns r := by
  have henter := hp.runs_enter
  refine ⟨henter.complete, ?_, ?_⟩
  · have houtcome := henter.outcome
    rw [outcome_mapState h]
    unfold Interaction.outcome at houtcome ⊢
    rwa [hs]
  · have hyields := henter.yields
    rw [yields_mapState h, ← hyields]
    unfold Interaction.yields
    rw [hs]
    rfl

theorem take_add (stream : Stream' (Option I)) (m n : Nat) :
    stream.take (m + n) = stream.take m ++ (stream.drop m).take n := by
  induction m generalizing stream with
  | zero => simp
  | succ m ih =>
    rw [Nat.succ_add, Stream'.take_succ, ih, Stream'.take_succ, Stream'.drop_succ]
    rfl

theorem Completing.reaches {p : Prog Q A α} {stream : Stream' (Option I)}
    (h : Completing L p stream) :
    ∃ turns r, Reaches L p turns (.pure r) ∧ inputs turns = stream.take (inputs turns).length := by
  induction p generalizing stream with
  | pure a => exact ⟨[], a, .refl _, rfl⟩
  | ask q next ih =>
    obtain ⟨n, a, ha⟩ := h [] q next (.refl _) rfl
    let first : Turn Q A I := { question := q, answer := a, used := stream.take n }
    have hfirst : first.Complete L := ha
    have hinputs : ∀ turns : List (Turn Q A I),
        inputs turns = (stream.drop n).take (inputs turns).length →
          inputs (first :: turns) = stream.take (n + (inputs turns).length) := by
      intro turns hturns
      rw [take_add, ← hturns]
      rfl
    have hlength : ∀ turns : List (Turn Q A I),
        (inputs (first :: turns)).length = n + (inputs turns).length := by
      intro turns
      simp [inputs, first]
    have hrest : Completing L (next a) (stream.drop n) := by
      intro turns q' next' hreaches hturns
      have hcomplete := h (first :: turns) q' next' (.turn hfirst hreaches)
        (by rw [hlength]; exact hinputs turns hturns)
      rw [hlength, ← Stream'.drop_drop] at hcomplete
      exact hcomplete
    obtain ⟨turns, r, hreaches, hturns⟩ := ih a hrest
    refine ⟨first :: turns, r, .turn hfirst hreaches, ?_⟩
    rw [hlength]
    exact hinputs turns hturns

theorem Serves.reaches {o : ∀ q, A q} {p : Prog Q A α} {args : List (Option I)}
    (h : Serves L o p args) :
    ∃ turns, Reaches L p turns (.pure (p.eval o)) ∧ inputs turns = args ∧
      turns.map (·.question) = p.asked o := by
  induction p generalizing args with
  | pure a =>
    obtain rfl := h
    exact ⟨[], .refl _, rfl, rfl⟩
  | ask q next ih =>
    obtain ⟨used, rest, rfl, hq, hrest⟩ := h
    obtain ⟨turns, hreaches, hinputs, hquestions⟩ := ih (o q) hrest
    let first : Turn Q A I := { question := q, answer := o q, used }
    have hfirst : first.Complete L := hq
    exact ⟨first :: turns, .turn hfirst hreaches, congrArg (used ++ ·) hinputs,
      congrArg (q :: ·) hquestions⟩

/-- Total correctness: served with the answers `o`, a machine that refines `p` completes with the
result of `p` on `o`. -/
theorem Refines.outcome_eq {resume : σ → Option I → Step Y σ α} {toProc : σ → Proc L α}
    (h : Refines resume toProc) {s : σ} {p : Prog Q A α} (hs : (toProc s).resume none = drive L p)
    {o : ∀ q, A q} {args : List (Option I)} (ho : Serves L o p args) :
    outcome resume s (none :: args) = some (p.eval o) := by
  obtain ⟨turns, hreaches, rfl, -⟩ := ho.reaches
  exact (h.runs hs hreaches).outcome

theorem Refines.yields {resume : σ → Option I → Step Y σ α} {toProc : σ → Proc L α}
    (h : Refines resume toProc) {s : σ} {p : Prog Q A α} (hs : (toProc s).resume none = drive L p)
    {o : ∀ q, A q} {args : List (Option I)} (ho : Serves L o p args) {y : Y}
    (hy : y ∈ Interaction.yields resume s (none :: args)) :
    ∃ q ∈ p.asked o, ∃ used, y ∈ Interaction.yields (L.resume q) (L.start q) (none :: used) := by
  obtain ⟨turns, hreaches, rfl, hquestions⟩ := ho.reaches
  rw [(h.runs hs hreaches).yields] at hy
  obtain ⟨turn, hturn, hy⟩ := List.mem_flatMap.mp hy
  refine ⟨turn.question, ?_, turn.used, hy⟩
  rw [← hquestions]
  exact List.mem_map_of_mem hturn

def countTurns (counts : Q → Bool) (turns : List (Turn Q A I)) : Nat :=
  turns.countP fun turn => counts turn.question

theorem Reaches.countTurns_le {counts : Q → Bool} {p last : Prog Q A α} {n : Nat}
    {turns : List (Turn Q A I)} (hp : Reaches L p turns last) (h : p.AtMost counts n) :
    countTurns counts turns ≤ n := by
  induction hp generalizing n with
  | refl p => exact Nat.zero_le n
  | @turn turn next turns last hturn hrest ih =>
    obtain ⟨m, hm, hnext⟩ := h
    have hcount := ih (hnext turn.answer)
    rw [countTurns] at hcount ⊢
    rw [List.countP_cons]
    split at hm
    · rw [if_pos ‹_›]
      omega
    · rw [if_neg ‹_›]
      omega

end

end Interaction
