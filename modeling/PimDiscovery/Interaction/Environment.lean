import PimDiscovery.Interaction.Program

/-! Programs against an environment with a state of its own: the runs, with all that was asked and
answered, and rules for what every run upholds. -/

namespace Interaction

structure Moment (σ Q : Type) (A : Q → Type) where
  before : σ
  question : Q
  answer : A question
  after : σ

namespace Prog
variable {σ Q : Type} {A : Q → Type} {α β : Type} {env : σ → (q : Q) → A q → σ → Prop}

/-- A run up to what is left of the program, where `env s q a s'` says that the environment can answer
`q` with `a` while it goes from `s` to `s'`. A question without an answer is where a run gets stuck. -/
inductive Reaches (env : σ → (q : Q) → A q → σ → Prop) :
    σ → Prog Q A α → List (Moment σ Q A) → σ → Prog Q A α → Prop where
  | here (s : σ) (p : Prog Q A α) : Reaches env s p [] s p
  | answered {s s' s'' : σ} {q : Q} {a : A q} {next : A q → Prog Q A α}
      {trace : List (Moment σ Q A)} {p : Prog Q A α} (h : env s q a s')
      (hr : Reaches env s' (next a) trace s'' p) :
      Reaches env s (ask q next) (⟨s, q, a, s'⟩ :: trace) s'' p

/-- In every run on from a trace and a state, each question satisfies `asks` and the result `post`. -/
def Upholds (env : σ → (q : Q) → A q → σ → Prop) (asks : List (Moment σ Q A) → σ → Q → Prop)
    (post : List (Moment σ Q A) → σ → α → Prop) : Prog Q A α → List (Moment σ Q A) → σ → Prop
  | pure a, trace, s => post trace s a
  | ask q next, trace, s => asks trace s q ∧
      ∀ a s', env s q a s' → (next a).Upholds env asks post (trace ++ [⟨s, q, a, s'⟩]) s'

variable {asks asks' : List (Moment σ Q A) → σ → Q → Prop} {trace : List (Moment σ Q A)} {s : σ}

theorem Upholds.mono {post post' : List (Moment σ Q A) → σ → α → Prop} {p : Prog Q A α}
    (h : p.Upholds env asks post trace s) (hasks : ∀ trace s q, asks trace s q → asks' trace s q)
    (hpost : ∀ trace s a, post trace s a → post' trace s a) : p.Upholds env asks' post' trace s := by
  induction p generalizing trace s with
  | pure a => exact hpost trace s a h
  | ask q next ih => exact ⟨hasks trace s q h.1, fun a s' hs => ih a (h.2 a s' hs)⟩

theorem Upholds.bind {mid : List (Moment σ Q A) → σ → α → Prop}
    {post : List (Moment σ Q A) → σ → β → Prop} {p : Prog Q A α} {f : α → Prog Q A β}
    (h : p.Upholds env asks mid trace s)
    (hf : ∀ trace s a, mid trace s a → (f a).Upholds env asks post trace s) :
    (p >>= f).Upholds env asks post trace s := by
  induction p generalizing trace s with
  | pure a => exact hf trace s a h
  | ask q next ih => exact ⟨h.1, fun a s' hs => ih a (h.2 a s' hs)⟩

theorem Upholds.call {q : Q} {post : List (Moment σ Q A) → σ → A q → Prop} (h : asks trace s q)
    (hpost : ∀ a s', env s q a s' → post (trace ++ [⟨s, q, a, s'⟩]) s' a) :
    (call q).Upholds env asks post trace s := ⟨h, hpost⟩

theorem Upholds.keep {inv : List (Moment σ Q A) → σ → Prop}
    (hinv : ∀ trace s q a s', env s q a s' → inv trace s → inv (trace ++ [⟨s, q, a, s'⟩]) s')
    {post : List (Moment σ Q A) → σ → α → Prop} {p : Prog Q A α}
    (h : p.Upholds env asks post trace s) (hs : inv trace s) :
    p.Upholds env asks (fun trace s a => inv trace s ∧ post trace s a) trace s := by
  induction p generalizing trace s with
  | pure a => exact ⟨hs, h⟩
  | ask q next ih =>
    exact ⟨h.1, fun a s' henv => ih a (h.2 a s' henv) (hinv trace s q a s' henv hs)⟩

theorem Upholds.of_inv {inv : List (Moment σ Q A) → σ → Prop}
    (hinv : ∀ trace s q a s', env s q a s' → inv trace s → inv (trace ++ [⟨s, q, a, s'⟩]) s')
    (hasks : ∀ trace s q, inv trace s → asks trace s q) (p : Prog Q A α) (hs : inv trace s) :
    p.Upholds env asks (fun trace s _ => inv trace s) trace s := by
  induction p generalizing trace s with
  | pure a => exact hs
  | ask q next ih =>
    exact ⟨hasks trace s q hs, fun a s' henv => ih a (hinv trace s q a s' henv hs)⟩

theorem Always.upholds {asked : Q → Prop} {allowed : ∀ q, A q → Prop} {post : α → Prop}
    {p : Prog Q A α} (henv : ∀ s q a s', asked q → env s q a s' → allowed q a)
    (h : p.Always asked allowed post) :
    p.Upholds env (fun _ _ q => asked q) (fun _ _ a => post a) trace s := by
  induction p generalizing trace s with
  | pure a => exact h
  | ask q next ih => exact ⟨h.1, fun a s' hs => ih a (h.2 a (henv s q a s' h.1 hs))⟩

theorem Upholds.reaches {post : List (Moment σ Q A) → σ → α → Prop} {p p' : Prog Q A α}
    {onward : List (Moment σ Q A)} {s' : σ} (h : p.Upholds env asks post trace s)
    (hr : p.Reaches env s onward s' p') : p'.Upholds env asks post (trace ++ onward) s' := by
  induction hr generalizing trace with
  | here s p => rwa [List.append_nil]
  | answered hq _ ih =>
    have hnext := ih (h.2 _ _ hq)
    rwa [List.append_assoc] at hnext

section
variable {o : ∀ q, A q} {fixed : Q → Prop}

/-- Where the questions are those the environment always answers alike, so are the run and its result. -/
theorem Always.upholds_eval (henv : ∀ s q a s', fixed q → env s q a s' → a = o q) {post : α → Prop}
    {p : Prog Q A α} (h : p.Always fixed (fun q a => a = o q) post) :
    p.Upholds env (fun _ _ q => fixed q) (fun trace' _ a => a = p.eval o ∧
      ∃ new, trace' = trace ++ new ∧ new.map (·.question) = p.asked o) trace s := by
  induction p generalizing trace s with
  | pure a => exact ⟨rfl, [], by simp, rfl⟩
  | ask q next ih =>
    refine ⟨h.1, fun a s' hs => ?_⟩
    obtain rfl := henv s q a s' h.1 hs
    refine (ih (o q) (h.2 _ rfl)).mono (fun _ _ _ hq => hq) fun trace' s'' b => ?_
    rintro ⟨hb, new, rfl, hnew⟩
    refine ⟨hb, ⟨s, q, o q, s'⟩ :: new, by simp, ?_⟩
    rw [List.map_cons, hnew]
    rfl

end

section
variable (serve : σ → (q : Q) → Option (A q × σ))

/-- The run in which the environment does as `serve` says, as long as it says something. -/
def play : Prog Q A α → σ → Option (List (Moment σ Q A) × σ × α)
  | pure a, s => some ([], s, a)
  | ask q next, s =>
    (serve s q).bind fun served => ((next served.1).play served.2).map fun rest =>
      (⟨s, q, served.1, served.2⟩ :: rest.1, rest.2)

variable {serve}

theorem reaches_play (henv : ∀ s q a s', serve s q = some (a, s') → env s q a s') {p : Prog Q A α}
    {s' : σ} {a : α} (h : p.play serve s = some (trace, s', a)) :
    p.Reaches env s trace s' (pure a) := by
  induction p generalizing s trace with
  | pure a =>
    cases h
    exact .here _ _
  | ask q next ih =>
    obtain ⟨⟨answer, s₁⟩, hserve, hrest⟩ := Option.bind_eq_some_iff.mp h
    obtain ⟨⟨rest, s₂, b⟩, hplay, heq⟩ := Option.map_eq_some_iff.mp hrest
    cases heq
    exact .answered (henv s q answer s₁ hserve) (ih answer hplay)

end

theorem Reaches.asked {p p' : Prog Q A α} {s s' : σ} {before after : List (Moment σ Q A)}
    {m : Moment σ Q A} (h : p.Reaches env s (before ++ m :: after) s' p') :
    ∃ next, p.Reaches env s before m.before (ask m.question next) := by
  induction before generalizing s p with
  | nil =>
    cases h with
    | answered => exact ⟨_, .here s _⟩
  | cons first before ih =>
    cases h with
    | answered hq hr =>
      obtain ⟨next, hreaches⟩ := ih hr
      exact ⟨next, .answered hq hreaches⟩

end Prog
end Interaction
