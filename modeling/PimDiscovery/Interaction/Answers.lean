import PimDiscovery.Interaction.Program

/-! Programs whose questions are put differently, and programs that do not tell some answers apart. -/

namespace Interaction
namespace Prog
variable {Q Q' : Type} {A : Q → Type} {A' : Q' → Type} {α β : Type}

theorem interpret_bind {h : ∀ q, Prog Q' A' (A q)} (p : Prog Q A α) (f : α → Prog Q A β) :
    (p >>= f).interpret h = p.interpret h >>= fun a => (f a).interpret h := by
  induction p with
  | pure a => rfl
  | ask q next ih =>
    rw [ask_bind, interpret, interpret, bind_assoc']
    congr 1
    funext a
    exact ih a

theorem asked_interpret {h : ∀ q, Prog Q' A' (A q)} (o : ∀ q, A' q) (p : Prog Q A α) :
    (p.interpret h).asked o =
      (p.asked fun q => (h q).eval o).flatMap fun q => (h q).asked o := by
  induction p with
  | pure a => rfl
  | ask q next ih =>
    rw [interpret, asked_bind, ih, asked, List.flatMap_cons]

theorem interpret_eq_self {h : ∀ q, Prog Q A (A q)} {asks : Q → Prop} {post : α → Prop}
    (hh : ∀ q, asks q → h q = call q) {p : Prog Q A α}
    (hp : p.Always asks (fun _ _ => True) post) : p.interpret h = p := by
  induction p with
  | pure a => rfl
  | ask q next ih =>
    rw [interpret, hh q hp.1, call, ask_bind]
    congr 1
    funext a
    exact ih a (hp.2 a trivial)

/-- Answers that `Alike` relates lead to the same rest of the program. -/
def Respects (Alike : ∀ q, A q → A q → Prop) : Prog Q A α → Prop
  | pure _ => True
  | ask q next => (∀ a b, Alike q a b → next a = next b) ∧ ∀ a, (next a).Respects Alike

section
variable {Alike : ∀ q, A q → A q → Prop}

theorem Respects.bind {p : Prog Q A α} {f : α → Prog Q A β} (h : p.Respects Alike)
    (hf : ∀ a, (f a).Respects Alike) : (p >>= f).Respects Alike := by
  induction p with
  | pure a => exact hf a
  | ask q next ih =>
    constructor
    · intro a b hab
      exact congrArg (· >>= f) (h.1 a b hab)
    · intro a
      exact ih a (h.2 a)

theorem Respects.ask_pure {q : Q} {f : A q → α} (h : ∀ a b, Alike q a b → f a = f b) :
    (Prog.ask q fun a => .pure (f a)).Respects Alike :=
  ⟨fun a b hab => congrArg Prog.pure (h a b hab), fun _ => trivial⟩

theorem respects_of_always {asks : Q → Prop} {post : α → Prop}
    (hasks : ∀ q, asks q → ∀ a b, Alike q a b → a = b) {p : Prog Q A α}
    (hp : p.Always asks (fun _ _ => True) post) : p.Respects Alike := by
  induction p with
  | pure a => trivial
  | ask q next ih =>
    constructor
    · intro a b hab
      rw [hasks q hp.1 a b hab]
    · intro a
      exact ih a (hp.2 a trivial)

theorem Respects.eval_eq {p : Prog Q A α} (h : p.Respects Alike) {o o' : ∀ q, A q}
    (ho : ∀ q, Alike q (o q) (o' q)) : p.eval o = p.eval o' ∧ p.asked o = p.asked o' := by
  induction p with
  | pure a => exact ⟨rfl, rfl⟩
  | ask q next ih =>
    have hnext := h.1 (o q) (o' q) (ho q)
    obtain ⟨heval, hasked⟩ := ih (o' q) (h.2 (o' q))
    constructor
    · rw [eval_ask, eval_ask, hnext]
      exact heval
    · rw [asked, asked, hnext]
      exact congrArg (q :: ·) hasked

theorem Respects.returns {p : Prog Q A α} (h : p.Respects Alike) {allowed allowed' : ∀ q, A q → Prop}
    (hsame : ∀ q a, allowed q a → ∃ a', allowed' q a' ∧ Alike q a a') {result : α}
    (hresult : p.Returns allowed result) : p.Returns allowed' result := by
  induction p with
  | pure a => exact hresult
  | ask q next ih =>
    obtain ⟨a, ha, hnext⟩ := hresult
    obtain ⟨a', ha', halike⟩ := hsame q a ha
    rw [h.1 a a' halike] at hnext
    exact ⟨a', ha', ih a' (h.2 a') hnext⟩

end
end Prog
end Interaction
