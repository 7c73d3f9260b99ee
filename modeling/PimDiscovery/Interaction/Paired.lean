import Mathlib.Data.List.Forall2
import PimDiscovery.Interaction.Program

/-! Two programs side by side, against the same answers. -/

namespace Interaction
namespace Prog
variable {Q : Type} {A : Q → Type} {α β γ δ : Type}

/-- The questions of two programs are related one by one, and so are their results. -/
structure Paired (o : ∀ q, A q) (R : Q → Q → Prop) (post : α → β → Prop) (p : Prog Q A α)
    (p' : Prog Q A β) : Prop where
  asked : List.Forall₂ R (p.asked o) (p'.asked o)
  eval : post (p.eval o) (p'.eval o)

namespace Paired
variable {o : ∀ q, A q} {R : Q → Q → Prop} {mid post : α → β → Prop} {p : Prog Q A α}
  {p' : Prog Q A β}

theorem pure {a : α} {b : β} (h : post a b) :
    Paired o R post (Prog.pure a) (Prog.pure b) := ⟨.nil, h⟩

theorem call {q q' : Q} (hR : R q q') {post : A q → A q' → Prop} (h : post (o q) (o q')) :
    Paired o R post (Prog.call q) (Prog.call q') := ⟨.cons hR .nil, h⟩

theorem mono (h : Paired o R mid p p') (hpost : ∀ a b, mid a b → post a b) :
    Paired o R post p p' := ⟨h.asked, hpost _ _ h.eval⟩

theorem bind {post : γ → δ → Prop} {f : α → Prog Q A γ} {f' : β → Prog Q A δ}
    (h : Paired o R mid p p') (hf : ∀ a b, mid a b → Paired o R post (f a) (f' b)) :
    Paired o R post (p >>= f) (p' >>= f') := by
  have hrest := hf _ _ h.eval
  constructor
  · rw [asked_bind, asked_bind]
    exact List.rel_append h.asked hrest.asked
  · rw [eval_bind, eval_bind]
    exact hrest.eval

theorem refl (hR : ∀ q, R q q) (p : Prog Q A α) : Paired o R (· = ·) p p :=
  ⟨List.forall₂_same.mpr fun q _ => hR q, rfl⟩

end Paired
end Prog
end Interaction
