import Mathlib.Algebra.Order.BigOperators.Group.List
import Mathlib.Algebra.Order.Group.Nat
import Mathlib.Algebra.Ring.Nat
import PimDiscovery.Interaction.Answers

/-! What the questions of a program come to, each at its weight. -/

namespace Interaction
namespace Prog
variable {Q Q' : Type} {A : Q → Type} {A' : Q' → Type} {α β γ : Type}

def cost (weight : Q → Nat) (o : ∀ q, A q) (p : Prog Q A α) : Nat := ((p.asked o).map weight).sum

variable {weight : Q → Nat} {o : ∀ q, A q}

@[simp] theorem cost_pure (a : α) : (pure a : Prog Q A α).cost weight o = 0 := rfl

@[simp] theorem cost_call (q : Q) : (call q : Prog Q A (A q)).cost weight o = weight q := by
  simp [cost, call, asked]

@[simp] theorem cost_bind (p : Prog Q A α) (f : α → Prog Q A β) :
    (p >>= f).cost weight o = p.cost weight o + (f (p.eval o)).cost weight o := by
  rw [cost, asked_bind, List.map_append, List.sum_append]
  rfl

theorem cost_bind_le {p : Prog Q A α} {f : α → Prog Q A β} {m n : Nat} (h : p.cost weight o ≤ m)
    (hf : ∀ a, (f a).cost weight o ≤ n) : (p >>= f).cost weight o ≤ m + n := by
  rw [cost_bind]
  exact Nat.add_le_add h (hf _)

@[simp] theorem cost_forEach (xs : List α) (f : α → Prog Q A β) :
    (forEach xs f).cost weight o = (xs.map fun x => (f x).cost weight o).sum := by
  induction xs with
  | nil => rfl
  | cons x xs ih =>
    have hlast : ∀ y, (forEach xs f >>= fun ys => pure (y :: ys)).cost weight o =
        (xs.map fun x => (f x).cost weight o).sum := by
      intro y
      rw [cost_bind, cost_pure, Nat.add_zero, ih]
    rw [forEach, cost_bind, hlast, List.map_cons, List.sum_cons]

theorem cost_interpret {h : ∀ q, Prog Q' A' (A q)} {weight : Q' → Nat} (o : ∀ q, A' q)
    (p : Prog Q A α) : (p.interpret h).cost weight o =
      p.cost (fun q => (h q).cost weight o) fun q => (h q).eval o := by
  unfold cost
  rw [asked_interpret, List.map_flatMap, List.flatMap_def, List.sum_flatten, List.map_map]
  rfl

theorem AtMost.length_asked {p : Prog Q A α} {n : Nat} (h : p.AtMost (fun _ => true) n)
    (o : ∀ q, A q) : (p.asked o).length ≤ n := by
  induction p generalizing n with
  | pure a => exact Nat.zero_le n
  | ask q next ih =>
    obtain ⟨left, hleft, hnext⟩ := h
    have hrest := ih (o q) (hnext (o q))
    rw [if_pos rfl] at hleft
    rw [asked, List.length_cons]
    exact (Nat.succ_le_succ hrest).trans hleft

end Prog
end Interaction
