import Mathlib.Data.List.Infix

/-! Replacing a pattern, from the left and all over, in a text whose letters are marked with where they come
from. What a replacement takes away shows in the marks that are left. -/

namespace Provenance
variable {α μ : Type}

def erase (cs : List (α × μ)) : List α := cs.map Prod.fst

def mark (m : μ) (xs : List α) : List (α × μ) := xs.map fun x => (x, m)

@[simp] theorem erase_append (cs ds : List (α × μ)) : erase (cs ++ ds) = erase cs ++ erase ds :=
  List.map_append

@[simp] theorem erase_mark (m : μ) (xs : List α) : erase (mark m xs) = xs := by
  rw [erase, mark, List.map_map]
  exact List.map_id xs

@[simp] theorem length_mark (m : μ) (xs : List α) : (mark m xs).length = xs.length := List.length_map _

theorem mem_mark {m : μ} {xs : List α} {c : α × μ} (h : c ∈ mark m xs) : c.2 = m := by
  obtain ⟨x, -, rfl⟩ := List.mem_map.mp h
  rfl

def weight (kept : μ → Bool) (cs : List (α × μ)) : Nat := cs.countP fun c => kept c.2

section
variable {kept : μ → Bool} {m : μ}

@[simp] theorem weight_append (cs ds : List (α × μ)) :
    weight kept (cs ++ ds) = weight kept cs + weight kept ds := List.countP_append

theorem weight_mark_lost (h : kept m = false) (xs : List α) : weight kept (mark m xs) = 0 := by
  rw [weight, List.countP_eq_zero]
  intro c hc
  rw [mem_mark hc, h]
  exact Bool.false_ne_true

theorem weight_drop_lt {n : Nat} {cs : List (α × μ)} (h : ∃ c ∈ cs.take n, kept c.2 = true) :
    weight kept (cs.drop n) < weight kept cs := by
  have hsplit : weight kept (cs.take n) + weight kept (cs.drop n) = weight kept cs := by
    rw [← weight_append, List.take_append_drop]
  have hpos : 0 < weight kept (cs.take n) := by
    rw [weight, List.countP_pos_iff]
    exact h
  omega

end

variable [DecidableEq α]

/-- The matches of `pat` from the left are replaced, with `skip` letters of one still to drop. -/
def replace (pat : List α) (new : List (α × μ)) : Nat → List (α × μ) → List (α × μ)
  | _, [] => []
  | skip + 1, _ :: cs => replace pat new skip cs
  | 0, c :: cs =>
    if pat.isPrefixOf (erase (c :: cs)) then new ++ replace pat new (pat.length - 1) cs
    else c :: replace pat new 0 cs

def Begins (pat : List α) (cs : List (α × μ)) (n : Nat) : Prop := pat <+: erase (cs.drop n)

instance (pat : List α) (cs : List (α × μ)) (n : Nat) : Decidable (Begins pat cs n) :=
  inferInstanceAs (Decidable (pat <+: _))

section
variable {pat : List α} {new cs seg rest : List (α × μ)} {kept : μ → Bool}

theorem replace_skip (pat : List α) (new cs : List (α × μ)) (skip : Nat) :
    replace pat new skip cs = replace pat new 0 (cs.drop skip) := by
  induction skip generalizing cs with
  | zero => rfl
  | succ skip ih =>
    cases cs with
    | nil => rfl
    | cons c cs => exact ih cs

theorem replace_of_begins (hpat : pat ≠ []) (h : Begins pat cs 0) :
    replace pat new 0 cs = new ++ replace pat new 0 (cs.drop pat.length) := by
  cases cs with
  | nil => exact absurd (List.prefix_nil.mp h) hpat
  | cons c cs =>
    have hlength : pat.length = pat.length - 1 + 1 := by
      have hpos := List.length_pos_iff.mpr hpat
      omega
    have hprefix : pat.isPrefixOf (erase (c :: cs)) = true := List.isPrefixOf_iff_prefix.mpr h
    rw [replace, if_pos hprefix, replace_skip, hlength, List.drop_succ_cons, Nat.add_sub_cancel]

theorem replace_of_not_begins {c : α × μ} (h : ¬ Begins pat (c :: cs) 0) :
    replace pat new 0 (c :: cs) = c :: replace pat new 0 cs := by
  have hprefix : ¬ pat.isPrefixOf (erase (c :: cs)) = true := mt List.isPrefixOf_iff_prefix.mp h
  rw [replace, if_neg hprefix]

theorem replace_append (h : ∀ n < seg.length, ¬ Begins pat (seg ++ rest) n) :
    replace pat new 0 (seg ++ rest) = seg ++ replace pat new 0 rest := by
  induction seg with
  | nil => rfl
  | cons c seg ih =>
    have hhead : ¬ Begins pat (c :: (seg ++ rest)) 0 := h 0 (Nat.succ_pos _)
    rw [List.cons_append, replace_of_not_begins hhead, ih]
    · rfl
    · exact fun n hn => h (n + 1) (Nat.succ_lt_succ hn)

theorem replace_own (hpat : pat ≠ []) (hseg : erase seg = pat) :
    replace pat new 0 (seg ++ rest) = new ++ replace pat new 0 rest := by
  have hbegins : Begins pat (seg ++ rest) 0 := by
    rw [← hseg]
    exact ⟨erase rest, (erase_append seg rest).symm⟩
  have hlength : pat.length = seg.length := by
    rw [← hseg]
    exact List.length_map _
  rw [replace_of_begins hpat hbegins, hlength, List.drop_left]

theorem weight_replace_le (hnew : weight kept new = 0) (skip : Nat) (cs : List (α × μ)) :
    weight kept (replace pat new skip cs) ≤ weight kept cs := by
  induction cs generalizing skip with
  | nil => cases skip <;> exact le_rfl
  | cons c cs ih =>
    have hcons : weight kept cs ≤ weight kept (c :: cs) := (List.sublist_cons_self c cs).countP_le
    cases skip with
    | succ skip => exact (ih skip).trans hcons
    | zero =>
      rw [replace]
      split
      · rw [weight_append, hnew, Nat.zero_add]
        exact (ih _).trans hcons
      · show weight kept ([c] ++ _) ≤ weight kept ([c] ++ cs)
        rw [weight_append, weight_append]
        exact Nat.add_le_add_left (ih 0) _

/-- Where a match begins in a text, and each such match has a letter that is kept, less is kept. -/
theorem weight_replace_lt (hpat : pat ≠ []) (hnew : weight kept new = 0)
    (hbegins : ∃ n < seg.length, Begins pat (seg ++ rest) n)
    (hcovers : ∀ n < seg.length, Begins pat (seg ++ rest) n →
      ∃ c ∈ ((seg ++ rest).drop n).take pat.length, kept c.2 = true) :
    weight kept (replace pat new 0 (seg ++ rest)) < weight kept (seg ++ rest) := by
  induction seg with
  | nil =>
    obtain ⟨n, hn, -⟩ := hbegins
    cases hn
  | cons c seg ih =>
    by_cases hhead : Begins pat (c :: (seg ++ rest)) 0
    · have hlost := weight_drop_lt (hcovers 0 (Nat.succ_pos _) hhead)
      rw [List.cons_append, replace_of_begins hpat hhead, weight_append, hnew, Nat.zero_add]
      exact (weight_replace_le hnew 0 _).trans_lt hlost
    · have hlater : weight kept (replace pat new 0 (seg ++ rest)) < weight kept (seg ++ rest) := by
        apply ih
        · obtain ⟨n, hn, hbegins⟩ := hbegins
          cases n with
          | zero => exact absurd hbegins hhead
          | succ n => exact ⟨n, Nat.lt_of_succ_lt_succ hn, hbegins⟩
        · exact fun n hn => hcovers (n + 1) (Nat.succ_lt_succ hn)
      rw [List.cons_append, replace_of_not_begins hhead]
      show weight kept ([c] ++ _) < weight kept ([c] ++ _)
      rw [weight_append, weight_append]
      exact Nat.add_lt_add_left hlater _

end
end Provenance
