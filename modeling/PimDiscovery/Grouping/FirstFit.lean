import Mathlib.Data.List.Basic
import Mathlib.Data.List.Induction
import Mathlib.Data.Nat.Basic

/-! First-fit grouping: each item merges into the first slot it is related to, or opens a slot of
its own. The slots are followed together with the items that went into each. -/

namespace FirstFit
variable {α : Type*} (rel : α → α → Bool) (merge : α → α → α)

def place (slots : List α) (x : α) : Nat := slots.findIdx (rel · x)

def absorb (slots : List α) (x : α) : List α :=
  match slots.findIdx? (rel · x) with
  | some i => slots.modify i (merge · x)
  | none => slots ++ [x]

def run (slots xs : List α) : List α := xs.foldl (absorb rel merge) slots

def placements : List α → List α → List Nat
  | _, [] => []
  | slots, x :: xs => place rel slots x :: placements (absorb rel merge slots x) xs

def inputsOf (xs : List α) (ps : List Nat) (j : Nat) : List α :=
  ((xs.zip ps).filter fun e => e.2 == j).map Prod.fst

theorem absorb_cons (s : α) (slots : List α) (x : α) :
    absorb rel merge (s :: slots) x =
      if rel s x then merge s x :: slots else s :: absorb rel merge slots x := by
  by_cases h : rel s x
  · simp [absorb, List.findIdx?_cons, h]
  · simp only [absorb, List.findIdx?_cons, h, Bool.false_eq_true, if_false]
    cases slots.findIdx? (rel · x) <;> simp

/-- Everything one absorption can do. -/
theorem absorb_cases (slots : List α) (x : α) :
    (∃ pre s post, slots = pre ++ s :: post ∧ (∀ t ∈ pre, rel t x = false) ∧ rel s x = true ∧
      place rel slots x = pre.length ∧ absorb rel merge slots x = pre ++ merge s x :: post) ∨
    ((∀ t ∈ slots, rel t x = false) ∧ place rel slots x = slots.length ∧
      absorb rel merge slots x = slots ++ [x]) := by
  induction slots with
  | nil => exact .inr ⟨by simp, rfl, rfl⟩
  | cons s slots ih =>
    by_cases h : rel s x
    · refine .inl ⟨[], s, slots, rfl, by simp, h, ?_, ?_⟩
      · simp [place, List.findIdx_cons, h]
      · simp [absorb_cons, h]
    · have hf : rel s x = false := by simpa using h
      obtain ⟨pre, t, post, rfl, hpre, ht, hp, ha⟩ | ⟨hall, hp, ha⟩ := ih
      · refine .inl ⟨s :: pre, t, post, rfl, ?_, ht, ?_, ?_⟩
        · simpa [hf] using hpre
        · simpa [place, List.findIdx_cons, hf] using hp
        · simp [absorb_cons, hf, ha]
      · refine .inr ⟨by simpa [hf] using hall, ?_, ?_⟩
        · simpa [place, List.findIdx_cons, hf] using hp
        · simp [absorb_cons, hf, ha]

theorem run_eq_nil_iff (slots xs : List α) : run rel merge slots xs = [] ↔ slots = [] ∧ xs = [] := by
  induction xs generalizing slots with
  | nil => simp [run]
  | cons x xs ih =>
    have hne : absorb rel merge slots x ≠ [] := by
      obtain ⟨pre, s, post, -, -, -, -, ha⟩ | ⟨-, -, ha⟩ := absorb_cases rel merge slots x <;>
        simp [ha]
    rw [run, List.foldl_cons]
    apply (ih _).trans
    simp [hne]

theorem first_unique {rel : α → α → Bool} {pre pre' post post' : List α} {s s' x : α}
    (he : pre ++ s :: post = pre' ++ s' :: post') (hpre : ∀ t ∈ pre, rel t x = false)
    (hpre' : ∀ t ∈ pre', rel t x = false) (hs : rel s x = true) (hs' : rel s' x = true) :
    pre = pre' ∧ s = s' ∧ post = post' := by
  induction pre generalizing pre' with
  | nil =>
    cases pre' with
    | nil => simpa using he
    | cons t _ =>
      obtain ⟨rfl, -⟩ := List.cons.inj he
      rw [hpre' s (by simp)] at hs
      exact absurd hs Bool.false_ne_true
  | cons t pre ih =>
    cases pre' with
    | nil =>
      obtain ⟨rfl, -⟩ := List.cons.inj he
      rw [hpre t (by simp)] at hs'
      exact absurd hs' Bool.false_ne_true
    | cons t' pre' =>
      obtain ⟨rfl, hrec⟩ := List.cons.inj he
      obtain ⟨rfl, hrest⟩ := ih hrec (fun u hu => hpre u (by simp [hu])) fun u hu =>
        hpre' u (by simp [hu])
      exact ⟨rfl, hrest⟩

theorem run_concat (slots xs : List α) (x : α) :
    run rel merge slots (xs ++ [x]) = absorb rel merge (run rel merge slots xs) x := by
  simp [run]

theorem placements_concat (slots xs : List α) (x : α) :
    placements rel merge slots (xs ++ [x]) =
      placements rel merge slots xs ++ [place rel (run rel merge slots xs) x] := by
  induction xs generalizing slots with
  | nil => rfl
  | cons y ys ih =>
    have h := ih (absorb rel merge slots y)
    simpa only [List.cons_append, placements, run, List.foldl_cons, List.cons.injEq, true_and] using h

theorem inputsOf_concat {xs : List α} {ps : List Nat} (h : ps.length = xs.length) (x : α)
    (p j : Nat) :
    inputsOf (xs ++ [x]) (ps ++ [p]) j = inputsOf xs ps j ++ if p = j then [x] else [] := by
  simp only [inputsOf, List.zip_append h.symm, List.filter_append, List.map_append]
  by_cases hp : p = j <;> simp [hp]

theorem inputsOf_eq_nil {xs : List α} {ps : List Nat} {j : Nat} (h : ∀ p ∈ ps, p ≠ j) :
    inputsOf xs ps j = [] := by
  simp only [inputsOf, List.map_eq_nil_iff, List.filter_eq_nil_iff, beq_iff_eq]
  intro e he
  exact h e.2 (List.of_mem_zip he).2

/-- The slots after some items: each item sits in one slot, no slot is empty, every slot stands in
`inv` to its items, and slots are ordered by their first item. -/
structure Grouped (inv : α → List α → Prop) (slots xs : List α) (ps : List Nat) : Prop where
  length_eq : ps.length = xs.length
  bound : ∀ p ∈ ps, p < slots.length
  nonempty : ∀ j < slots.length, inputsOf xs ps j ≠ []
  slot : ∀ (j : Nat) (h : j < slots.length), inv slots[j] (inputsOf xs ps j)
  first : ∀ j k, j < k → k < slots.length → ps.idxOf j < ps.idxOf k

variable {rel merge}

theorem pairwise_absorb_iff (symm : ∀ s t, rel s t = rel t s) {slots : List α}
    (h : slots.Pairwise fun s t => rel s t = false) (x : α) :
    (absorb rel merge slots x).Pairwise (fun s t => rel s t = false) ↔
      ∀ pre s post, slots = pre ++ s :: post → (∀ t ∈ pre, rel t x = false) → rel s x = true →
        ∀ t ∈ pre ++ post, rel (merge s x) t = false := by
  obtain ⟨pre, s, post, rfl, hpre, hs, -, ha⟩ | ⟨hall, -, ha⟩ := absorb_cases rel merge slots x
  · rw [ha]
    simp only [List.pairwise_append, List.pairwise_cons, List.mem_cons, List.mem_append] at h ⊢
    constructor
    · rintro ⟨-, ⟨hpost, -⟩, hcross⟩ pre' s' post' he hpre' hs' t ht
      obtain ⟨rfl, rfl, rfl⟩ := first_unique he hpre hpre' hs hs'
      rcases ht with ht | ht
      · rw [symm]
        exact hcross t ht _ (.inl rfl)
      · exact hpost t ht
    · intro hm
      have hm := hm pre s post rfl hpre hs
      refine ⟨h.1, ⟨fun t ht => hm t (.inr ht), h.2.1.2⟩, ?_⟩
      rintro t ht u (rfl | hu)
      · rw [symm]
        exact hm t (.inl ht)
      · exact h.2.2 t ht u (.inr hu)
  · rw [ha]
    refine ⟨fun _ pre s post he _ hs => ?_, fun _ => ?_⟩
    · rw [hall s (by simp [he])] at hs
      exact absurd hs Bool.false_ne_true
    · simp only [List.pairwise_append, List.pairwise_cons, List.mem_singleton]
      refine ⟨h, ⟨by simp, .nil⟩, ?_⟩
      rintro t ht u rfl
      exact hall t ht

theorem forall_run {P : α → Prop} (hmerge : ∀ s x, rel s x = true → P s → P x → P (merge s x))
    {slots xs : List α} (hslots : ∀ s ∈ slots, P s) (hxs : ∀ x ∈ xs, P x) : ∀ s ∈ run rel merge slots xs, P s := by
  induction xs generalizing slots with
  | nil => exact hslots
  | cons x xs ih =>
    have hx := hxs x (by simp)
    have habsorb : ∀ s ∈ absorb rel merge slots x, P s := by
      obtain ⟨pre, s, post, rfl, -, hrel, -, ha⟩ | ⟨-, -, ha⟩ := absorb_cases rel merge slots x
      · rw [ha]
        simp only [List.forall_mem_append, List.forall_mem_cons] at hslots ⊢
        exact ⟨hslots.1, hmerge s x hrel hslots.2.1 hx, hslots.2.2⟩
      · rw [ha]
        exact List.forall_mem_append.mpr ⟨hslots, by simpa using hx⟩
    exact ih habsorb fun y hy => hxs y (by simp [hy])

theorem countP_run_le {p : α → Bool} (hmerge : ∀ s x, p (merge s x) = true → p s = true ∨ p x = true)
    (slots xs : List α) : (run rel merge slots xs).countP p ≤ slots.countP p + xs.countP p := by
  induction xs generalizing slots with
  | nil => exact Nat.le_add_right _ _
  | cons x xs ih =>
    have habsorb : (absorb rel merge slots x).countP p ≤ slots.countP p + [x].countP p := by
      obtain ⟨pre, s, post, rfl, -, -, -, ha⟩ | ⟨-, -, ha⟩ := absorb_cases rel merge slots x
      · have hslot : [merge s x].countP p ≤ [s].countP p + [x].countP p := by
          by_cases hm : p (merge s x) = true
          · rcases hmerge s x hm with hs | hx
            · simp [hm, hs]
            · simp [hm, hx]
          · simp [hm]
        rw [ha, List.countP_append, List.countP_append, ← List.singleton_append (l := post),
          List.countP_append, ← List.singleton_append (l := post), List.countP_append]
        omega
      · rw [ha, List.countP_append]
    have hrest := ih (absorb rel merge slots x)
    have hcons : (x :: xs).countP p = [x].countP p + xs.countP p := by
      rw [← List.countP_append, List.singleton_append]
    rw [run, List.foldl_cons]
    rw [run] at hrest
    omega

theorem exists_run {P : α → Prop} (hmerge : ∀ s x, rel s x = true → P s ∨ P x → P (merge s x))
    {slots xs : List α} (h : (∃ s ∈ slots, P s) ∨ ∃ x ∈ xs, P x) :
    ∃ s ∈ run rel merge slots xs, P s := by
  induction xs generalizing slots with
  | nil => exact h.resolve_right (by simp)
  | cons x xs ih =>
    apply ih
    rw [List.exists_mem_cons_iff, ← or_assoc] at h
    refine h.imp_left fun hx => ?_
    obtain ⟨pre, s, post, rfl, -, hrel, -, ha⟩ | ⟨-, -, ha⟩ := absorb_cases rel merge slots x
    · have hmerged := hmerge s x hrel
      rw [ha]
      simp only [List.mem_append, List.mem_cons, or_and_right, exists_or, exists_eq_left] at hx ⊢
      rcases hx with (hpre | hs | hpost) | hx
      · exact .inl hpre
      · exact .inr (.inl (hmerged (.inl hs)))
      · exact .inr (.inr hpost)
      · exact .inr (.inl (hmerged (.inr hx)))
    · rw [ha]
      simpa [or_and_right, exists_or] using hx

theorem getElem?_absorb {R : α → α → Prop} (hrefl : ∀ s, R s s)
    (hmerge : ∀ s x, rel s x = true → R s (merge s x)) {slots : List α} {i : Nat} {s : α}
    (h : slots[i]? = some s) (x : α) : ∃ t, (absorb rel merge slots x)[i]? = some t ∧ R s t := by
  obtain ⟨pre, u, post, rfl, -, hrel, -, ha⟩ | ⟨-, -, ha⟩ := absorb_cases rel merge slots x
  · rw [ha]
    rcases Nat.lt_trichotomy i pre.length with hlt | rfl | hgt
    · rw [List.getElem?_append_left hlt] at h ⊢
      exact ⟨s, h, hrefl s⟩
    · rw [List.getElem?_append_right (le_refl _), Nat.sub_self] at h ⊢
      obtain rfl := Option.some.inj h
      exact ⟨merge u x, rfl, hmerge u x hrel⟩
    · obtain ⟨k, rfl⟩ : ∃ k, i = pre.length + (k + 1) := ⟨i - (pre.length + 1), by omega⟩
      rw [List.getElem?_append_right (Nat.le_add_right _ _), Nat.add_sub_cancel_left] at h ⊢
      exact ⟨s, h, hrefl s⟩
  · rw [ha, List.getElem?_append_left (List.getElem?_eq_some_iff.mp h).1]
    exact ⟨s, h, hrefl s⟩

theorem getElem?_run {R : α → α → Prop} (hrefl : ∀ s, R s s)
    (htrans : ∀ {s t u}, R s t → R t u → R s u) (hmerge : ∀ s x, rel s x = true → R s (merge s x))
    {slots : List α} {i : Nat} {s : α} (h : slots[i]? = some s) (xs : List α) :
    ∃ t, (run rel merge slots xs)[i]? = some t ∧ R s t := by
  induction xs generalizing slots s with
  | nil => exact ⟨s, h, hrefl s⟩
  | cons x xs ih =>
    obtain ⟨t, ht, hst⟩ := getElem?_absorb hrefl hmerge h x
    obtain ⟨u, hu, htu⟩ := ih ht
    exact ⟨u, hu, htrans hst htu⟩

theorem absorb_filter {p : α → Bool} (hrel : ∀ s t, rel s t = true → p s = p t)
    (hmerge : ∀ s t, p (merge s t) = p s) (slots : List α) (x : α) :
    (absorb rel merge slots x).filter p =
      if p x then absorb rel merge (slots.filter p) x else slots.filter p := by
  induction slots with
  | nil => by_cases hx : p x = true <;> simp [absorb, hx]
  | cons s slots ih =>
    rw [absorb_cons]
    by_cases hs : rel s x = true
    · rw [if_pos hs]
      by_cases hx : p x = true
      · have hps : p s = true := (hrel s x hs).trans hx
        simp [hx, hps, hmerge, absorb_cons, hs]
      · have hps : ¬ p s = true := fun h => hx ((hrel s x hs).symm.trans h)
        simp [hx, hps, hmerge]
    · rw [if_neg hs]
      by_cases hps : p s = true
      · by_cases hx : p x = true
        · simp [hps, hx, ih, absorb_cons, hs]
        · simp [hps, hx, ih]
      · simp [hps, ih]

/-- Items of which related ones agree on `p` may be filtered before or after a run. -/
theorem run_filter {p : α → Bool} (hrel : ∀ s t, rel s t = true → p s = p t)
    (hmerge : ∀ s t, p (merge s t) = p s) (slots xs : List α) :
    run rel merge (slots.filter p) (xs.filter p) = (run rel merge slots xs).filter p := by
  induction xs generalizing slots with
  | nil => rfl
  | cons x xs ih =>
    have hstep := absorb_filter hrel hmerge slots x
    by_cases hx : p x = true
    · rw [List.filter_cons_of_pos hx, run, List.foldl_cons]
      rw [if_pos hx] at hstep
      rw [← hstep]
      exact ih _
    · rw [List.filter_cons_of_neg hx]
      rw [if_neg hx] at hstep
      rw [← hstep]
      exact ih _

theorem Grouped.mem {inv : α → List α → Prop} {slots xs : List α} {ps : List Nat}
    (h : Grouped inv slots xs ps) {j : Nat} (hj : j < slots.length) : j ∈ ps := by
  by_contra hn
  exact h.nonempty j hj (inputsOf_eq_nil fun p hp he => hn (he ▸ hp))

theorem Grouped.exists_slot {inv : α → List α → Prop} {slots xs : List α} {ps : List Nat}
    (h : Grouped inv slots xs ps) {x : α} (hx : x ∈ xs) :
    ∃ (j : Nat) (hj : j < slots.length), x ∈ inputsOf xs ps j ∧ inv slots[j] (inputsOf xs ps j) := by
  obtain ⟨i, hi, rfl⟩ := List.getElem_of_mem hx
  have hp : i < ps.length := h.length_eq ▸ hi
  have hj := h.bound ps[i] (List.getElem_mem hp)
  refine ⟨ps[i], hj, ?_, h.slot _ hj⟩
  have hzip : (xs[i], ps[i]) ∈ xs.zip ps := by
    have hlen : i < (xs.zip ps).length := by
      rw [List.length_zip]
      exact Nat.lt_min.mpr ⟨hi, hp⟩
    simpa using List.getElem_mem hlen
  exact List.mem_map.mpr ⟨_, List.mem_filter.mpr ⟨hzip, by simp⟩, rfl⟩

theorem Grouped.merge_slot {inv : α → List α → Prop}
    (step : ∀ s ms x, inv s ms → rel s x = true → inv (merge s x) (ms ++ [x]))
    {pre post xs : List α} {s x : α} {ps : List Nat} (h : Grouped inv (pre ++ s :: post) xs ps)
    (hrel : rel s x = true) :
    Grouped inv (pre ++ merge s x :: post) (xs ++ [x]) (ps ++ [pre.length]) := by
  have hin := inputsOf_concat h.length_eq x pre.length
  have hlen : (pre ++ merge s x :: post).length = (pre ++ s :: post).length := by simp
  constructor
  · simp [h.length_eq]
  · intro p hmem
    rcases List.mem_append.mp hmem with hmem | hmem
    · exact hlen ▸ h.bound p hmem
    · rw [List.mem_singleton.mp hmem]
      simp
  · intro j hj
    rw [hin]
    exact fun he => h.nonempty j (hlen ▸ hj) (List.append_eq_nil_iff.mp he).1
  · intro j hj
    have hinv := h.slot j (hlen ▸ hj)
    rw [hin]
    rcases Nat.lt_trichotomy j pre.length with hlt | rfl | hgt
    · rw [if_neg (by omega), List.append_nil]
      simpa [List.getElem_append_left hlt] using hinv
    · rw [if_pos rfl]
      rw [List.getElem_append_right (le_refl _)] at hinv ⊢
      simpa using step _ _ x (by simpa using hinv) hrel
    · rw [if_neg (by omega), List.append_nil]
      obtain ⟨i, rfl⟩ : ∃ i, j = pre.length + (i + 1) := ⟨j - (pre.length + 1), by omega⟩
      simpa [List.getElem_append_right] using hinv
  · intro j k hjk hk
    have hk' : k < (pre ++ s :: post).length := hlen ▸ hk
    rw [List.idxOf_append_of_mem (h.mem hk'), List.idxOf_append_of_mem (h.mem (Nat.lt_trans hjk hk'))]
    exact h.first j k hjk hk'

theorem Grouped.new_slot {inv : α → List α → Prop} (single : ∀ x, inv x [x])
    {slots xs : List α} {ps : List Nat} (h : Grouped inv slots xs ps) (x : α) :
    Grouped inv (slots ++ [x]) (xs ++ [x]) (ps ++ [slots.length]) := by
  have hin := inputsOf_concat h.length_eq x slots.length
  have hlen : (slots ++ [x]).length = slots.length + 1 := by simp
  have hnew : slots.length ∉ ps := fun hm => absurd (h.bound _ hm) (Nat.lt_irrefl _)
  constructor
  · simp [h.length_eq]
  · intro p hmem
    rw [hlen]
    rcases List.mem_append.mp hmem with hmem | hmem
    · exact Nat.lt_succ_of_lt (h.bound p hmem)
    · rw [List.mem_singleton.mp hmem]
      exact Nat.lt_succ_self _
  · intro j hj
    rw [hin]
    rcases Nat.lt_succ_iff_lt_or_eq.mp (hlen ▸ hj) with hj | rfl
    · exact fun he => h.nonempty j hj (List.append_eq_nil_iff.mp he).1
    · simp
  · intro j hj
    rw [hin]
    rcases Nat.lt_succ_iff_lt_or_eq.mp (hlen ▸ hj) with hj | rfl
    · rw [if_neg (by omega), List.append_nil]
      simpa [List.getElem_append_left hj] using h.slot j hj
    · rw [if_pos rfl, inputsOf_eq_nil fun p hm he => hnew (by rwa [he] at hm)]
      simpa using single x
  · intro j k hjk hk
    rcases Nat.lt_succ_iff_lt_or_eq.mp (hlen ▸ hk) with hk | rfl
    · rw [List.idxOf_append_of_mem (h.mem hk), List.idxOf_append_of_mem (h.mem (Nat.lt_trans hjk hk))]
      exact h.first j k hjk hk
    · rw [List.idxOf_append_of_mem (h.mem hjk), List.idxOf_append_of_notMem hnew]
      exact Nat.lt_add_right _ (List.idxOf_lt_length_of_mem (h.mem hjk))

/-- The run rule: a relation of a slot to its items that holds of a fresh slot and survives each
merge holds of every slot after any items. -/
theorem grouped_run {inv : α → List α → Prop} (single : ∀ x, inv x [x])
    (step : ∀ s ms x, inv s ms → rel s x = true → inv (merge s x) (ms ++ [x])) (xs : List α) :
    Grouped inv (run rel merge [] xs) xs (placements rel merge [] xs) := by
  induction xs using List.reverseRecOn with
  | nil => exact ⟨rfl, by simp [placements], by simp [run], by simp [run], by simp [run]⟩
  | append_singleton xs x ih =>
    rw [run_concat, placements_concat]
    obtain ⟨pre, s, post, hs, -, hrel, hp, ha⟩ | ⟨-, hp, ha⟩ :=
      absorb_cases rel merge (run rel merge [] xs) x
    · rw [hp, ha]
      exact (hs ▸ ih).merge_slot step hrel
    · rw [hp, ha]
      exact ih.new_slot single x

end FirstFit
