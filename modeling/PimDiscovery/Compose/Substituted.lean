import Mathlib.Data.List.Nodup
import PimDiscovery.Provenance.Replace
import PimDiscovery.Compose.Config

/-! The placeholders of an autoconfig value filled in with the address. The text is marked with where its
letters come from, and `substitute` goes over the marked text: what it takes for a placeholder shows. -/

namespace PimDiscovery
open Provenance

inductive Placeholder where
  | emailAddress
  | emailLocalPart
  | emailDomain
  deriving DecidableEq

namespace Placeholder

def name : Placeholder → String
  | emailAddress => "%EMAILADDRESS%"
  | emailLocalPart => "%EMAILLOCALPART%"
  | emailDomain => "%EMAILDOMAIN%"

def value (email : String) : Placeholder → String
  | emailAddress => email
  | emailLocalPart => ((Text.splitOnce email '@').getD (email, "")).1
  | emailDomain => ((Text.splitOnce email '@').getD (email, "")).2

def inOrder : List Placeholder := [emailAddress, emailLocalPart, emailDomain]

end Placeholder

inductive Piece where
  | literal (text : String)
  | placeholder (kind : Placeholder)
  deriving DecidableEq

namespace Piece

def source : Piece → String
  | literal text => text
  | placeholder kind => kind.name

def filled (email : String) : Piece → String
  | literal text => text
  | placeholder kind => kind.value email

end Piece

def template (pieces : List Piece) : String := String.join (pieces.map Piece.source)

def expanded (email : String) (pieces : List Piece) : String :=
  String.join (pieces.map (Piece.filled email))

inductive Origin where
  | literal
  | placeholder
  | value (kind : Placeholder)
  deriving DecidableEq

def Piece.render (done : List Placeholder) (email : String) : Piece → List (Char × Origin)
  | .literal text => mark .literal text.toList
  | .placeholder kind =>
    if kind ∈ done then mark (.value kind) (kind.value email).toList
    else mark .placeholder kind.name.toList

def render (done : List Placeholder) (email : String) (pieces : List Piece) :
    List (Char × Origin) := pieces.flatMap (Piece.render done email)

def fill (email : String) (cs : List (Char × Origin)) (kind : Placeholder) :
    List (Char × Origin) :=
  replace kind.name.toList (mark (.value kind) (kind.value email).toList) 0 cs

/-- `substitute` on the marked template. -/
def traced (email : String) (pieces : List Piece) : List (Char × Origin) :=
  Placeholder.inOrder.foldl (fill email) (render [] email pieces)

/-- The result is the template filled in, and no letter of a literal or of an inserted value was taken
for a placeholder. -/
structure SubstitutesVerbatim (email : String) (pieces : List Piece) : Prop where
  result : substitute (template pieces) email = expanded email pieces
  untouched : traced email pieces = render Placeholder.inOrder email pieces

/-- The name of `kind` begins nowhere but in its own placeholders, once those of `done` are filled in. -/
def Apart (done : List Placeholder) (kind : Placeholder) (email : String) : List Piece → Prop
  | [] => True
  | piece :: rest =>
    (piece = .placeholder kind ∨ ∀ n < (piece.render done email).length,
      ¬ Begins kind.name.toList (piece.render done email ++ render done email rest) n) ∧
    Apart done kind email rest

def FillsApart (email : String) (pieces : List Piece) (done : List Placeholder) :
    List Placeholder → Prop
  | [] => True
  | kind :: todo =>
    Apart done kind email pieces ∧ FillsApart email pieces (done ++ [kind]) todo

instance Apart.decidable (done : List Placeholder) (kind : Placeholder) (email : String) :
    (pieces : List Piece) → Decidable (Apart done kind email pieces)
  | [] => inferInstanceAs (Decidable True)
  | _ :: rest =>
    have := Apart.decidable done kind email rest
    inferInstanceAs (Decidable (_ ∧ _))

instance FillsApart.decidable (email : String) (pieces : List Piece) (done : List Placeholder) :
    (todo : List Placeholder) → Decidable (FillsApart email pieces done todo)
  | [] => inferInstanceAs (Decidable True)
  | kind :: todo =>
    have := FillsApart.decidable email pieces (done ++ [kind]) todo
    inferInstanceAs (Decidable (_ ∧ _))

theorem erase_replace (pat : List Char) (new cs : List (Char × Origin)) (skip : Nat) :
    erase (replace pat new skip cs) = Text.replaceChars pat (erase new) skip (erase cs) := by
  induction cs generalizing skip with
  | nil => cases skip <;> rfl
  | cons c cs ih =>
    cases skip with
    | succ skip => exact ih skip
    | zero =>
      have hcons : erase (c :: cs) = c.1 :: erase cs := rfl
      rw [replace, hcons, Text.replaceChars]
      split
      · rw [erase_append, ih]
      · show c.1 :: erase _ = _
        rw [ih]

theorem erase_fill (email : String) (cs : List (Char × Origin)) (kind : Placeholder) :
    String.ofList (erase (fill email cs kind)) =
      Text.replace (String.ofList (erase cs)) kind.name (kind.value email) := by
  rw [fill, erase_replace, erase_mark, Text.replace, String.toList_ofList]

theorem erase_render_none (email : String) (pieces : List Piece) :
    String.ofList (erase (render [] email pieces)) = template pieces := by
  apply String.toList_inj.mp
  rw [String.toList_ofList, template, String.toList_join]
  induction pieces with
  | nil => rfl
  | cons piece rest ih =>
    have hpiece : erase (piece.render [] email) = piece.source.toList := by
      cases piece <;> exact erase_mark _ _
    rw [render, List.flatMap_cons, erase_append, hpiece, ← render, ih]
    rfl

theorem erase_render_all (email : String) (pieces : List Piece) :
    String.ofList (erase (render Placeholder.inOrder email pieces)) = expanded email pieces := by
  apply String.toList_inj.mp
  rw [String.toList_ofList, expanded, String.toList_join]
  induction pieces with
  | nil => rfl
  | cons piece rest ih =>
    have hpiece : erase (piece.render Placeholder.inOrder email) = (piece.filled email).toList := by
      cases piece with
      | literal text => exact erase_mark _ _
      | placeholder kind => cases kind <;> exact erase_mark _ _
    rw [render, List.flatMap_cons, erase_append, hpiece, ← render, ih]
    rfl

theorem erase_traced (email : String) (pieces : List Piece) :
    String.ofList (erase (traced email pieces)) = substitute (template pieces) email := by
  rw [traced, Placeholder.inOrder, List.foldl_cons, List.foldl_cons, List.foldl_cons, List.foldl_nil,
    erase_fill, erase_fill, erase_fill, erase_render_none]
  rfl

def Origin.settled (done : List Placeholder) : Origin → Bool
  | .literal => true
  | .placeholder => false
  | .value kind => kind ∈ done

section
variable {email : String} {done : List Placeholder} {kind : Placeholder}

theorem render_cons (piece : Piece) (rest : List Piece) :
    render done email (piece :: rest) = piece.render done email ++ render done email rest :=
  List.flatMap_cons

theorem Piece.render_of_ne {piece : Piece} (h : piece ≠ .placeholder kind) :
    piece.render (done ++ [kind]) email = piece.render done email := by
  cases piece with
  | literal text => rfl
  | placeholder other =>
    have hother : other ≠ kind := fun heq => h (congrArg _ heq)
    have hiff : other ∈ done ++ [kind] ↔ other ∈ done := by
      rw [List.mem_append, List.mem_singleton]
      exact or_iff_left hother
    rw [render, render, if_congr hiff rfl rfl]

theorem weight_value (h : kind ∉ done) :
    weight (Origin.settled done) (mark (.value kind) (kind.value email).toList) = 0 :=
  weight_mark_lost (show Origin.settled done (.value kind) = false from decide_eq_false h) _

theorem weight_render {more : List Placeholder} (h : done ⊆ more) (pieces : List Piece) :
    weight (Origin.settled done) (render more email pieces) =
      weight (Origin.settled done) (render done email pieces) := by
  induction pieces with
  | nil => rfl
  | cons piece rest ih =>
    have hpiece : weight (Origin.settled done) (piece.render more email) =
        weight (Origin.settled done) (piece.render done email) := by
      cases piece with
      | literal text => rfl
      | placeholder other =>
        rw [Piece.render, Piece.render]
        by_cases hdone : other ∈ done
        · rw [if_pos hdone, if_pos (h hdone)]
        · have hname : weight (Origin.settled done) (mark .placeholder other.name.toList) = 0 :=
            weight_mark_lost rfl _
          rw [if_neg hdone, hname]
          split
          · exact weight_value hdone
          · exact hname
    rw [render_cons, render_cons, weight_append, weight_append, hpiece, ih]

theorem Piece.settled_or (done : List Placeholder) (email : String) (piece : Piece) :
    (∀ c ∈ piece.render done email, c.2.settled done = true) ∨
      ∃ other, piece = .placeholder other ∧
        piece.render done email = mark .placeholder other.name.toList := by
  cases piece with
  | literal text =>
    left
    intro c hc
    rw [mem_mark hc]
    rfl
  | placeholder other =>
    rw [Piece.render]
    split
    · rename_i hother
      left
      intro c hc
      rw [mem_mark hc]
      exact decide_eq_true hother
    · exact .inr ⟨other, rfl, rfl⟩

theorem settled_of_ne {pieces : List Piece} {c : Char × Origin} {cs : List (Char × Origin)}
    (h : render done email pieces = c :: cs) (hc : c.1 ≠ '%') : c.2.settled done = true := by
  induction pieces with
  | nil => cases h
  | cons piece rest ih =>
    rw [render_cons] at h
    rcases piece.settled_or done email with hsettled | ⟨other, -, hname⟩
    · cases hpiece : piece.render done email with
      | nil =>
        rw [hpiece] at h
        exact ih h
      | cons d ds =>
        rw [hpiece] at h
        obtain ⟨rfl, -⟩ := List.cons.inj h
        apply hsettled
        rw [hpiece]
        exact List.mem_cons_self
    · have hfirst : ∃ cs, other.name.toList = '%' :: cs := by cases other <;> exact ⟨_, rfl⟩
      obtain ⟨cs, hfirst⟩ := hfirst
      rw [hname, hfirst] at h
      obtain ⟨rfl, -⟩ := List.cons.inj h
      exact absurd rfl hc

theorem Placeholder.name_ne_nil (kind : Placeholder) : kind.name.toList ≠ [] := by
  cases kind <;> exact List.cons_ne_nil _ _

/-- Inside another placeholder's name a name begins at the last character only. -/
theorem Placeholder.name_overlap (kind other : Placeholder) (hne : other ≠ kind) :
    ∀ n < other.name.toList.length,
      (kind.name.toList <+: other.name.toList.drop n ∨ other.name.toList.drop n <+: kind.name.toList) →
      other.name.toList.drop n = ['%'] := by
  cases kind <;> cases other <;> first | exact absurd rfl hne | decide +kernel

theorem covers_first {pat : List Char} (hpat : pat ≠ []) {seg rest : List (Char × Origin)}
    (hseg : ∀ c ∈ seg, c.2.settled done = true) {n : Nat} (hn : n < seg.length) :
    ∃ c ∈ ((seg ++ rest).drop n).take pat.length, c.2.settled done = true := by
  obtain ⟨p, ps, rfl⟩ := List.exists_cons_of_ne_nil hpat
  refine ⟨seg[n], ?_, hseg _ (List.getElem_mem hn)⟩
  rw [List.drop_append_of_le_length hn.le, List.drop_eq_getElem_cons hn, List.cons_append,
    List.length_cons, List.take_succ_cons]
  exact List.mem_cons_self

theorem covers_next {other : Placeholder} (hne : other ≠ kind) (rest : List Piece) {n : Nat}
    (hn : n < other.name.toList.length)
    (h : Begins kind.name.toList (mark Origin.placeholder other.name.toList ++ render done email rest) n) :
    ∃ c ∈ ((mark Origin.placeholder other.name.toList ++ render done email rest).drop n).take
      kind.name.toList.length, c.2.settled done = true := by
  have hdrop : (mark Origin.placeholder other.name.toList ++ render done email rest).drop n =
      mark Origin.placeholder (other.name.toList.drop n) ++ render done email rest := by
    rw [List.drop_append_of_le_length, mark, ← List.map_drop]
    · rfl
    · rw [length_mark]
      exact hn.le
  have hname : ∃ cs, kind.name.toList = '%' :: 'E' :: cs := by
    cases kind <;> exact ⟨_, rfl⟩
  obtain ⟨cs, hname⟩ := hname
  rw [Begins, hdrop, erase_append, erase_mark] at h
  have hclose := Placeholder.name_overlap kind other hne n hn
    (List.prefix_or_prefix_of_prefix h (List.prefix_append _ _))
  rw [hdrop, hclose, hname]
  rw [hclose, hname, List.singleton_append, List.cons_prefix_cons] at h
  cases hrest : render done email rest with
  | nil =>
    rw [hrest] at h
    exact absurd (List.prefix_nil.mp h.2) (List.cons_ne_nil _ _)
  | cons c ds =>
    rw [hrest] at h
    have hc : 'E' = c.1 := (List.cons_prefix_cons.mp h.2).1
    have hsettled : c.2.settled done = true := by
      apply settled_of_ne hrest
      rw [← hc]
      decide
    exact ⟨c, List.mem_cons_of_mem _ List.mem_cons_self, hsettled⟩

theorem covers_settled {piece : Piece} (hpiece : piece ≠ .placeholder kind) (rest : List Piece) :
    ∀ n < (piece.render done email).length,
      Begins kind.name.toList (piece.render done email ++ render done email rest) n →
      ∃ c ∈ ((piece.render done email ++ render done email rest).drop n).take kind.name.toList.length,
        c.2.settled done = true := by
  intro n hn hbegins
  rcases piece.settled_or done email with hsettled | ⟨other, hother, hname⟩
  · exact covers_first kind.name_ne_nil hsettled hn
  · have hne : other ≠ kind := fun heq => hpiece (heq ▸ hother)
    rw [hname] at hn hbegins ⊢
    rw [length_mark] at hn
    exact covers_next hne rest hn hbegins

/-- The placeholders of a kind that is apart are filled in, and nothing else changes. -/
theorem fill_of_apart {pieces : List Piece} (hkind : kind ∉ done)
    (h : Apart done kind email pieces) :
    fill email (render done email pieces) kind = render (done ++ [kind]) email pieces := by
  induction pieces with
  | nil => rfl
  | cons piece rest ih =>
    obtain ⟨hhead, hrest⟩ := h
    have ih := ih hrest
    rw [fill] at ih ⊢
    rw [render_cons, render_cons]
    by_cases hpiece : piece = .placeholder kind
    · have hdone : kind ∈ done ++ [kind] := List.mem_append_right _ (List.mem_singleton_self _)
      rw [hpiece, Piece.render, Piece.render, if_neg hkind, if_pos hdone,
        replace_own kind.name_ne_nil (erase_mark _ _), ih]
    · rw [replace_append (hhead.resolve_left hpiece), ih, Piece.render_of_ne hpiece]

theorem weight_fill_lt {pieces : List Piece} (hkind : kind ∉ done)
    (h : ¬ Apart done kind email pieces) :
    weight (Origin.settled done) (fill email (render done email pieces) kind) <
      weight (Origin.settled done) (render done email pieces) := by
  induction pieces with
  | nil => exact absurd trivial h
  | cons piece rest ih =>
    rw [fill] at ih ⊢
    rw [render_cons]
    by_cases hpiece : piece = .placeholder kind
    · have hrest : ¬ Apart done kind email rest := fun hrest => h ⟨.inl hpiece, hrest⟩
      rw [hpiece, Piece.render, if_neg hkind, replace_own kind.name_ne_nil (erase_mark _ _), weight_append,
        weight_append, weight_value hkind, weight_mark_lost rfl]
      exact Nat.add_lt_add_left (ih hrest) 0
    · by_cases hhead : ∃ n < (piece.render done email).length,
          Begins kind.name.toList (piece.render done email ++ render done email rest) n
      · exact weight_replace_lt kind.name_ne_nil (weight_value hkind) hhead (covers_settled hpiece rest)
      · push Not at hhead
        have hrest : ¬ Apart done kind email rest := fun hrest => h ⟨.inr hhead, hrest⟩
        rw [replace_append hhead, weight_append, weight_append]
        exact Nat.add_lt_add_left (ih hrest) _

theorem weight_fills_le {todo : List Placeholder} (h : ∀ kind ∈ todo, kind ∉ done)
    (cs : List (Char × Origin)) :
    weight (Origin.settled done) (todo.foldl (fill email) cs) ≤ weight (Origin.settled done) cs := by
  induction todo generalizing cs with
  | nil => exact le_rfl
  | cons kind todo ih =>
    obtain ⟨hkind, htodo⟩ := List.forall_mem_cons.mp h
    exact (ih htodo _).trans (weight_replace_le (weight_value hkind) 0 cs)

/-- Filling in the kinds of `todo` in turn comes out right when each is apart in its turn. -/
theorem fills_iff (pieces : List Piece) {todo : List Placeholder} (h : (done ++ todo).Nodup) :
    todo.foldl (fill email) (render done email pieces) = render (done ++ todo) email pieces ↔
      FillsApart email pieces done todo := by
  induction todo generalizing done with
  | nil =>
    rw [List.append_nil]
    exact iff_of_true rfl trivial
  | cons kind todo ih =>
    have happend : done ++ kind :: todo = (done ++ [kind]) ++ todo := by
      rw [List.append_assoc, List.singleton_append]
    have hnew : ∀ next ∈ kind :: todo, next ∉ done := fun next hnext hdone =>
      (List.nodup_append.mp h).2.2 next hdone next hnext rfl
    obtain ⟨hkind, htodo⟩ := List.forall_mem_cons.mp hnew
    rw [List.foldl_cons, FillsApart]
    by_cases hapart : Apart done kind email pieces
    · rw [fill_of_apart hkind hapart, happend, ih (happend ▸ h)]
      exact (and_iff_right hapart).symm
    · refine iff_of_false (fun heq => ?_) fun happarts => hapart happarts.1
      have hlost : weight (Origin.settled done) (todo.foldl (fill email) _) < _ :=
        (weight_fills_le htodo _).trans_lt (weight_fill_lt hkind hapart)
      rw [heq, weight_render (List.subset_append_left _ _)] at hlost
      exact lt_irrefl _ hlost

end

/-- The marked run is the run of `substitute`, and fills in the address verbatim exactly when each name
begins, in its turn, nowhere but in its own placeholders. -/
theorem substitute_verbatim_iff (email : String) (pieces : List Piece) :
    String.ofList (erase (traced email pieces)) = substitute (template pieces) email ∧
      (SubstitutesVerbatim email pieces ↔ FillsApart email pieces [] Placeholder.inOrder) := by
  refine ⟨erase_traced email pieces, ?_⟩
  have hfills : traced email pieces = render Placeholder.inOrder email pieces ↔
      FillsApart email pieces [] Placeholder.inOrder := fills_iff pieces (by decide)
  constructor
  · exact fun h => hfills.mp h.untouched
  · intro h
    have huntouched := hfills.mpr h
    have hresult : substitute (template pieces) email = expanded email pieces := by
      rw [← erase_traced, huntouched, erase_render_all]
    exact ⟨hresult, huntouched⟩

-- The literal between two placeholders is taken for one.
example : ¬ FillsApart "a@b" [.placeholder .emailDomain, .literal "EMAILADDRESS", .placeholder .emailDomain]
    [] Placeholder.inOrder := by decide +kernel

/-- A local part that reads as a placeholder is replaced by the domain. -/
theorem substitute_reads_address :
    ¬ ∀ (email : String) (pieces : List Piece),
      (∀ text, .literal text ∈ pieces → '%' ∉ text.toList) →
      substitute (template pieces) email = expanded email pieces := by
  intro h
  have haddress := h "%EMAILDOMAIN%@example.org" [.placeholder .emailAddress] (by simp)
  exact absurd haddress (by decide +kernel)

end PimDiscovery
