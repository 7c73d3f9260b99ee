import Mathlib.Data.List.Infix
import Mathlib.Data.Prod.Basic

/-! The query of a URL as the URL Standard writes and reads it: percent-encoding, and the parameters of
`application/x-www-form-urlencoded`, on bytes. -/

namespace Urlencoded

def hexDigit (n : UInt8) : UInt8 := if n < 10 then '0'.toUInt8 + n else 'A'.toUInt8 + (n - 10)

def isHexDigit (b : UInt8) : Bool :=
  ('0'.toUInt8 ≤ b && b ≤ '9'.toUInt8) || ('A'.toUInt8 ≤ b && b ≤ 'F'.toUInt8) ||
    ('a'.toUInt8 ≤ b && b ≤ 'f'.toUInt8)

def hexValue (b : UInt8) : UInt8 :=
  if b ≤ '9'.toUInt8 then b - '0'.toUInt8
  else if b ≤ 'F'.toUInt8 then b - 'A'.toUInt8 + 10
  else b - 'a'.toUInt8 + 10

def isAlphanumeric (b : UInt8) : Bool :=
  ('0'.toUInt8 ≤ b && b ≤ '9'.toUInt8) || ('A'.toUInt8 ≤ b && b ≤ 'Z'.toUInt8) ||
    ('a'.toUInt8 ≤ b && b ≤ 'z'.toUInt8)

def percentEncodeByte (b : UInt8) : List UInt8 :=
  ['%'.toUInt8, hexDigit (b / 16), hexDigit (b % 16)]

/-- A byte of the set is percent-encoded, and a space is a plus where that is asked for. -/
def encodeByte (set : UInt8 → Bool) (spaceAsPlus : Bool) (b : UInt8) : List UInt8 :=
  if spaceAsPlus && b == ' '.toUInt8 then ['+'.toUInt8]
  else if set b then percentEncodeByte b
  else [b]

def percentEncode (set : UInt8 → Bool) (spaceAsPlus : Bool) (bs : List UInt8) : List UInt8 :=
  bs.flatMap (encodeByte set spaceAsPlus)

def specialQuerySet (b : UInt8) : Bool :=
  b ≤ 0x1F || 0x7E < b || b == ' '.toUInt8 || b == '"'.toUInt8 || b == '#'.toUInt8 ||
    b == '\''.toUInt8 || b == '<'.toUInt8 || b == '>'.toUInt8

def formSet (b : UInt8) : Bool :=
  !(isAlphanumeric b || b == '*'.toUInt8 || b == '-'.toUInt8 || b == '.'.toUInt8 ||
    b == '_'.toUInt8)

def startsEscape : List UInt8 → Bool
  | a :: h :: l :: _ => a == '%'.toUInt8 && isHexDigit h && isHexDigit l
  | _ => false

def percentDecode : List UInt8 → List UInt8
  | [] => []
  | [a] => [a]
  | [a, b] => [a, b]
  | a :: h :: l :: rest =>
    if startsEscape (a :: h :: l :: rest) then (16 * hexValue h + hexValue l) :: percentDecode rest
    else a :: percentDecode (h :: l :: rest)

def plusToSpace (b : UInt8) : UInt8 := if b == '+'.toUInt8 then ' '.toUInt8 else b

def decode (bs : List UInt8) : List UInt8 := percentDecode (bs.map plusToSpace)

def pair (bs : List UInt8) : List UInt8 × List UInt8 :=
  (decode (bs.takeWhile (· != '='.toUInt8)), decode ((bs.dropWhile (· != '='.toUInt8)).drop 1))

def parse (bs : List UInt8) : List (List UInt8 × List UInt8) :=
  ((bs.splitOn '&'.toUInt8).filter fun sequence => !sequence.isEmpty).map pair

def serialize (name value : List UInt8) : List UInt8 :=
  percentEncode formSet true name ++ '='.toUInt8 :: percentEncode formSet true value

/-- No percent sign stands before two hex digits. -/
def Unescaped (bs : List UInt8) : Prop := ∀ t ∈ bs.tails, startsEscape t = false

instance (bs : List UInt8) : Decidable (Unescaped bs) :=
  inferInstanceAs (Decidable (∀ t ∈ bs.tails, startsEscape t = false))

theorem forall_byte {p : UInt8 → Prop} (h : ∀ n < 256, p (UInt8.ofNat n)) (b : UInt8) : p b := by
  have hb := h b.toNat b.toNat_lt
  rwa [UInt8.ofNat_toNat] at hb

theorem isHexDigit_hexDigit :
    ∀ b : UInt8, isHexDigit (hexDigit (b / 16)) = true ∧ isHexDigit (hexDigit (b % 16)) = true :=
  forall_byte (by decide +kernel)

theorem isHexDigit_percent : isHexDigit '%'.toUInt8 = false := by decide

theorem hexValue_hexDigit :
    ∀ b : UInt8, 16 * hexValue (hexDigit (b / 16)) + hexValue (hexDigit (b % 16)) = b :=
  forall_byte (by decide +kernel)

section
variable {bs t : List UInt8}

theorem percentDecode_cons {a : UInt8} (h : startsEscape (a :: bs) = false) :
    percentDecode (a :: bs) = a :: percentDecode bs := by
  match bs with
  | [] => rfl
  | [_] => rfl
  | h' :: l :: rest =>
    rw [percentDecode, h]
    rfl

theorem percentDecode_percentEncodeByte (b : UInt8) (bs : List UInt8) :
    percentDecode (percentEncodeByte b ++ bs) = b :: percentDecode bs := by
  obtain ⟨hhigh, hlow⟩ := isHexDigit_hexDigit b
  have hstarts : startsEscape ('%'.toUInt8 :: hexDigit (b / 16) :: hexDigit (b % 16) :: bs) = true := by
    rw [startsEscape, hhigh, hlow]
    rfl
  show percentDecode (_ :: hexDigit (b / 16) :: hexDigit (b % 16) :: bs) = _
  rw [percentDecode, if_pos hstarts, hexValue_hexDigit]

theorem unescaped_cons {a : UInt8} :
    Unescaped (a :: bs) ↔ startsEscape (a :: bs) = false ∧ Unescaped bs := by
  rw [Unescaped, List.tails_cons, List.forall_mem_cons]
  rfl

theorem length_percentDecode (bs : List UInt8) :
    (percentDecode bs).length ≤ bs.length ∧
      ((percentDecode bs).length = bs.length → Unescaped bs ∧ percentDecode bs = bs) := by
  induction bs using percentDecode.induct with
  | case1 => exact ⟨le_rfl, fun _ => ⟨by decide, rfl⟩⟩
  | case2 a => exact ⟨le_rfl, fun _ => ⟨by simp [Unescaped, startsEscape], rfl⟩⟩
  | case3 a b => exact ⟨le_rfl, fun _ => ⟨by simp [Unescaped, startsEscape], rfl⟩⟩
  | case4 a h' l rest hstarts ih =>
    rw [percentDecode, if_pos hstarts, List.length_cons, List.length_cons, List.length_cons,
      List.length_cons]
    constructor
    · have hle := ih.1
      omega
    · intro heq
      have hle := ih.1
      omega
  | case5 a h' l rest hstarts ih =>
    have hstarts : startsEscape (a :: h' :: l :: rest) = false := Bool.eq_false_iff.mpr hstarts
    rw [percentDecode_cons hstarts, List.length_cons, List.length_cons]
    refine ⟨Nat.succ_le_succ ih.1, fun heq => ?_⟩
    obtain ⟨hrest, hsame⟩ := ih.2 (Nat.succ_injective heq)
    exact ⟨unescaped_cons.mpr ⟨hstarts, hrest⟩, congrArg _ hsame⟩

theorem percentDecode_eq_self (h : Unescaped bs) : percentDecode bs = bs := by
  induction bs with
  | nil => rfl
  | cons a bs ih =>
    obtain ⟨hstarts, hrest⟩ := unescaped_cons.mp h
    rw [percentDecode_cons hstarts, ih hrest]

theorem startsEscape_of_ne {a : UInt8} (h : a ≠ '%'.toUInt8) (bs : List UInt8) :
    startsEscape (a :: bs) = false := by
  match bs with
  | [] => rfl
  | [_] => rfl
  | h' :: l :: rest => rw [startsEscape, beq_eq_false_iff_ne.mpr h, Bool.false_and, Bool.false_and]

end

/-- A spelling of the bytes, with escapes for some that have no meaning in an escape themselves. -/
inductive Spells : List UInt8 → List UInt8 → Prop
  | nil : Spells [] []
  | keep (b : UInt8) {xs bs : List UInt8} : Spells xs bs → Spells (b :: xs) (b :: bs)
  | escape (b : UInt8) {xs bs : List UInt8} : b ≠ '%'.toUInt8 → isHexDigit b = false →
      Spells xs bs → Spells (percentEncodeByte b ++ xs) (b :: bs)

namespace Spells
variable {xs bs : List UInt8}

theorem startsEscape_cons (h : Spells xs bs) (a : UInt8) :
    startsEscape (a :: xs) = startsEscape (a :: bs) := by
  cases h with
  | nil => rfl
  | @escape b xs bs _ hhex _ =>
    cases bs with
    | nil => simp [startsEscape, percentEncodeByte, isHexDigit_percent]
    | cons c bs =>
      simp [startsEscape, percentEncodeByte, hhex, isHexDigit_percent]
  | keep b h =>
    cases h with
    | nil => rfl
    | keep c h => rfl
    | @escape c xs bs _ hhex _ =>
      simp [startsEscape, percentEncodeByte, hhex, isHexDigit_percent]

theorem percentDecode_eq (h : Spells xs bs) : percentDecode xs = percentDecode bs := by
  induction hn : bs.length using Nat.strong_induction_on generalizing xs bs with
  | _ n ih =>
  subst hn
  cases h with
  | nil => rfl
  | escape b hpercent _ h =>
    rw [percentDecode_percentEncodeByte, percentDecode_cons (startsEscape_of_ne hpercent _),
      ih _ (Nat.lt_succ_self _) h rfl]
  | @keep b xs bs h =>
    have hstarts := h.startsEscape_cons b
    cases hbs : startsEscape (b :: bs) with
    | false =>
      rw [percentDecode_cons hbs, percentDecode_cons (hstarts.trans hbs),
        ih _ (Nat.lt_succ_self _) h rfl]
    | true =>
      -- The two digits have no spelling but themselves.
      cases h with
      | nil => cases hbs
      | @escape c xs bs _ hhex h =>
        cases bs with
        | nil => cases hbs
        | cons d bs => simp [startsEscape, hhex] at hbs
      | keep c h =>
        cases h with
        | nil => cases hbs
        | @escape d xs bs _ hhex h => simp [startsEscape, hhex] at hbs
        | @keep d xs bs h =>
          have hshort : bs.length < (b :: c :: d :: bs).length := by
            rw [List.length_cons, List.length_cons, List.length_cons]
            omega
          rw [percentDecode, percentDecode, if_pos hbs, if_pos (hstarts.trans hbs), ih _ hshort h rfl]

end Spells

theorem map_plusToSpace_percentEncodeByte :
    ∀ b, (percentEncodeByte b).map plusToSpace = percentEncodeByte b :=
  forall_byte (by decide +kernel)

theorem specialQuerySet_spares : ∀ b, specialQuerySet b = true →
    b ≠ '%'.toUInt8 ∧ isHexDigit b = false ∧ plusToSpace b = b :=
  forall_byte (by decide +kernel)

/-- The encoding of a query is undone by what decodes its parameters. -/
theorem decode_percentEncode (bs : List UInt8) :
    decode (percentEncode specialQuerySet false bs) = decode bs := by
  apply Spells.percentDecode_eq
  induction bs with
  | nil => exact .nil
  | cons b bs ih =>
    rw [percentEncode, List.flatMap_cons, List.map_append, ← percentEncode, List.map_cons, encodeByte,
      Bool.false_and, if_neg Bool.false_ne_true]
    split
    · rename_i hset
      obtain ⟨hpercent, hhex, hplus⟩ := specialQuerySet_spares b hset
      rw [map_plusToSpace_percentEncodeByte, hplus]
      exact .escape b hpercent hhex ih
    · exact .keep (plusToSpace b) ih

theorem formSet_spares : ∀ b, formSet b = false → b ≠ '%'.toUInt8 ∧ plusToSpace b = b :=
  forall_byte (by decide +kernel)

theorem decode_formEncode (bs : List UInt8) : decode (percentEncode formSet true bs) = bs := by
  induction bs with
  | nil => rfl
  | cons b bs ih =>
    rw [decode] at ih ⊢
    rw [percentEncode, List.flatMap_cons, List.map_append, ← percentEncode, encodeByte, Bool.true_and]
    split
    · rename_i hspace
      obtain rfl := beq_iff_eq.mp hspace
      show percentDecode (' '.toUInt8 :: (percentEncode formSet true bs).map plusToSpace) = _
      rw [percentDecode_cons (startsEscape_of_ne (by decide) _), ih]
    · split
      · rw [map_plusToSpace_percentEncodeByte, percentDecode_percentEncodeByte, ih]
      · rename_i hset
        obtain ⟨hpercent, hplus⟩ := formSet_spares b (Bool.eq_false_iff.mpr hset)
        show percentDecode (plusToSpace b :: (percentEncode formSet true bs).map plusToSpace) = _
        rw [hplus, percentDecode_cons (startsEscape_of_ne hpercent _), ih]

theorem mem_percentEncode {b : UInt8} {set : UInt8 → Bool} {spaceAsPlus : Bool}
    (h : ∀ c, b ∈ encodeByte set spaceAsPlus c → c = b) {bs : List UInt8}
    (hb : b ∈ percentEncode set spaceAsPlus bs) : b ∈ bs := by
  obtain ⟨c, hc, hmem⟩ := List.mem_flatMap.mp hb
  exact h c hmem ▸ hc

theorem length_decode (bs : List UInt8) : (decode bs).length ≤ bs.length := by
  have hle := (length_percentDecode (bs.map plusToSpace)).1
  rwa [List.length_map] at hle

theorem decode_eq_self_iff {bs : List UInt8} :
    decode bs = bs ↔ '+'.toUInt8 ∉ bs ∧ Unescaped bs := by
  constructor
  · intro h
    have hlength : (percentDecode (bs.map plusToSpace)).length = (bs.map plusToSpace).length := by
      rw [List.length_map]
      exact congrArg List.length h
    obtain ⟨hescaped, hsame⟩ := (length_percentDecode _).2 hlength
    have hmap : bs.map plusToSpace = bs := hsame.symm.trans h
    refine ⟨fun hplus => ?_, hmap ▸ hescaped⟩
    rw [← hmap] at hplus
    obtain ⟨b, -, hb⟩ := List.mem_map.mp hplus
    rw [plusToSpace] at hb
    split at hb
    · exact absurd hb (by decide)
    · rename_i hne
      exact hne (beq_iff_eq.mpr hb)
  · rintro ⟨hplus, hescaped⟩
    have hmap : bs.map plusToSpace = bs.map id := by
      apply List.map_congr_left
      intro b hb
      have hne : b ≠ '+'.toUInt8 := by
        rintro rfl
        exact hplus hb
      rw [plusToSpace, beq_eq_false_iff_ne.mpr hne]
      rfl
    rw [decode, hmap, List.map_id, percentDecode_eq_self hescaped]

section
variable {name value rest : List UInt8}

theorem pair_append (hname : '='.toUInt8 ∉ name) :
    pair (name ++ '='.toUInt8 :: value) = (decode name, decode value) := by
  have hall : ∀ b ∈ name, (b != '='.toUInt8) = true := by
    intro b hb
    rw [bne_iff_ne]
    rintro rfl
    exact hname hb
  rw [pair, List.takeWhile_append_of_pos hall, List.dropWhile_append_of_pos hall]
  simp

theorem parse_single (hname : '='.toUInt8 ∉ name) (h : '&'.toUInt8 ∉ name ++ '='.toUInt8 :: value) :
    parse (name ++ '='.toUInt8 :: value) = [(decode name, decode value)] := by
  rw [parse, List.splitOn_eq_singleton h, List.filter_cons_of_pos, List.filter_nil, List.map_singleton,
    pair_append hname]
  cases name <;> rfl

theorem parse_cons (hname : '='.toUInt8 ∉ name) (h : '&'.toUInt8 ∉ name ++ '='.toUInt8 :: value) :
    parse (name ++ '='.toUInt8 :: value ++ '&'.toUInt8 :: rest) =
      (decode name, decode value) :: parse rest := by
  rw [parse, List.splitOn_append_cons_self_of_not_mem h, List.filter_cons_of_pos, List.map_cons,
    pair_append hname]
  · rfl
  · cases name <;> rfl

theorem percentEncode_append (set : UInt8 → Bool) (spaceAsPlus : Bool) (bs cs : List UInt8) :
    percentEncode set spaceAsPlus (bs ++ cs) =
      percentEncode set spaceAsPlus bs ++ percentEncode set spaceAsPlus cs := List.flatMap_append

theorem specialQuerySet_separates : ∀ c, '&'.toUInt8 ∈ encodeByte specialQuerySet false c →
    c = '&'.toUInt8 := forall_byte (by decide +kernel)

theorem formSet_separates : ∀ c, '&'.toUInt8 ∉ encodeByte formSet true c ∧
    '='.toUInt8 ∉ encodeByte formSet true c := forall_byte (by decide +kernel)

theorem parse_serialize (name value : List UInt8) : parse (serialize name value) = [(name, value)] := by
  have hseparates (bs : List UInt8) : '&'.toUInt8 ∉ percentEncode formSet true bs ∧
      '='.toUInt8 ∉ percentEncode formSet true bs := by
    constructor
    · intro h
      obtain ⟨c, -, hc⟩ := List.mem_flatMap.mp h
      exact (formSet_separates c).1 hc
    · intro h
      obtain ⟨c, -, hc⟩ := List.mem_flatMap.mp h
      exact (formSet_separates c).2 hc
  rw [serialize, parse_single, decode_formEncode, decode_formEncode]
  · exact (hseparates name).2
  · rw [List.mem_append, List.mem_cons, not_or, not_or]
    exact ⟨(hseparates name).1, by decide, (hseparates value).1⟩

/-- An encoded value is read as bytes that are no fewer only when no `&` cuts it. -/
theorem parse_encoded_iff (hequals : '='.toUInt8 ∉ name) (hand : '&'.toUInt8 ∉ name)
    {read : List UInt8} (hlength : value.length ≤ read.length) :
    parse (name ++ '='.toUInt8 :: percentEncode specialQuerySet false value) =
        [(decode name, read)] ↔
      '&'.toUInt8 ∉ value ∧ decode value = read := by
  have hplain {value : List UInt8} (h : '&'.toUInt8 ∉ value) :
      '&'.toUInt8 ∉ name ++ '='.toUInt8 :: percentEncode specialQuerySet false value := by
    rw [List.mem_append, List.mem_cons, not_or, not_or]
    exact ⟨hand, by decide, mt (mem_percentEncode specialQuerySet_separates) h⟩
  by_cases h : '&'.toUInt8 ∈ value
  · refine iff_of_false (fun hparse => ?_) fun hvalue => hvalue.1 h
    obtain ⟨first, later, rfl, hfirst⟩ := List.eq_append_cons_of_mem h
    have hencode : percentEncode specialQuerySet false (first ++ '&'.toUInt8 :: later) =
        percentEncode specialQuerySet false first ++
          '&'.toUInt8 :: percentEncode specialQuerySet false later :=
      percentEncode_append _ _ first _
    rw [hencode, ← List.cons_append, ← List.append_assoc, parse_cons hequals (hplain hfirst),
      decode_percentEncode] at hparse
    have hread : decode first = read := congrArg Prod.snd (List.cons.inj hparse).1
    have hshort := length_decode first
    rw [hread] at hshort
    rw [List.length_append, List.length_cons] at hlength
    omega
  · rw [parse_single hequals (hplain h), decode_percentEncode, List.singleton_inj, Prod.mk_right_inj]
    exact (and_iff_right h).symm

theorem unescaped_append_cons {b : UInt8} (hb : b ≠ '%'.toUInt8) (hhex : isHexDigit b = false)
    {bs cs : List UInt8} : Unescaped (bs ++ b :: cs) ↔ Unescaped bs ∧ Unescaped cs := by
  induction bs with
  | nil =>
    rw [List.nil_append, unescaped_cons, startsEscape_of_ne hb]
    exact and_congr_left fun _ => iff_of_true rfl (by decide)
  | cons a bs ih =>
    have hstarts : startsEscape (a :: (bs ++ b :: cs)) = startsEscape (a :: bs) := by
      match bs with
      | [] =>
        cases cs with
        | nil => rfl
        | cons c cs => simp [startsEscape, hhex]
      | [c] => simp [startsEscape, hhex]
      | c :: d :: bs => rfl
    rw [List.cons_append, unescaped_cons, unescaped_cons, ih, hstarts, and_assoc]

theorem unescaped_of_not_mem {bs : List UInt8} (h : '%'.toUInt8 ∉ bs) : Unescaped bs := by
  induction bs with
  | nil => decide
  | cons a bs ih =>
    rw [List.mem_cons, not_or] at h
    exact unescaped_cons.mpr ⟨startsEscape_of_ne (Ne.symm h.1) bs, ih h.2⟩

end
end Urlencoded
