import Mathlib.Data.List.DropRight

/-! The string operations of the Rust standard library that the crate calls, on Lean strings. -/

namespace PimDiscovery.Text

/-- The characters with the Unicode `White_Space` property, which `str::trim` strips. -/
def isWhitespace (c : Char) : Bool :=
  let n := c.toNat
  (9 ≤ n && n ≤ 13) || n == 0x20 || n == 0x85 || n == 0xA0 || n == 0x1680 ||
    (0x2000 ≤ n && n ≤ 0x200A) || n == 0x2028 || n == 0x2029 || n == 0x202F || n == 0x205F ||
    n == 0x3000

def trimBy (p : Char → Bool) (cs : List Char) : List Char := (cs.dropWhile p).rdropWhile p

def trim (s : String) : String := String.ofList (trimBy isWhitespace s.toList)

/-- `trim_matches` on one character. -/
def trimMatches (s : String) (c : Char) : String := String.ofList (trimBy (· == c) s.toList)

def trimEndMatches (s : String) (c : Char) : String :=
  String.ofList (s.toList.rdropWhile (· == c))

theorem trimBy_trimBy (p : Char → Bool) (cs : List Char) : trimBy p (trimBy p cs) = trimBy p cs := by
  have hhead : (trimBy p cs).dropWhile p = trimBy p cs := by
    obtain ⟨tail, htail⟩ := List.rdropWhile_prefix p (cs.dropWhile p)
    cases h : trimBy p cs with
    | nil => rfl
    | cons c rest =>
      have hstart : (cs.dropWhile p).head? = some c := by
        rw [← htail, show List.rdropWhile p (cs.dropWhile p) = c :: rest from h]
        rfl
      have hc := List.head?_dropWhile_not p cs
      simp only [hstart] at hc
      simp [hc]
  rw [trimBy, hhead, trimBy, List.rdropWhile_idempotent]

theorem trimMatches_trimMatches (s : String) (c : Char) :
    trimMatches (trimMatches s c) c = trimMatches s c := by
  simp only [trimMatches, String.toList_ofList, trimBy_trimBy]

def toAsciiLowercase (s : String) : String := String.ofList (s.toList.map Char.toLower)

def eqIgnoreAsciiCase (s t : String) : Bool := s.toList.map Char.toLower == t.toList.map Char.toLower

def splitOnceChars (c : Char) : List Char → Option (List Char × List Char)
  | [] => none
  | d :: ds =>
    if d == c then some ([], ds)
    else (splitOnceChars c ds).map fun p => (d :: p.1, p.2)

def splitOnce (s : String) (c : Char) : Option (String × String) :=
  (splitOnceChars c s.toList).map fun p => (String.ofList p.1, String.ofList p.2)

def splitChars (c : Char) : List Char → List (List Char)
  | [] => [[]]
  | d :: ds =>
    if d == c then [] :: splitChars c ds
    else match splitChars c ds with
      | [] => [[d]]
      | w :: ws => (d :: w) :: ws

def split (s : String) (c : Char) : List String := (splitChars c s.toList).map String.ofList

/-- `str::replace`: the matches of `pat` from the left, `skip` characters of one still to drop. -/
def replaceChars (pat new : List Char) : Nat → List Char → List Char
  | _, [] => []
  | skip + 1, _ :: cs => replaceChars pat new skip cs
  | 0, c :: cs =>
    if pat.isPrefixOf (c :: cs) then new ++ replaceChars pat new (pat.length - 1) cs
    else c :: replaceChars pat new 0 cs

def replace (s pat new : String) : String :=
  String.ofList (replaceChars pat.toList new.toList 0 s.toList)

def endsWith (s suffix : String) : Bool := suffix.toList.isSuffixOf s.toList

def bytes (s : String) : List UInt8 := s.toUTF8.data.toList

def fromUtf8 (bs : List UInt8) : Option String := String.fromUTF8? ⟨bs.toArray⟩

def stripBytes (start bs : List UInt8) : Option (List UInt8) :=
  if start.isPrefixOf bs then some (bs.drop start.length) else none

theorem bytes_eq (s : String) : bytes s = s.toList.flatMap String.utf8EncodeChar := by
  have h : s.toUTF8 = (s.toList.flatMap String.utf8EncodeChar).toByteArray := by
    rw [String.toUTF8_eq_toByteArray, ← String.utf8Encode_toList]
    rfl
  rw [bytes, h, List.toList_data_toByteArray]

theorem bytes_fromUtf8 {bs : List UInt8} {s : String} (h : fromUtf8 bs = some s) : bytes s = bs := by
  unfold fromUtf8 String.fromUTF8? at h
  split at h
  · obtain rfl := Option.some.inj h
    rfl
  · exact nomatch h

theorem utf8EncodeChar_of_mem {c : Char} {b : UInt8} (hb : b.toNat < 128)
    (h : b ∈ String.utf8EncodeChar c) : String.utf8EncodeChar c = [b] ∧ c.toNat = b.toNat := by
  have hofNat : ∀ n, b = UInt8.ofNat n → b.toNat = n % 256 := by
    rintro n rfl
    rfl
  have hsmall : c.val.toNat < 1114112 := by
    have hvalid := c.valid
    simp only [UInt32.isValidChar, Nat.isValidChar] at hvalid
    omega
  unfold String.utf8EncodeChar at h ⊢
  show _ ∧ c.val.toNat = b.toNat
  generalize c.val.toNat = v at h hsmall ⊢
  simp only at h ⊢
  split at h
  · rename_i hv
    rw [if_pos hv]
    obtain rfl := List.mem_singleton.mp h
    refine ⟨rfl, ?_⟩
    have := hofNat v rfl
    omega
  · exfalso
    split at h
    · simp only [List.mem_cons, List.not_mem_nil, or_false] at h
      rcases h with h | h <;> have := hofNat _ h <;> omega
    · split at h
      · simp only [List.mem_cons, List.not_mem_nil, or_false] at h
        rcases h with h | h | h <;> have := hofNat _ h <;> omega
      · simp only [List.mem_cons, List.not_mem_nil, or_false] at h
        rcases h with h | h | h | h <;> have := hofNat _ h <;> omega

theorem count_utf8EncodeChar (c : Char) :
    (String.utf8EncodeChar c).count 61 = [c].count '=' := by
  by_cases h : 61 ∈ String.utf8EncodeChar c
  · obtain ⟨hbytes, hc⟩ := utf8EncodeChar_of_mem (by decide) h
    obtain rfl : c = '=' := Char.toNat_inj.mp hc
    rfl
  · have hc : c ≠ '=' := by
      rintro rfl
      exact h (by decide)
    rw [List.count_eq_zero_of_not_mem h, List.count_eq_zero_of_not_mem (by simpa using hc.symm)]

theorem count_bytes (s : String) : (bytes s).count 61 = s.toList.count '=' := by
  rw [bytes_eq]
  induction s.toList with
  | nil => rfl
  | cons c cs ih =>
    rw [List.flatMap_cons, List.count_append, count_utf8EncodeChar, ih, ← List.count_append]
    rfl

theorem bytes_inj {s t : String} : bytes s = bytes t ↔ s = t := by
  refine ⟨fun h => ?_, congrArg bytes⟩
  apply String.toByteArray_inj.mp
  exact ByteArray.ext (Array.toList_inj.mp h)

theorem bytes_append (s t : String) : bytes (s ++ t) = bytes s ++ bytes t := by
  simp only [bytes_eq, String.toList_append, List.flatMap_append]

theorem bytes_eq_append_dot {s t : String} {p : List UInt8}
    (h : bytes s = p ++ '.'.toUInt8 :: bytes t) : ∃ start, s = start ++ "." ++ t := by
  have hchars : ∀ cs p, cs.flatMap String.utf8EncodeChar = p ++ '.'.toUInt8 :: bytes t →
      ∃ start, cs = start ++ '.' :: t.toList := by
    intro cs
    induction cs with
    | nil =>
      intro p hp
      simp at hp
    | cons c cs ih =>
      intro p hp
      rw [List.flatMap_cons, List.append_eq_append_iff] at hp
      obtain ⟨rest, -, hrest⟩ | ⟨rest, hc, hrest⟩ := hp
      · obtain ⟨start, rfl⟩ := ih rest hrest
        exact ⟨c :: start, rfl⟩
      · cases rest with
        | nil =>
          obtain ⟨start, rfl⟩ := ih [] hrest.symm
          exact ⟨c :: start, rfl⟩
        | cons b rest =>
          -- The dot is inside the bytes of `c`, so it is all of them.
          obtain ⟨rfl, hrest⟩ := List.cons.inj hrest
          obtain ⟨hbytes, hdot⟩ := utf8EncodeChar_of_mem (by decide)
            (show '.'.toUInt8 ∈ String.utf8EncodeChar c by rw [hc]; simp)
          obtain rfl : c = '.' := Char.toNat_inj.mp hdot
          have hlength := congrArg List.length hc
          rw [hbytes] at hlength
          simp only [List.length_append, List.length_cons, List.length_nil] at hlength
          obtain rfl : rest = [] := List.length_eq_zero_iff.mp (by omega)
          have hcs : cs = t.toList := by
            rw [← String.ofList_inj, String.ofList_toList, ← bytes_inj, bytes_eq, String.toList_ofList]
            exact (List.cons.inj hrest).2.symm
          exact ⟨[], by rw [hcs]; rfl⟩
  obtain ⟨start, hstart⟩ := hchars s.toList p (bytes_eq s ▸ h)
  refine ⟨String.ofList start, String.toList_inj.mp ?_⟩
  simpa using hstart

theorem countP_dropWhile {p q : Char → Bool} (h : ∀ c, q c = true → p c = false) (cs : List Char) :
    (cs.dropWhile p).countP q = cs.countP q := by
  induction cs with
  | nil => rfl
  | cons d cs ih =>
    rw [List.dropWhile_cons]
    split
    · rename_i hd
      rw [ih, List.countP_cons_of_neg]
      intro hq
      rw [h d hq] at hd
      cases hd
    · rfl

theorem countP_trimBy {p q : Char → Bool} (h : ∀ c, q c = true → p c = false) (cs : List Char) :
    (trimBy p cs).countP q = cs.countP q := by
  rw [trimBy, List.rdropWhile, List.countP_reverse, countP_dropWhile h, List.countP_reverse,
    countP_dropWhile h]

theorem count_trimBy {p : Char → Bool} {c : Char} (h : p c = false) (cs : List Char) :
    (trimBy p cs).count c = cs.count c := by
  apply countP_trimBy
  intro d hd
  rwa [beq_iff_eq.mp hd]

theorem mem_trimBy {p : Char → Bool} {c : Char} (h : p c = false) {cs : List Char} :
    c ∈ trimBy p cs ↔ c ∈ cs := by
  rw [← List.count_pos_iff, ← List.count_pos_iff, count_trimBy h]

theorem trimBy_sublist (p : Char → Bool) (cs : List Char) : (trimBy p cs).Sublist cs :=
  (List.rdropWhile_prefix p _).sublist.trans (List.dropWhile_sublist p)

theorem trimBy_eq_self_iff {p : Char → Bool} {cs : List Char} :
    trimBy p cs = cs ↔ (trimBy p cs).countP p = cs.countP p := by
  refine ⟨fun h => by rw [h], fun h => (trimBy_sublist p cs).eq_of_length ?_⟩
  have hothers : (trimBy p cs).countP (fun c => !p c) = cs.countP fun c => !p c :=
    countP_trimBy (fun c hc => by simpa using hc) cs
  rw [List.length_eq_countP_add_countP p, List.length_eq_countP_add_countP p (l := cs), h]
  simpa using hothers

theorem trimBy_map {p : Char → Bool} {f : Char → Char} (h : ∀ c, p (f c) = p c) (cs : List Char) :
    trimBy p (cs.map f) = (trimBy p cs).map f := by
  have hp : p ∘ f = p := funext h
  simp only [trimBy, List.rdropWhile, List.dropWhile_map, hp, ← List.map_reverse]

theorem trim_eq_self_iff {s : String} : trim s = s ↔ trimBy isWhitespace s.toList = s.toList := by
  rw [← String.toList_inj, trim, String.toList_ofList]

theorem toLower_cases (c : Char) :
    c.toLower = c ∨ (65 ≤ c.toNat ∧ c.toNat ≤ 90 ∧ c.toLower.toNat = c.toNat + 32) := by
  unfold Char.toLower
  split
  · rename_i h
    refine .inr ⟨UInt32.le_iff_toNat_le.mp h.1, UInt32.le_iff_toNat_le.mp h.2, ?_⟩
    have hupper : c.val.toNat ≤ 90 := UInt32.le_iff_toNat_le.mp h.2
    show (c.val + 32).toNat = c.val.toNat + 32
    rw [UInt32.toNat_add, show (32 : UInt32).toNat = 32 from rfl]
    omega
  · exact .inl rfl

theorem isWhitespace_toLower (c : Char) : isWhitespace c.toLower = isWhitespace c := by
  rcases toLower_cases c with h | ⟨hlow, hhigh, hlower⟩
  · rw [h]
  · have hnot : ∀ d : Char, 65 ≤ d.toNat → d.toNat ≤ 122 → isWhitespace d = false := by
      intro d hd hd'
      simp only [isWhitespace, Bool.or_eq_false_iff, Bool.and_eq_false_iff, decide_eq_false_iff_not,
        beq_eq_false_iff_ne]
      omega
    rw [hnot c hlow (by omega), hnot c.toLower (by omega) (by omega)]

theorem toLower_eq_iff {c d : Char} (h : d.toNat < 65) : c.toLower = d ↔ c = d := by
  rcases toLower_cases c with hsame | ⟨hlow, hhigh, hlower⟩
  · rw [hsame]
  · refine ⟨?_, ?_⟩ <;> rintro rfl <;> omega

theorem toLower_toLower (c : Char) : c.toLower.toLower = c.toLower := by
  rcases toLower_cases c with h | ⟨hlow, hhigh, hlower⟩
  · rw [h, h]
  · apply (toLower_cases c.toLower).resolve_right
    rintro ⟨-, hhigh', -⟩
    omega

theorem countP_toAsciiLowercase {p : Char → Bool} (h : ∀ c, p c.toLower = p c) (s : String) :
    (toAsciiLowercase s).toList.countP p = s.toList.countP p := by
  have hp : p ∘ Char.toLower = p := funext h
  rw [toAsciiLowercase, String.toList_ofList, List.countP_map, hp]

theorem toAsciiLowercase_toAsciiLowercase (s : String) :
    toAsciiLowercase (toAsciiLowercase s) = toAsciiLowercase s := by
  have hlower : Char.toLower ∘ Char.toLower = Char.toLower := funext toLower_toLower
  rw [toAsciiLowercase, toAsciiLowercase, String.toList_ofList, List.map_map, hlower]

theorem trim_toAsciiLowercase (s : String) :
    trim (toAsciiLowercase s) = toAsciiLowercase (trim s) := by
  simp only [trim, toAsciiLowercase, String.toList_ofList, trimBy_map isWhitespace_toLower]

theorem trim_toAsciiLowercase_eq_self {s : String} :
    trim (toAsciiLowercase s) = toAsciiLowercase s ↔ trim s = s := by
  refine ⟨fun h => ?_, fun h => by rw [trim_toAsciiLowercase, h]⟩
  rw [trim_toAsciiLowercase] at h
  have hcount := congrArg (fun s : String => s.toList.countP isWhitespace) h
  simp only [countP_toAsciiLowercase isWhitespace_toLower] at hcount
  rw [trim, String.toList_ofList] at hcount
  exact trim_eq_self_iff.mpr (trimBy_eq_self_iff.mpr hcount)

theorem trimMatches_toAsciiLowercase (s : String) {c : Char} (h : c.toNat < 65) :
    trimMatches (toAsciiLowercase s) c = toAsciiLowercase (trimMatches s c) := by
  have hsame : ∀ d : Char, (d.toLower == c) = (d == c) := fun d => by
    rw [Bool.eq_iff_iff, beq_iff_eq, beq_iff_eq, toLower_eq_iff h]
  simp only [trimMatches, toAsciiLowercase, String.toList_ofList]
  rw [trimBy_map (p := (· == c)) hsame]

theorem splitOnceChars_eq_some {c : Char} {cs before after : List Char}
    (h : splitOnceChars c cs = some (before, after)) : cs = before ++ c :: after := by
  induction cs generalizing before with
  | nil => cases h
  | cons d cs ih =>
    rw [splitOnceChars] at h
    split at h
    · rename_i hd
      cases h
      rw [beq_iff_eq.mp hd, List.nil_append]
    · obtain ⟨⟨start, rest⟩, hrest, heq⟩ := Option.map_eq_some_iff.mp h
      cases heq
      rw [ih hrest, List.cons_append]

theorem splitOnceChars_append {c : Char} {before : List Char} (h : c ∉ before) (after : List Char) :
    splitOnceChars c (before ++ c :: after) = some (before, after) := by
  induction before with
  | nil => exact if_pos (beq_self_eq_true c)
  | cons d before ih =>
    obtain ⟨hd, hbefore⟩ := not_or.mp (mt List.mem_cons.mpr h)
    rw [List.cons_append, splitOnceChars, if_neg (mt beq_iff_eq.mp (Ne.symm hd)), ih hbefore]
    rfl

theorem splitOnceChars_eq_none {c : Char} {cs : List Char} :
    splitOnceChars c cs = none ↔ c ∉ cs := by
  induction cs with
  | nil => simp [splitOnceChars]
  | cons d cs ih =>
    rw [splitOnceChars]
    split
    · rename_i hd
      simp [beq_iff_eq.mp hd]
    · rename_i hd
      rw [Option.map_eq_none_iff, ih, List.mem_cons, not_or]
      refine (and_iff_right ?_).symm
      rintro rfl
      exact hd (beq_self_eq_true c)

theorem splitOnce_eq_some {s before after : String} {c : Char}
    (h : splitOnce s c = some (before, after)) :
    s.toList = before.toList ++ c :: after.toList := by
  obtain ⟨⟨start, rest⟩, hchars, heq⟩ := Option.map_eq_some_iff.mp h
  cases heq
  rw [splitOnceChars_eq_some hchars, String.toList_ofList, String.toList_ofList]

theorem splitOnce_append {before : String} {c : Char} (h : c ∉ before.toList) (after : String) :
    splitOnce (before ++ String.singleton c ++ after) c = some (before, after) := by
  rw [splitOnce, String.toList_append, String.toList_append, String.toList_singleton, List.append_assoc,
    List.singleton_append, splitOnceChars_append h, Option.map_some, String.ofList_toList,
    String.ofList_toList]

theorem splitOnce_eq_none {s : String} {c : Char} : splitOnce s c = none ↔ c ∉ s.toList := by
  rw [splitOnce, Option.map_eq_none_iff, splitOnceChars_eq_none]

example : trim "\t a b\u2003" = "a b" := by decide
example : split "a;;b" ';' = ["a", "", "b"] := by decide
example : replace "%A%%A%B" "%A%" "x%" = "x%x%B" := by decide

end PimDiscovery.Text
