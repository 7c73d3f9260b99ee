import PimDiscovery.PlainNet
import PimDiscovery.Rfc6764.Candidate

/-! The TXT `path` against RFC 6763, whose records are lists of attributes: what the records publish,
what is read of them, and when the two are the same. -/

namespace PimDiscovery
open Interaction

/-- A character-string that is one attribute: a key of printable ASCII without `=`, and a value. -/
structure Attribute where
  key : Bytes
  value : Bytes
  key_ne : key ≠ []
  key_printable : ∀ byte ∈ key, 32 ≤ byte ∧ byte ≤ 126 ∧ byte ≠ 61

def lowerByte (byte : UInt8) : UInt8 := if 65 ≤ byte ∧ byte ≤ 90 then byte + 32 else byte

namespace Attribute

def bytes (self : Attribute) : Bytes := self.key ++ 61 :: self.value

def isPath (self : Attribute) : Bool := self.key.map lowerByte == Text.bytes "path"

end Attribute

/-- The text of a value: trimmed, and none when it is not UTF-8 or blank. -/
def pathText (value : Bytes) : Option String :=
  (Text.fromUtf8 value).bind fun path =>
    if (Text.trim path).isEmpty then none else some (Text.trim path)

/-- The path a record publishes: of its attributes, the first of key `path` counts. -/
def publishedPath (record : List Attribute) : Option String :=
  (record.find? (·.isPath)).bind fun attr => pathText attr.value

/-- What follows the `path=` a record starts with, up to the end of the record. -/
def ledPath : List Attribute → Option String
  | [] => none
  | first :: rest =>
    if first.key = Text.bytes "path" then pathText (first.value ++ rest.flatMap Attribute.bytes)
    else none

theorem isPrefixOf_key {key start tail : Bytes} (hkey : 61 ∉ key) (hstart : 61 ∉ start) :
    (start ++ [61]).isPrefixOf (key ++ 61 :: tail) = decide (key = start) := by
  induction start generalizing key with
  | nil =>
    cases key with
    | nil => simp
    | cons byte key =>
      have hbyte := List.ne_of_not_mem_cons hkey
      simp [List.isPrefixOf, hbyte]
  | cons byte start ih =>
    have hbyte := List.ne_of_not_mem_cons hstart
    cases key with
    | nil => simp [List.isPrefixOf, hbyte.symm]
    | cons byte' key =>
      have hrest := ih (List.not_mem_of_not_mem_cons hkey) (List.not_mem_of_not_mem_cons hstart)
      simp only [List.cons_append, List.isPrefixOf, hrest, List.cons.injEq, Bool.decide_and]
      by_cases h : byte = byte'
      · simp [h]
      · simp [h, Ne.symm h]

theorem stripBytes_key {key start tail : Bytes} (hkey : 61 ∉ key) (hstart : 61 ∉ start) :
    Text.stripBytes (start ++ [61]) (key ++ 61 :: tail) = if key = start then some tail else none := by
  rw [Text.stripBytes, isPrefixOf_key hkey hstart]
  by_cases h : key = start
  · subst h
    simp
  · simp [h]

theorem recordPath_eq (strings : List Bytes) :
    recordPath strings = (Text.stripBytes (Text.bytes "path=") strings.flatten).bind pathText := by
  unfold recordPath pathText
  cases Text.stripBytes (Text.bytes "path=") strings.flatten with
  | none => rfl
  | some value =>
    simp only [Option.bind_some]
    cases Text.fromUtf8 value <;> rfl

theorem recordPath_attributes (record : List Attribute) :
    recordPath (record.map Attribute.bytes) = ledPath record := by
  rw [recordPath_eq]
  cases record with
  | nil => rfl
  | cons first rest =>
    have hkey : 61 ∉ first.key := fun h => (first.key_printable 61 h).2.2 rfl
    have hjoined : ((first :: rest).map Attribute.bytes).flatten =
        first.key ++ 61 :: (first.value ++ rest.flatMap Attribute.bytes) := by
      simp [Attribute.bytes, List.flatMap]
    have hstart : Text.bytes "path=" = Text.bytes "path" ++ [61] := by decide
    rw [hjoined, hstart, stripBytes_key hkey (by decide), ledPath]
    split <;> rfl

/-- Attributes after a value are read as part of it, which shows in the number of `=`. -/
theorem pathText_append_ne {value : Bytes} {rest : List Attribute} (hrest : rest ≠ [])
    {path path' : String} (hpath : pathText value = some path)
    (hpath' : pathText (value ++ rest.flatMap Attribute.bytes) = some path') : path' ≠ path := by
  have hcount : ∀ {value : Bytes} {path : String}, pathText value = some path →
      path.toList.count '=' = value.count 61 := by
    intro value path h
    obtain ⟨text, htext, hpath⟩ := Option.bind_eq_some_iff.mp h
    split at hpath
    · exact nomatch hpath
    · obtain rfl := Option.some.inj hpath
      rw [← Text.bytes_fromUtf8 htext, Text.count_bytes, Text.trim, String.toList_ofList,
        Text.count_trimBy (by decide)]
  obtain ⟨attr, rest, rfl⟩ := List.exists_cons_of_ne_nil hrest
  have hmore : 0 < (List.flatMap Attribute.bytes (attr :: rest)).count 61 := by
    simp only [List.flatMap_cons, Attribute.bytes, List.count_append, List.count_cons_self]
    omega
  rintro rfl
  have hsame := (hcount hpath).symm.trans (hcount hpath')
  rw [List.count_append] at hsame
  omega

theorem publishedPath_led {first : Attribute} (hkey : first.key = Text.bytes "path")
    (rest : List Attribute) : publishedPath (first :: rest) = pathText first.value := by
  have hpath : first.isPath = true := by
    rw [Attribute.isPath, hkey]
    decide
  rw [publishedPath, List.find?_cons_of_pos hpath]
  rfl

theorem ledPath_alone {attr : Attribute} (hkey : attr.key = Text.bytes "path") :
    ledPath [attr] = pathText attr.value := by
  simp [ledPath, hkey]

theorem alone_of_ledPath {record : List Attribute} {path : String}
    (hled : ledPath record = some path) (hpublished : publishedPath record = some path) :
    ∃ attr, record = [attr] ∧ attr.key = Text.bytes "path" ∧ pathText attr.value = some path := by
  cases record with
  | nil => exact nomatch hled
  | cons first rest =>
    rw [ledPath] at hled
    split at hled
    · rename_i hkey
      rw [publishedPath_led hkey] at hpublished
      by_cases hrest : rest = []
      · subst hrest
        exact ⟨first, rfl, hkey, hpublished⟩
      · exact absurd rfl (pathText_append_ne hrest hpublished hled)
    · exact nomatch hled

/-- Records whose path is read as they publish it. Up to the first that publishes a path or starts with
`path=`, they are silent; that one is a single `path=` string, or what is amiss with it is made good by a
later record of the same text. -/
inductive ReadAsPublished : List (List Attribute) → Prop where
  | nothing : ReadAsPublished []
  | silent {record : List Attribute} {rest : List (List Attribute)}
      (hpublished : publishedPath record = none) (hled : ledPath record = none)
      (h : ReadAsPublished rest) : ReadAsPublished (record :: rest)
  | alone {attr : Attribute} {rest : List (List Attribute)} (hkey : attr.key = Text.bytes "path")
      (htext : (pathText attr.value).isSome) : ReadAsPublished ([attr] :: rest)
  -- its path stands elsewhere, or in capitals
  | hidden {record : List Attribute} {rest : List (List Attribute)} {path : String}
      (hpublished : publishedPath record = some path) (hled : ledPath record = none)
      (htwin : rest.findSome? ledPath = some path) : ReadAsPublished (record :: rest)
  -- its own `path=` is blank or no UTF-8, but not so with the strings after it
  | stray {record : List Attribute} {rest : List (List Attribute)} {path : String}
      (hpublished : publishedPath record = none) (hled : ledPath record = some path)
      (htwin : rest.findSome? publishedPath = some path) : ReadAsPublished (record :: rest)

theorem readAsPublished_iff (records : List (List Attribute)) :
    records.findSome? ledPath = records.findSome? publishedPath ↔ ReadAsPublished records := by
  induction records with
  | nil => exact ⟨fun _ => .nothing, fun _ => rfl⟩
  | cons record rest ih =>
    constructor
    · intro h
      rw [List.findSome?_cons, List.findSome?_cons] at h
      cases hled : ledPath record with
      | none =>
        cases hpublished : publishedPath record with
        | none =>
          rw [hled, hpublished] at h
          exact .silent hpublished hled (ih.mp h)
        | some path =>
          rw [hled, hpublished] at h
          exact .hidden hpublished hled h
      | some path =>
        cases hpublished : publishedPath record with
        | none =>
          rw [hled, hpublished] at h
          exact .stray hpublished hled h.symm
        -- Both read a path off this record: it must be its only string.
        | some path' =>
          rw [hled, hpublished] at h
          obtain rfl := Option.some.inj h
          obtain ⟨attr, rfl, hkey, htext⟩ := alone_of_ledPath hled hpublished
          exact .alone hkey (by simp [htext])
    · intro h
      rw [List.findSome?_cons, List.findSome?_cons]
      cases h with
      | silent hpublished hled h =>
        rw [hled, hpublished]
        exact ih.mpr h
      | alone hkey htext =>
        obtain ⟨path, hpath⟩ := Option.isSome_iff_exists.mp htext
        rw [ledPath_alone hkey, publishedPath_led hkey, hpath]
      | hidden hpublished hled htwin =>
        rw [hled, hpublished]
        exact htwin
      | stray hpublished hled htwin =>
        rw [hled, hpublished]
        exact htwin.symm

section
variable [DomainCrate] [IoHttpCrate]

namespace DiscoveryWebdavTxt

/-- The lookup completes with the first published path exactly when the records are read as they
publish it. -/
theorem reads_published_path_iff (o : Network) (qname : String) (resolver : Url)
    (args : List (Option Bytes)) (records : List (List Attribute))
    (hserves : Serves exchanges o (program qname resolver) args)
    (hrecords : o.lookup .txt readTxt qname resolver =
      .ok (records.map (·.map Attribute.bytes))) :
    outcome resume (new qname resolver) (none :: args) =
      some (.ok (records.findSome? publishedPath)) ↔ ReadAsPublished records := by
  have heval : (program qname resolver).eval o = .ok (records.findSome? ledPath) := by
    rw [program, Prog.eval_bind, DiscoveryDnsTxt.program, DnsLookup.eval_program, hrecords,
      Prog.eval_pure, finish, List.findSome?_map]
    congr 2
    funext record
    exact recordPath_attributes record
  rw [refines.outcome_eq (toProc_new qname resolver none) hserves, heval, ← readAsPublished_iff,
    Option.some.injEq, Except.ok.injEq]

end DiscoveryWebdavTxt
end

def Attribute.path (value : String) : Attribute where
  key := Text.bytes "path"
  value := Text.bytes value
  key_ne := by decide
  key_printable := by decide +kernel

def Attribute.version (value : String) : Attribute where
  key := Text.bytes "v"
  value := Text.bytes value
  key_ne := by decide
  key_printable := by decide +kernel

namespace DiscoveryWebdavTxt

def attributesAnswer (name : String) (attributes : List Attribute) : Bytes :=
  let rdata := attributes.flatMap fun attr => UInt8.ofNat attr.bytes.length :: attr.bytes
  [0, 1, 129, 128, 0, 0, 0, 1, 0, 0, 0, 0] ++ PlainDns.encodeName name ++
    [0, 16, 0, 1, 0, 0, 0, 60, 0, UInt8.ofNat rdata.length] ++ rdata

def attributesNetwork (attributes : List Attribute) : Network
  | .dns _ _ _ => .ok (attributesAnswer "_caldavs._tcp.example.org." attributes)
  | .hop _ _ _ => .error "unexpected EOF"
  | .send _ => .failed "unexpected EOF"

def attributesReplies (attributes : List Attribute) : List (List (Option Bytes)) :=
  [[none, some (framed (attributesAnswer "_caldavs._tcp.example.org." attributes))]]

theorem reads_path_alone :
    letI := plainDns
    letI := plainHttp
    outcome resume (new "_caldavs._tcp.example.org." exampleResolver)
      (none :: (attributesReplies [.path "/dav/"]).flatten) = some (.ok (some "/dav/")) := by
  let _ := plainDns
  let _ := plainHttp
  have hserves : serves exchanges (attributesNetwork [.path "/dav/"])
      (program "_caldavs._tcp.example.org." exampleResolver) (attributesReplies [.path "/dav/"]) =
        true := by
    decide +kernel
  exact (reads_published_path_iff (attributesNetwork [.path "/dav/"]) "_caldavs._tcp.example.org."
    exampleResolver _ [[.path "/dav/"]] (serves_sound hserves) (by decide +kernel)).mpr
      (.alone rfl (by decide))

/-- The version after the path is read as part of it. -/
theorem reads_version_into_path :
    letI := plainDns
    letI := plainHttp
    let record : List Attribute := [.path "/dav/", .version "1"]
    Serves exchanges (attributesNetwork record) (program "_caldavs._tcp.example.org." exampleResolver)
      (attributesReplies record).flatten ∧
    (attributesNetwork record).lookup .txt readTxt "_caldavs._tcp.example.org." exampleResolver =
      .ok [record.map Attribute.bytes] ∧
    [record].findSome? publishedPath = some "/dav/" ∧
    outcome resume (new "_caldavs._tcp.example.org." exampleResolver)
      (none :: (attributesReplies record).flatten) = some (.ok (some "/dav/v=1")) := by
  let _ := plainDns
  let _ := plainHttp
  have hserves : serves exchanges (attributesNetwork [.path "/dav/", .version "1"])
      (program "_caldavs._tcp.example.org." exampleResolver)
      (attributesReplies [.path "/dav/", .version "1"]) = true := by
    decide +kernel
  exact ⟨serves_sound hserves, by decide +kernel, by decide, by decide +kernel⟩

end DiscoveryWebdavTxt
end PimDiscovery
