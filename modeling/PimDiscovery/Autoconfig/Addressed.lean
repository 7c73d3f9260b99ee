import Mathlib.Data.Bool.AllAny
import Mathlib.Data.List.Flatten
import Mathlib.Data.List.TakeWhile
import PimDiscovery.PlainUrl
import PimDiscovery.Whatwg.Reference
import PimDiscovery.Whatwg.Urlencoded
import PimDiscovery.Autoconfig.Isp

/-! The address in the query of the autoconfig URLs, as a server reads it. -/

namespace PimDiscovery
open Urlencoded

namespace Text

def ofAscii (bs : List UInt8) : String := String.ofList (bs.map fun b => Char.ofNat b.toNat)

theorem utf8EncodeChar_ascii {c : Char} (h : c.toNat < 128) :
    String.utf8EncodeChar c = [c.toUInt8] := by
  unfold String.utf8EncodeChar
  exact if_pos (Nat.le_of_lt_succ h)

theorem ofNat_byte : ∀ b : UInt8,
    (Char.ofNat b.toNat).toNat = b.toNat ∧ (Char.ofNat b.toNat).toUInt8 = b :=
  forall_byte (by decide +kernel)

theorem bytes_ofAscii {bs : List UInt8} (h : ∀ b ∈ bs, b.toNat < 128) : bytes (ofAscii bs) = bs := by
  rw [bytes_eq, ofAscii, String.toList_ofList]
  induction bs with
  | nil => rfl
  | cons b bs ih =>
    obtain ⟨hb, hbs⟩ := List.forall_mem_cons.mp h
    have hchar : (Char.ofNat b.toNat).toNat < 128 := by
      rw [(ofNat_byte b).1]
      exact hb
    rw [List.map_cons, List.flatMap_cons, ih hbs, utf8EncodeChar_ascii hchar, (ofNat_byte b).2]
    rfl

theorem mem_bytes {c : Char} (h : c.toNat < 128) {s : String} :
    c.toUInt8 ∈ bytes s ↔ c ∈ s.toList := by
  have hbyte : (c.toUInt8).toNat = c.toNat := Nat.mod_eq_of_lt (h.trans (by decide))
  rw [bytes_eq, List.mem_flatMap]
  constructor
  · rintro ⟨d, hd, hmem⟩
    have hsmall : (c.toUInt8).toNat < 128 := by
      rw [hbyte]
      exact h
    have hsame := (utf8EncodeChar_of_mem hsmall hmem).2
    rw [hbyte] at hsame
    exact Char.toNat_inj.mp hsame ▸ hd
  · intro hc
    refine ⟨c, hc, ?_⟩
    rw [utf8EncodeChar_ascii h]
    exact List.mem_singleton_self _

end Text

def Whatwg.queryChars (text : List Char) : List Char :=
  (text.filter fun c => !isTabOrNewline c).takeWhile (· != '#')

def Whatwg.query (text : String) : String :=
  Text.ofAscii (percentEncode specialQuerySet false
    ((Whatwg.queryChars text.toList).flatMap String.utf8EncodeChar))

/-- What `url` documents to follow of the URL Standard: of a query it parses, and of one it appends to. -/
structure UrlStandard [UrlCrate] : Prop where
  /-- The query of an `http` or `https` URL starts at the first `?`; blanks at its end are stripped. -/
  query : ∀ {start text : String} {url : Url},
    ("http://".toList <+: start.toList ∨ "https://".toList <+: start.toList) →
    '?' ∉ start.toList → '#' ∉ start.toList →
    (∀ c, text.toList.getLast? = some c → Whatwg.isC0OrSpace c = false) →
    UrlCrate.parse (start ++ "?" ++ text) = .ok url → url.query = some (Whatwg.query text)
  noQuery : ∀ {text : String} {url : Url}, '?' ∉ text.toList → UrlCrate.parse text = .ok url →
    url.query = none
  appendPair : ∀ key value : String, UrlCrate.appendPair none key value =
    Text.ofAscii (serialize (Text.bytes key) (Text.bytes value))

def isHostChar (c : Char) : Bool := c.isAlphanum || c == '-' || c == '.'

structure HostName where
  text : String
  plain : text.toList.all isHostChar = true
  trimmed : Text.trimMatches text '.' = text

def Url.params (url : Url) : List (Bytes × Bytes) := parse (Text.bytes (url.query.getD ""))

def addressParams (address : String) : List (Bytes × Bytes) :=
  [(Text.bytes "emailaddress", Text.bytes address)]

/-- The bytes mean themselves after the `?` of a URL and in the value of a parameter. -/
structure QueryLiteral (bs : Bytes) : Prop where
  unreserved : ∀ c ∈ ['\t', '\n', '\r', '#', '&', '+'], c.toUInt8 ∉ bs
  unescaped : Unescaped bs

theorem encodeByte_ascii : ∀ b : UInt8,
    (encodeByte specialQuerySet false b).all (·.toNat < 128) = true ∧
      (encodeByte formSet true b).all (·.toNat < 128) = true := forall_byte (by decide +kernel)

theorem Whatwg.bytes_query (text : String) :
    Text.bytes (Whatwg.query text) = percentEncode specialQuerySet false
      ((Whatwg.queryChars text.toList).flatMap String.utf8EncodeChar) := by
  apply Text.bytes_ofAscii
  intro c hc
  obtain ⟨b, -, hb⟩ := List.mem_flatMap.mp hc
  exact of_decide_eq_true (List.all_eq_true.mp (encodeByte_ascii b).1 c hb)

theorem bytes_serialize (key value : String) :
    Text.bytes (Text.ofAscii (serialize (Text.bytes key) (Text.bytes value))) =
      serialize (Text.bytes key) (Text.bytes value) := by
  have hencode : ∀ bs, ∀ c ∈ percentEncode formSet true bs, c.toNat < 128 := by
    intro bs c hc
    obtain ⟨b, -, hb⟩ := List.mem_flatMap.mp hc
    exact of_decide_eq_true (List.all_eq_true.mp (encodeByte_ascii b).2 c hb)
  apply Text.bytes_ofAscii
  intro c hc
  rw [serialize, List.mem_append, List.mem_cons] at hc
  obtain hc | rfl | hc := hc
  · exact hencode _ c hc
  · decide
  · exact hencode _ c hc

namespace HostName

theorem isHostChar_of_mem (host : HostName) {c : Char} (h : c ∈ host.text.toList) :
    isHostChar c = true := List.all_eq_true.mp host.plain c h

theorem not_mem (host : HostName) {c : Char} (h : isHostChar c = false) : c ∉ host.text.toList := by
  intro hc
  rw [host.isHostChar_of_mem hc] at h
  cases h

theorem not_blank (host : HostName) {c : Char} (h : c ∈ host.text.toList) :
    Whatwg.isC0OrSpace c = false := by
  have hblank : ∀ n ≤ 0x20, isHostChar (Char.ofNat n) = false := by decide
  apply decide_eq_false
  intro hle
  have hplain := hblank c.toNat hle
  rw [Char.ofNat_toNat] at hplain
  exact host.not_mem hplain h

end HostName

namespace Whatwg

theorem queryChars_sublist (cs : List Char) : (queryChars cs).Sublist cs :=
  (List.takeWhile_sublist _).trans List.filter_sublist

theorem queryChars_eq_self_iff {cs : List Char} :
    queryChars cs = cs ↔ ∀ c ∈ cs, (!isTabOrNewline c) = true ∧ (c != '#') = true := by
  constructor
  · intro h c hc
    rw [← h] at hc
    have hfilter := (List.mem_filter.mp ((List.takeWhile_sublist _).subset hc)).2
    have htake : (c != '#') = true := List.mem_takeWhile_imp (p := (· != '#')) hc
    exact ⟨hfilter, htake⟩
  · intro h
    rw [queryChars, List.filter_eq_self.mpr fun c hc => (h c hc).1]
    exact List.takeWhile_eq_self_iff.mpr fun c hc => (h c hc).2

theorem queryChars_append {cs : List Char} (h : queryChars cs = cs) (ds : List Char) :
    queryChars (cs ++ ds) = cs ++ queryChars ds := by
  have hplain := queryChars_eq_self_iff.mp h
  rw [queryChars, List.filter_append, List.filter_eq_self.mpr fun c hc => (hplain c hc).1,
    List.takeWhile_append_of_pos fun c hc => (hplain c hc).2, queryChars]

end Whatwg

theorem queryLiteral_iff (text : String) :
    QueryLiteral (Text.bytes text) ↔ Whatwg.queryChars text.toList = text.toList ∧
      '&'.toUInt8 ∉ Text.bytes text ∧ decode (Text.bytes text) = Text.bytes text := by
  rw [decode_eq_self_iff, Whatwg.queryChars_eq_self_iff]
  constructor
  · intro h
    refine ⟨fun c hc => ?_, h.unreserved '&' (by decide), h.unreserved '+' (by decide), h.unescaped⟩
    have hplain : c ∉ ['\t', '\n', '\r', '#', '&', '+'] := by
      intro hreserved
      have hsmall : ∀ c ∈ ['\t', '\n', '\r', '#', '&', '+'], c.toNat < 128 :=
        List.all_iff_forall_prop.mp (by decide)
      exact h.unreserved c hreserved ((Text.mem_bytes (hsmall c hreserved)).mpr hc)
    simp only [List.mem_cons, List.not_mem_nil, or_false, not_or] at hplain
    simp [Whatwg.isTabOrNewline, hplain]
  · rintro ⟨hchars, hand, hplus, hescaped⟩
    refine ⟨fun c hreserved hc => ?_, hescaped⟩
    have hlost : ∀ c ∈ ['\t', '\n', '\r', '#', '&', '+'], c.toNat < 128 ∧ (c = '&' ∨ c = '+' ∨
        ¬ ((!Whatwg.isTabOrNewline c) = true ∧ (c != '#') = true)) :=
      List.all_iff_forall_prop.mp (by decide)
    obtain ⟨hsmall, rfl | rfl | hlost⟩ := hlost c hreserved
    · exact hand hc
    · exact hplus hc
    · exact hlost (hchars c ((Text.mem_bytes hsmall).mp hc))

theorem parse_query_iff (address : String) :
    parse (Text.bytes (Whatwg.query ("emailaddress=" ++ address))) = addressParams address ↔
      QueryLiteral (Text.bytes address) := by
  have hquery : Text.bytes (Whatwg.query ("emailaddress=" ++ address)) =
      Text.bytes "emailaddress" ++ '='.toUInt8 :: percentEncode specialQuerySet false
        ((Whatwg.queryChars address.toList).flatMap String.utf8EncodeChar) := by
    have hname : Whatwg.queryChars "emailaddress=".toList = "emailaddress=".toList := by decide
    have hencode : percentEncode specialQuerySet false
        ("emailaddress=".toList.flatMap String.utf8EncodeChar) =
          Text.bytes "emailaddress" ++ ['='.toUInt8] := by decide +kernel
    rw [Whatwg.bytes_query, String.toList_append, Whatwg.queryChars_append hname,
      List.flatMap_append, percentEncode_append, hencode, List.append_assoc, List.singleton_append]
  have hsublist : ((Whatwg.queryChars address.toList).flatMap String.utf8EncodeChar).Sublist
      (Text.bytes address) := by
    rw [Text.bytes_eq]
    exact (Whatwg.queryChars_sublist _).flatMap _
  have hname : decode (Text.bytes "emailaddress") = Text.bytes "emailaddress" := by decide +kernel
  have hequals : '='.toUInt8 ∉ Text.bytes "emailaddress" := by decide +kernel
  have hparse := parse_encoded_iff hequals (by decide +kernel) hsublist.length_le
  rw [hname] at hparse
  rw [hquery, addressParams, hparse, queryLiteral_iff]
  constructor
  · rintro ⟨hand, hdecode⟩
    have hwhole : (Whatwg.queryChars address.toList).flatMap String.utf8EncodeChar =
        Text.bytes address := by
      apply hsublist.eq_of_length_le
      rw [← hdecode]
      exact length_decode _
    have hchars : Text.bytes (String.ofList (Whatwg.queryChars address.toList)) =
        Text.bytes address := by
      rw [Text.bytes_eq, String.toList_ofList]
      exact hwhole
    rw [hwhole] at hand hdecode
    rw [← String.ofList_inj, String.ofList_toList]
    exact ⟨Text.bytes_inj.mp hchars, hand, hdecode⟩
  · rintro ⟨hchars, hand, hdecode⟩
    rw [hchars, ← Text.bytes_eq]
    exact ⟨hand, hdecode⟩

theorem queryLiteral_address (localPart : String) (domain : HostName) :
    QueryLiteral (Text.bytes (localPart ++ "@" ++ domain.text)) ↔ QueryLiteral (Text.bytes localPart) := by
  have hbytes : Text.bytes (localPart ++ "@" ++ domain.text) =
      Text.bytes localPart ++ '@'.toUInt8 :: Text.bytes domain.text := by
    rw [Text.bytes_append, Text.bytes_append, List.append_assoc]
    rfl
  have hpercent : '%'.toUInt8 ∉ Text.bytes domain.text :=
    mt (Text.mem_bytes (by decide)).mp (domain.not_mem (by decide))
  have hplain : ∀ c ∈ ['\t', '\n', '\r', '#', '&', '+'], c.toNat < 128 ∧ c.toUInt8 ≠ '@'.toUInt8 ∧
      isHostChar c = false := List.all_iff_forall_prop.mp (by decide)
  have hescaped : Unescaped (Text.bytes localPart ++ '@'.toUInt8 :: Text.bytes domain.text) ↔
      Unescaped (Text.bytes localPart) ∧ Unescaped (Text.bytes domain.text) :=
    unescaped_append_cons (by decide) (by decide)
  rw [hbytes]
  constructor
  · intro h
    refine ⟨fun c hc hmem => h.unreserved c hc (List.mem_append_left _ hmem), ?_⟩
    exact (hescaped.mp h.unescaped).1
  · intro h
    refine ⟨fun c hc hmem => ?_, hescaped.mpr ⟨h.unescaped, unescaped_of_not_mem hpercent⟩⟩
    obtain ⟨hsmall, hat, hhost⟩ := hplain c hc
    obtain hlocal | hmem := List.mem_append.mp hmem
    · exact h.unreserved c hc hlocal
    · obtain heq | hdomain := List.mem_cons.mp hmem
      · exact hat heq
      · exact domain.not_mem hhost ((Text.mem_bytes hsmall).mp hdomain)

theorem document_isWeb (secure : Bool) (host path : String) :
    "http://".toList <+: (DiscoveryIsp.httpScheme secure ++ "://autoconfig." ++ host ++ path).toList ∨
      "https://".toList <+:
        (DiscoveryIsp.httpScheme secure ++ "://autoconfig." ++ host ++ path).toList := by
  simp only [String.toList_append, List.append_assoc]
  cases secure
  · exact .inl ⟨"autoconfig.".toList ++ (host.toList ++ path.toList), rfl⟩
  · exact .inr ⟨"autoconfig.".toList ++ (host.toList ++ path.toList), rfl⟩

theorem document_not_mem (secure : Bool) (host : HostName) {c : Char} (hc : c ∈ ['?', '#'])
    {label : String} (hlabel : c ∉ label.toList) :
    c ∉ (DiscoveryIsp.httpScheme secure ++ label ++ host.text ++ "/mail/config-v1.1.xml").toList := by
  have hfixed : ∀ c ∈ ['?', '#'], c ∉ (DiscoveryIsp.httpScheme secure).toList ∧
      c ∉ "/mail/config-v1.1.xml".toList ∧ isHostChar c = false := by
    cases secure <;> exact List.all_iff_forall_prop.mp (by decide +kernel)
  obtain ⟨hscheme, hpath, hhost⟩ := hfixed c hc
  rw [String.toList_append, String.toList_append, String.toList_append, List.mem_append,
    List.mem_append, List.mem_append, not_or, not_or, not_or]
  exact ⟨⟨⟨hscheme, hlabel⟩, host.not_mem hhost⟩, hpath⟩

section
variable [UrlCrate]

theorem params_mainUrl (hstandard : UrlStandard) (localPart : String) (domain : HostName)
    (secure : Bool) {url : Url}
    (h : DiscoveryIsp.mainUrl localPart domain.text secure = .ok url) :
    url.params =
      parse (Text.bytes (Whatwg.query ("emailaddress=" ++ (localPart ++ "@" ++ domain.text)))) := by
  have hsplit : "/mail/config-v1.1.xml?emailaddress=" =
      "/mail/config-v1.1.xml" ++ ("?" ++ "emailaddress=") := by decide +kernel
  rw [DiscoveryIsp.mainUrl, domain.trimmed, hsplit] at h
  have hlast : ∀ c, ("emailaddress=" ++ (localPart ++ "@" ++ domain.text)).toList.getLast? = some c →
      Whatwg.isC0OrSpace c = false := by
    intro c hc
    have hchars : ("emailaddress=" ++ (localPart ++ "@" ++ domain.text)).toList =
        ("emailaddress=".toList ++ localPart.toList) ++ '@' :: domain.text.toList := by
      rw [String.toList_append, String.toList_append, String.toList_append, List.append_assoc,
        List.append_assoc]
      rfl
    rw [hchars, List.getLast?_append_cons] at hc
    obtain rfl | hdomain := List.mem_cons.mp (List.mem_of_getLast? hc)
    · decide
    · exact domain.not_blank hdomain
  have hparse : UrlCrate.parse (DiscoveryIsp.httpScheme secure ++ "://autoconfig." ++ domain.text ++
      "/mail/config-v1.1.xml" ++ "?" ++
      ("emailaddress=" ++ (localPart ++ "@" ++ domain.text))) = .ok url := by
    simp only [String.append_assoc] at h ⊢
    exact h
  have hquery := hstandard.query (document_isWeb secure _ _)
    (document_not_mem secure domain (by decide) (by decide +kernel))
    (document_not_mem secure domain (by decide) (by decide +kernel)) hlast hparse
  rw [Url.params, hquery]
  rfl

theorem params_hostUrl (hstandard : UrlStandard) (email : String) (host : HostName) (secure : Bool)
    {url : Url} (h : DiscoveryIsp.hostUrl email host.text secure = .ok url) :
    url.params = addressParams email := by
  rw [DiscoveryIsp.hostUrl, host.trimmed] at h
  have hplain := document_not_mem secure host (c := '?') (by decide)
    (show '?' ∉ "://".toList by decide +kernel)
  cases hparse : UrlCrate.parse (DiscoveryIsp.httpScheme secure ++ "://" ++ host.text ++
      "/mail/config-v1.1.xml") with
  | error err =>
    rw [hparse] at h
    cases h
  | ok parsed =>
    rw [hparse] at h
    cases h
    show parse (Text.bytes (UrlCrate.appendPair parsed.query "emailaddress" email)) = _
    rw [hstandard.noQuery hplain hparse, hstandard.appendPair, bytes_serialize, parse_serialize]
    rfl

/-- The URL that is formatted carries the address exactly when the local part is literal in a query; the
one that is serialized always does. -/
theorem mainUrl_carries_address_iff (hstandard : UrlStandard) (localPart : String)
    (domain : HostName) (secure : Bool) {main : Url}
    (hmain : DiscoveryIsp.mainUrl localPart domain.text secure = .ok main) :
    (main.params = addressParams (localPart ++ "@" ++ domain.text) ↔
        QueryLiteral (Text.bytes localPart)) ∧
      ∀ (host : HostName) (hosted : Url),
        DiscoveryIsp.hostUrl (localPart ++ "@" ++ domain.text) host.text secure = .ok hosted →
        hosted.params = addressParams (localPart ++ "@" ++ domain.text) ∧
          (main.params = hosted.params ↔ QueryLiteral (Text.bytes localPart)) := by
  have hcarries : main.params = addressParams (localPart ++ "@" ++ domain.text) ↔
      QueryLiteral (Text.bytes localPart) := by
    rw [params_mainUrl hstandard localPart domain secure hmain, parse_query_iff, queryLiteral_address]
  refine ⟨hcarries, fun host hosted hhosted => ?_⟩
  have hsame := params_hostUrl hstandard _ host secure hhosted
  rw [hsame]
  exact ⟨rfl, hcarries⟩

end

/-- `plainUrl` with queries, of URLs without a fragment. -/
@[reducible] def formUrl : UrlCrate :=
  { plainUrl with
    parse := fun text =>
      match Text.splitOnce text '?' with
      | none => PlainUrl.parse text
      | some (start, rest) =>
        (PlainUrl.parse start).map fun url => { url with query := some (Whatwg.query rest) }
    appendPair := fun query key value => ((query.filter (· ≠ "")).map (· ++ "&")).getD "" ++
      Text.ofAscii (serialize (Text.bytes key) (Text.bytes value)) }

theorem PlainUrl.parse_query {text : String} {url : Url} (h : PlainUrl.parse text = .ok url) :
    url.query = none := by
  unfold PlainUrl.parse at h
  simp only at h
  split at h
  · cases h
  · cases h
    rfl

theorem formUrl_standard : @UrlStandard formUrl := by
  let _ := formUrl
  constructor
  · intro start text url _ hmark _ _ hparse
    have hsplit : Text.splitOnce (start ++ "?" ++ text) '?' = some (start, text) :=
      Text.splitOnce_append hmark text
    simp only [UrlCrate.parse, hsplit] at hparse
    cases hstart : PlainUrl.parse start with
    | error err =>
      rw [hstart] at hparse
      cases hparse
    | ok parsed =>
      rw [hstart] at hparse
      cases hparse
      rfl
  · intro text url hmark hparse
    simp only [UrlCrate.parse, Text.splitOnce_eq_none.mpr hmark] at hparse
    exact PlainUrl.parse_query hparse
  · exact fun key value => String.empty_append

def exampleHost : HostName where
  text := "example.org"
  plain := by decide +kernel
  trimmed := by decide +kernel

def exampleDocument (host query : String) : Url :=
  { exampleOrigin with host := some host, path := "/mail/config-v1.1.xml", query := some query }

theorem literal_address_carried :
    letI := formUrl
    ∃ main hosted : Url, DiscoveryIsp.mainUrl "who=?" "example.org" true = .ok main ∧
      DiscoveryIsp.hostUrl "who=?@example.org" "example.org" true = .ok hosted ∧
      main.params = hosted.params := by
  let _ := formUrl
  have hmain : DiscoveryIsp.mainUrl "who=?" exampleHost.text true =
      .ok (exampleDocument "autoconfig.example.org" "emailaddress=who=?@example.org") := by
    decide +kernel
  have hhosted : DiscoveryIsp.hostUrl ("who=?" ++ "@" ++ exampleHost.text) exampleHost.text true =
      .ok (exampleDocument "example.org" "emailaddress=who%3D%3F%40example.org") := by
    decide +kernel
  have hliteral : QueryLiteral (Text.bytes "who=?") :=
    ⟨List.all_iff_forall_prop.mp (by decide +kernel), by decide +kernel⟩
  obtain ⟨-, hcarried⟩ :=
    mainUrl_carries_address_iff formUrl_standard "who=?" exampleHost true hmain
  exact ⟨_, _, hmain, hhosted, (hcarried exampleHost _ hhosted).2.mpr hliteral⟩

/-- A plus in the local part is read as a space. -/
theorem plus_address_not_carried :
    ¬ ∀ [UrlCrate], UrlStandard → ∀ (localPart : String) (domain : HostName) (secure : Bool) (url : Url),
      DiscoveryIsp.mainUrl localPart domain.text secure = .ok url →
        url.params = addressParams (localPart ++ "@" ++ domain.text) := by
  intro h
  have hparams := @h formUrl formUrl_standard "user+tag" exampleHost true
    (exampleDocument "autoconfig.example.org" "emailaddress=user+tag@example.org") (by decide +kernel)
  exact absurd hparams (by decide +kernel)

end PimDiscovery
