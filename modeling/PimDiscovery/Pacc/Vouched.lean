import PimDiscovery.Pacc.Discover

/-! What a PACC run answers, on any network: the records that vouch for a body, and the outcome they
decide. -/

namespace PimDiscovery
open Interaction

def paccTags (config : String) : List (String × String) :=
  (Text.split config ';').filterMap fun tag =>
    (Text.splitOnce tag '=').map fun tag => (Text.trim tag.1, Text.trim tag.2)

def lastTag (name config : String) : Option String :=
  (((paccTags config).filter fun tag => Text.eqIgnoreAsciiCase tag.1 name).getLast?).map Prod.snd

namespace PaccTags

theorem read_eq (tags : PaccTags) (tag : String) :
    tags.read tag =
      match (Text.splitOnce tag '=').map fun tag => (Text.trim tag.1, Text.trim tag.2) with
      | none => tags
      | some (name, val) =>
        { v := if Text.eqIgnoreAsciiCase name "v" then some val else tags.v
          a := if Text.eqIgnoreAsciiCase name "a" then some val else tags.a
          d := if Text.eqIgnoreAsciiCase name "d" then some val else tags.d } := by
  unfold read
  cases Text.splitOnce tag '=' with
  | none => rfl
  | some tag =>
    obtain ⟨name, val⟩ := tag
    simp only [Option.map_some]
    have hexclusive : ∀ s t : String, s.toList.map Char.toLower ≠ t.toList.map Char.toLower →
        Text.eqIgnoreAsciiCase (Text.trim name) s = true →
          Text.eqIgnoreAsciiCase (Text.trim name) t = false := by
      intro s t hst hs
      unfold Text.eqIgnoreAsciiCase at hs ⊢
      rw [beq_iff_eq] at hs
      rw [hs]
      exact beq_eq_false_iff_ne.mpr hst
    by_cases hv : Text.eqIgnoreAsciiCase (Text.trim name) "v"
    · have ha := hexclusive "v" "a" (by decide) hv
      have hd := hexclusive "v" "d" (by decide) hv
      simp only [hv, ha, hd]
      rfl
    · by_cases ha : Text.eqIgnoreAsciiCase (Text.trim name) "a"
      · have hd := hexclusive "a" "d" (by decide) ha
        simp only [hv, ha, hd]
        rfl
      · by_cases hd : Text.eqIgnoreAsciiCase (Text.trim name) "d" <;> simp only [hv, ha, hd] <;> rfl

theorem foldl_read (parts : List String) (tags : PaccTags) (name : String)
    (get : PaccTags → Option String)
    (hget : ∀ (tags : PaccTags) tag, get (tags.read tag) =
      match (Text.splitOnce tag '=').map fun tag => (Text.trim tag.1, Text.trim tag.2) with
      | none => get tags
      | some (n, val) => if Text.eqIgnoreAsciiCase n name then some val else get tags) :
    get (parts.foldl read tags) =
      ((((parts.filterMap fun tag =>
        (Text.splitOnce tag '=').map fun tag => (Text.trim tag.1, Text.trim tag.2)).filter
          fun tag => Text.eqIgnoreAsciiCase tag.1 name).getLast?).map Prod.snd).or (get tags) := by
  induction parts generalizing tags with
  | nil => rfl
  | cons part parts ih =>
    rw [List.foldl_cons, ih, hget, List.filterMap_cons]
    cases (Text.splitOnce part '=').map fun tag => (Text.trim tag.1, Text.trim tag.2) with
    | none => rfl
    | some tag =>
      obtain ⟨n, val⟩ := tag
      simp only [List.filter_cons]
      split
      · rw [List.getLast?_cons]
        cases List.getLast? _ <;> rfl
      · rfl

theorem ofConfig_eq (config : String) :
    ofConfig config = { v := lastTag "v" config, a := lastTag "a" config, d := lastTag "d" config } := by
  have hv := foldl_read (Text.split config ';') { v := none, a := none, d := none } "v" PaccTags.v
    fun tags tag => by rw [read_eq]; split <;> rfl
  have ha := foldl_read (Text.split config ';') { v := none, a := none, d := none } "a" PaccTags.a
    fun tags tag => by rw [read_eq]; split <;> rfl
  have hd := foldl_read (Text.split config ';') { v := none, a := none, d := none } "d" PaccTags.d
    fun tags tag => by rw [read_eq]; split <;> rfl
  simp only [Option.or_none] at hv ha hd
  unfold ofConfig lastTag paccTags
  rw [← hv, ← ha, ← hd]

end PaccTags

section
variable [DigestCrate]

/-- The record is UTF-8 and its last `v`, `a` and `d` tags give the version, the algorithm and,
decoded cleanly, the digest of `body`. -/
def Qualifies (body : Bytes) (record : List Bytes) : Prop :=
  ∃ config v a d, Text.fromUtf8 record.flatten = some config ∧
    lastTag "v" config = some v ∧ Text.eqIgnoreAsciiCase v "UAAC1" = true ∧
    lastTag "a" config = some a ∧ Text.eqIgnoreAsciiCase a "sha256" = true ∧
    lastTag "d" config = some d ∧
    DigestCrate.decodeBase64 (Text.bytes d) = (DigestCrate.sha256 body, true)

theorem vouches_config {body : Bytes} {record : List Bytes} {config : String}
    (h : Text.fromUtf8 record.flatten = some config) :
    vouches body record = true ↔ ∃ v a d, lastTag "v" config = some v ∧
      Text.eqIgnoreAsciiCase v "UAAC1" = true ∧ lastTag "a" config = some a ∧
      Text.eqIgnoreAsciiCase a "sha256" = true ∧ lastTag "d" config = some d ∧
      DigestCrate.decodeBase64 (Text.bytes d) = (DigestCrate.sha256 body, true) := by
  unfold vouches
  simp only [h, PaccTags.ofConfig_eq]
  cases lastTag "v" config with
  | none => simp
  | some v =>
    cases lastTag "a" config with
    | none => simp
    | some a =>
      cases lastTag "d" config with
      | none => simp
      | some d =>
        simp only [Option.some.injEq, exists_and_left, ↓existsAndEq, true_and]
        generalize DigestCrate.decodeBase64 (Text.bytes d) = decoded
        obtain ⟨expected, clean⟩ := decoded
        rw [Prod.mk.injEq]
        cases Text.eqIgnoreAsciiCase v "UAAC1" <;> cases Text.eqIgnoreAsciiCase a "sha256" <;>
          cases clean <;> simp

theorem vouches_iff (body : Bytes) (record : List Bytes) :
    vouches body record = true ↔ Qualifies body record := by
  cases h : Text.fromUtf8 record.flatten with
  | none =>
    apply iff_of_false (by simp [vouches, h])
    rintro ⟨config, _, _, _, hconfig, -⟩
    exact nomatch h.symm.trans hconfig
  | some config =>
    rw [vouches_config h]
    constructor
    · rintro ⟨v, a, d, hrest⟩
      exact ⟨config, v, a, d, h, hrest⟩
    · rintro ⟨_, v, a, d, hconfig, hrest⟩
      obtain rfl := Option.some.inj (h.symm.trans hconfig)
      exact ⟨v, a, d, hrest⟩

variable [SerdeCrate]

/-- The outcome is decided by whether some record qualifies, and then by the parse of the body. -/
theorem verifyRecords_eq (body : Bytes) (records : List (List Bytes)) :
    verifyRecords body records =
      if records.any (vouches body) then
        (SerdeCrate.parsePacc body).mapError .json
      else .error .noValidTxtRecord := by
  induction records with
  | nil => rfl
  | cons record records ih =>
    rw [verifyRecords, List.any_cons]
    cases vouches body record with
    | false => simpa using ih
    | true => cases SerdeCrate.parsePacc body <;> rfl

theorem verifyRecords_perm {body : Bytes} {records records' : List (List Bytes)}
    (h : records.Perm records') : verifyRecords body records' = verifyRecords body records := by
  rw [verifyRecords_eq, verifyRecords_eq, h.any_eq]

theorem verifyRecords_insert {body : Bytes} {extra : List Bytes} (h : ¬ Qualifies body extra)
    (before after : List (List Bytes)) :
    verifyRecords body (before ++ extra :: after) = verifyRecords body (before ++ after) := by
  have hv : vouches body extra = false := Bool.eq_false_iff.mpr (mt (vouches_iff body extra).mp h)
  rw [verifyRecords_eq, verifyRecords_eq, List.any_append, List.any_cons, hv, Bool.false_or,
    ← List.any_append]

theorem verifyRecords_split {body : Bytes} {record record' : List Bytes}
    (h : record'.flatten = record.flatten) (before after : List (List Bytes)) :
    verifyRecords body (before ++ record' :: after) =
      verifyRecords body (before ++ record :: after) := by
  have hv : vouches body record' = vouches body record := by
    unfold vouches
    rw [h]
  rw [verifyRecords_eq, verifyRecords_eq, List.any_append, List.any_append, List.any_cons,
    List.any_cons, hv]

theorem verifyRecords_ok_iff (body : Bytes) (records : List (List Bytes))
    (config : DiscoveryPaccConfig) :
    verifyRecords body records = .ok config ↔
      (∃ record ∈ records, Qualifies body record) ∧ SerdeCrate.parsePacc body = .ok config := by
  simp only [verifyRecords_eq, ← vouches_iff, ← List.any_eq_true]
  cases records.any (vouches body) with
  | false => simp
  | true => cases SerdeCrate.parsePacc body <;> simp [Except.mapError]

theorem verifyRecords_json_iff (body : Bytes) (records : List (List Bytes)) (err : String) :
    verifyRecords body records = .error (.json err) ↔
      (∃ record ∈ records, Qualifies body record) ∧ SerdeCrate.parsePacc body = .error err := by
  simp only [verifyRecords_eq, ← vouches_iff, ← List.any_eq_true]
  cases records.any (vouches body) with
  | false => simp
  | true => cases SerdeCrate.parsePacc body <;> simp [Except.mapError]

theorem verifyRecords_none_iff (body : Bytes) (records : List (List Bytes)) :
    verifyRecords body records = .error .noValidTxtRecord ↔
      ∀ record ∈ records, ¬ Qualifies body record := by
  have hnone : (∀ record ∈ records, ¬ Qualifies body record) ↔
      records.any (vouches body) = false := by
    simp only [List.any_eq_false, vouches_iff]
  rw [hnone, verifyRecords_eq]
  cases records.any (vouches body) with
  | false => simp
  | true => cases SerdeCrate.parsePacc body <;> simp [Except.mapError]

end

def Network.httpGet (o : Network) (url : Url) : Except DiscoveryHttpGetError Bytes :=
  DiscoveryHttpGet.finish (o.send (DiscoveryHttpGet.request url))

theorem DiscoveryHttpGet.eval_program (o : Network) (url : Url) :
    (program url).eval o = o.httpGet url := rfl

namespace DiscoveryPacc

section
variable [UrlCrate] [DomainCrate] [IoHttpCrate] [SerdeCrate] [DigestCrate]

/-- A run accepts a document exactly when a TXT record vouches for it, whatever the order of the
records, the ones that do not and their cutting into strings; a failed fetch ends it at once. -/
theorem accepts_vouched_document (o : Network) (domain : String) (resolver : Url)
    (args : List (Option Bytes)) {start : Url} {self : DiscoveryPacc}
    (hurl : url domain = .ok start) (hnew : new domain resolver = .ok self)
    (hserves : Serves exchanges o (program start domain resolver) args) :
    (∀ err, o.httpGet start = .error err →
      outcome resume self (none :: args) = some (.error (.http err)) ∧
      (program start domain resolver).asked o = [.send (DiscoveryHttpGet.request start)]) ∧
    ∀ body records, o.httpGet start = .ok body →
      o.lookup .txt readTxt (txtQname domain) resolver = .ok records →
      ∃ result, outcome resume self (none :: args) = some result ∧
        (∀ config, result = .ok config ↔
          (∃ record ∈ records, Qualifies body record) ∧ SerdeCrate.parsePacc body = .ok config) ∧
        (∀ err, result = .error (.json err) ↔
          (∃ record ∈ records, Qualifies body record) ∧ SerdeCrate.parsePacc body = .error err) ∧
        (result = .error .noValidTxtRecord ↔ ∀ record ∈ records, ¬ Qualifies body record) ∧
        (∀ records', records.Perm records' → finish body (.ok records') = result) ∧
        (∀ before extra after, records = before ++ after → ¬ Qualifies body extra →
          finish body (.ok (before ++ extra :: after)) = result) ∧
        ∀ before record record' after, records = before ++ record :: after →
          record'.flatten = record.flatten →
          finish body (.ok (before ++ record' :: after)) = result := by
  have houtcome := refines.outcome_eq (toProc_new hurl hnew) hserves
  simp only [program, Prog.eval_bind, DiscoveryHttpGet.eval_program] at houtcome
  constructor
  · intro err herr
    rw [herr] at houtcome
    refine ⟨houtcome, ?_⟩
    rw [program, Prog.asked_bind, DiscoveryHttpGet.eval_program, herr]
    rfl
  · intro body records hbody hrecords
    rw [hbody] at houtcome
    simp only [afterFetch, Prog.eval_bind, Prog.eval_pure, DiscoveryDnsTxt.program,
      DnsLookup.eval_program, hrecords] at houtcome
    refine ⟨_, houtcome, verifyRecords_ok_iff body records, verifyRecords_json_iff body records,
      verifyRecords_none_iff body records, fun _ hperm => verifyRecords_perm hperm, ?_, ?_⟩
    · rintro before extra after rfl hextra
      exact verifyRecords_insert hextra before after
    · rintro before record record' after rfl hsplit
      exact verifyRecords_split hsplit before after

end
/-! A document and the record that vouches for it. -/

def vouchedText : String :=
  "\x7b\"protocols\":\x7b\"imap\":\x7b\"host\":\"imap.example.org\"\x7d\x7d," ++
    "\"authentication\":\x7b\"password\":true\x7d,\"info\":\x7b\"provider\":\x7b\"name\":\"Example\"\x7d\x7d\x7d"

def vouchedConfig : DiscoveryPaccConfig where
  protocols :=
    { jmap := none, caldav := none, carddav := none, webdav := none
      imap := some { host := "imap.example.org" }, pop3 := none, smtp := none, managesieve := none }
  authentication := { oauthPublic := none, password := some true }

def vouchedDigest : Bytes :=
  [217, 42, 219, 221, 246, 137, 171, 145, 135, 245, 249, 207, 18, 51, 89, 200, 64, 137, 192, 38,
    132, 241, 68, 240, 89, 139, 43, 111, 204, 224, 245, 128]

def vouchedBase64 : String := "2Srb3faJq5GH9fnPEjNZyECJwCaE8UTwWYsrb8zg9YA="

@[reducible] def vouchedSerde : SerdeCrate :=
  { plainSerde with
    parsePacc := fun body =>
      if body = Text.bytes vouchedText then .ok vouchedConfig else .error "expected value" }

@[reducible] def vouchedCrates : DigestCrate where
  sha256 body := if body = Text.bytes vouchedText then vouchedDigest else []
  decodeBase64 d := if d = Text.bytes vouchedBase64 then (vouchedDigest, true) else ([], false)

def vouchedAnswer : Bytes :=
  PlainDns.txtAnswer "_ua-auto-config.example.org."
    ["other", "V=1; v=UAAC1; a=SHA256; d=" ++ vouchedBase64]

def vouchedNetwork : Network
  | .dns _ _ _ => .ok vouchedAnswer
  | .hop _ _ _ => .error "unexpected EOF"
  | .send _ => .response { status := 200, headers := [], body := Text.bytes vouchedText }

def vouchedReplies : List (List (Option Bytes)) :=
  [[none, some (Text.bytes ("HTTP/1.1 200 OK\r\n\r\n" ++ vouchedText))],
    [none, some (framed vouchedAnswer)]]

def vouchedUrl : Url :=
  { exampleOrigin with
    host := some "ua-auto-config.example.org"
    path := "/.well-known/user-agent-configuration.json" }

theorem accepts_second_record :
    letI := plainUrl
    letI := plainDns
    letI := plainHttp
    letI := vouchedSerde
    letI := vouchedCrates
    (new "example.org" exampleResolver).toOption.map (fun self =>
      outcome resume self (none :: vouchedReplies.flatten)) = some (some (.ok vouchedConfig)) := by
  let _ := plainUrl
  let _ := plainDns
  let _ := plainHttp
  let _ := vouchedSerde
  let _ := vouchedCrates
  have hurl : url "example.org" = .ok vouchedUrl := by decide +kernel
  cases hnew : new "example.org" exampleResolver with
  | error err => simp [new, hurl] at hnew
  | ok self =>
    have hserves : serves exchanges vouchedNetwork
        (program vouchedUrl "example.org" exampleResolver) vouchedReplies = true := by
      decide +kernel
    have hfetch : vouchedNetwork.httpGet vouchedUrl = .ok (Text.bytes vouchedText) := by
      decide +kernel
    have hlookup : vouchedNetwork.lookup .txt readTxt (txtQname "example.org") exampleResolver =
        .ok [[Text.bytes "other"], [Text.bytes ("V=1; v=UAAC1; a=SHA256; d=" ++ vouchedBase64)]] := by
      decide +kernel
    obtain ⟨result, hresult, hok, -⟩ := (accepts_vouched_document vouchedNetwork "example.org"
      exampleResolver _ hurl hnew (serves_sound hserves)).2 _ _ hfetch hlookup
    have hqualifies : vouches (Text.bytes vouchedText)
        [Text.bytes ("V=1; v=UAAC1; a=SHA256; d=" ++ vouchedBase64)] = true := by
      decide +kernel
    have hconfig : result = .ok vouchedConfig :=
      (hok vouchedConfig).mpr ⟨⟨_, by simp, (vouches_iff _ _).mp hqualifies⟩, by decide +kernel⟩
    rw [← hconfig]
    exact congrArg some hresult

end DiscoveryPacc
end PimDiscovery
