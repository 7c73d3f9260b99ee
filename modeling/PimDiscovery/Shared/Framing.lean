import PimDiscovery.PlainNet
import PimDiscovery.Shared.Exchange

/-! The length-prefixed framing of an exchange over TCP: the response is the same however the stream
is cut into reads. -/

namespace PimDiscovery
open Interaction

def lengthPrefix (len : Nat) : Bytes := [UInt8.ofNat (len / 256), UInt8.ofNat (len % 256)]

theorem framed_eq {message : Bytes} (h : message.length ≤ 65535) :
    framed message = lengthPrefix message.length ++ message := by
  have hlen : message.length % 65536 = message.length := Nat.mod_eq_of_lt (by omega)
  rw [framed, hlen]
  rfl

namespace DiscoveryDnsExchange

def bodyLen (response : Bytes) : Nat :=
  match response with
  | hi :: lo :: _ => hi.toNat * 256 + lo.toNat
  | _ => 0

theorem bodyLen_le (response : Bytes) : bodyLen response ≤ 65535 := by
  unfold bodyLen
  split
  · rename_i hi lo _
    have hhi : hi.toNat < 256 := hi.toNat_lt
    have hlo : lo.toNat < 256 := lo.toNat_lt
    omega
  · omega

theorem bodyLen_append {xs : Bytes} (h : 2 ≤ xs.length) (ys : Bytes) :
    bodyLen (xs ++ ys) = bodyLen xs := by
  match xs, h with
  | _ :: _ :: _, _ => rfl

theorem bodyLen_lengthPrefix {len : Nat} (h : len ≤ 65535) (rest : Bytes) :
    bodyLen (lengthPrefix len ++ rest) = len := by
  have hhi : (UInt8.ofNat (len / 256)).toNat = len / 256 := by
    rw [UInt8.toNat_ofNat']
    omega
  have hlo : (UInt8.ofNat (len % 256)).toNat = len % 256 := by
    rw [UInt8.toNat_ofNat']
    omega
  show (UInt8.ofNat (len / 256)).toNat * 256 + (UInt8.ofNat (len % 256)).toNat = len
  omega

theorem body_eq (response : Bytes) :
    body response = if 2 ≤ response.length ∧ 2 + bodyLen response ≤ response.length
      then some ((response.drop 2).take (bodyLen response)) else none := by
  match response with
  | [] => rfl
  | [_] => rfl
  | hi :: lo :: rest =>
    have hiff : 2 + bodyLen (hi :: lo :: rest) ≤ (hi :: lo :: rest).length ↔
        hi.toNat * 256 + lo.toNat ≤ rest.length := by
      simp only [bodyLen, List.length_cons]
      omega
    rw [body]
    simp only [List.length_cons, Nat.le_add_left, true_and] at hiff ⊢
    simp only [hiff]
    rfl

theorem body_eq_none_of_append {xs ys : Bytes} (h : body (xs ++ ys) = none) : body xs = none := by
  rw [body_eq] at h ⊢
  by_cases hxs : 2 ≤ xs.length
  · rw [bodyLen_append hxs, List.length_append] at h
    rw [if_neg]
    intro hle
    rw [if_pos ⟨by omega, by omega⟩] at h
    exact absurd h (by simp)
  · rw [if_neg fun hle => hxs hle.1]

theorem body_short {b t xs ys : Bytes} (hb : b.length ≤ 65535)
    (hsplit : xs ++ ys = lengthPrefix b.length ++ b ++ t) (hshort : xs.length < 2 + b.length) :
    body xs = none := by
  rw [body_eq, if_neg]
  rintro ⟨htwo, hlen⟩
  have hdeclared : bodyLen xs = b.length := by
    rw [← bodyLen_append htwo ys, hsplit, List.append_assoc]
    exact bodyLen_lengthPrefix hb _
  omega

theorem body_enough {b t xs ys : Bytes} (hb : b.length ≤ 65535)
    (hsplit : xs ++ ys = lengthPrefix b.length ++ b ++ t) (hlen : 2 + b.length ≤ xs.length) :
    body xs = some b := by
  have htwo : 2 ≤ xs.length := by omega
  have hdeclared : bodyLen xs = b.length := by
    rw [← bodyLen_append htwo ys, hsplit, List.append_assoc]
    exact bodyLen_lengthPrefix hb _
  have hxs : xs = (lengthPrefix b.length ++ b ++ t).take xs.length := by
    rw [← hsplit, List.take_left]
  have hdrop : (xs.drop 2).take b.length = b := by
    rw [hxs, List.drop_take, List.take_take, Nat.min_eq_left (by omega), List.append_assoc]
    show (b ++ t).take b.length = b
    rw [List.take_left]
  rw [body_eq, hdeclared, if_pos ⟨htwo, hlen⟩, hdrop]

theorem exists_completing {args : List (Option Bytes)} {acc b : Bytes} (hacc : body acc = none)
    (h : body (acc ++ received args) = some b) :
    ∃ before chunk after b', args = before ++ some chunk :: after ∧
      body (acc ++ received before) = none ∧ body (acc ++ received before ++ chunk) = some b' := by
  induction args generalizing acc with
  | nil => simp [received, hacc] at h
  | cons arg args ih =>
    rw [received_cons, ← List.append_assoc] at h
    cases hread : body (acc ++ arg.getD []) with
    | none =>
      obtain ⟨before, chunk, after, b', rfl, hshort, henough⟩ := ih hread h
      refine ⟨arg :: before, chunk, after, b', rfl, ?_, ?_⟩
      · rwa [received_cons, ← List.append_assoc]
      · rwa [received_cons, ← List.append_assoc acc]
    | some b' =>
      cases arg with
      | none => simp [hacc] at hread
      | some chunk =>
        refine ⟨[], chunk, args, b', rfl, ?_, ?_⟩
        · simpa [received] using hacc
        · simpa [received] using hread

theorem reads_le_length {args : List (Option Bytes)} (hchunks : some [] ∉ args) :
    reads args ≤ (received args).length := by
  induction args with
  | nil => exact Nat.zero_le _
  | cons arg args ih =>
    have ih := ih fun h => hchunks (List.mem_cons_of_mem _ h)
    rw [received_cons, List.length_append]
    cases arg with
    | none => simpa [reads] using ih
    | some chunk =>
      have hchunk : 0 < chunk.length :=
        List.length_pos_iff.mpr fun h => hchunks (by simp [h])
      have hreads : reads (some chunk :: args) = reads args + 1 := by simp [reads]
      rw [hreads, Option.getD_some]
      omega

/-- An incomplete response holds too few bytes for more reads than its length bytes can declare. -/
theorem reads_le {args : List (Option Bytes)} (hchunks : some [] ∉ args)
    (hshort : body (received args) = none) : reads args ≤ 65536 := by
  have hle := reads_le_length hchunks
  have hlen := bodyLen_le (received args)
  rw [body_eq] at hshort
  by_contra hmany
  rw [if_pos ⟨by omega, by omega⟩] at hshort
  exact absurd hshort (by simp)

section
variable [IoHttpCrate] {resolver : Url}

theorem resume_reading_none {acc : Bytes} (h : body acc = none) :
    resume { resolver, state := .tcpRead acc } none =
      .yielded (.wantsRead resolver) { resolver, state := .tcpRead acc } := by
  simp [resume, h]

theorem resume_reading_eof (acc : Bytes) :
    resume { resolver, state := .tcpRead acc } (some []) = .complete (.error .eof) := by
  simp [resume]

theorem resume_reading_short {acc chunk : Bytes} (hchunk : chunk ≠ [])
    (h : body (acc ++ chunk) = none) :
    resume { resolver, state := .tcpRead acc } (some chunk) =
      .yielded (.wantsRead resolver) { resolver, state := .tcpRead (acc ++ chunk) } := by
  simp [resume, h, hchunk]

theorem resume_reading_enough {acc chunk b : Bytes} (hchunk : chunk ≠ [])
    (h : body (acc ++ chunk) = some b) :
    resume { resolver, state := .tcpRead acc } (some chunk) = .complete (.ok b) := by
  simp [resume, h, hchunk]

theorem reading_run {before : List (Option Bytes)} (hchunks : some [] ∉ before) {acc : Bytes}
    (hshort : body (acc ++ received before) = none) :
    yields resume { resolver, state := .tcpRead acc } before =
        List.replicate before.length (.wantsRead resolver) ∧
      ∀ rest, outcome resume { resolver, state := .tcpRead acc } (before ++ rest) =
        outcome resume { resolver, state := .tcpRead (acc ++ received before) } rest := by
  induction before generalizing acc with
  | nil => simp [received, yields]
  | cons arg before ih =>
    rw [received_cons, ← List.append_assoc] at hshort ⊢
    have hstep : resume { resolver, state := .tcpRead acc } arg =
        .yielded (.wantsRead resolver) { resolver, state := .tcpRead (acc ++ arg.getD []) } := by
      have hbody := body_eq_none_of_append hshort
      cases arg with
      | none => simpa using resume_reading_none (by simpa using hbody)
      | some chunk =>
        have hchunk : chunk ≠ [] := fun h => hchunks (by simp [h])
        exact resume_reading_short hchunk hbody
    obtain ⟨hyields, hrest⟩ := ih (fun h => hchunks (List.mem_cons_of_mem _ h)) hshort
    refine ⟨?_, fun rest => ?_⟩
    · rw [yields, hstep, Step.elim, hyields]
      rfl
    · rw [List.cons_append, outcome, hstep]
      exact hrest rest

theorem yields_reading {args : List (Option Bytes)} (state : ExchangeState)
    (h : ∃ acc, state = .tcpRead acc) :
    ∀ y ∈ yields resume { resolver, state } args, y = .wantsRead resolver := by
  induction args generalizing state with
  | nil => simp [yields]
  | cons arg args ih =>
    obtain ⟨acc, rfl⟩ := h
    rw [yields]
    simp only [resume]
    split
    · simp [Step.elim]
    · split
      · simp [Step.elim]
      · rw [Step.elim]
        exact List.forall_mem_cons.mpr ⟨rfl, ih _ ⟨_, rfl⟩⟩

theorem resume_new {message : Bytes} (hmessage : message.length ≤ 65535)
    (hscheme : resolver.scheme ≠ "http" ∧ resolver.scheme ≠ "https") (arg : Option Bytes) :
    (new message resolver).resume arg =
      .yielded (.wantsWrite resolver (lengthPrefix message.length ++ message))
        { resolver, state := .tcpRead [] } := by
  have hnew : new message resolver = { resolver, state := .tcpWrite (framed message) } := by
    unfold new
    split
    · exact absurd ‹_› hscheme.1
    · exact absurd ‹_› hscheme.2
    · rfl
  rw [hnew, ← framed_eq hmessage]
  rfl

theorem outcome_reading {before : List (Option Bytes)} {chunk b : Bytes}
    (hchunks : some [] ∉ before ++ [some chunk]) (hshort : body (received before) = none)
    (henough : body (received before ++ chunk) = some b) :
    outcome resume { resolver, state := .tcpRead [] } (before ++ [some chunk]) = some (.ok b) := by
  have hbefore : some [] ∉ before := fun h => hchunks (by simp [h])
  have hchunk : chunk ≠ [] := fun h => hchunks (by simp [h])
  rw [(reading_run hbefore hshort).2, List.nil_append, outcome, resume_reading_enough hchunk henough]
  rfl

theorem completes_split {b t : Bytes} {args : List (Option Bytes)} (hb : b.length ≤ 65535)
    (hchunks : some [] ∉ args) (hsplit : received args = lengthPrefix b.length ++ b ++ t) :
    ∃ before chunk after, args = before ++ some chunk :: after ∧
      (received before).length < 2 + b.length ∧
      2 + b.length ≤ (received before).length + chunk.length ∧
      yields resume { resolver, state := .tcpRead [] } before =
        List.replicate before.length (.wantsRead resolver) ∧
      outcome resume { resolver, state := .tcpRead [] } (before ++ [some chunk]) = some (.ok b) := by
  have hall : body (received args) = some b := by
    refine @body_enough b t _ [] hb ?_ ?_
    · rw [List.append_nil, hsplit]
    · rw [hsplit]
      simp only [lengthPrefix, List.length_append, List.length_cons, List.length_nil]
      omega
  obtain ⟨before, chunk, after, b', rfl, hshort, henough⟩ := @exists_completing args [] b rfl hall
  rw [received_append, received_cons, Option.getD_some, ← List.append_assoc] at hsplit
  rw [List.nil_append] at hshort henough
  have hmem : some [] ∉ before ++ [some chunk] := by
    intro h
    apply hchunks
    simp only [List.mem_append, List.mem_cons, List.not_mem_nil, or_false] at h ⊢
    exact h.imp_right .inl
  have hlt : (received before).length < 2 + b.length := by
    by_contra hle
    rw [List.append_assoc] at hsplit
    rw [body_enough hb hsplit (by omega)] at hshort
    exact absurd hshort (by simp)
  have hge : 2 + b.length ≤ (received before ++ chunk).length := by
    by_contra hle
    rw [body_short hb hsplit (by omega)] at henough
    exact absurd henough (by simp)
  have hbody : b' = b := by
    rw [body_enough hb hsplit hge] at henough
    exact (Option.some.inj henough).symm
  subst hbody
  refine ⟨before, chunk, after, rfl, hlt, ?_, ?_, outcome_reading hmem hshort henough⟩
  · rwa [List.length_append] at hge
  · exact (reading_run (fun h => hmem (List.mem_append_left _ h)) hshort).1

theorem eof_before_end {b t rest : Bytes} {before : List (Option Bytes)} (hb : b.length ≤ 65535)
    (hchunks : some [] ∉ before) (hsplit : received before ++ rest = lengthPrefix b.length ++ b ++ t)
    (hshort : (received before).length < 2 + b.length) :
    outcome resume { resolver, state := .tcpRead [] } (before ++ [some []]) = some (.error .eof) := by
  have hbody : body (received before) = none := body_short hb hsplit hshort
  rw [(reading_run hchunks hbody).2, outcome, resume_reading_eof]
  rfl

theorem completes_endless {inputs : Nat → Option Bytes} (hchunks : ∀ n, inputs n ≠ some [])
    (hendless : ∀ k, ∃ n ≥ k, inputs n ≠ none) :
    ∃ n b, outcome resume { resolver, state := .tcpRead [] } ((List.range n).map inputs) = some (.ok b) ∧
      reads ((List.range n).map inputs) ≤ 65537 := by
  have hmany : ∀ k, ∃ n, k ≤ reads ((List.range n).map inputs) := by
    intro k
    induction k with
    | zero => exact ⟨0, Nat.zero_le _⟩
    | succ k ih =>
      obtain ⟨n, hn⟩ := ih
      obtain ⟨m, hm, hsome⟩ := hendless n
      have hle : reads ((List.range n).map inputs) ≤ reads ((List.range m).map inputs) :=
        ((List.range_sublist.mpr hm).map inputs).countP_le
      obtain ⟨chunk, hchunk⟩ := Option.ne_none_iff_exists'.mp hsome
      refine ⟨m + 1, ?_⟩
      have hreads : reads ((List.range (m + 1)).map inputs) =
          reads ((List.range m).map inputs) + 1 := by
        simp [reads, List.range_succ, hchunk]
      omega
  obtain ⟨n, hn⟩ := hmany 65537
  have hall : some [] ∉ (List.range n).map inputs := by
    intro h
    obtain ⟨m, -, hm⟩ := List.mem_map.mp h
    exact hchunks m hm
  -- so many reads are more than an incomplete response takes
  obtain ⟨b, hb⟩ : ∃ b, body (received ((List.range n).map inputs)) = some b := by
    rw [← Option.isSome_iff_exists, Option.isSome_iff_ne_none]
    intro hshort
    have := reads_le hall hshort
    omega
  obtain ⟨before, chunk, after, b', hsplit, hshort, henough⟩ :=
    @exists_completing ((List.range n).map inputs) [] b rfl hb
  rw [List.nil_append] at hshort henough
  have hstart : (List.range (before.length + 1)).map inputs = before ++ [some chunk] := by
    have hlen := congrArg List.length hsplit
    have htake := congrArg (List.take (before.length + 1)) hsplit
    rw [List.length_map, List.length_range, List.length_append, List.length_cons] at hlen
    rw [← List.map_take, List.take_range, Nat.min_eq_left (by omega)] at htake
    rw [htake, List.take_append, List.take_of_length_le (by omega)]
    simp
  have hmem : some [] ∉ before ++ [some chunk] := by
    rw [← hstart]
    intro h
    obtain ⟨m, -, hm⟩ := List.mem_map.mp h
    exact hchunks m hm
  have hle := reads_le (fun h => hmem (List.mem_append_left _ h)) hshort
  refine ⟨before.length + 1, b', ?_, ?_⟩
  · rw [hstart]
    exact outcome_reading hmem hshort henough
  · have hreads : reads (before ++ [some chunk]) = reads before + 1 := by simp [reads]
    rw [hstart]
    omega

end
end DiscoveryDnsExchange

open DiscoveryDnsExchange in
/-- DNS over TCP: the message is written once, framed, and the framed response is read back however
it is cut into chunks. -/
theorem dnsExchange_framing [IoHttpCrate] (message : Bytes) (resolver : Url)
    (hmessage : message.length ≤ 65535)
    (hscheme : resolver.scheme ≠ "http" ∧ resolver.scheme ≠ "https") :
    ∃ reading : DiscoveryDnsExchange,
      (∀ arg, (new message resolver).resume arg =
        .yielded (.wantsWrite resolver (lengthPrefix message.length ++ message)) reading) ∧
      (∀ args, ∀ y ∈ yields resume reading args, y = .wantsRead resolver) ∧
      (∀ (b t : Bytes) (args : List (Option Bytes)), b.length ≤ 65535 → some [] ∉ args →
        received args = lengthPrefix b.length ++ b ++ t →
        ∃ before chunk after, args = before ++ some chunk :: after ∧
          (received before).length < 2 + b.length ∧
          2 + b.length ≤ (received before).length + chunk.length ∧
          yields resume reading before = List.replicate before.length (.wantsRead resolver) ∧
          outcome resume reading (before ++ [some chunk]) = some (.ok b)) ∧
      (∀ (b t rest : Bytes) (before : List (Option Bytes)), b.length ≤ 65535 → some [] ∉ before →
        received before ++ rest = lengthPrefix b.length ++ b ++ t →
        (received before).length < 2 + b.length →
        outcome resume reading (before ++ [some []]) = some (.error .eof)) ∧
      ∀ inputs : Nat → Option Bytes, (∀ n, inputs n ≠ some []) → (∀ k, ∃ n ≥ k, inputs n ≠ none) →
        ∃ n b, outcome resume reading ((List.range n).map inputs) = some (.ok b) ∧
          reads ((List.range n).map inputs) ≤ 65537 := by
  refine ⟨{ resolver, state := .tcpRead [] }, ?_, ?_, ?_, ?_, ?_⟩
  · intro arg
    exact resume_new hmessage hscheme arg
  · intro args
    exact yields_reading _ ⟨[], rfl⟩
  · intro b t args hb hchunks hsplit
    exact completes_split hb hchunks hsplit
  · intro b t rest before hb hchunks hsplit hshort
    exact eof_before_end hb hchunks hsplit hshort
  · intro inputs hchunks hendless
    exact completes_endless hchunks hendless

theorem dnsExchange_framing_example :
    letI := plainHttp
    ∃ reading : DiscoveryDnsExchange,
      (∀ arg, (DiscoveryDnsExchange.new [7, 8, 9] exampleResolver).resume arg =
        .yielded (.wantsWrite exampleResolver [0, 3, 7, 8, 9]) reading) ∧
      ∃ before chunk after,
        [none, some [0], none, some [2, 5], some [6, 4]] = before ++ some chunk :: after ∧
        outcome DiscoveryDnsExchange.resume reading (before ++ [some chunk]) = some (.ok [5, 6]) := by
  obtain ⟨reading, hwrite, -, hread, -⟩ :=
    @dnsExchange_framing plainHttp [7, 8, 9] exampleResolver (by decide) (by decide)
  obtain ⟨before, chunk, after, hsplit, -, -, -, hend⟩ :=
    hread [5, 6] [4] [none, some [0], none, some [2, 5], some [6, 4]] (by decide) (by decide) rfl
  exact ⟨reading, hwrite, before, chunk, after, hsplit, hend⟩

end PimDiscovery
