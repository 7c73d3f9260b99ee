import PimDiscovery.Interaction.Runs
import PimDiscovery.PlainNet
import PimDiscovery.Shared.Walk

/-! The redirect walk on the exchanges it makes: which requests it sends, what it yields meanwhile, and
how it ends. -/

namespace PimDiscovery
open Interaction

section
variable [IoHttpCrate]

structure HopExchange where
  request : HttpRequest
  used : List (Option Bytes)
  answer : Except String HttpWellKnownOutput

namespace HopExchange
variable (self : HopExchange)

def Complete : Prop :=
  outcome (resumeHop self.request.url) (IoHttpCrate.newWellKnown self.request)
    (none :: self.used) = some self.answer

def yields : List DiscoveryYield :=
  Interaction.yields (resumeHop self.request.url) (IoHttpCrate.newWellKnown self.request)
    (none :: self.used)

def target : Option Url :=
  match self.answer with
  | .ok output => output.redirectUrl
  | .error _ => none

def result (hops : Nat) : WalkResult :=
  match self.answer with
  | .error err => .error err
  | .ok output =>
    match output.redirectUrl with
    | some _ => .ok none
    | none => .ok (some { url := self.request.url, hops, response := output.response })

section
variable {self} (hops : Nat)

omit [IoHttpCrate] in
theorem result_failed {err : String} (h : self.answer = .error err) : self.result hops = .error err := by
  simp only [result, h]

omit [IoHttpCrate] in
theorem result_moved {output : HttpWellKnownOutput} {next : Url} (h : self.answer = .ok output)
    (hnext : output.redirectUrl = some next) : self.result hops = .ok none := by
  simp only [result, h, hnext]

omit [IoHttpCrate] in
theorem result_stays {output : HttpWellKnownOutput} (h : self.answer = .ok output)
    (hstay : output.redirectUrl = none) : self.result hops =
      .ok (some { url := self.request.url, hops, response := output.response }) := by
  simp only [result, h, hstay]

end

theorem yields_url : ∀ y ∈ self.yields, y.url = self.request.url :=
  mem_yields fun _ _ _ _ => resumeHop_url

def turn (walk : WalkRole) (hops : Nat) : Turn Exchange Exchange.Answer Bytes where
  question := .hop walk hops self.request
  answer := self.answer
  used := self.used

end HopExchange

inductive Redirected : HttpRequest → List HopExchange → HttpRequest → Prop where
  | refl (request : HttpRequest) : Redirected request [] request
  | redirected {request last : HttpRequest} {used : List (Option Bytes)}
      {output : HttpWellKnownOutput} {next : Url} {rest : List HopExchange}
      (h : HopExchange.Complete { request, used, answer := .ok output })
      (hnext : output.redirectUrl = some next)
      (hrest : Redirected { request with url := next } rest last) :
      Redirected request ({ request, used, answer := .ok output } :: rest) last

namespace Redirected
variable {request last : HttpRequest} {redirects : List HopExchange}

theorem request_eq (h : Redirected request redirects last) :
    last = { request with url := last.url } ∧
      ∀ exchange ∈ redirects, exchange.request = { request with url := exchange.request.url } := by
  induction h with
  | refl request => exact ⟨rfl, List.forall_mem_nil _⟩
  | redirected _ _ _ ih => exact ⟨ih.1, List.forall_mem_cons.mpr ⟨rfl, ih.2⟩⟩

theorem urls_eq (h : Redirected request redirects last) :
    redirects.map (·.request.url) ++ [last.url] = request.url :: redirects.filterMap (·.target) := by
  induction h with
  | refl request => rfl
  | @redirected request last used output next rest _ hnext _ ih =>
    have htarget : HopExchange.target { request, used, answer := .ok output } = some next := hnext
    rw [List.map_cons, List.cons_append, ih, List.filterMap_cons, htarget]

end Redirected

variable [DomainCrate]

namespace DiscoveryHttpWalk
variable (walk : WalkRole)

def turnsFrom : Nat → List HopExchange → List (Turn Exchange Exchange.Answer Bytes)
  | _, [] => []
  | hops, exchange :: rest => exchange.turn walk hops :: turnsFrom (hops + 1) rest

omit [IoHttpCrate] [DomainCrate] in
theorem inputs_turnsFrom (hops : Nat) (made : List HopExchange) :
    inputs (turnsFrom walk hops made) = made.flatMap (·.used) := by
  induction made generalizing hops with
  | nil => rfl
  | cons exchange rest ih =>
    rw [List.flatMap_cons, ← ih (hops + 1)]
    rfl

theorem yields_turnsFrom (hops : Nat) (made : List HopExchange) :
    (turnsFrom walk hops made).flatMap (·.yields exchanges) = made.flatMap (·.yields) := by
  induction made generalizing hops with
  | nil => rfl
  | cons exchange rest ih =>
    rw [List.flatMap_cons, ← ih (hops + 1)]
    rfl

omit [IoHttpCrate] [DomainCrate] in
theorem turnsFrom_append (hops : Nat) (made rest : List HopExchange) :
    turnsFrom walk hops (made ++ rest) =
      turnsFrom walk hops made ++ turnsFrom walk (hops + made.length) rest := by
  induction made generalizing hops with
  | nil => rfl
  | cons exchange made ih =>
    rw [List.length_cons, Nat.add_comm made.length, ← Nat.add_assoc]
    exact congrArg (exchange.turn walk hops :: ·) (ih (hops + 1))

theorem reaches_last {request last : HttpRequest} {redirects : List HopExchange}
    (h : Redirected request redirects last) {hops : Nat} (hhops : hops + redirects.length ≤ maxHops) :
    Reaches exchanges (programFrom walk hops request) (turnsFrom walk hops redirects)
      (programFrom walk (hops + redirects.length) last) := by
  induction h generalizing hops with
  | refl request => exact .refl _
  | @redirected request last used output next rest hcomplete hnext _ ih =>
    rw [List.length_cons, Nat.add_comm rest.length, ← Nat.add_assoc] at hhops ⊢
    have hrest := ih hhops
    rw [programFrom]
    have hturn : Turn.Complete exchanges
        (HopExchange.turn { request, used, answer := .ok output } walk hops) := hcomplete
    apply Reaches.turn hturn
    simp only [HopExchange.turn, hnext, show ¬ hops ≥ maxHops by omega, if_false]
    exact hrest

structure Ends (request : HttpRequest) (made : List HopExchange) (result : WalkResult) : Prop where
  outcome : outcome resume (new request) (none :: made.flatMap (·.used)) = some result
  yields : yields resume (new request) (none :: made.flatMap (·.used)) = made.flatMap (·.yields)

theorem ends_of_reaches {request : HttpRequest} {made : List HopExchange} {result : WalkResult}
    (h : Reaches exchanges (program walk request) (turnsFrom walk 0 made) (.pure result)) :
    Ends request made result := by
  have hruns := (refines walk).runs (toProc_new walk request) h
  refine ⟨?_, ?_⟩
  · rw [← inputs_turnsFrom walk 0]
    exact hruns.outcome
  · rw [← inputs_turnsFrom walk 0, ← yields_turnsFrom walk 0]
    exact hruns.yields

/-- A walk ends with the exchange after its redirects, unless that redirects within the limit. -/
theorem ends_of_last {request : HttpRequest} {redirects : List HopExchange} {final : HopExchange}
    (hredirects : Redirected request redirects final.request) (hfinal : final.Complete)
    (hlength : redirects.length ≤ maxHops)
    (hended : ∀ next, final.target = some next → redirects.length = maxHops) :
    Ends request (redirects ++ [final]) (final.result redirects.length) := by
  have hturn : Turn.Complete exchanges (final.turn .origin redirects.length) := hfinal
  have hlast : Reaches exchanges (programFrom .origin redirects.length final.request)
      [final.turn .origin redirects.length] (.pure (final.result redirects.length)) := by
    rw [programFrom]
    apply Reaches.turn hturn
    cases hanswer : final.answer with
    | error err =>
      simp only [HopExchange.turn, hanswer, HopExchange.result_failed _ hanswer]
      exact .refl _
    | ok output =>
      cases hnext : output.redirectUrl with
      | none =>
        simp only [HopExchange.turn, hanswer, hnext, HopExchange.result_stays _ hanswer hnext]
        exact .refl _
      | some next =>
        have hlimit := hended next (by rw [HopExchange.target, hanswer, ← hnext])
        simp only [HopExchange.turn, hanswer, hnext, HopExchange.result_moved _ hanswer hnext, hlimit,
          ge_iff_le, le_refl, if_true]
        exact .refl _
  apply ends_of_reaches .origin
  rw [turnsFrom_append, Nat.zero_add]
  have hfollowed := reaches_last .origin hredirects (show 0 + redirects.length ≤ maxHops by omega)
  rw [Nat.zero_add] at hfollowed
  exact hfollowed.trans hlast

/-- A walk that follows `k` redirects, at most five, ends with the response after them and where it
came from; it gives up at the sixth redirect and fails with the first exchange that fails. Its
requests differ in the URL only, and all it yields during one carries the URL of that one. -/
theorem follows_redirects {request : HttpRequest} {redirects : List HopExchange}
    {final : HopExchange} (hredirects : Redirected request redirects final.request)
    (hfinal : final.Complete) :
    (∀ output, final.answer = .ok output → output.redirectUrl = none → redirects.length ≤ 5 →
      Ends request (redirects ++ [final]) (.ok (some
        { url := final.request.url, hops := redirects.length, response := output.response }))) ∧
    (∀ output next, final.answer = .ok output → output.redirectUrl = some next →
      redirects.length = 5 → Ends request (redirects ++ [final]) (.ok none)) ∧
    (∀ err, final.answer = .error err → redirects.length ≤ 5 →
      Ends request (redirects ++ [final]) (.error err)) ∧
    (redirects ++ [final]).map (·.request.url) = request.url :: redirects.filterMap (·.target) ∧
    ∀ exchange ∈ redirects ++ [final],
      exchange.request = { request with url := exchange.request.url } ∧
        ∀ y ∈ exchange.yields, y.url = exchange.request.url := by
  refine ⟨fun output hanswer hstay hlength => ?_, fun output next hanswer hnext hlength => ?_,
    fun err hanswer hlength => ?_, ?_, fun exchange hexchange => ⟨?_, exchange.yields_url⟩⟩
  · have hended : ∀ next, final.target = some next → redirects.length = maxHops := by
      simp [HopExchange.target, hanswer, hstay]
    have hends := ends_of_last hredirects hfinal hlength hended
    rwa [HopExchange.result_stays _ hanswer hstay] at hends
  · have hends := ends_of_last hredirects hfinal hlength.le fun _ _ => hlength
    rwa [HopExchange.result_moved _ hanswer hnext] at hends
  · have hended : ∀ next, final.target = some next → redirects.length = maxHops := by
      simp [HopExchange.target, hanswer]
    have hends := ends_of_last hredirects hfinal hlength hended
    rwa [HopExchange.result_failed _ hanswer] at hends
  · rw [List.map_append]
    exact hredirects.urls_eq
  · obtain ⟨hlast, hearlier⟩ := hredirects.request_eq
    rcases List.mem_append.mp hexchange with he | he
    · exact hearlier exchange he
    · obtain rfl := List.mem_singleton.mp he
      exact hlast

end DiscoveryHttpWalk
end

namespace DiscoveryHttpWalk

def movedReply : Bytes := Text.bytes "HTTP/1.1 301 Moved Permanently\r\nLocation: /dav/\r\n\r\n"

def foundReply : Bytes := Text.bytes "HTTP/1.1 207 Multi-Status\r\n\r\n"

theorem follows_one_redirect :
    letI := plainUrl
    letI := plainDns
    letI := plainHttp
    outcome resume (new (HttpRequest.get exampleOrigin))
      [none, none, some movedReply, none, some foundReply] =
        some (.ok (some
          { url := { exampleOrigin with path := "/dav/" }, hops := 1
            response := { status := 207, headers := [], body := [] } })) := by
  let _ := plainUrl
  let _ := plainDns
  let _ := plainHttp
  let moved : HopExchange :=
    { request := HttpRequest.get exampleOrigin, used := [none, some movedReply]
      answer := .ok
        { redirectUrl := some { exampleOrigin with path := "/dav/" }
          response := { status := 301, headers := [("location", "/dav/")], body := [] } } }
  let found : HopExchange :=
    { request := HttpRequest.get { exampleOrigin with path := "/dav/" }
      used := [none, some foundReply]
      answer := .ok
        { redirectUrl := none, response := { status := 207, headers := [], body := [] } } }
  have hmoved : moved.Complete := by
    unfold HopExchange.Complete
    decide +kernel
  have hfound : found.Complete := by
    unfold HopExchange.Complete
    decide +kernel
  have hchain : Redirected (HttpRequest.get exampleOrigin) [moved] found.request :=
    .redirected hmoved rfl (.refl _)
  exact ((follows_redirects hchain hfound).1 _ rfl rfl (by decide)).outcome

end DiscoveryHttpWalk

end PimDiscovery
