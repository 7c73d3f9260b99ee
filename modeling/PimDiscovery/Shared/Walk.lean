import PimDiscovery.Shared.Exchange

/-! The redirect walk: one request, replayed on every redirect target up to a bound. -/

namespace PimDiscovery
open Interaction
variable [DomainCrate] [IoHttpCrate]

def maxHops : Nat := 5

structure DiscoveryHttpWalkOutput where
  url : Url
  hops : Nat
  response : HttpResponse
  deriving DecidableEq

abbrev WalkResult : Type := Except String (Option DiscoveryHttpWalkOutput)

structure WalksStay (asks : Exchange → Prop) (allowed : ∀ q : Exchange, q.Answer → Prop)
    (good : Url → Prop) : Prop where
  asks : ∀ walk hops request, good request.url → asks (.hop walk hops request)
  redirect : ∀ walk hops request (output : HttpWellKnownOutput), hops < maxHops →
    allowed (.hop walk hops request) (.ok output) → ∀ next, output.redirectUrl = some next → good next

structure DiscoveryHttpWalk where
  request : HttpRequest
  hops : Nat
  send : IoHttpCrate.WellKnown

namespace DiscoveryHttpWalk

def new (request : HttpRequest) : DiscoveryHttpWalk :=
  { request, hops := 0, send := IoHttpCrate.newWellKnown request }

def resume (self : DiscoveryHttpWalk) (arg : Option Bytes) :
    Step DiscoveryYield DiscoveryHttpWalk WalkResult :=
  match IoHttpCrate.resumeWellKnown self.send arg with
  | (.yielded .wantsRead, send) => .yielded (.wantsRead self.request.url) { self with send }
  | (.yielded (.wantsWrite bytes), send) =>
    .yielded (.wantsWrite self.request.url bytes) { self with send }
  | (.complete (.ok output), _) =>
    match output.redirectUrl with
    | some next =>
      -- The bound is tested before the hop is counted: six requests are sent in all.
      if self.hops ≥ maxHops then .complete (.ok none)
      else
        let request := { self.request with url := next }
        resume { request, hops := self.hops + 1, send := IoHttpCrate.newWellKnown request } none
    | none =>
      .complete (.ok (some { url := self.request.url, hops := self.hops, response := output.response }))
  | (.complete (.error err), _) => .complete (.error err)
termination_by maxHops - self.hops

variable (walk : WalkRole)

def programFrom (hops : Nat) (request : HttpRequest) : Protocol WalkResult :=
  Protocol.hop walk hops request fun answer =>
    match answer with
    | .ok output =>
      match output.redirectUrl with
      | some next =>
        if hops ≥ maxHops then .pure (.ok none)
        else programFrom (hops + 1) { request with url := next }
      | none => .pure (.ok (some { url := request.url, hops, response := output.response }))
    | .error err => .pure (.error err)
termination_by maxHops - hops

def program (request : HttpRequest) : Protocol WalkResult := programFrom walk 0 request

def toProc (self : DiscoveryHttpWalk) : ProtocolRun WalkResult :=
  ProtocolRun.hop walk self.hops self.request self.send fun answer =>
    match answer with
    | .ok output =>
      match output.redirectUrl with
      | some next =>
        if self.hops ≥ maxHops then .pure (.ok none)
        else programFrom walk (self.hops + 1) { self.request with url := next }
      | none =>
        .pure (.ok (some { url := self.request.url, hops := self.hops, response := output.response }))
    | .error err => .pure (.error err)

theorem toProc_start (hops : Nat) (request : HttpRequest) :
    (toProc walk { request, hops, send := IoHttpCrate.newWellKnown request }).resume none =
      drive exchanges (programFrom walk hops request) := by
  rw [programFrom, ProtocolRun.drive_hop]
  rfl

theorem toProc_new (request : HttpRequest) :
    (toProc walk (new request)).resume none = drive exchanges (program walk request) :=
  toProc_start walk 0 request

theorem refines : Refines resume (toProc walk) := by
  intro self arg
  induction hn : maxHops - self.hops using Nat.strongRecOn generalizing self arg with
  | ind n ih =>
    unfold resume
    rw [toProc, ProtocolRun.resume_hop, resumeHop]
    obtain ⟨state, send⟩ := IoHttpCrate.resumeWellKnown self.send arg
    rcases state with (_ | _) | (_ | output)
    · rfl
    · rfl
    · rfl
    · simp only [Step.elim]
      cases output.redirectUrl with
      | none => rfl
      | some next =>
        simp only
        split
        · rfl
        · rename_i hlt
          -- The redirected walk is resumed at once, where the program goes on to its next hop.
          rw [ih (maxHops - (self.hops + 1)) (by omega) _ _ rfl]
          exact toProc_start walk _ _

section
variable {asks : Exchange → Prop} {allowed : ∀ q : Exchange, q.Answer → Prop} {good : Url → Prop}

omit [DomainCrate] [IoHttpCrate] in
theorem always (hw : WalksStay asks allowed good) {request : HttpRequest} (h : good request.url) :
    (program walk request).Always asks allowed
      fun result => ∀ output, result = .ok (some output) → good output.url := by
  -- The hops made so far vary along the walk.
  suffices hfrom : ∀ hops request, good request.url →
      (programFrom walk hops request).Always asks allowed
        fun result => ∀ output, result = .ok (some output) → good output.url from hfrom 0 request h
  intro hops request h
  induction hn : maxHops - hops using Nat.strongRecOn generalizing hops request with
  | ind n ih =>
    rw [programFrom]
    refine ⟨hw.asks walk hops request h, fun answer ha => ?_⟩
    rcases answer with err | output
    · simp [Prog.Always]
    · simp only
      split
      · rename_i next hnext
        split
        · simp [Prog.Always]
        · exact ih (maxHops - (hops + 1)) (by omega) _ _
            (hw.redirect walk hops request output (by omega) ha next hnext) rfl
      · simpa [Prog.Always] using h

end

omit [DomainCrate] [IoHttpCrate] in
theorem programFrom_asks {allowed : ∀ q : Exchange, q.Answer → Prop} (hops : Nat)
    (request : HttpRequest) :
    (programFrom walk hops request).Always
      (fun q => ∃ made sent, q = .hop walk made sent ∧ hops ≤ made ∧ (made = hops → sent = request))
      allowed fun _ => True := by
  induction hn : maxHops - hops using Nat.strongRecOn generalizing hops request with
  | ind n ih =>
    rw [programFrom]
    refine ⟨⟨hops, request, rfl, le_rfl, fun _ => rfl⟩, fun answer _ => ?_⟩
    rcases answer with err | output
    · trivial
    · simp only
      split
      · rename_i next _
        split
        · trivial
        · have hrest := ih (maxHops - (hops + 1)) (by omega) (hops + 1)
            { request with url := next } rfl
          apply hrest.weaken
          rintro q ⟨made, sent, rfl, hmade, -⟩
          exact ⟨made, sent, rfl, by omega, fun h => by omega⟩
      · trivial

/-- A walk of a run, from its `hops`-th request to its output: each redirect that was followed led to
the next request. -/
inductive Walked (heard : Hearing) (walk : WalkRole) :
    Nat → HttpRequest → DiscoveryHttpWalkOutput → Prop where
  | ended {hops : Nat} {request : HttpRequest} {output : HttpWellKnownOutput}
      (h : heard (.hop walk hops request) (.ok output)) (hstay : output.redirectUrl = none) :
      Walked heard walk hops request { url := request.url, hops, response := output.response }
  | moved {hops : Nat} {request : HttpRequest} {output : HttpWellKnownOutput} {next : Url}
      {last : DiscoveryHttpWalkOutput} (h : heard (.hop walk hops request) (.ok output))
      (hnext : output.redirectUrl = some next) (hhops : hops < maxHops)
      (hrest : Walked heard walk (hops + 1) { request with url := next } last) :
      Walked heard walk hops request last

omit [DomainCrate] [IoHttpCrate] in
theorem programFrom_walked {heard : Hearing} (hops : Nat) (request : HttpRequest) :
    (programFrom walk hops request).Always (fun _ => True) heard fun result =>
      ∀ output, result = .ok (some output) → Walked heard walk hops request output := by
  induction hn : maxHops - hops using Nat.strongRecOn generalizing hops request with
  | ind n ih =>
    rw [programFrom]
    refine ⟨trivial, fun answer ha => ?_⟩
    rcases answer with err | output
    · exact fun _ => nofun
    · simp only
      cases hnext : output.redirectUrl with
      | none =>
        intro last hlast
        obtain rfl := Option.some.inj (Except.ok.inj hlast)
        exact .ended ha hnext
      | some next =>
        simp only
        split
        · exact fun _ => nofun
        · rename_i hhops
          refine (ih (maxHops - (hops + 1)) (by omega) _ _ rfl).mono fun result hresult => ?_
          exact fun last hlast => .moved ha hnext (by omega) (hresult last hlast)

omit [DomainCrate] [IoHttpCrate] in
theorem program_walked (heard : Hearing) (request : HttpRequest) :
    (program walk request).Always (fun _ => True) heard fun result =>
      ∀ output, result = .ok (some output) → Walked heard walk 0 request output :=
  programFrom_walked walk 0 request

def follow (answer : Nat → HttpRequest → Except String HttpWellKnownOutput) :
    Nat → Nat → HttpRequest → WalkResult
  | left, hops, request =>
    match answer hops request with
    | .error err => .error err
    | .ok output =>
      match output.redirectUrl, left with
      | none, _ => .ok (some { url := request.url, hops, response := output.response })
      | some _, 0 => .ok none
      | some next, left + 1 => follow answer left (hops + 1) { request with url := next }

omit [DomainCrate] [IoHttpCrate] in
theorem eval_programFrom (o : Network) {hops left : Nat} (h : hops + left = maxHops)
    (request : HttpRequest) :
    (programFrom walk hops request).eval o = follow (o.hop walk) left hops request := by
  induction left generalizing hops request with
  | zero =>
    rw [programFrom, follow, Protocol.eval_hop]
    rcases o.hop walk hops request with _ | output
    · rfl
    · cases hr : output.redirectUrl with
      | none => simp [hr]
      | some next => simp [hr, show hops ≥ maxHops by omega]
  | succ left ih =>
    rw [programFrom, follow, Protocol.eval_hop]
    rcases o.hop walk hops request with _ | output
    · rfl
    · cases hr : output.redirectUrl with
      | none => simp [hr]
      | some next =>
        simp only [hr, show ¬ hops ≥ maxHops by omega, if_false]
        exact ih (by omega) _

end DiscoveryHttpWalk

def Network.walk (o : Network) (walk : WalkRole) (request : HttpRequest) : WalkResult :=
  DiscoveryHttpWalk.follow (o.hop walk) maxHops 0 request

omit [DomainCrate] [IoHttpCrate] in
@[simp] theorem DiscoveryHttpWalk.eval_program (o : Network) (walk : WalkRole)
    (request : HttpRequest) : (program walk request).eval o = o.walk walk request :=
  eval_programFrom walk o (Nat.zero_add _) request

end PimDiscovery
