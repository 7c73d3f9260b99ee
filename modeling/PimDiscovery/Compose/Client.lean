import PimDiscovery.Compose.Collect
import PimDiscovery.Compose.Mechanisms

/-! The orchestration of the compose client: the plan, the fan-outs over threads, and the passes over
the configs they report. -/

namespace PimDiscovery
open Interaction

inductive TaskKind where
  | check | mechanism | davRoot | schemes | issuer | resource
  deriving DecidableEq, Repr

@[reducible] def TaskKind.Result : TaskKind → Type
  | check => Except DiscoveryComposeClientStdError Unit
  | mechanism => List DiscoveryServiceConfig
  | davRoot => Option Url
  | schemes => Option (List String)
  | issuer => String × List DiscoveryAuthMethod
  | resource => Option (String × DiscoveryOauthResourceMetadata)

inductive Task : TaskKind → Type where
  | check (domain : String) : Task .check
  | mechanism (mechanism : Mechanism) (localPart domain email : String) : Task .mechanism
  | davRoot (service : DiscoveryDavService) (origin : Url) : Task .davRoot
  | schemes (urls : List Url) : Task .schemes
  | issuer (issuer : String) : Task .issuer
  | resource (raw : String) (url : Url) : Task .resource

/-- What the client asks of the threads and the clock, with times in nanoseconds. The threads of a
scope share nothing, so one question stands for both the spawn and the join of one. -/
inductive Effect where
  | run (job : Job)
  | join (kind : TaskKind) (task : Task kind)
  | spawn (kind : TaskKind) (index : Nat) (task : Task kind)
  /-- `recv_timeout` on the channel these tasks report to. -/
  | recv (kind : TaskKind) (tasks : List (Task kind)) (remaining : Nat)
  | now

/-- A join fails when the thread panicked, a receive when nothing came in time. -/
@[reducible] def Effect.Answer : Effect → Type
  | run job => job.Answer
  | join kind _ => Option kind.Result
  | spawn _ _ _ => Unit
  | recv kind _ _ => Option (Nat × kind.Result)
  | now => Nat

abbrev Compose (α : Type) : Type := Prog Effect Effect.Answer α

namespace Compose
variable {kind : TaskKind}

def ask (effect : Effect) : Compose effect.Answer := Prog.call effect

def inline {α : Type} (work : Work α) : Compose α := work.interpret fun job => ask (.run job)

def scope (tasks : List (Task kind)) : Compose (List (Option kind.Result)) :=
  Prog.forEach tasks fun task => ask (.join kind task)

def spawnFrom : Nat → List (Task kind) → Compose Unit
  | _, [] => pure ()
  | index, task :: tasks => do
    ask (.spawn kind index task)
    spawnFrom (index + 1) tasks

/-- Up to so many receives, each bounded by what is left until `stop`. -/
def receive (tasks : List (Task kind)) (stop : Nat) :
    Nat → List (Option kind.Result) → Compose (List (Option kind.Result))
  | 0, results => pure results
  | count + 1, results => do
    let now ← ask .now
    -- Past the deadline, reports that wait in the channel are left there.
    if stop - now = 0 then return results
    match ← ask (.recv kind tasks (stop - now)) with
    | some (index, value) => receive tasks stop count (results.set index (some value))
    | none => return results

def collectWithin (tasks : List (Task kind)) (deadline : Nat) :
    Compose (List (Option kind.Result)) := do
  spawnFrom 0 tasks
  let now ← ask .now
  receive tasks (now + deadline) tasks.length (tasks.map fun _ => none)

end Compose

def debugFraction (width fraction : Nat) : String :=
  let digits := ((toString (Nat.pow 10 width + fraction)).toList.drop 1).rdropWhile (· == '0')
  if digits.isEmpty then "" else "." ++ String.ofList digits

/-- The `Debug` text of a `Duration`. -/
def debugDuration (duration : Nat) : String :=
  if 1000000000 ≤ duration then
    toString (duration / 1000000000) ++ debugFraction 9 (duration % 1000000000) ++ "s"
  else if 1000000 ≤ duration then
    toString (duration / 1000000) ++ debugFraction 6 (duration % 1000000) ++ "ms"
  else if 1000 ≤ duration then
    toString (duration / 1000) ++ debugFraction 3 (duration % 1000) ++ "µs"
  else toString duration ++ "ns"

/-- A `BTreeSet` of strings, in its iteration order. -/
def btreeSet (strings : List String) : List String := strings.dedup.mergeSort (· ≤ ·)

structure Plan where
  providerOutput : Option (List DiscoveryServiceConfig)
  localPart : String
  domain : String
  mechanisms : List Mechanism
  deriving DecidableEq, Repr

namespace Plan

/-- The mechanisms relevant to the wanted services, in priority order. -/
def mechanismsFor (provider : Option DiscoveryKnownProvider) (services : Finset DiscoveryService) :
    List Mechanism :=
  let wants service := (DiscoveryConfigCollector.new services).wants service
  let wantsMail := wants .imap || wants .pop3 || wants .smtp
  -- A domain with a fixed rule needs no MX lookup to find one.
  (if provider.isNone then [.mx] else []) ++
  [.pacc] ++
  (if wantsMail then [.ispMain, .ispFallback, .mailconf, .ispdb, .mxAutoconfig] else []) ++
  (if wants .imap || wants .smtp then [.srv] else []) ++
  (if wants .caldav then [.caldav] else []) ++
  (if wants .carddav then [.carddav] else []) ++
  (if wants .jmap then [.jmap] else [])

@[irreducible] def of (email : String) (services : Finset DiscoveryService) :
    Except DiscoveryComposeClientStdError Plan :=
  let email := Text.trim email
  match Text.splitOnce email '@' with
  | none => .error (.invalidEmail email)
  | some (localPart, domain) =>
    let domain := Text.toAsciiLowercase (Text.trimMatches domain '.')
    let provider := DiscoveryKnownProvider.fromDomain domain
    .ok
      { providerOutput := provider.map (·.configs email), localPart, domain
        mechanisms := mechanismsFor provider services }

def tasks (plan : Plan) (email : String) : List (Task .mechanism) :=
  plan.mechanisms.map fun mechanism =>
    .mechanism mechanism plan.localPart plan.domain (Text.trim email)

def outputs (plan : Plan) (reports : List (Option (List DiscoveryServiceConfig))) :
    List (List DiscoveryServiceConfig) :=
  plan.providerOutput.toList ++ reports.map (·.getD [])

end Plan

abbrev ComposeResult : Type := Except DiscoveryComposeClientStdError (List DiscoveryServiceConfig)

abbrev OutputsResult : Type :=
  Except DiscoveryComposeClientStdError (List (List DiscoveryServiceConfig))

namespace DiscoveryComposeClientStd
variable [UrlCrate] (self : DiscoveryComposeClientStd)

def taskBody [PslCrate] : {kind : TaskKind} → Task kind → Work kind.Result
  | _, .check domain => self.checkResolver domain
  | _, .mechanism mechanism localPart domain email =>
    self.runMechanism mechanism localPart domain email
  | _, .davRoot service origin => probeDavRoot service origin
  | _, .schemes urls => probeSchemes urls
  | _, .issuer issuer => do pure (issuer, ← resolveIssuer issuer)
  | _, .resource raw url => do pure ((← oauthResource url).map (raw, ·))

def parallelOutputs (email : String) (services : Finset DiscoveryService) :
    Compose OutputsResult := do
  match Plan.of email services with
  | .error err => return .error err
  | .ok plan =>
    match ← Compose.inline (self.checkResolver plan.domain) with
    | .error err => return .error err
    | .ok () =>
      let reports ← Compose.scope (plan.tasks email)
      return .ok (plan.outputs reports)

def parallelOutputsWithin (email : String) (services : Finset DiscoveryService) (deadline : Nat) :
    Compose OutputsResult := do
  match Plan.of email services with
  | .error err => return .error err
  | .ok plan =>
    let started ← Compose.ask .now
    let checks ← Compose.collectWithin [.check plan.domain] deadline
    -- The one check: none when it panicked or did not answer in time.
    match checks.getLast?.join with
    | none => return .error (.resolver self.dns ("no answer within " ++ debugDuration deadline))
    | some (.error err) => return .error err
    | some (.ok ()) =>
      let now ← Compose.ask .now
      let reports ← Compose.collectWithin (plan.tasks email) (deadline - (now - started))
      return .ok (plan.outputs reports)

def davTargets (outputs : List (List DiscoveryServiceConfig)) : List (DiscoveryDavService × Url) :=
  (outputs.flatten.filterMap davRootTarget).foldl
    (fun targets target => if targets.contains target then targets else targets ++ [target]) []

def setDavRoot (rootOf : DiscoveryDavService × Url → Option Url) (config : DiscoveryServiceConfig) :
    DiscoveryServiceConfig :=
  match (davRootTarget config).bind rootOf with
  | none => config
  | some root =>
    -- A plain root is dropped, and the config keeps the origin it advertised.
    if self.secureOnly && root.scheme != "https" then config
    else { config with endpoint := .http (UrlCrate.asStr root), resolved := true }

def resolveDavRoots (outputs : List (List DiscoveryServiceConfig)) (deadline : Option Nat) :
    Compose (List (List DiscoveryServiceConfig)) := do
  let targets := davTargets outputs
  if targets.isEmpty then return outputs
  let tasks := targets.map fun target => Task.davRoot target.1 target.2
  let reports ← match deadline with
    | some deadline => Compose.collectWithin tasks deadline
    | none => Compose.scope tasks
  let roots := reports.map (·.join)
  let rootOf target := ((targets.findIdx? (· == target)).bind (roots[·]?)).join
  return outputs.map (·.map (self.setDavRoot rootOf))

def refineProbed (config : DiscoveryServiceConfig) (schemes : Option (List String)) :
    DiscoveryServiceConfig :=
  match schemes with
  | some schemes => config.refineAuth schemes
  | none => config

def probe (configs : List DiscoveryServiceConfig) : Compose (List DiscoveryServiceConfig) := do
  let schemes ← Compose.scope (configs.map fun config => Task.schemes config.probeUrls)
  return (configs.zip schemes).map fun (config, schemes) => refineProbed config schemes.join

def issuersOf (configs : List DiscoveryServiceConfig) : List String :=
  btreeSet <| (configs.flatMap (·.auth)).filterMap fun method =>
    match method with
    | .oauthIssuer issuer => some issuer
    | _ => none

def resolveMethod (methodsOf : String → Option (List DiscoveryAuthMethod)) :
    DiscoveryAuthMethod → List DiscoveryAuthMethod
  | .oauthIssuer issuer =>
    match methodsOf issuer with
    | some methods => methods
    | none => [.oauthIssuer issuer]
  | method => [method]

def setIssuers (methodsOf : String → Option (List DiscoveryAuthMethod))
    (config : DiscoveryServiceConfig) : DiscoveryServiceConfig :=
  { config with auth := config.auth.flatMap (resolveMethod methodsOf) }

def resolveIssuers (configs : List DiscoveryServiceConfig) :
    Compose (List DiscoveryServiceConfig) := do
  let issuers := issuersOf configs
  if issuers.isEmpty then return configs
  let joined ← Compose.scope (issuers.map Task.issuer)
  let resolved := joined.filterMap id
  return configs.map (setIssuers (List.lookup · resolved))

def httpEndpoint (config : DiscoveryServiceConfig) : Option String :=
  match config.endpoint with
  | .http url => some url
  | .tcp _ _ _ => none

/-- The fetches of the metadata of the HTTP endpoints that parse, each endpoint once. -/
def resourceTasks (configs : List DiscoveryServiceConfig) : List (Task .resource) :=
  (btreeSet (configs.filterMap httpEndpoint)).filterMap fun raw =>
    match UrlCrate.parse raw with
    | .ok url => some (.resource raw url)
    | .error _ => none

def addIssuers (resourceOf : String → Option DiscoveryOauthResourceMetadata)
    (config : DiscoveryServiceConfig) : DiscoveryServiceConfig :=
  match (httpEndpoint config).bind resourceOf with
  | some metadata => config.addResourceIssuers (metadata.authorizationServers.map UrlCrate.asStr)
  | none => config

def bindResources (resourceOf : String → Option DiscoveryOauthResourceMetadata)
    (config : DiscoveryServiceConfig) : DiscoveryServiceConfig :=
  match (httpEndpoint config).bind resourceOf with
  | some metadata =>
    config.setOauthResource (UrlCrate.asStr metadata.resource) metadata.scopesSupported
  | none => config

def resolveOauth (configs : List DiscoveryServiceConfig) :
    Compose (List DiscoveryServiceConfig) := do
  -- The resources go first: they name issuers, and bind the grants found for them.
  let fetched ← Compose.scope (resourceTasks configs)
  let resources := fetched.filterMap (·.join)
  let configs ← resolveIssuers (configs.map (addIssuers (List.lookup · resources)))
  return configs.map (bindResources (List.lookup · resources))

/-- Collects the outputs in order, up to the first that gives configs when only it is asked for. -/
def collectOutputs (first : Bool) (collector : DiscoveryConfigCollector) :
    List (List DiscoveryServiceConfig) → DiscoveryConfigCollector
  | [] => collector
  | configs :: outputs =>
    let collector := collector.collect configs
    if first && !collector.isEmpty then collector else collectOutputs first collector outputs

def compose (email : String) (services : Finset DiscoveryService) (first : Bool)
    (deadline : Option Nat) : Compose ComposeResult := do
  let started ← Compose.ask .now
  let result ← match deadline with
    | some deadline => self.parallelOutputsWithin email services deadline
    | none => self.parallelOutputs email services
  match result with
  | .error err => return .error err
  | .ok outputs =>
    -- Root resolution gets what the fan-out left of the deadline; the passes have none.
    let left ← match deadline with
      | some deadline => do
        let now ← Compose.ask .now
        pure (some (deadline - (now - started)))
      | none => pure none
    let outputs ← self.resolveDavRoots outputs left
    let collector := collectOutputs first (DiscoveryConfigCollector.new services) outputs
    let configs ← probe collector.finish
    let configs ← resolveOauth configs
    return .ok configs

def composeAll (email : String) (services : Finset DiscoveryService) : Compose ComposeResult :=
  self.compose email services false none

def composeAllWithin (email : String) (services : Finset DiscoveryService) (deadline : Nat) :
    Compose ComposeResult :=
  self.compose email services false (some deadline)

def composeFirst (email : String) (services : Finset DiscoveryService) : Compose ComposeResult :=
  self.compose email services true none

def composeRaw (email : String) (services : Finset DiscoveryService) : Compose ComposeResult := do
  match ← self.parallelOutputs email services with
  | .error err => return .error err
  | .ok outputs =>
    let outputs ← self.resolveDavRoots outputs none
    -- Nothing is merged or probed: each config stays as its mechanism reported it.
    let configs := outputs.flatten.filter fun config =>
      services = ∅ || config.service ∈ services
    return .ok (← resolveOauth configs)

end DiscoveryComposeClientStd

inductive ConfigEntry where
  | composeAll (email : String) (services : Finset DiscoveryService)
  | composeAllWithin (email : String) (services : Finset DiscoveryService) (deadline : Nat)
  | composeFirst (email : String) (services : Finset DiscoveryService)
  | composeRaw (email : String) (services : Finset DiscoveryService)
  | provider (email : String)
  | isGoogle (email : String)
  | isMicrosoft (email : String)
  | autoconfig (email : String)
  | srv (input : String)
  | pacc (input : String)
  | dav (input : String) (service : DiscoveryDavService)
  | jmap (input : String)

def Compose.single (work : Work (List DiscoveryServiceConfig)) : Compose ComposeResult := do
  return .ok (← Compose.inline work)

open DiscoveryComposeClientStd in
def ConfigEntry.program [UrlCrate] [PslCrate] (client : DiscoveryComposeClientStd) :
    ConfigEntry → Compose ComposeResult
  | composeAll email services => client.composeAll email services
  | composeAllWithin email services deadline => client.composeAllWithin email services deadline
  | composeFirst email services => client.composeFirst email services
  | composeRaw email services => client.composeRaw email services
  | provider email => Compose.single (DiscoveryComposeClientStd.provider email)
  | isGoogle email => Compose.single (DiscoveryComposeClientStd.isGoogle email)
  | isMicrosoft email => Compose.single (DiscoveryComposeClientStd.isMicrosoft email)
  | autoconfig email => Compose.single (client.autoconfig email)
  | srv input => Compose.single (DiscoveryComposeClientStd.srv input)
  | pacc input => Compose.single (client.pacc input)
  | dav input service => Compose.single (client.dav input service)
  | jmap input => Compose.single (client.jmap input)

end PimDiscovery
