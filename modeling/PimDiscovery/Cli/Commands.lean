import PimDiscovery.Cli.Domain

/-! The commands of a domain: each checks the resolver it was given, then tries its mechanisms in order,
up to the first that reports a config of the domain. -/

namespace PimDiscovery
open Interaction

namespace Cli

def calendarServices : List DiscoveryService := [.caldav, .jmap, .gcal, .msgraphCalendar]

def contactServices : List DiscoveryService := [.carddav, .jmap, .gpeople, .msgraphContacts]

def fileServices : List DiscoveryService := [.webdav]

inductive Error where
  | server (err : String)
  | client (err : DiscoveryComposeClientStdError)
  deriving DecidableEq

structure ServerArg where
  server : String
  secureOnly : Bool
  deriving DecidableEq

structure EmailArgs where
  email : String
  server : ServerArg

structure DomainArgs where
  domain : String
  server : ServerArg

inductive EmailCommand where
  | first (args : EmailArgs)
  | isGoogle (args : EmailArgs)
  | isMicrosoft (args : EmailArgs)
  | autoconfig (args : EmailArgs)
  | srv (args : EmailArgs)
  | pacc (args : EmailArgs)
  | jmap (args : EmailArgs)

inductive FileCommand where
  | first (args : DomainArgs)
  | pacc (args : DomainArgs)

inductive CalendarCommand where
  | first (args : DomainArgs)
  | dav (args : DomainArgs)
  | pacc (args : DomainArgs)
  | jmap (args : DomainArgs)

inductive ContactCommand where
  | first (args : DomainArgs)
  | dav (args : DomainArgs)
  | pacc (args : DomainArgs)
  | jmap (args : DomainArgs)

inductive Command where
  | email (command : EmailCommand)
  | calendar (command : CalendarCommand)
  | contact (command : ContactCommand)
  | file (command : FileCommand)

def whenNone (services : List DiscoveryService) (configs : List DiscoveryServiceConfig)
    (mechanism : Work (List DiscoveryServiceConfig)) : Work (List DiscoveryServiceConfig) :=
  if configs.isEmpty then do pure (only (← mechanism) services) else pure configs

abbrev Listing : Type := Except Error (List DiscoveryServiceConfig)

section
variable [UrlCrate]

/-- A value that carries a scheme is a URL already. -/
def resolverUrl (server : String) : Except String Url :=
  if "://".toList <:+: server.toList then UrlCrate.parse server
  else UrlCrate.parse ("tcp://" ++ server)

def ServerArg.client (self : ServerArg) : Except Error DiscoveryComposeClientStd :=
  match resolverUrl self.server with
  | .ok dns => .ok ((DiscoveryComposeClientStd.new dns).withSecureOnly self.secureOnly)
  | .error err => .error (.server err)

def ServerArg.checkedClient (self : ServerArg) (input : String) :
    Work (Except Error DiscoveryComposeClientStd) :=
  match self.client with
  | .error err => pure (.error err)
  | .ok client => do
    match ← client.checkResolver input with
    | .error err => pure (.error (.client err))
    | .ok () => pure (.ok client)

def ServerArg.list (self : ServerArg) (input : String)
    (body : DiscoveryComposeClientStd → Work (List DiscoveryServiceConfig)) : Work Listing := do
  match ← self.checkedClient input with
  | .error err => pure (.error err)
  | .ok client => do pure (.ok (← body client))

def firstDav (client : DiscoveryComposeClientStd) (domain : String) (service : DiscoveryDavService)
    (services : List DiscoveryService) : Work (List DiscoveryServiceConfig) := do
  let configs := only (← client.dav domain service) services
  let configs ← whenNone services configs (client.pacc domain)
  whenNone services configs (client.jmap domain)

section
variable [PslCrate]

def EmailCommand.execute : EmailCommand → Work Listing
  | first args => args.server.list args.email fun client => firstEmail client args.email
  | isGoogle args =>
    args.server.list args.email fun _ => DiscoveryComposeClientStd.isGoogle args.email
  | isMicrosoft args =>
    args.server.list args.email fun _ => DiscoveryComposeClientStd.isMicrosoft args.email
  | autoconfig args =>
    args.server.list args.email fun client => do
      pure (only (← client.autoconfig args.email) emailServices)
  | srv args =>
    args.server.list args.email fun _ => do
      pure (only (← DiscoveryComposeClientStd.srv args.email) emailServices)
  | pacc args =>
    args.server.list args.email fun client => do pure (only (← client.pacc args.email) emailServices)
  | jmap args =>
    args.server.list args.email fun client => do pure (only (← client.jmap args.email) emailServices)

end

/-- PACC is the one mechanism that advertises file storage. -/
def FileCommand.execute : FileCommand → Work Listing
  | first args | pacc args =>
    args.server.list args.domain fun client => do pure (only (← client.pacc args.domain) fileServices)

def CalendarCommand.execute : CalendarCommand → Work Listing
  | first args =>
    args.server.list args.domain fun client => firstDav client args.domain .caldav calendarServices
  | dav args =>
    args.server.list args.domain fun client => do
      pure (only (← client.dav args.domain .caldav) calendarServices)
  | pacc args =>
    args.server.list args.domain fun client => do
      pure (only (← client.pacc args.domain) calendarServices)
  | jmap args =>
    args.server.list args.domain fun client => do
      pure (only (← client.jmap args.domain) calendarServices)

def ContactCommand.execute : ContactCommand → Work Listing
  | first args =>
    args.server.list args.domain fun client => firstDav client args.domain .carddav contactServices
  | dav args =>
    args.server.list args.domain fun client => do
      pure (only (← client.dav args.domain .carddav) contactServices)
  | pacc args =>
    args.server.list args.domain fun client => do
      pure (only (← client.pacc args.domain) contactServices)
  | jmap args =>
    args.server.list args.domain fun client => do
      pure (only (← client.jmap args.domain) contactServices)

def Command.execute [PslCrate] : Command → Work Listing
  | email command => command.execute
  | calendar command => command.execute
  | contact command => command.execute
  | file command => command.execute

end

/-! What the commands stand for: mechanisms, and the services of which they list the configs. -/

namespace EmailCommand

def args : EmailCommand → EmailArgs
  | first args | isGoogle args | isMicrosoft args | autoconfig args | srv args | pacc args
  | jmap args => args

def mechanisms [UrlCrate] [PslCrate] (client : DiscoveryComposeClientStd) (email : String) :
    EmailCommand → List (Work (List DiscoveryServiceConfig))
  | first _ => EmailFamily.chained.map (EmailFamily.work client email)
  | isGoogle _ => [DiscoveryComposeClientStd.isGoogle email]
  | isMicrosoft _ => [DiscoveryComposeClientStd.isMicrosoft email]
  | autoconfig _ => [client.autoconfig email]
  | srv _ => [DiscoveryComposeClientStd.srv email]
  | pacc _ => [client.pacc email]
  | jmap _ => [client.jmap email]

/-- The fixed configs of a provider are listed whole. -/
def Lists : EmailCommand → DiscoveryService → Bool
  | isGoogle _, _ | isMicrosoft _, _ => true
  | first _, service | autoconfig _, service | srv _, service | pacc _, service | jmap _, service =>
    emailServices.contains service

end EmailCommand

def FileCommand.args : FileCommand → DomainArgs
  | first args | pacc args => args

def CalendarCommand.args : CalendarCommand → DomainArgs
  | first args | dav args | pacc args | jmap args => args

def ContactCommand.args : ContactCommand → DomainArgs
  | first args | dav args | pacc args | jmap args => args

namespace Command

def server : Command → ServerArg
  | email command => command.args.server
  | calendar command => command.args.server
  | contact command => command.args.server
  | file command => command.args.server

def input : Command → String
  | email command => command.args.email
  | calendar command => command.args.domain
  | contact command => command.args.domain
  | file command => command.args.domain

def Lists : Command → DiscoveryService → Bool
  | email command, service => command.Lists service
  | calendar _, service => calendarServices.contains service
  | contact _, service => contactServices.contains service
  | file _, service => fileServices.contains service

def mechanisms [UrlCrate] [PslCrate] (command : Command) (client : DiscoveryComposeClientStd) :
    List (Work (List DiscoveryServiceConfig)) :=
  let input := command.input
  match command with
  | email command => command.mechanisms client input
  | calendar (.first _) => [client.dav input .caldav, client.pacc input, client.jmap input]
  | calendar (.dav _) => [client.dav input .caldav]
  | contact (.first _) => [client.dav input .carddav, client.pacc input, client.jmap input]
  | contact (.dav _) => [client.dav input .carddav]
  | calendar (.pacc _) | contact (.pacc _) | file _ => [client.pacc input]
  | calendar (.jmap _) | contact (.jmap _) => [client.jmap input]

end Command

section
variable (net : ∀ job : Job, job.Answer) (keeps : DiscoveryService → Bool)

def kept (mechanism : Work (List DiscoveryServiceConfig)) : List DiscoveryServiceConfig :=
  (mechanism.eval net).filter fun config => keeps config.service

def tried : List (Work (List DiscoveryServiceConfig)) → List (Work (List DiscoveryServiceConfig))
  | [] => []
  | mechanism :: mechanisms =>
    mechanism :: if (kept net keeps mechanism).isEmpty then tried mechanisms else []

/-- Mechanisms are tried in order: the result is what the first reports that reports any, and the jobs are
those of the mechanisms up to that one. -/
structure Tries (mechanisms : List (Work (List DiscoveryServiceConfig)))
    (work : Work (List DiscoveryServiceConfig)) : Prop where
  eval : work.eval net =
    ((mechanisms.map (kept net keeps)).find? fun configs => !configs.isEmpty).getD []
  asked : work.asked net = (tried net keeps mechanisms).flatMap (·.asked net)

variable {net keeps}

theorem Tries.of_keeps {mechanisms : List (Work (List DiscoveryServiceConfig))}
    {work : Work (List DiscoveryServiceConfig)} (h : Tries net keeps mechanisms work) :
    ∀ config ∈ work.eval net, keeps config.service = true := by
  rw [h.eval]
  cases hfind : (mechanisms.map (kept net keeps)).find? fun configs => !configs.isEmpty with
  | none => simp
  | some configs =>
    obtain ⟨mechanism, -, rfl⟩ := List.mem_map.mp (List.mem_of_find?_eq_some hfind)
    exact fun config hconfig => (List.mem_filter.mp hconfig).2

end

section
variable (net : ∀ job : Job, job.Answer) (services : List DiscoveryService)

def chain : List (Work (List DiscoveryServiceConfig)) → List DiscoveryServiceConfig →
    Work (List DiscoveryServiceConfig)
  | [], configs => pure configs
  | mechanism :: mechanisms, configs => whenNone services configs mechanism >>= chain mechanisms

theorem chain_of_ne_nil {configs : List DiscoveryServiceConfig} (h : configs ≠ [])
    (mechanisms : List (Work (List DiscoveryServiceConfig))) :
    chain services mechanisms configs = Prog.pure configs := by
  have hempty : ¬ configs.isEmpty = true := by simpa using h
  induction mechanisms with
  | nil => rfl
  | cons mechanism mechanisms ih =>
    rw [chain, whenNone, if_neg hempty]
    exact ih

theorem chain_cons_nil (mechanism : Work (List DiscoveryServiceConfig))
    (mechanisms : List (Work (List DiscoveryServiceConfig))) :
    chain services (mechanism :: mechanisms) [] =
      mechanism >>= fun configs => chain services mechanisms (only configs services) := by
  rw [chain, whenNone, List.isEmpty_nil, if_pos rfl, bind_assoc]
  rfl

theorem chain_tries (mechanisms : List (Work (List DiscoveryServiceConfig))) :
    Tries net services.contains mechanisms (chain services mechanisms []) := by
  induction mechanisms with
  | nil => exact ⟨rfl, rfl⟩
  | cons mechanism mechanisms ih =>
    have hkept : only (mechanism.eval net) services = kept net services.contains mechanism := rfl
    rw [chain_cons_nil]
    by_cases hnil : kept net services.contains mechanism = []
    · constructor
      · rw [Prog.eval_bind, hkept, hnil, ih.eval, List.map_cons,
          List.find?_cons_of_neg (by simp [hnil])]
      · rw [Prog.asked_bind, hkept, hnil, ih.asked, tried, hnil, List.isEmpty_nil, if_pos rfl,
          List.flatMap_cons]
    · have hempty : (kept net services.contains mechanism).isEmpty = false := by simpa using hnil
      constructor
      · rw [Prog.eval_bind, hkept, chain_of_ne_nil services hnil, List.map_cons,
          List.find?_cons_of_pos (by simp [hempty])]
        rfl
      · rw [Prog.asked_bind, hkept, chain_of_ne_nil services hnil, tried, hempty,
          if_neg Bool.false_ne_true]
        rfl

theorem only_chain (mechanism : Work (List DiscoveryServiceConfig)) :
    (do pure (only (← mechanism) services)) = chain services [mechanism] [] := by
  rw [chain_cons_nil]
  rfl

variable [UrlCrate] (client : DiscoveryComposeClientStd)

theorem firstDav_chain (domain : String) (service : DiscoveryDavService) :
    firstDav client domain service services =
      chain services [client.dav domain service, client.pacc domain, client.jmap domain] [] := by
  rw [chain_cons_nil]
  simp only [chain, bind_pure]
  rfl

theorem firstEmail_chain [PslCrate] (email : String) :
    firstEmail client email =
      chain emailServices (EmailFamily.chained.map (EmailFamily.work client email)) [] := by
  rw [EmailFamily.chained, List.map_cons, chain_cons_nil]
  simp only [List.map_cons, List.map_nil, chain, bind_pure]
  rfl

omit services [UrlCrate] in
theorem whole_tries (mechanism : Work (List DiscoveryServiceConfig)) :
    Tries net (fun _ => true) [mechanism] mechanism where
  eval := by
    have hkept : kept net (fun _ => true) mechanism = mechanism.eval net := List.filter_eq_self.mpr fun _ _ => rfl
    rw [List.map_singleton, hkept]
    cases mechanism.eval net <;> rfl
  asked := by
    rw [tried, List.flatMap_cons]
    split <;> simp [tried]

/-- Every command lists what its mechanisms report, with the client of its flags. -/
theorem execute_tries [PslCrate] (command : Command) :
    ∃ body : DiscoveryComposeClientStd → Work (List DiscoveryServiceConfig),
      command.execute = command.server.list command.input body ∧
        ∀ client, Tries net command.Lists (command.mechanisms client) (body client) := by
  have honly := fun services mechanism => only_chain services mechanism ▸ chain_tries net services [mechanism]
  cases command with
  | email command =>
    cases command with
    | first args => exact ⟨_, rfl, fun client => firstEmail_chain client args.email ▸ chain_tries net _ _⟩
    | isGoogle args | isMicrosoft args => exact ⟨_, rfl, fun _ => whole_tries net _⟩
    | autoconfig args | srv args | pacc args | jmap args => exact ⟨_, rfl, fun _ => honly _ _⟩
  | calendar command =>
    cases command with
    | first args => exact ⟨_, rfl, fun client => firstDav_chain _ client args.domain _ ▸ chain_tries net _ _⟩
    | dav args | pacc args | jmap args => exact ⟨_, rfl, fun _ => honly _ _⟩
  | contact command =>
    cases command with
    | first args => exact ⟨_, rfl, fun client => firstDav_chain _ client args.domain _ ▸ chain_tries net _ _⟩
    | dav args | pacc args | jmap args => exact ⟨_, rfl, fun _ => honly _ _⟩
  | file command =>
    cases command with
    | first args | pacc args => exact ⟨_, rfl, fun _ => honly _ _⟩

/-- A command lists nothing before the resolver it was given has answered: where it is no URL or does not
answer, the command fails and nothing more is asked. After that the mechanisms are tried in order, none
behind the first that reports a config of the command's services, and the configs of these are listed. -/
theorem commands_listed [PslCrate] (command : Command) :
    (∀ err, command.server.client = .error err →
      command.execute.eval net = .error err ∧ command.execute.asked net = []) ∧
    ∀ client, command.server.client = .ok client →
      (∀ err, (client.checkResolver command.input).eval net = .error err →
        command.execute.eval net = .error (.client err) ∧
        command.execute.asked net = (client.checkResolver command.input).asked net) ∧
      ((client.checkResolver command.input).eval net = .ok () → ∃ configs,
        command.execute.eval net = .ok configs ∧
        configs = (((command.mechanisms client).map (kept net command.Lists)).find?
          fun configs => !configs.isEmpty).getD [] ∧
        (∀ config ∈ configs, command.Lists config.service = true) ∧
        command.execute.asked net = (client.checkResolver command.input).asked net ++
          (tried net command.Lists (command.mechanisms client)).flatMap (·.asked net)) := by
  obtain ⟨body, hexecute, htries⟩ := execute_tries net command
  rw [hexecute, ServerArg.list, ServerArg.checkedClient]
  refine ⟨fun err hclient => ?_, fun client hclient => ⟨fun err hcheck => ?_, fun hcheck => ?_⟩⟩
  · simp only [hclient]
    exact ⟨rfl, rfl⟩
  · simp only [hclient, Prog.eval_bind, Prog.asked_bind, hcheck]
    exact ⟨rfl, by simp [Prog.asked]⟩
  · refine ⟨(body client).eval net, ?_, (htries client).eval, (htries client).of_keeps, ?_⟩
    · simp only [hclient, Prog.eval_bind, hcheck, Prog.return_eq, Prog.eval_pure]
    · simp only [hclient, Prog.eval_bind, Prog.asked_bind, hcheck, Prog.return_eq, Prog.eval_pure]
      simp [Prog.asked, (htries client).asked]

omit services net [UrlCrate] in
theorem commands_listed_calendar :
    letI := plainUrl
    letI := plainPsl
    let command := Command.calendar (.first { domain := "example.org", server := ⟨"127.0.0.1:53", false⟩ })
    let net := DiscoveryComposeClientStd.calendarNet
    ∃ configs, command.execute.eval net = .ok configs ∧ configs.length = 1 ∧
      (∀ config ∈ configs, command.Lists config.service = true) ∧
      command.execute.asked net =
        [.check "example.org", .dav "example.org" .caldav, .pacc "example.org"] := by
  let _ := plainUrl
  let _ := plainPsl
  let command := Command.calendar (.first { domain := "example.org", server := ⟨"127.0.0.1:53", false⟩ })
  let net := DiscoveryComposeClientStd.calendarNet
  let client := DiscoveryComposeClientStd.new { exampleResolver with host := some "127.0.0.1" }
  have hclient : command.server.client = .ok client := by decide +kernel
  have hcheck : (client.checkResolver command.input).eval net = .ok () := by decide +kernel
  obtain ⟨configs, hlisted, hconfigs, hservices, -⟩ := ((commands_listed net command).2 client hclient).2 hcheck
  refine ⟨configs, hlisted, ?_, hservices, by decide +kernel⟩
  rw [hconfigs]
  decide +kernel

end
end Cli
end PimDiscovery
