import PimDiscovery.Cli.Commands
import PimDiscovery.Compose.Summed

/-! `all`: the raw composition, printed by domain, beside what the commands of the domains list. -/

namespace PimDiscovery
open Interaction DiscoveryComposeClientStd

namespace Cli

structure AllCommand where
  email : String
  server : ServerArg

def AllCommand.execute [UrlCrate] [PslCrate] (self : AllCommand) : Compose Listing :=
  match self.server.client with
  | .error err => pure (.error err)
  | .ok client => do
    match ← client.composeRaw self.email ∅ with
    | .error err => pure (.error (.client err))
    | .ok configs => pure (.ok configs)

namespace AllOutput

/-- A JMAP session stands under EMAIL alone, not under every domain. -/
def domains : List (String × List DiscoveryService) :=
  [("EMAIL", [.imap, .pop3, .smtp, .jmap, .managesieve, .gmail, .msgraph]),
    ("CALENDAR", [.caldav, .gcal, .msgraphCalendar]),
    ("CONTACT", [.carddav, .gpeople, .msgraphContacts]),
    ("FILE", [.webdav])]

def sections (configs : List DiscoveryServiceConfig) : List (String × List DiscoveryServiceConfig) :=
  (domains.map fun domain => (domain.1, only configs domain.2)).filter fun domain => !domain.2.isEmpty

end AllOutput

def Command.Concerns (email : String) : Command → Prop
  | .email command => command.args.email = email
  | .calendar command => domainPart command.args.domain = domainPart email
  | .contact command => domainPart command.args.domain = domainPart email
  | .file command => domainPart command.args.domain = domainPart email

/-- An address with no blanks around it or around its domain, and the domain read as itself. -/
structure PlainAddress (email : String) : Prop where
  trimmed : Text.trim email = email
  parts : ∃ localPart domain, Text.splitOnce email '@' = some (localPart, domain) ∧
    Text.trim domain = domain
  domain : domainPart (domainPart email) = domainPart email

section
variable {α : Type*} [BEq α] [LawfulBEq α]

theorem count_flatMap_filter (groups : List (α → Bool)) (values : List α) (value : α) :
    (groups.flatMap fun holds => values.filter holds).count value =
      groups.countP (fun holds => holds value) * values.count value := by
  induction groups with
  | nil => simp
  | cons holds groups ih =>
    rw [List.flatMap_cons, List.count_append, ih, List.countP_cons, Nat.add_mul, Nat.add_comm]
    congr 1
    by_cases h : holds value = true
    · rw [List.count_filter h, if_pos h, Nat.one_mul]
    · rw [if_neg h, Nat.zero_mul, List.count_eq_zero]
      exact fun hmem => h (List.mem_filter.mp hmem).2

theorem flatMap_filter_perm {groups : List (α → Bool)} {values : List α}
    (h : ∀ value ∈ values, groups.countP (fun holds => holds value) = 1) :
    (groups.flatMap fun holds => values.filter holds).Perm values := by
  rw [List.perm_iff_count]
  intro value
  rw [count_flatMap_filter]
  by_cases hmem : value ∈ values
  · rw [h value hmem, Nat.one_mul]
  · rw [List.count_eq_zero.mpr hmem, Nat.mul_zero]

end

theorem domains_partition (service : DiscoveryService) :
    AllOutput.domains.countP (fun domain => domain.2.contains service) = 1 := by
  cases service <;> rfl

theorem flatMap_nonempty (sections : List (String × List DiscoveryServiceConfig)) :
    (sections.filter fun domain => !domain.2.isEmpty).flatMap (·.2) = sections.flatMap (·.2) := by
  induction sections with
  | nil => rfl
  | cons domain domains ih =>
    obtain ⟨label, configs⟩ := domain
    cases configs with
    | nil => exact ih
    | cons config configs => exact congrArg ((config :: configs) ++ ·) ih

theorem sections_perm (configs : List DiscoveryServiceConfig) :
    ((AllOutput.sections configs).flatMap (·.2)).Perm configs := by
  have hgroups : (AllOutput.sections configs).flatMap (·.2) =
      (AllOutput.domains.map fun domain (config : DiscoveryServiceConfig) =>
        domain.2.contains config.service).flatMap fun holds => configs.filter holds := by
    rw [AllOutput.sections, flatMap_nonempty, List.flatMap_map, List.flatMap_map]
    rfl
  rw [hgroups]
  apply flatMap_filter_perm
  intro config _
  rw [List.countP_map]
  exact domains_partition config.service

section
variable [UrlCrate] [PslCrate] (client : DiscoveryComposeClientStd) (net : ∀ job : Job, job.Answer)

theorem parts_subperm (email : String) :
    ∀ work ∈ [DiscoveryComposeClientStd.provider email, client.pacc email, client.autoconfig email,
        DiscoveryComposeClientStd.srv email, client.dav email .caldav, client.dav email .carddav,
        client.jmap email],
      (work.eval net).Subperm (client.summed net email) := by
  have hflatten : client.summed net email =
      [(DiscoveryComposeClientStd.provider email).eval net, (client.pacc email).eval net,
        client.located net email, (DiscoveryComposeClientStd.srv email).eval net,
        (client.dav email .caldav).eval net, (client.dav email .carddav).eval net,
        (client.jmap email).eval net].flatten := by
    simp [summed]
  have hpart : ∀ {part : List DiscoveryServiceConfig} {parts : List (List DiscoveryServiceConfig)},
      part ∈ parts → part.Subperm parts.flatten := fun h => (List.sublist_flatten_of_mem h).subperm
  rw [hflatten]
  simp only [List.forall_mem_cons, List.not_mem_nil, false_imp_iff, implies_true, and_true]
  refine ⟨hpart (by simp), hpart (by simp), ?_, hpart (by simp), hpart (by simp), hpart (by simp),
    hpart (by simp)⟩
  exact located_perm.symm.subperm.trans (hpart (by simp))

omit [UrlCrate] [PslCrate] in
theorem known_sublist (email : String) :
    ((DiscoveryComposeClientStd.isGoogle email).eval net).Sublist
        ((DiscoveryComposeClientStd.provider email).eval net) ∧
      ((DiscoveryComposeClientStd.isMicrosoft email).eval net).Sublist
        ((DiscoveryComposeClientStd.provider email).eval net) := by
  unfold DiscoveryComposeClientStd.isGoogle DiscoveryComposeClientStd.isMicrosoft
    DiscoveryComposeClientStd.provider
  simp only [Prog.eval_bind]
  cases (detectProvider email).eval net with
  | none => exact ⟨List.Sublist.refl _, List.Sublist.refl _⟩
  | some provider =>
    cases provider with
    | google => exact ⟨List.Sublist.refl _, List.nil_sublist _⟩
    | microsoft => exact ⟨List.nil_sublist _, List.Sublist.refl _⟩

theorem mechanisms_subperm {command : Command} {email : String} (h : command.Concerns email) :
    ∀ work ∈ command.mechanisms client, (work.eval net).Subperm (client.summed net email) := by
  have hparts := parts_subperm client net email
  simp only [List.forall_mem_cons, List.not_mem_nil, false_imp_iff, implies_true, and_true] at hparts
  obtain ⟨hprovider, hpacc, hautoconfig, hsrv, hcaldav, hcarddav, hjmap⟩ := hparts
  have hread : ∀ {input}, domainPart input = domainPart email →
      ((client.pacc input).eval net).Subperm (client.summed net email) ∧
        ((client.jmap input).eval net).Subperm (client.summed net email) ∧
        ∀ service, ((client.dav input service).eval net).Subperm (client.summed net email) := by
    intro input hinput
    unfold DiscoveryComposeClientStd.pacc DiscoveryComposeClientStd.jmap DiscoveryComposeClientStd.dav
    rw [hinput]
    refine ⟨hpacc, hjmap, fun service => ?_⟩
    cases service with
    | caldav => exact hcaldav
    | carddav => exact hcarddav
  cases command with
  | email command =>
    obtain rfl := h
    obtain ⟨hgoogle, hmicrosoft⟩ := known_sublist net command.args.email
    cases command with
    | first args =>
      simp only [Command.mechanisms, EmailCommand.mechanisms, EmailFamily.chained, List.map_cons,
        List.map_nil, List.forall_mem_cons, List.not_mem_nil, false_imp_iff, implies_true, and_true]
      exact ⟨hprovider, hautoconfig, hpacc, hsrv, hjmap⟩
    | isGoogle args => exact List.forall_mem_singleton.mpr (hgoogle.subperm.trans hprovider)
    | isMicrosoft args => exact List.forall_mem_singleton.mpr (hmicrosoft.subperm.trans hprovider)
    | autoconfig args => exact List.forall_mem_singleton.mpr hautoconfig
    | srv args => exact List.forall_mem_singleton.mpr hsrv
    | pacc args => exact List.forall_mem_singleton.mpr hpacc
    | jmap args => exact List.forall_mem_singleton.mpr hjmap
  | calendar command =>
    obtain ⟨hpacc, hjmap, hdav⟩ := hread h
    cases command with
    | first args =>
      exact List.forall_mem_cons.mpr ⟨hdav .caldav, List.forall_mem_cons.mpr
        ⟨hpacc, List.forall_mem_singleton.mpr hjmap⟩⟩
    | dav args => exact List.forall_mem_singleton.mpr (hdav .caldav)
    | pacc args => exact List.forall_mem_singleton.mpr hpacc
    | jmap args => exact List.forall_mem_singleton.mpr hjmap
  | contact command =>
    obtain ⟨hpacc, hjmap, hdav⟩ := hread h
    cases command with
    | first args =>
      exact List.forall_mem_cons.mpr ⟨hdav .carddav, List.forall_mem_cons.mpr
        ⟨hpacc, List.forall_mem_singleton.mpr hjmap⟩⟩
    | dav args => exact List.forall_mem_singleton.mpr (hdav .carddav)
    | pacc args => exact List.forall_mem_singleton.mpr hpacc
    | jmap args => exact List.forall_mem_singleton.mpr hjmap
  | file command =>
    obtain ⟨hpacc, -, -⟩ := hread h
    exact List.forall_mem_singleton.mpr hpacc

omit [PslCrate] in
theorem ServerArg.list_eval (server : ServerArg) (input : String)
    (body : DiscoveryComposeClientStd → Work (List DiscoveryServiceConfig)) {client}
    (hclient : server.client = .ok client) :
    (server.list input body).eval net =
      (((client.checkResolver input).eval net).mapError .client).map fun _ => (body client).eval net := by
  rw [ServerArg.list, ServerArg.checkedClient]
  simp only [hclient, Prog.eval_bind]
  cases (client.checkResolver input).eval net with
  | error err => rfl
  | ok => simp only [Prog.return_eq, Prog.eval_pure, Prog.eval_bind, Except.mapError, Except.map]

omit [UrlCrate] [PslCrate] in
variable {net} in
theorem Tries.subperm {keeps : DiscoveryService → Bool} {mechanisms : List (Work (List DiscoveryServiceConfig))}
    {work : Work (List DiscoveryServiceConfig)} {whole : List DiscoveryServiceConfig}
    (h : Tries net keeps mechanisms work)
    (hwhole : ∀ mechanism ∈ mechanisms, (mechanism.eval net).Subperm whole) :
    (work.eval net).Subperm whole := by
  rw [h.eval]
  cases hfind : (mechanisms.map (kept net keeps)).find? fun configs => !configs.isEmpty with
  | none => exact List.nil_subperm
  | some configs =>
    obtain ⟨mechanism, hmem, rfl⟩ := List.mem_map.mp (List.mem_of_find?_eq_some hfind)
    exact List.filter_sublist.subperm.trans (hwhole mechanism hmem)

theorem AllCommand.execute_eval (self : AllCommand) (hclient : self.server.client = .ok client)
    (hemail : PlainAddress self.email) :
    self.execute.eval (client.answers net) =
      (((client.checkResolver (domainPart self.email)).eval net).mapError .client).map fun _ =>
        (client.summed net self.email).map (client.passed (client.answers net)) := by
  obtain ⟨localPart, domain, hinput, hdomain⟩ := hemail.parts
  have hall : ∀ service, (DiscoveryConfigCollector.new ∅).wants service = true := fun _ => rfl
  have hraw := eval_composeRaw_all client net ∅ hinput hemail.trimmed hdomain
  simp only [hall, List.filter_true] at hraw
  rw [AllCommand.execute]
  simp only [hclient, Prog.eval_bind, hraw]
  cases (client.checkResolver (domainPart self.email)).eval net <;> rfl

omit client [PslCrate] in
theorem ServerArg.list_refused {server : ServerArg} {err : Error} (h : server.client = .error err)
    (input : String) (body : DiscoveryComposeClientStd → Work (List DiscoveryServiceConfig)) :
    (server.list input body).eval net = .error err := by
  rw [ServerArg.list, ServerArg.checkedClient]
  simp only [h, Prog.eval_bind]
  rfl

omit client in
/-- `all` covers the commands of the domains: given the same flags and address, it fails where one of
them does, and otherwise its sections hold all that any of them lists, each config passed on, none lost
on the way and none printed twice. -/
theorem all_covers (all : AllCommand) (command : Command) (hserver : command.server = all.server)
    (hemail : PlainAddress all.email) (hconcerns : command.Concerns all.email) :
    (∀ err, all.server.client = .error err →
      command.execute.eval net = .error err ∧ ∀ answers, all.execute.eval answers = .error err) ∧
    ∀ client, all.server.client = .ok client →
      (∀ err, command.execute.eval net = .error err ↔
        all.execute.eval (client.answers net) = .error err) ∧
      ∀ configs everything, command.execute.eval net = .ok configs →
        all.execute.eval (client.answers net) = .ok everything →
          (configs.map (client.passed (client.answers net))).Subperm everything ∧
            ((AllOutput.sections everything).flatMap (·.2)).Perm everything := by
  obtain ⟨body, hexecute, htries⟩ := execute_tries net command
  rw [hexecute, hserver]
  refine ⟨fun err hrefused => ⟨ServerArg.list_refused net hrefused _ _, fun answers => ?_⟩,
    fun client hclient => ?_⟩
  · rw [AllCommand.execute]
    simp only [hrefused]
    rfl
  have hinput : domainPart command.input = domainPart all.email := by
    cases command with
    | email command => exact congrArg domainPart hconcerns
    | calendar command | contact command | file command => exact hconcerns
  have hcheck : client.checkResolver command.input = client.checkResolver (domainPart all.email) :=
    checkResolver_alike_iff.mpr (hinput.trans hemail.domain.symm) client
  rw [all.server.list_eval net command.input body hclient, hcheck, all.execute_eval client net hclient hemail]
  cases (client.checkResolver (domainPart all.email)).eval net with
  | error err =>
    refine ⟨fun err' => Iff.rfl, ?_⟩
    intro configs everything hconfigs
    cases hconfigs
  | ok =>
    constructor
    · intro err
      constructor <;>
        · intro h
          cases h
    · intro configs everything hconfigs heverything
      obtain rfl := Except.ok.inj hconfigs
      obtain rfl := Except.ok.inj heverything
      obtain ⟨part, hperm, hpart⟩ := (htries client).subperm (mechanisms_subperm client net hconcerns)
      exact ⟨⟨part.map _, hperm.map _, hpart.map _⟩, sections_perm _⟩

omit net [UrlCrate] [PslCrate] client in
theorem all_covers_calendar :
    letI := plainUrl
    letI := plainPsl
    let server : ServerArg := ⟨"127.0.0.1:53", false⟩
    let client := DiscoveryComposeClientStd.new { exampleResolver with host := some "127.0.0.1" }
    let all : AllCommand := ⟨"user@example.org", server⟩
    let command := Command.calendar (.first ⟨"example.org", server⟩)
    let net := DiscoveryComposeClientStd.calendarNet
    ∃ configs everything, command.execute.eval net = .ok configs ∧ configs.length = 1 ∧
      all.execute.eval (client.answers net) = .ok everything ∧ everything.length = 2 ∧
      (configs.map (client.passed (client.answers net))).Subperm everything ∧
      ((AllOutput.sections everything).flatMap (·.2)).Perm everything := by
  let _ := plainUrl
  let _ := plainPsl
  let server : ServerArg := ⟨"127.0.0.1:53", false⟩
  let client := DiscoveryComposeClientStd.new { exampleResolver with host := some "127.0.0.1" }
  let all : AllCommand := ⟨"user@example.org", server⟩
  let command := Command.calendar (.first ⟨"example.org", server⟩)
  let net := DiscoveryComposeClientStd.calendarNet
  have hclient : all.server.client = .ok client := by decide +kernel
  have hemail : PlainAddress all.email :=
    ⟨by decide, ⟨"user", "example.org", by decide, by decide⟩, by decide⟩
  have hconcerns : command.Concerns all.email :=
    show domainPart "example.org" = domainPart "user@example.org" by decide
  have hone : (command.execute.eval net).map List.length = .ok 1 := by decide +kernel
  have htwo : (all.execute.eval (client.answers net)).map List.length = .ok 2 := by decide +kernel
  cases hlisted : command.execute.eval net with
  | error err =>
    rw [hlisted] at hone
    cases hone
  | ok configs =>
    cases hall : all.execute.eval (client.answers net) with
    | error err =>
      rw [hall] at htwo
      cases htwo
    | ok everything =>
      rw [hlisted] at hone
      rw [hall] at htwo
      exact ⟨configs, everything, hlisted, Except.ok.inj hone, hall, Except.ok.inj htwo,
        ((all_covers net all command rfl hemail hconcerns).2 client hclient).2 configs everything
          hlisted hall⟩

end

end Cli
end PimDiscovery
