import PimDiscovery.Compose.Restricted
import PimDiscovery.Compose.Threads

/-! The composition within a deadline against the one that waits: whatever the order of the reports, it
gives what the other gives on the reports it has taken. -/

namespace PimDiscovery
open Interaction

/-- Answers that are `o` as far as the reports of a run were taken, and nothing for its other threads. -/
def Reflects (o o' : Answers) (trace : Trace) : Prop :=
  ∀ kind (task : Task kind), ⟨kind, task⟩ ∈ trace.spawned →
    o' (.join kind task) = if ⟨kind, task⟩ ∈ trace.taken then o (.join kind task) else none

structure OnlyOf (kinds : List TaskKind) (trace : Trace) : Prop where
  spawned : ∀ entry ∈ trace.spawned, entry.1 ∈ kinds
  taken : ∀ entry ∈ trace.taken, entry.1 ∈ kinds

section
variable {o o' : Answers} {kinds kinds' : List TaskKind} {trace new : Trace}

theorem OnlyOf.nil (kinds : List TaskKind) : OnlyOf kinds [] :=
  ⟨List.forall_mem_nil _, List.forall_mem_nil _⟩

theorem OnlyOf.mono (h : OnlyOf kinds trace) (hkinds : kinds ⊆ kinds') : OnlyOf kinds' trace :=
  ⟨fun entry he => hkinds (h.spawned entry he), fun entry he => hkinds (h.taken entry he)⟩

theorem OnlyOf.append (h : OnlyOf kinds trace) (hnew : OnlyOf kinds new) :
    OnlyOf kinds (trace ++ new) := by
  refine ⟨fun entry he => ?_, fun entry he => ?_⟩
  · rw [Trace.spawned_append] at he
    exact (List.mem_append.mp he).elim (h.spawned entry) (hnew.spawned entry)
  · rw [Trace.taken_append] at he
    exact (List.mem_append.mp he).elim (h.taken entry) (hnew.taken entry)

theorem Trace.Looked.onlyOf {trace' : Trace} (h : Trace.Looked trace trace')
    (htrace : OnlyOf kinds trace) : OnlyOf kinds trace' := by
  refine ⟨?_, ?_⟩
  · rw [h.spawned]
    exact htrace.spawned
  · rw [h.taken]
    exact htrace.taken

theorem FannedOut.onlyOf {kind : TaskKind} {tasks : List (Task kind)}
    {results : List (Option kind.Result)} (h : FannedOut o tasks new results) :
    OnlyOf [kind] new := by
  refine ⟨fun entry he => ?_, fun entry he => List.mem_singleton.mpr (h.taken entry he)⟩
  rw [h.spawned] at he
  obtain ⟨task, -, rfl⟩ := List.mem_map.mp he
  exact List.mem_singleton_self kind

theorem reflects_late (o : Answers) (trace : Trace) : Reflects o (o.without trace.late) trace := by
  intro kind task hspawned
  show (if _ then _ else _) = _
  by_cases htaken : ⟨kind, task⟩ ∈ trace.taken
  · simp [Trace.late, htaken]
  · simp [Trace.late, htaken, hspawned]

theorem Reflects.left (h : Reflects o o' (trace ++ new)) (htrace : OnlyOf kinds trace)
    (hnew : OnlyOf kinds' new) (hdisjoint : List.Disjoint kinds kinds') : Reflects o o' trace := by
  intro kind task hspawned
  have hnone : ⟨kind, task⟩ ∉ Trace.taken new := fun hmem =>
    hdisjoint (htrace.spawned _ hspawned) (hnew.taken _ hmem)
  have hkept := h kind task (by rw [Trace.spawned_append]; exact List.mem_append_left _ hspawned)
  simpa only [Trace.taken_append, List.mem_append, hnone, or_false] using hkept

theorem Reflects.right (h : Reflects o o' (trace ++ new)) (htrace : OnlyOf kinds trace)
    (hnew : OnlyOf kinds' new) (hdisjoint : List.Disjoint kinds kinds') : Reflects o o' new := by
  intro kind task hspawned
  have hnone : ⟨kind, task⟩ ∉ trace.taken := fun hmem =>
    hdisjoint (htrace.taken _ hmem) (hnew.spawned _ hspawned)
  have hkept := h kind task (by rw [Trace.spawned_append]; exact List.mem_append_right _ hspawned)
  simpa only [Trace.taken_append, List.mem_append, hnone, false_or] using hkept

theorem Reflects.heard (h : Reflects o o' trace) {kind : TaskKind} {tasks : List (Task kind)}
    (hspawned : ∀ task ∈ tasks, ⟨kind, task⟩ ∈ trace.spawned) :
    heard o tasks trace.taken = tasks.map fun task => o' (.join kind task) :=
  List.map_congr_left fun task htask => (h kind task (hspawned task htask)).symm

theorem FannedOut.reflected {kind : TaskKind} {tasks : List (Task kind)}
    {results : List (Option kind.Result)} (h : FannedOut o tasks new results)
    (hreflects : Reflects o o' new) : results = tasks.map fun task => o' (.join kind task) := by
  rw [h.results, hreflects.heard]
  intro task htask
  rw [h.spawned]
  exact List.mem_map_of_mem htask

end

theorem joins_upholds {α : Type} {o : Answers} {kinds : List TaskKind} {p : Compose α}
    (h : p.Always (Effect.Joins kinds) (fun q a => a = o q) fun _ => True) {trace : Trace}
    {t : Threads} : p.Upholds (Threads.Serves o) (fun _ _ _ => True)
      (fun trace' _ a => a = p.eval o ∧ ∃ joins, trace' = trace ++ joins ∧ OnlyOf [] joins ∧
        joins.map (·.question) = p.asked o) trace t := by
  have hanswer : ∀ (t : Threads) (q : Effect) (a : q.Answer) (t' : Threads), Effect.Joins kinds q →
      Threads.Serves o t q a t' → a = o q := by
    rintro t _ a t' ⟨kind, task, -, rfl⟩ hs
    cases hs with
    | join => rfl
  refine (h.upholds_eval hanswer).mono (fun _ _ _ _ => trivial) fun trace' t' a => ?_
  rintro ⟨ha, joins, htrace, hasked⟩
  have hjoins : ∀ moment ∈ joins, Effect.Joins kinds moment.question := by
    intro moment hmoment
    apply h.asked fun _ => rfl
    rw [← hasked]
    exact List.mem_map_of_mem hmoment
  refine ⟨ha, joins, htrace, ⟨?_, ?_⟩, hasked⟩
  · intro entry he
    obtain ⟨moment, hmoment, hentry⟩ := List.mem_filterMap.mp he
    obtain ⟨kind, task, -, hq⟩ := hjoins moment hmoment
    rw [hq] at hentry
    cases hentry
  · intro entry he
    obtain ⟨⟨_, q, _, _⟩, hmoment, hentry⟩ := List.mem_filterMap.mp he
    obtain ⟨kind, task, -, rfl⟩ := hjoins _ hmoment
    cases hentry

namespace DiscoveryComposeClientStd
variable [UrlCrate] (client : DiscoveryComposeClientStd) {o : Answers} {deadline : Nat}

inductive Gathered (o : Answers) (email : String) (services : Finset DiscoveryService)
    (deadline : Nat) (trace : Trace) : OutputsResult → Prop where
  | invalid {err : DiscoveryComposeClientStdError} (hplan : Plan.of email services = .error err) :
      Gathered o email services deadline trace (.error err)
  | unheard {plan : Plan} (hplan : Plan.of email services = .ok plan)
      (hcheck : ⟨.check, .check plan.domain⟩ ∉ trace.taken) :
      Gathered o email services deadline trace
        (.error (.resolver client.dns ("no answer within " ++ debugDuration deadline)))
  | refused {plan : Plan} {err : DiscoveryComposeClientStdError}
      (hplan : Plan.of email services = .ok plan)
      (hcheck : o (.join .check (.check plan.domain)) = some (.error err)) :
      Gathered o email services deadline trace (.error err)
  | gathered {plan : Plan} {reports : List (Option (List DiscoveryServiceConfig))}
      (hplan : Plan.of email services = .ok plan)
      (hcheck : o (.join .check (.check plan.domain)) = some (.ok ()))
      (htaken : ⟨.check, .check plan.domain⟩ ∈ trace.taken)
      (hspawned : ∀ task ∈ plan.tasks email, ⟨.mechanism, task⟩ ∈ trace.spawned)
      (hreports : reports = heard o (plan.tasks email) trace.taken) :
      Gathered o email services deadline trace (.ok (plan.outputs reports))

omit [UrlCrate] in
theorem Gathered.of_ok {email : String} {services : Finset DiscoveryService} {trace : Trace}
    {outputs : List (List DiscoveryServiceConfig)}
    (h : client.Gathered o email services deadline trace (.ok outputs)) :
    ∃ plan, Plan.of email services = .ok plan ∧
      o (.join .check (.check plan.domain)) = some (.ok ()) ∧
      ⟨.check, .check plan.domain⟩ ∈ trace.taken ∧
      (∀ task ∈ plan.tasks email, ⟨.mechanism, task⟩ ∈ trace.spawned) ∧
      outputs = plan.outputs (heard o (plan.tasks email) trace.taken) := by
  cases h with
  | gathered hplan hcheck htaken hspawned hreports =>
    rw [hreports]
    exact ⟨_, hplan, hcheck, htaken, hspawned, rfl⟩

def CheckSpawned (email : String) (services : Finset DiscoveryService) (trace : Trace) : Prop :=
  ∀ plan, Plan.of email services = .ok plan → ⟨.check, .check plan.domain⟩ ∈ trace.spawned

omit [UrlCrate] in
theorem mechanismsWithin_upholds {email : String} {services : Finset DiscoveryService} {plan : Plan}
    (hplan : Plan.of email services = .ok plan)
    (hcheck : o (.join .check (.check plan.domain)) = some (.ok ())) {trace : Trace} {t : Threads}
    (honly : OnlyOf [.check] trace) (htaken : ⟨.check, .check plan.domain⟩ ∈ trace.taken)
    {left : Nat} (hleft : left ≠ 0 → trace.waited + left ≤ deadline) :
    (Compose.collectWithin (plan.tasks email) left >>= fun reports =>
      Prog.pure (.ok (plan.outputs reports))).Upholds (Threads.Serves o)
      (fun trace _ q => q.Affords deadline trace)
      (fun trace' _ result => ∃ new, trace' = trace ++ new ∧ OnlyOf [.mechanism] new ∧
        Trace.Ended o (t.clock + left) new ∧
        client.Gathered o email services deadline trace' result) trace t := by
  refine (Compose.collectWithin_upholds ?_ hleft).bind fun trace' t' reports => ?_
  · exact (Plan.mechanisms_nodup hplan).map fun m m' h => by simpa using h
  · rintro ⟨new, rfl, hnew, hended⟩
    have hother : ∀ entry ∈ trace.taken, entry.1 ≠ TaskKind.mechanism := by
      intro entry he
      rw [List.mem_singleton.mp (honly.taken entry he)]
      decide
    refine ⟨new, rfl, hnew.onlyOf, hended, .gathered hplan hcheck ?_ ?_ ?_⟩
    · rw [Trace.taken_append]
      exact List.mem_append_left _ htaken
    · intro task htask
      rw [Trace.spawned_append, hnew.spawned]
      exact List.mem_append_right _ (List.mem_map_of_mem htask)
    · rw [Trace.taken_append, heard_append hother, hnew.results]

omit [UrlCrate] in
theorem parallelOutputsWithin_upholds (email : String) (services : Finset DiscoveryService)
    {trace : Trace} {t : Threads} (htrace : Trace.Looked [] trace) :
    (client.parallelOutputsWithin email services deadline).Upholds (Threads.Serves o)
      (fun trace _ q => q.Affords deadline trace)
      (fun trace _ result => OnlyOf [.check, .mechanism] trace ∧
        Trace.Ended o (t.clock + deadline) trace ∧ CheckSpawned email services trace ∧
        client.Gathered o email services deadline trace result) trace t := by
  have honly : OnlyOf [.check] trace := htrace.onlyOf (.nil _)
  have hended : Trace.Ended o (t.clock + deadline) trace := htrace.ended (.inr (Trace.settled_nil o))
  unfold parallelOutputsWithin
  cases hplan : Plan.of email services with
  | error err =>
    refine ⟨honly.mono (by simp), hended, ?_, .invalid hplan⟩
    intro plan heq
    rw [hplan] at heq
    cases heq
  | ok plan =>
    apply Compose.now_upholds trivial
    intro before t₁ hbefore hclock hspent
    have hwaited : before.waited = 0 := hbefore.waited.trans htrace.waited
    have hspent : Trace.Spent t₁.clock 0 before t₁ := by
      unfold Trace.Spent
      omega
    have hchecked := @Compose.collectWithin_upholds o _ [.check plan.domain] deadline
      (List.nodup_singleton _) deadline before t₁ fun _ => by omega
    refine (hchecked.keep (fun _ _ _ _ _ hs h => h.step hs) hspent).bind
      fun trace₂ t₂ checks => ?_
    rintro ⟨hspent, first, rfl, hfirst, hfirst'⟩
    have honly : OnlyOf [.check] (before ++ first) := (hbefore.onlyOf honly).append hfirst.onlyOf
    have hlimit : t.clock + deadline ≤ t₁.clock + deadline := Nat.add_le_add_right hclock deadline
    have hended : Trace.Ended o (t.clock + deadline) (before ++ first) :=
      (hbefore.ended hended).append hlimit hfirst'
    have hspawned : CheckSpawned email services (before ++ first) := by
      intro plan' heq
      obtain rfl := Except.ok.inj (hplan.symm.trans heq)
      rw [Trace.spawned_append, hfirst.spawned]
      exact List.mem_append_right _ (List.mem_singleton_self _)
    have htaken : Trace.taken (before ++ first) = Trace.taken first := by
      rw [Trace.taken_append, hbefore.taken, htrace.taken]
      rfl
    -- The check is read off the list as it stands; a check that was not heard fails the run.
    rw [hfirst.last]
    by_cases hheard : ⟨.check, .check plan.domain⟩ ∈ Trace.taken first
    · rw [if_pos hheard]
      cases hcheck : o (.join .check (.check plan.domain)) with
      | none => exact absurd hcheck (hfirst.answered _ hheard)
      | some checked =>
        cases checked with
        | error err => exact ⟨honly.mono (by simp), hended, hspawned, .refused hplan hcheck⟩
        | ok checked =>
          apply Compose.now_upholds trivial
          -- The mechanisms are given what the check has left of the deadline.
          intro trace₃ t₃ hlooked _ hspent₃
          obtain ⟨hleft, hlimit'⟩ := @Trace.Spent.left _ _ deadline _ (hspent₃ _ _ hspent)
          have honly₃ := hlooked.onlyOf honly
          rw [← htaken, ← hlooked.taken] at hheard
          have hmechanisms := @mechanismsWithin_upholds client o deadline _ _ _ hplan hcheck _ t₃
            honly₃ hheard _ hleft
          refine hmechanisms.mono (fun _ _ _ hq => hq) fun trace₄ t₄ result => ?_
          rintro ⟨second, rfl, hsecond, hsecond', hgathered⟩
          refine ⟨(honly₃.mono (by simp)).append (hsecond.mono (by simp)),
            (hlooked.ended hended).append (hlimit.trans hlimit') hsecond', fun plan' heq => ?_,
            hgathered⟩
          rw [Trace.spawned_append, hlooked.spawned]
          exact List.mem_append_left _ (hspawned plan' heq)
    · rw [if_neg hheard]
      refine ⟨honly.mono (by simp), hended, hspawned, .unheard hplan ?_⟩
      rwa [htaken]

theorem davTargets_nodup (outputs : List (List DiscoveryServiceConfig)) :
    (davTargets outputs).Nodup := by
  unfold davTargets
  refine List.foldlRecOn (motive := List.Nodup) _ _ List.nodup_nil fun targets hnodup target _ => ?_
  split
  · exact hnodup
  · rename_i hcontains
    rw [List.nodup_append_comm, List.singleton_append, List.nodup_cons]
    exact ⟨by simpa using hcontains, hnodup⟩

theorem resolveDavRoots_upholds {outputs : List (List DiscoveryServiceConfig)} {left : Nat}
    {trace : Trace} {t : Threads} (hleft : left ≠ 0 → trace.waited + left ≤ deadline) :
    (client.resolveDavRoots outputs (some left)).Upholds (Threads.Serves o)
      (fun trace _ q => q.Affords deadline trace)
      (fun trace' _ resolved => ∃ new, trace' = trace ++ new ∧ OnlyOf [.davRoot] new ∧
        Trace.spawned new = (davTargets outputs).map (fun target =>
          ⟨.davRoot, .davRoot target.1 target.2⟩) ∧ Trace.Ended o (t.clock + left) new ∧
        ∀ o', Reflects o o' new → resolved = (client.resolveDavRoots outputs none).eval o')
      trace t := by
  unfold resolveDavRoots
  by_cases hempty : (davTargets outputs).isEmpty = true
  · simp only [hempty, if_true]
    refine ⟨[], (List.append_nil trace).symm, .nil _, ?_, .inr (Trace.settled_nil o), fun _ _ => rfl⟩
    rw [List.isEmpty_iff.mp hempty]
    rfl
  · simp only [hempty, Bool.false_eq_true, if_false]
    refine (Compose.collectWithin_upholds ?_ hleft).bind fun trace' t' reports => ?_
    · exact (davTargets_nodup outputs).map fun target target' h => by
        simpa [Prod.ext_iff] using h
    · rintro ⟨new, rfl, hnew, hended⟩
      refine ⟨new, rfl, hnew.onlyOf, ?_, hended, fun o' hreflects => ?_⟩
      · rw [hnew.spawned, List.map_map]
        rfl
      · rw [Prog.eval_bind, Compose.eval_scope, ← hnew.reflected hreflects]
        rfl

/-- What a composition does with its outputs once the DAV roots are in. -/
def passes (services : Finset DiscoveryService) (resolved : List (List DiscoveryServiceConfig)) :
    Compose ComposeResult :=
  probe (collectOutputs false (DiscoveryConfigCollector.new services) resolved).finish >>=
    fun configs => resolveOauth configs >>= fun configs => Prog.pure (.ok configs)

theorem passes_joins {allowed : ∀ effect : Effect, effect.Answer → Prop}
    (services : Finset DiscoveryService) (resolved : List (List DiscoveryServiceConfig)) :
    (passes services resolved).Always (Effect.Joins [.schemes, .issuer, .resource]) allowed
      fun _ => True := by
  refine (probe_joins _ (by simp)).bind fun probed _ => ?_
  exact (resolveOauth_joins probed (by simp) (by simp)).bind fun _ _ => trivial

structure Proceeds (o : Answers) (email : String) (services : Finset DiscoveryService) (plan : Plan)
    (trace : Trace) (resolved : List (List DiscoveryServiceConfig)) : Prop where
  planned : Plan.of email services = .ok plan
  check : o (.join .check (.check plan.domain)) = some (.ok ())
  taken : ⟨.check, .check plan.domain⟩ ∈ trace.taken
  spawned : ∀ task ∈ plan.tasks email, ⟨.mechanism, task⟩ ∈ trace.spawned
  resolved : ∀ o', Reflects o o' trace → resolved = (client.resolveDavRoots
    (plan.outputs ((plan.tasks email).map fun task => o' (.join .mechanism task))) none).eval o'

/-- Until its passes, a composition within a deadline waits for nothing but what it can afford. -/
theorem composeAllWithin_upholds (email : String) (services : Finset DiscoveryService) (t : Threads)
    {asks : Trace → Threads → Effect → Prop} {post : Trace → Threads → ComposeResult → Prop}
    (hasks : ∀ trace t q, Effect.Affords deadline trace q → asks trace t q)
    (hfailed : ∀ trace t' err, Trace.Ended o (t.clock + deadline) trace →
      CheckSpawned email services trace →
      client.Gathered o email services deadline trace (.error err) → post trace t' (.error err))
    (hpasses : ∀ trace t' plan resolved, Trace.Ended o (t.clock + deadline) trace →
      CheckSpawned email services trace → OnlyOf [.check, .mechanism, .davRoot] trace →
      client.Proceeds o email services plan trace resolved →
      (passes services resolved).Upholds (Threads.Serves o) asks post trace t') :
    (client.composeAllWithin email services deadline).Upholds (Threads.Serves o) asks post [] t := by
  unfold composeAllWithin compose
  apply Compose.now_upholds (hasks _ _ _ trivial)
  intro trace t₁ hlooked hclock _
  have hspent : Trace.Spent t₁.clock 0 trace t₁ := by
    have hwaited : trace.waited = 0 := hlooked.waited
    unfold Trace.Spent
    omega
  have hgather := @parallelOutputsWithin_upholds client o deadline email services trace t₁ hlooked
  refine ((hgather.keep (fun _ _ _ _ _ hs h => h.step hs) hspent).mono hasks fun _ _ _ h => h).bind
    fun trace₂ t₂ result => ?_
  rintro ⟨hspent, honly, hended, hchecked, hgathered⟩
  have hended : Trace.Ended o (t.clock + deadline) trace₂ :=
    hended.mono (Nat.add_le_add_right hclock deadline)
  cases result with
  | error err => exact hfailed trace₂ t₂ err hended hchecked hgathered
  | ok outputs =>
    obtain ⟨plan, hplan, hcheck, htaken, hspawned, rfl⟩ := Gathered.of_ok client hgathered
    apply Compose.now_upholds (hasks _ _ _ trivial)
    intro trace₃ t₃ hlooked _ hspent₃
    obtain ⟨hleft, hlimit⟩ := @Trace.Spent.left _ _ deadline _ (hspent₃ _ _ hspent)
    have hlimit : t.clock + deadline ≤ t₃.clock + (deadline - (t₃.clock - t₁.clock)) :=
      (Nat.add_le_add_right hclock deadline).trans hlimit
    have honly₃ := hlooked.onlyOf honly
    rw [← hlooked.taken] at htaken
    rw [← hlooked.spawned] at hspawned
    have hroots := @resolveDavRoots_upholds _ client o deadline
      (plan.outputs (heard o (plan.tasks email) (Trace.taken trace₂))) _ trace₃ t₃ hleft
    refine (hroots.mono hasks fun _ _ _ h => h).bind fun trace₄ t₄ resolved => ?_
    rintro ⟨new, rfl, hnew, -, hnew', hresolved⟩
    apply hpasses _ _ plan resolved ((hlooked.ended hended).append hlimit hnew')
    · intro plan' hplan'
      rw [Trace.spawned_append, hlooked.spawned]
      exact List.mem_append_left _ (hchecked plan' hplan')
    · exact (honly₃.mono (by simp)).append (hnew.mono (by simp))
    · refine ⟨hplan, hcheck, ?_, fun task htask => ?_, fun o' hreflects => ?_⟩
      · rw [Trace.taken_append]
        exact List.mem_append_left _ htaken
      · rw [Trace.spawned_append]
        exact List.mem_append_left _ (hspawned task htask)
      -- Without the late jobs, each mechanism puts out what was heard of it in time.
      · have hheard := (hreflects.left honly₃ hnew (by simp)).heard hspawned
        rw [hresolved o' (hreflects.right honly₃ hnew (by simp)), ← hlooked.taken, hheard]

def Steady (o : Answers) : Prop :=
  ∀ domain checked, o (.join .check (.check domain)) = some checked →
    (client.checkResolver domain).eval (fun job => o (.run job)) = checked

def CheckTaken (email : String) (services : Finset DiscoveryService) (trace : Trace) : Prop :=
  ∀ plan, Plan.of email services = .ok plan → ⟨.check, .check plan.domain⟩ ∈ trace.taken

theorem Gathered.failed (hsteady : client.Steady o) {email : String}
    {services : Finset DiscoveryService} {trace : Trace} {err : DiscoveryComposeClientStdError}
    (h : client.Gathered o email services deadline trace (.error err))
    (hcheck : CheckTaken email services trace) (late : List (Sigma Task)) :
    (client.composeAll email services).eval (o.without late) = .error err := by
  rw [composeAll, eval_compose, eval_parallelOutputs]
  cases h with
  | invalid hplan =>
    rw [hplan]
    rfl
  | unheard hplan hnot => exact absurd (hcheck _ hplan) hnot
  | @refused plan _ hplan hrefused =>
    have hinline : (client.checkResolver plan.domain).eval
        (fun job => (o.without late) (.run job)) = .error err := hsteady _ _ hrefused
    rw [hplan]
    simp only [hinline]
    rfl

/-- The passes over the outputs of the answers heard give what the composition on these answers does. -/
theorem Proceeds.completes (hsteady : client.Steady o) {email : String}
    {services : Finset DiscoveryService} {plan : Plan} {trace : Trace}
    {resolved : List (List DiscoveryServiceConfig)}
    (h : client.Proceeds o email services plan trace resolved) {late : List (Sigma Task)}
    (hreflects : Reflects o (o.without late) trace) :
    (client.composeAll email services).eval (o.without late) =
      (passes services resolved).eval (o.without late) := by
  have hinline : (client.checkResolver plan.domain).eval
      (fun job => (o.without late) (.run job)) = .ok () := hsteady _ _ h.check
  rw [composeAll, eval_compose, eval_parallelOutputs, h.planned, passes]
  simp only [hinline, Except.map, ← h.resolved _ hreflects, Prog.eval_bind, Prog.eval_pure]

theorem composeAllWithin_hears (hsteady : client.Steady o) (email : String)
    (services : Finset DiscoveryService) (t : Threads) :
    (client.composeAllWithin email services deadline).Upholds (Threads.Serves o) (fun _ _ _ => True)
      (fun trace _ result => Trace.Ended o (t.clock + deadline) trace ∧
        CheckSpawned email services trace ∧ (CheckTaken email services trace →
          result = (client.composeAll email services).eval (o.without (Trace.late trace)))) [] t := by
  apply client.composeAllWithin_upholds email services t (fun _ _ _ _ => trivial)
  · intro trace t' err hended hspawned hgathered
    exact ⟨hended, hspawned, fun hcheck => (hgathered.failed client hsteady hcheck _).symm⟩
  · intro trace t' plan resolved hended hspawned honly hproceeds
    have hpasses := @passes_joins _ (fun q a => a = o q) services resolved
    refine (joins_upholds hpasses).mono (fun _ _ _ _ => trivial) fun trace' t'' result => ?_
    rintro ⟨rfl, joins, rfl, hjoins, -⟩
    have hsilent : Trace.Ended o (t.clock + deadline) joins := .inr fun entry he => by
      cases hjoins.spawned entry he
    refine ⟨hended.append le_rfl hsilent, fun plan' hplan' => ?_, fun _ => ?_⟩
    · rw [Trace.spawned_append]
      exact List.mem_append_left _ (hspawned plan' hplan')
    have hfinal : OnlyOf [.check, .mechanism, .davRoot] (trace ++ joins) :=
      honly.append (hjoins.mono (by simp))
    have hreflects : Reflects o (o.without (Trace.late (trace ++ joins))) trace :=
      (reflects_late o _).left honly hjoins (by simp)
    have hsame : ∀ q, Effect.Joins [.schemes, .issuer, .resource] q →
        o q = o.without (Trace.late (trace ++ joins)) q := by
      rintro _ ⟨kind, task, hkind, rfl⟩
      have hnot : ⟨kind, task⟩ ∉ Trace.late (trace ++ joins) := by
        intro hmem
        have hspawned := hfinal.spawned _ (List.mem_filter.mp hmem).1
        cases kind <;> simp at hkind hspawned
      exact (if_neg hnot).symm
    rw [hproceeds.completes client hsteady hreflects]
    exact hpasses.eval_congr (fun _ => rfl) hsame

omit [UrlCrate] in
theorem without_settled {trace : Trace} (h : Trace.Settled o trace) : o.without trace.late = o := by
  funext effect
  cases effect with
  | join kind task =>
    show (if _ then _ else _) = _
    split
    · rename_i hlate
      obtain ⟨hspawned, hnot⟩ := List.mem_filter.mp hlate
      have hnone := (h _ hspawned).resolve_left (by simpa using hnot)
      exact hnone.symm
    · rfl
  | _ => rfl

/-- A composition within a deadline that has heard of the check is the one that waits, less the
mechanisms and the probes whose reports it did not take. Only past its deadline does it leave a report
that was made. -/
theorem composeAllWithin_refines (email : String) (services : Finset DiscoveryService)
    (hsteady : client.Steady o) {threads threads' : Threads} {trace : Trace} {result : ComposeResult}
    (hrun : (client.composeAllWithin email services deadline).Reaches (Threads.Serves o) threads trace
      threads' (.pure result)) :
    (CheckTaken email services trace →
      result = (client.composeAll email services).eval (o.without trace.late)) ∧
    (Trace.Settled o trace →
      (∀ plan, Plan.of email services = .ok plan → o (.join .check (.check plan.domain)) ≠ none) →
      result = (client.composeAll email services).eval o) ∧
    (¬ Trace.Overdue (threads.clock + deadline) trace → Trace.Settled o trace) := by
  obtain ⟨hended, hspawned, hresult⟩ :=
    (client.composeAllWithin_hears hsteady email services threads).reaches hrun
  refine ⟨hresult, fun hsettled hcheck => ?_, fun hnot => hended.resolve_left hnot⟩
  have htaken : CheckTaken email services trace := fun plan hplan =>
    (hsettled _ (hspawned plan hplan)).resolve_right (hcheck plan hplan)
  have hheard := hresult htaken
  rwa [List.nil_append, without_settled hsettled] at hheard

theorem steady_answers [PslCrate] (net : ∀ job : Job, job.Answer) :
    client.Steady (client.answers net) := fun _ _ h => Option.some.inj h

end DiscoveryComposeClientStd

namespace DiscoveryComposeClientStd

def calendarRun (services : Finset DiscoveryService) (delay : TaskKind → Nat) :
    Option (Trace × Threads × ComposeResult) :=
  letI := plainUrl
  letI := plainPsl
  let client := DiscoveryComposeClientStd.new exampleResolver
  (client.composeAllWithin "user@example.org" services 10).play
    (Threads.schedule (client.answers calendarNet) delay) ⟨0, .check, [], []⟩

theorem calendarRun_reaches {services : Finset DiscoveryService} {delay : TaskKind → Nat}
    {trace : Trace} {threads : Threads} {result : ComposeResult}
    (h : calendarRun services delay = some (trace, threads, result)) :
    letI := plainUrl
    letI := plainPsl
    let client := DiscoveryComposeClientStd.new exampleResolver
    (client.composeAllWithin "user@example.org" services 10).Reaches
      (Threads.Serves (client.answers calendarNet)) ⟨0, .check, [], []⟩ trace threads
      (.pure result) := by
  apply Prog.reaches_play ?_ h
  exact fun _ _ _ _ => Threads.schedule_serves

theorem composeAllWithin_refines_caldav :
    letI := plainUrl
    letI := plainPsl
    let client := DiscoveryComposeClientStd.new exampleResolver
    let o := client.answers calendarNet
    ∃ trace threads, (client.composeAllWithin "user@example.org" {.caldav} 10).Reaches
      (Threads.Serves o) ⟨0, .check, [], []⟩ trace threads
      (.pure ((client.composeAll "user@example.org" {.caldav}).eval o)) := by
  let _ := plainUrl
  let _ := plainPsl
  have hearly : (calendarRun {.caldav} fun _ => 0).map
      (fun run => run.1.all fun moment => decide (moment.after.clock < 10)) = some true := by
    decide +kernel
  obtain ⟨⟨trace, threads, result⟩, hplay, hclocks⟩ := Option.map_eq_some_iff.mp hearly
  have hrun := calendarRun_reaches hplay
  obtain ⟨-, hsettled, hnot⟩ := composeAllWithin_refines _ "user@example.org" {.caldav}
    (steady_answers (DiscoveryComposeClientStd.new exampleResolver) calendarNet) hrun
  have hresult := hsettled (hnot ?_) fun _ _ => nofun
  · rw [hresult] at hrun
    exact ⟨trace, threads, hrun⟩
  · rintro ⟨moment, hmoment, -, hover⟩
    have hclock := List.all_eq_true.mp hclocks moment hmoment
    rw [decide_eq_true_iff] at hclock
    exact absurd hover (Nat.not_le.mpr (by simpa using hclock))

/-- Reports that are in the channel when the client finds its time over are left there: here those of
all mechanisms. -/
theorem composeAllWithin_drops_reports :
    letI := plainUrl
    letI := plainPsl
    let client := DiscoveryComposeClientStd.new exampleResolver
    let o := client.answers calendarNet
    ∃ trace threads result, (client.composeAllWithin "user@example.org" {.caldav} 10).Reaches
        (Threads.Serves o) ⟨0, .check, [], []⟩ trace threads (.pure result) ∧
      Trace.Prompt trace ∧ (∀ kind task, o (.join kind task) ≠ none) ∧
      result ≠ (client.composeAll "user@example.org" {.caldav}).eval o := by
  let _ := plainUrl
  let _ := plainPsl
  have hsleepy : (calendarRun {.caldav} fun kind => if kind = .mechanism then 10 else 0).map
      (fun run => (run.2.2, run.1.all fun moment =>
        !moment.question.observes || moment.after.running.isEmpty)) = some (.ok [], true) := by
    decide +kernel
  obtain ⟨⟨trace, threads, result⟩, hplay, hresult⟩ := Option.map_eq_some_iff.mp hsleepy
  obtain ⟨rfl, hprompt⟩ := Prod.mk.inj hresult
  have hrun := calendarRun_reaches hplay
  refine ⟨trace, threads, _, hrun, fun moment hmoment hobserves => ?_, fun _ _ => nofun, ?_⟩
  · have hended := List.all_eq_true.mp hprompt moment hmoment
    simpa [hobserves] using hended
  · decide +kernel

end DiscoveryComposeClientStd
end PimDiscovery
