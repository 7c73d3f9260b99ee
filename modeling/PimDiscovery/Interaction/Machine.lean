import Mathlib.Data.List.Forall2
import Mathlib.Tactic.Common
import PimDiscovery.Interaction.Pump
import PimDiscovery.Interaction.Runs

/-! Machines at their start, whatever their state is: the parts of what they yield, and how they end once
every yield is answered alike. -/

namespace Interaction
variable {Q : Type} {A : Q → Type} {I Y K W X ε α ρ σ : Type}

structure Machine (I Y ρ : Type) where
  State : Type
  start : State
  resume : State → Option I → Step Y State ρ

namespace Machine

def ended (r : ρ) : Machine I Y ρ := { State := Unit, start := (), resume := fun _ _ => .complete r }

def yields (self : Machine I Y ρ) (args : List (Option I)) : List Y :=
  Interaction.yields self.resume self.start (none :: args)

def outcome (self : Machine I Y ρ) (args : List (Option I)) : Option ρ :=
  Interaction.outcome self.resume self.start (none :: args)

def pumped (self : Machine I Y ρ) (driver : Driver I Y W X ε) (world : W) (script : List X) :
    Pumped W X ε ρ :=
  pump driver self.resume self.start none world script

/-- The machine refines the program that its leaves carry out. -/
def Performs (L : Leaves Q A I Y) (self : Machine I Y α) (p : Prog Q A α) : Prop :=
  ∃ toProc : self.State → Proc L α,
    Refines self.resume toProc ∧ (toProc self.start).resume none = drive L p

theorem Performs.outcome_eq {L : Leaves Q A I Y} {self : Machine I Y α} {p : Prog Q A α}
    (h : self.Performs L p) {o : ∀ q, A q} {args : List (Option I)} (ho : Serves L o p args) :
    self.outcome args = some (p.eval o) := by
  obtain ⟨toProc, hrefines, hstart⟩ := h
  exact hrefines.outcome_eq hstart ho

theorem ended_performs (L : Leaves Q A I Y) (r : α) : (ended r).Performs L (.pure r) :=
  ⟨fun _ => .enter (.pure r), fun _ _ => rfl, rfl⟩

end Machine

section
variable {L : Leaves Q A I Y}

def partsYields (L : Leaves Q A I Y) (parts : List (Q × List (Option I))) : List Y :=
  parts.flatMap fun part => yields (L.resume part.1) (L.start part.1) (none :: part.2)

def given (turns : List (Turn Q A I)) (q : Q) (a : A q) : Prop :=
  (⟨q, a⟩ : Σ q, A q) ∈ turns.map fun turn => (⟨turn.question, turn.answer⟩ : Σ q, A q)

/-- What a program upholds of the answers its turns ended with, it upholds of what it asked on the way and
of what is left of it. -/
theorem Reaches.always {p rest : Prog Q A α} {turns : List (Turn Q A I)} (h : Reaches L p turns rest)
    {asks : Q → Prop} {allowed : ∀ q, A q → Prop} {post : α → Prop} (hp : p.Always asks allowed post)
    (hturns : ∀ turn ∈ turns, allowed turn.question turn.answer) :
    (∀ turn ∈ turns, asks turn.question) ∧ rest.Always asks allowed post := by
  induction h with
  | refl p => exact ⟨List.forall_mem_nil _, hp⟩
  | turn _ _ ih =>
    obtain ⟨hfirst, hrest⟩ := List.forall_mem_cons.mp hturns
    obtain ⟨hasked, hleft⟩ := ih (hp.2 _ hfirst) hrest
    exact ⟨List.forall_mem_cons.mpr ⟨hp.1, hasked⟩, hleft⟩

theorem yields_inside_open (q : Q) (s : L.State q) (next : A q → Prog Q A α) (args : List (Option I)) :
    (∃ used left a, args = used ++ left ∧ outcome (L.resume q) s used = some a) ∨
      yields Proc.resume (Proc.inside q s next : Proc L α) args = yields (L.resume q) s args := by
  induction args generalizing s with
  | nil => exact .inr rfl
  | cons arg args ih =>
    cases hs : L.resume q s arg with
    | yielded y s' =>
      rcases ih s' with ⟨used, left, a, rfl, ha⟩ | heq
      · refine .inl ⟨arg :: used, left, a, rfl, ?_⟩
        unfold outcome
        simp only [hs]
        exact ha
      · right
        unfold yields
        simp only [Proc.resume, hs, Step.elim]
        exact congrArg (y :: ·) heq
    | complete a =>
      refine .inl ⟨[arg], args, a, rfl, ?_⟩
      unfold outcome
      simp only [hs]
      rfl
    | panicked =>
      right
      unfold yields
      simp only [Proc.resume, hs, Step.elim]

/-- The turns that a run makes over some inputs, and the leaf it is left in. -/
theorem yields_enter_turns (p : Prog Q A α) (args : List (Option I)) :
    ∃ turns rest, Reaches L p turns rest ∧ inputs turns <+: args ∧
      (yields Proc.resume (Proc.enter p : Proc L α) (none :: args) = turns.flatMap (·.yields L) ∨
        ∃ q next used, rest = .ask q next ∧
          yields Proc.resume (Proc.enter p : Proc L α) (none :: args) =
            turns.flatMap (·.yields L) ++ yields (L.resume q) (L.start q) (none :: used)) := by
  induction p generalizing args with
  | pure a => exact ⟨[], .pure a, .refl _, List.nil_prefix, .inl rfl⟩
  | ask q next ih =>
    have hstart : yields Proc.resume (Proc.enter (.ask q next) : Proc L α) (none :: args) =
        yields Proc.resume (Proc.inside q (L.start q) next : Proc L α) (none :: args) := by
      unfold yields
      rw [Proc.resume_start, Proc.resume_enter]
    rcases yields_inside_open q (L.start q) next (none :: args) with ⟨used, left, a, hargs, ha⟩ | heq
    · cases used with
      | nil => cases ha
      | cons arg used =>
        obtain ⟨rfl, hrest⟩ := List.cons.inj hargs
        obtain rfl : args = used ++ left := hrest
        obtain ⟨turns, rest, hreaches, hinputs, hyields⟩ := ih a left
        let first : Turn Q A I := { question := q, answer := a, used }
        have hsplit : yields Proc.resume (Proc.enter (.ask q next) : Proc L α) (none :: (used ++ left)) =
            first.yields L ++ yields Proc.resume (Proc.enter (next a) : Proc L α) (none :: left) :=
          hstart.trans (yields_inside ha)
        have hfirst : first.Complete L := ha
        refine ⟨first :: turns, rest, .turn hfirst hreaches, (List.prefix_append_right_inj used).mpr hinputs, ?_⟩
        rw [hsplit, List.flatMap_cons]
        rcases hyields with hyields | ⟨q', next', used', hrest, hyields⟩
        · exact .inl (congrArg (first.yields L ++ ·) hyields)
        · refine .inr ⟨q', next', used', hrest, ?_⟩
          rw [List.append_assoc, hyields]
    · exact ⟨[], .ask q next, .refl _, List.nil_prefix, .inr ⟨q, next, args, rfl, hstart.trans heq⟩⟩

/-- A machine yields what the leaves of its program yield, in parts of one leaf each, which the program asks
given the answers that the leaves before have ended with. -/
theorem Machine.Performs.yields_turns {self : Machine I Y α} {p : Prog Q A α} (h : self.Performs L p)
    (args : List (Option I)) :
    ∃ turns rest, Reaches L p turns rest ∧ inputs turns <+: args ∧
      ∀ {asks : Q → Prop} {post : α → Prop}, p.Always asks (given turns) post →
        ∃ parts, (∀ part ∈ parts, asks part.1) ∧ self.yields args = partsYields L parts := by
  obtain ⟨toProc, hrefines, hstart⟩ := h
  obtain ⟨turns, rest, hreaches, hinputs, hyields⟩ := yields_enter_turns (L := L) p args
  have hself : self.yields args =
      Interaction.yields Proc.resume (Proc.enter p : Proc L α) (none :: args) := by
    rw [Machine.yields, yields_mapState hrefines]
    unfold Interaction.yields
    rw [hstart, Proc.resume_enter]
  refine ⟨turns, rest, hreaches, hinputs, fun {asks post} hp => ?_⟩
  obtain ⟨hasked, hleft⟩ := hreaches.always hp fun turn hturn => List.mem_map_of_mem hturn
  have hparts : ∀ part ∈ turns.map fun turn => (turn.question, turn.used), asks part.1 := by
    intro part hpart
    obtain ⟨turn, hturn, rfl⟩ := List.mem_map.mp hpart
    exact hasked turn hturn
  have hmade : turns.flatMap (·.yields L) =
      partsYields L (turns.map fun turn => (turn.question, turn.used)) := by
    rw [partsYields, List.flatMap_map]
    rfl
  rw [hself]
  rcases hyields with hyields | ⟨q, next, used, rfl, hyields⟩
  · exact ⟨_, hparts, hyields.trans hmade⟩
  · refine ⟨turns.map (fun turn => (turn.question, turn.used)) ++ [(q, used)], ?_, ?_⟩
    · exact List.forall_mem_append.mpr ⟨hparts, List.forall_mem_singleton.mpr hleft.1⟩
    · rw [hyields, hmade, partsYields, partsYields, List.flatMap_append, List.flatMap_singleton]

end

/-! Machines whose driver hands back what they are to be resumed with. -/

/-- A pump whose script makes each yield be answered with the next input ends as these inputs end it, and
leaves what answering its yields leaves. -/
theorem pump_fed {δ : Type} {resume : σ → Option I → Step Y σ ρ} {driver : Driver I Y W X ε}
    {Inv : W → Prop} {Fits : Y → Option I → Prop} {feed : Option I → X} {observe : ε → δ}
    {leaves : Y → List δ}
    (hdriver : ∀ world y arg, Inv world → Fits y arg → Inv (driver world y (feed arg)).1 ∧
      (driver world y (feed arg)).2.1 = arg ∧ (driver world y (feed arg)).2.2.map observe = leaves y)
    {s : σ} {arg : Option I} {args : List (Option I)} {r : ρ}
    (hr : outcome resume s (arg :: args) = some r)
    (hfits : List.Forall₂ Fits (yields resume s (arg :: args)) args) {world : W} (hw : Inv world) :
    (pump driver resume s arg world (args.map feed)).result = some r ∧
      (pump driver resume s arg world (args.map feed)).events.map observe =
        (yields resume s (arg :: args)).flatMap leaves := by
  induction args generalizing s arg world with
  | nil =>
    unfold outcome at hr
    unfold yields
    cases hs : resume s arg with
    | complete r' =>
      rw [hs] at hr
      rw [pump_complete world hs]
      exact ⟨by simpa using hr, rfl⟩
    | yielded y s' =>
      rw [hs] at hr
      exact absurd hr (by simp [outcome])
    | panicked =>
      rw [hs] at hr
      exact absurd hr (by simp)
  | cons arg' args ih =>
    unfold outcome at hr
    unfold yields at hfits ⊢
    cases hs : resume s arg with
    | complete r' =>
      rw [hs] at hr
      exact absurd hr (by simp)
    | yielded y s' =>
      rw [hs] at hr hfits
      obtain ⟨hy, hrest⟩ := List.forall₂_cons.mp hfits
      obtain ⟨hw', hhanded, hleft⟩ := hdriver world y arg' hw hy
      obtain ⟨hresult, hevents⟩ := ih hr hrest hw'
      rw [List.map_cons, pump_yielded world hs, hhanded]
      refine ⟨hresult, ?_⟩
      rw [Pumped.after, List.map_append, hleft, hevents]
      rfl
    | panicked =>
      rw [hs] at hr
      exact absurd hr (by simp)

theorem fits_turns {L : Leaves Q A I Y} {Fits : Y → Option I → Prop} {turns : List (Turn Q A I)}
    (h : ∀ turn ∈ turns, List.Forall₂ Fits (turn.yields L) turn.used) :
    List.Forall₂ Fits (turns.flatMap (·.yields L)) (inputs turns) := by
  induction turns with
  | nil => exact .nil
  | cons turn turns ih =>
    obtain ⟨hturn, hturns⟩ := List.forall_mem_cons.mp h
    exact List.rel_append hturn (ih hturns)

theorem Machine.Performs.runs {L : Leaves Q A I Y} {self : Machine I Y α} {p : Prog Q A α}
    (h : self.Performs L p) {turns : List (Turn Q A I)} {r : α} (hp : Reaches L p turns (.pure r)) :
    Runs L self.resume self.start turns r := by
  obtain ⟨toProc, hrefines, hstart⟩ := h
  exact hrefines.runs hstart hp

/-! Yields that each follow an opening of their target. -/

section
variable (target : Y → K) (opens : Y → Bool)

/-- Whatever does not open its target follows what did, with nothing for another target in between. -/
def Opened (ys : List Y) : Prop :=
  ∀ before y after, ys = before ++ y :: after → opens y = false →
    ∃ earlier opening since, before = earlier ++ opening :: since ∧ opens opening = true ∧
      target opening = target y ∧ ∀ z ∈ since, target z = target y

variable {target opens}

theorem Opened.nil : Opened target opens [] := by
  intro before y after heq
  exact absurd heq.symm (List.append_ne_nil_of_right_ne_nil _ (List.cons_ne_nil y after))

theorem Opened.append {ys zs : List Y} (hys : Opened target opens ys)
    (hzs : Opened target opens zs) : Opened target opens (ys ++ zs) := by
  intro before y after heq hy
  rcases List.append_eq_append_iff.mp heq with ⟨middle, rfl, hright⟩ | ⟨middle, hleft, hright⟩
  · obtain ⟨earlier, opening, since, rfl, hrest⟩ := hzs middle y after hright hy
    exact ⟨ys ++ earlier, opening, since, (List.append_assoc ..).symm, hrest⟩
  · cases middle with
    | nil =>
      obtain ⟨earlier, opening, since, hnil, -⟩ := hzs [] y after hright.symm hy
      exact absurd hnil.symm (List.append_ne_nil_of_right_ne_nil _ (List.cons_ne_nil _ _))
    | cons head middle =>
      obtain ⟨rfl, rfl⟩ := List.cons.inj hright
      exact hys before y middle hleft hy

theorem Opened.of_first {first : Y} {ys : List Y} (hfirst : opens first = true)
    (hys : ∀ y ∈ ys, target y = target first) : Opened target opens (first :: ys) := by
  intro before y after heq hy
  cases before with
  | nil =>
    obtain ⟨rfl, -⟩ := List.cons.inj heq
    rw [hfirst] at hy
    exact absurd hy (by decide)
  | cons head before =>
    obtain ⟨rfl, rfl⟩ := List.cons.inj heq
    have htarget : target y = target first := hys y (by simp)
    refine ⟨[], first, before, rfl, hfirst, htarget.symm, fun z hz => ?_⟩
    rw [htarget]
    exact hys z (List.mem_append_left _ hz)

theorem Opened.parts {L : Leaves Q A I Y} {parts : List (Q × List (Option I))}
    (h : ∀ part ∈ parts,
      Opened target opens (yields (L.resume part.1) (L.start part.1) (none :: part.2))) :
    Opened target opens (partsYields L parts) := by
  induction parts with
  | nil => exact .nil
  | cons part parts ih =>
    obtain ⟨hpart, hparts⟩ := List.forall_mem_cons.mp h
    exact hpart.append (ih hparts)

end

/-! Leaves that end on being handed one input again and again. -/

structure EndsOn (L : Leaves Q A I Y) (live : ∀ q, L.State q → Prop) (i : I) (k : Nat) : Prop where
  start : ∀ q, (L.resume q (L.start q) none).Keeps (live q)
  keeps : ∀ q s arg, live q s → (L.resume q s arg).Keeps (live q)
  ends : ∀ q s, live q s →
    ∃ n ≤ k, ∃ a, outcome (L.resume q) s (List.replicate n (some i)) = some a

section
variable {L : Leaves Q A I Y} {live : ∀ q, L.State q → Prop} {i : I} {k : Nat}

def Proc.LiveWithin (live : ∀ q, L.State q → Prop) (n : Nat) : Proc L α → Prop
  | inside q s next => live q s ∧ ∃ m, m + 1 ≤ n ∧ ∀ a, (next a).AtMost (fun _ => true) m
  | enter _ | dead => False

theorem Prog.AtMost.of_ask {q : Q} {next : A q → Prog Q A α} {n : Nat}
    (h : (Prog.ask q next).AtMost (fun _ => true) n) :
    ∃ m, m + 1 ≤ n ∧ ∀ a, (next a).AtMost (fun _ => true) m := by
  obtain ⟨m, hm, hnext⟩ := h
  exact ⟨m, by simpa using hm, hnext⟩

theorem Prog.AtMost.or {counts counts' : Q → Bool} {p : Prog Q A α} {m n : Nat}
    (h : p.AtMost counts m) (h' : p.AtMost counts' n) :
    p.AtMost (fun q => counts q || counts' q) (m + n) := by
  induction p generalizing m n with
  | pure a => trivial
  | ask q next ih =>
    obtain ⟨left, hleft, hnext⟩ := h
    obtain ⟨left', hleft', hnext'⟩ := h'
    refine ⟨left + left', ?_, fun a => ih a (hnext a) (hnext' a)⟩
    cases hq : counts q <;> cases hq' : counts' q <;> simp [hq, hq'] at hleft hleft' ⊢ <;> omega

theorem drive_liveWithin (hends : EndsOn L live i k) {p : Prog Q A α} {n : Nat}
    (hp : p.AtMost (fun _ => true) n) : (drive L p).Keeps (Proc.LiveWithin live n) := by
  induction p generalizing n with
  | pure a => trivial
  | ask q next ih =>
    obtain ⟨m, hm, hnext⟩ := hp.of_ask
    have hstart := hends.start q
    rw [drive]
    generalize L.resume q (L.start q) none = step at hstart ⊢
    cases step with
    | yielded y s => exact ⟨hstart, m, hm, hnext⟩
    | complete a => exact ih a ((hnext a).mono (by omega))
    | panicked => exact hstart

theorem Resumed.snoc {resume : σ → Option I → Step Y σ ρ} {s s' s'' : σ} {args : List (Option I)}
    (h : Resumed resume s args s') {arg : Option I} {y : Y} (hs : resume s' arg = .yielded y s'') :
    Resumed resume s (args ++ [arg]) s'' := by
  induction h with
  | refl s => exact .yielded hs (.refl s'')
  | yielded hstep _ ih => exact .yielded hstep (ih hs)

theorem Proc.resume_liveWithin (hends : EndsOn L live i k) {t : Proc L α} {n : Nat}
    (ht : t.LiveWithin live n) (arg : Option I) : (t.resume arg).Keeps (LiveWithin live n) := by
  cases t with
  | enter p => exact ht.elim
  | dead => exact ht.elim
  | inside q s next =>
    obtain ⟨hs, m, hm, hnext⟩ := ht
    have hkeeps := hends.keeps q s arg hs
    rw [Proc.resume]
    generalize L.resume q s arg = step at hkeeps ⊢
    cases step with
    | yielded y s' => exact ⟨hkeeps, m, hm, hnext⟩
    | complete a => exact drive_liveWithin hends ((hnext a).mono (by omega))
    | panicked => exact hkeeps

theorem Proc.outcome_liveWithin (hends : EndsOn L live i k) {t : Proc L α} {n : Nat}
    (ht : t.LiveWithin live n) :
    ∃ count ≤ k * n, ∃ r, outcome Proc.resume t (List.replicate count (some i)) = some r := by
  induction n generalizing t with
  | zero =>
    cases t with
    | enter p => exact ht.elim
    | dead => exact ht.elim
    | inside q s next =>
      obtain ⟨-, m, hm, -⟩ := ht
      exact absurd hm (Nat.not_succ_le_zero m)
  | succ n ih =>
    cases t with
    | enter p => exact ht.elim
    | dead => exact ht.elim
    | inside q s next =>
      obtain ⟨hs, m, hm, hnext⟩ := ht
      obtain ⟨first, hfirst, a, ha⟩ := hends.ends q s hs
      have hrest : ∃ count ≤ k * n, ∃ r, outcome Proc.resume (Proc.enter (next a) : Proc L α)
          (none :: List.replicate count (some i)) = some r := by
        have hdrive := drive_liveWithin hends ((hnext a).mono (show m ≤ n by omega))
        unfold outcome
        rw [Proc.resume_enter]
        generalize drive L (next a) = step at hdrive ⊢
        cases step with
        | yielded y t' => exact ih hdrive
        | complete r => exact ⟨0, Nat.zero_le _, r, rfl⟩
        | panicked => exact hdrive.elim
      obtain ⟨count, hcount, r, hr⟩ := hrest
      refine ⟨first + count, ?_, r, ?_⟩
      · rw [Nat.mul_succ]
        omega
      · rw [← List.replicate_append_replicate]
        exact outcome_inside hr ha

theorem pump_dead {resume : σ → Option I → Step Y σ ρ} {driver : Driver I Y W X ε} {dead : List X}
    (hdead : ∀ x ∈ dead, ∀ world y, (driver world y x).2.1 = some i) {s s' : σ} {arg : Option I}
    {y : Y} (hs : resume s arg = .yielded y s') {count : Nat} (hcount : count ≤ dead.length) {r : ρ}
    (hr : outcome resume s' (List.replicate count (some i)) = some r) (world : W) :
    (pump driver resume s arg world dead).result.isSome = true := by
  induction count generalizing s arg world y s' dead with
  | zero => exact absurd hr (by simp [outcome])
  | succ count ih =>
    obtain ⟨x, dead, rfl⟩ := List.exists_cons_of_length_pos (Nat.lt_of_lt_of_le count.succ_pos hcount)
    obtain ⟨hx, hdead⟩ := List.forall_mem_cons.mp hdead
    rw [pump_yielded world hs, hx]
    rw [List.replicate_succ] at hr
    unfold outcome at hr
    simp only [Pumped.after]
    cases hs' : resume s' (some i) with
    | yielded y' s'' =>
      rw [hs'] at hr
      exact ih hdead hs' (Nat.le_of_succ_le_succ hcount) hr _
    | complete r' =>
      rw [pump_complete _ hs']
      rfl
    | panicked =>
      rw [hs'] at hr
      exact absurd hr (by simp)

theorem Proc.pump_ends (hends : EndsOn L live i k) {driver : Driver I Y W X ε} {dead : List X}
    (hdead : ∀ x ∈ dead, ∀ world y, (driver world y x).2.1 = some i) {n : Nat}
    (hlength : k * n ≤ dead.length) (script : List X) {t : Proc L α} {arg : Option I}
    (ht : (t.resume arg).Keeps (LiveWithin live n)) (world : W) :
    (pump driver resume t arg world (script ++ dead)).result.isSome = true := by
  induction script generalizing t arg world with
  | nil =>
    cases hs : t.resume arg with
    | complete r =>
      rw [pump_complete world hs]
      rfl
    | panicked =>
      rw [hs] at ht
      exact ht.elim
    | yielded y t' =>
      rw [hs] at ht
      obtain ⟨count, hcount, r, hr⟩ := outcome_liveWithin hends ht
      exact pump_dead hdead hs (Nat.le_trans hcount hlength) hr world
  | cons x script ih =>
    cases hs : t.resume arg with
    | complete r =>
      rw [pump_complete world hs]
      rfl
    | panicked =>
      rw [hs] at ht
      exact ht.elim
    | yielded y t' =>
      rw [hs] at ht
      rw [List.cons_append, pump_yielded world hs]
      exact ih (resume_liveWithin hends ht _) _

/-- Once a driver answers every yield with `i`, a machine ends within `k` rounds for each question that
its program may ask, however far it had got. -/
theorem Machine.Performs.ends {self : Machine I Y α} {p : Prog Q A α} (h : self.Performs L p)
    (hends : EndsOn L live i k) {n : Nat} (hp : p.AtMost (fun _ => true) n)
    {driver : Driver I Y W X ε} {dead : List X}
    (hdead : ∀ x ∈ dead, ∀ world y, (driver world y x).2.1 = some i) (hlength : k * n ≤ dead.length)
    (world : W) (script : List X) :
    (self.pumped driver world (script ++ dead)).result.isSome = true := by
  obtain ⟨toProc, hrefines, hstart⟩ := h
  rw [Machine.pumped, pump_mapState driver hrefines]
  apply Proc.pump_ends hends hdead hlength
  rw [hstart]
  exact drive_liveWithin hends hp

end
end Interaction
