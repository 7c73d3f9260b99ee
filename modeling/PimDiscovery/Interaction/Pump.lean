import PimDiscovery.Interaction.Coroutine

/-! Pumping a coroutine: a driver answers each yield from the state of the world and one item of a
script, leaving events. The events of a machine that refines a program are those of a run of the
program whose questions are answered by pumping the leaves. -/

namespace Interaction
variable {I Y W X ε σ τ ρ : Type}

/-- What answering one yield does to the world, hands back and leaves behind. -/
abbrev Driver (I Y W X ε : Type) : Type := W → Y → X → W × Option I × List ε

structure Pumped (W X ε ρ : Type) where
  events : List ε
  result : Option ρ
  world : W
  script : List X

namespace Pumped
variable {π : Type}

def after (es : List ε) (p : Pumped W X ε ρ) : Pumped W X ε ρ := { p with events := es ++ p.events }

def bind (p : Pumped W X ε ρ) (next : ρ → W → List X → Pumped W X ε π) : Pumped W X ε π :=
  match p.result with
  | none => { events := p.events, result := none, world := p.world, script := p.script }
  | some r => (next r p.world p.script).after p.events

theorem after_bind (es : List ε) (p : Pumped W X ε ρ) (next : ρ → W → List X → Pumped W X ε π) :
    (p.after es).bind next = (p.bind next).after es := by
  unfold bind after
  cases p.result with
  | none => rfl
  | some r => simp only [List.append_assoc]

end Pumped

/-- A coroutine that its pump may give up: handed an error, it ends with it. -/
def orError {φ : Type} (resume : σ → Option I → Step Y σ ρ) :
    σ → Option (Except φ I) → Step Y σ (Except φ ρ)
  | s, none => (resume s none).mapResult .ok
  | s, some (.ok i) => (resume s (some i)).mapResult .ok
  | _, some (.error err) => .complete (.error err)

section
variable (driver : Driver I Y W X ε)

/-- Pumps a coroutine until it ends or the script is over. -/
def pump (resume : σ → Option I → Step Y σ ρ) : σ → Option I → W → List X → Pumped W X ε ρ
  | s, arg, world, script =>
    match resume s arg with
    | .complete r => { events := [], result := some r, world, script }
    | .panicked => { events := [], result := none, world, script }
    | .yielded y s =>
      match script with
      | [] => { events := [], result := none, world, script := [] }
      | x :: script =>
        (pump resume s (driver world y x).2.1 (driver world y x).1 script).after
          (driver world y x).2.2

section
variable {driver} {resume : σ → Option I → Step Y σ ρ} {s s' : σ} {arg : Option I} {y : Y}
variable (world : W)

theorem pump_complete {r : ρ} (h : resume s arg = .complete r) (script : List X) :
    pump driver resume s arg world script = { events := [], result := some r, world, script } := by
  unfold pump
  rw [h]

theorem pump_panicked (h : resume s arg = .panicked) (script : List X) :
    pump driver resume s arg world script = { events := [], result := none, world, script } := by
  unfold pump
  rw [h]

theorem pump_stopped (h : resume s arg = .yielded y s') :
    pump driver resume s arg world [] = { events := [], result := none, world, script := [] } := by
  unfold pump
  rw [h]

theorem pump_yielded (h : resume s arg = .yielded y s') (x : X) (script : List X) :
    pump driver resume s arg world (x :: script) =
      (pump driver resume s' (driver world y x).2.1 (driver world y x).1 script).after
        (driver world y x).2.2 := by
  conv => lhs; unfold pump
  rw [h]

end

theorem pump_congr {resume : σ → Option I → Step Y σ ρ} {s s' : σ} {arg arg' : Option I}
    (h : resume s arg = resume s' arg') (world : W) (script : List X) :
    pump driver resume s arg world script = pump driver resume s' arg' world script := by
  unfold pump
  rw [h]

theorem pump_mapState {resume : σ → Option I → Step Y σ ρ} {resume' : τ → Option I → Step Y τ ρ}
    {f : σ → τ} (h : ∀ s arg, (resume s arg).mapState f = resume' (f s) arg) (s : σ)
    (arg : Option I) (world : W) (script : List X) :
    pump driver resume s arg world script = pump driver resume' (f s) arg world script := by
  induction script generalizing s arg world with
  | nil =>
    unfold pump
    rw [← h s arg]
    cases resume s arg <;> rfl
  | cons x script ih =>
    unfold pump
    rw [← h s arg]
    cases resume s arg with
    | yielded y s' => simp only [Step.mapState_yielded, ih]
    | complete r => rfl
    | panicked => rfl

variable {driver} {Inv : W → Prop}

theorem pump_inv (hinv : ∀ world y x, Inv world → Inv (driver world y x).1)
    {resume : σ → Option I → Step Y σ ρ} (s : σ) (arg : Option I) {world : W} (hw : Inv world)
    (script : List X) : Inv (pump driver resume s arg world script).world := by
  induction script generalizing s arg world with
  | nil =>
    unfold pump
    cases resume s arg <;> exact hw
  | cons x script ih =>
    unfold pump
    cases resume s arg with
    | yielded y s' => exact ih _ _ (hinv world y x hw)
    | complete r => exact hw
    | panicked => exact hw

/-- A relation of worlds by the events between them that answering a yield extends at the front holds
along a pump. -/
theorem pump_trace {R : W → List ε → W → Prop} (hnil : ∀ world, R world [] world)
    (hyield : ∀ world y x es world', R (driver world y x).1 es world' →
      R world ((driver world y x).2.2 ++ es) world')
    (resume : σ → Option I → Step Y σ ρ) (s : σ) (arg : Option I) (world : W) (script : List X) :
    R world (pump driver resume s arg world script).events
      (pump driver resume s arg world script).world := by
  induction script generalizing s arg world with
  | nil =>
    unfold pump
    cases resume s arg <;> exact hnil world
  | cons x script ih =>
    unfold pump
    cases resume s arg with
    | yielded y s' => exact hyield world y x _ _ (ih s' _ _)
    | complete r => exact hnil world
    | panicked => exact hnil world

theorem pump_unobserved {δ : Type} {driver' : Driver I Y W X δ}
    (h : ∀ world y x, (driver world y x).1 = (driver' world y x).1 ∧
      (driver world y x).2.1 = (driver' world y x).2.1)
    (resume : σ → Option I → Step Y σ ρ) (s : σ) (arg : Option I) (world : W) (script : List X) :
    (pump driver resume s arg world script).result = (pump driver' resume s arg world script).result ∧
      (pump driver resume s arg world script).world =
        (pump driver' resume s arg world script).world := by
  induction script generalizing s arg world with
  | nil =>
    unfold pump
    cases resume s arg <;> exact ⟨rfl, rfl⟩
  | cons x script ih =>
    unfold pump
    cases resume s arg with
    | yielded y s' =>
      simp only [Pumped.after, (h world y x).1, (h world y x).2]
      exact ih s' _ _
    | complete r => exact ⟨rfl, rfl⟩
    | panicked => exact ⟨rfl, rfl⟩

theorem pump_events {Keeps : σ → Prop} {good : ε → Prop}
    (hinv : ∀ world y x, Inv world → Inv (driver world y x).1)
    {resume : σ → Option I → Step Y σ ρ}
    (hstep : ∀ s arg y s', Keeps s → resume s arg = .yielded y s' → Keeps s' ∧
      ∀ world x, Inv world → ∀ e ∈ (driver world y x).2.2, good e)
    {s : σ} (hs : Keeps s) (arg : Option I) {world : W} (hw : Inv world) (script : List X) :
    ∀ e ∈ (pump driver resume s arg world script).events, good e := by
  induction script generalizing s arg world with
  | nil =>
    unfold pump
    cases resume s arg <;> exact List.forall_mem_nil _
  | cons x script ih =>
    unfold pump
    cases hres : resume s arg with
    | yielded y s' =>
      obtain ⟨hs', hy⟩ := hstep s arg y s' hs hres
      intro e he
      rcases List.mem_append.mp he with he | he
      · exact hy world x hw e he
      · exact ih hs' _ (hinv world y x hw) e he
    | complete r => exact List.forall_mem_nil _
    | panicked => exact List.forall_mem_nil _

end

section
variable {Q : Type} {A : Q → Type} {L : Leaves Q A I Y} {α : Type}
variable (driver : Driver I Y W X ε)

/-- Pumping inside a leaf is pumping the leaf, then the program that follows it. -/
theorem pump_inside (q : Q) (s : L.State q) (next : A q → Prog Q A α) (arg : Option I) (world : W)
    (script : List X) :
    pump driver (Proc.resume (L := L)) (Proc.inside q s next) arg world script =
      (pump driver (L.resume q) s arg world script).bind fun a =>
        pump driver Proc.resume (Proc.enter (next a) : Proc L α) none := by
  have hcomplete : ∀ {s arg a}, L.resume q s arg = .complete a →
      (Proc.inside q s next : Proc L α).resume arg = (Proc.enter (next a) : Proc L α).resume none := by
    intro s arg a h
    simp only [Proc.resume, h, Step.elim]
  have hyielded : ∀ {s arg y s'}, L.resume q s arg = .yielded y s' →
      (Proc.inside q s next : Proc L α).resume arg = .yielded y (.inside q s' next) := by
    intro s arg y s' h
    simp only [Proc.resume, h, Step.elim]
  have hpanicked : ∀ {s arg}, L.resume q s arg = .panicked →
      (Proc.inside q s next : Proc L α).resume arg = .panicked := by
    intro s arg h
    simp only [Proc.resume, h, Step.elim]
  induction script generalizing s arg world with
  | nil =>
    cases h : L.resume q s arg with
    | yielded y s' =>
      rw [pump_stopped world (hyielded h), pump_stopped world h]
      rfl
    | complete a =>
      rw [pump_congr driver (hcomplete h), pump_complete world h]
      rfl
    | panicked =>
      rw [pump_panicked world (hpanicked h), pump_panicked world h]
      rfl
  | cons x script ih =>
    cases h : L.resume q s arg with
    | yielded y s' =>
      rw [pump_yielded world (hyielded h), pump_yielded world h, ih, Pumped.after_bind]
    | complete a =>
      rw [pump_congr driver (hcomplete h), pump_complete world h]
      rfl
    | panicked =>
      rw [pump_panicked world (hpanicked h), pump_panicked world h]
      rfl

variable (L) in
/-- Answering a question by pumping its leaf, from a world that satisfies `Inv`. -/
def LeafExec (Inv : W → Prop) (q : Q) (es : List ε) (r : Option (A q)) : Prop :=
  ∃ world script, Inv world ∧ (pump driver (L.resume q) (L.start q) none world script).events = es ∧
    (pump driver (L.resume q) (L.start q) none world script).result = r

variable {driver} {Inv : W → Prop}

theorem pump_enter_emits (hinv : ∀ world y x, Inv world → Inv (driver world y x).1)
    (p : Prog Q A α) {world : W} (hw : Inv world) (script : List X) :
    p.Emits (LeafExec L driver Inv)
      (pump driver Proc.resume (Proc.enter p : Proc L α) none world script).events
      (pump driver Proc.resume (Proc.enter p : Proc L α) none world script).result := by
  induction p generalizing world script with
  | pure a =>
    unfold pump
    exact .pure a
  | ask q next ih =>
    have hstart : (Proc.enter (.ask q next) : Proc L α).resume none =
        (Proc.inside q (L.start q) next : Proc L α).resume none := (Proc.resume_start q next).symm
    rw [pump_congr driver hstart, pump_inside]
    have hleaf : LeafExec L driver Inv q
        (pump driver (L.resume q) (L.start q) none world script).events
        (pump driver (L.resume q) (L.start q) none world script).result :=
      ⟨world, script, hw, rfl, rfl⟩
    unfold Pumped.bind
    cases hr : (pump driver (L.resume q) (L.start q) none world script).result with
    | none =>
      rw [hr] at hleaf
      exact .stopped hleaf
    | some a =>
      rw [hr] at hleaf
      exact .answered hleaf (ih a (pump_inv hinv _ _ hw script) _)

theorem Refines.pump_emits {resume : σ → Option I → Step Y σ α} {toProc : σ → Proc L α}
    (h : Refines resume toProc) {s : σ} {p : Prog Q A α} (hs : (toProc s).resume none = drive L p)
    (hinv : ∀ world y x, Inv world → Inv (driver world y x).1) {world : W} (hw : Inv world)
    (script : List X) :
    p.Emits (LeafExec L driver Inv) (pump driver resume s none world script).events
      (pump driver resume s none world script).result := by
  have hstart : (toProc s).resume none = (Proc.enter p : Proc L α).resume none := hs
  rw [pump_mapState driver h, pump_congr driver hstart]
  exact pump_enter_emits hinv p hw script

end
end Interaction
