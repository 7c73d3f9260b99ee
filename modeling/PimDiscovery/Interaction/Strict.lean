import PimDiscovery.Interaction.Pump

/-! Two ways to pump one coroutine: a lenient driver hands something back whatever happens, a strict one gives
the run up at the first round that fails. -/

namespace Interaction
variable {I Y W X ε σ ρ φ : Type}

def rounds (driver : Driver I Y W X ε) (resume : σ → Option I → Step Y σ ρ) :
    σ → Option I → W → List X → List (W × Y × X)
  | _, _, _, [] => []
  | s, arg, world, x :: script =>
    (resume s arg).elim
      (fun y s => (world, y, x) ::
        rounds driver resume s (driver world y x).2.1 (driver world y x).1 script)
      (fun _ => []) []

/-- The strict driver does what the lenient one does, and gives the run up where a round fails. -/
structure GivesUp (failure : W → Y → X → Option φ) (strict : Driver (Except φ I) Y W X ε)
    (lenient : Driver I Y W X ε) : Prop where
  world : ∀ world y x, (strict world y x).1 = (lenient world y x).1
  events : ∀ world y x, (strict world y x).2.2 = (lenient world y x).2.2
  goesOn : ∀ world y x, failure world y x = none →
    (strict world y x).2.1 = (lenient world y x).2.1.map .ok
  givesUp : ∀ world y x err, failure world y x = some err → (strict world y x).2.1 = some (.error err)

def firstFailure (failure : W → Y → X → Option φ) (rs : List (W × Y × X)) : Option φ :=
  rs.findSome? fun r => failure r.1 r.2.1 r.2.2

theorem orError_ok (resume : σ → Option I → Step Y σ ρ) (s : σ) (arg : Option I) :
    orError (φ := φ) resume s (arg.map .ok) = (resume s arg).mapResult .ok := by
  cases arg <;> rfl

section
variable {resume : σ → Option I → Step Y σ ρ} {lenient : Driver I Y W X ε} {s s' : σ}
variable {arg : Option I} {y : Y}

theorem rounds_yielded (h : resume s arg = .yielded y s') (world : W) (x : X) (script : List X) :
    rounds lenient resume s arg world (x :: script) = (world, y, x) ::
      rounds lenient resume s' (lenient world y x).2.1 (lenient world y x).1 script := by
  rw [rounds, h]
  rfl

theorem rounds_complete {r : ρ} (h : resume s arg = .complete r) (world : W) (script : List X) :
    rounds lenient resume s arg world script = [] := by
  cases script with
  | nil => rfl
  | cons x script =>
    rw [rounds, h]
    rfl

theorem rounds_panicked (h : resume s arg = .panicked) (world : W) (script : List X) :
    rounds lenient resume s arg world script = [] := by
  cases script with
  | nil => rfl
  | cons x script =>
    rw [rounds, h]
    rfl

end

namespace GivesUp
variable {failure : W → Y → X → Option φ} {strict : Driver (Except φ I) Y W X ε}
variable {lenient : Driver I Y W X ε}

/-- The strict pump ends with the first failure of the lenient one's rounds, else as the lenient one does;
it leaves what that leaves up to there. By induction on the script: the two go on together until a round
fails. -/
theorem pump (h : GivesUp failure strict lenient) (resume : σ → Option I → Step Y σ ρ) (s : σ)
    (arg : Option I) (world : W) (script : List X) :
    (pump strict (orError resume) s (arg.map .ok) world script).result =
        (firstFailure failure (rounds lenient resume s arg world script)).elim
          ((pump lenient resume s arg world script).result.map .ok) (fun err => some (.error err)) ∧
      (pump strict (orError resume) s (arg.map .ok) world script).events <+:
        (pump lenient resume s arg world script).events ∧
      (firstFailure failure (rounds lenient resume s arg world script) = none →
        (pump strict (orError resume) s (arg.map .ok) world script).events =
            (pump lenient resume s arg world script).events ∧
          (pump strict (orError resume) s (arg.map .ok) world script).world =
            (pump lenient resume s arg world script).world) := by
  induction script generalizing s arg world with
  | nil =>
    have hboth := orError_ok (φ := φ) resume s arg
    cases hs : resume s arg with
    | complete r =>
      rw [hs] at hboth
      rw [pump_complete world hboth, pump_complete world hs]
      exact ⟨rfl, List.prefix_rfl, fun _ => ⟨rfl, rfl⟩⟩
    | panicked =>
      rw [hs] at hboth
      rw [pump_panicked world hboth, pump_panicked world hs]
      exact ⟨rfl, List.prefix_rfl, fun _ => ⟨rfl, rfl⟩⟩
    | yielded y s' =>
      rw [hs] at hboth
      rw [pump_stopped world hboth, pump_stopped world hs]
      exact ⟨rfl, List.prefix_rfl, fun _ => ⟨rfl, rfl⟩⟩
  | cons x script ih =>
    have hboth := orError_ok (φ := φ) resume s arg
    cases hs : resume s arg with
    | complete r =>
      rw [hs] at hboth
      rw [pump_complete world hboth, pump_complete world hs, rounds_complete hs]
      exact ⟨rfl, List.prefix_rfl, fun _ => ⟨rfl, rfl⟩⟩
    | panicked =>
      rw [hs] at hboth
      rw [pump_panicked world hboth, pump_panicked world hs, rounds_panicked hs]
      exact ⟨rfl, List.prefix_rfl, fun _ => ⟨rfl, rfl⟩⟩
    | yielded y s' =>
      rw [hs] at hboth
      rw [pump_yielded world hboth, pump_yielded world hs, rounds_yielded hs, firstFailure,
        List.findSome?_cons, h.events]
      cases hfailure : failure world y x with
      | none =>
        rw [h.world, h.goesOn world y x hfailure]
        obtain ⟨hresult, hevents, hend⟩ := ih s' (lenient world y x).2.1 (lenient world y x).1
        refine ⟨hresult, ?_, fun hnone => ?_⟩
        · exact (List.prefix_append_right_inj _).mpr hevents
        · obtain ⟨hsame, hworld⟩ := hend hnone
          exact ⟨congrArg (_ ++ ·) hsame, hworld⟩
      | some err =>
        rw [h.givesUp world y x err hfailure]
        have hstop : orError resume s' (some (.error err)) = .complete (.error err) := rfl
        rw [pump_complete _ hstop]
        refine ⟨rfl, ?_, fun hnone => ?_⟩
        · simp only [Pumped.after, List.append_nil]
          exact List.prefix_append _ _
        · cases hnone

end GivesUp
end Interaction
