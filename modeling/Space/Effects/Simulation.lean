import Mathlib.Logic.Relation

/-! # Forward simulation

    A relation between the states of a program and those of its
    specification is a simulation when every step of the program is one step
    of the specification or none at all. Then every run of the program is a
    run of the specification, and what the specification keeps, the program
    keeps. -/

namespace Effects

variable {C A : Type}

/-- Every step of the program is at most one step of the specification. -/
def Simulation (step : C → C → Prop) (spec : A → A → Prop) (R : C → A → Prop) : Prop :=
  ∀ c c' a, R c a → step c c' → ∃ a', R c' a' ∧ (a' = a ∨ spec a a')

/-- **Every run of the program is a run of the specification.** -/
theorem Simulation.run {step : C → C → Prop} {spec : A → A → Prop} {R : C → A → Prop}
    (h : Simulation step spec R) {c c' : C} {a : A} (hR : R c a)
    (hs : Relation.ReflTransGen step c c') :
    ∃ a', R c' a' ∧ Relation.ReflTransGen spec a a' := by
  induction hs with
  | refl => exact ⟨a, hR, .refl⟩
  | tail _ hstep ih =>
    obtain ⟨a₁, hR₁, hrun⟩ := ih
    obtain ⟨a₂, hR₂, hspec⟩ := h _ _ _ hR₁ hstep
    rcases hspec with rfl | hspec
    · exact ⟨_, hR₂, hrun⟩
    · exact ⟨a₂, hR₂, hrun.tail hspec⟩

end Effects
