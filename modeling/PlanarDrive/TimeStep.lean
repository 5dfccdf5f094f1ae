import PlanarDrive.Scalar

/-!
# Time steps

The nominal length of an integration step is finite and positive.
-/

namespace PlanarDrive

structure TimeStep (α : Type) [Scalar α] where
  value : α
  finite : Scalar.isFinite value = true
  positive : ¬ value ≤ 0.0

namespace TimeStep

variable {α : Type} [Scalar α]

def standard : α :=
  0.02

def check (dt : α) : Except (Fault α) (TimeStep α) :=
  if h : Scalar.isFinite dt = true ∧ ¬ dt ≤ 0.0 then .ok ⟨dt, h.1, h.2⟩
  else .error (.badTimeStep dt)

theorem check_eq_ok_iff {dt : α} {step : TimeStep α} : check dt = .ok step ↔ step.value = dt := by
  unfold check
  split
  · next h =>
    constructor
    · rintro ⟨⟩
      rfl
    · rintro rfl
      rfl
  · next h =>
    constructor
    · intro h'
      simp at h'
    · rintro rfl
      exact absurd ⟨step.finite, step.positive⟩ h

end TimeStep

end PlanarDrive
