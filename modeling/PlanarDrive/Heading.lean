import PlanarDrive.Scalar

/-!
# Headings for display

A heading is counted without wrapping while the rover turns. For display it is brought
into one turn, in degrees from zero up to 360, and rounded to a whole degree.
-/

namespace PlanarDrive.Heading

variable {α : Type} [Scalar α]

/-- The heading in degrees; the remainder of a small negative angle may round up to 360. -/
def wrapped (theta : α) : α :=
  let degrees := Scalar.modulo (Scalar.degrees theta) 360.0
  if 360.0 ≤ degrees then 0.0 else degrees

/-- The whole degree that is shown; what rounds up to a full turn is zero. -/
def wholeDegree (theta : α) : Except (Fault α) Int :=
  (Scalar.nearest (wrapped theta)).map (· % 360)

theorem wholeDegree_range {theta : α} {d : Int} (h : wholeDegree theta = .ok d) :
    0 ≤ d ∧ d < 360 := by
  unfold wholeDegree at h
  cases hn : Scalar.nearest (wrapped theta) with
  | error f => simp [hn, Except.map] at h
  | ok n =>
    simp only [hn, Except.map, Except.ok.injEq] at h
    omega

end PlanarDrive.Heading
