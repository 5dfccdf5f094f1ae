/-!
# Lines of text

A line ends with a line feed, a carriage return, or the two in this order with nothing
between them. Reading brings all of them to line feeds before it cuts a text into lines.
-/

namespace PlanarDrive.Text

/-- Line ends of all kinds become one. The characters so far are in `past`, the latest first. -/
def unifyLineEnds (past : List Char) : List Char → List Char
  | '\r' :: '\n' :: rest => unifyLineEnds ('\n' :: past) rest
  | '\r' :: rest => unifyLineEnds ('\n' :: past) rest
  | c :: rest => unifyLineEnds (c :: past) rest
  | [] => past.reverse

theorem unifyLineEnds_of_notMem {text : List Char} (h : '\r' ∉ text) (past : List Char) :
    unifyLineEnds past text = past.reverse ++ text := by
  induction text generalizing past with
  | nil => simp [unifyLineEnds]
  | cons c rest ih =>
    obtain ⟨hc, hr⟩ := not_or.1 (mt List.mem_cons.2 h)
    rw [unifyLineEnds, ih hr]
    · simp
    · rintro _ rfl
      exact absurd rfl hc
    · rintro rfl
      exact absurd rfl hc

def splitLines (text : List Char) : List (List Char) :=
  (unifyLineEnds [] text).splitOn '\n'

end PlanarDrive.Text
