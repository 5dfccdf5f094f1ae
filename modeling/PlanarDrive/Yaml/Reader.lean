import PlanarDrive.Text.Line
import PlanarDrive.Yaml.Content
import PlanarDrive.Yaml.Grammar
import PlanarDrive.Yaml.Token.Lexer

/-!
# Reading YAML

A text is cut into tokens, the tokens describe nodes, and the nodes make a document. A text
without a node is a document that holds nothing.
-/

namespace PlanarDrive.Yaml

/-- The characters that a text may hold: all but control characters and what is no character. -/
def isAllowed (c : Char) : Bool :=
  let n := c.toNat
  c == '\t' || c == '\n' || c == '\r' || (0x20 ≤ n && n ≤ 0x7e) || n == 0x85 ||
    (0xa0 ≤ n && n ≤ 0xfffd) || 0x10000 ≤ n

def read (text : List Char) : Except (Fault Binary64) Document :=
  if !text.all isAllowed then .error .malformedText
  else do
    match ← Graph.ofTokens (← Token.all (Text.unifyLineEnds [] text)) with
    | some g => g.document
    | none => .ok (.ofValue .null)

end PlanarDrive.Yaml
