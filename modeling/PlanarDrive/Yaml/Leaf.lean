import PlanarDrive.Document
import PlanarDrive.Text.Base64
import PlanarDrive.Yaml.Tag

/-!
# Leaves

What text means under a tag. A tag may ask for more than the text spells: a word that is no
truth value and a date that does not exist are refused.
-/

namespace PlanarDrive.Yaml

/-- Bytes are written as text of their own characters. -/
def bytesLeaf (content : String) : Except (Fault Binary64) Datum :=
  if content.toList.all (·.toNat < 0x80) then
    ((Text.Base64.decode content.toList).map .bytes).elim (.error .unfitTag) .ok
  else .error .unfitTag

def momentLeaf (content : String) : Except (Fault Binary64) Datum :=
  match WrittenMoment.read (Tag.dropLineEnd content.toList) with
  | none => .error .noFields
  | some w => do
    let date ← w.date
    match w.time with
    | none => .ok (.date date)
    | some time => (time.moment date).map .moment

def Tag.leaf (tag : Tag) (content : String) : Except (Fault Binary64) Datum :=
  match tag with
  | null => .ok (.plain .null)
  | bool =>
    let word := content.toLower
    ((truth? word).map fun b => .plain (.bool b)).elim (.error (.missingKey word)) .ok
  | int => (Number.readInt content.toList).map fun n => .plain (.int n)
  | float => (Number.read content.toList).map fun x => .plain (.float x)
  | bytes => bytesLeaf content
  | moment => momentLeaf content
  | .text => .ok (.plain (.text content))
  | list | record | set | pairs | merge | standIn | unknown => .error .unfitTag

end PlanarDrive.Yaml
