import PlanarDrive.Chart
import PlanarDrive.Decimal.Layout

/-!
# Charts as pictures

A chart is written as a vector picture. The name of the file has to end in the name of a
picture format; without one it gets the usual ending.
-/

namespace PlanarDrive.Chart

def formats : List String :=
  ["eps", "gif", "jpg", "jpeg", "pdf", "png", "ps", "raw", "rgba", "svg", "svgz", "tif", "tiff",
    "webp"]

def ending (path : String) : Option String :=
  let name := (((path.splitOn "/").getLastD "").toList.dropWhile (· == '.'))
  if name.contains '.' then some (String.ofList (name.reverse.takeWhile (· != '.')).reverse)
  else none

/-- The path that a picture is written to. A picture for a typesetter needs its program. -/
def picturePath (path : String) : Except (Fault Binary64) String :=
  match ending path with
  | none | some "" =>
    .ok (String.ofList ((path.toList.reverse.dropWhile (· == '.')).reverse) ++ ".png")
  | some e =>
    if e.toLower = "pgf" then .error .noTypesetter
    else if formats.contains e.toLower then .ok path
    else .error (.unknownFormat e)

def numberText (x : Binary64) : String :=
  String.ofList (Decimal.general 6 x)

def attributes (fields : List (String × String)) : String :=
  String.join (fields.map fun f => " " ++ f.1 ++ "=\"" ++ f.2 ++ "\"")

def tag (name : String) (fields : List (String × String)) : String :=
  "<" ++ name ++ attributes fields ++ "/>\n"

def textTag (body : String) : String :=
  "<text>" ++ body ++ "</text>\n"

def shapeTag (fill edge : String) (width : Nat) : Shape Binary64 → String
  | .disc x y diameter =>
    tag "circle" [("cx", numberText x), ("cy", numberText y), ("r", numberText (diameter / 2.0)),
      ("fill", fill), ("stroke", edge), ("stroke-width", toString width)]
  | .box x y width' height =>
    tag "rect" [("x", numberText x), ("y", numberText y), ("width", numberText width'),
      ("height", numberText height), ("fill", fill), ("stroke", edge),
      ("stroke-width", toString width)]

def coordinates (xs ys : List Binary64) : String :=
  " ".intercalate (xs.zipWith (fun x y => numberText x ++ "," ++ numberText y) ys)

/-- The picture of a mark; what only arranges the chart has none. -/
def Mark.svg : Mark Binary64 → String
  | .background colour => tag "rect" [("width", "100%"), ("height", "100%"), ("fill", colour)]
  | .patch shape face edge width => shapeTag (face.getD "none") edge width shape
  | .points xs ys colour _ _ =>
    String.join (xs.zipWith (fun x y => shapeTag colour colour 1 (.disc x y 0.1)) ys)
  | .path xs ys colour _ =>
    tag "polyline" [("points", coordinates xs ys), ("fill", "none"), ("stroke", colour)]
  | .xLabel text | .yLabel text | .title text => textTag text
  | .equalAspect | .fit | .legend => ""

def Drawing.svg (d : Drawing Binary64) : String :=
  "<svg>\n" ++ String.join (d.marks.map Mark.svg) ++
    "</svg>\n"

end PlanarDrive.Chart
