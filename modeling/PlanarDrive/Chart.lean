import PlanarDrive.World

/-!
# Charts of runs

A chart shows the obstacles, the goal and the driven path as a list of marks in drawing
order. The goal is red when the run missed it. The marks before a fault stay drawn.
-/

namespace PlanarDrive

namespace Chart

/-- A disc is drawn by its diameter. -/
inductive Shape (α : Type)
  | disc (x y diameter : α)
  | box (x y width height : α)
  deriving DecidableEq, Repr

inductive Mark (α : Type)
  | background (colour : String)
  /-- A shape, filled or not, with an edge of some width. -/
  | patch (shape : Shape α) (face : Option String) (edge : String) (edgeWidth : Nat)
  | points (xs ys : List α) (colour symbol label : String)
  | path (xs ys : List α) (colour label : String)
  | equalAspect
  | fit
  | xLabel (text : String)
  | yLabel (text : String)
  | title (text : String)
  | legend
  deriving DecidableEq, Repr

def backgroundColour : String := "#121620"
def obstacleColour : String := "#2d3446"
def obstacleEdge : String := "#414b62"
def reachedColour : String := "#00e6b4"
def missedColour : String := "#ff5a5a"
def pathColour : String := "#64dcff"
def startColour : String := "#3ca0c8"

/-- What was drawn, and the fault that ended the drawing early. -/
structure Drawing (α : Type) where
  marks : List (Mark α)
  fault : Option (Fault α)

variable {α : Type} [Scalar α]

def shape? : Obstacle α → Option (Shape α)
  | .circle x y radius => some (.disc x y (2.0 * radius))
  | .rectangle x y width height =>
    let box := Box.around x y width height
    some (.box box.xmin box.ymin width height)
  | .missing => none

def obstacleMark (s : Shape α) : Mark α :=
  .patch s (some obstacleColour) obstacleEdge 1

def goalColour (success : Option Bool) : String :=
  if success = some false then missedColour else reachedColour

def titleText : Option Bool → String
  | none => "Rover Path"
  | some true => "Rover Path - success"
  | some false => "Rover Path - missed goal"

def goalMarks (goal : Goal α) (success : Option Bool) : List (Mark α) :=
  [.patch (.disc goal.x goal.y (2.0 * goal.r)) none (goalColour success) 2,
    .points [goal.x] [goal.y] (goalColour success) "*" "Goal"]

def pathMark (samples : List (Sample α)) : Mark α :=
  .path (samples.map (·.pose.x)) (samples.map (·.pose.y)) pathColour "Path"

def endMarks (first last : Sample α) : List (Mark α) :=
  [.points [first.pose.x] [first.pose.y] startColour "o" "Start",
    .points [last.pose.x] [last.pose.y] pathColour "^" "End"]

def frameMarks (success : Option Bool) : List (Mark α) :=
  [.equalAspect, .fit, .xLabel "x [m]", .yLabel "y [m]", .title (titleText success), .legend]

def draw (world : World α) (samples : List (Sample α)) (success : Option Bool) : Drawing α :=
  let shapes := (world.obstacles.map shape?).takeWhile (·.isSome)
  let ground := .background backgroundColour :: (shapes.filterMap id).map obstacleMark
  if shapes.length < world.obstacles.length then ⟨ground, some .unsupportedObstacle⟩
  else
    let drawn := ground ++ goalMarks world.goal success ++ [pathMark samples]
    match samples.head?, samples.getLast? with
    | some first, some last => ⟨drawn ++ endMarks first last ++ frameMarks success, none⟩
    | _, _ => ⟨drawn, some .outOfRange⟩

end Chart

end PlanarDrive
