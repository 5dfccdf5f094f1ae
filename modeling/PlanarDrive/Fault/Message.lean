import PlanarDrive.Value

/-!
# The wording of faults

One sentence for every cause. Names inside a sentence stand in quotes and numbers are
written exactly, so that the sentence shows what was found.
-/

namespace PlanarDrive.Fault

def nameList (names : List String) : String :=
  String.ofList (Value.list (names.map .text)).quoted

def exactText (x : Binary64) : String :=
  String.ofList (Decimal.exact x)

def message : Fault Binary64 → String
  | divisionByZero => "division by zero"
  | outOfDomain => "the function has no value there"
  | notANumber => "not a number has no integer part"
  | tooLarge => "the number is too large"
  | notNumeric => "the text does not spell a number"
  | wrongKind => "a value of this kind cannot be used here"
  | noFields => "only a record has fields"
  | missingKey name => name
  | outOfRange => "there is no such element"
  | badTimeStep dt => "dt must be a positive finite number, got " ++ exactText dt
  | negativeRange range => "max_range must be non-negative, got " ++ exactText range
  | tooFewBeams count => "num_beams must be >= 1, got " ++ toString count
  | callLimit limit =>
    "Script exceeded " ++ toString limit ++ " rover calls; is it stuck in a loop?"
  | alreadyCompleted mission =>
    "Run for mission " ++ String.ofList (Text.quoted mission.toList) ++ " already completed"
  | unknownCommand op =>
    "Unknown command: " ++ String.ofList (Text.quoted op.toList) ++ ". Available: " ++
      nameList ["move_forward", "turn_left", "turn_right"]
  | unknownObstacle kind => "Unknown obstacle type: " ++ kind
  | unknownMotion kind => "Unknown primitive type: " ++ kind
  | unsupportedObstacle => "Unsupported obstacle: None"
  | unsupportedMotion => "Unsupported primitive: None"
  | unknownMission mission known =>
    "Unknown mission: " ++ mission ++ ". Available: " ++ nameList known
  | noScript mission known =>
    "No scripted program for mission: " ++ mission ++ ". Available: " ++ nameList known
  | malformedText => "the text does not follow the format"
  | unfitTag => "the content does not fit its tag"
  | tooDeep => "the text is nested too deeply"
  | noTypesetter => "there is no typesetting program for this kind of picture"
  | unknownFormat name => "no picture is written as " ++ name
  | noSuchFile => "there is no such file or directory"
  | isDirectory => "a directory is not a file"
  | notDirectory => "a file is not a directory"
  | fileExists => "a file of this name exists"
  | embeddedNull => "a path cannot hold the null character"
  | nameTooLong => "the name is too long"

end PlanarDrive.Fault
