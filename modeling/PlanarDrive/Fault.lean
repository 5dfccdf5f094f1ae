/-!
# Causes of failure

Every operation of the library that can be refused says why with a `Fault`. A fault
records the cause and what the cause was found in; its wording is left to
`PlanarDrive.Fault.Message`.
-/

namespace PlanarDrive

inductive Fault (α : Type)
  | divisionByZero
  | outOfDomain
  | notANumber
  | tooLarge
  | notNumeric
  | wrongKind
  | noFields
  | missingKey (name : String)
  | outOfRange
  | badTimeStep (dt : α)
  | negativeRange (range : α)
  | tooFewBeams (count : Int)
  | callLimit (limit : Int)
  | alreadyCompleted (mission : String)
  | unknownCommand (op : String)
  | unknownObstacle (kind : String)
  | unknownMotion (kind : String)
  | unsupportedObstacle
  | unsupportedMotion
  | unknownMission (mission : String) (known : List String)
  | noScript (mission : String) (known : List String)
  | malformedText
  | unfitTag
  | tooDeep
  | noTypesetter
  | unknownFormat (name : String)
  | noSuchFile
  | isDirectory
  | notDirectory
  | fileExists
  | embeddedNull
  | nameTooLong
  deriving DecidableEq, Repr

end PlanarDrive
