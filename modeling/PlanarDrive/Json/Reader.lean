import PlanarDrive.Json.Token

/-!
# Reading JSON

A text is one value between blanks. Records may repeat a name, the last value counting.
Beside the numbers of the standard, infinite numbers and not-a-number have names.
-/

namespace PlanarDrive.Json

def depthLimit : Nat :=
  985

mutual

/-- The value at the front of the tokens, inside which lists and records are nested up to
`depth`. The fuel bounds nesting and width. -/
def value : Nat → Nat → List Token → Except (Fault Binary64) (Value × List Token)
  | 0, _, _ => .error .malformedText
  | fuel + 1, depth, tokens =>
    match depth, tokens with
    | _, .leaf v :: rest => .ok (v, rest)
    | _, .name s :: rest => .ok (.text s, rest)
    | 0, .openList :: _ | 0, .openRecord :: _ => .error .tooDeep
    | _ + 1, .openList :: .closeList :: rest => .ok (.list [], rest)
    | depth + 1, .openList :: rest => items fuel depth [] rest
    | _ + 1, .openRecord :: .closeRecord :: rest => .ok (.record [], rest)
    | depth + 1, .openRecord :: rest => fields fuel depth [] rest
    | _, .longInteger :: _ => .error .notNumeric
    | _, _ => .error .malformedText

/-- The items of a list up to its closing bracket, the latest first in `past`. -/
def items : Nat → Nat → List Value → List Token →
    Except (Fault Binary64) (Value × List Token)
  | 0, _, _, _ => .error .malformedText
  | fuel + 1, depth, past, tokens => do
    let (v, rest) ← value fuel depth tokens
    match rest with
    | .closeList :: rest => .ok (.list (v :: past).reverse, rest)
    | .comma :: rest => items fuel depth (v :: past) rest
    | _ => .error .malformedText

def fields : Nat → Nat → List (String × Value) → List Token →
    Except (Fault Binary64) (Value × List Token)
  | 0, _, _, _ => .error .malformedText
  | fuel + 1, depth, past, tokens =>
    match tokens with
    | .name n :: .colon :: rest => do
      let (v, rest) ← value fuel depth rest
      match rest with
      | .closeRecord :: rest => .ok (Value.ofFields ((n, v) :: past).reverse, rest)
      | .comma :: rest => fields fuel depth ((n, v) :: past) rest
      | _ => .error .malformedText
    | _ => .error .malformedText

end

def read (text : List Char) : Except (Fault Binary64) Value := do
  let tokens := tokens text
  let (v, rest) ← value (tokens.length + 1) depthLimit tokens
  if rest.isEmpty then .ok v else .error .malformedText

end PlanarDrive.Json
