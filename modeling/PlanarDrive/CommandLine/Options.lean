import PlanarDrive.Text.Digit

/-!
# Options of the command line

Options begin with a dash. A long option may be shortened while it stays unambiguous, and
its value may follow after an equals sign. Short options may stand together behind one dash.
Everything else on the command line is refused, and so is an option that needs a value and has
none. Two dashes in the place of an attached value leave the option without one.
-/

namespace PlanarDrive.CommandLine

structure Options where
  settings : Option String
  mission : Option String
  missionFile : Option String
  plot : Option String
  journal : Bool
  deriving DecidableEq, Repr

namespace Options

def standard : Options :=
  ⟨some "configs/sim.yaml", none, none, none, true⟩

inductive Flag
  | help
  | settings
  | mission
  | missionFile
  | plot
  | noJournal
  deriving DecidableEq, Repr

inductive Request
  | run (options : Options)
  | exit (code : Nat)
  deriving DecidableEq, Repr

def names : List (String × Flag) := [
  ("-h", .help), ("--help", .help), ("--config", .settings), ("--mission", .mission),
  ("--mission-file", .missionFile), ("--plot", .plot), ("--no-telemetry", .noJournal)]

/-- An argument as it was classified: an option with the value attached to it, an option
that nobody knows, the mark that ends the options, or a word. -/
inductive Argument
  | option (flag : Flag) (attached : Option String)
  | unknown
  | endMark
  | word (text : String)
  deriving DecidableEq, Repr

def splitEquals (text : List Char) : String × Option String :=
  let name := text.takeWhile (· != '=')
  (String.ofList name,
    if name.length < text.length then some (String.ofList (text.drop (name.length + 1))) else none)

def isDigit (c : Char) : Bool :=
  (Text.digitValue? c).isSome

def dropLineEnd (text : List Char) : List Char :=
  if text.getLast? == some '\n' then text.dropLast else text

def isNegativeNumber (text : List Char) : Bool :=
  match dropLineEnd text with
  | '-' :: body =>
    let whole := body.takeWhile isDigit
    match body.dropWhile isDigit with
    | [] => !whole.isEmpty
    | '.' :: rest => !rest.isEmpty && rest.all isDigit
    | _ => false
  | _ => false

/-- The short option for help. Behind it stands nothing but the same option again. -/
def shortHelp (more : List Char) : Argument :=
  .option .help
    (if !more.isEmpty && more.all (· == 'h') then none else some (String.ofList more))

def candidates (text : List Char) : List (Flag × Option String) :=
  match text with
  | '-' :: '-' :: _ =>
    let (name, attached) := splitEquals text
    names.filterMap fun (n, flag) =>
      if name.toList.isPrefixOf n.toList then some (flag, attached) else none
  | _ => []

/-- Classifies an argument; `none` when a shortened name is ambiguous. -/
def classify (arg : String) : Option Argument :=
  let text := arg.toList
  let (name, attached) := splitEquals text
  match names.lookup arg, text with
  | some flag, _ => some (.option flag none)
  | none, ['-'] => some (.word arg)
  | none, '-' :: 'h' :: '=' :: more | none, '-' :: 'h' :: more => some (shortHelp more)
  | none, '-' :: _ =>
    match names.lookup name, candidates text with
    | some flag, _ => some (.option flag attached)
    | none, [(flag, attached)] => some (.option flag attached)
    | none, _ :: _ :: _ => none
    | none, [] =>
      if isNegativeNumber text || text.contains ' ' then some (.word arg) else some .unknown
  | none, _ => some (.word arg)

/-- Classifies all arguments; after two dashes only words follow. -/
def classifyAll : List String → Option (List Argument)
  | [] => some []
  | "--" :: rest => some (.endMark :: rest.map .word)
  | arg :: rest => do
    let a ← classify arg
    let as ← classifyAll rest
    some (a :: as)

def set (o : Options) (flag : Flag) (value : Option String) : Options :=
  match flag with
  | .settings => { o with settings := value }
  | .mission => { o with mission := value }
  | .missionFile => { o with missionFile := value }
  | .plot => { o with plot := value }
  | _ => o

/-- Carries the options out from left to right. What nobody knows is refused at the end. -/
def collect (o : Options) (refused : Bool) : List Argument → Request
  | [] => if refused then .exit 2 else .run o
  | .option .help none :: _ => .exit 0
  | .option .help (some _) :: _ => .exit 2
  | .option .noJournal none :: rest => collect { o with journal := false } refused rest
  | .option .noJournal (some _) :: _ => .exit 2
  | .option flag (some value) :: rest =>
    collect (o.set flag (if value = "--" then none else some value)) refused rest
  | .option flag none :: .word value :: rest => collect (o.set flag (some value)) refused rest
  | .option _ none :: _ => .exit 2
  | .unknown :: rest => collect o true rest
  | .endMark :: rest => collect o true rest
  | .word _ :: rest => collect o true rest

def parse (args : List String) : Request :=
  match classifyAll args with
  | some as => collect standard false as
  | none => .exit 2

end Options

end PlanarDrive.CommandLine
