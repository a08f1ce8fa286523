import Stencil.Text.Word

/-!
The arguments of the program: a command, then its options and paths. Options may be shortened as
long as one option is meant, and may have their value in the same argument.
-/
namespace Stencil.CommandLine

/-- Arguments that start no run. -/
inductive Refusal
  | help
  | misuse
deriving DecidableEq, Repr

def Refusal.status : Refusal → Nat
  | help => 0
  | misuse => 2

inductive Flag
  | help | root | debug | baseline
deriving DecidableEq, Repr

/-- A value in the same argument as its option, behind an equals sign or right behind a letter. -/
structure Attached where
  equals : Bool
  value : String
deriving DecidableEq, Repr

inductive Argument
  | word (text : String)
  /-- Two dashes; no option is behind them. -/
  | divider
  | flag (name : String) (flag : Flag) (attached : Option Attached)
  | unknownFlag
deriving DecidableEq, Repr

/-- The options of a command by their names. -/
abbrev Flags := List (String × Flag)

def topFlags : Flags := [("-h", .help), ("--help", .help)]

def analyzeFlags : Flags := topFlags ++ [
  ("--root", .root), ("--debug", .debug), ("-b", .baseline), ("--generate-baseline", .baseline)]

/-- Holds of a minus sign with digits, one point among them at most. -/
def isNegativeNumber (cs : List Char) : Bool :=
  match cs with
  | '-' :: rest =>
    let rest := if rest.getLast? = some '\n' then rest.dropLast else rest
    match rest.span Text.isDecimal with
    | (whole, []) => !whole.isEmpty
    | (_, '.' :: places) => !places.isEmpty && places.all Text.isDecimal
    | _ => false
  | _ => false

/-- The text before the first equals sign, and what is behind it. -/
def splitEquals (s : String) : String × Option Attached :=
  match s.toList.span (· ≠ '=') with
  | (name, '=' :: value) => (String.ofList name, some ⟨true, String.ofList value⟩)
  | _ => (s, none)

/-- The options that an argument with a dash can stand for. -/
def meanings (flags : Flags) (s : String) : List Argument :=
  if s.startsWith "--" then
    let (start, attached) := splitEquals s
    (flags.filter fun f => start.toList.isPrefixOf f.1.toList).map fun f =>
      .flag f.1 f.2 attached
  else
    (flags.filter fun f => f.1.toList = s.toList.take 2).map fun f =>
      .flag f.1 f.2 (some ⟨false, String.ofList (s.toList.drop 2)⟩)

def classify (flags : Flags) (s : String) : Except Refusal Argument :=
  if !s.startsWith "-" || s == "-" then .ok (.word s)
  else
    match flags.lookup s with
    | some f => .ok (.flag s f none)
    | none =>
      let (name, attached) := splitEquals s
      match attached, flags.lookup name with
      | some a, some f => .ok (.flag name f (some a))
      | _, _ =>
        match meanings flags s with
        | [a] => .ok a
        | _ :: _ :: _ => .error .misuse
        | [] =>
          if isNegativeNumber s.toList || s.toList.contains ' ' then .ok (.word s)
          else .ok .unknownFlag

/-- The arguments in front of a divider are options and words, those behind it words alone. -/
def classifyAll (flags : Flags) : List String → Except Refusal (List Argument)
  | [] => .ok []
  | s :: rest =>
    if s == "--" then .ok (.divider :: rest.map .word)
    else do return (← classify flags s) :: (← classifyAll flags rest)

/-- Whether letters may follow an option that takes no value. -/
def lettersFit (flags : Flags) : List Char → Bool
  | [] => true
  | c :: rest =>
    c != '-' && match flags.lookup (String.ofList ['-', c]), rest with
      | some .help, '=' :: _ | some .debug, '=' :: _ => false
      | some .help, rest | some .debug, rest => lettersFit flags rest
      | _, _ => true

/-- Whether an option that takes no value may have this one. Behind a single dash it is read as the
letters of further options. -/
def canCarry (flags : Flags) (name : String) (a : Attached) : Bool :=
  !name.startsWith "--" && !a.equals && a.value != "" && lettersFit flags a.value.toList

/-- What an analysis is asked for on the command line. -/
structure Arguments where
  paths : List String
  root : String
  debug : Bool
  baseline : Option String
deriving DecidableEq, Repr

namespace Arguments

def default : Arguments := ⟨[], ".", false, none⟩

/-- Where a baseline goes if no file is named. -/
def defaultBaseline : String := "jinjastan-baseline.json"

end Arguments

/-- The arguments up to the next option. -/
def leadingWords : List Argument → List String
  | .word s :: rest => s :: leadingWords rest
  | .divider :: rest => "--" :: leadingWords rest
  | _ => []

/-- Arguments read so far: the values, whether the paths were there, and whether something was that
belongs nowhere. -/
structure Progress where
  values : Arguments
  pathsDone : Bool
  strays : Bool

namespace Progress

/-- Takes the words in front. Paths stand in one row; a divider among them is not one. -/
def addWords (p : Progress) (words : List String) : Progress :=
  if p.pathsDone then { p with strays := true }
  else { p with values := { p.values with paths := words.erase "--" }, pathsDone := true }

end Progress

def readFlags : Nat → Progress → List Argument → Except Refusal Progress
  | 0, p, _ => .ok p
  | _, p, [] => .ok p
  | bound + 1, p, a :: rest =>
    match a with
    | .unknownFlag => readFlags bound { p with strays := true } rest
    | .flag name .help attached =>
      .error (if attached.all (canCarry analyzeFlags name) then .help else .misuse)
    | .flag _ .debug attached =>
      if attached.isSome then .error .misuse
      else readFlags bound { p with values := { p.values with debug := true } } rest
    | .flag _ .root attached =>
      match attached, rest with
      | some a, _ => readFlags bound { p with values := { p.values with root := a.value } } rest
      | none, .word s :: rest =>
        readFlags bound { p with values := { p.values with root := s } } rest
      | none, _ => .error .misuse
    | .flag _ .baseline attached =>
      let setTo := fun s => { p with values := { p.values with baseline := some s } }
      match attached, rest with
      | some a, _ => readFlags bound (setTo a.value) rest
      | none, .word s :: rest => readFlags bound (setTo s) rest
      | none, _ => readFlags bound (setTo Arguments.defaultBaseline) rest
    | .word _ | .divider =>
      let words := leadingWords (a :: rest)
      readFlags bound (p.addWords words) ((a :: rest).drop words.length)

/-- The options and paths of an analysis; `strays` holds if something before them belongs
nowhere. -/
def readAnalyze (strays : Bool) (args : List String) : Except Refusal Arguments := do
  let args ← classifyAll analyzeFlags args
  let p ← readFlags (args.length + 1) ⟨.default, false, strays⟩ args
  if p.strays then throw .misuse
  return p.values

def commands : List String := ["analyze", "analyse"]

/-- Looks for the command; before it only help can be asked for. -/
def readCommand (strays : Bool) : List String → Except Refusal Arguments
  | [] => .error .misuse
  | s :: rest =>
    if s == "--" then .error .misuse
    else
      match classify topFlags s with
      | .error e => .error e
      | .ok (.word command) =>
        if commands.contains command then readAnalyze strays rest else .error .misuse
      | .ok (.flag name _ attached) =>
        .error (if attached.all (canCarry topFlags name) then .help else .misuse)
      | .ok .divider | .ok .unknownFlag => readCommand true rest

/-- Reads the arguments of the program. -/
def read (args : List String) : Except Refusal Arguments := readCommand false args

end Stencil.CommandLine
