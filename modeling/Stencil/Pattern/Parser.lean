import Stencil.Pattern.Basic
import Stencil.Text.Case
import Stencil.Text.Escape
import Stencil.Text.Identifier
import Stencil.Text.Quoted

/-! Reading patterns. -/
namespace Stencil.Pattern

/-- What is wrong with a text that is no pattern. -/
inductive Fault
  | malformed
  | localeFlag
  | typeFlags
  | globalFlagOn
  | typeFlagOff
  | globalFlagOff
  | flagOnAndOff
  | afterFlags
  | afterOffFlags
  | extension (text : List Char)
  | groupName (name : List Char)
  | range (low high : List Char)
deriving DecidableEq, Repr

def Fault.message : Fault → String
  | malformed => "no pattern"
  | localeFlag => "bad inline flags: cannot use 'L' flag with a str pattern"
  | typeFlags => "bad inline flags: flags 'a', 'u' and 'L' are incompatible"
  | globalFlagOn => "bad inline flags: cannot turn on global flag"
  | typeFlagOff => "bad inline flags: cannot turn off flags 'a', 'u' and 'L'"
  | globalFlagOff => "bad inline flags: cannot turn off global flag"
  | flagOnAndOff => "bad inline flags: flag turned on and off"
  | afterFlags => "missing -, : or ) here"
  | afterOffFlags => "missing : here"
  | extension text => s!"unknown extension ?{String.ofList text} here"
  | groupName name => s!"bad character in group name {Text.quote (String.ofList name)}"
  | range low high => s!"bad character range {String.ofList low}-{String.ofList high} here"

namespace Parser

/-- A character, or a backslash with the character behind it. -/
inductive Tok
  | plain (c : Char)
  | escaped (c : Char)
deriving DecidableEq

def Tok.text : Tok → List Char
  | plain c => [c]
  | escaped c => ['\\', c]

/-- The tokens of a text; a backslash cannot stand at its end. -/
def tokens : List Char → Option (List Tok)
  | [] => some []
  | ['\\'] => none
  | '\\' :: c :: cs => (tokens cs).map (.escaped c :: ·)
  | c :: cs => (tokens cs).map (.plain c :: ·)

structure State where
  rest : List Tok
  /-- The widths of the groups from the first on; an open group has none yet. -/
  groups : List (Option Width)
  names : List (String × Nat)
  /-- The number of groups in front of the innermost look behind. -/
  behind : Option Nat
  /-- Groups that conditions ask for. -/
  asked : List Nat
  mode : Mode

abbrev Read := StateT State (Except Fault)

def failWith {α : Type} (f : Fault) : Read α := throw f

def fail {α : Type} : Read α := failWith .malformed

def next? : Read (Option Tok) := return (← get).rest.head?

/-- Takes the next token. -/
def get? : Read (Option Tok) := do
  let s ← get
  set { s with rest := s.rest.tail }
  return s.rest.head?

def accept (c : Char) : Read Bool := do
  match (← get).rest with
  | .plain d :: rest =>
    if c == d then
      modify fun s => { s with rest }
      return true
    else return false
  | _ => return false

/-- Takes up to `n` characters that satisfy `p`. -/
def takeWhile (p : Char → Bool) : Nat → Read (List Char)
  | 0 => return []
  | n + 1 => do
    match (← get).rest with
    | .plain c :: rest =>
      if p c then
        modify fun s => { s with rest }
        return c :: (← takeWhile p n)
      else return []
    | _ => return []

/-- Takes the text up to a character; it must not be empty. -/
def takeUntil (stop : Char) : Read (List Char) := do
  let s ← get
  let text := s.rest.takeWhile (· ≠ Tok.plain stop)
  let after := s.rest.drop text.length
  if text.isEmpty || after.isEmpty then fail
  set { s with rest := after.tail }
  return text.flatMap Tok.text

def isHex (c : Char) : Bool := (Text.Escape.hexValue? c).isSome

/-- A hexadecimal escape of exactly `width` digits. -/
def hexEscape (width : Nat) : Read Nat := do
  let ds ← takeWhile isHex width
  if ds.length < width then fail
  match Text.Escape.hexNumber? ds with
  | some n => if n > 0x10ffff then fail else return n
  | none => fail

def simpleEscape? : Char → Option Nat
  | 'a' => some 7
  | 'f' => some 12
  | 'n' => some 10
  | 'r' => some 13
  | 't' => some 9
  | 'v' => some 11
  | '\\' => some 92
  | _ => none

def classEscape? : Char → Option Member
  | 'd' => some (.cls .digit false)
  | 'D' => some (.cls .digit true)
  | 's' => some (.cls .space false)
  | 'S' => some (.cls .space true)
  | 'w' => some (.cls .word false)
  | 'W' => some (.cls .word true)
  | _ => none

def octal (ds : List Char) : Nat := Text.Escape.octalNumber ds

/-- What an escape means inside a set. -/
def setEscape (c : Char) : Read Member := do
  match simpleEscape? c, classEscape? c with
  | some n, _ => return .point n
  | none, some m => return m
  | none, none =>
    if c == 'b' then return Member.point 8
    else if c == 'x' then return .point (← hexEscape 2)
    else if c == 'u' then return .point (← hexEscape 4)
    else if c == 'U' then return .point (← hexEscape 8)
    else if Text.Escape.isOctal c then
      let ds ← takeWhile Text.Escape.isOctal 2
      let n := octal (c :: ds)
      if n > 0o377 then fail else return Member.point n
    else if c.isDigit || c.isAlpha then fail
    else return .point c.toNat

/-- Holds if a group may be referred to here. -/
def referable (s : State) (i : Nat) : Bool :=
  match s.groups[i - 1]? with
  | some (some _) => i > 0 && s.behind.all (i < · + 1)
  | _ => false

def backref (mode : Mode) (i : Nat) : Read Regex := do
  if referable (← get) i then return .backref mode i else fail

/-- An escape that starts with a digit other than zero: an octal number or a group. -/
def digitEscape (mode : Mode) (c : Char) : Read Regex := do
  let more ← takeWhile Char.isDigit 1
  match more with
  | [d] =>
    if Text.Escape.isOctal c && Text.Escape.isOctal d then
      match ← takeWhile Text.Escape.isOctal 1 with
      | [e] =>
        let n := octal [c, d, e]
        if n > 0o377 then fail else return .point mode n
      | _ => backref mode (10 * (c.toNat - 48) + (d.toNat - 48))
    else backref mode (10 * (c.toNat - 48) + (d.toNat - 48))
  | _ => backref mode (c.toNat - 48)

def anchorEscape? : Char → Option Anchor
  | 'A' => some .textStart
  | 'Z' => some .textStop
  | 'b' => some .boundary
  | 'B' => some .noBoundary
  | _ => none

/-- What an escape means outside sets. -/
def escape (mode : Mode) (c : Char) : Read Regex := do
  match anchorEscape? c, classEscape? c, simpleEscape? c with
  | some a, _, _ => return .anchor mode a
  | none, some m, _ => return .set mode false [m]
  | none, none, some n => return .point mode n
  | none, none, none =>
    if c == 'x' then return .point mode (← hexEscape 2)
    else if c == 'u' then return .point mode (← hexEscape 4)
    else if c == 'U' then return .point mode (← hexEscape 8)
    else if c == '0' then
      return .point mode (octal (← takeWhile Text.Escape.isOctal 2))
    else if c.isDigit then digitEscape mode c
    else if c.isAlpha then fail
    else return .point mode c.toNat

def member : Tok → Read Member
  | .plain c => return .point c.toNat
  | .escaped c => setEscape c

/-- The members of a set up to its bracket. -/
def members : Nat → List Member → Read (List Member)
  | 0, _ => fail
  | n + 1, found => fun s => (do
    match ← get? with
    | none => fail
    | some t =>
      if t = Tok.plain ']' && !found.isEmpty then return found.reverse
      let low ← member t
      if ← accept '-' then
        match ← get? with
        | none => fail
        | some u =>
          if u = Tok.plain ']' then return (Member.point '-'.toNat :: low :: found).reverse
          match low, ← member u with
          | .point a, .point b =>
            if b < a then failWith (.range t.text u.text) else members n (.range a b :: found)
          | _, _ => failWith (.range t.text u.text)
      else members n (low :: found)) s

def number (ds : List Char) : Nat := ds.foldl (fun n c => 10 * n + (c.toNat - 48)) 0

/-- The number from which on repetitions are refused. -/
def maxRepeat : Nat := 4294967295

/-- The bounds between braces behind an opening one, if they are bounds. -/
def bounds : Read (Option (Nat × Option Nat)) := do
  let s ← get
  if s.rest.head? == some (.plain '}') then return none
  let low ← takeWhile Char.isDigit s.rest.length
  let high ← if ← accept ',' then some <$> takeWhile Char.isDigit s.rest.length else pure none
  if ← accept '}' then
    let m := number low
    let n := match high with
      | none => if low.isEmpty then none else some m
      | some [] => none
      | some ds => some (number ds)
    if m ≥ maxRepeat || n.any (· ≥ maxRepeat) || n.any (· < m) then fail
    return some (m, n)
  else
    set s
    return none

/-- Holds of the parts that cannot be repeated once more. -/
def isRepeated : Regex → Bool
  | .repeated .. => true
  | _ => false

def isAnchor : Regex → Bool
  | .anchor .. => true
  | _ => false

/-- Repeats the last part. -/
def repeatLast (low : Nat) (high : Option Nat) (parts : List Regex) : Read (List Regex) := do
  match parts with
  | [] => fail
  | p :: ps =>
    if isAnchor p || isRepeated p then fail
    let greed ←
      if ← accept '?' then pure Greed.lazy
      else if ← accept '+' then pure Greed.possessive
      else pure Greed.greedy
    return .repeated low high greed p :: ps

inductive Letter
  | ignoreCase | multiline | dotAll | verbose | ascii | unicode | locale | template
deriving DecidableEq

def letter? : Char → Option Letter
  | 'i' => some .ignoreCase
  | 'm' => some .multiline
  | 's' => some .dotAll
  | 'x' => some .verbose
  | 'a' => some .ascii
  | 'u' => some .unicode
  | 'L' => some .locale
  | 't' => some .template
  | _ => none

def switch (on : Bool) (m : Mode) : Letter → Mode
  | .ignoreCase => { m with ignoreCase := on }
  | .multiline => { m with multiline := on }
  | .dotAll => { m with dotAll := on }
  | .verbose => { m with verbose := on }
  | .ascii => { m with ascii := on }
  | .unicode => { m with ascii := !on }
  | .template | .locale => m

def isType (o : Letter) : Bool := o == .ascii || o == .unicode

/-- What is wrong with a character that no option letter is. -/
def notAnOption (c : Char) (otherwise : Fault) : Fault :=
  if Text.isIdentifierStart c && c != '_' then .malformed else otherwise

/-- Option letters up to a character that may stand behind them. -/
def optionsOn : Nat → List Letter → Letter → Read (List Letter × Char)
  | 0, _, _ => fail
  | n + 1, found, o => fun s => (do
    if o == Letter.locale then failWith .localeFlag
    if isType o && found.any fun p => isType p && p != o then failWith .typeFlags
    let found := found ++ [o]
    match ← get? with
    | some (.plain c) =>
      if c == ')' || c == '-' || c == ':' then return (found, c)
      match letter? c with
      | some o => optionsOn n found o
      | none => failWith (notAnOption c .afterFlags)
    | _ => failWith .afterFlags) s

/-- Option letters behind a minus sign. -/
def optionsOff : Nat → List Letter → Letter → Read (List Letter)
  | 0, _, _ => fail
  | n + 1, found, o => fun s => (do
    if isType o || o == Letter.locale then failWith .typeFlagOff
    let found := found ++ [o]
    match ← get? with
    | some (.plain c) =>
      if c == ':' then return found
      match letter? c with
      | some o => optionsOff n found o
      | none => failWith (notAnOption c .afterOffFlags)
    | _ => failWith .afterOffFlags) s

/-- What stands behind the option letters: a mode for the whole pattern, or one for a group. -/
inductive Options
  | whole (on : List Letter)
  | part (on off : List Letter)

def optionGroup (first : Char) : Read Options := do
  let fuel := (← get).rest.length + 1
  let (on, close) ←
    if first == '-' then pure ([], '-')
    else
      match letter? first with
      | none => failWith (.extension [first])
      | some o => optionsOn fuel [] o
  if close == ')' then return .whole on
  if on.contains .template then failWith .globalFlagOn
  if close == ':' then return .part on []
  match ← get? with
  | some (.plain c) =>
    match letter? c with
    | none => fail
    | some o =>
      let off ← optionsOff fuel [] o
      if off.contains .template then failWith .globalFlagOff
      if off.any on.contains then failWith .flagOnAndOff
      return .part on off
  | _ => fail

/-- Opens a group and gives its number. -/
def openGroup (name : Option String) : Read Nat := do
  let s ← get
  let i := s.groups.length + 1
  match name with
  | none => set { s with groups := s.groups ++ [none] }
  | some name =>
    if (s.names.lookup name).isSome then fail
    set { s with groups := s.groups ++ [none], names := (name, i) :: s.names }
  return i

def widthOf (s : State) (r : Regex) : Width :=
  r.width fun i => ((s.groups[i - 1]?).getD none).getD .zero

def closeGroup (i : Nat) (r : Regex) : Read Unit :=
  modify fun s => { s with groups := s.groups.set (i - 1) (some (widthOf s r)) }

def expectClose : Read Unit := do
  if ← accept ')' then return () else fail

def groupName (stop : Char) : Read String := do
  let name ← takeUntil stop
  if Text.isIdentifier name then return String.ofList name else failWith (.groupName name)

/-- A part that looks behind has a fixed width. -/
def lookBehind (negated : Bool) (alternatives : Read Regex) : Read Regex := do
  let outer := (← get).behind
  modify fun s => { s with behind := outer.or (some s.groups.length) }
  let r ← alternatives
  modify fun s => { s with behind := outer }
  expectClose
  let w := widthOf (← get) r
  if w.high == some w.low then return .behind negated w.low r else fail

/-- The group that a condition asks about. -/
def condGroup : Read Nat := do
  let name ← takeUntil ')'
  let s ← get
  if Text.isIdentifier name then
    match s.names.lookup (String.ofList name) with
    | some i => if s.behind.isNone || referable s i then return i else fail
    | none => fail
  else if name.all Char.isDigit && number name > 0 then
    let i := number name
    modify fun s => { s with asked := i :: s.asked }
    if s.behind.isNone || referable s i then return i else fail
  else failWith (.groupName name)

section Groups

variable (mode : Mode) (alternatives : Mode → Read Regex) (sequence : Mode → Read Regex)

def capture (name : Option String) : Read Regex := do
  let i ← openGroup name
  let r ← alternatives mode
  expectClose
  closeGroup i r
  return .group (some i) r

/-- A condition with its one or two branches. -/
def condition : Read Regex := do
  let i ← condGroup
  let yes ← sequence mode
  let no ← if ← accept '|' then sequence mode else pure (.seq [])
  expectClose
  return .cond i yes no

/-- Skips a comment. -/
def comment : Read Unit := do
  let s ← get
  match s.rest.dropWhile (· ≠ Tok.plain ')') with
  | [] => fail
  | _ :: rest => set { s with rest }

/-- What stands behind an opening parenthesis. Comments and options for the whole give nothing. -/
def group (first : Bool) : Read (Option Regex) := do
  if ← accept '?' then
    match ← get? with
    | some (.plain 'P') =>
      if ← accept '<' then
        let name ← groupName '>'
        return some (← capture mode alternatives (some name))
      else if ← accept '=' then
        let name ← groupName ')'
        match (← get).names.lookup name with
        | some i => return some (← backref mode i)
        | none => fail
      else
        match ← get? with
        | some t => failWith (.extension ('P' :: t.text))
        | none => fail
    | some (.plain ':') =>
      let r ← alternatives mode
      expectClose
      return some (.group none r)
    | some (.plain '#') =>
      comment
      return none
    | some (.plain '=') =>
      let r ← alternatives mode
      expectClose
      return some (.ahead false r)
    | some (.plain '!') =>
      let r ← alternatives mode
      expectClose
      return some (.ahead true r)
    | some (.plain '<') =>
      match ← get? with
      | some (.plain '=') => return some (← lookBehind false (alternatives mode))
      | some (.plain '!') => return some (← lookBehind true (alternatives mode))
      | some t => failWith (.extension ('<' :: t.text))
      | none => fail
    | some (.plain '(') => return some (← condition mode sequence)
    | some (.plain '>') =>
      let r ← alternatives mode
      expectClose
      return some (.atomic r)
    | some (.plain c) =>
      match ← optionGroup c with
      | .whole on =>
        if first then
          modify fun s => { s with mode := on.foldl (switch true) s.mode }
          return none
        else fail
      | .part on off =>
        let r ← alternatives (off.foldl (switch false) (on.foldl (switch true) mode))
        expectClose
        return some (.group none r)
    | _ => fail
  else return some (← capture mode alternatives none)

def isLayout (c : Char) : Bool :=
  c == ' ' || c == '\t' || c == '\n' || c == '\r' || c == '\x0b' || c == '\x0c'

/-- One part behind others, which come backwards. -/
def part (mode : Mode) (first : Bool) (parts : List Regex) (t : Tok) : Read (List Regex) := do
  match t with
  | .escaped c => return (← escape mode c) :: parts
  | .plain '[' =>
    let negated ← accept '^'
    let ms ← members ((← get).rest.length + 1) []
    return .set mode negated ms :: parts
  | .plain '?' => repeatLast 0 (some 1) parts
  | .plain '*' => repeatLast 0 none parts
  | .plain '+' => repeatLast 1 none parts
  | .plain '{' =>
    match ← bounds with
    | none => return .point mode '{'.toNat :: parts
    | some (low, high) => repeatLast low high parts
  | .plain '.' => return .any mode :: parts
  | .plain '^' => return .anchor mode .start :: parts
  | .plain '$' => return .anchor mode .stop :: parts
  | .plain '(' =>
    match ← group mode alternatives sequence (first && parts.isEmpty) with
    | none => return parts
    | some r => return r :: parts
  | .plain c => return .point mode c.toNat :: parts

/-- Parts up to a bar, a closing parenthesis or the end. With `top`, options for the whole pattern
change the mode on the way. -/
def parts (top : Bool) : Nat → Mode → List Regex → Read (List Regex)
  | 0, _, _ => fail
  | n + 1, mode, found => fun s => (do
    match ← next? with
    | none | some (.plain '|') | some (.plain ')') => return found.reverse
    | some t =>
      let _ ← get?
      let verbose := mode.verbose
      match t with
      | .plain c =>
        if verbose && isLayout c then parts top n mode found
        else if verbose && c == '#' then
          modify fun (s : State) => { s with rest := (s.rest.dropWhile (· ≠ Tok.plain '\n')).tail }
          parts top n mode found
        else
          let found ← part alternatives sequence mode top found t
          let after ← get
          parts top n (if top then after.mode else mode) found
      | _ =>
        let found ← part alternatives sequence mode top found t
        parts top n mode found) s

end Groups

/-- Sequences, each behind a bar. -/
def further (sequence : Bool → Mode → Read Regex) (mode : Mode) : Nat → Read (List Regex)
  | 0 => fail
  | n + 1 => fun s => (do
    if ← accept '|' then
      let r ← sequence false mode
      let rs ← further sequence mode n
      return r :: rs
    else return []) s

/-- Sequences with bars between them. With `top`, the first of them may open with options for the
whole pattern. -/
def alternatives (sequence : Bool → Mode → Read Regex) (top : Bool) (mode : Mode) : Read Regex := do
  let first ← sequence top mode
  let s ← get
  let rest ← further sequence (if top then s.mode else mode) (s.rest.length + 1)
  return if rest.isEmpty then first else .alt (first :: rest)

/-- A sequence with groups inside each other to a depth below the first argument. -/
def sequence : Nat → Bool → Mode → Read Regex
  | 0, _, _ => fail
  | fuel + 1, top, mode => fun s => (do
    let inner := sequence fuel
    let found ← parts (alternatives inner false) (inner false) top (s.rest.length + 1) mode []
    return Regex.seq found) s

end Parser

/-- The pattern that a text stands for. -/
def Regex.parse (s : String) : Except Fault Regex := do
  match Parser.tokens s.toList with
  | none => throw .malformed
  | some toks =>
    let (r, st) ← (Parser.alternatives (Parser.sequence (toks.length + 1)) true .plain).run
      ⟨toks, [], [], none, [], .plain⟩
    if st.rest.isEmpty && st.asked.all (· ≤ st.groups.length) then return r else throw .malformed

end Stencil.Pattern
