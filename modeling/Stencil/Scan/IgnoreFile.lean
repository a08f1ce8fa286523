import Stencil.Pattern.Glob
import Stencil.Pattern.Parser
import Stencil.Pattern.Search
import Stencil.Path
import Stencil.Text.Blank

/-!
Files that say which files to ignore: one pattern a line, `#` for comments, `!` for exceptions. The
patterns are about paths below the directory of the file.
-/
namespace Stencil.Scan
open Text

/-- Why it is not known whether a file is ignored. -/
inductive Fault
  /-- Nothing of a line is left to search for. -/
  | emptyRule
  /-- The set of a line is none. -/
  | badRule
  /-- The file is not below the directory that the rules are about. -/
  | outside
  | undecodable
deriving DecidableEq, Repr

/-- A line of an ignore file. -/
structure IgnoreLine where
  /-- An exception to the lines before. -/
  negated : Bool
  /-- A rule about directories. -/
  directory : Bool
  /-- The pattern is about the whole path, not only its end. -/
  anchored : Bool
  pattern : List Char
deriving DecidableEq, Repr

namespace IgnoreLine

/-- Several stars become one where they follow a character other than a slash. -/
def starsBehind : List Char → List Char
  | [] => []
  | c :: cs =>
    if c != '/' && ['*', '*'].isPrefixOf cs then
      c :: '*' :: starsBehind (cs.dropWhile (· == '*'))
    else c :: starsBehind cs
termination_by cs => cs.length
decreasing_by
  · have := (List.dropWhile_suffix (· == '*') (l := cs)).length_le
    simp only [List.length_cons]
    omega
  · simp

/-- Two stars become one where a character other than a slash follows. -/
def starsBefore : List Char → List Char
  | '*' :: '*' :: c :: cs =>
    if c == '/' then '*' :: '*' :: '/' :: starsBefore cs else '*' :: c :: starsBefore cs
  | c :: cs => c :: starsBefore cs
  | [] => []

/-- Drops the blanks at the end, given backwards. An escaped blank stays, and with it those before
it; the first two characters stay as well. -/
def trimEnd : Bool → List Char → List Char → List Char
  | strip, kept, ' ' :: c :: d :: rest =>
    if c == '\\' then trimEnd false (' ' :: kept) (d :: rest)
    else if strip then trimEnd strip kept (c :: d :: rest)
    else trimEnd strip (' ' :: kept) (c :: d :: rest)
  | _, kept, cs => cs.reverse ++ kept
termination_by _ _ cs => cs.length

/-- Reads a line. Comments and blank lines are no rules. -/
def ofString? (line : String) : Except Fault (Option IgnoreLine) :=
  let cs := line.toList
  if cs.all isBlank || cs.head? == some '#' then .ok none
  else
    let negated := cs.head? == some '!'
    let cs := starsBefore (starsBehind (if negated then cs.drop 1 else cs))
    if dropEndWhile isBlank cs == ['/'] then .ok none
    else
      match cs.getLast? with
      | none => .error .emptyRule
      | some last =>
        let directory := last == '/'
        let anchored := cs.dropLast.contains '/'
        let cs := if cs.head? == some '/' then cs.drop 1 else cs
        let stars := ['*', '*'].isPrefixOf cs
        let cs := if stars then cs.drop 2 else cs
        let cs := if cs.head? == some '/' then cs.drop 1 else cs
        let cs := if cs.getLast? == some '/' then cs.dropLast else cs
        match cs with
        | [] | ['\\'] => .error .emptyRule
        | c :: d =>
          let escaped := c == '\\' && (d.head? == some '#' || d.head? == some '!')
          let cs := if escaped then d else cs
          .ok (some ⟨negated, directory, anchored && !stars, trimEnd true [] cs.reverse⟩)

/-- A character that means itself in a search pattern. -/
def plain (c : Char) : List Char :=
  if "()[]\x7b\x7d?*+-|^$\\.&~# \t\n\r\x0b\x0c".toList.contains c then ['\\', c] else [c]

/-- The set between two brackets as one of a search pattern. A set of nothing but slashes is
none. -/
def setText? (set : List Char) : Option (List Char) :=
  match set.flatMap fun c => if c == '\\' then ['\\', '\\'] else if c == '/' then [] else [c] with
  | [] => none
  | '!' :: rest => some ('[' :: '^' :: rest ++ [']'])
  | '^' :: rest => some ('[' :: '\\' :: '^' :: rest ++ [']'])
  | rest => some ('[' :: rest ++ [']'])

/-- The pattern as a search pattern; no more than `bound` pieces. Only two stars cross slashes. -/
def searchText : Nat → List Char → Option (List Char)
  | 0, _ => some []
  | _, [] => some []
  | bound + 1, '*' :: '*' :: '/' :: cs => (searchText bound cs).map ("(.*[/])?".toList ++ ·)
  | bound + 1, '*' :: '*' :: cs => (searchText bound cs).map (".*".toList ++ ·)
  | bound + 1, '*' :: cs => (searchText bound cs).map ("[^/]*".toList ++ ·)
  | bound + 1, '?' :: cs => (searchText bound cs).map ("[^/]".toList ++ ·)
  | bound + 1, '/' :: cs => (searchText bound cs).map ("[/]".toList ++ ·)
  | bound + 1, '[' :: cs =>
    match Pattern.Glob.setText? cs with
    | none => (searchText bound cs).map ("\\[".toList ++ ·)
    | some (set, rest) => do return (← setText? set) ++ (← searchText bound rest)
  | bound + 1, c :: cs => (searchText bound cs).map (plain c ++ ·)

/-- A rule about directories covers all that is below; other rules end with the path. -/
def ending (l : IgnoreLine) : String :=
  if !l.directory then "$" else if l.negated then "/$" else "($|\\/)"

/-- What to search for in paths. -/
def search? (l : IgnoreLine) : Option String :=
  (searchText l.pattern.length l.pattern).map fun text =>
    (if l.anchored then "^" else "(^|[/])") ++ String.ofList text ++ l.ending

end IgnoreLine

/-- What a line says: the search pattern, if it is one. -/
structure IgnoreRule where
  negated : Bool
  regex : Option Pattern.Regex

def IgnoreRule.matches (r : IgnoreRule) (path : String) : Except Fault Bool :=
  match r.regex with
  | some regex => .ok (regex.occursIn path)
  | none => .error .badRule

/-- The rules about the files below a directory. -/
structure IgnoreFile where
  directory : Path
  rules : List IgnoreRule

namespace IgnoreFile

/-- The rule of a line that is one. -/
def ruleOf (line : String) : Except Fault (Option IgnoreRule) := do
  match ← IgnoreLine.ofString? line with
  | none => return none
  | some l =>
    match l.search? with
    | none => throw .emptyRule
    | some text => return some ⟨l.negated, (Pattern.Regex.parse text).toOption⟩

def ofText (directory : Path) (text : String) : Except Fault IgnoreFile := do
  let rules ← (splitOnChar '\n' text).mapM ruleOf
  return ⟨directory.normalized, rules.filterMap id⟩

/-- The first rule that matches. -/
def firstMatch (path : String) : List IgnoreRule → Except Fault (Option IgnoreRule)
  | [] => .ok none
  | r :: rs => do if ← r.matches path then return some r else firstMatch path rs

/-- Holds if a rule matches; where there are exceptions, the last rule that matches decides. -/
def ignores (f : IgnoreFile) (p : Path) : Except Fault Bool :=
  if f.rules.isEmpty then .ok false
  else
    let p := p.normalized
    if !p.isWithin f.directory then .error .outside
    else
      let path := (⟨false, p.partsBelow f.directory⟩ : Path).text
      let rules := if f.rules.any (·.negated) then f.rules.reverse else f.rules
      (firstMatch path rules).map fun r => r.any (!·.negated)

end IgnoreFile

end Stencil.Scan
