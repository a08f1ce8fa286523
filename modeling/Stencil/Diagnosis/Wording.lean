import Stencil.Code.Name
import Stencil.Diagnosis.Basic
import Stencil.Text.Word

/-! Messages about generated code in the words of templates. -/
namespace Stencil.Diagnosis
open Text

/-- Names that every module has besides those it defines. -/
def moduleNames : List String := [
  "__annotations__", "__class__", "__delattr__", "__dict__", "__dir__", "__eq__", "__format__",
  "__ge__", "__getattribute__", "__getstate__", "__gt__", "__hash__", "__init__",
  "__init_subclass__", "__le__", "__lt__", "__ne__", "__new__", "__reduce__", "__reduce_ex__",
  "__repr__", "__setattr__", "__sizeof__", "__str__", "__subclasshook__"]

/-- What a template calls a filter or test: without the underscore that reserved names get. -/
def spokenName (attr : List Char) : List Char :=
  match attr.getLast? with
  | some '_' =>
    let bare := String.ofList attr.dropLast
    if Code.isReserved bare || moduleNames.contains bare then attr.dropLast else attr
  | _ => attr

/-- The rest behind a text that `cs` begins with. -/
def after? (start : String) (cs : List Char) : Option (List Char) :=
  if start.toList.isPrefixOf cs then some (cs.drop start.length) else none

/-- The word between `start` and `stop`, with the rest behind. -/
def wordBetween? (start stop : String) (cs : List Char) : Option (List Char × List Char) :=
  (after? start cs).bind fun cs =>
    let word := cs.takeWhile isWord
    if word.isEmpty then none else (after? stop (cs.dropWhile isWord)).map (word, ·)

/-- The name without the suffixes of parents' blocks; some of the name has to remain. -/
def withoutSuper : Nat → List Char → List Char
  | 0, cs => cs
  | bound + 1, cs =>
    let suffix := Code.superSuffix.toList
    if suffix.isSuffixOf cs && cs.length > suffix.length then
      withoutSuper bound (cs.take (cs.length - suffix.length))
    else cs

/-- A message about a function of a block that is missing. -/
def missingBlock? (cs : List Char) : Option String :=
  match wordBetween? ("Name \"" ++ Code.blockStem) "\" is not defined" cs with
  | some (word, rest) =>
    if rest.isEmpty || rest == ['\n'] then
      let name := withoutSuper word.length word
      if name == word then some s!"Block \"{String.ofList word}\" is not defined"
      else some s!"Block \"{String.ofList name}\" has no parent block to call with super()"
    else none
  | none => none

/-- A message about a filter or test that is missing; what follows the name is dropped. -/
def missingFunction? (cs : List Char) : Option String :=
  [("filters", "filter"), ("tests", "test")].findSome? fun (module, kind) =>
    (wordBetween? s!"Module \"jinjastan_runtime.{module}\" has no attribute \"" "\"" cs).map
      fun (word, _) => s!"Unknown {kind} \"{String.ofList (spokenName word)}\""

/-- The modules whose names are no use to readers of templates. -/
def qualifiers : List String := [
  "jinjastan_runtime.runtime.", "jinjastan_runtime.filters.", "jinjastan_runtime.tests.",
  "builtins."]

/-- Takes out the qualifiers that start a word. No more than `bound` characters are looked at. -/
def dropQualifiers : Nat → Bool → List Char → List Char
  | 0, _, cs => cs
  | _, _, [] => []
  | bound + 1, inWord, c :: cs =>
    match if inWord then none else qualifiers.findSome? (after? · (c :: cs)) with
    | some rest => dropQualifiers bound false rest
    | none => c :: dropQualifiers bound (isWord c) cs

def unqualified (s : String) : String :=
  String.ofList (dropQualifiers s.length false s.toList)

/-- Puts the template's names for the quoted ones. No more than `bound` characters are looked at. -/
def respeak : Nat → List Char → List Char
  | 0, cs => cs
  | _, [] => []
  | bound + 1, c :: cs =>
    match wordBetween? "\"" "\"" (c :: cs) with
    | some (word, rest) =>
      if word.length > 1 && word.getLast? == some '_' then
        ('"' :: spokenName word ++ ['"']) ++ respeak bound rest
      else c :: respeak bound cs
    | none => c :: respeak bound cs

/-- A message in the words of templates. -/
def reworded (message : String) : String :=
  match missingBlock? message.toList with
  | some s => s
  | none =>
    match missingFunction? message.toList with
    | some s => s
    | none =>
      let s := unqualified message
      String.ofList (respeak s.length s.toList)

/-- A diagnostic whose message and tip speak of templates. -/
def Diagnostic.reword (d : Diagnostic) : Diagnostic :=
  { d with message := reworded d.message, tip := d.tip.map unqualified }

end Stencil.Diagnosis
