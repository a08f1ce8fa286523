import Stencil.Digest.Sha1
import Stencil.Path
import Stencil.Text.Word

/-!
The names of generated files: a readable trace of the template's own name and a digest of its path,
so templates of one name get files of their own.
-/
namespace Stencil.Code

/-- Every run of characters that are not part of words becomes one underscore. -/
def joinWords : List Char → List Char
  | [] => []
  | [c] => [if Text.isWord c then c else '_']
  | c :: d :: cs =>
    if Text.isWord c then c :: joinWords (d :: cs)
    else if Text.isWord d then '_' :: joinWords (d :: cs)
    else joinWords (d :: cs)

def readableName (name : String) : List Char :=
  let cs := Text.trimWith (· == '_') (joinWords name.toList)
  match cs with
  | [] => "template".toList
  | c :: _ => if Text.isDigitForm c then 't' :: '_' :: cs else cs

def fileName (template : Path) : String :=
  String.ofList (readableName template.name) ++ "_" ++
    String.ofList ((Digest.Sha1.hex template.text.toUTF8.toList).take 8) ++ ".py"

end Stencil.Code
