import Stencil.Settings.Basic
import Stencil.Template.Parser

/-! The extensions of the template language that a project can switch on, by name. -/
namespace Stencil.Settings
open Template

inductive Extension
  | doTag
  | loopControls
  | translation
  | debug
  /-- One that adds nothing. -/
  | plain
deriving DecidableEq, Repr

/-- Why a name stands for no extension. -/
inductive NoExtension
  | noModule
  | emptyModule
  | noMember
  /-- The name of something else. -/
  | notCallable
deriving DecidableEq, Repr

/-- The module with the extensions. -/
def extensionModule : String := "jinja2.ext"

def extensionNamed? : String → Option Extension
  | "do" | "ExprStmtExtension" => some .doTag
  | "loopcontrols" | "LoopControlExtension" => some .loopControls
  | "i18n" | "InternationalizationExtension" => some .translation
  | "debug" | "DebugExtension" => some .debug
  | "Extension" => some .plain
  | _ => none

/-- A name as a module and a member of it; the last point divides if there is no colon. -/
def splitName (name : String) : Option (String × String) :=
  match name.toList.span (· ≠ ':') with
  | (m, ':' :: member) => some (String.ofList m, String.ofList member)
  | _ =>
    let member := Text.takeEndWhile (· ≠ '.') name.toList
    if member.length == name.length then none
    else
      some (String.ofList (name.toList.take (name.length - member.length - 1)),
        String.ofList member)

def extension (name : String) : Except NoExtension Extension :=
  match splitName name with
  | none =>
    if name == "" then .error .emptyModule
    else if name == "jinja2" then .error .notCallable
    else .error .noModule
  | some (m, member) =>
    if m == "" then .error .emptyModule
    else if m == extensionModule then
      match extensionNamed? member with
      | some e => .ok e
      | none => .error .noMember
    else if m == "jinja2" then (if member == "ext" then .error .notCallable else .error .noMember)
    else .error .noModule

/-- The language of the project's templates. -/
def dialect (s : Settings) : Except NoExtension Dialect := do
  let extensions ← s.extensions.mapM extension
  return ⟨extensions.contains .translation, extensions.contains .debug⟩

end Stencil.Settings
