import Stencil.Files.Tree
import Stencil.Settings.Basic

/-! The directory for generated code. It lies below the root of the project. -/
namespace Stencil.Settings

/-- Why a directory cannot serve as scratch directory. -/
inductive ScratchFault
  | empty
  | notRelative
  | unresolvable (dir : String) (failure : Files.Failure)
  | escapes (dir : String)
  | isRoot
  | linkLoop

def ScratchFault.message : ScratchFault → String
  | empty => "scratch_dir must be a non-empty relative path"
  | notRelative => "scratch_dir must be a relative path within the repo root"
  | unresolvable dir failure => s!"Failed to resolve scratch_dir '{dir}': {failure.message}"
  | escapes dir => s!"scratch_dir '{dir}' escapes the repository root"
  | isRoot => "scratch_dir must not be the repository root itself"
  | linkLoop => "Symlink loop"

def unresolved (dir : String) : Files.Tree.Unresolved → ScratchFault
  | .failure f => .unresolvable dir f
  | .loop _ => .linkLoop

/-- The scratch directory with all links resolved. -/
def resolveScratch (t : Files.Tree) (root : Path) (dir : String) : Except ScratchFault Path :=
  if dir == "" then .error .empty
  else if dir.startsWith "~" || (Path.ofString dir).absolute then .error .notRelative
  else
    match t.resolve false root.parts with
    | .error e => .error (unresolved dir e)
    | .ok base =>
      match t.resolve false (base ++ (Path.ofString dir).parts) with
      | .error e => .error (unresolved dir e)
      | .ok place =>
        if !base.isPrefixOf place then .error (.escapes dir)
        else if place.length == base.length then .error .isRoot
        else .ok ⟨true, place⟩

end Stencil.Settings
