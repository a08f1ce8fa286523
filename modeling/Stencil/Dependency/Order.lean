import Stencil.Dependency.Cycle

/-! Orders in which every node stands behind what it depends on. -/
namespace Stencil.Dependency

/-- A graph has no order; these are its cycles. -/
structure Circular (α : Type) where
  cycles : List (List α)

namespace Circular

variable {α : Type} (e : Circular α)

def members : List α := e.cycles.flatten

def message [ToString α] : String :=
  "Circular template dependency detected: " ++
    "; ".intercalate (e.cycles.map fun c => " -> ".intercalate (c.map toString))

end Circular

namespace Graph

variable {α : Type} [DecidableEq α] (g : Graph α)

/-- Works off a path of nodes, the newest first, each with its dependencies that are not looked at
yet. A node is done when none are left. The nodes that are done come newest first. -/
def workOff : Nat → List (α × List α) → List α → List α
  | 0, _, done => done
  | _, [], done => done
  | bound + 1, (a, []) :: path, done => workOff bound path (if a ∈ done then done else a :: done)
  | bound + 1, (a, b :: bs) :: path, done =>
    let path := (a, bs) :: path
    if b ∈ done ∨ b ∈ path.map (·.1) then workOff bound path done
    else workOff bound ((b, g.dependencies b) :: path) done

/-- Every node and entry once, behind what it depends on. The entries come first, and what a node
depends on in its own order. -/
def order (entries : List α) : List α :=
  ((entries ++ g.nodes).foldl
    (fun done a =>
      if a ∈ done then done else g.workOff (2 * g.size + 2) [(a, g.dependencies a)] done) []).reverse

/-- The order of a graph without cycles. -/
def sort (entries : List α) : Except (Circular α) (List α) :=
  match g.cycles with
  | [] => .ok (g.order entries)
  | c :: cs => .error ⟨c :: cs⟩

end Graph

end Stencil.Dependency
