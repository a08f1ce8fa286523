import Stencil.Dependency.Graph

/-!
Cycles of a graph: its strongly connected components with more than one node, and the nodes that
depend on themselves. They are found in one depth-first search.
-/
namespace Stencil.Dependency

namespace Cycle

/-- What the search has seen: the nodes with the order they were met in, those whose component is
still open with the newest first, and the cycles that are complete. -/
structure Search (α : Type) where
  met : List (α × Nat)
  opened : List α
  cycles : List (List α)

variable {α : Type} [DecidableEq α] (g : Graph α)

/-- Closes the component of `root`, which ends the newest open nodes. It counts as a cycle if there
is a way from `root` to itself. -/
def close (root : α) (s : Search α) : Search α :=
  let newer := s.opened.takeWhile (· ≠ root)
  let left := (s.opened.dropWhile (· ≠ root)).drop 1
  if newer.isEmpty ∧ root ∉ g.dependencies root then { s with opened := left }
  else { s with opened := left, cycles := s.cycles ++ [root :: newer.reverse] }

/-- Searches from a node that was not met before. Gives the earliest open node that can be reached
from it; no way is longer than the bound. -/
def visit : Nat → α → Search α → Nat × Search α
  | 0, _, s => (s.met.length, s)
  | bound + 1, a, s =>
    let number := s.met.length
    let (low, s) := (g.dependencies a).foldl
      (fun (low, s) b =>
        match s.met.lookup b with
        | none =>
          let (low', s) := visit bound b s
          (min low low', s)
        | some n => if b ∈ s.opened then (min low n, s) else (low, s))
      (number, { s with met := (a, number) :: s.met, opened := a :: s.opened })
    (low, if low = number then close g a s else s)

end Cycle

/-- The cycles of a graph, one that others lead to before those. Each starts with the node that was
met first. -/
def Graph.cycles {α : Type} [DecidableEq α] (g : Graph α) : List (List α) :=
  (g.nodes.foldl
    (fun s a => if (s.met.lookup a).isSome then s else (Cycle.visit g (g.size + 1) a s).2)
    (⟨[], [], []⟩ : Cycle.Search α)).cycles

end Stencil.Dependency
