/-! Directed graphs: nodes with what they depend on. -/
namespace Stencil.Dependency

/-- Nodes with their dependencies, in the order in which they were found. A dependency need not be a
node itself. -/
structure Graph (α : Type) where
  entries : List (α × List α)

namespace Graph

variable {α : Type} [DecidableEq α] (g : Graph α) (a b c : α)

def empty : Graph α := ⟨[]⟩

def nodes : List α := g.entries.map (·.1)

/-- What a node depends on; nothing if it is no node. -/
def dependencies : List α := (g.entries.lookup a).getD []

/-- Holds of the nodes that are known. -/
def hasNode : Bool := (g.entries.lookup a).isSome

def addNode : Graph α := if g.hasNode a then g else ⟨g.entries ++ [(a, [])]⟩

/-- Lets `a` depend on `b`; both become nodes. -/
def addEdge : Graph α :=
  ⟨((g.addNode a).addNode b).entries.map fun e =>
    if e.1 = a ∧ b ∉ e.2 then (e.1, e.2 ++ [b]) else e⟩

/-- The dependencies of a node replaced; a new node comes last. -/
def setNode (dependencies : List α) : Graph α :=
  ⟨(g.addNode a).entries.map fun e => if e.1 = a then (a, dependencies) else e⟩

def ofList (entries : List (α × List α)) : Graph α :=
  entries.foldl (fun g e => g.setNode e.1 e.2) empty

/-- No more nodes than this can be met on the way through the graph. -/
def size : Nat := g.entries.foldl (fun n e => n + e.2.length + 1) 0

@[simp] theorem hasNode_iff : g.hasNode a ↔ a ∈ g.nodes := by
  simp [hasNode, nodes]

theorem nodes_addNode : (g.addNode a).nodes = if a ∈ g.nodes then g.nodes else g.nodes ++ [a] := by
  unfold addNode
  simp only [hasNode_iff]
  split <;> simp [nodes]

theorem mem_nodes_addNode : b ∈ (g.addNode a).nodes ↔ b ∈ g.nodes ∨ b = a := by
  rw [nodes_addNode]
  split
  · next h => exact ⟨.inl, fun hb => hb.elim id fun hb => hb ▸ h⟩
  · simp

theorem nodes_addEdge : (g.addEdge a b).nodes = ((g.addNode a).addNode b).nodes := by
  unfold addEdge nodes
  rw [List.map_map]
  refine List.map_congr_left fun e _ => ?_
  simp only [Function.comp]
  split <;> rfl

theorem mem_nodes_addEdge : c ∈ (g.addEdge a b).nodes ↔ c ∈ g.nodes ∨ c = a ∨ c = b := by
  rw [nodes_addEdge, mem_nodes_addNode, mem_nodes_addNode, or_assoc]

theorem dependencies_addNode : (g.addNode a).dependencies b = g.dependencies b := by
  unfold addNode dependencies
  split
  · rfl
  · next h =>
    rw [List.lookup_append]
    cases hb : g.entries.lookup b with
    | some bs => rfl
    | none =>
      by_cases hba : b = a
      · simp [hba]
      · have hne : (b == a) = false := by simpa using hba
        simp [List.lookup_cons, hne]

/-- The lists of a graph changed one by one; the nodes stay. -/
theorem lookup_map (f : α → List α → List α) (entries : List (α × List α)) :
    (entries.map fun e => (e.1, f e.1 e.2)).lookup a = (entries.lookup a).map (f a) := by
  induction entries with
  | nil => rfl
  | cons e es ih =>
    obtain ⟨b, bs⟩ := e
    by_cases h : a = b
    · simp [h]
    · have hne : (a == b) = false := by simpa using h
      simp [List.lookup_cons, hne, ih]

theorem dependencies_addEdge : (g.addEdge a b).dependencies c =
    if c = a ∧ b ∉ g.dependencies c then g.dependencies c ++ [b] else g.dependencies c := by
  have hmap : (g.addEdge a b).entries = ((g.addNode a).addNode b).entries.map fun e =>
      (e.1, if e.1 = a ∧ b ∉ e.2 then e.2 ++ [b] else e.2) := by
    unfold addEdge
    refine List.map_congr_left fun e _ => ?_
    split <;> rfl
  have hnode : ((g.addNode a).addNode b).hasNode a := by
    rw [hasNode_iff, mem_nodes_addNode, mem_nodes_addNode]
    exact .inl (.inr rfl)
  have hkeep : ((g.addNode a).addNode b).dependencies c = g.dependencies c := by
    rw [dependencies_addNode, dependencies_addNode]
  unfold dependencies hasNode at *
  rw [hmap, lookup_map _ (fun x xs => if x = a ∧ b ∉ xs then xs ++ [b] else xs), ← hkeep]
  cases hc : ((g.addNode a).addNode b).entries.lookup c with
  | some bs => simp
  | none =>
    have hca : c ≠ a := by
      rintro rfl
      simp [hc] at hnode
    simp [hca]

end Graph

end Stencil.Dependency
