import Stencil.Dependency.Order
import Stencil.Proofs.Dependency.Search

/-!
The cycles of a graph as a whole: each node with a way to itself is in one of them, together with all
that it leads to and that leads to it, and a cycle comes behind those it leads to.
-/
namespace Stencil.Dependency.Graph

open Relation Cycle

variable {α : Type} [DecidableEq α] {g : Graph α} {a b c : α} {cycles : List (List α)}
  {nodes nodes' : List α}

/-- The lists of nodes that lie on cycles together. -/
structure AreCycles (g : Graph α) (cycles : List (List α)) : Prop where
  nodup : ∀ nodes ∈ cycles, nodes.Nodup
  disjoint : cycles.Pairwise List.Disjoint
  mem_iff : ∀ a, (∃ nodes ∈ cycles, a ∈ nodes) ↔ g.OnCycle a
  /-- Two nodes are together if each leads to the other. -/
  together_iff : ∀ a b, a ≠ b →
    ((∃ nodes ∈ cycles, a ∈ nodes ∧ b ∈ nodes) ↔ g.Reaches a b ∧ g.Reaches b a)
  /-- What can be reached from another list stands before it. -/
  before : ∀ nodes ∈ cycles, ∀ others ∈ cycles, nodes ≠ others →
    (∃ b ∈ others, ∃ a ∈ nodes, g.Reaches b a) → [nodes, others].Sublist cycles

theorem filed_cycles (g : Graph α) : ∃ s : Search α, s.cycles = g.cycles ∧ Filed g s := by
  obtain ⟨s, hs, htidy, -⟩ := g.cycles_tidy
  exact ⟨s, hs, htidy.filed⟩

theorem nodup_of_mem_cycles (h : nodes ∈ g.cycles) : nodes.Nodup := by
  obtain ⟨s, hs, hfiled⟩ := g.filed_cycles
  exact hfiled.nodup nodes (hs ▸ h)

/-- A cycle leads to none that comes behind it. -/
theorem ordered_cycles (g : Graph α) :
    g.cycles.Pairwise fun older newer => ∀ c ∈ older, ∀ b ∈ newer, ¬ g.Reaches c b := by
  obtain ⟨s, hs, hfiled⟩ := g.filed_cycles
  exact hs ▸ hfiled.ordered

theorem disjoint_cycles (g : Graph α) : g.cycles.Pairwise List.Disjoint :=
  g.ordered_cycles.imp fun h a ha ha' => h a ha a ha' .refl

theorem onCycle_of_mem (h : nodes ∈ g.cycles) (ha : a ∈ nodes) : g.OnCycle a := by
  obtain ⟨c, hc, hmem⟩ := isComponent_of_mem_cycles h
  obtain ⟨hca, hac⟩ := (hmem a).1 ha
  exact (TransGen.trans_right hac hc).trans_left hca

/-- The nodes of a cycle lead to each other and to no others that lead back. -/
theorem mem_iff_of_mem (h : nodes ∈ g.cycles) (ha : a ∈ nodes) :
    b ∈ nodes ↔ g.Reaches a b ∧ g.Reaches b a := by
  obtain ⟨c, -, hmem⟩ := isComponent_of_mem_cycles h
  obtain ⟨hca, hac⟩ := (hmem a).1 ha
  rw [hmem b]
  constructor
  · rintro ⟨hcb, hbc⟩
    exact ⟨hac.trans hcb, hbc.trans hca⟩
  · rintro ⟨hab, hba⟩
    exact ⟨hca.trans hab, hba.trans hac⟩

theorem onCycle_of_reaches (hne : a ≠ b) (hab : g.Reaches a b) (hba : g.Reaches b a) :
    g.OnCycle a := by
  obtain rfl | ⟨c, hac, hcb⟩ := ReflTransGen.cases_head hab
  · exact absurd rfl hne
  · exact .head' hac (hcb.trans hba)

theorem together_cycles (hne : a ≠ b) :
    (∃ nodes ∈ g.cycles, a ∈ nodes ∧ b ∈ nodes) ↔ g.Reaches a b ∧ g.Reaches b a := by
  constructor
  · rintro ⟨nodes, hnodes, ha, hb⟩
    exact (mem_iff_of_mem hnodes ha).1 hb
  · rintro ⟨hab, hba⟩
    obtain ⟨nodes, hnodes, ha⟩ := exists_mem_cycles (onCycle_of_reaches hne hab hba)
    exact ⟨nodes, hnodes, ha, (mem_iff_of_mem hnodes ha).2 ⟨hab, hba⟩⟩

omit [DecidableEq α] in
/-- Of two members of a list one stands before the other. -/
theorem sublist_or_sublist {l : List α} (ha : a ∈ l) (hb : b ∈ l) (hne : a ≠ b) :
    [a, b].Sublist l ∨ [b, a].Sublist l := by
  induction l with
  | nil => simp at ha
  | cons c l ih =>
    rcases List.mem_cons.1 ha with rfl | ha' <;> rcases List.mem_cons.1 hb with rfl | hb'
    · exact absurd rfl hne
    · exact .inl ((List.singleton_sublist.2 hb').cons_cons a)
    · exact .inr ((List.singleton_sublist.2 ha').cons_cons b)
    · exact (ih ha' hb').imp (.cons c) (.cons c)

theorem before_cycles (h : nodes ∈ g.cycles) (h' : nodes' ∈ g.cycles) (hne : nodes ≠ nodes')
    (hreach : ∃ b ∈ nodes', ∃ a ∈ nodes, g.Reaches b a) : [nodes, nodes'].Sublist g.cycles := by
  refine (sublist_or_sublist h h' hne).resolve_right fun hsub => ?_
  obtain ⟨b, hb, a, ha, hba⟩ := hreach
  exact List.pairwise_iff_forall_sublist.1 g.ordered_cycles hsub b hb a ha hba

theorem areCycles_cycles (g : Graph α) : g.AreCycles g.cycles where
  nodup _ h := nodup_of_mem_cycles h
  disjoint := g.disjoint_cycles
  mem_iff _ := ⟨fun ⟨_, hnodes, ha⟩ => onCycle_of_mem hnodes ha, exists_mem_cycles⟩
  together_iff _ _ hne := together_cycles hne
  before _ h _ h' hne hreach := before_cycles h h' hne hreach

/-- What is circular names every node on a cycle once. -/
theorem AreCycles.members {e : Circular α} (h : g.AreCycles e.cycles) :
    e.members.Nodup ∧ ∀ a, a ∈ e.members ↔ g.OnCycle a := by
  refine ⟨List.nodup_flatten.2 ⟨h.nodup, h.disjoint⟩, fun a => ?_⟩
  rw [← h.mem_iff a, Circular.members, List.mem_flatten]

theorem cycles_of_sort_error {entries : List α} {e : Circular α} (h : g.sort entries = .error e) :
    e.cycles = g.cycles := by
  unfold sort at h
  split at h
  · cases h
  · next hcycles =>
    cases h
    exact hcycles.symm

/-- The cycles of a graph are complete and in order, and a graph that cannot be sorted is refused
with the nodes on its cycles. -/
theorem cycles_spec (g : Graph α) (entries : List α) :
    g.AreCycles g.cycles ∧
      match g.sort entries with
      | .ok _ => ∀ a, ¬ g.OnCycle a
      | .error e => e.cycles = g.cycles ∧ e.members.Nodup ∧ ∀ a, a ∈ e.members ↔ g.OnCycle a := by
  refine ⟨g.areCycles_cycles, ?_⟩
  cases h : g.sort entries with
  | ok order =>
    unfold sort at h
    split at h
    · next hcycles => exact cycles_eq_nil_iff.1 hcycles
    · cases h
  | error e =>
    have hcycles := cycles_of_sort_error h
    have hare : g.AreCycles e.cycles := hcycles ▸ g.areCycles_cycles
    exact ⟨hcycles, hare.members⟩

example : (⟨[(1, [2, 4]), (2, [1, 3]), (3, [3])]⟩ : Graph Nat).cycles = [[3], [1, 2]] := by decide

end Stencil.Dependency.Graph
