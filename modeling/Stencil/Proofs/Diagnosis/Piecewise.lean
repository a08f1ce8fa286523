import Stencil.Proofs.Diagnosis.Collapse

/-!
Collapsing in pieces. What is known of a group of diagnostics is the first of them with the render points of all
and whether all can be suppressed, and this can be had in pieces: groups of groups are groups.
-/
namespace Stencil.Diagnosis
open Diagnostic

variable {d e x : Diagnostic} {ds es xs ys : List Diagnostic} {p : Problem}

/-! ### Problems -/

/-- What two diagnostics share if they are about the same problem. A problem on a line of a template is never one
without such a line. -/
theorem problem_eq_iff : d.problem = e.problem ↔
    d.identifier = e.identifier ∧ d.message = e.message ∧ d.chain.map (·.last) = e.chain.map (·.last) ∧
      (d.chain = none → d.file = e.file ∧ d.line = e.line) := by
  cases hd : d.chain <;> cases he : e.chain <;> simp [problem, hd, he] <;> tauto

/-! ### Groups -/

namespace Diagnostic

theorem renderPoints_joined : (d.joined es).renderPoints = further d.renderPoints (es.flatMap (·.renderPoints)) := by
  induction es using List.reverseRecOn with
  | nil => exact (further_nil _).symm
  | append_singleton es e ih =>
    rw [List.flatMap_append, List.flatMap_singleton, further_append, ← ih, joined_concat]
    rfl

/-- The first of a group stays as it is but for what the others add. -/
theorem joined_eq (d : Diagnostic) (es : List Diagnostic) : d.joined es =
    { d with
      renderPoints := further d.renderPoints (es.flatMap (·.renderPoints))
      suppressible := (d :: es).all (·.suppressible) } := by
  rw [← renderPoints_joined, ← suppressible_joined]
  induction es using List.reverseRecOn with
  | nil => rfl
  | append_singleton es e ih =>
    rw [joined_concat, absorb, ih]

theorem joined_append (d : Diagnostic) (es fs : List Diagnostic) : d.joined (es ++ fs) = (d.joined es).joined fs :=
  List.foldl_append

theorem absorb_absorb (a b c : Diagnostic) : (a.absorb b).absorb c = a.absorb (b.absorb c) := by
  have hpoints : ((a.absorb b).absorb c).renderPoints = (a.absorb (b.absorb c)).renderPoints :=
    (further_further _ _ _).symm
  have hsuppressible : ((a.absorb b).absorb c).suppressible = (a.absorb (b.absorb c)).suppressible :=
    Bool.and_assoc ..
  rw [absorb, absorb, Diagnostic.mk.injEq]
  exact ⟨rfl, rfl, rfl, rfl, rfl, rfl, hpoints, hsuppressible⟩

/-- A group whose rest was put together before. -/
theorem absorb_joined (a b : Diagnostic) (es : List Diagnostic) : a.absorb (b.joined es) = a.joined (b :: es) := by
  induction es using List.reverseRecOn with
  | nil => rfl
  | append_singleton es e ih => rw [joined_concat, ← absorb_absorb, ih, ← List.cons_append, joined_concat]

end Diagnostic

/-! ### Pieces -/

/-- Two groups about one problem as one. -/
def both : Option Diagnostic → Option Diagnostic → Option Diagnostic
  | some d, some e => some (d.absorb e)
  | none, e => e
  | d, none => d

theorem joinedOn_append (xs ys : List Diagnostic) (p : Problem) :
    joinedOn (xs ++ ys) p = both (joinedOn xs p) (joinedOn ys p) := by
  unfold joinedOn
  rw [List.filter_append]
  cases xs.filter (·.problem = p) with
  | nil => cases ys.filter (·.problem = p) <;> rfl
  | cons d es =>
    cases ys.filter (·.problem = p) with
    | nil => simp [both]
    | cons e fs => simp only [List.cons_append, both, absorb_joined, joined_append]

theorem joinedOn_of_not_mem (h : p ∉ ds.map problem) : joinedOn ds p = none := by
  have hnone : ds.filter (·.problem = p) = [] := List.filter_eq_nil_iff.2 fun d hd hp =>
    h (List.mem_map.2 ⟨d, hd, of_decide_eq_true hp⟩)
  rw [joinedOn, hnone]

/-- Of each group there is one diagnostic left, so it is a group of its own. -/
theorem joinedOn_collapse (ds : List Diagnostic) (p : Problem) : joinedOn (collapse ds) p = joinedOn ds p := by
  by_cases hp : p ∈ ds.map problem
  · obtain ⟨x, hx⟩ := exists_joinedOn hp
    have hmem : x ∈ collapse ds := by
      rw [collapse_eq]
      exact List.mem_filterMap.2 ⟨p, List.mem_eraseDups.2 hp, hx⟩
    have hnodup : ((collapse ds).map problem).Nodup := by
      rw [problems_collapse]
      exact nodup_eraseDups _
    have honly : (collapse ds).filter (·.problem = p) = [x] := by
      rw [← problem_of_joinedOn hx]
      exact filter_eq_singleton hnodup hmem
    rw [joinedOn, honly, hx]
    rfl
  · rw [joinedOn_of_not_mem hp, joinedOn_of_not_mem]
    rwa [problems_collapse, List.mem_eraseDups]

theorem collapse_append (xs ys : List Diagnostic) : collapse (xs ++ ys) = collapse (collapse xs ++ collapse ys) := by
  have hproblems : ((collapse xs ++ collapse ys).map problem).eraseDups = ((xs ++ ys).map problem).eraseDups := by
    rw [List.map_append, List.map_append, problems_collapse, problems_collapse, eraseDups_append_eraseDups,
      eraseDups_eraseDups_append]
  rw [collapse_eq, collapse_eq, hproblems]
  refine List.filterMap_congr fun p _ => ?_
  rw [joinedOn_append, joinedOn_append, joinedOn_collapse, joinedOn_collapse]

/-- There is one diagnostic for each problem, in the order in which the problems first occur. It is the first one about
the problem, with each further render point of the later ones, and can be suppressed if all of them can. It makes no
difference whether diagnostics are collapsed at once or in pieces. -/
theorem collapse_groups :
    (∀ d e : Diagnostic, d.problem = e.problem ↔
      d.identifier = e.identifier ∧ d.message = e.message ∧ d.chain.map (·.last) = e.chain.map (·.last) ∧
        (d.chain = none → d.file = e.file ∧ d.line = e.line)) ∧
    (∀ ds, (collapse ds).map problem = (ds.map problem).eraseDups ∧
      ∀ x ∈ collapse ds, ∃ d es, ds.filter (·.problem = x.problem) = d :: es ∧
        x = { d with
          renderPoints := further d.renderPoints (es.flatMap (·.renderPoints))
          suppressible := (d :: es).all (·.suppressible) }) ∧
    (∀ ds, collapse (collapse ds) = collapse ds) ∧
    ∀ xs ys, collapse (xs ++ ys) = collapse (collapse xs ++ collapse ys) := by
  refine ⟨fun d e => problem_eq_iff, fun ds => ⟨problems_collapse ds, fun x hx => ?_⟩, fun ds => ?_, collapse_append⟩
  · obtain ⟨d, es, hgroup, hx⟩ := joined_of_mem_collapse hx
    exact ⟨d, es, hgroup, hx.trans (joined_eq d es)⟩
  · simpa [collapse] using (collapse_append ds []).symm

end Stencil.Diagnosis
