import Mathlib.Data.List.Basic
import Mathlib.Data.List.Induction
import Mathlib.Tactic.Common
import Stencil.Diagnosis.Merge
import Stencil.Proofs.Lists

/-!
Collapsing as grouping. The diagnostics about one problem become one: the first of them, with what
the others add. Main statement: there is one diagnostic for each problem, in the order in which the
problems first occur.
-/
namespace Stencil.Diagnosis

variable {d e x : Diagnostic} {ds es xs : List Diagnostic} {p : Problem}

namespace Diagnostic

/-- The first of some diagnostics with what the others add. -/
def joined (d : Diagnostic) (es : List Diagnostic) : Diagnostic := es.foldl absorb d

@[simp] theorem problem_absorb : (d.absorb e).problem = d.problem := rfl

@[simp] theorem joined_concat : d.joined (es ++ [e]) = (d.joined es).absorb e := by
  simp [joined]

@[simp] theorem chain_joined : (d.joined es).chain = d.chain := by
  induction es using List.reverseRecOn with
  | nil => rfl
  | append_singleton es e ih => rw [joined_concat, ← ih]; rfl

@[simp] theorem problem_joined : (d.joined es).problem = d.problem := by
  induction es using List.reverseRecOn with
  | nil => rfl
  | append_singleton es e ih => rw [joined_concat, problem_absorb, ih]

/-- What can be suppressed is made of what can be suppressed. -/
theorem suppressible_joined :
    (d.joined es).suppressible = (d :: es).all (·.suppressible) := by
  induction es using List.reverseRecOn with
  | nil => simp [joined]
  | append_singleton es e ih =>
    have habsorb : ((d.joined es).absorb e).suppressible = ((d.joined es).suppressible && e.suppressible) := rfl
    rw [joined_concat, habsorb, ih, ← List.cons_append, List.all_append]
    simp

theorem mergeInto_of_not_mem (h : d.problem ∉ xs.map problem) : d.mergeInto xs = xs ++ [d] := by
  induction xs with
  | nil => rfl
  | cons x xs ih =>
    rw [List.map_cons, List.mem_cons, not_or] at h
    rw [mergeInto, if_neg (Ne.symm h.1), ih h.2, List.cons_append]

/-- A diagnostic about a known problem goes into the one that is there. -/
theorem mergeInto_of_mem (hnodup : (xs.map problem).Nodup) (h : d.problem ∈ xs.map problem) :
    d.mergeInto xs = xs.map fun x => if x.problem = d.problem then x.absorb d else x := by
  induction xs with
  | nil => cases h
  | cons x xs ih =>
    rw [List.map_cons, List.nodup_cons] at hnodup
    rw [mergeInto, List.map_cons]
    by_cases hx : x.problem = d.problem
    · have hrest : ∀ y ∈ xs, (if y.problem = d.problem then y.absorb d else y) = y := fun y hy =>
        if_neg fun hyd => hnodup.1 (List.mem_map.2 ⟨y, hy, hyd.trans hx.symm⟩)
      rw [if_pos hx, if_pos hx, List.map_congr_left hrest, List.map_id']
    · rw [if_neg hx, if_neg hx, ih hnodup.2 ((List.mem_cons.1 h).resolve_left (Ne.symm hx))]

end Diagnostic

open Diagnostic

/-- The diagnostics about a problem as one. -/
def joinedOn (ds : List Diagnostic) (p : Problem) : Option Diagnostic :=
  match ds.filter (·.problem = p) with
  | [] => none
  | d :: es => some (d.joined es)

theorem problem_of_joinedOn (h : joinedOn ds p = some x) : x.problem = p := by
  unfold joinedOn at h
  split at h
  · cases h
  · next d es hd =>
    cases h
    rw [problem_joined]
    have hmem : d ∈ ds.filter (·.problem = p) := by simp [hd]
    simpa using (List.mem_filter.1 hmem).2

theorem joinedOn_concat_of_ne (h : d.problem ≠ p) : joinedOn (ds ++ [d]) p = joinedOn ds p := by
  simp [joinedOn, List.filter_append, h]

theorem joinedOn_concat_of_mem (h : d.problem ∈ ds.map problem) :
    joinedOn (ds ++ [d]) d.problem = (joinedOn ds d.problem).map (·.absorb d) := by
  obtain ⟨e, he, hed⟩ := List.mem_map.1 h
  unfold joinedOn
  rw [List.filter_append]
  cases hds : ds.filter (·.problem = d.problem) with
  | nil => exact absurd (List.filter_eq_nil_iff.1 hds e he) (by simp [hed])
  | cons e es => simp

theorem joinedOn_concat_of_not_mem (h : d.problem ∉ ds.map problem) :
    joinedOn (ds ++ [d]) d.problem = some d := by
  have hds : ds.filter (·.problem = d.problem) = [] := by
    refine List.filter_eq_nil_iff.2 fun e he hed => h (List.mem_map.2 ⟨e, he, ?_⟩)
    simpa using hed
  simp [joinedOn, List.filter_append, hds, joined]

theorem exists_joinedOn (h : p ∈ ds.map problem) : ∃ x, joinedOn ds p = some x := by
  obtain ⟨e, he, hep⟩ := List.mem_map.1 h
  unfold joinedOn
  cases hds : ds.filter (·.problem = p) with
  | nil => exact absurd (List.filter_eq_nil_iff.1 hds e he) (by simp [hep])
  | cons e es => exact ⟨_, rfl⟩

theorem problems_joinedOn (ps : List Problem) (h : ∀ p ∈ ps, p ∈ ds.map problem) :
    (ps.filterMap (joinedOn ds)).map problem = ps := by
  induction ps with
  | nil => rfl
  | cons p ps ih =>
    obtain ⟨x, hx⟩ := exists_joinedOn (h p (by simp))
    rw [List.filterMap_cons_some hx, List.map_cons, problem_of_joinedOn hx,
      ih fun q hq => h q (List.mem_cons_of_mem p hq)]

/-- One diagnostic for each problem, in the order in which the problems first occur. -/
theorem collapse_eq (ds : List Diagnostic) :
    collapse ds = (ds.map problem).eraseDups.filterMap (joinedOn ds) := by
  induction ds using List.reverseRecOn with
  | nil => rfl
  | append_singleton ds d ih =>
    have hproblems : ((ds.map problem).eraseDups.filterMap (joinedOn ds)).map problem =
        (ds.map problem).eraseDups := problems_joinedOn _ fun p hp => List.mem_eraseDups.1 hp
    rw [collapse, List.foldl_concat, ← collapse, List.map_append, List.map_singleton, eraseDups_concat]
    split
    · next hmem =>
      have hnodup : ((collapse ds).map problem).Nodup := by
        rw [ih, hproblems]
        exact nodup_eraseDups _
      rw [mergeInto_of_mem hnodup (by rwa [ih, hproblems, List.mem_eraseDups]), ih, List.map_filterMap]
      refine List.filterMap_congr fun p hp => ?_
      by_cases hpd : d.problem = p
      · subst hpd
        rw [joinedOn_concat_of_mem hmem]
        refine Option.map_congr fun x hx => ?_
        rw [if_pos (problem_of_joinedOn hx)]
      · rw [joinedOn_concat_of_ne hpd]
        refine (Option.map_congr fun x hx => ?_).trans Option.map_id'
        rw [if_neg fun h => hpd (h.symm.trans (problem_of_joinedOn hx))]
    · next hmem =>
      rw [mergeInto_of_not_mem (by rwa [ih, hproblems, List.mem_eraseDups]), ih, List.filterMap_append]
      congr 1
      · refine List.filterMap_congr fun p hp => (joinedOn_concat_of_ne fun hpd => hmem ?_).symm
        rw [hpd]
        exact List.mem_eraseDups.1 hp
      · simp [joinedOn_concat_of_not_mem hmem]

theorem problems_collapse (ds : List Diagnostic) :
    (collapse ds).map problem = (ds.map problem).eraseDups := by
  rw [collapse_eq, problems_joinedOn _ fun p hp => List.mem_eraseDups.1 hp]

/-- What is collapsed was made of the diagnostics about its problem. -/
theorem joined_of_mem_collapse (h : x ∈ collapse ds) :
    ∃ d es, ds.filter (·.problem = x.problem) = d :: es ∧ x = d.joined es := by
  rw [collapse_eq] at h
  obtain ⟨p, -, hx⟩ := List.mem_filterMap.1 h
  obtain rfl := problem_of_joinedOn hx
  unfold joinedOn at hx
  split at hx
  · cases hx
  · next d es hds => exact ⟨d, es, hds, (Option.some.inj hx).symm⟩

end Stencil.Diagnosis
