import Mathlib.Algebra.BigOperators.Group.List.Lemmas
import Mathlib.Algebra.GroupWithZero.Nat
import Stencil.Baseline.Basic
import Stencil.Diagnosis.Report
import Stencil.Proofs.Diagnosis.Collapse
import Stencil.Proofs.Lists

/-!
What is reported of findings. A diagnostic that can be suppressed is about a line of a template and
comes from findings that can all be suppressed, so a baseline can be made of any report; nothing is
counted twice in it and nothing is left out.
-/

/-! ### The counts of a baseline -/

namespace Stencil.Baseline
open Diagnosis

variable {directory : Path} {d : Diagnostic} {ds : List Diagnostic} {ls : List Likeness}

theorem sum_count_eraseDups {α : Type} [hbeq : BEq α] [LawfulBEq α] (l : List α) :
    (l.eraseDups.map fun a => l.count a).sum = l.length := by
  classical
  obtain rfl : hbeq = instBEqOfDecidableEq := lawful_beq_subsingleton _ _
  have hperm : l.eraseDups.Perm l.dedup :=
    (List.perm_ext_iff_of_nodup (nodup_eraseDups l) l.nodup_dedup).2 fun a => by simp
  rw [(hperm.map _).sum_eq, List.sum_map_count_dedup_eq_length]

theorem sum_countAlike (ls : List Likeness) : ((countAlike ls).map (·.count)).sum = ls.length := by
  unfold countAlike
  rw [((List.mergeSort_perm _ _).map _).sum_eq, List.map_map]
  exact sum_count_eraseDups ls

theorem exists_likeness (directory : Path) (h : d.chain.isSome) : ∃ l, likeness directory d = .ok l := by
  obtain ⟨c, hc⟩ := Option.isSome_iff_exists.1 h
  refine ⟨(d.message, d.identifier, (c.last.file.relativeTo directory).text), ?_⟩
  simp only [likeness, Diagnostic.template, hc, Option.map_some]

theorem exists_likenesses (directory : Path) (h : ∀ d ∈ ds, d.chain.isSome) :
    ∃ ls, ds.mapM (likeness directory) = .ok ls ∧ ls.length = ds.length := by
  induction ds with
  | nil => exact ⟨[], rfl, rfl⟩
  | cons d ds ih =>
    obtain ⟨hd, hds⟩ := List.forall_mem_cons.1 h
    obtain ⟨l, hl⟩ := exists_likeness directory hd
    obtain ⟨ls, hls, hlength⟩ := ih hds
    refine ⟨l :: ls, ?_, by simp [hlength]⟩
    rw [List.mapM_cons, hl, hls]
    rfl

/-- Diagnostics of which those that can be suppressed have a chain have a baseline, and each of these
is counted in it. -/
theorem entriesOf_spec (directory : Path) (h : ∀ d ∈ ds, d.suppressible = true → d.chain.isSome) :
    ∃ entries, entriesOf directory ds = .ok entries ∧
      (entries.map (·.count)).sum = ds.countP (·.suppressible) := by
  have hlocated : ∀ d ∈ ds.filter (·.suppressible), d.chain.isSome := fun d hd =>
    h d (List.mem_filter.1 hd).1 (List.mem_filter.1 hd).2
  obtain ⟨ls, hls, hlength⟩ := exists_likenesses directory hlocated
  refine ⟨countAlike ls, by rw [entriesOf, hls]; rfl, ?_⟩
  rw [sum_countAlike, hlength, List.countP_eq_length_filter]

end Stencil.Baseline

/-! ### Reports -/

namespace Stencil.Diagnosis
open Observed

variable {rules : List IgnoreRule} {units : List InjectedUnit} {table : RenderTable}
  {findings : List Finding} {f : Finding} {d e x : Diagnostic}

/-- A finding is located as something that can be suppressed if it can be suppressed itself and
belongs to a line of a template. -/
theorem suppressible_locate (h : f.locate units table = some x) :
    x.suppressible = (x.chain.isSome && f.suppressible) := by
  unfold Finding.locate at h
  split at h
  · cases h; rfl
  · split at h
    · cases h; rfl
    · obtain ⟨c, -, rfl⟩ := Option.map_eq_some_iff.1 h
      rfl

theorem mem_located_iff : x ∈ withoutIgnored rules (locate units table findings) ↔
    x.ignoredBy rules = false ∧ ∃ f ∈ findings, f.locate units table = some x := by
  simp [withoutIgnored, locate, and_comm]

/-- What is about the same problem is about a line of a template or is not. -/
theorem isSome_chain_congr (h : d.problem = e.problem) : d.chain.isSome = e.chain.isSome := by
  unfold Diagnostic.problem at h
  split at h <;> split at h <;> simp_all

/-- The finding is one of those that a diagnostic of the report was made of. -/
def Finding.GoesInto (rules : List IgnoreRule) (units : List InjectedUnit) (table : RenderTable)
    (findings : List Finding) (f : Finding) (d : Diagnostic) : Prop :=
  f ∈ findings ∧ ∃ x, f.locate units table = some x ∧ x.ignoredBy rules = false ∧
    ∃ e ∈ problemsOf rules units table findings, e.problem = x.problem ∧ e.reword = d

/-- A problem can be suppressed if it is about a line of a template and all its findings can be
suppressed. -/
theorem suppressible_problem (h : e ∈ problemsOf rules units table findings)
    (hsuppressible : e.suppressible = true) :
    e.chain.isSome ∧ (∃ f ∈ findings, ∃ x, f.locate units table = some x ∧ x.ignoredBy rules = false ∧
      x.problem = e.problem) ∧
    ∀ f ∈ findings, ∀ x, f.locate units table = some x → x.ignoredBy rules = false →
      x.problem = e.problem → f.suppressible = true := by
  obtain ⟨d, es, hgroup, he⟩ := joined_of_mem_collapse h
  have hall : ∀ x ∈ withoutIgnored rules (locate units table findings), x.problem = e.problem →
      x.suppressible = true := by
    intro x hx hproblem
    have hmem : x ∈ d :: es := hgroup ▸ List.mem_filter.2 ⟨hx, by simpa using hproblem⟩
    rw [he, Diagnostic.suppressible_joined] at hsuppressible
    exact List.all_eq_true.1 hsuppressible x hmem
  have hd : d ∈ withoutIgnored rules (locate units table findings) ∧ d.problem = e.problem := by
    have hmem : d ∈ d :: es := List.mem_cons_self
    rw [← hgroup] at hmem
    simpa using List.mem_filter.1 hmem
  obtain ⟨hignored, f, hf, hlocate⟩ := mem_located_iff.1 hd.1
  refine ⟨?_, ⟨f, hf, d, hlocate, hignored, hd.2⟩, fun f hf x hx hignored hproblem => ?_⟩
  · have hchain := hall d hd.1 hd.2
    rw [suppressible_locate hlocate, Bool.and_eq_true] at hchain
    rw [← isSome_chain_congr hd.2]
    exact hchain.1
  · have hmem := mem_located_iff.2 ⟨hignored, f, hf, hx⟩
    have hboth := hall x hmem hproblem
    rw [suppressible_locate hx, Bool.and_eq_true] at hboth
    exact hboth.2

theorem mem_report_iff : d ∈ report rules units table findings ↔
    ∃ e ∈ problemsOf rules units table findings, e.reword = d := List.mem_map

theorem suppressible_report (hd : d ∈ report rules units table findings)
    (hsuppressible : d.suppressible = true) :
    d.chain.isSome ∧ (∃ f : Finding, f.GoesInto rules units table findings d) ∧
      ∀ f : Finding, f.GoesInto rules units table findings d → f.suppressible = true := by
  obtain ⟨e, he, rfl⟩ := mem_report_iff.1 hd
  obtain ⟨hchain, ⟨f, hf, x, hx, hignored, hproblem⟩, -⟩ := suppressible_problem he hsuppressible
  refine ⟨hchain, ⟨f, hf, x, hx, hignored, e, he, hproblem.symm, rfl⟩, ?_⟩
  rintro f ⟨hf, x, hx, hignored, e', he', hproblem, hreword⟩
  have hsuppressible' : e'.suppressible = true := by
    have hsame : e'.reword.suppressible = e.reword.suppressible := by rw [hreword]
    exact hsame.trans hsuppressible
  exact (suppressible_problem he' hsuppressible').2.2 f hf x hx hignored hproblem.symm

/-- What can be suppressed is located, comes only from findings that can be suppressed, and is counted
in the baseline of the report. -/
theorem report_baseline (rules : List IgnoreRule) (units : List InjectedUnit) (table : RenderTable)
    (findings : List Finding) (directory : Path) :
    (∀ d ∈ report rules units table findings, d.suppressible = true →
      d.chain.isSome ∧ (∃ f : Finding, f.GoesInto rules units table findings d) ∧
        ∀ f : Finding, f.GoesInto rules units table findings d → f.suppressible = true) ∧
    ∃ entries, Baseline.entriesOf directory (report rules units table findings) = .ok entries ∧
      (entries.map (·.count)).sum = (report rules units table findings).countP (·.suppressible) :=
  ⟨fun _ hd hsuppressible => suppressible_report hd hsuppressible,
    Baseline.entriesOf_spec directory fun _ hd hsuppressible => (suppressible_report hd hsuppressible).1⟩

/-! ### One diagnostic for each problem -/

/-- Two problems at one place with one identifier have different messages as they were found. They may
still be reported in the same words. -/
theorem problemsOf_pairwise (rules : List IgnoreRule) (units : List InjectedUnit) (table : RenderTable)
    (findings : List Finding) :
    (problemsOf rules units table findings).Pairwise fun d e =>
      d.chain.isSome → d.chain.map (·.last) = e.chain.map (·.last) → d.identifier = e.identifier →
        d.message ≠ e.message := by
  have hnodup : ((problemsOf rules units table findings).map Diagnostic.problem).Nodup := by
    rw [problemsOf, problems_collapse]
    exact nodup_eraseDups _
  refine (List.pairwise_map.1 hnodup).imp fun {d e} hne hchain hlast hidentifier hmessage => hne ?_
  obtain ⟨c, hc⟩ := Option.isSome_iff_exists.1 hchain
  rw [hc, Option.map_some] at hlast
  obtain ⟨c', hc', hlast⟩ := Option.map_eq_some_iff.1 hlast.symm
  simp only [Diagnostic.problem, hc, hc', hlast, hidentifier, hmessage]

/-- A block of a shared template whose parent is missing, found in the units of two templates at
different distances from it. -/
def missingTwice : List Finding :=
  let finding := fun (file : String) (message : String) =>
    (⟨⟨true, [file]⟩, 1, message, some "name-defined", none, true⟩ : Finding)
  [finding "page.py" "Name \"_jt_block_a__super\" is not defined",
    finding "other.py" "Name \"_jt_block_a__super__super\" is not defined"]

def twoUnits : List InjectedUnit :=
  ["page", "other"].map fun name =>
    ⟨⟨true, [name]⟩, ⟨true, [name ++ ".py"]⟩, "", [(1, .single ⟨⟨true, ["base"]⟩, some 1⟩)], []⟩

/-- The two findings are reported twice in the same words. -/
theorem report_missingTwice : (report [] twoUnits [] missingTwice).map (fun d => (d.chain, d.identifier, d.message)) =
    List.replicate 2 (some (.single ⟨⟨true, ["base"]⟩, some 1⟩), some "name-defined",
      "Block \"a\" has no parent block to call with super()") := by
  decide +kernel

end Stencil.Diagnosis
