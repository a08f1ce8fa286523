import Mathlib.Algebra.BigOperators.Group.Finset.Piecewise
import Mathlib.Algebra.GroupWithZero.Nat
import Mathlib.Algebra.Order.BigOperators.Group.Finset
import Stencil.Dependency.Order
import Stencil.Proofs.Dependency.Search

/-!
The order of a graph. A node is done after everything it depends on; while the path is worked off,
what a node of the path depends on is done, still to be looked at, or further on the path. Nodes
leave the path or are looked at until the bound, which is large enough.
-/
namespace Stencil.Dependency.Graph

open Relation

variable {α : Type} [DecidableEq α] {g : Graph α} {a b c : α} {bs done known known' : List α}
  {path : List (α × List α)}

/-- The nodes come newest first, each once and after all that it depends on. -/
def Settled (g : Graph α) : List α → Prop
  | [] => True
  | a :: done => a ∉ done ∧ (∀ b ∈ g.dependencies a, b ∈ done) ∧ g.Settled done

/-- What the nodes of a path depend on is known, or still to be looked at. A node is known from the
next older one on. -/
def Waiting (g : Graph α) : List α → List (α × List α) → Prop
  | _, [] => True
  | known, (a, bs) :: path =>
    a ∉ known ∧ (∀ b ∈ g.dependencies a, b ∈ bs ∨ b ∈ known) ∧ g.Waiting (a :: known) path

/-- Every node once and behind what it depends on: the entries, the nodes of the graph and all that
is listed as a dependency. -/
structure IsOrder (g : Graph α) (entries order : List α) : Prop where
  nodup : order.Nodup
  mem : ∀ a, a ∈ order ↔ a ∈ entries ∨ a ∈ g.nodes ∨ ∃ c, a ∈ g.dependencies c
  before : ∀ l a r, order = l ++ a :: r → ∀ b ∈ g.dependencies a, b ∈ l

namespace Settled

theorem nodup (h : g.Settled done) : done.Nodup := by
  induction done with
  | nil => exact .nil
  | cons a done ih => exact List.nodup_cons.2 ⟨h.1, ih h.2.2⟩

theorem of_append {newer : List α} (h : g.Settled (newer ++ a :: done)) :
    ∀ b ∈ g.dependencies a, b ∈ done := by
  induction newer with
  | nil => exact h.2.1
  | cons c newer ih => exact ih h.2.2

theorem before (h : g.Settled done) {l r : List α} (hl : done.reverse = l ++ a :: r) :
    ∀ b ∈ g.dependencies a, b ∈ l := by
  have hsplit : done = r.reverse ++ a :: l.reverse := by
    rw [← List.reverse_reverse done, hl]
    simp
  intro b hb
  exact List.mem_reverse.1 ((hsplit ▸ h).of_append b hb)

theorem closed (h : g.Settled done) (ha : a ∈ done) (hb : b ∈ g.dependencies a) : b ∈ done := by
  obtain ⟨newer, older, rfl⟩ := List.append_of_mem ha
  exact List.mem_append_right _ (List.mem_cons_of_mem a (h.of_append b hb))

end Settled

namespace Waiting

/-- One more node becomes known that is not on the path. -/
theorem mono (h : g.Waiting known path) (hb : b ∉ path.map (·.1))
    (hknown : ∀ c, c ∈ known' ↔ c = b ∨ c ∈ known) : g.Waiting known' path := by
  induction path generalizing known known' with
  | nil => trivial
  | cons e path ih =>
    obtain ⟨a, bs⟩ := e
    obtain ⟨hfresh, hdeps, hrest⟩ := h
    have hne : b ≠ a ∧ b ∉ path.map (·.1) := by simpa using hb
    refine ⟨fun ha => ?_, fun c hc => (hdeps c hc).imp_right fun hc => (hknown c).2 (.inr hc), ?_⟩
    · rcases (hknown a).1 ha with rfl | ha
      · exact hne.1 rfl
      · exact hfresh ha
    · refine ih hrest hne.2 fun c => ?_
      rw [List.mem_cons, List.mem_cons, hknown]
      tauto

/-- The next dependency of the newest node is known. -/
theorem look (h : g.Waiting known ((a, b :: bs) :: path)) (hb : b ∈ known) :
    g.Waiting known ((a, bs) :: path) := by
  refine ⟨h.1, fun c hc => ?_, h.2.2⟩
  rcases h.2.1 c hc with hc' | hc'
  · rcases List.mem_cons.1 hc' with rfl | hc'
    · exact .inr hb
    · exact .inl hc'
  · exact .inr hc'

/-- The next dependency of the newest node becomes the newest node. -/
theorem push (h : g.Waiting known ((a, b :: bs) :: path)) (hb : b ∉ known)
    (hpath : b ∉ a :: path.map (·.1)) :
    g.Waiting known ((b, g.dependencies b) :: (a, bs) :: path) := by
  refine ⟨hb, fun c hc => .inl hc, ?_⟩
  have hnext : g.Waiting (b :: known) ((a, b :: bs) :: path) := h.mono (by simpa using hpath) (by simp)
  exact hnext.look (by simp)

end Waiting

/-! ### The bound -/

section Bound

/-- What is still to do for the nodes that are neither done nor on the path. -/
def ahead (g : Graph α) (seen : List α) : Nat :=
  ∑ c ∈ g.everything.toFinset \ seen.toFinset, ((g.dependencies c).length + 1)

/-- What is still to do for the nodes of a path. -/
def left (path : List (α × List α)) : Nat := (path.map fun e => e.2.length + 1).sum

theorem ahead_eq_of_mem {seen seen' : List α} (h : ∀ c, c ∈ seen ↔ c ∈ seen') :
    g.ahead seen = g.ahead seen' := by
  have : seen.toFinset = seen'.toFinset := by
    ext c
    simp [h]
  rw [ahead, ahead, this]

theorem ahead_cons {seen : List α} (h : b ∈ g.everything) (hb : b ∉ seen) :
    g.ahead seen = (g.dependencies b).length + 1 + g.ahead (b :: seen) := by
  have hmem : b ∈ g.everything.toFinset \ seen.toFinset := by simp [h, hb]
  have herase : g.everything.toFinset \ (b :: seen).toFinset =
      (g.everything.toFinset \ seen.toFinset).erase b := by
    ext c
    simp
    tauto
  rw [ahead, ahead, herase]
  exact (Finset.add_sum_erase _ (fun c => (g.dependencies c).length + 1) hmem).symm

/-- The lists of all nodes together are no longer than the graph. -/
theorem sum_dependencies_le (entries : List (α × List α)) (nodes : Finset α) :
    ∑ c ∈ nodes, ((⟨entries⟩ : Graph α).dependencies c).length ≤
      (entries.map fun e => e.2.length).sum := by
  induction entries with
  | nil => simp [dependencies]
  | cons e entries ih =>
    obtain ⟨a, bs⟩ := e
    have hle : ∀ c ∈ nodes, ((⟨(a, bs) :: entries⟩ : Graph α).dependencies c).length ≤
        (if c = a then bs.length else 0) + ((⟨entries⟩ : Graph α).dependencies c).length := by
      intro c hc
      by_cases hca : c = a
      · simp [dependencies, hca]
      · have hne : (c == a) = false := by simpa using hca
        simp [dependencies, List.lookup_cons, hne, hca]
    calc ∑ c ∈ nodes, ((⟨(a, bs) :: entries⟩ : Graph α).dependencies c).length
        ≤ ∑ c ∈ nodes, ((if c = a then bs.length else 0) +
            ((⟨entries⟩ : Graph α).dependencies c).length) := Finset.sum_le_sum hle
      _ = (∑ c ∈ nodes, if c = a then bs.length else 0) +
            ∑ c ∈ nodes, ((⟨entries⟩ : Graph α).dependencies c).length :=
          Finset.sum_add_distrib
      _ ≤ bs.length + (entries.map fun e => e.2.length).sum := by
          refine Nat.add_le_add ?_ ih
          rw [Finset.sum_ite_eq']
          split
          · exact le_rfl
          · exact Nat.zero_le _
      _ = (((a, bs) :: entries).map fun e => e.2.length).sum := by simp

theorem ahead_le (g : Graph α) (seen : List α) : g.ahead seen ≤ 2 * g.size := by
  have hcard : g.everything.toFinset.card ≤ g.size :=
    (List.toFinset_card_le _).trans g.length_everything.le
  have hsum : ∑ c ∈ g.everything.toFinset, (g.dependencies c).length ≤
      (g.entries.map fun e => e.2.length).sum := sum_dependencies_le g.entries _
  have hlists : (g.entries.map fun e => e.2.length).sum ≤ g.size := by
    rw [← g.length_everything, everything, List.length_flatMap]
    exact List.sum_le_sum fun e _ => by simp
  calc g.ahead seen
      ≤ ∑ c ∈ g.everything.toFinset, ((g.dependencies c).length + 1) :=
        Finset.sum_le_sum_of_subset Finset.sdiff_subset
    _ = (∑ c ∈ g.everything.toFinset, (g.dependencies c).length) + g.everything.toFinset.card := by
        simp [Finset.sum_add_distrib]
    _ ≤ 2 * g.size := by omega

/-- What is to do when a node is started, also when it is no node of the graph. -/
theorem start_le (ha : a ∉ done) :
    (g.dependencies a).length + 1 + g.ahead (a :: done) ≤ 2 * g.size + 1 := by
  by_cases h : a ∈ g.everything
  · have := g.ahead_le done
    rw [ahead_cons h ha] at this
    omega
  · have hnone : g.dependencies a = [] := by
      refine List.eq_nil_iff_forall_not_mem.2 fun b hb => h ?_
      exact mem_everything_of_mem_nodes (mem_nodes_of_mem_dependencies hb)
    have := g.ahead_le (a :: done)
    rw [hnone, List.length_nil]
    omega

end Bound

/-! ### Working off a path -/

/-- A path is worked off: each of its nodes leads to the newer ones. -/
structure Going (g : Graph α) (path : List (α × List α)) (done : List α) : Prop where
  settled : g.Settled done
  waiting : g.Waiting done path
  leads : (path.map (·.1)).Pairwise fun newer older => g.Reaches older newer
  listed : ∀ e ∈ path, ∃ looked, g.dependencies e.1 = looked ++ e.2

namespace Going

/-- A node whose dependencies are all looked at is done. -/
theorem pop (h : g.Going ((a, []) :: path) done) : g.Going path (a :: done) where
  settled := ⟨h.waiting.1, fun b hb => (h.waiting.2.1 b hb).resolve_left (by simp), h.settled⟩
  waiting := h.waiting.2.2
  leads := (List.pairwise_cons.1 h.leads).2
  listed e he := h.listed e (List.mem_cons_of_mem _ he)

theorem mem_dependencies (h : g.Going ((a, b :: bs) :: path) done) : b ∈ g.dependencies a := by
  obtain ⟨looked, hlooked⟩ := h.listed _ List.mem_cons_self
  simp [hlooked]

/-- Without cycles no dependency is further up the path. -/
theorem not_mem_path (h : g.Going ((a, b :: bs) :: path) done) (hg : ∀ a, ¬ g.OnCycle a) :
    b ∉ a :: path.map (·.1) := by
  intro hb
  have hba : g.Reaches b a := by
    rcases List.mem_cons.1 hb with rfl | hb
    · exact .refl
    · exact (List.pairwise_cons.1 h.leads).1 b hb
  exact hg b (.tail' hba h.mem_dependencies)

theorem skip (h : g.Going ((a, b :: bs) :: path) done) : ∀ e ∈ (a, bs) :: path,
    ∃ looked, g.dependencies e.1 = looked ++ e.2 := by
  intro e he
  rcases List.mem_cons.1 he with rfl | he
  · obtain ⟨looked, hlooked⟩ := h.listed _ List.mem_cons_self
    exact ⟨looked ++ [b], by simp [hlooked]⟩
  · exact h.listed e (List.mem_cons_of_mem _ he)

theorem look (h : g.Going ((a, b :: bs) :: path) done) (hb : b ∈ done) :
    g.Going ((a, bs) :: path) done :=
  ⟨h.settled, h.waiting.look hb, h.leads, h.skip⟩

theorem push (h : g.Going ((a, b :: bs) :: path) done) (hg : ∀ a, ¬ g.OnCycle a) (hb : b ∉ done) :
    g.Going ((b, g.dependencies b) :: (a, bs) :: path) done where
  settled := h.settled
  waiting := h.waiting.push hb (h.not_mem_path hg)
  leads := by
    refine List.pairwise_cons.2 ⟨fun p hp => ?_, h.leads⟩
    have hpa : g.Reaches p a := by
      rcases List.mem_cons.1 hp with rfl | hp
      · exact .refl
      · exact (List.pairwise_cons.1 h.leads).1 p hp
    exact hpa.tail h.mem_dependencies
  listed e he := by
    rcases List.mem_cons.1 he with rfl | he
    · exact ⟨[], rfl⟩
    · exact h.skip e he

end Going

/-- What is done after a path has been worked off. -/
structure Worked (g : Graph α) (path : List (α × List α)) (done result : List α) : Prop where
  settled : g.Settled result
  keeps : ∀ a ∈ done, a ∈ result
  reached : ∀ a ∈ path.map (·.1), a ∈ result
  only : ∀ a ∈ result, a ∈ done ∨ a ∈ path.map (·.1) ∨ ∃ c, a ∈ g.dependencies c

/-- A bound that is no less than what is to do is enough to work off a path. -/
theorem workOff_worked (hg : ∀ a, ¬ g.OnCycle a) (bound : Nat) (h : g.Going path done)
    (hbound : left path + g.ahead (path.map (·.1) ++ done) ≤ bound) :
    g.Worked path done (g.workOff bound path done) := by
  induction bound generalizing path done with
  | zero =>
    cases path with
    | nil => exact ⟨h.settled, fun _ ha => ha, by simp, fun _ ha => .inl ha⟩
    | cons e path => simp [left] at hbound
  | succ bound ih =>
    match path, h with
    | [], h => exact ⟨h.settled, fun _ ha => ha, by simp, fun _ ha => .inl ha⟩
    | (a, []) :: path, h =>
      have hahead : g.ahead (path.map (·.1) ++ a :: done) = g.ahead (a :: path.map (·.1) ++ done) :=
        ahead_eq_of_mem (by simp; tauto)
      have hstep := ih h.pop (by simp [left] at hbound hahead ⊢; omega)
      rw [workOff, if_neg h.waiting.1]
      refine ⟨hstep.settled, fun c hc => hstep.keeps c (by simp [hc]), fun c hc => ?_,
        fun c hc => ?_⟩
      · rcases List.mem_cons.1 hc with rfl | hc
        · exact hstep.keeps c (by simp)
        · exact hstep.reached c hc
      · have := hstep.only c hc
        simp at this ⊢
        tauto
    | (a, b :: bs) :: path, h =>
      have hb : b ∈ g.everything := mem_everything_of_mem_dependencies h.mem_dependencies
      have hpath := h.not_mem_path hg
      by_cases hdone : b ∈ done
      · have hstep := ih (h.look hdone) (by simp [left] at hbound ⊢; omega)
        rw [workOff, if_pos (.inl hdone)]
        exact ⟨hstep.settled, hstep.keeps, hstep.reached, hstep.only⟩
      · have hnew : b ∉ a :: path.map (·.1) ++ done :=
          List.mem_append.not.2 (not_or.2 ⟨hpath, hdone⟩)
        have hahead := ahead_cons hb hnew
        have hstep := ih (h.push hg hdone) (by simp [left] at hbound hahead ⊢; omega)
        rw [workOff, if_neg (not_or.2 ⟨hdone, by simpa using hpath⟩)]
        refine ⟨hstep.settled, hstep.keeps,
          fun c hc => hstep.reached c (List.mem_cons_of_mem b hc), fun c hc => ?_⟩
        rcases hstep.only c hc with hc | hc | hc
        · exact .inl hc
        · rcases List.mem_cons.1 hc with rfl | hc
          · exact .inr (.inr ⟨a, h.mem_dependencies⟩)
          · exact .inr (.inl hc)
        · exact .inr (.inr hc)

/-- The nodes that are done after the entries and the nodes of a graph have been worked off. -/
theorem settled_foldl (hg : ∀ a, ¬ g.OnCycle a) (starts : List α) (h : g.Settled done) :
    g.Worked (starts.map fun a => (a, [])) done (starts.foldl (fun done a =>
      if a ∈ done then done else g.workOff (2 * g.size + 2) [(a, g.dependencies a)] done) done) := by
  induction starts generalizing done with
  | nil => exact ⟨h, fun _ ha => ha, by simp, fun _ ha => .inl ha⟩
  | cons a starts ih =>
    have hnext : g.Worked [(a, g.dependencies a)] done (if a ∈ done then done
        else g.workOff (2 * g.size + 2) [(a, g.dependencies a)] done) := by
      split
      · next ha => exact ⟨h, fun _ hc => hc, by simpa using ha, fun _ hc => .inl hc⟩
      · next ha =>
        have hgoing : g.Going [(a, g.dependencies a)] done :=
          ⟨h, ⟨ha, fun b hb => .inl hb, trivial⟩, by simp, by simp⟩
        have hstart := start_le (g := g) ha
        exact workOff_worked hg _ hgoing (by simp [left]; omega)
    have hrest := ih hnext.settled
    refine ⟨hrest.settled, fun c hc => hrest.keeps c (hnext.keeps c hc), fun c hc => ?_,
      fun c hc => ?_⟩
    · rcases List.mem_cons.1 hc with rfl | hc
      · exact hrest.keeps _ (hnext.reached _ (by simp))
      · exact hrest.reached c hc
    · rcases hrest.only c hc with hc | hc | hc
      · have := hnext.only c hc
        simp at this ⊢
        tauto
      · exact .inr (.inl (List.mem_cons_of_mem a hc))
      · exact .inr (.inr hc)

theorem isOrder_order (hg : ∀ a, ¬ g.OnCycle a) (entries : List α) :
    g.IsOrder entries (g.order entries) := by
  have h : g.Worked _ [] _ := settled_foldl hg (entries ++ g.nodes) trivial
  refine ⟨List.nodup_reverse.2 h.settled.nodup, fun a => ?_, fun l a r hl => h.settled.before hl⟩
  rw [order, List.mem_reverse]
  constructor
  · intro ha
    simpa [or_assoc] using h.only a ha
  · intro ha
    rcases ha with ha | ha | ⟨c, hc⟩
    · exact h.reached a (by simp [ha])
    · exact h.reached a (by simp [ha])
    · exact h.settled.closed (h.reached c (by simp [mem_nodes_of_mem_dependencies hc])) hc

example : (⟨[(1, [3, 2]), (2, [3])]⟩ : Graph Nat).order [4, 1] = [4, 3, 2, 1] := by decide

/-- A graph with a cycle is refused. In every other case its nodes come out in order. -/
theorem sort_isOrder (g : Graph α) (entries : List α) :
    match g.sort entries with
    | .ok order => (∀ a, ¬ g.OnCycle a) ∧ g.IsOrder entries order
    | .error _ => ∃ a, g.OnCycle a := by
  unfold sort
  cases h : g.cycles with
  | nil =>
    have hg := cycles_eq_nil_iff.1 h
    exact ⟨hg, isOrder_order hg entries⟩
  | cons c cs =>
    by_contra hno
    have := cycles_eq_nil_iff.2 (not_exists.1 hno)
    simp [this] at h

end Stencil.Dependency.Graph
