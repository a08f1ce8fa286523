import Stencil.Proofs.Dependency.Cycles
import Stencil.Proofs.Dependency.Order

/-!
The order of a graph as a recursive traversal. A path that is worked off stands for the calls that have not returned, and
what is still to do for it is what they would do; so the loop comes to the same list. Of two nodes that do not lead to
each other the one that is discovered first comes first.
-/
namespace Stencil.Dependency.Graph

open Relation

variable {α : Type} [DecidableEq α] {g : Graph α} {a b c : α} {starts done done' found found' : List α}
  {path : List (α × List α)}

/-- No way leads back to where it starts. -/
def Acyclic (g : Graph α) : Prop := ∀ a, ¬ g.OnCycle a

/-- Each dependency leads to fewer nodes than what depends on it. -/
theorem Acyclic.wellFounded (hg : g.Acyclic) : WellFounded fun b a => g.DependsOn a b := by
  classical
  refine Subrelation.wf (r := InvImage (· < ·) fun a => (g.everything.toFinset.filter (g.Reaches a)).card) ?_
    (InvImage.wf _ wellFounded_lt)
  intro b a hab
  refine Finset.card_lt_card (Finset.ssubset_iff_of_subset ?_ |>.2 ⟨a, ?_, ?_⟩)
  · exact Finset.monotone_filter_right _ fun c _ hbc => ReflTransGen.head hab hbc
  · have ha : a ∈ g.everything := mem_everything_of_mem_nodes (mem_nodes_of_mem_dependencies hab)
    exact Finset.mem_filter.2 ⟨List.mem_toFinset.2 ha, .refl⟩
  · rw [Finset.mem_filter, not_and]
    exact fun _ hba => hg a (TransGen.head' hab hba)

/-! ### Traversals -/

/-- A node comes after its dependencies, which are visited in their order. What was visited before, the newest first, stays
as it is. -/
def visit (hg : g.Acyclic) (done : List α) (a : α) : List α :=
  if a ∈ done then done else a :: (g.dependencies a).attach.foldl (fun done b => visit hg done b.1) done
termination_by hg.wellFounded.wrap a
decreasing_by exact b.2

/-- The nodes that the starts lead to, each once and after its dependencies. -/
def postorder (hg : g.Acyclic) (starts : List α) : List α := (starts.foldl (visit hg) []).reverse

/-- A node is found when it is come to, before its dependencies. -/
def discover (hg : g.Acyclic) (found : List α) (a : α) : List α :=
  if a ∈ found then found else (g.dependencies a).attach.foldl (fun found b => discover hg found b.1) (a :: found)
termination_by hg.wellFounded.wrap a
decreasing_by exact b.2

/-- The nodes that the starts lead to, as they are found. -/
def discovery (hg : g.Acyclic) (starts : List α) : List α := (starts.foldl (discover hg) []).reverse

theorem visit_of_mem (hg : g.Acyclic) (ha : a ∈ done) : visit hg done a = done := by
  rw [visit, if_pos ha]

theorem visit_of_not_mem (hg : g.Acyclic) (ha : a ∉ done) :
    visit hg done a = a :: (g.dependencies a).foldl (visit hg) done := by
  rw [visit, if_neg ha, List.foldl_attach]

theorem discover_of_mem (hg : g.Acyclic) (ha : a ∈ found) : discover hg found a = found := by
  rw [discover, if_pos ha]

theorem discover_of_not_mem (hg : g.Acyclic) (ha : a ∉ found) :
    discover hg found a = (g.dependencies a).foldl (discover hg) (a :: found) := by
  rw [discover, if_neg ha, List.foldl_attach]

/-! ### The path and the calls that have not returned -/

/-- What the visits of a path's nodes still do: each visits the dependencies that are left and is done. -/
def resume (hg : g.Acyclic) : List (α × List α) → List α → List α
  | [], done => done
  | (a, bs) :: path, done => resume hg path (a :: bs.foldl (visit hg) done)

theorem resume_visit (hg : g.Acyclic) {bs : List α} :
    resume hg ((a, b :: bs) :: path) done = resume hg ((a, bs) :: path) (visit hg done b) := by
  rw [resume, resume, List.foldl_cons]

theorem resume_push (hg : g.Acyclic) (ha : a ∉ done) :
    resume hg ((a, g.dependencies a) :: path) done = resume hg path (visit hg done a) := by
  rw [resume, visit_of_not_mem hg ha]

/-- With a bound that is enough, working off a path is what the visits of its nodes still do. -/
theorem workOff_eq_resume (hg : g.Acyclic) (bound : Nat) (h : g.Going path done)
    (hbound : left path + g.ahead (path.map (·.1) ++ done) ≤ bound) :
    g.workOff bound path done = resume hg path done := by
  induction bound generalizing path done with
  | zero =>
    cases path with
    | nil => rfl
    | cons e path => simp [left] at hbound
  | succ bound ih =>
    cases path with
    | nil => rfl
    | cons e path =>
      obtain ⟨a, bs⟩ := e
      cases bs with
      | nil =>
        have hahead : g.ahead (path.map (·.1) ++ a :: done) = g.ahead (a :: path.map (·.1) ++ done) :=
          ahead_eq_of_mem (by simp; tauto)
        rw [workOff, if_neg h.waiting.1]
        exact ih h.pop (by simp [left] at hbound hahead ⊢; omega)
      | cons b bs =>
        by_cases hdone : b ∈ done
        · rw [workOff, if_pos (.inl hdone), resume_visit, visit_of_mem hg hdone]
          exact ih (h.look hdone) (by simp [left] at hbound ⊢; omega)
        · have hpath := h.not_mem_path hg
          have hnew : b ∉ a :: path.map (·.1) ++ done := List.mem_append.not.2 (not_or.2 ⟨hpath, hdone⟩)
          have hahead := ahead_cons (mem_everything_of_mem_dependencies h.mem_dependencies) hnew
          rw [workOff, if_neg (not_or.2 ⟨hdone, by simpa using hpath⟩), resume_visit, ← resume_push hg hdone]
          exact ih (h.push hg hdone) (by simp [left] at hbound hahead ⊢; omega)

/-- A start that is worked off is visited. -/
theorem workOff_start (hg : g.Acyclic) (h : g.Settled done) (ha : a ∉ done) :
    g.workOff (2 * g.size + 2) [(a, g.dependencies a)] done = visit hg done a := by
  have hgoing : g.Going [(a, g.dependencies a)] done := ⟨h, ⟨ha, fun b hb => .inl hb, trivial⟩, by simp, by simp⟩
  have hstart := start_le (g := g) ha
  rw [workOff_eq_resume hg _ hgoing (by simp [left]; omega), resume_push hg ha, resume]

/-- Working off the starts in turn is visiting them. -/
theorem foldl_workOff (hg : g.Acyclic) (starts : List α) (h : g.Settled done) :
    starts.foldl (fun done a =>
      if a ∈ done then done else g.workOff (2 * g.size + 2) [(a, g.dependencies a)] done) done =
      starts.foldl (visit hg) done := by
  induction starts generalizing done with
  | nil => rfl
  | cons a starts ih =>
    have hstep : (if a ∈ done then done else g.workOff (2 * g.size + 2) [(a, g.dependencies a)] done) =
        visit hg done a := by
      split
      · next ha => exact (visit_of_mem hg ha).symm
      · next ha => exact workOff_start hg h ha
    have hsettled : g.Settled (visit hg done a) := hstep ▸ (settled_foldl hg [a] h).settled
    rw [List.foldl_cons, List.foldl_cons, hstep]
    exact ih hsettled

theorem order_eq_postorder (hg : g.Acyclic) (entries : List α) :
    g.order entries = g.postorder hg (entries ++ g.nodes) := by
  have hempty : g.Settled [] := trivial
  rw [order, postorder, foldl_workOff hg _ hempty]

theorem settled_visits (hg : g.Acyclic) (starts : List α) : g.Settled (starts.foldl (visit hg) []) := by
  have hempty : g.Settled [] := trivial
  rw [← foldl_workOff hg starts hempty]
  exact (settled_foldl hg starts hempty).settled

/-! ### Discovery -/

/-- What is found and what is done, both the newest first, while some of what is found may not be done yet. Nodes that do
not lead to each other are done in the order in which they are found. -/
structure InStep (g : Graph α) (found done : List α) : Prop where
  nodup : found.Nodup
  subset : done ⊆ found
  ordered : ∀ a ∈ done, ∀ b ∈ done, [b, a].Sublist found → ¬ g.Reaches a b → [b, a].Sublist done

/-- What a visit of the starts changes: it finds nodes that the starts lead to, and all of them are done. -/
structure Advanced (g : Graph α) (starts found done found' done' : List α) : Prop where
  inStep : g.InStep found' done'
  grows : ∃ new, found' = new ++ found ∧ ∀ c ∈ new, ∃ a ∈ starts, g.Reaches a c
  opened : ∀ c, c ∈ found' ∧ c ∉ done' ↔ c ∈ found ∧ c ∉ done

/-- The starts do not lead back to what is found and not done. -/
def Ahead (g : Graph α) (starts found done : List α) : Prop :=
  ∀ c ∈ found, c ∉ done → ∀ a ∈ starts, ¬ g.Reaches a c

theorem Ahead.mem_iff (hahead : g.Ahead (a :: starts) found done) (h : g.InStep found done) : a ∈ found ↔ a ∈ done :=
  ⟨fun ha => by_contra fun hdone => hahead a ha hdone a List.mem_cons_self .refl, fun ha => h.subset ha⟩

/-- A node that is found, before its dependencies. -/
theorem InStep.find (h : g.InStep found done) (ha : a ∉ found) : g.InStep (a :: found) done where
  nodup := List.nodup_cons.2 ⟨ha, h.nodup⟩
  subset := List.subset_cons_of_subset a h.subset
  ordered x hx y hy hsub := by
    have hne : y ≠ a := fun he => ha (he ▸ h.subset hy)
    exact h.ordered x hx y hy (hsub.of_cons_of_ne hne)

theorem Ahead.find (hg : g.Acyclic) (hahead : g.Ahead (a :: starts) found done) :
    g.Ahead (g.dependencies a) (a :: found) done := by
  intro c hc hdone b hb hbc
  obtain rfl | hc := List.mem_cons.1 hc
  · exact hg c (TransGen.head' hb hbc)
  · exact hahead c hc hdone a List.mem_cons_self (ReflTransGen.head hb hbc)

omit [DecidableEq α] in
/-- What stands before a member of a list without repetitions is in the part before it. -/
theorem mem_of_sublist_of_nodup {l r : List α} (h : (l ++ a :: r).Nodup) (hsub : [b, a].Sublist (l ++ a :: r)) : b ∈ l := by
  induction l with
  | nil =>
    have ha : a ∈ r := List.singleton_sublist.1 hsub.tail
    exact absurd ha (List.nodup_cons.1 h).1
  | cons c l ih =>
    by_cases hb : b = c
    · exact hb ▸ List.mem_cons_self
    · exact List.mem_cons_of_mem c (ih (List.nodup_cons.1 h).2 (hsub.of_cons_of_ne hb))

/-- A node is done after its dependencies. -/
theorem Advanced.finish (h : g.Advanced (g.dependencies a) (a :: found) done found' done') (hfound : a ∉ found)
    (hdone : a ∉ done) : g.Advanced [a] found done found' (a :: done') := by
  obtain ⟨hinStep, ⟨new, rfl, hnew⟩, hopened⟩ := h
  obtain ⟨ha, hlate⟩ := (hopened a).2 ⟨List.mem_cons_self, hdone⟩
  have hreaches : ∀ c ∈ new, g.Reaches a c := by
    intro c hc
    obtain ⟨b, hb, hbc⟩ := hnew c hc
    exact ReflTransGen.head hb hbc
  refine ⟨⟨hinStep.nodup, List.cons_subset.2 ⟨ha, hinStep.subset⟩, ?_⟩, ⟨new ++ [a], by simp, ?_⟩, fun c => ?_⟩
  · intro x hx y hy hsub hxy
    have hne : y ≠ x := by simpa using hinStep.nodup.sublist hsub
    obtain rfl | hy := List.mem_cons.1 hy
    · exact (List.singleton_sublist.2 ((List.mem_cons.1 hx).resolve_left hne.symm)).cons_cons y
    obtain rfl | hx := List.mem_cons.1 hx
    · -- what is found after the node is among what it leads to
      exact absurd (hreaches y (mem_of_sublist_of_nodup hinStep.nodup hsub)) hxy
    · exact (hinStep.ordered x hx y hy hsub hxy).cons a
  · refine List.forall_mem_append.2 ⟨fun c hc => ⟨a, List.mem_singleton_self a, hreaches c hc⟩, ?_⟩
    exact List.forall_mem_singleton.2 ⟨a, List.mem_singleton_self a, .refl⟩
  · by_cases hc : c = a
    · simp [hc, hfound]
    · simpa [hc] using hopened c

theorem Advanced.trans {found'' done'' : List α} (h : g.Advanced [a] found done found' done')
    (h' : g.Advanced starts found' done' found'' done'') : g.Advanced (a :: starts) found done found'' done'' := by
  obtain ⟨-, ⟨new, rfl, hnew⟩, hopened⟩ := h
  obtain ⟨hinStep, ⟨new', rfl, hnew'⟩, hopened'⟩ := h'
  refine ⟨hinStep, ⟨new' ++ new, by simp, ?_⟩, fun c => (hopened' c).trans (hopened c)⟩
  refine List.forall_mem_append.2 ⟨fun c hc => ?_, fun c hc => ⟨a, List.mem_cons_self, by simpa using hnew c hc⟩⟩
  obtain ⟨b, hb, hbc⟩ := hnew' c hc
  exact ⟨b, List.mem_cons_of_mem a hb, hbc⟩

/-- The starts are visited and discovered side by side, if each of them alone can be. -/
theorem advanced_foldl (hg : g.Acyclic)
    (hvisit : ∀ a ∈ starts, ∀ found done, g.InStep found done → g.Ahead [a] found done →
      g.Advanced [a] found done (discover hg found a) (visit hg done a))
    (h : g.InStep found done) (hahead : g.Ahead starts found done) :
    g.Advanced starts found done (starts.foldl (discover hg) found) (starts.foldl (visit hg) done) := by
  induction starts generalizing found done with
  | nil => exact ⟨h, ⟨[], rfl, by simp⟩, fun _ => .rfl⟩
  | cons a starts ih =>
    have hfirst := hvisit a List.mem_cons_self found done h fun c hc hdone =>
      List.forall_mem_singleton.2 (hahead c hc hdone a List.mem_cons_self)
    refine hfirst.trans (ih (fun b hb => hvisit b (List.mem_cons_of_mem a hb)) hfirst.inStep fun c hc hdone b hb => ?_)
    obtain ⟨hc, hdone⟩ := (hfirst.opened c).1 ⟨hc, hdone⟩
    exact hahead c hc hdone b (List.mem_cons_of_mem a hb)

/-- A visit does the nodes that a discovery finds. The induction is on what the node leads to. -/
theorem advanced_visit (hg : g.Acyclic) (a : α) (found done : List α) (h : g.InStep found done)
    (hahead : g.Ahead [a] found done) : g.Advanced [a] found done (discover hg found a) (visit hg done a) := by
  induction a using hg.wellFounded.induction generalizing found done with
  | _ a ih =>
    by_cases hdone : a ∈ done
    · rw [discover_of_mem hg (h.subset hdone), visit_of_mem hg hdone]
      exact ⟨h, ⟨[], rfl, by simp⟩, fun _ => .rfl⟩
    · have hfound : a ∉ found := fun hfound => hdone ((hahead.mem_iff h).1 hfound)
      rw [discover_of_not_mem hg hfound, visit_of_not_mem hg hdone]
      exact (advanced_foldl hg (fun b hb found done => ih b hb found done) (h.find hfound) (hahead.find hg)).finish
        hfound hdone

theorem advanced_visits (hg : g.Acyclic) (starts : List α) :
    g.Advanced starts [] [] (starts.foldl (discover hg) []) (starts.foldl (visit hg) []) :=
  advanced_foldl hg (fun a _ => advanced_visit hg a) ⟨.nil, by simp, by simp⟩ (by simp [Ahead])

/-! ### Which of two nodes comes first -/

omit [DecidableEq α] in
/-- No two nodes stand before each other. -/
theorem not_sublist_of_nodup {l : List α} (h : l.Nodup) (hab : [a, b].Sublist l) : ¬ [b, a].Sublist l := by
  intro hba
  obtain ⟨front, back, rfl, ha, hb⟩ := List.cons_sublist_iff.1 hab
  obtain ⟨before, between, rfl⟩ := List.append_of_mem ha
  have hbefore : b ∈ before := mem_of_sublist_of_nodup (by simpa using h) (by simpa using hba)
  exact (List.nodup_append.1 h).2.2 b (List.mem_append_left _ hbefore) b (List.singleton_sublist.1 hb) rfl

theorem Settled.of_suffix {newer : List α} (h : g.Settled (newer ++ done)) : g.Settled done := by
  induction newer with
  | nil => exact h
  | cons c newer ih => exact ih h.2.2

theorem Settled.mem_of_reaches (h : g.Settled done) (ha : a ∈ done) (hab : g.Reaches a b) : b ∈ done := by
  induction hab with
  | refl => exact ha
  | tail _ hstep ih => exact h.closed ih hstep

/-- What a node leads to is done before it. -/
theorem Settled.sublist_of_reaches (h : g.Settled done) (hb : b ∈ done) (hne : a ≠ b) (hba : g.Reaches b a) :
    [b, a].Sublist done := by
  obtain ⟨newer, older, rfl⟩ := List.append_of_mem hb
  obtain rfl | ⟨c, hbc, hca⟩ := ReflTransGen.cases_head hba
  · exact absurd rfl hne
  · have ha : a ∈ older := h.of_suffix.2.2.mem_of_reaches (h.of_append c hbc) hca
    exact ((List.singleton_sublist.2 ha).cons_cons b).trans (List.sublist_append_right _ _)

/-- Of two nodes one comes first if the other leads to it, or if it is found first and neither leads to the other. -/
theorem sublist_postorder_iff (hg : g.Acyclic) (starts : List α) (ha : a ∈ g.postorder hg starts)
    (hb : b ∈ g.postorder hg starts) (hne : a ≠ b) :
    [a, b].Sublist (g.postorder hg starts) ↔
      g.Reaches b a ∨ ¬ g.Reaches a b ∧ [a, b].Sublist (g.discovery hg starts) := by
  have hsettled := settled_visits hg starts
  obtain ⟨hinStep, -, -⟩ := advanced_visits hg starts
  have hreverse (l : List α) : [a, b].Sublist l.reverse ↔ [b, a].Sublist l :=
    (List.reverse_sublist : [b, a].reverse.Sublist l.reverse ↔ _)
  unfold postorder discovery at *
  rw [List.mem_reverse] at ha hb
  rw [hreverse, hreverse]
  constructor
  · intro hdone
    have hlater := not_sublist_of_nodup hsettled.nodup hdone
    refine or_iff_not_imp_left.2 fun hba => ⟨fun hab => hlater (hsettled.sublist_of_reaches ha hne.symm hab), ?_⟩
    refine (sublist_or_sublist (hinStep.subset hb) (hinStep.subset ha) hne.symm).resolve_right fun hfound => ?_
    exact hlater (hinStep.ordered b hb a ha hfound hba)
  · rintro (hba | ⟨hab, hfound⟩)
    · exact hsettled.sublist_of_reaches hb hne hba
    · exact hinStep.ordered a ha b hb hfound hab

/-- A graph without cycles is sorted as a traversal does that calls itself for the dependencies of a node: each node
comes once, after these. Two nodes that do not lead to each other come in the order in which they are found. -/
theorem sort_postorder (hg : g.Acyclic) (entries : List α) :
    ∃ order, g.sort entries = .ok order ∧ order = g.postorder hg (entries ++ g.nodes) ∧ g.IsOrder entries order ∧
      ∀ a ∈ order, ∀ b ∈ order, a ≠ b → ([a, b].Sublist order ↔
        g.Reaches b a ∨ ¬ g.Reaches a b ∧ [a, b].Sublist (g.discovery hg (entries ++ g.nodes))) := by
  have horder := order_eq_postorder hg entries
  refine ⟨g.order entries, ?_, horder, isOrder_order hg entries, fun a ha b hb hne => ?_⟩
  · rw [sort, cycles_eq_nil_iff.2 hg]
  · rw [horder] at ha hb ⊢
    exact sublist_postorder_iff hg _ ha hb hne

/-- Two nodes that share a dependency, one of them named twice. -/
def shared : Graph Nat := ⟨[(1, [3, 2, 3]), (2, [3, 5]), (4, [2])]⟩

/-- What the first entry leads to comes before the second one. -/
theorem sort_postorder_shared : ∃ hg : shared.Acyclic, shared.sort [4, 1, 4] = .ok [3, 5, 2, 4, 1] ∧
    shared.postorder hg ([4, 1, 4] ++ shared.nodes) = [3, 5, 2, 4, 1] ∧
    [3, 5].Sublist (shared.discovery hg ([4, 1, 4] ++ shared.nodes)) := by
  have hg : shared.Acyclic := cycles_eq_nil_iff.1 (by decide)
  have hsort : shared.sort [4, 1, 4] = .ok [3, 5, 2, 4, 1] := rfl
  obtain ⟨order, horder, hpostorder, -, hbefore⟩ := sort_postorder hg [4, 1, 4]
  obtain rfl : [3, 5, 2, 4, 1] = order := by simpa [hsort] using horder
  refine ⟨hg, hsort, hpostorder.symm, ?_⟩
  have hleaf : ¬ shared.Reaches 5 3 := by
    intro hreaches
    obtain heq | ⟨c, hstep, -⟩ := ReflTransGen.cases_head hreaches
    · exact absurd heq (by decide)
    · exact absurd hstep List.not_mem_nil
  exact (((hbefore 3 (by decide) 5 (by decide) (by decide)).1 (by decide)).resolve_left hleaf).2

end Stencil.Dependency.Graph
