import Mathlib.Data.List.Induction
import Mathlib.Logic.Relation
import Mathlib.Tactic.Common
import Stencil.Dependency.Discovery
import Stencil.Proofs.Dependency.Search
import Stencil.Proofs.Lists

/-!
What the search for templates finds. The graph is worked off in the order of its nodes: at its turn
a node has been discovered from the seed and the nodes before it, and after its turn it depends on
its targets. Main statement: the search ends with the closure of the seed under the references of
its templates, or it stops at a template of that closure whose text or names cannot be read.
-/
namespace Stencil.Dependency

open Template Relation

section

variable {α : Type} [DecidableEq α] {a b : α} {l m seed seed' nodes : List α}
  {targets targets' : α → List α} {g g' : Graph α}

/-- The nodes of the seed and the targets of the nodes worked off, in the order of discovery. -/
def discovered (seed : List α) (targets : α → List α) (done : List α) : List α :=
  (seed ++ done.flatMap targets).eraseDups

theorem discovered_concat (seed : List α) (targets : α → List α) (l : List α) (a : α) :
    discovered seed targets (l ++ [a]) = (discovered seed targets l ++ targets a).eraseDups := by
  simp only [discovered, List.flatMap_append, List.flatMap_singleton, ← List.append_assoc,
    eraseDups_eraseDups_append]

theorem discovered_congr (hseed : seed.eraseDups = seed'.eraseDups)
    (htargets : ∀ a, (targets a).eraseDups = (targets' a).eraseDups) (l : List α) :
    discovered seed targets l = discovered seed' targets' l := by
  induction l using List.reverseRecOn with
  | nil => simpa [discovered] using hseed
  | append_singleton l a ih =>
    rw [discovered_concat, discovered_concat, ih, ← eraseDups_append_eraseDups, htargets,
      eraseDups_append_eraseDups]

/-- Every node has been discovered when it is its turn. -/
def TakeTurns (seed : List α) (targets : α → List α) (nodes : List α) : Prop :=
  ∀ l a r, nodes = l ++ a :: r → l ++ [a] <+: discovered seed targets l

namespace TakeTurns

theorem nil : TakeTurns seed targets [] := fun l a r h => by simp at h

theorem concat (h : TakeTurns seed targets l) (ha : l ++ [a] <+: discovered seed targets l) :
    TakeTurns seed targets (l ++ [a]) := by
  intro l₁ b r hsplit
  rcases List.eq_nil_or_concat r with rfl | ⟨r, c, rfl⟩
  · obtain ⟨rfl, rfl⟩ : l = l₁ ∧ a = b := by simpa using List.append_inj' hsplit rfl
    exact ha
  · rw [List.concat_eq_append, ← List.cons_append, ← List.append_assoc] at hsplit
    exact h l₁ b r (List.append_inj' hsplit rfl).1

/-- Every node can be reached from the seed. -/
theorem reached (h : TakeTurns seed targets nodes) (ha : a ∈ nodes) :
    ∃ s ∈ seed, ReflTransGen (fun b c => b ∈ nodes ∧ c ∈ targets b) s a := by
  obtain ⟨l, r, hsplit⟩ := List.append_of_mem ha
  induction hn : l.length using Nat.strong_induction_on generalizing l a r with
  | _ n ih =>
    have hmem : a ∈ discovered seed targets l := (h l a r hsplit).subset (by simp)
    rw [discovered, List.mem_eraseDups, List.mem_append, List.mem_flatMap] at hmem
    rcases hmem with hseed | ⟨c, hc, hac⟩
    · exact ⟨a, hseed, .refl⟩
    · obtain ⟨l₁, l₂, rfl⟩ := List.append_of_mem hc
      have hnode : c ∈ nodes := by simp [hsplit]
      obtain ⟨s, hs, hsc⟩ := ih l₁.length (by simp [← hn]) hnode l₁ (l₂ ++ a :: r)
        (by simp [hsplit]) rfl
      exact ⟨s, hs, hsc.tail ⟨hnode, hac⟩⟩

end TakeTurns

/-- The nodes are those that the seed leads to, in the order of discovery, each with its targets. -/
structure Graph.IsClosure (seed : List α) (targets : α → List α) (g : Graph α) : Prop where
  nodes : g.nodes = discovered seed targets g.nodes
  turns : TakeTurns seed targets g.nodes
  dependencies : ∀ a ∈ g.nodes, g.dependencies a = (targets a).eraseDups

namespace Graph

theorem entries_eq (h : g.nodes.Nodup) : g.entries = g.nodes.map fun a => (a, g.dependencies a) := by
  obtain ⟨entries⟩ := g
  unfold nodes dependencies at *
  rw [List.map_map]
  refine (List.map_id _).symm.trans (List.map_congr_left fun e he => ?_)
  obtain ⟨before, behind, rfl⟩ := List.append_of_mem he
  have hfresh : ∀ p ∈ before, (e.1 != p.1) = true := by
    intro p hp
    rw [List.map_append, List.nodup_append] at h
    exact bne_iff_ne.2 fun hep => h.2.2 _ (List.mem_map_of_mem hp) e.1 (by simp) hep.symm
  have hlookup : (before ++ e :: behind).lookup e.1 = some e.2 :=
    List.lookup_eq_some_iff.2 ⟨before, behind, rfl, hfresh⟩
  simp only [id, Function.comp, hlookup, Option.getD_some]

namespace IsClosure

theorem nodup (h : g.IsClosure seed targets) : g.nodes.Nodup := by
  rw [h.nodes]
  exact nodup_eraseDups _

theorem mem_dependencies (h : g.IsClosure seed targets) (ha : a ∈ g.nodes) :
    b ∈ g.dependencies a ↔ b ∈ targets a := by
  rw [h.dependencies a ha, List.mem_eraseDups]

/-- What a node depends on is a node. -/
theorem closed (h : g.IsClosure seed targets) (hb : b ∈ g.dependencies a) : b ∈ g.nodes := by
  have ha := mem_nodes_of_mem_dependencies hb
  rw [h.nodes, discovered, List.mem_eraseDups]
  exact List.mem_append_right _ (List.mem_flatMap.2 ⟨a, ha, (h.mem_dependencies ha).1 hb⟩)

/-- Every node can be reached from the seed. -/
theorem reached (h : g.IsClosure seed targets) (ha : a ∈ g.nodes) :
    ∃ s ∈ seed, g.Reaches s a := by
  obtain ⟨s, hs, hway⟩ := h.turns.reached ha
  exact ⟨s, hs, ReflTransGen.mono (fun b c hbc => (h.mem_dependencies hbc.1).2 hbc.2) _ _ hway⟩

/-- The order is that of first discovery. -/
theorem nodes_eq (h : g.IsClosure seed targets) :
    g.nodes = (seed ++ g.nodes.flatMap g.dependencies).eraseDups := by
  have hflat : g.nodes.flatMap g.dependencies = g.nodes.flatMap fun a => (targets a).eraseDups :=
    List.flatMap_congr h.dependencies
  calc g.nodes
      = discovered seed targets g.nodes := h.nodes
    _ = discovered seed (fun a => (targets a).eraseDups) g.nodes :=
        discovered_congr rfl (fun a => (eraseDups_eraseDups _).symm) _
    _ = (seed ++ g.nodes.flatMap g.dependencies).eraseDups := by rw [discovered, hflat]

theorem rest_eq (h : g.IsClosure seed targets) (h' : g'.IsClosure seed targets) {r r' : List α}
    (hl : g.nodes = l ++ r) (hl' : g'.nodes = l ++ r') : r = r' := by
  induction r generalizing l r' with
  | nil =>
    cases r' with
    | nil => rfl
    | cons a' r' =>
      have hturn := h'.turns l a' r' hl'
      rw [List.append_nil] at hl
      rw [← hl, ← h.nodes] at hturn
      exact absurd hturn.length_le (by simp)
  | cons a r ih =>
    have hturn := h.turns l a r hl
    cases r' with
    | nil =>
      rw [List.append_nil] at hl'
      rw [← hl', ← h'.nodes] at hturn
      exact absurd hturn.length_le (by simp)
    | cons a' r' =>
      have hturn' := h'.turns l a' r' hl'
      have heq := (List.prefix_of_prefix_length_le hturn hturn' (by simp)).eq_of_length (by simp)
      obtain rfl : a = a' := by simpa using heq
      rw [@ih (l ++ [a]) r' (by simp [hl]) (by simp [hl'])]

/-- There is one closure: neither the order of the search nor repeated references matter to it. -/
theorem unique (h : g.IsClosure seed targets) (h' : g'.IsClosure seed' targets')
    (hseed : seed'.eraseDups = seed.eraseDups)
    (htargets : ∀ a, (targets' a).eraseDups = (targets a).eraseDups) : g' = g := by
  have hsame : g'.IsClosure seed targets := by
    have hdiscovered := discovered_congr hseed htargets
    refine ⟨hdiscovered _ ▸ h'.nodes, fun l a r hl => hdiscovered _ ▸ h'.turns l a r hl, ?_⟩
    exact fun a ha => (h'.dependencies a ha).trans (htargets a)
  have hnodes : g'.nodes = g.nodes := hsame.rest_eq h (l := []) rfl rfl
  have hentries : g'.entries = g.entries := by
    rw [entries_eq h'.nodup, entries_eq h.nodup, hnodes]
    refine List.map_congr_left fun a ha => ?_
    rw [hsame.dependencies a (hnodes ▸ ha), h.dependencies a ha]
  cases g
  cases g'
  exact congrArg _ hentries

end IsClosure

end Graph

end

namespace Discovery

variable {dialect : Dialect} {t : Files.Tree} {library : Library} {template : Path}
  {r : Reference} {name : Text.Points} {d d' d₀ : Discovery} {done found paths : List Path}
  {e : Halt}

/-- The templates that a template refers to, in order and as often as it does. -/
def targets (dialect : Dialect) (t : Files.Tree) (library : Library) (template : Path) :
    List Path :=
  match Compile.parseFile dialect t template with
  | .ok document => document.names.filterMap fun name => (library.find t name).toOption
  | .error _ => []

/-- A template that the search cannot get past. -/
inductive Stops (dialect : Dialect) (t : Files.Tree) (library : Library) (template : Path) :
    Halt → Prop
  | text : Compile.parseFile dialect t template = .error .undecodable →
    Stops dialect t library template .undecodable
  | numeral (e : NumeralError) : Compile.parseFile dialect t template = .error (.numeral e) →
    Stops dialect t library template (.numeral e)
  | name (document : Document) (name : Text.Points) :
    Compile.parseFile dialect t template = .ok document → name ∈ document.names →
    library.find t name = .error .undecodable → Stops dialect t library template .undecodable

theorem Stops.congr {library' : Library} (hfind : library.find t = library'.find t)
    (h : Stops dialect t library template e) : Stops dialect t library' template e := by
  cases h with
  | text hparse => exact .text hparse
  | numeral e hparse => exact .numeral e hparse
  | name document n hparse hn hmiss => exact .name document n hparse hn (hfind ▸ hmiss)

/-- The state of the search after some of a template's targets. -/
structure Follows (t : Files.Tree) (template : Path) (done : List Path) (d₀ : Discovery)
    (found : List Path) (d : Discovery) : Prop where
  nodes : d.graph.nodes = (d₀.graph.nodes ++ found).eraseDups
  queue : d.graph.nodes = done ++ template :: d.queue
  own : d.graph.dependencies template = found.eraseDups
  others : ∀ b, b ≠ template → d.graph.dependencies b = d₀.graph.dependencies b
  library : d.library.find t = d₀.library.find t

theorem find_followName (h : followName t template r d name = .ok d') :
    d'.library.find t = d.library.find t := by
  have hlearn := d.library.find_learn t name
  unfold followName at h
  cases hfound : d.library.find t name with
  | error e =>
    cases e with
    | undecodable => simp [hfound] at h
    | unresolved u =>
      simp only [hfound, Library.learn, Except.ok.injEq] at h
      subst h
      split <;> rfl
  | ok target =>
    rw [hfound] at hlearn
    simp only [hfound, Except.ok.injEq] at h
    subst h
    exact funext hlearn

theorem followName_error (h : followName t template r d name = .error e) :
    d.library.find t name = .error .undecodable ∧ e = .undecodable := by
  unfold followName at h
  cases hfound : d.library.find t name with
  | error m => cases m <;> simp_all
  | ok target => simp [hfound] at h

namespace Follows

theorem warn (h : Follows t template done d₀ found d) (w : Warning) :
    Follows t template done d₀ found (d.warn w) :=
  ⟨h.nodes, h.queue, h.own, h.others, h.library⟩

theorem afterName (h : Follows t template done d₀ found d)
    (hname : followName t template r d name = .ok d') :
    Follows t template done d₀ (found ++ (d₀.library.find t name).toOption.toList) d' := by
  have hlibrary := (find_followName hname).trans h.library
  have hfind : d.library.find t name = d₀.library.find t name := congrFun h.library name
  unfold followName at hname
  rw [hfind] at hname
  cases hfound : d₀.library.find t name with
  | error e =>
    cases e with
    | undecodable => simp [hfound] at hname
    | unresolved u =>
      simp only [hfound, Library.learn, Except.ok.injEq] at hname
      rw [Except.toOption, Option.toList_none, List.append_nil]
      subst hname
      split
      · exact h
      · exact h.warn _
  | ok target =>
    have hmem : template ∈ d.graph.nodes := by simp [h.queue]
    simp only [hfound, Except.ok.injEq] at hname
    rw [Except.toOption, Option.toList_some]
    subst hname
    have hnodes : (d.graph.addEdge template target).nodes =
        if target ∈ d.graph.nodes then d.graph.nodes else d.graph.nodes ++ [target] := by
      rw [Graph.nodes_addEdge, Graph.nodes_addNode, Graph.nodes_addNode, if_pos hmem]
    refine ⟨?_, ?_, ?_, fun b hb => ?_, hlibrary⟩
    · simp only [hnodes, h.nodes, List.mem_eraseDups, ← List.append_assoc, eraseDups_concat]
    · simp only [hnodes, Graph.hasNode_iff]
      split
      · exact h.queue
      · simp [h.queue]
    · simp only [Graph.dependencies_addEdge, h.own, List.mem_eraseDups, true_and, eraseDups_concat]
      split <;> simp_all
    · simp only [Graph.dependencies_addEdge, hb, false_and, if_false]
      exact h.others b hb

/-- Steps that find paths one after the other. -/
theorem fold {β : Type} {f : Discovery → β → Except Halt Discovery} {paths : β → List Path}
    (hstep : ∀ found d b d', Follows t template done d₀ found d → f d b = .ok d' →
      Follows t template done d₀ (found ++ paths b) d') {l : List β}
    (h : Follows t template done d₀ found d) (hfold : l.foldlM f d = .ok d') :
    Follows t template done d₀ (found ++ l.flatMap paths) d' := by
  induction l generalizing found d with
  | nil =>
    cases hfold
    simpa using h
  | cons b l ih =>
    rw [List.foldlM_cons] at hfold
    cases hb : f d b with
    | error e => simp [hb, bind, Except.bind] at hfold
    | ok d₁ =>
      rw [hb] at hfold
      rw [List.flatMap_cons, ← List.append_assoc]
      exact ih (hstep found d b d₁ h hb) hfold

theorem afterReference (h : Follows t template done d₀ found d)
    (hr : followReference t template d r = .ok d') : Follows t template done d₀
      (found ++ (r.names.getD []).flatMap fun n => (d₀.library.find t n).toOption.toList) d' := by
  unfold followReference at hr
  cases hnames : r.names with
  | none =>
    simp only [hnames, Except.ok.injEq] at hr
    subst hr
    simpa using h.warn _
  | some names =>
    simp only [hnames] at hr
    exact h.fold (fun _ _ _ _ hd hname => hd.afterName hname) hr

end Follows

theorem find_followReference (h : followReference t template d r = .ok d') :
    d'.library.find t = d.library.find t := by
  unfold followReference at h
  cases hnames : r.names with
  | none =>
    simp only [hnames, Except.ok.injEq] at h
    exact h ▸ rfl
  | some names =>
    simp only [hnames] at h
    exact foldlM_keeps (p := fun s => s.library.find t = d.library.find t)
      (fun s n s' _ hs hname => (find_followName hname).trans hs) rfl h

theorem followReference_error (h : followReference t template d r = .error e) :
    ∃ name ∈ r.names.getD [], d.library.find t name = .error .undecodable ∧ e = .undecodable := by
  unfold followReference at h
  cases hnames : r.names with
  | none => simp [hnames] at h
  | some names =>
    simp only [hnames] at h
    obtain ⟨n, hn, s, hs, hfail⟩ := exists_of_foldlM_error
      (p := fun s => s.library.find t = d.library.find t)
      (fun s n s' hs hname => (find_followName hname).trans hs) rfl h
    obtain ⟨hfind, he⟩ := followName_error hfail
    exact ⟨n, hn, (congrFun hs n).symm.trans hfind, he⟩

theorem followTemplate_error (h : followTemplate dialect t template d = .error e) :
    Stops dialect t d.library template e := by
  unfold followTemplate at h
  cases hparse : Compile.parseFile dialect t template with
  | error u =>
    cases u <;> simp only [hparse, Except.error.injEq, reduceCtorEq] at h
    · exact h ▸ .text hparse
    · exact h ▸ .numeral _ hparse
  | ok document =>
    simp only [hparse] at h
    obtain ⟨r, hr, s, hs, hfail⟩ := exists_of_foldlM_error
      (p := fun s => s.library.find t = d.library.find t)
      (fun s r s' hs hstep => (find_followReference hstep).trans hs) rfl h
    obtain ⟨n, hn, hfind, rfl⟩ := followReference_error hfail
    exact .name document n hparse (List.mem_flatMap.2 ⟨r, hr, hn⟩) ((congrFun hs n).symm.trans hfind)

theorem followTemplate_follows (hd : Follows t template done d [] d)
    (h : followTemplate dialect t template d = .ok d') :
    Follows t template done d (targets dialect t d.library template) d' := by
  unfold followTemplate at h
  unfold targets
  cases hparse : Compile.parseFile dialect t template with
  | error u =>
    cases u <;> simp only [hparse, Except.ok.injEq, reduceCtorEq] at h
    all_goals exact h ▸ hd.warn _
  | ok document =>
    simp only [hparse] at h
    have hall := hd.fold (fun _ _ _ _ hd hr => hd.afterReference hr) h
    rwa [← List.flatMap_assoc, ← List.filterMap_eq_flatMap_toList, List.nil_append] at hall

/-- What the search has done once the templates of `done` have had their turn. -/
structure Worked (dialect : Dialect) (t : Files.Tree) (library : Library) (seed done : List Path)
    (d : Discovery) : Prop where
  queue : d.graph.nodes = done ++ d.queue
  nodes : d.graph.nodes = discovered seed (targets dialect t library) done
  turns : TakeTurns seed (targets dialect t library) done
  dependencies : ∀ a ∈ done, d.graph.dependencies a = (targets dialect t library a).eraseDups
  fresh : ∀ a, a ∉ done → d.graph.dependencies a = []
  library : d.library.find t = library.find t

namespace Worked

variable {seed : List Path} {queue : List Path}

theorem nodup (h : Worked dialect t library seed done d) : d.graph.nodes.Nodup := by
  rw [h.nodes]
  exact nodup_eraseDups _

theorem targets_eq (h : Worked dialect t library seed done d) :
    targets dialect t d.library = targets dialect t library := by
  funext a
  simp only [targets, h.library]

/-- The first template of the queue has been discovered. -/
theorem turn (h : Worked dialect t library seed done d) (hqueue : d.queue = template :: queue) :
    TakeTurns seed (targets dialect t library) (done ++ [template]) := by
  refine h.turns.concat ⟨queue, ?_⟩
  rw [← h.nodes, h.queue, hqueue, List.append_assoc, List.singleton_append]

theorem not_mem_done (h : Worked dialect t library seed done d)
    (hqueue : d.queue = template :: queue) : template ∉ done := by
  have hnodup := h.nodup
  rw [h.queue, hqueue, List.nodup_append] at hnodup
  exact fun hmem => hnodup.2.2 _ hmem template List.mem_cons_self rfl

theorem step (h : Worked dialect t library seed done d) (hqueue : d.queue = template :: queue)
    (hstep : followTemplate dialect t template { d with queue } = .ok d') :
    Worked dialect t library seed (done ++ [template]) d' := by
  have hstart : Follows t template done { d with queue } [] { d with queue } :=
    { nodes := by simp [h.nodes, discovered]
      queue := by rw [h.queue, hqueue]
      own := h.fresh template (h.not_mem_done hqueue)
      others := fun b _ => rfl
      library := rfl }
  have hend := followTemplate_follows hstart hstep
  have htargets : targets dialect t { d with queue }.library template =
      targets dialect t library template := congrFun h.targets_eq template
  rw [htargets] at hend
  have hne : ∀ a ∈ done, a ≠ template := fun a ha hat => h.not_mem_done hqueue (hat ▸ ha)
  refine ⟨?_, ?_, h.turn hqueue, fun a ha => ?_, fun a ha => ?_, hend.library.trans h.library⟩
  · rw [hend.queue, List.append_assoc, List.singleton_append]
  · rw [hend.nodes, h.nodes, discovered_concat]
  · rcases List.mem_append.1 ha with ha | ha
    · rw [hend.others a (hne a ha)]
      exact h.dependencies a ha
    · rw [List.mem_singleton.1 ha]
      exact hend.own
  · rw [List.mem_append, not_or, List.mem_singleton] at ha
    rw [hend.others a ha.2]
    exact h.fresh a ha.1

theorem isClosure (h : Worked dialect t library seed done d) (hqueue : d.queue = []) :
    d.graph.IsClosure seed (targets dialect t library) := by
  have hdone : d.graph.nodes = done := by rw [h.queue, hqueue, List.append_nil]
  refine ⟨?_, hdone ▸ h.turns, hdone ▸ h.dependencies⟩
  rw [hdone, ← h.nodes, hdone]

/-- The search goes on until the queue is empty or a template of the queue stops it. -/
theorem run (h : Worked dialect t library seed done d) :
    (∃ d' done', d.run dialect t = .ok d' ∧ d'.queue = [] ∧
      Worked dialect t library seed done' d') ∨
    ∃ template done' e, d.run dialect t = .error e ∧ Stops dialect t library template e ∧
      TakeTurns seed (targets dialect t library) (done' ++ [template]) := by
  induction d using Discovery.run.induct dialect t generalizing done with
  | case1 d hqueue => exact .inl ⟨d, done, run_nil hqueue, hqueue, h⟩
  | case2 d template queue hqueue e hstep =>
    refine .inr ⟨template, done, e, ?_, (followTemplate_error hstep).congr h.library, h.turn hqueue⟩
    rw [run_cons hqueue, hstep]
    rfl
  | case3 d template queue hqueue d' hstep ih =>
    have hrun : d.run dialect t = d'.run dialect t := by
      rw [run_cons hqueue, hstep]
      rfl
    rw [hrun]
    exact ih (h.step hqueue hstep)

end Worked

theorem nodes_ofSeed (seed : List Path) :
    (seed.foldl Graph.addNode Graph.empty).nodes = seed.eraseDups := by
  induction seed using List.reverseRecOn with
  | nil => rfl
  | append_singleton seed a ih =>
    rw [List.foldl_append, List.foldl_cons, List.foldl_nil, Graph.nodes_addNode, ih, eraseDups_concat]
    simp only [List.mem_eraseDups]

theorem dependencies_ofSeed (seed : List Path) (a : Path) :
    (seed.foldl Graph.addNode Graph.empty).dependencies a = [] := by
  induction seed using List.reverseRecOn with
  | nil => rfl
  | append_singleton seed b ih =>
    rw [List.foldl_append, List.foldl_cons, List.foldl_nil, Graph.dependencies_addNode, ih]

theorem worked_start (dialect : Dialect) (t : Files.Tree) (library : Library) (seed : List Path) :
    Worked dialect t library seed [] ⟨seed.foldl Graph.addNode Graph.empty, [], library,
      (seed.foldl Graph.addNode Graph.empty).nodes⟩ :=
  { queue := rfl
    nodes := by rw [nodes_ofSeed, discovered, List.flatMap_nil, List.append_nil]
    turns := .nil
    dependencies := fun a ha => by simp at ha
    fresh := fun a _ => dependencies_ofSeed seed a
    library := rfl }

/-- What the search knows at its end. -/
theorem ofSeed_worked {seed : List Path} (h : ofSeed dialect t library seed = .ok d) :
    d.graph.IsClosure seed (targets dialect t library) ∧ d.library.find t = library.find t := by
  rcases (worked_start dialect t library seed).run with
    ⟨d', done, hrun, hqueue, hworked⟩ | ⟨template, done, e, hrun, -, -⟩
  · obtain rfl : d' = d := by simpa [ofSeed, hrun] using h
    exact ⟨hworked.isClosure hqueue, hworked.library⟩
  · simp [ofSeed, hrun] at h

/-- A graph of all templates that the seed leads to. -/
structure Complete (dialect : Dialect) (t : Files.Tree) (library : Library) (seed : List Path)
    (g : Graph Path) : Prop where
  nodup : g.nodes.Nodup
  /-- The nodes come in the order of discovery. -/
  nodes : g.nodes = (seed ++ g.nodes.flatMap g.dependencies).eraseDups
  closed : ∀ a b, b ∈ g.dependencies a → b ∈ g.nodes
  reached : ∀ a ∈ g.nodes, ∃ s ∈ seed, g.Reaches s a
  /-- A template depends on the templates of its names, in the order of its references. -/
  references : ∀ a ∈ g.nodes, ∀ document, Compile.parseFile dialect t a = .ok document →
    g.dependencies a =
      (document.names.filterMap fun name => (library.find t name).toOption).eraseDups
  unparsed : ∀ a e, Compile.parseFile dialect t a = .error e → g.dependencies a = []

theorem complete_of_isClosure {g : Graph Path} {seed : List Path}
    (h : g.IsClosure seed (targets dialect t library)) : Complete dialect t library seed g where
  nodup := h.nodup
  nodes := h.nodes_eq
  closed _ _ hb := h.closed hb
  reached _ ha := h.reached ha
  references a ha document hparse := by rw [h.dependencies a ha, targets, hparse]
  unparsed a e hparse := by
    refine List.eq_nil_iff_forall_not_mem.2 fun b hb => ?_
    have hmem := (h.mem_dependencies (Graph.mem_nodes_of_mem_dependencies hb)).1 hb
    rw [targets, hparse] at hmem
    exact List.not_mem_nil hmem

end Discovery

end Stencil.Dependency
