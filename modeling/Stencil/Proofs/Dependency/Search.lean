import Mathlib.Data.List.Pairwise
import Mathlib.Data.List.Sublists
import Mathlib.Logic.Relation
import Mathlib.Tactic.Common
import Stencil.Dependency.Cycle

/-!
The depth-first search for cycles. While the nodes of a path are searched, every open node leads to
a node of the path that was met no later, and a node of the path leads to all open nodes that were
met no earlier. So what is closed at once is a strongly connected component. Main statement: the
cycles of a graph are its components with a way from a node to itself.
-/
namespace Stencil.Dependency

open Relation

variable {α : Type} [DecidableEq α] {g : Graph α} {s t u : Cycle.Search α} {a b c : α}
  {path new : List α} {low k : Nat}

namespace Graph

/-- `b` is listed as a dependency of `a`. -/
def DependsOn (g : Graph α) (a b : α) : Prop := b ∈ g.dependencies a

/-- There is a way from `a` to `b`. -/
def Reaches (g : Graph α) : α → α → Prop := ReflTransGen g.DependsOn

/-- There is a way of at least one step from `a` to itself. -/
def OnCycle (g : Graph α) (a : α) : Prop := TransGen g.DependsOn a a

/-- Every node and everything that is listed as a dependency. -/
def everything (g : Graph α) : List α := g.entries.flatMap fun e => e.1 :: e.2

theorem mem_entries_of_mem_dependencies (h : b ∈ g.dependencies a) :
    (a, g.dependencies a) ∈ g.entries := by
  unfold dependencies at h ⊢
  cases he : g.entries.lookup a with
  | none => simp [he] at h
  | some bs =>
    obtain ⟨l₁, l₂, hsplit, -⟩ := List.lookup_eq_some_iff.1 he
    rw [hsplit]
    simp

theorem mem_nodes_of_mem_dependencies (h : b ∈ g.dependencies a) : a ∈ g.nodes :=
  List.mem_map.2 ⟨_, mem_entries_of_mem_dependencies h, rfl⟩

omit [DecidableEq α] in
theorem mem_everything_of_mem_nodes (h : a ∈ g.nodes) : a ∈ g.everything := by
  obtain ⟨e, he, rfl⟩ := List.mem_map.1 h
  exact List.mem_flatMap.2 ⟨e, he, by simp⟩

theorem mem_everything_of_mem_dependencies (h : b ∈ g.dependencies a) : b ∈ g.everything :=
  List.mem_flatMap.2 ⟨_, mem_entries_of_mem_dependencies h, by simp [h]⟩

omit [DecidableEq α] in
theorem length_everything (g : Graph α) : g.everything.length = g.size := by
  have hfold (es : List (α × List α)) (n : Nat) :
      es.foldl (fun n e => n + e.2.length + 1) n =
        n + (es.flatMap fun e => e.1 :: e.2).length := by
    induction es generalizing n with
    | nil => simp
    | cons e es ih =>
      rw [List.foldl_cons, ih, List.flatMap_cons, List.length_append, List.length_cons]
      omega
  simp [size, everything, hfold]

end Graph

namespace Cycle.Search

/-- When a node was met; nodes that were not met come after all others. -/
def number (s : Search α) (a : α) : Nat := (s.met.lookup a).getD s.met.length

def Met (s : Search α) (a : α) : Prop := (s.met.lookup a).isSome

/-- The nodes were numbered in the order in which they were met. -/
structure Numbered (s : Search α) : Prop where
  lt : ∀ a, s.Met a → s.number a < s.met.length
  inj : ∀ a b, s.Met a → s.Met b → s.number a = s.number b → a = b

/-- The search after `a` has been met. -/
def meet (s : Search α) (a : α) : Search α :=
  { s with met := (a, s.met.length) :: s.met, opened := a :: s.opened }

/-- What was met is still met, with its number; what was closed is still closed. -/
structure Grows (s t : Search α) : Prop where
  met : ∀ a, s.Met a → t.Met a
  number : ∀ a, s.Met a → t.number a = s.number a
  opened : s.opened <:+ t.opened
  closed : ∀ a, s.Met a → a ∈ t.opened → a ∈ s.opened

theorem Grows.refl (s : Search α) : Grows s s :=
  ⟨fun _ h => h, fun _ _ => rfl, List.suffix_rfl, fun _ _ h => h⟩

theorem Grows.trans (h : Grows s t) (h' : Grows t u) : Grows s u where
  met a ha := h'.met a (h.met a ha)
  number a ha := (h'.number a (h.met a ha)).trans (h.number a ha)
  opened := h.opened.trans h'.opened
  closed a ha hu := h.closed a ha (h'.closed a (h.met a ha) hu)

theorem number_of_not_met (h : ¬ s.Met a) : s.number a = s.met.length := by
  cases hl : s.met.lookup a with
  | none => simp [number, hl]
  | some n => simp [Met, hl] at h

theorem met_meet : (s.meet a).Met b ↔ b = a ∨ s.Met b := by
  by_cases h : b = a
  · simp [Met, meet, h]
  · have hne : (b == a) = false := by simpa using h
    simp [Met, meet, List.lookup_cons, hne, h]

theorem number_meet (h : ¬ s.Met a) (hb : b = a ∨ s.Met b) : (s.meet a).number b = s.number b := by
  by_cases he : b = a
  · subst he
    rw [number_of_not_met h]
    simp [number, meet]
  · have hb : s.Met b := hb.resolve_left he
    have hne : (b == a) = false := by simpa using he
    obtain ⟨n, hn⟩ := Option.isSome_iff_exists.1 hb
    simp [number, meet, List.lookup_cons, hne, hn]

theorem Numbered.meet (hs : s.Numbered) (h : ¬ s.Met a) : (s.meet a).Numbered where
  lt b hb := by
    have hb := met_meet.1 hb
    rw [number_meet h hb]
    have hlength : (s.meet a).met.length = s.met.length + 1 := rfl
    rcases hb with rfl | hb
    · rw [number_of_not_met h]
      omega
    · have := hs.lt b hb
      omega
  inj b c hb hc he := by
    have hb := met_meet.1 hb
    have hc := met_meet.1 hc
    rw [number_meet h hb, number_meet h hc] at he
    have ha := number_of_not_met h
    rcases hb with hb | hb <;> rcases hc with hc | hc
    · exact hb.trans hc.symm
    · have := hs.lt c hc
      rw [hb] at he
      omega
    · have := hs.lt b hb
      rw [hc] at he
      omega
    · exact hs.inj b c hb hc he

theorem grows_meet (h : ¬ s.Met a) : Grows s (s.meet a) where
  met b hb := met_meet.2 (.inr hb)
  number b hb := number_meet h (.inr hb)
  opened := ⟨[a], rfl⟩
  closed b hb hopen := by
    rcases List.mem_cons.1 hopen with rfl | hopen
    · exact (h hb).elim
    · exact hopen

end Cycle.Search

namespace Cycle

open Search

/-- The nodes of a graph that can be reached from `a` and lead back to it. -/
def IsComponent (g : Graph α) (nodes : List α) : Prop :=
  ∃ a, g.OnCycle a ∧ ∀ c, c ∈ nodes ↔ g.Reaches a c ∧ g.Reaches c a

/-- The cycles found so far are closed. A newer one does not lie behind an older one. -/
structure Filed (g : Graph α) (s : Search α) : Prop where
  gone : ∀ nodes ∈ s.cycles, ∀ c ∈ nodes, s.Met c ∧ c ∉ s.opened
  nodup : ∀ nodes ∈ s.cycles, nodes.Nodup
  ordered : s.cycles.Pairwise fun older newer => ∀ c ∈ older, ∀ b ∈ newer, ¬ g.Reaches c b

/-- The state of the search while the nodes of `path`, the newest first, are searched. -/
structure Tidy (g : Graph α) (path : List α) (s : Search α) : Prop where
  numbered : s.Numbered
  /-- Newer nodes were met later. -/
  sorted : s.opened.Pairwise fun a b => s.number b < s.number a
  openMet : ∀ c ∈ s.opened, s.Met c
  onPath : path.Sublist s.opened
  /-- An open node leads to a node of the path that was met no later. -/
  up : ∀ c ∈ s.opened, ∃ p ∈ path, s.number p ≤ s.number c ∧ g.Reaches c p
  /-- A node of the path leads to the open nodes that were met no earlier. -/
  down : ∀ p ∈ path, ∀ c ∈ s.opened, s.number p ≤ s.number c → g.Reaches p c
  /-- What a closed node depends on is closed. -/
  closed : ∀ c, s.Met c → c ∉ s.opened → ∀ b ∈ g.dependencies c, s.Met b ∧ b ∉ s.opened
  /-- What a node depends on that is not on the path has been met. -/
  done : ∀ c ∈ s.opened, c ∉ path → ∀ b ∈ g.dependencies c, s.Met b
  sound : ∀ nodes ∈ s.cycles, IsComponent g nodes
  complete : ∀ c, s.Met c → c ∉ s.opened → g.OnCycle c → ∃ nodes ∈ s.cycles, c ∈ nodes
  filed : Filed g s

namespace Tidy

theorem nodup (h : Tidy g path s) : s.opened.Nodup :=
  h.sorted.imp fun hlt he => by
    subst he
    exact lt_irrefl _ hlt

theorem empty (g : Graph α) : Tidy g [] ⟨[], [], []⟩ where
  numbered := ⟨fun a h => by simp [Met] at h, fun a b h => by simp [Met] at h⟩
  sorted := .nil
  openMet := by simp
  onPath := .slnil
  up := by simp
  down := by simp
  closed c h := by simp [Met] at h
  done := by simp
  sound := by simp
  complete c h := by simp [Met] at h
  filed := ⟨by simp, by simp, .nil⟩

/-- Nothing is open where no path is left. -/
theorem opened_eq_nil (h : Tidy g [] s) : s.opened = [] := by
  refine List.eq_nil_iff_forall_not_mem.2 fun c hc => ?_
  obtain ⟨p, hp, -⟩ := h.up c hc
  simp at hp

/-- Nothing leads from closed nodes to others. -/
theorem closed_of_reaches (h : Tidy g path s) (hb : g.Reaches a b) (ha : s.Met a ∧ a ∉ s.opened) :
    s.Met b ∧ b ∉ s.opened := by
  induction hb with
  | refl => exact ha
  | tail _ hbc ih => exact h.closed _ ih.1 ih.2 _ hbc

/-- A node is met that the newest one of the path depends on. -/
theorem meet (h : Tidy g path s) (ha : ¬ s.Met a) (hpath : ∀ p ∈ path.head?, a ∈ g.dependencies p) :
    Tidy g (a :: path) (s.meet a) := by
  have hgrows := grows_meet ha
  have hnew : ∀ c ∈ s.opened, (s.meet a).number c = s.number c := fun c hc =>
    hgrows.number c (h.openMet c hc)
  have hself : (s.meet a).number a = s.met.length :=
    (number_meet ha (.inl rfl)).trans (number_of_not_met ha)
  have hlast : ∀ c ∈ s.opened, (s.meet a).number c < (s.meet a).number a := fun c hc => by
    rw [hnew c hc, hself]
    exact h.numbered.lt c (h.openMet c hc)
  have hfresh : a ∉ s.opened := fun hc => ha (h.openMet a hc)
  have hpathopen : ∀ p ∈ path, p ∈ s.opened := fun p hp => h.onPath.subset hp
  have hreach : ∀ p ∈ path, g.Reaches p a := by
    intro p hp
    cases path with
    | nil => simp at hp
    | cons q path =>
      -- the newest node of the path is met no earlier than the others
      have hq := hpathopen q (by simp)
      have hle : s.number p ≤ s.number q := by
        rcases List.mem_cons.1 hp with rfl | hp'
        · exact le_rfl
        · have hsorted := h.sorted.sublist h.onPath
          exact ((List.pairwise_cons.1 hsorted).1 p hp').le
      exact (h.down p hp q hq hle).tail (hpath q rfl)
  refine ⟨h.numbered.meet ha, ?_, ?_, h.onPath.cons_cons a, ?_, ?_, ?_, ?_, h.sound, ?_,
    fun nodes hnodes c hc => ?_, h.filed.nodup, h.filed.ordered⟩
  · refine List.pairwise_cons.2 ⟨hlast, ?_⟩
    refine h.sorted.imp_of_mem fun {x y} hx hy hlt => ?_
    rw [hnew x hx, hnew y hy]
    exact hlt
  · intro c hc
    rcases List.mem_cons.1 hc with rfl | hc
    · exact met_meet.2 (.inl rfl)
    · exact hgrows.met c (h.openMet c hc)
  · intro c hc
    rcases List.mem_cons.1 hc with rfl | hc
    · exact ⟨c, by simp, le_rfl, .refl⟩
    · obtain ⟨p, hp, hle, hcp⟩ := h.up c hc
      refine ⟨p, List.mem_cons_of_mem a hp, ?_, hcp⟩
      rw [hnew p (hpathopen p hp), hnew c hc]
      exact hle
  · intro p hp c hc hle
    rcases List.mem_cons.1 hp with rfl | hp
    · rcases List.mem_cons.1 hc with rfl | hc
      · exact .refl
      · have := hlast c hc
        omega
    · rcases List.mem_cons.1 hc with hca | hc
      · exact hca ▸ hreach p hp
      · rw [hnew p (hpathopen p hp), hnew c hc] at hle
        exact h.down p hp c hc hle
  · intro c hc hnot b hb
    have hne : c ≠ a ∧ c ∉ s.opened := by simpa [Search.meet] using hnot
    obtain ⟨hmet, hclosed⟩ := h.closed c ((met_meet.1 hc).resolve_left hne.1) hne.2 b hb
    refine ⟨hgrows.met b hmet, fun hopened => ?_⟩
    exact hclosed (hgrows.closed b hmet hopened)
  · intro c hc hnot b hb
    have hne : c ≠ a ∧ c ∉ path := by simpa using hnot
    have hc : c ∈ s.opened := (List.mem_cons.1 hc).resolve_left hne.1
    exact hgrows.met b (h.done c hc hne.2 b hb)
  · intro c hc hnot
    have hne : c ≠ a ∧ c ∉ s.opened := by simpa [Search.meet] using hnot
    exact h.complete c ((met_meet.1 hc).resolve_left hne.1) hne.2
  · obtain ⟨hmet, hclosed⟩ := h.filed.gone nodes hnodes c hc
    exact ⟨hgrows.met c hmet, fun hopened => hclosed (hgrows.closed c hmet hopened)⟩

/-- A node that leads to an older open one is searched to its end and stays open. -/
theorem leave (h : Tidy g (a :: path) s) (hdone : ∀ b ∈ g.dependencies a, s.Met b)
    (hlow : ∃ d ∈ s.opened, s.number d < s.number a ∧ g.Reaches a d) : Tidy g path s := by
  refine ⟨h.numbered, h.sorted, h.openMet, (List.sublist_cons_self a path).trans h.onPath, ?_,
    fun p hp => h.down p (List.mem_cons_of_mem a hp), h.closed, ?_, h.sound, h.complete, h.filed⟩
  · intro c hc
    obtain ⟨p, hp, hle, hcp⟩ := h.up c hc
    rcases List.mem_cons.1 hp with rfl | hp
    · obtain ⟨d, hd, hlt, hpd⟩ := hlow
      obtain ⟨q, hq, hqd, hdq⟩ := h.up d hd
      rcases List.mem_cons.1 hq with rfl | hq
      · omega
      · exact ⟨q, hq, by omega, hcp.trans (hpd.trans hdq)⟩
    · exact ⟨p, hp, hle, hcp⟩
  · intro c hc hnot b hb
    by_cases hca : c = a
    · exact hdone b (hca ▸ hb)
    · exact h.done c hc (by simp [hca, hnot]) b hb

section Close

variable {newer rest : List α}

/-- Nodes that belong to the component of `a` or are closed. -/
def Behind (s : Search α) (a c : α) : Prop :=
  (c ∈ s.opened ∧ s.number a ≤ s.number c) ∨ (s.Met c ∧ c ∉ s.opened)

/-- Whatever is open and met no earlier than `a` leads to nothing older that is open. -/
structure Ends (g : Graph α) (a : α) (s : Search α) : Prop where
  met : ∀ b ∈ g.dependencies a, s.Met b
  low : ∀ c ∈ s.opened, s.number a ≤ s.number c → ∀ b ∈ g.dependencies c, b ∈ s.opened →
    s.number a ≤ s.number b

variable (h : Tidy g (a :: path) s) (he : Ends g a s)
include h

theorem mem_path_iff_of_le (hc : c ∈ a :: path) : s.number a ≤ s.number c ↔ c = a := by
  refine ⟨fun hle => ?_, fun hca => hca ▸ le_rfl⟩
  rcases List.mem_cons.1 hc with hca | hc
  · exact hca
  · have := (List.pairwise_cons.1 (h.sorted.sublist h.onPath)).1 c hc
    omega

include he

theorem behind_step (hc : Behind s a c) (hb : b ∈ g.dependencies c) : Behind s a b := by
  rcases hc with ⟨hc, hle⟩ | ⟨hmet, hnot⟩
  · have hmet : s.Met b := by
      by_cases hpath : c ∈ a :: path
      · have hca := (h.mem_path_iff_of_le hpath).1 hle
        exact he.met b (hca ▸ hb)
      · exact h.done c hc hpath b hb
    by_cases hopen : b ∈ s.opened
    · exact .inl ⟨hopen, he.low c hc hle b hb hopen⟩
    · exact .inr ⟨hmet, hopen⟩
  · exact .inr (h.closed c hmet hnot b hb)

theorem behind_of_reaches (hc : Behind s a c) (hb : g.Reaches c b) : Behind s a b := by
  induction hb with
  | refl => exact hc
  | tail _ hstep ih => exact h.behind_step he ih hstep

/-- What is closed together with `a` is the component of `a`. -/
theorem mem_component : c ∈ s.opened ∧ s.number a ≤ s.number c ↔ g.Reaches a c ∧ g.Reaches c a := by
  have ha : a ∈ s.opened := h.onPath.subset (by simp)
  constructor
  · rintro ⟨hc, hle⟩
    refine ⟨h.down a (by simp) c hc hle, ?_⟩
    obtain ⟨p, hp, -, hcp⟩ := h.up c hc
    have hpa : s.number p ≤ s.number a := by
      rcases List.mem_cons.1 hp with rfl | hp
      · exact le_rfl
      · exact ((List.pairwise_cons.1 (h.sorted.sublist h.onPath)).1 p hp).le
    exact hcp.trans (h.down p hp a ha hpa)
  · rintro ⟨hac, hca⟩
    refine (h.behind_of_reaches he (.inl ⟨ha, le_rfl⟩) hac).resolve_right fun hclosed => ?_
    exact (h.closed_of_reaches hca hclosed).2 ha

variable (ho : s.opened = newer ++ a :: rest)
include ho

omit he in
theorem mem_closed_iff : c ∈ a :: newer.reverse ↔ c ∈ s.opened ∧ s.number a ≤ s.number c := by
  have hsorted := h.sorted
  rw [ho] at hsorted
  obtain ⟨-, hrest, hcross⟩ := List.pairwise_append.1 hsorted
  have hold := (List.pairwise_cons.1 hrest).1
  rw [ho]
  constructor
  · intro hc
    rcases List.mem_cons.1 hc with rfl | hc
    · simp
    · have hc : c ∈ newer := List.mem_reverse.1 hc
      exact ⟨by simp [hc], (hcross c hc a (by simp)).le⟩
  · rintro ⟨hc, hle⟩
    rcases List.mem_append.1 hc with hc | hc
    · simp [hc]
    · rcases List.mem_cons.1 hc with rfl | hc
      · simp
      · have := hold c hc
        omega

/-- The component has a way from `a` to itself if it has another node or `a` depends on itself. -/
theorem onCycle_iff : g.OnCycle a ↔ ¬ (newer.isEmpty ∧ a ∉ g.dependencies a) := by
  have ha : a ∈ s.opened := h.onPath.subset (by simp)
  constructor
  · rintro hcycle ⟨hnewer, hself⟩
    obtain ⟨b, hab, hba⟩ := TransGen.head'_iff.1 hcycle
    have hmem := (h.mem_component he).2 ⟨.single hab, hba⟩
    rw [← h.mem_closed_iff ho, List.isEmpty_iff.1 hnewer] at hmem
    obtain rfl : b = a := by simpa using hmem
    exact hself hab
  · intro hne
    by_cases hself : a ∈ g.dependencies a
    · exact .single hself
    · obtain ⟨c, hc⟩ : ∃ c, c ∈ newer := by
        refine List.exists_mem_of_ne_nil _ fun hnil => hne ⟨by simp [hnil], hself⟩
      have hmem := (h.mem_closed_iff ho).1 (show c ∈ a :: newer.reverse by simp [hc])
      obtain ⟨hac, hca⟩ := (h.mem_component he).1 hmem
      have hca' : c ≠ a := by
        rintro rfl
        have hnodup := h.nodup
        rw [ho] at hnodup
        exact (List.nodup_append.1 hnodup).2.2 c hc c (by simp) rfl
      exact (TransGen.head'_iff.2 (by
        obtain hac | ⟨b, hb, hbc⟩ := ReflTransGen.cases_head hac
        · exact (hca' hac.symm).elim
        · exact ⟨b, hb, hbc.trans hca⟩))

omit he in
theorem close_eq : Cycle.close g a s = { s with
    opened := rest
    cycles := if newer.isEmpty ∧ a ∉ g.dependencies a then s.cycles
      else s.cycles ++ [a :: newer.reverse] } := by
  have hne : ∀ c ∈ newer, (decide (c ≠ a)) = true := by
    intro c hc
    have hnodup := h.nodup
    rw [ho] at hnodup
    simpa using (List.nodup_append.1 hnodup).2.2 c hc a (by simp)
  have htake : s.opened.takeWhile (· ≠ a) = newer := by
    rw [ho, List.takeWhile_append_of_pos hne]
    simp
  have hdrop : (s.opened.dropWhile (· ≠ a)).drop 1 = rest := by
    rw [ho, List.dropWhile_append_of_pos hne]
    simp
  unfold Cycle.close
  dsimp only
  rw [htake, hdrop]
  split <;> rfl

omit he in
/-- What is closed together with `a` is a new cycle, and nothing that was found before leads to it. -/
theorem filed_close (hrest : ∀ c ∈ rest, c ∈ s.opened ∧ s.number c < s.number a) :
    Filed g (Cycle.close g a s) := by
  have hmem := fun c => h.mem_closed_iff (c := c) ho
  have hgone : ∀ c, s.Met c → c ∉ s.opened → s.Met c ∧ c ∉ rest := fun c hmet hclosed =>
    ⟨hmet, fun hc => hclosed (hrest c hc).1⟩
  have hnew : ∀ c ∈ a :: newer.reverse, s.Met c ∧ c ∉ rest := by
    intro c hc
    obtain ⟨hopen, hle⟩ := (hmem c).1 hc
    refine ⟨h.openMet c hopen, fun hcr => ?_⟩
    have := (hrest c hcr).2
    omega
  rw [h.close_eq ho]
  by_cases hcycle : newer.isEmpty ∧ a ∉ g.dependencies a
  · rw [if_pos hcycle]
    exact ⟨fun nodes hnodes c hc => (h.filed.gone nodes hnodes c hc).elim (hgone c),
      h.filed.nodup, h.filed.ordered⟩
  · rw [if_neg hcycle]
    refine ⟨fun nodes hnodes c hc => ?_, fun nodes hnodes => ?_, ?_⟩
    · rcases List.mem_append.1 hnodes with hnodes | hnodes
      · exact (h.filed.gone nodes hnodes c hc).elim (hgone c)
      · obtain rfl : nodes = a :: newer.reverse := by simpa using hnodes
        exact hnew c hc
    · rcases List.mem_append.1 hnodes with hnodes | hnodes
      · exact h.filed.nodup nodes hnodes
      · obtain rfl : nodes = a :: newer.reverse := by simpa using hnodes
        have hnodup := h.nodup
        rw [ho] at hnodup
        obtain ⟨hnewer, -, hapart⟩ := List.nodup_append.1 hnodup
        refine List.nodup_cons.2 ⟨fun ha => ?_, List.nodup_reverse.2 hnewer⟩
        exact hapart a (List.mem_reverse.1 ha) a (by simp) rfl
    · refine List.pairwise_append.2 ⟨h.filed.ordered, List.pairwise_singleton _ _, ?_⟩
      intro older holder nodes hnodes c hc b hb hcb
      obtain rfl : nodes = a :: newer.reverse := by simpa using hnodes
      exact (h.closed_of_reaches hcb (h.filed.gone older holder c hc)).2 ((hmem b).1 hb).1

/-- The component of `a` is closed. -/
theorem close : Tidy g path (Cycle.close g a s) := by
  have hmem := fun c => h.mem_closed_iff (c := c) ho
  have hnodup := h.nodup
  have hpath : path.Sublist rest := by
    have hsub := h.onPath
    rw [ho] at hsub
    obtain ⟨l₁, l₂, hsplit, ha, hsub⟩ := List.cons_sublist_iff.1 hsub
    refine hsub.trans ?_
    rw [ho] at hnodup
    rcases List.append_eq_append_iff.1 hsplit with ⟨m, hl, hr⟩ | ⟨m, hl, hr⟩
    · cases m with
      | nil =>
        exact ((List.nodup_append.1 hnodup).2.2 a (by simpa [hl] using ha) a (by simp) rfl).elim
      | cons x m =>
        obtain ⟨-, rfl⟩ := List.cons.inj hr
        exact List.sublist_append_right m l₂
    · exact ((List.nodup_append.1 hnodup).2.2 a (by simp [hl, ha]) a (by simp) rfl).elim
  have hrest : ∀ c ∈ rest, c ∈ s.opened := fun c hc => by simp [ho, hc]
  have hgone : ∀ c, c ∉ rest → c ∈ s.opened → c ∈ a :: newer.reverse := by
    intro c hnot hc
    rw [ho] at hc
    simpa [hnot, or_comm] using hc
  have hrestlt : ∀ c ∈ rest, s.number c < s.number a := by
    intro c hc
    have hsorted := h.sorted
    rw [ho] at hsorted
    exact (List.pairwise_cons.1 (List.pairwise_append.1 hsorted).2.1).1 c hc
  have hfiled := h.filed_close ho fun c hc => ⟨hrest c hc, hrestlt c hc⟩
  rw [h.close_eq ho] at hfiled ⊢
  refine ⟨⟨h.numbered.lt, h.numbered.inj⟩, ?_, fun c hc => h.openMet c (hrest c hc), hpath, ?_, ?_, ?_, ?_, ?_, ?_,
    hfiled⟩
  · have hsorted := h.sorted
    rw [ho] at hsorted
    exact (List.pairwise_cons.1 (List.pairwise_append.1 hsorted).2.1).2
  · intro c hc
    obtain ⟨p, hp, hle, hcp⟩ := h.up c (hrest c hc)
    rcases List.mem_cons.1 hp with rfl | hp
    · have := hrestlt c hc
      omega
    · exact ⟨p, hp, hle, hcp⟩
  · exact fun p hp c hc => h.down p (List.mem_cons_of_mem a hp) c (hrest c hc)
  · intro c hc hnot b hb
    have hbehind : Behind s a c := by
      by_cases hopen : c ∈ s.opened
      · exact .inl ((hmem c).1 (hgone c hnot hopen))
      · exact .inr ⟨hc, hopen⟩
    rcases h.behind_step he hbehind hb with ⟨hopen, hle⟩ | ⟨hmet, hclosed⟩
    · refine ⟨h.openMet b hopen, fun hbr => ?_⟩
      have := hrestlt b hbr
      omega
    · exact ⟨hmet, fun hbr => hclosed (hrest b hbr)⟩
  · intro c hc hnot b hb
    refine h.done c (hrest c hc) (fun hcp => ?_) b hb
    rcases List.mem_cons.1 hcp with rfl | hcp
    · exact lt_irrefl _ (hrestlt c hc)
    · exact hnot hcp
  · intro nodes hnodes
    dsimp only at hnodes
    split at hnodes
    · exact h.sound nodes hnodes
    · next hne =>
      rcases List.mem_append.1 hnodes with hnodes | hnodes
      · exact h.sound nodes hnodes
      · obtain rfl : nodes = a :: newer.reverse := by simpa using hnodes
        exact ⟨a, (h.onCycle_iff he ho).2 hne, fun c => (hmem c).trans (h.mem_component he)⟩
  · intro c hc hnot hcycle
    by_cases hopen : c ∈ s.opened
    · have hin := hgone c hnot hopen
      obtain ⟨hac, hca⟩ := (h.mem_component he).1 ((hmem c).1 hin)
      have ha : g.OnCycle a := (TransGen.trans_right hac hcycle).trans_left hca
      dsimp only
      rw [if_neg ((h.onCycle_iff he ho).1 ha)]
      exact ⟨_, by simp, hin⟩
    · obtain ⟨nodes, hnodes, hcn⟩ := h.complete c hc hopen hcycle
      refine ⟨nodes, ?_, hcn⟩
      dsimp only
      split
      · exact hnodes
      · exact List.mem_append_left _ hnodes

end Close

end Tidy

section Visit

/-- One dependency of a node is looked at. -/
def look (g : Graph α) (bound : Nat) (r : Nat × Search α) (b : α) : Nat × Search α :=
  match r.2.met.lookup b with
  | none => (min r.1 (visit g bound b r.2).1, (visit g bound b r.2).2)
  | some n => if b ∈ r.2.opened then (min r.1 n, r.2) else r

theorem visit_succ (g : Graph α) (bound : Nat) (a : α) (s : Search α) :
    visit g (bound + 1) a s =
      let r := (g.dependencies a).foldl (look g bound) (s.met.length, s.meet a)
      (r.1, if r.1 = s.met.length then close g a r.2 else r.2) := rfl

/-- How many places of the graph name a node that was not met. -/
def unmet (g : Graph α) (s : Search α) : Nat :=
  (g.everything.filter fun a => (s.met.lookup a).isNone).length

theorem isNone_lookup_iff : (s.met.lookup a).isNone ↔ ¬ s.Met a := by
  cases h : s.met.lookup a <;> simp [Met, h]

theorem unmet_sublist (h : Grows s t) :
    (g.everything.filter fun c => (t.met.lookup c).isNone).Sublist
      (g.everything.filter fun c => (s.met.lookup c).isNone) := by
  refine List.monotone_filter_right _ fun c hc => ?_
  rw [isNone_lookup_iff] at hc ⊢
  exact fun hm => hc (h.met c hm)

theorem unmet_le (h : Grows s t) : unmet g t ≤ unmet g s := (unmet_sublist h).length_le

theorem unmet_lt (h : Grows s t) (ha : a ∈ g.everything) (hs : ¬ s.Met a) (ht : t.Met a) :
    unmet g t < unmet g s := by
  have hsub := unmet_sublist (g := g) h
  refine lt_of_le_of_ne hsub.length_le fun he => ?_
  have hmem : a ∈ g.everything.filter fun c => (s.met.lookup c).isNone :=
    List.mem_filter.2 ⟨ha, isNone_lookup_iff.2 hs⟩
  rw [← hsub.eq_of_length he] at hmem
  exact isNone_lookup_iff.1 (List.mem_filter.1 hmem).2 ht

/-- What a search from `a` on behind `path` leads to. -/
structure Visited (g : Graph α) (path : List α) (a : α) (s : Search α) (r : Nat × Search α) :
    Prop where
  tidy : Tidy g path r.2
  grows : Grows s r.2
  met : r.2.Met a
  number : r.2.number a = s.number a
  le : r.1 ≤ s.number a
  /-- An older open node that `a` leads to. -/
  older : r.1 < s.number a → ∃ d ∈ r.2.opened, r.2.number d = r.1 ∧ g.Reaches a d
  /-- No open node is older that is next to what was opened on the way. -/
  low : ∀ c ∈ r.2.opened, c ∉ s.opened → ∀ b ∈ g.dependencies c, b ∈ r.2.opened →
    r.1 ≤ r.2.number b

/-- What is known after some dependencies of `a` have been looked at. -/
structure Looked (g : Graph α) (path : List α) (a : α) (s : Search α) (looked : List α)
    (r : Nat × Search α) : Prop where
  tidy : Tidy g (a :: path) r.2
  opened : ∀ p ∈ path, p ∈ s.opened
  grows : Grows (s.meet a) r.2
  older : ∃ d ∈ r.2.opened, r.2.number d = r.1 ∧ g.Reaches a d
  le : r.1 ≤ s.number a
  met : ∀ b ∈ looked, r.2.Met b
  next : ∀ b ∈ looked, b ∈ r.2.opened → r.1 ≤ r.2.number b
  low : ∀ c ∈ r.2.opened, c ∉ (s.meet a).opened → ∀ b ∈ g.dependencies c, b ∈ r.2.opened →
    r.1 ≤ r.2.number b

variable {looked : List α} {r : Nat × Search α} {bound : Nat}

theorem Looked.start (h : Tidy g path s) (ha : ¬ s.Met a)
    (hpath : ∀ p ∈ path.head?, a ∈ g.dependencies p) :
    Looked g path a s [] (s.met.length, s.meet a) where
  tidy := h.meet ha hpath
  opened p hp := h.onPath.subset hp
  grows := .refl _
  older := ⟨a, by simp [Search.meet],
    (number_meet ha (.inl rfl)).trans (number_of_not_met ha), .refl⟩
  le := (number_of_not_met ha).ge
  met := by simp
  next := by simp
  low c hc hnot := (hnot hc).elim

/-- A dependency that was not met before is searched first. -/
theorem Looked.visited (h : Looked g path a s looked r) (hb : b ∈ g.dependencies a)
    (hnot : ¬ r.2.Met b) {v : Nat × Search α} (hv : Visited g (a :: path) b r.2 v) :
    Looked g path a s (looked ++ [b]) (min r.1 v.1, v.2) := by
  -- what is open afterwards and was met before was open before
  have hback : ∀ c, r.2.Met c → c ∈ v.2.opened → c ∈ r.2.opened := hv.grows.closed
  have hnumber : ∀ c, r.2.Met c → v.2.number c = r.2.number c := hv.grows.number
  have hopened : ∀ c ∈ r.2.opened, c ∈ v.2.opened := fun c hc => hv.grows.opened.subset hc
  refine ⟨hv.tidy, h.opened, h.grows.trans hv.grows, ?_, (min_le_left _ _).trans h.le, ?_, ?_, ?_⟩
  · obtain ⟨d, hd, hnum, had⟩ := h.older
    by_cases hle : r.1 ≤ v.1
    · refine ⟨d, hopened d hd, ?_, had⟩
      rw [hnumber d (h.tidy.openMet d hd), hnum, min_eq_left hle]
    · have hlt : v.1 < r.2.number b := by
        have hdlt := h.tidy.numbered.lt d (h.tidy.openMet d hd)
        rw [number_of_not_met hnot]
        omega
      obtain ⟨d', hd', hnum', hbd⟩ := hv.older hlt
      refine ⟨d', hd', ?_, .head hb hbd⟩
      rw [hnum']
      exact (min_eq_right (by omega)).symm
  · intro c hc
    rcases List.mem_append.1 hc with hc | hc
    · exact hv.grows.met c (h.met c hc)
    · obtain rfl : c = b := by simpa using hc
      exact hv.met
  · intro c hc hopen
    rcases List.mem_append.1 hc with hc | hc
    · have hmet := h.met c hc
      rw [hnumber c hmet]
      exact (min_le_left _ _).trans (h.next c hc (hback c hmet hopen))
    · obtain rfl : c = b := by simpa using hc
      rw [hv.number]
      exact (min_le_right _ _).trans hv.le
  · intro c hc hnew d hd hopen
    by_cases hold : c ∈ r.2.opened
    · have hmet : r.2.Met d := by
        refine h.tidy.done c hold (fun hcp => hnew ?_) d hd
        rcases List.mem_cons.1 hcp with rfl | hcp
        · simp [Search.meet]
        · exact List.mem_cons_of_mem a (h.opened c hcp)
      rw [hnumber d hmet]
      exact (min_le_left _ _).trans (h.low c hold hnew d hd (hback d hmet hopen))
    · exact (min_le_right _ _).trans (hv.low c hc hold d hd hopen)

/-- A dependency that was met before is only compared. -/
theorem Looked.compared (h : Looked g path a s looked r) (hb : b ∈ g.dependencies a)
    (hmet : r.2.Met b) :
    Looked g path a s (looked ++ [b])
      (if b ∈ r.2.opened then (min r.1 (r.2.number b), r.2) else r) := by
  have hall : ∀ c ∈ looked ++ [b], r.2.Met c := by
    intro c hc
    rcases List.mem_append.1 hc with hc | hc
    · exact h.met c hc
    · obtain rfl : c = b := by simpa using hc
      exact hmet
  split
  · next hopen =>
    refine ⟨h.tidy, h.opened, h.grows, ?_, (min_le_left _ _).trans h.le, hall, ?_, ?_⟩
    · by_cases hle : r.1 ≤ r.2.number b
      · obtain ⟨d, hd, hnum, had⟩ := h.older
        exact ⟨d, hd, hnum.trans (min_eq_left hle).symm, had⟩
      · exact ⟨b, hopen, (min_eq_right (not_le.1 hle).le).symm, .single hb⟩
    · intro c hc hcopen
      rcases List.mem_append.1 hc with hc | hc
      · exact (min_le_left _ _).trans (h.next c hc hcopen)
      · obtain rfl : c = b := by simpa using hc
        exact min_le_right _ _
    · exact fun c hc hnew d hd hdopen => (min_le_left _ _).trans (h.low c hc hnew d hd hdopen)
  · next hclosed =>
    refine ⟨h.tidy, h.opened, h.grows, h.older, h.le, hall, ?_, h.low⟩
    intro c hc hcopen
    rcases List.mem_append.1 hc with hc | hc
    · exact h.next c hc hcopen
    · obtain rfl : c = b := by simpa using hc
      exact (hclosed hcopen).elim

/-- All dependencies of `a` have been looked at. -/
theorem Looked.visit (hs : Tidy g path s) (ha : ¬ s.Met a)
    (h : Looked g path a s (g.dependencies a) r) :
    Visited g path a s (r.1, if r.1 = s.met.length then Cycle.close g a r.2 else r.2) := by
  have hself : (s.meet a).Met a := met_meet.2 (.inl rfl)
  have hstart : s.number a = s.met.length := number_of_not_met ha
  have hnumber : r.2.number a = s.number a :=
    (h.grows.number a hself).trans (number_meet ha (.inl rfl))
  have hgrows : Grows s r.2 := (grows_meet ha).trans h.grows
  have hmet : r.2.Met a := h.grows.met a hself
  split
  · next hlow =>
    obtain ⟨newer, ho⟩ := h.grows.opened
    replace ho : r.2.opened = newer ++ a :: s.opened := ho.symm
    have hends : Tidy.Ends g a r.2 := by
      refine ⟨h.met, fun c hc hle b hb hopen => ?_⟩
      rw [hnumber, hstart, ← hlow]
      by_cases hca : c = a
      · exact h.next b (hca ▸ hb) hopen
      · refine h.low c hc (fun hold => ?_) b hb hopen
        have hcs : c ∈ s.opened := (List.mem_cons.1 hold).resolve_left hca
        have hlt := hs.numbered.lt c (hs.openMet c hcs)
        have hsame := hgrows.number c (hs.openMet c hcs)
        rw [hnumber, hstart, hsame] at hle
        omega
    have heq := h.tidy.close_eq ho
    have hclose := h.tidy.close hends ho
    rw [heq] at hclose ⊢
    refine ⟨hclose, ⟨hgrows.met, hgrows.number, List.suffix_rfl, fun c _ hc => hc⟩, hmet, hnumber,
      h.le, fun hlt => ?_, fun c hc hnew => (hnew hc).elim⟩
    dsimp only at hlt
    omega
  · next hlow =>
    have hlt : r.1 < s.number a := lt_of_le_of_ne h.le (hstart ▸ hlow)
    obtain ⟨d, hd, hnum, had⟩ := h.older
    have hleave := h.tidy.leave h.met ⟨d, hd, by rw [hnum, hnumber]; exact hlt, had⟩
    refine ⟨hleave, hgrows, hmet, hnumber, h.le, fun _ => ⟨d, hd, hnum, had⟩, ?_⟩
    intro c hc hnew b hb hopen
    by_cases hca : c = a
    · exact h.next b (hca ▸ hb) hopen
    · exact h.low c hc (by simp [Search.meet, hca, hnew]) b hb hopen

/-- A search that may go deep enough visits all that it leads to. -/
theorem visit_visited (bound : Nat) (h : Tidy g path s) (ha : ¬ s.Met a) (hg : a ∈ g.everything)
    (hpath : ∀ p ∈ path.head?, a ∈ g.dependencies p) (hbound : unmet g s ≤ bound) :
    Visited g path a s (visit g bound a s) := by
  induction bound generalizing path s a with
  | zero =>
    have hlt := unmet_lt (grows_meet ha) hg ha (met_meet.2 (.inl rfl))
    omega
  | succ bound ih =>
    have hless : unmet g (s.meet a) < unmet g s :=
      unmet_lt (grows_meet ha) hg ha (met_meet.2 (.inl rfl))
    have hfold : ∀ (bs looked : List α) (r : Nat × Search α), looked ++ bs = g.dependencies a →
        Looked g path a s looked r →
        Looked g path a s (g.dependencies a) (bs.foldl (look g bound) r) := by
      intro bs
      induction bs with
      | nil =>
        intro looked r hsplit hr
        rw [List.append_nil] at hsplit
        exact hsplit ▸ hr
      | cons b bs ihbs =>
        intro looked r hsplit hr
        have hb : b ∈ g.dependencies a := by simp [← hsplit]
        refine ihbs (looked ++ [b]) _ (by simpa using hsplit) ?_
        unfold look
        split
        · next hnone =>
          have hnot : ¬ r.2.Met b := isNone_lookup_iff.1 (by simp [hnone])
          have hunmet := unmet_le (g := g) hr.grows
          refine hr.visited hb hnot (ih hr.tidy hnot ?_ ?_ (by omega))
          · exact Graph.mem_everything_of_mem_dependencies hb
          · simpa using hb
        · next n hsome =>
          have hnumber : r.2.number b = n := by simp [number, hsome]
          have := hr.compared hb (by simp [Met, hsome])
          rwa [hnumber] at this
    rw [visit_succ]
    exact Looked.visit h ha (hfold _ [] _ rfl (Looked.start h ha hpath))

end Visit

end Cycle

namespace Graph

open Dependency.Cycle

/-- The search from every node on. -/
theorem cycles_tidy (g : Graph α) : ∃ s : Search α, s.cycles = g.cycles ∧ Tidy g [] s ∧
    ∀ a ∈ g.nodes, s.Met a := by
  have hfold : ∀ (as : List α), (∀ a ∈ as, a ∈ g.nodes) → ∀ s, Tidy g [] s →
      Tidy g [] (as.foldl (fun s a => if (s.met.lookup a).isSome then s
        else (Cycle.visit g (g.size + 1) a s).2) s) ∧
      ∀ a, s.Met a ∨ a ∈ as → Search.Met (as.foldl (fun s a =>
        if (s.met.lookup a).isSome then s else (Cycle.visit g (g.size + 1) a s).2) s) a := by
    intro as
    induction as with
    | nil => exact fun _ s hs => ⟨hs, fun a ha => by simpa using ha⟩
    | cons a as ih =>
      intro has s hs
      have hnext : ∃ t, t = (if (s.met.lookup a).isSome then s
          else (Cycle.visit g (g.size + 1) a s).2) ∧ Tidy g [] t ∧ (∀ c, s.Met c → t.Met c) ∧
          t.Met a := by
        by_cases hmet : (s.met.lookup a).isSome
        · exact ⟨s, by rw [if_pos hmet], hs, fun c hc => hc, hmet⟩
        · have hbound : unmet g s ≤ g.size + 1 := by
            have := List.length_filter_le (fun c => (s.met.lookup c).isNone) g.everything
            rw [length_everything] at this
            unfold unmet
            omega
          have hv := visit_visited (g.size + 1) hs hmet
            (mem_everything_of_mem_nodes (has a (by simp))) (by simp) hbound
          exact ⟨_, by rw [if_neg hmet], hv.tidy, hv.grows.met, hv.met⟩
      obtain ⟨t, ht, htidy, hgrows, hmet⟩ := hnext
      rw [List.foldl_cons, ← ht]
      obtain ⟨hend, hall⟩ := ih (fun c hc => has c (by simp [hc])) t htidy
      refine ⟨hend, fun c hc => hall c ?_⟩
      rcases hc with hc | hc
      · exact .inl (hgrows c hc)
      · rcases List.mem_cons.1 hc with rfl | hc
        · exact .inl hmet
        · exact .inr hc
  obtain ⟨htidy, hall⟩ := hfold g.nodes (fun _ h => h) ⟨[], [], []⟩ (Tidy.empty g)
  exact ⟨_, rfl, htidy, fun a ha => hall a (.inr ha)⟩

/-- Every cycle that is found is a strongly connected component with a way from a node to itself. -/
theorem isComponent_of_mem_cycles {nodes : List α} (h : nodes ∈ g.cycles) :
    IsComponent g nodes := by
  obtain ⟨s, hs, htidy, -⟩ := g.cycles_tidy
  exact htidy.sound nodes (hs ▸ h)

/-- Every node with a way to itself is in a cycle that is found. -/
theorem exists_mem_cycles (h : g.OnCycle a) : ∃ nodes ∈ g.cycles, a ∈ nodes := by
  obtain ⟨s, hs, htidy, hall⟩ := g.cycles_tidy
  obtain ⟨b, hab, -⟩ := TransGen.head'_iff.1 h
  have hmet : s.Met a := hall a (mem_nodes_of_mem_dependencies hab)
  obtain ⟨nodes, hnodes, ha⟩ := htidy.complete a hmet (by simp [htidy.opened_eq_nil]) h
  exact ⟨nodes, hs ▸ hnodes, ha⟩

theorem cycles_eq_nil_iff : g.cycles = [] ↔ ∀ a, ¬ g.OnCycle a := by
  constructor
  · intro h a ha
    obtain ⟨nodes, hnodes, -⟩ := exists_mem_cycles ha
    simp [h] at hnodes
  · intro h
    refine List.eq_nil_iff_forall_not_mem.2 fun nodes hnodes => ?_
    obtain ⟨a, ha, -⟩ := isComponent_of_mem_cycles hnodes
    exact h a ha

end Graph

end Stencil.Dependency
