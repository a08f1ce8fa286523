import Mathlib.Data.List.Forall2
import Mathlib.Data.List.Induction
import Mathlib.Tactic.Common

/-!
Lists in which each element is kept once, in the order of the first occurrences, computations that can fail, done for
each element of a list, and lists sorted by a comparison. A comparison may take different elements for alike; then there
are several ways to sort.
-/
namespace Stencil

/-! ### Each element once -/

section Distinct

variable {α : Type} [DecidableEq α] {l m : List α}

theorem eraseDups_concat (l : List α) (a : α) :
    (l ++ [a]).eraseDups = if a ∈ l then l.eraseDups else l.eraseDups ++ [a] := by
  rw [List.eraseDups_append]
  by_cases h : a ∈ l <;> simp [List.removeAll, h, List.eraseDups_cons]

theorem nodup_eraseDups (l : List α) : l.eraseDups.Nodup := by
  induction l using List.reverseRecOn with
  | nil => simp
  | append_singleton l a ih =>
    rw [eraseDups_concat]
    split
    · exact ih
    · next h =>
      refine List.nodup_append.2 ⟨ih, by simp, fun b hb c hc hbc => h ?_⟩
      rw [List.mem_singleton] at hc
      rwa [List.mem_eraseDups, hbc, hc] at hb

theorem eraseDups_of_nodup (h : l.Nodup) : l.eraseDups = l := by
  induction l using List.reverseRecOn with
  | nil => rfl
  | append_singleton l a ih =>
    obtain ⟨hl, -, ha⟩ := List.nodup_append.1 h
    rw [eraseDups_concat, if_neg fun hmem => ha a hmem a (List.mem_singleton_self a) rfl, ih hl]

@[simp] theorem eraseDups_eraseDups (l : List α) : l.eraseDups.eraseDups = l.eraseDups := by
  induction l using List.reverseRecOn with
  | nil => rfl
  | append_singleton l a ih =>
    rw [eraseDups_concat]
    split
    · exact ih
    · next h => rw [eraseDups_concat, ih, if_neg (by simpa using h)]

theorem eraseDups_eraseDups_append (l m : List α) :
    (l.eraseDups ++ m).eraseDups = (l ++ m).eraseDups := by
  induction m using List.reverseRecOn with
  | nil => simp
  | append_singleton m a ih =>
    simp only [← List.append_assoc, eraseDups_concat, ih, List.mem_append, List.mem_eraseDups]

theorem eraseDups_append_eraseDups (l m : List α) :
    (l ++ m.eraseDups).eraseDups = (l ++ m).eraseDups := by
  induction m using List.reverseRecOn with
  | nil => simp
  | append_singleton m a ih =>
    rw [← List.append_assoc, eraseDups_concat, eraseDups_concat]
    by_cases h : a ∈ m
    · simp [h, ih]
    · rw [if_neg h, ← List.append_assoc, eraseDups_concat, ih]
      simp [h]

theorem filter_eraseDups (p : α → Bool) (l : List α) : l.eraseDups.filter p = (l.filter p).eraseDups := by
  induction l using List.reverseRecOn with
  | nil => rfl
  | append_singleton l a ih =>
    rw [eraseDups_concat, List.filter_append]
    by_cases hp : p a
    · rw [List.filter_cons_of_pos hp, List.filter_nil, eraseDups_concat, ← ih]
      by_cases ha : a ∈ l
      · rw [if_pos ha, if_pos (List.mem_filter.2 ⟨ha, hp⟩)]
      · rw [if_neg ha, if_neg fun h => ha (List.mem_filter.1 h).1, List.filter_append,
          List.filter_cons_of_pos hp, List.filter_nil]
    · rw [List.filter_cons_of_neg hp, List.filter_nil, List.append_nil, ← ih]
      split
      · rfl
      · rw [List.filter_append, List.filter_cons_of_neg hp, List.filter_nil, List.append_nil]

/-- Where no two elements have the same value, only one has the value of an element. -/
theorem filter_eq_singleton {β : Type} {f : β → α} {l : List β} {b : β} (h : (l.map f).Nodup) (hb : b ∈ l) :
    l.filter (f · = f b) = [b] := by
  induction l with
  | nil => cases hb
  | cons c l ih =>
    rw [List.map_cons, List.nodup_cons] at h
    obtain rfl | hmem := List.mem_cons.1 hb
    · have hrest : l.filter (f · = f b) = [] := List.filter_eq_nil_iff.2 fun c hc hcb =>
        h.1 (List.mem_map.2 ⟨c, hc, of_decide_eq_true hcb⟩)
      rw [List.filter_cons_of_pos (by simp), hrest]
    · have hne : f c ≠ f b := fun hcb => h.1 (List.mem_map.2 ⟨b, hmem, hcb.symm⟩)
      rw [List.filter_cons_of_neg (by simpa using hne), ih h.2 hmem]

/-! ### Further elements -/

/-- The list, followed by each element of another list that is not in it. Elements that the list has more than
once stay. -/
def further (l m : List α) : List α := l ++ (m.filter (· ∉ l)).eraseDups

theorem mem_further {a : α} : a ∈ further l m ↔ a ∈ l ∨ a ∈ m := by
  simp only [further, List.mem_append, List.mem_eraseDups, List.mem_filter, decide_eq_true_eq]
  tauto

@[simp] theorem further_nil (l : List α) : further l [] = l := by simp [further]

theorem further_append (l m n : List α) : further l (m ++ n) = further (further l m) n := by
  have hrest : (n.filter (· ∉ l)).removeAll (m.filter (· ∉ l)) = n.filter (· ∉ further l m) := by
    rw [List.removeAll, List.filter_filter]
    refine List.filter_congr fun a _ => ?_
    by_cases hl : a ∈ l <;> simp [mem_further, hl]
  calc further l (m ++ n) = l ++ (m.filter (· ∉ l) ++ n.filter (· ∉ l)).eraseDups := by rw [further, List.filter_append]
    _ = further l m ++ ((n.filter (· ∉ l)).removeAll (m.filter (· ∉ l))).eraseDups := by
      rw [List.eraseDups_append, ← List.append_assoc, further]
    _ = further (further l m) n := by rw [hrest]; rfl

theorem further_further (l m n : List α) : further l (further m n) = further (further l m) n := by
  rw [← further_append, further, further, further]
  congr 1
  rw [List.filter_append, List.filter_append, filter_eraseDups, eraseDups_append_eraseDups]
  rw [List.eraseDups_append, List.eraseDups_append]
  congr 2
  simp only [List.removeAll, List.filter_filter]
  refine List.filter_congr fun a _ => ?_
  by_cases hl : a ∈ l <;> by_cases hm : a ∈ m <;> simp [hl, hm]

end Distinct

/-! ### Something done for each element -/

section Each

variable {α β ε : Type} {f : α → Except ε β} {as : List α} {bs : List β} {b : β}

/-- The results for a list, or the first failure. -/
theorem mapM_spec (f : α → Except ε β) (as : List α) :
    match as.mapM f with
    | .ok bs => List.Forall₂ (fun a b => f a = .ok b) as bs
    | .error e => ∃ a ∈ as, f a = .error e := by
  induction as with
  | nil => exact .nil
  | cons a as ih =>
    rw [List.mapM_cons]
    cases ha : f a with
    | error e => exact ⟨a, by simp, ha⟩
    | ok b =>
      cases has : as.mapM f with
      | error e =>
        rw [has] at ih
        obtain ⟨a', ha', he⟩ := ih
        exact ⟨a', List.mem_cons_of_mem a ha', he⟩
      | ok bs =>
        rw [has] at ih
        exact .cons ha ih

/-- There are results if there is one for each. -/
theorem exists_mapM (h : ∀ a ∈ as, ∃ b, f a = .ok b) :
    ∃ bs, as.mapM f = .ok bs ∧ List.Forall₂ (fun a b => f a = .ok b) as bs := by
  have hspec := mapM_spec f as
  cases hbs : as.mapM f with
  | ok bs =>
    rw [hbs] at hspec
    exact ⟨bs, rfl, hspec⟩
  | error e =>
    rw [hbs] at hspec
    obtain ⟨a, ha, he⟩ := hspec
    obtain ⟨b, hb⟩ := h a ha
    rw [he] at hb
    cases hb

theorem mapM_eq_map {g : α → β} (h : ∀ a ∈ as, f a = .ok (g a)) : as.mapM f = .ok (as.map g) := by
  induction as with
  | nil => rfl
  | cons a as ih =>
    obtain ⟨ha, has⟩ := List.forall_mem_cons.1 h
    rw [List.mapM_cons, ha, ih has]
    rfl

theorem exists_of_each {R : α → β → Prop} (h : List.Forall₂ R as bs) (hb : b ∈ bs) : ∃ a ∈ as, R a b := by
  induction h with
  | nil => cases hb
  | cons hab _ ih =>
    obtain rfl | hb := List.mem_cons.1 hb
    · exact ⟨_, List.mem_cons_self, hab⟩
    · obtain ⟨a, ha, h⟩ := ih hb
      exact ⟨a, List.mem_cons_of_mem _ ha, h⟩

theorem mem_iff_of_each (h : List.Forall₂ (fun a b => f a = .ok b) as bs) : b ∈ bs ↔ ∃ a ∈ as, f a = .ok b := by
  induction h with
  | nil => simp
  | @cons a b' as bs hab _ ih =>
    have hb : b = b' ↔ f a = .ok b := by rw [hab, Except.ok.injEq, eq_comm]
    simp [ih, hb]

/-- A list worked off in steps that keep a property ends at an element if it does not succeed. -/
theorem exists_of_foldlM_error {σ : Type} {f : σ → β → Except ε σ} {p : σ → Prop} {l : List β} {s : σ} {e : ε}
    (hstep : ∀ s b s', p s → f s b = .ok s' → p s') (hs : p s)
    (h : l.foldlM f s = .error e) : ∃ b ∈ l, ∃ s', p s' ∧ f s' b = .error e := by
  induction l generalizing s with
  | nil => cases h
  | cons b l ih =>
    rw [List.foldlM_cons] at h
    cases hb : f s b with
    | error e' =>
      rw [hb] at h
      cases h
      exact ⟨b, List.mem_cons_self, s, hs, hb⟩
    | ok s₁ =>
      rw [hb] at h
      obtain ⟨c, hc, hfail⟩ := ih (hstep s b s₁ hs hb) h
      exact ⟨c, List.mem_cons_of_mem b hc, hfail⟩

theorem of_mem_filterAuxM {f : α → Except ε Bool} {done kept : List α} (h : as.filterAuxM f done = .ok kept)
    {a : α} (ha : a ∈ kept) : a ∈ done ∨ a ∈ as ∧ f a = .ok true := by
  induction as generalizing done with
  | nil =>
    cases h
    exact .inl ha
  | cons b as ih =>
    rw [List.filterAuxM] at h
    cases hb : f b with
    | error e =>
      rw [hb] at h
      cases h
    | ok keep =>
      rw [hb] at h
      obtain hdone | ⟨hmem, hf⟩ := ih h
      · cases keep with
        | false => exact .inl hdone
        | true =>
          obtain rfl | hdone := List.mem_cons.1 hdone
          · exact .inr ⟨List.mem_cons_self, hb⟩
          · exact .inl hdone
      · exact .inr ⟨List.mem_cons_of_mem b hmem, hf⟩

/-- What is kept was looked at and found to count. -/
theorem of_mem_filterM {f : α → Except ε Bool} {kept : List α} (h : as.filterM f = .ok kept) {a : α}
    (ha : a ∈ kept) : a ∈ as ∧ f a = .ok true := by
  rw [List.filterM] at h
  cases haux : as.filterAuxM f [] with
  | error e =>
    rw [haux] at h
    cases h
  | ok found =>
    rw [haux] at h
    cases h
    exact (of_mem_filterAuxM haux (List.mem_reverse.1 ha)).resolve_left List.not_mem_nil

end Each

/-! ### Sorting -/

section Sorted
open Std

variable {α : Type} {cmp : α → α → Ordering} {l m : List α}

/-- Nothing stands behind what it should stand before. -/
def SortedBy (cmp : α → α → Ordering) (l : List α) : Prop := l.Pairwise fun a b => (cmp a b).isLE

theorem sortedBy_mergeSort [TransCmp cmp] (l : List α) : SortedBy cmp (l.mergeSort fun a b => (cmp a b).isLE) := by
  refine List.pairwise_mergeSort (fun a b c => TransCmp.isLE_trans) (fun a b => ?_) l
  have hswap : cmp b a = (cmp a b).swap := OrientedCmp.eq_swap
  rw [hswap, Ordering.isLE_swap]
  cases cmp a b <;> rfl

/-- There is one way to sort elements of which no two are alike. -/
theorem eq_of_sortedBy [OrientedCmp cmp] (hperm : l.Perm m) (hl : SortedBy cmp l) (hm : SortedBy cmp m)
    (halike : ∀ a ∈ l, ∀ b ∈ l, cmp a b = .eq → a = b) : l = m := by
  refine hperm.eq_of_pairwise (fun a b ha hb hab hba => ?_) hl hm
  exact halike a ha b (hperm.mem_iff.2 hb) (OrientedCmp.isLE_antisymm hab hba)

end Sorted

end Stencil
