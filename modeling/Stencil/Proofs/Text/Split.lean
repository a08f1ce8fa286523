import Stencil.Text.Blank

/-! Cutting texts at a character, and putting the pieces together again. -/
namespace Stencil.Text

theorem splitAt_of_forall {q : Char → Bool} {cs : List Char} (h : ∀ c ∈ cs, q c = false) :
    splitAt q cs = [cs] := by
  induction cs with
  | nil => rfl
  | cons c cs ih =>
    rw [List.forall_mem_cons] at h
    simp [splitAt, h.1, ih h.2]

theorem splitAt_ne_nil (q : Char → Bool) (cs : List Char) : splitAt q cs ≠ [] := by
  cases cs with
  | nil => simp [splitAt]
  | cons c cs =>
    rw [splitAt]
    split
    · simp
    · split <;> simp

/-- What no cut is made at is in one of the pieces. -/
theorem mem_splitAt {q : Char → Bool} {cs : List Char} {c : Char} (hc : c ∈ cs) :
    q c ∨ ∃ piece ∈ splitAt q cs, c ∈ piece := by
  induction cs with
  | nil => cases hc
  | cons d cs ih =>
    rw [splitAt]
    obtain rfl | hc := List.mem_cons.1 hc
    · split
      · next hcut => exact .inl hcut
      · split <;> exact .inr ⟨_, List.mem_cons_self, List.mem_cons_self⟩
    · refine (ih hc).imp_right fun ⟨piece, hpiece, hmem⟩ => ?_
      split
      · exact ⟨piece, List.mem_cons_of_mem _ hpiece, hmem⟩
      · obtain ⟨w, ws, hw⟩ := List.exists_cons_of_ne_nil (splitAt_ne_nil q cs)
        rw [hw] at hpiece ⊢
        obtain rfl | hpiece := List.mem_cons.1 hpiece
        · exact ⟨_, List.mem_cons_self, List.mem_cons_of_mem _ hmem⟩
        · exact ⟨piece, List.mem_cons_of_mem _ hpiece, hmem⟩

theorem splitAt_append_cons {q : Char → Bool} {c : Char} (hc : q c) (cs ds : List Char) :
    splitAt q (cs ++ c :: ds) = splitAt q cs ++ splitAt q ds := by
  induction cs with
  | nil => simp [splitAt, hc]
  | cons b cs ih =>
    rw [List.cons_append, splitAt, splitAt, ih]
    split
    · rfl
    · obtain ⟨w, ws, hw⟩ := List.exists_cons_of_ne_nil (splitAt_ne_nil q cs)
      rw [hw]
      rfl

/-- What the pieces were put together with is where they are cut. -/
theorem splitAt_intercalate {q : Char → Bool} {c : Char} (hc : q c) {pieces : List (List Char)}
    (hne : pieces ≠ []) (h : ∀ p ∈ pieces, ∀ d ∈ p, q d = false) :
    splitAt q ([c].intercalate pieces) = pieces := by
  induction pieces with
  | nil => exact absurd rfl hne
  | cons p pieces ih =>
    obtain ⟨hp, hpieces⟩ := List.forall_mem_cons.1 h
    cases pieces with
    | nil => simpa using splitAt_of_forall hp
    | cons p' pieces =>
      rw [List.intercalate_cons_cons, List.append_assoc, List.singleton_append, splitAt_append_cons hc,
        splitAt_of_forall hp, ih (by simp) hpieces, List.singleton_append]

end Stencil.Text
