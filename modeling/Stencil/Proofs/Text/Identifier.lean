import Mathlib.Data.List.TakeWhile
import Stencil.Code.Token

/-! Identifiers are made of characters that mean nothing between tokens. -/
namespace Stencil.Text
open Code

variable {c : Char}

/-- The code points of blanks, of line breaks and of what else is passed over. -/
def gaps : List (Nat × Nat) := [
  (9, 13), (28, 32), (0x85, 0x85), (0xa0, 0xa0), (0x1680, 0x1680), (0x2000, 0x200b), (0x2028, 0x2029),
  (0x202f, 0x202f), (0x205f, 0x2060), (0x3000, 0x3000), (0xfeff, 0xfeff)]

theorem mem_gaps {n : Nat} : inRanges gaps n ↔ ∃ g ∈ gaps, g.1 ≤ n ∧ n ≤ g.2 := by
  simp [inRanges]

theorem gap_of_isBlank (h : isBlank c) : inRanges gaps c.toNat := by
  simp only [isBlank, Bool.or_eq_true, Bool.and_eq_true, decide_eq_true_eq, beq_iff_eq] at h
  simp only [inRanges, gaps, List.any_cons, List.any_nil, Bool.or_eq_true, Bool.and_eq_true, decide_eq_true_eq]
  omega

theorem gap_of_isLineBreak (h : isLineBreak c) : inRanges gaps c.toNat := by
  simp only [isLineBreak, Bool.or_eq_true, Bool.and_eq_true, decide_eq_true_eq, beq_iff_eq] at h
  simp only [inRanges, gaps, List.any_cons, List.any_nil, Bool.or_eq_true, Bool.and_eq_true, decide_eq_true_eq]
  omega

theorem gap_of_isFiller (h : Token.isFiller c) : inRanges gaps c.toNat := by
  simp only [Token.isFiller, Bool.or_eq_true, beq_iff_eq] at h
  obtain ((h | rfl) | rfl) | rfl := h
  · exact gap_of_isBlank h
  all_goals decide

/-- What is left of ordered ranges without those inside one of the others. -/
theorem mem_foldl_dropWhile {r : Nat × Nat} (qs rs : List (Nat × Nat)) (hr : r ∈ rs) :
    r ∈ qs.foldl (fun rs q => rs.dropWhile fun r => q.1 ≤ r.1 && r.2 ≤ q.2) rs ∨
      ∃ q ∈ qs, q.1 ≤ r.1 ∧ r.2 ≤ q.2 := by
  induction qs generalizing rs with
  | nil => exact .inl hr
  | cons q qs ih =>
    rw [← List.takeWhile_append_dropWhile (p := fun r => q.1 ≤ r.1 && r.2 ≤ q.2) (l := rs)] at hr
    obtain hr | hr := List.mem_append.1 hr
    · have := List.mem_takeWhile_imp hr
      simp only [Bool.and_eq_true, decide_eq_true_eq] at this
      exact .inr ⟨q, by simp, this⟩
    · obtain h | ⟨q', hq', h⟩ := ih _ hr
      · exact .inl h
      · exact .inr ⟨q', by simp [hq'], h⟩

theorem start_ranges : identifierContinueRanges.foldl
    (fun rs q => rs.dropWhile fun r => q.1 ≤ r.1 && r.2 ≤ q.2) identifierStartRanges = [] := by
  decide +kernel

/-- What an identifier may start with may also stand later. -/
theorem continue_of_start (h : isIdentifierStart c) : isIdentifierContinue c := by
  by_cases hc : c.toNat < 128
  · simp only [isIdentifierStart, hc, if_true, Bool.or_eq_true] at h
    simp only [isIdentifierContinue, hc, if_true, Bool.or_eq_true, Char.isAlphanum]
    exact h.imp_left .inl
  · simp only [isIdentifierStart, hc, if_false, inRanges, List.any_eq_true, Bool.and_eq_true,
      decide_eq_true_eq] at h
    simp only [isIdentifierContinue, hc, if_false, inRanges, List.any_eq_true, Bool.and_eq_true,
      decide_eq_true_eq]
    obtain ⟨r, hr, hlo, hhi⟩ := h
    obtain h | ⟨q, hq, hle, hle'⟩ := mem_foldl_dropWhile identifierContinueRanges _ hr
    · rw [start_ranges] at h
      cases h
    · exact ⟨q, hq, Nat.le_trans hle hlo, Nat.le_trans hhi hle'⟩

theorem gaps_apart : gaps.all fun g => identifierContinueRanges.all fun r => g.2 < r.1 || r.2 < g.1 := by
  decide +kernel

/-- No identifier holds a character that may stand between tokens or lines. -/
theorem not_continue_of_gap (h : inRanges gaps c.toNat) : isIdentifierContinue c = false := by
  obtain ⟨g, hg, hlo, hhi⟩ := mem_gaps.1 h
  by_cases hc : c.toNat < 128
  · have hlow : ∀ n < 33, (Char.ofNat n).isAlphanum = false ∧ n ≠ 95 := by decide
    have : c.toNat < 33 := by
      have hends : ∀ g ∈ gaps, g.2 < 33 ∨ 128 ≤ g.1 := by decide
      have := hends g hg
      omega
    obtain ⟨halnum, hunder⟩ := hlow _ this
    rw [Char.ofNat_toNat] at halnum
    have hne : c ≠ '_' := by rintro rfl; exact hunder rfl
    simp [isIdentifierContinue, hc, halnum, hne]
  · simp only [isIdentifierContinue, hc, if_false, inRanges, List.any_eq_false, Bool.and_eq_true,
      decide_eq_true_eq]
    intro r hr
    have := List.all_eq_true.1 (List.all_eq_true.1 gaps_apart g hg) r hr
    simp only [Bool.or_eq_true, decide_eq_true_eq] at this
    omega

theorem isFiller_of_continue (h : isIdentifierContinue c) : Token.isFiller c = false := by
  by_contra hf
  simp [not_continue_of_gap (gap_of_isFiller (by simpa using hf))] at h

theorem isLineBreak_of_continue (h : isIdentifierContinue c) : isLineBreak c = false := by
  by_contra hf
  simp [not_continue_of_gap (gap_of_isLineBreak (by simpa using hf))] at h

theorem isQuote_of_continue (h : isIdentifierContinue c) : Token.isQuote c = false := by
  simp only [Token.isQuote, Bool.or_eq_false_iff, beq_eq_false_iff_ne]
  constructor <;> rintro rfl <;> revert h <;> decide

theorem continue_of_isPrefixLetter (h : Token.isPrefixLetter c) : isIdentifierContinue c := by
  simp only [Token.isPrefixLetter, List.contains_eq_mem, List.mem_cons, List.not_mem_nil, or_false,
    decide_eq_true_eq] at h
  obtain rfl | rfl | rfl | rfl | rfl | rfl | rfl | rfl := h <;> decide

theorem isAlpha_iff : c.isAlpha ↔ 65 ≤ c.toNat ∧ c.toNat ≤ 90 ∨ 97 ≤ c.toNat ∧ c.toNat ≤ 122 := by
  have h : c.isAlpha = (decide (65 ≤ c.val ∧ c.val ≤ 90) ||
    decide (97 ≤ c.val) && decide (c.val ≤ 122)) := rfl
  simp [h, UInt32.le_iff_toNat_le]

/-- Digits begin no identifier. -/
theorem isDigit_of_isIdentifierStart (h : isIdentifierStart c) : c.isDigit = false := by
  by_cases hc : c.toNat < 128
  · simp only [isIdentifierStart, hc, if_true, Bool.or_eq_true, beq_iff_eq] at h
    obtain h | rfl := h
    · rw [isAlpha_iff] at h
      simp only [Char.isDigit, Bool.and_eq_false_iff, decide_eq_false_iff_not]
      simp only [UInt32.le_iff_toNat_le]
      simp
      omega
    · decide
  · simp only [Char.isDigit, Bool.and_eq_false_iff, decide_eq_false_iff_not]
    right
    simp only [UInt32.le_iff_toNat_le]
    simp
    omega

theorem continue_of_isDigit (h : c.isDigit) : isIdentifierContinue c := by
  have hc : c.toNat < 128 := by
    simp only [Char.isDigit, Bool.and_eq_true, decide_eq_true_eq] at h
    have := UInt32.le_iff_toNat_le.1 h.2
    simp at this
    omega
  simp [isIdentifierContinue, hc, Char.isAlphanum, h]

theorem continue_of_mem_identifier {cs : List Char} (h : isIdentifier cs) :
    ∀ c ∈ cs, isIdentifierContinue c := by
  cases cs with
  | nil => simp
  | cons c cs =>
    simp only [isIdentifier, Bool.and_eq_true, List.all_eq_true] at h
    intro d hd
    obtain rfl | hd := List.mem_cons.1 hd
    · exact continue_of_start h.1
    · exact h.2 d hd

end Stencil.Text
