import Mathlib.Algebra.Order.Group.Nat
import Mathlib.Data.List.TakeWhile
import Stencil.Decimal.Shortest

/-! Positive numbers are written with digits that are not all zero. -/
namespace Stencil.Decimal

variable {b : Binary} {p : Int} {s : Scaled} {n : Nat}

theorem powerOfTwo_pos (e : Nat) : 0 < powerOfTwo e := Nat.pow_pos (by decide)

theorem powerOfTen_pos (e : Nat) : 0 < powerOfTen e := Nat.pow_pos (by decide)

/-- A positive number is not rounded to zero. -/
theorem Binary.covers_zero (hb : 0 < b.mantissa) (p : Int) : b.covers 0 p = false := by
  have hlow : 0 < 4 * b.mantissa - (if b.lowEdge then 1 else 2) := by split <;> omega
  have hgt : compareScaled (4 * b.mantissa - (if b.lowEdge then 1 else 2)) (b.exponent - 2) 0 p = .gt := by
    rw [compareScaled, Nat.compare_eq_gt, Nat.zero_mul, Nat.zero_mul]
    exact Nat.mul_pos (Nat.mul_pos hlow (powerOfTwo_pos _)) (powerOfTen_pos _)
  unfold covers
  simp only [hgt]
  simp

theorem Binary.nearer_pos (hn : n ≠ 0) (p : Int) : b.nearer n p ≠ 0 := by
  unfold nearer
  split
  · exact hn
  · omega
  · split <;> omega

theorem Binary.onGrid_digits (hb : 0 < b.mantissa) (h : b.onGrid? p = some s) : s.digits ≠ 0 := by
  have hne (h : b.covers (b.floorAt p) p = true) : b.floorAt p ≠ 0 := fun hz => by
    rw [hz, covers_zero hb] at h
    cases h
  unfold onGrid? at h
  simp only at h
  split at h
  · next hd _ =>
    cases h
    exact nearer_pos (hne hd) p
  · next hd _ =>
    cases h
    exact hne hd
  · cases h
    exact Nat.succ_ne_zero _
  · cases h

/-- A number of `n` digits. -/
theorem pow_le_of_length (hn : 0 < n) : 10 ^ ((Nat.toDigits 10 n).length - 1) ≤ n := by
  by_cases h : (Nat.toDigits 10 n).length - 1 = 0
  · rw [h]
    omega
  · by_contra hlt
    have := (Nat.length_toDigits_le_iff (by decide : 1 < 10) (Nat.pos_of_ne_zero h)).2 (not_le.1 hlt)
    omega

/-- Seventeen digits of a number do not start with a zero. -/
theorem Binary.floorAt_magnitude (hb : 0 < b.mantissa) : b.floorAt (b.magnitude - 17) ≠ 0 := by
  obtain ⟨num, hnum⟩ : ∃ num, num = b.mantissa * powerOfTwo b.exponent.toNat := ⟨_, rfl⟩
  obtain ⟨den, hden⟩ : ∃ den, den = powerOfTwo (-b.exponent).toNat := ⟨_, rfl⟩
  have hnum' : 0 < num := hnum ▸ Nat.mul_pos hb (powerOfTwo_pos _)
  have hden' : 0 < den := hden ▸ powerOfTwo_pos _
  have hfloor (p : Int) (h : den * powerOfTen p.toNat ≤ num * powerOfTen (-p).toNat) : b.floorAt p ≠ 0 := by
    rw [floorAt, ← hnum, ← hden]
    exact (Nat.div_pos h (Nat.mul_pos hden' (powerOfTen_pos _))).ne'
  have hpos (k : Nat) : 1 ≤ powerOfTen k := powerOfTen_pos k
  refine hfloor _ ?_
  unfold magnitude
  rw [← hnum, ← hden]
  simp only
  split
  · next hle =>
    have hdiv : 0 < num / den := Nat.div_pos hle hden'
    obtain ⟨l, hl⟩ : ∃ l, l = (Nat.toDigits 10 (num / den)).length := ⟨_, rfl⟩
    have hdigits := pow_le_of_length hdiv
    rw [← hl] at hdigits ⊢
    have hbound : den * powerOfTen (l - 17) ≤ num := by
      have hstep : 10 ^ (l - 17) ≤ 10 ^ (l - 1) := Nat.pow_le_pow_right (by decide) (by omega)
      exact (Nat.mul_le_mul_left den (hstep.trans hdigits)).trans (Nat.mul_div_le num den)
    rw [show ((l : Int) - 17).toNat = l - 17 by omega]
    exact hbound.trans (Nat.le_mul_of_pos_right _ (powerOfTen_pos _))
  · next hlt =>
    obtain ⟨l, hl⟩ : ∃ l, l = (Nat.toDigits 10 (den / num)).length := ⟨_, rfl⟩
    have hlpos : 0 < l := hl ▸ Nat.length_toDigits_pos
    have hdigits : den / num < 10 ^ l :=
      (Nat.length_toDigits_le_iff (by decide : 1 < 10) hlpos).1 hl.ge
    have hbound : den ≤ num * 10 ^ l :=
      (Nat.lt_mul_of_div_lt hdigits hnum').le.trans (Nat.mul_comm _ _).le
    have hreach (p : Int) (hp : (p ≤ -(l : Int))) :
        den * powerOfTen p.toNat ≤ num * powerOfTen (-p).toNat := by
      rw [show p.toNat = 0 by omega, show powerOfTen 0 = 1 from rfl, Nat.mul_one]
      exact hbound.trans (Nat.mul_le_mul_left _ (Nat.pow_le_pow_right (by decide) (by omega)))
    rw [← hl]
    split
    · exact hreach _ (by omega)
    · exact hreach _ (by omega)

theorem Binary.shortest_digits (hb : 0 < b.mantissa) : b.shortest.digits ≠ 0 := by
  unfold shortest
  simp only
  cases h : (List.range 17).findSome? fun i => b.onGrid? (b.magnitude - ((i + 1 : Nat) : Int)) with
  | none => exact floorAt_magnitude hb
  | some s =>
    obtain ⟨i, -, hi⟩ := List.exists_of_findSome?_eq_some h
    exact onGrid_digits hb hi

theorem Binary.mantissa_ofFields {e f : Nat} (h : ¬ (e == 0 && f == 0)) : 0 < (ofFields e f).mantissa := by
  simp only [Bool.and_eq_true, beq_iff_eq, not_and] at h
  unfold ofFields
  split
  · next he => exact Nat.pos_of_ne_zero (h (beq_iff_eq.1 he))
  · exact Nat.add_pos_left (powerOfTwo_pos _) _

theorem significantDigits_ne_nil (hn : n ≠ 0) : significantDigits n ≠ [] := by
  intro h
  rw [significantDigits, List.reverse_eq_nil_iff, List.dropWhile_eq_nil_iff] at h
  have hzero : Nat.toDigits 10 n = List.replicate (Nat.toDigits 10 n).length '0' :=
    List.eq_replicate_of_mem fun c hc => by simpa using h c (by simpa using hc)
  have := Nat.ofDigitChars_ten_toDigits (n := n)
  rw [hzero, Nat.ofDigitChars_replicate_zero] at this
  omega

theorem isDigit_toDigits {c : Char} (h : c ∈ Nat.toDigits 10 n) : c.isDigit :=
  Nat.isDigit_of_mem_toDigits (by decide) le_rfl h

theorem isDigit_significantDigits {c : Char} (h : c ∈ significantDigits n) : c.isDigit := by
  rw [significantDigits, List.mem_reverse] at h
  exact isDigit_toDigits (List.mem_reverse.1 ((List.dropWhile_sublist _).subset h))

end Stencil.Decimal
