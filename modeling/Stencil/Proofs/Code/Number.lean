import Stencil.Proofs.Code.Atom

/-! Numbers, with what is run together with them, end where no name goes on. -/
namespace Stencil.Code.Token
open Text

variable {c d : Char} {cs rest : List Char} {p : Char → Bool} {n : Nat}

/-- A character that a number may hold. -/
def isRunChar (c : Char) : Bool := isIdentifierContinue c || c == '.' || c == '+' || c == '-'

/-- Where no name, number or literal goes on. -/
def endsNumber (c : Char) : Bool := !isQuote c && !isRunChar c

/-- How far a number may reach. -/
def runLength (cs : List Char) : Nat := (cs.takeWhile isRunChar).length

theorem runLength_cons (h : isRunChar c) : runLength (c :: cs) = runLength cs + 1 := by
  simp [runLength, h]

theorem runLength_drop (h : n ≤ runLength cs) : runLength (cs.drop n) + n = runLength cs := by
  induction n generalizing cs with
  | zero => rfl
  | succ n ih =>
    cases cs with
    | nil => simp [runLength] at h
    | cons c cs =>
      by_cases hc : isRunChar c
      · rw [runLength_cons hc] at h ⊢
        have := @ih cs (by omega)
        simp only [List.drop_succ_cons]
        omega
      · simp [runLength, hc] at h

theorem isRunChar_of_isDigit (h : c.isDigit) : isRunChar c := by
  simp [isRunChar, continue_of_isDigit h]

theorem digitRun_le (hp : ∀ c, p c → isRunChar c) (cs : List Char) :
    digitRun p cs ≤ runLength cs := by
  have hunder : isRunChar '_' := by decide
  fun_induction digitRun p cs with
  | case1 d cs hd ih =>
    rw [runLength_cons (hp d hd), runLength_cons hunder]
    omega
  | case3 d cs _ hd ih =>
    rw [runLength_cons (hp d hd)]
    omega
  | case2 => omega
  | case4 => omega
  | case5 => omega

theorem basedRun_le (hp : ∀ c, p c → isRunChar c) (cs : List Char) :
    basedRun p cs ≤ runLength cs := by
  have hunder : isRunChar '_' := by decide
  fun_induction basedRun p cs with
  | case1 d cs hd ih =>
    rw [runLength_cons hunder, runLength_cons (hp d hd)]
    omega
  | case3 d cs _ hd ih =>
    rw [runLength_cons (hp d hd)]
    omega
  | case2 => omega
  | case4 => omega
  | case5 => omega

theorem suffixLength_le (allowed : List Char) (h : allowed.all isRunChar) (cs : List Char) :
    suffixLength allowed cs ≤ runLength cs := by
  unfold suffixLength
  split
  · next c cs =>
    split
    · next hc =>
      rw [runLength_cons (List.all_eq_true.1 h c (by simpa using hc))]
      omega
    · omega
  · omega

theorem exponentLength_le (cs : List Char) : exponentLength cs ≤ runLength cs := by
  have hdigit : ∀ c : Char, c.isDigit → isRunChar c := fun c => isRunChar_of_isDigit
  unfold exponentLength
  split
  · next e s rest =>
    split
    · next he =>
      have he' : isRunChar e := by
        simp only [Bool.or_eq_true, beq_iff_eq] at he
        obtain rfl | rfl := he <;> decide
      rw [runLength_cons he']
      by_cases hs : s == '+' || s == '-'
      · have hs' : isRunChar s := by
          simp only [Bool.or_eq_true, beq_iff_eq] at hs
          obtain rfl | rfl := hs <;> decide
        have := digitRun_le hdigit rest
        rw [runLength_cons hs']
        simp only [hs, if_true]
        split <;> omega
      · have := digitRun_le hdigit (s :: rest)
        simp only [hs, Bool.false_eq_true, if_false]
        split <;> omega
    · omega
  · omega

/-- Two parts of a number one after the other. -/
theorem add_le_runLength {m : Nat} (hn : n ≤ runLength cs) (hm : m ≤ runLength (cs.drop n)) :
    n + m ≤ runLength cs := by
  have := runLength_drop hn
  omega

theorem fractionLength_le (cs : List Char) : fractionLength cs ≤ runLength cs :=
  add_le_runLength (digitRun_le (fun _ => isRunChar_of_isDigit) cs) (exponentLength_le _)

theorem isRunChar_of_isHex (h : isHex c) : isRunChar c := by
  have hrange {a b : Char} (h : a ≤ c ∧ c ≤ b) (ha : 65 ≤ a.toNat) (hb : b.toNat ≤ 122)
      (hab : 97 ≤ a.toNat ∨ b.toNat ≤ 90) : isRunChar c := by
    obtain ⟨hlo, hhi⟩ := h
    have hlo' : a.toNat ≤ c.toNat := hlo
    have hhi' : c.toNat ≤ b.toNat := hhi
    have halpha : c.isAlpha := isAlpha_iff.2 (by omega)
    simp [isRunChar, isIdentifierContinue, show c.toNat < 128 by omega, Char.isAlphanum, halpha]
  simp only [isHex, Text.Escape.hexValue?] at h
  split at h
  · next hd => exact isRunChar_of_isDigit hd
  · split at h
    · next hd =>
      simp only [Bool.and_eq_true, decide_eq_true_eq] at hd
      exact hrange hd (by decide) (by decide) (by decide)
    · split at h
      · next hd =>
        simp only [Bool.and_eq_true, decide_eq_true_eq] at hd
        exact hrange hd (by decide) (by decide) (by decide)
      · cases h

theorem basedLength_le (cs : List Char) : basedLength cs ≤ runLength cs := by
  have hbase {p : Char → Bool} {b : Char} {cs : List Char} (hb : isRunChar b)
      (hp : ∀ c, p c → isRunChar c) :
      (if basedRun p cs = 0 then 0
        else basedRun p cs + 2 + suffixLength ['l', 'L'] (cs.drop (basedRun p cs))) ≤
        runLength ('0' :: b :: cs) := by
    rw [runLength_cons (by decide), runLength_cons hb]
    have := add_le_runLength (basedRun_le hp cs)
      (suffixLength_le ['l', 'L'] (by decide) (cs.drop (basedRun p cs)))
    split <;> omega
  have hoctal : ∀ c, Text.Escape.isOctal c → isRunChar c := by
    intro c hc
    refine isRunChar_of_isDigit ?_
    simp only [Text.Escape.isOctal, Bool.and_eq_true, decide_eq_true_eq] at hc
    simp only [Char.isDigit, Bool.and_eq_true, decide_eq_true_eq]
    exact ⟨hc.1, UInt32.le_trans hc.2 (by decide : ('7' : Char).val ≤ ('9' : Char).val)⟩
  have hbinary : ∀ c, isBinary c → isRunChar c := by
    intro c hc
    simp only [isBinary, Bool.or_eq_true, beq_iff_eq] at hc
    obtain rfl | rfl := hc <;> decide
  unfold basedLength
  split
  · next b cs =>
    dsimp only
    split
    · omega
    · next p hp =>
      split at hp
      all_goals cases hp
      · exact hbase (by decide) fun _ => isRunChar_of_isHex
      · exact hbase (by decide) fun _ => isRunChar_of_isHex
      · exact hbase (by decide) hoctal
      · exact hbase (by decide) hoctal
      · exact hbase (by decide) hbinary
      · exact hbase (by decide) hbinary
  · omega

/-- A number takes characters of numbers alone. -/
theorem numberLength_le (cs : List Char) : numberLength cs ≤ runLength cs := by
  unfold numberLength
  dsimp only
  split
  · exact basedLength_le cs
  · have hwhole : digitRun Char.isDigit cs ≤ runLength cs :=
      digitRun_le (fun _ => isRunChar_of_isDigit) cs
    have hrest := runLength_drop hwhole
    split
    · next fraction he =>
      rw [he, runLength_cons (by decide)] at hrest
      have := add_le_runLength (fractionLength_le fraction)
        (suffixLength_le ['j', 'J'] (by decide) _)
      have hdrop : cs.drop (digitRun Char.isDigit cs + 1 + fractionLength fraction) =
          fraction.drop (fractionLength fraction) := by
        rw [Nat.add_assoc, ← List.drop_drop, he, Nat.add_comm 1, List.drop_succ_cons]
      rw [hdrop]
      omega
    · have hsuffix := suffixLength_le ['l', 'L', 'j', 'J'] (by decide)
        (cs.drop (digitRun Char.isDigit cs))
      have hexponent := add_le_runLength (exponentLength_le (cs.drop (digitRun Char.isDigit cs)))
        (suffixLength_le ['j', 'J'] (by decide) _)
      split <;> omega

theorem digitRun_pos (hc : c.isDigit) (cs : List Char) : 0 < digitRun Char.isDigit (c :: cs) := by
  rw [digitRun.eq_def]
  split <;> simp_all

theorem numberLength_pos (hc : c.isDigit) : 0 < numberLength (c :: cs) := by
  have hpos := digitRun_pos hc cs
  unfold numberLength
  dsimp only
  split
  · assumption
  · split
    · omega
    · split <;> omega

/-- A point in front of a digit begins a number of more than itself. -/
theorem numberLength_fraction (hc : c.isDigit) : 1 < numberLength ('.' :: c :: cs) := by
  have hzero : digitRun Char.isDigit ('.' :: c :: cs) = 0 := by
    have hpoint : Char.isDigit '.' = false := by decide
    rw [digitRun.eq_def]
    grind
  have hpos : 0 < fractionLength (c :: cs) :=
    (digitRun_pos hc cs).trans_le (Nat.le_add_right ..)
  have hbased : basedLength ('.' :: c :: cs) = 0 := by
    rw [basedLength.eq_def]
    grind
  simp only [numberLength, hbased, lt_irrefl, if_false, hzero, List.drop_zero]
  omega

end Stencil.Code.Token
