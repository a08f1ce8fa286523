import Mathlib.Algebra.GroupWithZero.Nat
import Stencil.Flatten.Reading
import Stencil.Proofs.Code.Atom

/-! Quoted texts are literals on one line, and what a literal stands for is the text that was
quoted. -/
namespace Stencil.Code
open Text Token

variable {c q : Char} {n w : Nat} {ps : Points} {cs rest : List Char}

/-- Where quotes are closed or lines end. -/
def endsInside (q c : Char) : Bool := c == q || c == '\\' || isLineBreak c

theorem isQuote_delimiter (ps : Points) : isQuote (Quoted.delimiter ps) := by
  unfold Quoted.delimiter
  split <;> decide

theorem isPrintable_of_isLineBreak (h : isLineBreak c) : isPrintable c.toNat = false := by
  have hall : ([10, 11, 12, 13, 28, 29, 30, 0x85, 0x2028, 0x2029] : List Nat).all
      fun n => !isPrintable n := by decide +kernel
  have hc : c.toNat ∈ [10, 11, 12, 13, 28, 29, 30, 0x85, 0x2028, 0x2029] := by
    simp only [isLineBreak, Bool.or_eq_true, Bool.and_eq_true, decide_eq_true_eq, beq_iff_eq] at h
    simp only [List.mem_cons, List.not_mem_nil, or_false]
    omega
  simpa using List.all_eq_true.1 hall _ hc

/-- A digit of sixteen. -/
theorem digitChar_inside (h : n < 16) (hq : isQuote q) :
    endsInside q (Nat.digitChar n) = false ∧ Escape.hexValue? (Nat.digitChar n) = some n := by
  have hall : (List.range 16).all fun n => ['"', '\''].all fun q =>
      !endsInside q (Nat.digitChar n) && Escape.hexValue? (Nat.digitChar n) == some n := by decide
  have := List.all_eq_true.1 (List.all_eq_true.1 hall n (by simpa using h)) q (by
    simpa [isQuote] using hq)
  simpa using this

theorem hexDigits_inside (hq : isQuote q) (w n : Nat) : ∀ c ∈ hexDigits w n, endsInside q c = false := by
  induction w generalizing n with
  | zero => simp [hexDigits]
  | succ w ih =>
    intro c hc
    obtain hc | hc := List.mem_append.1 hc
    · exact ih _ c hc
    · obtain rfl := List.mem_singleton.1 hc
      exact (digitChar_inside (Nat.mod_lt _ (by decide)) hq).1

theorem inside_of_plain (h : ∀ c ∈ cs, endsInside q c = false) : Inside q cs := by
  induction cs with
  | nil => exact .nil
  | cons c cs ih =>
    have hc := h c (by simp)
    simp only [endsInside, Bool.or_eq_false_iff, beq_eq_false_iff_ne] at hc
    refine .plain ⟨hc.1.1, hc.1.2, ?_⟩ (ih fun d hd => h d (by simp [hd]))
    rintro rfl
    exact absurd hc.2 (by decide)

theorem toNat_ofNat (h : n.isValidChar) : (Char.ofNat n).toNat = n := by
  rw [Char.ofNat, dif_pos h]
  rfl

/-- A character that is printed inside quotes as it is. -/
theorem printable_inside (hn : ¬ (n == '\\'.toNat || n == q.toNat)) (hp : isPrintable n)
    (hq : isQuote q) : endsInside q (Char.ofNat n) = false := by
  simp only [Bool.or_eq_true, beq_iff_eq, not_or] at hn
  by_cases hv : n.isValidChar
  · have htoNat := toNat_ofNat hv
    simp only [endsInside, Bool.or_eq_false_iff, beq_eq_false_iff_ne]
    refine ⟨⟨fun he => hn.2 (by rw [← he, htoNat]), fun he => hn.1 (by rw [← he, htoNat])⟩, ?_⟩
    by_contra hb
    have := isPrintable_of_isLineBreak (by simpa using hb)
    rw [htoNat, hp] at this
    cases this
  · have : Char.ofNat n = '\x00' := by simp [Char.ofNat, hv]; rfl
    simp only [isQuote, Bool.or_eq_true, beq_iff_eq] at hq
    rw [this]
    obtain rfl | rfl := hq <;> decide

/-- How a code point is written between quotes `q`. -/
inductive Encoded (q : Char) (n : Nat) : List Char → Prop
  | plain (hp : isPrintable n) (hn : ¬ (n == '\\'.toNat || n == q.toNat)) : Encoded q n [Char.ofNat n]
  | self (hn : n = '\\'.toNat ∨ n = q.toNat) : Encoded q n ['\\', Char.ofNat n]
  | control {d : Char} (hd : (d, n) ∈ [('n', 10), ('r', 13), ('t', 9)]) : Encoded q n ['\\', d]
  | hex {letter : Char} {w : Nat} (hl : (letter, w) ∈ [('x', 2), ('u', 4), ('U', 8)])
      (hn : n < 16 ^ w ∨ w = 8) : Encoded q n ('\\' :: letter :: hexDigits w n)

theorem encoded_escape (q : Char) (n : Nat) : Encoded q n (Quoted.escape q n) := by
  unfold Quoted.escape
  split
  · next h => exact .self (by simpa using h)
  · next hn =>
    split
    · next h => exact .control (by rw [beq_iff_eq.1 h]; simp)
    split
    · next h => exact .control (by rw [beq_iff_eq.1 h]; simp)
    split
    · next h => exact .control (by rw [beq_iff_eq.1 h]; simp)
    split
    · next h => exact .plain h hn
    split
    · next h => exact .hex (w := 2) (by simp) (.inl h)
    split
    · next h => exact .hex (w := 4) (by simp) (.inl h)
    · exact .hex (w := 8) (by simp) (.inr rfl)

theorem quote_chars (hq : isQuote q) : q ≠ '\\' ∧ q ≠ '\n' ∧ isLineBreak q = false := by
  simp only [isQuote, Bool.or_eq_true, beq_iff_eq] at hq
  obtain rfl | rfl := hq <;> decide

namespace Encoded

/-- What a code point is written with closes no quotes and breaks no line. -/
theorem inside (h : Encoded q n cs) (hq : isQuote q) :
    Inside q cs ∧ ∀ c ∈ cs, isLineBreak c = false := by
  obtain ⟨hslash, hnewline, hbreak⟩ := quote_chars hq
  have hplain (ds : List Char) (hds : ∀ c ∈ ds, endsInside q c = false) :
      Inside q ds ∧ ∀ c ∈ ds, isLineBreak c = false := by
    refine ⟨inside_of_plain hds, fun c hc => ?_⟩
    have := hds c hc
    simp only [endsInside, Bool.or_eq_false_iff] at this
    exact this.2
  cases h with
  | plain hp hn => exact hplain _ (by simpa using printable_inside hn hp hq)
  | self hn =>
    obtain rfl | rfl := hn
    · exact ⟨.escape (by decide) .nil, by simp; decide⟩
    · rw [Char.ofNat_toNat]
      exact ⟨.escape hnewline .nil, by simpa using ⟨by decide, hbreak⟩⟩
  | control hd =>
    simp only [List.mem_cons, Prod.mk.injEq, List.not_mem_nil, or_false] at hd
    obtain ⟨rfl, -⟩ | ⟨rfl, -⟩ | ⟨rfl, -⟩ := hd
    all_goals exact ⟨.escape (by decide) .nil, by simp; decide⟩
  | @hex letter w hl hn =>
    obtain ⟨hinside, hunbroken⟩ := hplain _ (hexDigits_inside hq w n)
    have hletter : letter ≠ '\n' ∧ isLineBreak letter = false := by
      simp only [List.mem_cons, Prod.mk.injEq, List.not_mem_nil, or_false] at hl
      obtain ⟨rfl, -⟩ | ⟨rfl, -⟩ | ⟨rfl, -⟩ := hl <;> decide
    refine ⟨.escape hletter.1 hinside, fun c hc => ?_⟩
    simp only [List.mem_cons] at hc
    obtain rfl | rfl | hc := hc
    · decide
    · exact hletter.2
    · exact hunbroken c hc

end Encoded

/-- What stands between the quotes of a text. -/
theorem inside_escapes (hq : isQuote q) (ps : Points) :
    Inside q (ps.flatMap (Quoted.escape q)) ∧
      ∀ c ∈ ps.flatMap (Quoted.escape q), isLineBreak c = false := by
  induction ps with
  | nil => exact ⟨.nil, by simp⟩
  | cons n ps ih =>
    obtain ⟨hinside, hunbroken⟩ := (encoded_escape q n).inside hq
    rw [List.flatMap_cons]
    exact ⟨hinside.append ih.1, List.forall_mem_append.2 ⟨hunbroken, ih.2⟩⟩

theorem literal_quotePoints (ps : Points) :
    Literal (quotePoints ps).toList ∧ ∀ c ∈ (quotePoints ps).toList, isLineBreak c = false := by
  have hq := isQuote_delimiter ps
  obtain ⟨hinside, hunbroken⟩ := inside_escapes hq ps
  obtain ⟨-, -, hbreak⟩ := quote_chars hq
  rw [quotePoints, String.toList_ofList, Quoted.encode]
  refine ⟨⟨_, _, hq, rfl, hinside⟩, fun c hc => ?_⟩
  simp only [List.cons_append, List.mem_cons, List.mem_append, List.not_mem_nil, or_false] at hc
  obtain rfl | hc | rfl := hc
  · exact hbreak
  · exact hunbroken c hc
  · exact hbreak

/-! ### Reading back -/

theorem hexNumber_append (cs ds : List Char) : Escape.hexNumber? (cs ++ ds) =
    (Escape.hexNumber? cs).bind fun m => ds.foldlM (fun n c => (Escape.hexValue? c).map (16 * n + ·)) m := by
  simp [Escape.hexNumber?, List.foldlM_append]

theorem hexNumber_hexDigits (w n : Nat) : Escape.hexNumber? (hexDigits w n) = some (n % 16 ^ w) := by
  induction w generalizing n with
  | zero => simp [hexDigits, Escape.hexNumber?, Nat.mod_one]
  | succ w ih =>
    have hdigit := (digitChar_inside (q := '"') (Nat.mod_lt n (by decide : 0 < 16)) rfl).2
    rw [hexDigits, hexNumber_append, ih]
    simp only [Option.bind_some, List.foldlM_cons, hdigit, Option.map_some, List.foldlM_nil]
    rw [Nat.pow_succ, Nat.mul_comm (16 ^ w), Nat.mod_mul, Nat.add_comm]
    rfl

theorem length_hexDigits (w n : Nat) : (hexDigits w n).length = w := by
  induction w generalizing n with
  | zero => rfl
  | succ w ih => simp [hexDigits, ih]

theorem hexEscape_hexDigits {short : Escape.Error} (hw : n < 16 ^ w) (hn : n ≤ 0x10ffff) :
    Escape.hexEscape w short (hexDigits w n ++ rest) = .ok (n, rest) := by
  have htake : (hexDigits w n ++ rest).take w = hexDigits w n := by
    rw [List.take_left' (length_hexDigits w n)]
  have hdrop : (hexDigits w n ++ rest).drop w = rest := by
    rw [List.drop_left' (length_hexDigits w n)]
  simp only [Escape.hexEscape, htake, hdrop, length_hexDigits, lt_irrefl, if_false,
    hexNumber_hexDigits, Nat.mod_eq_of_lt hw]
  rw [if_neg (by omega)]

/-- One code point is read back. -/
theorem Encoded.decode (h : Encoded q n cs) (hq : isQuote q) (hn : n.isValidChar) (fuel : Nat) :
    Escape.decodeFuel (fuel + 1) (cs ++ rest) = (Escape.decodeFuel fuel rest).map (n :: ·) := by
  have htoNat := toNat_ofNat hn
  have hbound : n ≤ 0x10ffff := by
    have : n < 0xd800 ∨ 0xdfff < n ∧ n < 0x110000 := hn
    omega
  have hback (letter : Char) (hs : Escape.afterBackslash (letter :: (cs.drop 2 ++ rest)) =
      .ok ([n], rest)) (hcs : cs = '\\' :: letter :: cs.drop 2) :
      Escape.decodeFuel (fuel + 1) (cs ++ rest) = (Escape.decodeFuel fuel rest).map (n :: ·) := by
    rw [hcs]
    simp only [List.cons_append, Escape.decodeFuel, hs]
    rfl
  cases h with
  | plain hp hn' =>
    have hplain := printable_inside hn' hp hq
    simp only [endsInside, Bool.or_eq_false_iff, beq_eq_false_iff_ne] at hplain
    rw [List.singleton_append, Escape.decodeFuel.eq_def]
    split
    · contradiction
    · contradiction
    · next he => exact absurd (List.cons.inj he).1 hplain.1.2
    · next hfuel he =>
      obtain ⟨hc, rfl⟩ := List.cons.inj he
      obtain rfl := Nat.succ.inj hfuel
      rw [← hc, htoNat]
  | self hn' =>
    refine hback (Char.ofNat n) ?_ rfl
    obtain rfl | rfl := hn'
    · rfl
    · rw [Char.ofNat_toNat]
      simp only [isQuote, Bool.or_eq_true, beq_iff_eq] at hq
      obtain rfl | rfl := hq <;> rfl
  | @control d hd =>
    refine hback d ?_ rfl
    simp only [List.mem_cons, Prod.mk.injEq, List.not_mem_nil, or_false] at hd
    obtain ⟨rfl, rfl⟩ | ⟨rfl, rfl⟩ | ⟨rfl, rfl⟩ := hd <;> rfl
  | @hex letter w hl hn' =>
    refine hback letter ?_ rfl
    simp only [List.mem_cons, Prod.mk.injEq, List.not_mem_nil, or_false] at hl
    simp only [List.drop_succ_cons, List.drop_zero]
    obtain ⟨rfl, rfl⟩ | ⟨rfl, rfl⟩ | ⟨rfl, rfl⟩ := hl
    all_goals
      simp only [Escape.afterBackslash]
      rw [hexEscape_hexDigits (by omega) hbound]
      rfl

theorem decode_escapes (hq : isQuote q) (hps : ∀ n ∈ ps, n.isValidChar) (fuel : Nat) (hf : ps.length ≤ fuel) :
    Escape.decodeFuel fuel (ps.flatMap (Quoted.escape q)) = .ok ps := by
  induction ps generalizing fuel with
  | nil => cases fuel <;> rfl
  | cons n ps ih =>
    obtain ⟨fuel, rfl⟩ : ∃ k, fuel = k + 1 := ⟨fuel - 1, by simp at hf; omega⟩
    rw [List.flatMap_cons, (encoded_escape q n).decode hq (hps n (by simp)),
      ih (fun m hm => hps m (by simp [hm])) fuel (by simpa using hf)]
    rfl

theorem Encoded.length_pos (h : Encoded q n cs) : 0 < cs.length := by
  cases h <;> simp

theorem length_le_escapes (q : Char) (ps : Points) : ps.length ≤ (ps.flatMap (Quoted.escape q)).length := by
  induction ps with
  | nil => simp
  | cons n ps ih =>
    have := (encoded_escape q n).length_pos
    simp only [List.flatMap_cons, List.length_cons, List.length_append]
    omega

end Stencil.Code

namespace Stencil.Flatten
open Code Text Token

/-- A quoted text is read as the text. -/
theorem literalText_quote (s : String) : literalText (Text.quote s) = .ok s := by
  have hps : ∀ n ∈ Points.ofString s, n.isValidChar := by
    simp only [Points.ofString, List.mem_map, forall_exists_index, and_imp]
    rintro _ c - rfl
    exact c.valid
  generalize hp : Points.ofString s = ps at hps
  have hq := isQuote_delimiter ps
  obtain ⟨hinside, -⟩ := inside_escapes hq ps
  obtain ⟨hslash, -⟩ := quote_chars hq
  have hletter : isPrefixLetter (Quoted.delimiter ps) = false := by
    simp only [isQuote, Bool.or_eq_true, beq_iff_eq] at hq
    obtain hq | hq := hq <;> rw [hq] <;> decide
  generalize hd : Quoted.delimiter ps = q at *
  generalize hin : ps.flatMap (Quoted.escape q) = inside at *
  have hencode : (Text.quote s).toList = q :: (inside ++ [q]) := by
    rw [quote, hp, quotePoints, String.toList_ofList, Quoted.encode, hd, hin, List.cons_append]
  have hwidth : [q, q, q].isPrefixOf (q :: (inside ++ [q])) = false := by
    cases hinside with
    | nil => simp [List.isPrefixOf]
    | plain hc => simp [List.isPrefixOf, hc.1.symm]
    | escape _ => simp [List.isPrefixOf, hslash]
  have hdecode : Escape.decode inside = .ok ps := by
    rw [Escape.decode, ← hin]
    exact decode_escapes hq hps _ (length_le_escapes q ps)
  have hback : Points.toString? ps = some s := by
    rw [Points.toString?, if_pos (by simpa using hps), ← hp]
    have hsame : s.toList.map (Char.ofNat ∘ Char.toNat) = s.toList :=
      List.map_id'' (fun c => Char.ofNat_toNat c) _
    simp [Points.ofString, hsame]
  unfold literalText
  simp only [hencode, List.takeWhile_cons, hletter]
  simp only [Bool.false_eq_true, if_false, List.length_nil, List.drop_zero, List.take_succ_cons, List.take_zero,
    List.flatten_cons, List.flatten_nil, List.append_nil, List.singleton_append, hwidth, List.contains_nil,
    Bool.or_self, List.drop_succ_cons, List.length_cons, List.length_append]
  rw [show inside.length + (0 + 1) + 1 - 2 * 1 = inside.length by omega, List.take_left, hdecode]
  simp only [hback]

end Stencil.Flatten
