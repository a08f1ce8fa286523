import Stencil.Code.Const
import Stencil.Proofs.Code.Quoted
import Stencil.Proofs.Compile.Phrase
import Stencil.Proofs.Decimal.Shortest

/-! Constants are values. -/
namespace Stencil.Code.Token
open Text Decimal

variable {c d : Char} {xs : List Char} {n : Nat}

theorem run_append {v w : List Char} (h : Run v) (h' : Run w) : Run (v ++ w) where
  chars := List.forall_mem_append.2 ⟨h.chars, h'.chars⟩
  next a c b he hc := by
    obtain ⟨zs, hzs, hb⟩ | ⟨zs, hzs, hb⟩ := List.append_eq_append_iff.1 he
    · exact h'.next zs c b hb hc
    · cases zs with
      | nil => exact h'.next [] c b hb.symm hc
      | cons z zs =>
        obtain ⟨rfl, rfl⟩ := List.cons.inj hb
        obtain ⟨d, hd, hnext⟩ := h.next a c zs hzs hc
        exact ⟨d, List.mem_head?_append_of_mem_head? hd, hnext⟩

theorem run_continue (h : ∀ c ∈ xs, isIdentifierContinue c) : Run xs where
  chars c hc := by simp [isRunChar, h c hc]
  next a c b he hc := by simp [h c (by simp [he])] at hc

theorem run_digits (h : ∀ c ∈ xs, c.isDigit) : Run xs :=
  run_continue fun c hc => continue_of_isDigit (h c hc)

/-- A point or sign in front of digits. -/
theorem run_sign (hc : c = '.' ∨ c = '+' ∨ c = '-') (h : ∀ d ∈ xs, d.isDigit) (hne : xs ≠ []) :
    Run (c :: xs) where
  chars d hd := by
    obtain rfl | hd := List.mem_cons.1 hd
    · simpa [isRunChar, or_assoc] using .inr hc
    · exact (run_digits h).chars d hd
  next a d b he hd := by
    cases a with
    | nil =>
      obtain ⟨rfl, rfl⟩ := List.cons.inj he
      obtain ⟨e, es, rfl⟩ := List.exists_cons_of_ne_nil hne
      have he := h e (by simp)
      exact ⟨e, rfl, continue_of_isDigit he, .inr he⟩
    | cons e a =>
      obtain ⟨rfl, rfl⟩ := List.cons.inj he
      simp [continue_of_isDigit (h d (by simp))] at hd

/-- The text of an exponent. -/
theorem run_exponent (e : Int) : Run ('e' :: exponentText e) := by
  have hdigits : ∀ c ∈ Nat.toDigits 10 e.natAbs, c.isDigit := fun c hc => isDigit_toDigits hc
  have hne : Nat.toDigits 10 e.natAbs ≠ [] := Nat.toDigits_ne_nil
  refine run_append (v := ['e']) (run_continue (by simp; decide)) ?_
  refine run_sign (by split <;> simp) ?_ ?_
  · split
    · simpa using hdigits
    · exact hdigits
  · split
    · simp
    · exact hne

/-- Digits are laid out as a number. -/
theorem run_write (l : Layout) (p : Int) (h : ∀ c ∈ xs, c.isDigit) (hne : xs ≠ []) :
    Run (l.write xs p) ∧ ∃ c ∈ (l.write xs p).head?, c.isDigit := by
  obtain ⟨x, zs, rfl⟩ := List.exists_cons_of_ne_nil hne
  have hx : x.isDigit := h x (by simp)
  have hzeros (k : Nat) : ∀ c ∈ List.replicate k '0', c.isDigit := by
    intro c hc
    rw [List.eq_of_mem_replicate hc]
    decide
  unfold Layout.write
  split
  · split
    · refine ⟨run_append (v := ['0']) (run_digits (by simp)) (run_sign (.inl rfl) ?_ (by simp)),
        '0', rfl, by decide⟩
      exact List.forall_mem_append.2 ⟨hzeros _, h⟩
    · simp only
      split
      · refine ⟨run_append (run_digits (List.forall_mem_append.2 ⟨h, hzeros _⟩))
          (run_sign (.inl rfl) (by simp) (by simp)), x, rfl, hx⟩
      · next hp hlt =>
        refine ⟨run_append (run_digits fun c hc => h c (List.mem_of_mem_take hc)) (run_sign (.inl rfl)
          (fun c hc => h c (List.mem_of_mem_drop hc)) ?_), x, ?_, hx⟩
        · simpa using hlt
        · obtain ⟨k, hk⟩ : ∃ k, p.toNat = k + 1 := ⟨p.toNat - 1, by omega⟩
          simp [hk]
  · simp only
    have hzs : ∀ c ∈ zs, c.isDigit := fun c hc => h c (by simp [hc])
    split
    · next hempty =>
      exact ⟨run_append (v := [x]) (run_digits (by simpa using hx)) (run_exponent _), x, rfl, hx⟩
    · next hfull =>
      refine ⟨run_append (v := x :: '.' :: zs) (run_append (v := [x]) (run_digits (by simpa using hx)) ?_)
        (run_exponent _), x, rfl, hx⟩
      exact run_sign (.inl rfl) hzs (by simpa using hfull)

end Stencil.Code.Token

namespace Stencil.Code.Atom
open Token Text Decimal

variable {as : List Atom} {xs : List Char}

theorem phrase_digits (h : ∀ c ∈ xs, c.isDigit) (hne : xs ≠ []) : Phrase [number xs] := by
  obtain ⟨x, zs, rfl⟩ := List.exists_cons_of_ne_nil hne
  exact phrase_number (run_digits h) ⟨x, rfl, h x (by simp)⟩

theorem phrase_int (n : Int) : ∃ as, spell as = (toString n).toList ∧ Phrase as := by
  have hdigits (m : Nat) : Phrase [number (Nat.toDigits 10 m)] :=
    phrase_digits (fun c hc => isDigit_toDigits hc) Nat.toDigits_ne_nil
  cases n with
  | ofNat m =>
    refine ⟨_, ?_, hdigits m⟩
    simp [chars, Int.toString_eq_repr, Int.repr, Nat.toList_repr]
  | negSucc m =>
    refine ⟨_, ?_, (hdigits (m + 1)).minus⟩
    simp [chars, spell_cons, Int.toString_eq_repr, Int.repr, Nat.toList_repr]

/-- What a number is written as without its sign. -/
theorem phrase_magnitude {e f : Nat} :
    ∃ as, Phrase as ∧ spell as =
      if e == 2047 then (if f == 0 then "inf".toList else "nan".toList)
      else if e == 0 && f == 0 then "0.0".toList
      else
        let s := (Binary.ofFields e f).shortest
        plain.write (significantDigits s.digits) ((Nat.toDigits 10 s.digits).length + s.exponent) := by
  have hword (w : String) (hw : w = "inf" ∨ w = "nan") : Phrase [word w.toList] := by
    obtain rfl | rfl := hw
    all_goals exact phrase_word (by decide) (by decide) (by decide) (by decide)
  split
  · split
    · exact ⟨_, hword "inf" (.inl rfl), by simp [chars]⟩
    · exact ⟨_, hword "nan" (.inr rfl), by simp [chars]⟩
  split
  · refine ⟨[number ['0', '.', '0']], phrase_number ?_ ⟨'0', rfl, by decide⟩, rfl⟩
    exact run_append (v := ['0']) (run_digits (by simp)) (run_sign (.inl rfl) (by simp) (by simp))
  · next hne =>
    have hdigits := Binary.shortest_digits (Binary.mantissa_ofFields hne)
    obtain ⟨hrun, hhead⟩ := run_write plain
      ((Nat.toDigits 10 (Binary.ofFields e f).shortest.digits).length + (Binary.ofFields e f).shortest.exponent)
      (fun c hc => isDigit_significantDigits hc) (significantDigits_ne_nil hdigits)
    exact ⟨_, phrase_number hrun hhead, by simp [chars]⟩

theorem phrase_float (x : Float) : ∃ as, spell as = (floatText x).toList ∧ Phrase as := by
  unfold floatText
  obtain ⟨negative, e, f⟩ := Fields.ofFloat x
  obtain ⟨as, has, hspell⟩ := phrase_magnitude (e := e) (f := f)
  dsimp only at hspell ⊢
  split
  · exact ⟨symbol "-" :: as, (congrArg ('-' :: ·) hspell).trans String.toList_ofList.symm, has.minus⟩
  · exact ⟨as, hspell.trans String.toList_ofList.symm, has⟩

/-- A constant is written as a value. -/
theorem phrase_literal (c : Template.Const) : ∃ as, spell as = c.literal.toList ∧ Phrase as := by
  have hword (w : String) (hw : w ∈ ["None", "True", "False"]) :
      ∃ as, spell as = w.toList ∧ Phrase as := by
    refine ⟨[word w.toList], by simp [chars], ?_⟩
    simp only [List.mem_cons, List.not_mem_nil, or_false] at hw
    obtain rfl | rfl | rfl := hw
    all_goals exact phrase_word (by decide) (by decide) (by decide) (by decide)
  cases c with
  | none => exact hword _ (by simp [Template.Const.literal])
  | bool b => cases b <;> exact hword _ (by simp [Template.Const.literal])
  | int n => exact phrase_int n
  | float x => exact phrase_float x
  | str ps =>
    obtain ⟨hliteral, hbreak⟩ := literal_quotePoints ps
    exact ⟨_, by simp [chars, Template.Const.literal], phrase_quoted hliteral hbreak⟩

end Stencil.Code.Atom
