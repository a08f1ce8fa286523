import Mathlib.Data.List.Infix
import Stencil.Proofs.Text.Identifier

/-! From one token to the next: what is passed over, and what a token takes. -/
namespace Stencil.Code.Token
open Text

variable {c c' : Cursor} {g g' : Gap} {cs rest : List Char} {d : Char} {n k : Nat} {t : Token}
  {ts : List Token} {i : Option Nat} {shape : Shape}

/-- A character that a token may begin with. -/
def isSolid (d : Char) : Bool := !isFiller d && d != '#' && d != '\\'

theorem isSolid_of_continue (h : isIdentifierContinue d) : isSolid d := by
  simp only [isSolid, isFiller_of_continue h, Bool.not_false, Bool.true_and, Bool.and_eq_true,
    bne_iff_ne]
  constructor <;> rintro rfl <;> revert h <;> decide

/-- Between tokens one gets from `c` to `c'`. -/
def Skips (g : Gap) (c : Cursor) (g' : Gap) (c' : Cursor) : Prop :=
  ∀ n, c.rest.length < n → skipGap n g c = some (g', c')

/-- A cursor by what is left. -/
theorem Cursor.eq_of_rest (h : c.rest = cs) : c = ⟨cs, c.offset, c.row⟩ := by rw [← h]

namespace Skips

theorem here (h : c.rest = d :: cs) (hd : isSolid d) : Skips g c g c := by
  intro n hn
  obtain ⟨n, rfl⟩ : ∃ m, n = m + 1 := ⟨n - 1, by omega⟩
  have hother : d ≠ '\n' ∧ d ≠ ' ' ∧ d ≠ '\t' ∧ d ≠ '\r' ∧ d ≠ '\x0c' ∧ d ≠ '#' ∧ d ≠ '\\' := by
    refine ⟨?_, ?_, ?_, ?_, ?_, ?_, ?_⟩
    all_goals rintro rfl; revert hd; decide
  have hfiller : isFiller d = false := by
    simp only [isSolid, Bool.and_eq_true, Bool.not_eq_true'] at hd
    exact hd.1.1
  rw [skipGap]
  split
  all_goals grind

theorem stop (h : c.rest = []) : Skips g c { g with indent := some 0 } c := by
  intro n hn
  obtain ⟨n, rfl⟩ : ∃ m, n = m + 1 := ⟨n - 1, by omega⟩
  rw [Cursor.eq_of_rest h]
  rfl

theorem step (hs : ∀ n, skipGap (n + 1) g c = skipGap n g' (c.advance k)) (hk : 0 < k)
    (hc : c.rest ≠ []) {g'' : Gap} {c'' : Cursor} (h : Skips g' (c.advance k) g'' c'') :
    Skips g c g'' c'' := by
  intro n hn
  obtain ⟨n, rfl⟩ : ∃ m, n = m + 1 := ⟨n - 1, by omega⟩
  rw [hs]
  refine h n ?_
  have := List.length_pos_iff.2 hc
  simp only [Cursor.advance, List.length_drop]
  omega

theorem newline (h : c.rest = '\n' :: cs) (hs : Skips { g with indent := some 0 } (c.advance 1) g' c') :
    Skips g c g' c' :=
  step (fun n => by rw [Cursor.eq_of_rest h]; rfl) Nat.one_pos (by simp [h]) hs

theorem space (h : c.rest = ' ' :: cs)
    (hs : Skips { g with indent := g.indent.map (· + 1) } (c.advance 1) g' c') : Skips g c g' c' :=
  step (fun n => by rw [Cursor.eq_of_rest h]; rfl) Nat.one_pos (by simp [h]) hs

/-- A comment reaches to the end of its line. -/
theorem comment {i : Nat} (h : c.rest = '#' :: cs ++ '\n' :: rest) (hcs : '\n' ∉ cs)
    (hi : g.indent = some i)
    (hs : Skips { g with comments := g.comments ++ [⟨c.row, i⟩] } (c.advance (cs.length + 1)) g' c') :
    Skips g c g' c' := by
  have htake : (cs ++ '\n' :: rest).takeWhile (· ≠ '\n') = cs := by
    rw [List.takeWhile_append_of_pos]
    · simp
    · intro d hd
      simp only [ne_eq, decide_not, Bool.not_eq_true', decide_eq_false_iff_not]
      rintro rfl
      exact hcs hd
  refine step (fun n => ?_) (by omega) (by simp [h]) hs
  have hskip : skipGap (n + 1) g c = skipGap n { g with comments := g.comments ++ [⟨c.row, i⟩] }
      (c.advance (((cs ++ '\n' :: rest).takeWhile (· ≠ '\n')).length + 1)) := by
    obtain ⟨indent, comments⟩ := g
    cases hi
    rw [Cursor.eq_of_rest h]
    rfl
  rw [hskip, htake]

/-- The blanks that a line begins with. -/
theorem spaces (k : Nat) {j : Nat} (hi : g.indent = some j)
    (h : c.rest = List.replicate k ' ' ++ d :: cs) (hd : isSolid d) :
    Skips g c { g with indent := some (j + k) } (c.advance k) := by
  induction k generalizing g c j with
  | zero =>
    have hc : c.advance 0 = c := by simp [Cursor.advance, Cursor.newlines]
    have hg : { g with indent := some (j + 0) } = g := by rw [Nat.add_zero, ← hi]
    rw [hc, hg]
    exact here (by simpa using h) hd
  | succ k ih =>
    have hrest : c.rest = ' ' :: (List.replicate k ' ' ++ d :: cs) := by
      simpa [List.replicate_succ] using h
    have hadvance : (c.advance 1).advance k = c.advance (k + 1) := by
      have htake : List.take (k + 1) c.rest = List.take 1 c.rest ++ List.take k (List.drop 1 c.rest) := by
        rw [Nat.add_comm, List.take_add]
      simp only [Cursor.advance, htake, List.drop_drop, List.length_append, Cursor.newlines,
        List.count_append, Nat.add_comm 1 k]
      simp [Nat.add_assoc]
    have := ih (g := { g with indent := some (j + 1) }) (c := c.advance 1) (j := j + 1) rfl
      (by simp [Cursor.advance, hrest])
    rw [hadvance] at this
    refine space hrest ?_
    rw [hi]
    rw [Nat.add_assoc, Nat.add_comm 1 k] at this
    exact this

end Skips

/-- The token of a length at a place. -/
def tokenAt (g : Gap) (c : Cursor) (shape : Shape) (k : Nat) : Token :=
  ⟨shape, String.ofList (c.rest.take k), c.offset, (c.advance k).offset, c.row, (c.advance k).row,
    g.indent, g.comments⟩

section Tokens

variable (h : allFrom n i c = some ts) (hs : Skips ⟨i, []⟩ c g c')
include h hs

theorem allFrom_next (hscan : scan c'.rest = some (shape, k)) (hshape : shape ≠ .stop) :
    ∃ m us, ts = tokenAt g c' shape k :: us ∧ allFrom m none (c'.advance k) = some us := by
  cases n with
  | zero => cases h
  | succ n =>
    simp only [allFrom, hs _ (Nat.lt_succ_self _), Option.bind_eq_bind, Option.bind_some, hscan,
      if_neg hshape] at h
    cases hr : allFrom n none (c'.advance k) with
    | none => simp [hr] at h
    | some us =>
      simp only [hr, Option.bind_some, Option.pure_def, Option.some.injEq] at h
      exact ⟨n, us, h.symm, hr⟩

theorem allFrom_stop (hrest : c'.rest = []) : ts = [tokenAt g c' .stop 0] := by
  cases n with
  | zero => cases h
  | succ n =>
    have hscan : scan c'.rest = some (.stop, 0) := by rw [hrest]; rfl
    simp only [allFrom, hs _ (Nat.lt_succ_self _), Option.bind_eq_bind, Option.bind_some, hscan,
      if_true, Option.pure_def, Option.some.injEq] at h
    exact h.symm

/-- Something is a token wherever reading goes on. -/
theorem exists_scan : ∃ shape k, scan c'.rest = some (shape, k) := by
  cases n with
  | zero => cases h
  | succ n =>
    simp only [allFrom, hs _ (Nat.lt_succ_self _), Option.bind_eq_bind, Option.bind_some] at h
    cases hr : scan c'.rest with
    | none => simp [hr] at h
    | some r => exact ⟨r.1, r.2, rfl⟩

end Tokens

theorem take_takeWhile (p : Char → Bool) (cs : List Char) :
    cs.take (cs.takeWhile p).length = cs.takeWhile p :=
  (List.prefix_iff_eq_take.1 (List.takeWhile_prefix p)).symm

theorem drop_takeWhile (p : Char → Bool) (cs : List Char) :
    cs.drop (cs.takeWhile p).length = cs.dropWhile p := by
  have h := List.take_append_drop (cs.takeWhile p).length cs
  rw [take_takeWhile] at h
  exact List.append_cancel_left (h.trans List.takeWhile_append_dropWhile.symm)

/-- A name takes all the characters of names that are there. -/
theorem scan_name (h : scan cs = some (.name, k)) :
    ∀ c ∈ (cs.drop k).head?, isIdentifierContinue c = false := by
  rw [scan.eq_def] at h
  split at h
  · next n _ => cases n <;> simp at h
  · split at h
    · simp at h
    · next d ds _ =>
      split at h
      · simp only [Option.some.injEq, Prod.mk.injEq, true_and] at h
        subst h
        rw [List.drop_succ_cons, drop_takeWhile]
        intro c hc
        have := List.head?_dropWhile_not isIdentifierContinue ds
        rw [Option.mem_def.1 hc] at this
        simpa using this
      · split at h
        · simp at h
        · cases hs : symbolLength (d :: ds) <;> simp [hs] at h

section Places

variable {source : List Char}

/-- A cursor in a text. -/
def In (source : List Char) (c : Cursor) : Prop :=
  ∃ before, source = before ++ c.rest ∧ before.length = c.offset

theorem In.advance (h : In source c) (k : Nat) : In source (c.advance k) := by
  obtain ⟨before, hsource, hlength⟩ := h
  refine ⟨before ++ c.rest.take k, ?_, ?_⟩
  · simp [Cursor.advance, hsource]
  · simp [Cursor.advance, hlength]

theorem le_advance (c : Cursor) (k : Nat) : c.offset ≤ (c.advance k).offset := Nat.le_add_right ..

theorem skipGap_in {m : Nat} (h : skipGap n g c = some (g', c')) (hc : In source c)
    (hm : m ≤ c.offset) : In source c' ∧ m ≤ c'.offset := by
  induction n generalizing g c with
  | zero => cases h
  | succ n ih =>
    have hstep {g : Gap} (k : Nat) (h : skipGap n g (c.advance k) = some (g', c')) :
        In source c' ∧ m ≤ c'.offset :=
      ih h (hc.advance k) (hm.trans (le_advance c k))
    rw [skipGap] at h
    split at h
    case h_9 => cases h
    case h_10 =>
      split at h
      · exact hstep _ h
      · cases h
        exact ⟨hc, hm⟩
    case h_11 =>
      cases h
      exact ⟨hc, hm⟩
    all_goals exact hstep _ h

/-- A token is what the text says between its ends. -/
structure Placed (source : List Char) (t : Token) : Prop where
  stop : t.start + t.text.length = t.stop
  text : (source.drop t.start).take t.text.length = t.text.toList
  ends : t.shape = .name → ∀ c ∈ (source.drop t.stop).head?, isIdentifierContinue c = false

theorem placed_tokenAt (h : In source c) (hscan : scan c.rest = some (shape, k)) :
    Placed source (tokenAt g c shape k) := by
  obtain ⟨before, hsource, hlength⟩ := h
  refine ⟨?_, ?_, fun hname d hd => ?_⟩
  · simp [tokenAt, Cursor.advance]
  · simp only [tokenAt, hsource, ← hlength, List.drop_left, String.toList_ofList]
    simp
  · obtain rfl : shape = .name := hname
    refine scan_name hscan d ?_
    have hdrop : source.drop (tokenAt g c .name k).stop = c.rest.drop (c.rest.take k).length := by
      simp only [tokenAt, Cursor.advance, hsource, ← hlength, List.drop_append]
      simp
    rw [hdrop] at hd
    by_cases hk : k ≤ c.rest.length
    · rwa [List.length_take_of_le hk] at hd
    · rw [List.take_of_length_le (by omega), List.drop_length] at hd
      cases hd

theorem allFrom_placed {m : Nat} (h : allFrom n i c = some ts) (hc : In source c)
    (hm : m ≤ c.offset) : (∀ t ∈ ts, m ≤ t.start ∧ Placed source t) ∧
      ts.Pairwise fun t u => t.stop ≤ u.start := by
  induction n generalizing i c ts m with
  | zero => cases h
  | succ n ih =>
    rw [allFrom] at h
    cases hg : skipGap (c.rest.length + 1) ⟨i, []⟩ c with
    | none => simp [hg] at h
    | some r =>
      obtain ⟨g, c'⟩ := r
      obtain ⟨hc', hm'⟩ := skipGap_in hg hc hm
      simp only [hg, Option.bind_eq_bind, Option.bind_some] at h
      cases hr : scan c'.rest with
      | none => simp [hr] at h
      | some r =>
        obtain ⟨shape, k⟩ := r
        have hplaced : m ≤ (tokenAt g c' shape k).start ∧ Placed source (tokenAt g c' shape k) :=
          ⟨hm', placed_tokenAt hc' hr⟩
        simp only [hr, Option.bind_some] at h
        split at h
        · obtain rfl : ts = [tokenAt g c' shape k] := by simpa [tokenAt] using h.symm
          simpa using hplaced
        · cases hrest : allFrom n none (c'.advance k) with
          | none => simp [hrest] at h
          | some us =>
            obtain rfl : ts = tokenAt g c' shape k :: us := by simpa [hrest, tokenAt] using h.symm
            obtain ⟨hus, hpair⟩ := ih hrest (hc'.advance k) le_rfl
            refine ⟨fun t ht => ?_, List.pairwise_cons.2 ⟨fun u hu => (hus u hu).1, hpair⟩⟩
            obtain rfl | ht := List.mem_cons.1 ht
            · exact hplaced
            · exact ⟨hm'.trans ((le_advance c' k).trans (hus t ht).1), (hus t ht).2⟩

end Places

end Stencil.Code.Token
