import Stencil.Proofs.Code.Refusal
import Stencil.Proofs.Flatten.Sheet

/-!
Where a reader stands between two tokens of a sheet, and what the elementary readers keep of it.
-/
namespace Stencil.Flatten
open Code Grammar

/-- A reader started at `start`, in a block indented by `indent` and inside `depth` brackets. Lines
indented less than `base` are out of its reach. Its rank is 0 for statements, 1 for statements
without blocks and 2 for expressions. -/
structure Frame where
  start : State
  base : Nat
  indent : Nat
  depth : Nat
  rank : Nat

variable {α : Type} {g : Page} {f : Frame} {s₀ s s' : State} {base rank r : Nat} {k : Int} {c c' : Bool}
  {ns ms cs : List Node} {t u : Token} {ts us seg : List Token} {x : String} {P : State → Prop}

/-- What lies between two states: the tokens read, none of them on a line that is out of reach, and
the nodes made of them. A `return` starts a line only inside a deeper block. Expressions hold no line
that a block stands below, nor the colon in front of a block. -/
structure Moves (g : Page) (base rank : Nat) (s₀ : State) (seg : List Token) (ns : List Node)
    (s : State) : Prop where
  rest : s₀.rest = seg ++ s.rest
  above : ∀ t ∈ seg, ∀ i ∈ t.indent, base ≤ i
  inner : ∀ t ∈ seg, t.text = "return" → ∀ i ∈ t.indent, base < i
  stop : s.stop = (seg.getLast?.map Token.stop).getD s₀.stop
  endRow : s.endRow = (seg.getLast?.map Token.endRow).getD s₀.endRow
  accounts : Accounts g.source ns (expected g seg)
  calm : 1 ≤ rank → ∀ t ∈ seg, t.indent.isSome → t.text ∉ headers
  colonless : 2 ≤ rank → ∀ a t b, seg = a ++ t :: b → t.text = ":" → owed (t :: b ++ s.rest) ≠ 0

/-- A reader has made the nodes `ns`. It has not noticed yet that it passed `k` brackets; with `c`
it has passed a token. -/
structure Amid (g : Page) (f : Frame) (k : Int) (c : Bool) (ns : List Node) (s : State) : Prop where
  sheet : Sheet g s.rest
  bound : f.base ≤ f.indent
  indent : s.indent = f.indent
  depth : s.depth = f.depth
  owed : owed s.rest = f.depth + k
  outside : ∀ t ∈ s.rest.head?, t.indent = none → g.marks t.row = none
  moves : ∃ seg, Moves g f.base f.rank f.start seg ns s ∧ (c → seg ≠ [])

/-- An operand may begin with the next token. -/
def Fresh (g : Page) (s : State) : Prop := ∀ t ts, s.rest = t :: ts → Opens g t ts

/-- In front of an operand. -/
def Poised (g : Page) (f : Frame) (k : Int) (c : Bool) (ns : List Node) (s : State) : Prop :=
  Amid g f k c ns s ∧ Fresh g s

/-- The next token is there to be taken, on this line or where a line goes on. -/
structure Faces (t : Token) (s : State) : Prop where
  head : s.rest.head? = some t
  shape : t.shape ≠ .stop
  above : ∀ i ∈ t.indent, s.indent ≤ i

namespace Moves

theorem refl (s : State) : Moves g base rank s [] [] s :=
  ⟨rfl, by simp, by simp, rfl, rfl, .nil, by simp, by simp⟩

theorem trans (h : Moves g base rank s₀ ts ns s) (h' : Moves g base rank s us ms s') :
    Moves g base rank s₀ (ts ++ us) (ns ++ ms) s' where
  rest := by rw [h.rest, h'.rest, List.append_assoc]
  above := by
    intro t ht
    obtain ht | ht := List.mem_append.1 ht
    · exact h.above t ht
    · exact h'.above t ht
  inner := by
    intro t ht
    obtain ht | ht := List.mem_append.1 ht
    · exact h.inner t ht
    · exact h'.inner t ht
  stop := by
    rw [h'.stop, h.stop, List.getLast?_append]
    cases us.getLast? <;> simp
  endRow := by
    rw [h'.endRow, h.endRow, List.getLast?_append]
    cases us.getLast? <;> simp
  accounts := by
    rw [expected_append]
    exact h.accounts.append h'.accounts
  calm := by
    intro hr t ht
    obtain ht | ht := List.mem_append.1 ht
    · exact h.calm hr t ht
    · exact h'.calm hr t ht
  colonless := by
    intro hr a t b he ht
    obtain ⟨c, rfl, hus⟩ | ⟨c, hts, hb⟩ := List.append_eq_append_iff.1 he
    · exact h'.colonless hr c t b hus ht
    · cases c with
      | nil =>
        obtain rfl : us = t :: b := by simpa using hb.symm
        exact h'.colonless hr [] t b rfl ht
      | cons u c =>
        obtain ⟨rfl, rfl⟩ : t = u ∧ b = c ++ us := by simpa using hb
        have := h.colonless hr a t c hts ht
        rwa [h'.rest, ← List.append_assoc] at this

/-- Nothing that a move keeps has to do with the level of brackets or blocks. -/
theorem setLevel (h : Moves g base rank s₀ seg ns s) (d w : Nat) :
    Moves g base rank s₀ seg ns { s with depth := d, indent := w } :=
  ⟨h.rest, h.above, h.inner, h.stop, h.endRow, h.accounts, h.calm, h.colonless⟩

theorem nodes (h : Moves g base rank s₀ seg ns s) (hn : Accounts g.source ms (expected g seg)) :
    Moves g base rank s₀ seg ms s :=
  { h with accounts := hn }

theorem lower {b : Nat} (h : Moves g b r s₀ seg ns s) (hb : base ≤ b) (hr : rank ≤ r) :
    Moves g base rank s₀ seg ns s :=
  { h with
    above := fun t ht i hi => hb.trans (h.above t ht i hi)
    inner := fun t ht hx i hi => hb.trans_lt (h.inner t ht hx i hi)
    calm := fun hk => h.calm (hk.trans hr)
    colonless := fun hk => h.colonless (hk.trans hr) }

end Moves

namespace Amid

theorem of_sheet (hs : Sheet g s.rest) (ho : Flatten.owed s.rest = s.depth)
    (hout : ∀ t ∈ s.rest.head?, t.indent = none → g.marks t.row = none) (hb : base ≤ s.indent) :
    Amid g ⟨s, base, s.indent, s.depth, 0⟩ 0 false [] s :=
  ⟨hs, hb, rfl, rfl, by simpa using ho, hout, [], .refl s, by simp⟩

/-- Readers are studied from where they start. -/
theorem start (h : Amid g f 0 c ns s) (r : Nat) :
    Amid g { f with start := s, rank := r } 0 false [] s :=
  { h with moves := ⟨[], .refl s, by simp⟩ }

theorem trans (h : Amid g f 0 c ns s) (h' : Amid g { f with start := s, rank := r } k c' ms s')
    (hr : f.rank ≤ r) : Amid g f k (c' || c) (ns ++ ms) s' := by
  obtain ⟨ts, ht, hts⟩ := h.moves
  obtain ⟨us, hu, hus⟩ := h'.moves
  refine { h' with moves := ⟨_, ht.trans (hu.lower le_rfl hr), ?_⟩ }
  cases c' <;> simp_all

theorem lax (h : Amid g f k c ns s) : Amid g f k false ns s := by
  obtain ⟨seg, hm, -⟩ := h.moves
  exact { h with moves := ⟨seg, hm, by simp⟩ }

theorem relax (h : Amid g f k true ns s) : Amid g f k c ns s := by
  obtain ⟨seg, hm, hc⟩ := h.moves
  exact { h with moves := ⟨seg, hm, fun _ => hc rfl⟩ }

theorem rest_lt (h : Amid g f k true ns s) : s.rest.length < f.start.rest.length := by
  obtain ⟨seg, hm, hc⟩ := h.moves
  have := List.length_pos_iff.2 (hc rfl)
  rw [hm.rest, List.length_append]
  omega

theorem lift (h : Amid g f k c cs s) (hn : ∀ found, Accounts g.source cs found →
    Accounts g.source ns found) : Amid g f k c ns s := by
  obtain ⟨seg, hm, hc⟩ := h.moves
  exact { h with moves := ⟨seg, hm.nodes (hn _ hm.accounts), hc⟩ }

theorem wrap {kind : Kind} {extent : Extent} (h : Amid g f k c cs s) (hk : kind ≠ .call) :
    Amid g f k c [.mk kind extent cs] s :=
  h.lift fun _ hn => hn.wrap hk

theorem fits (h : Amid g f k c ns s) (ht : s.rest.head? = some t) : Fits g t s.rest.tail := by
  obtain ⟨us, hr⟩ : ∃ us, s.rest = t :: us := by
    cases hr : s.rest with
    | nil => simp [hr] at ht
    | cons u us => exact ⟨us, by simpa [hr] using ht⟩
  rw [hr]
  exact (hr ▸ h.sheet).fits

/-- Inside brackets no line starts. -/
theorem indent_eq_none (h : Amid g f 0 c ns s) (hd : 0 < f.depth) (ht : s.rest.head? = some t) :
    t.indent = none := by
  cases hi : t.indent with
  | none => rfl
  | some i =>
    have hl := (h.fits ht).level (by simp [hi])
    have hr : s.rest = t :: s.rest.tail := (List.cons_head?_tail ht).symm
    have ho := h.owed
    rw [hr, hl] at ho
    omega

/-- The place behind the next token, if a reader may take it for what it is. -/
theorem take (h : Amid g f 0 c ns s) (ht : Faces t s) (hm : t.indent.isSome → g.marks t.row = none)
    (hr : t.text = "return" → ∀ i ∈ t.indent, f.base < i)
    (hh : 1 ≤ f.rank → t.indent.isSome → t.text ∉ headers)
    (hcolon : t.text = ":" → 2 ≤ f.rank → 0 < f.depth) : Amid g f (weightOf t.text) true ns (after t s) := by
  have hc : s.rest = t :: s.rest.tail := (List.cons_head?_tail ht.head).symm
  have hf := h.fits ht.head
  have hrow : g.marks t.row = none := by
    cases hi : t.indent with
    | none => exact h.outside t ht.head hi
    | some i => exact hm (by simp [hi])
  obtain ⟨seg, hmoves, -⟩ := h.moves
  have hmoves' : Moves g f.base f.rank s [t] [] (after t s) := by
    refine ⟨hc, ?_, ?_, by simp [after], by simp [after], ?_, ?_, ?_⟩
    · intro u hu i hi
      obtain rfl := List.mem_singleton.1 hu
      exact le_trans (h.indent ▸ h.bound) (ht.above i hi)
    · intro u hu hret
      obtain rfl := List.mem_singleton.1 hu
      exact hr hret
    · rw [expected_single_unmarked hm]
      exact .nil
    · intro hk u hu
      obtain rfl := List.mem_singleton.1 hu
      exact hh hk
    · intro hk a u b he hu
      obtain ⟨rfl, rfl, rfl⟩ : a = [] ∧ t = u ∧ b = [] := by
        cases a with
        | nil => simpa using he
        | cons v a => simp at he
      have ho := h.owed
      rw [hc] at ho
      have := hcolon hu hk
      change Flatten.owed (t :: s.rest.tail) ≠ 0
      omega
  refine ⟨h.sheet.suffix (List.tail_suffix _), h.bound, h.indent, h.depth, ?_, ?_,
    seg ++ [t], by simpa using hmoves.trans hmoves', by simp⟩
  · have ho := h.owed
    rw [hc, Flatten.owed] at ho
    change Flatten.owed s.rest.tail = _
    omega
  · intro u hu hi
    rw [hf.row u hu hi]
    exact hrow

theorem fresh_after (h : Amid g f k c ns s) (ht : Faces t s) (hn : t.shape ≠ .number)
    (hd : t.text ≠ ".") : Fresh g (after t s) := by
  intro u us hu
  obtain ho | hn' | hd' := (h.fits ht.head).fresh u us hu
  · exact ho
  · exact (hn hn').elim
  · exact (hd hd').elim

theorem unmarked (h : Amid g f k c ns s) (ht : s.rest.head? = some t)
    (hx : isReserved t.text = false) (hi : t.indent.isSome) : g.marks t.row = none := by
  cases hm : g.marks t.row with
  | none => rfl
  | some e =>
    have hs := ((h.fits ht).mark e hm hi).head.2
    rw [hx] at hs
    cases hs

theorem faces (h : Amid g f 0 c ns s) (ht : s.rest.head? = some t) (hs : t.shape ≠ .stop)
    (hi : 0 < f.depth ∨ ∀ i ∈ t.indent, s.indent ≤ i) : Faces t s := by
  refine ⟨ht, hs, ?_⟩
  obtain hd | hi := hi
  · simp [h.indent_eq_none hd ht]
  · exact hi

end Amid

/-- A text that has no part in how lines go on and follow each other. -/
def isPlain (x : String) : Bool :=
  x != "." && x != "return" && x != ":" && !headers.contains x && !isReserved x

theorem Fresh.text_ne (h : Fresh g s) (ht : s.rest.head? = some t) (hx : x ∈ leads) : t.text ≠ x := by
  have hl := (h t _ (List.cons_head?_tail ht).symm).lead
  simp only [isLead, List.contains_eq_mem, decide_eq_false_iff_not] at hl
  rintro rfl
  exact hl hx

theorem Fresh.not_is (h : Fresh g s) (ht : s.rest.head? = some t) (hx : x ∈ leads) :
    t.is x = false := by
  simp only [Token.is, Bool.and_eq_false_iff, beq_eq_false_iff_ne]
  exact .inr (h.text_ne ht hx)

theorem Amid.take_word (h : Amid g f 0 c ns s) (ht : Faces t s) (hi : t.is x)
    (hx : x ≠ "." ∧ x ≠ "return" ∧ isReserved x = false)
    (hh : x ∈ headers → 1 ≤ f.rank → t.indent = none) (hc : x = ":" → 2 ≤ f.rank → 0 < f.depth) :
    Poised g f (weightOf x) true ns (after t s) := by
  simp only [Token.is, Bool.and_eq_true, Bool.or_eq_true, decide_eq_true_eq, beq_iff_eq] at hi
  obtain ⟨hshape, rfl⟩ := hi
  refine ⟨h.take ht (h.unmarked ht.head hx.2.2) (fun hr => (hx.2.1 hr).elim) ?_ hc,
    h.fresh_after ht ?_ hx.1⟩
  · intro hk hsome hmem
    simp [hh hmem hk] at hsome
  · rintro hn
    simp [hn] at hshape

theorem word_of_isPlain (hx : isPlain x) :
    (x ≠ "." ∧ x ≠ "return" ∧ isReserved x = false) ∧ x ∉ headers ∧ x ≠ ":" := by
  simp only [isPlain, Bool.and_eq_true, bne_iff_ne, Bool.not_eq_true',
    List.contains_eq_mem, decide_eq_false_iff_not] at hx
  exact ⟨⟨hx.1.1.1.1, hx.1.1.1.2, hx.2⟩, hx.1.2, hx.1.1.2⟩

theorem Amid.take_is (h : Amid g f 0 c ns s) (ht : Faces t s) (hi : t.is x) (hx : isPlain x) :
    Poised g f (weightOf x) true ns (after t s) := by
  obtain ⟨hw, hh, hc⟩ := word_of_isPlain hx
  exact h.take_word ht hi hw (fun hm => (hh hm).elim) fun he => (hc he).elim

/-- A token that is no symbol opens and closes nothing. -/
theorem Amid.take_plain (h : Amid g f 0 c ns s) (ht : Faces t s) (hs : t.shape ≠ .symbol)
    (hm : t.indent.isSome → g.marks t.row = none)
    (hr : t.text = "return" → ∀ i ∈ t.indent, f.base < i) (hh : t.text ∉ headers) :
    Amid g f 0 true ns (after t s) := by
  obtain ⟨hw, -, hcolon⟩ := (h.fits ht.head).shaped hs
  have := h.take ht hm hr (fun _ _ => hh) fun hc => (hcolon hc).elim
  rwa [hw] at this

/-- Behind the first token of a directive there is a dot. -/
theorem Amid.unmarked_of_second (h : Amid g f k c ns s) (ht : s.rest.head? = some t)
    (hu : s.rest.tail.head?.any (·.is x)) (hx : x ≠ ".") (hi : t.indent.isSome) :
    g.marks t.row = none := by
  cases hm : g.marks t.row with
  | none => rfl
  | some e =>
    obtain ⟨u, hu', hdot⟩ := ((h.fits ht).mark e hm hi).second
    rw [Option.mem_def.1 hu'] at hu
    simp only [Option.any_some, Token.is, Bool.and_eq_true, beq_iff_eq] at hu
    exact (hx (hu.2.symm.trans hdot.2.1)).elim

/-- A literal is never the first token of a directive. -/
theorem Amid.take_literal (h : Amid g f 0 c ns s) (ht : Faces t s)
    (hs : t.shape = .quoted ∨ t.shape = .number) : Amid g f 0 true ns (after t s) := by
  have hname : t.shape ≠ .name := by obtain hs | hs := hs <;> simp [hs]
  refine h.take_plain ht (by obtain hs | hs := hs <;> simp [hs]) (fun hi => ?_) ?_ ?_
  · cases hm : g.marks t.row with
    | none => rfl
    | some e => exact (hname ((h.fits ht.head).mark e hm hi).head.1).elim
  · exact fun hr => (hname ((h.fits ht.head).called (.inl hr))).elim
  · exact fun hh => hname ((h.fits ht.head).called (.inr hh))

section Elementary

theorem needed_spec (hP : ∀ s, P s → Amid g f 0 c ns s) :
    Yields P needed fun t s => P s ∧ Faces t s := by
  refine Yields.bind Yields.get fun t => ?_
  rintro s u s' ⟨hs, rfl⟩ h
  cases hr : t.rest.head? with
  | none => simp only [hr] at h; cases h
  | some v =>
    simp only [hr] at h
    split at h
    · next hc =>
      obtain ⟨rfl, rfl⟩ := pure_eq_some.1 h
      refine ⟨hs, (hP _ hs).faces hr (by simp_all) ?_⟩
      have hd := (hP _ hs).depth
      cases hi : v.indent with
      | none => simp
      | some i =>
        simp only [sameLine, hi, hd] at hc
        simp at hc
        simpa using hc.2.imp_left And.right
    · cases h

theorem inLine_spec (hP : ∀ s, P s → Amid g f 0 c ns s) :
    Yields P inLine fun o s => P s ∧ (∀ t, o = some t → Faces t s ∧ t.indent = none) ∧
      (o = none → ∀ t ∈ s.rest.head?, t.indent.isSome) := by
  intro s o s' hs h
  obtain ⟨rfl, rfl⟩ : s.rest.head?.filter (sameLine s) = o ∧ s = s' := pure_eq_some.1 h
  have ha := hP _ hs
  cases hr : s.rest.head? with
  | none => simp [hs]
  | some t =>
    have hin : sameLine s t = true → t.indent = none := by
      intro hl
      simp only [sameLine, Bool.and_eq_true, Bool.or_eq_true, decide_eq_true_eq] at hl
      obtain hd | hi := hl.2
      · exact ha.indent_eq_none (by simpa [ha.depth] using hd) hr
      · simpa using hi
    have hout : sameLine s t = false → t.indent.isSome := by
      intro hl
      cases hi : t.indent with
      | some i => rfl
      | none =>
        have hlast := (ha.fits hr).last
        simp_all [sameLine]
    refine ⟨hs, ?_, ?_⟩
    · intro u hu
      obtain ⟨rfl, hl⟩ : t = u ∧ sameLine s t = true := by
        simpa [Option.filter_some, and_comm] using hu
      have hshape : t.shape ≠ .stop := by simp_all [sameLine]
      exact ⟨ha.faces hr hshape (.inr (by simp [hin hl])), hin hl⟩
    · intro hu v hv
      obtain rfl : t = v := by simpa using hv
      exact hout (by simpa [Option.filter_some] using hu)

theorem consume_spec {Q : State → Prop} (h : ∀ s, P s → Q (after t s)) :
    Yields P (consume t) fun _ => Q :=
  Yields.modify h

theorem consume_is_spec (k : Int) (hx : isPlain x ∧ weightOf x = k) (hi : t.is x)
    (hP : ∀ s, P s → Amid g f 0 c ns s ∧ Faces t s) :
    Yields P (consume t) fun _ => Poised g f k true ns :=
  consume_spec fun s hs => hx.2 ▸ (hP s hs).1.take_is (hP s hs).2 hi hx.1

theorem looksAt_spec (hP : ∀ s, P s → Amid g f 0 c ns s) :
    Yields P (looksAt x) fun r s => P s ∧ (r = true → ∃ t, Faces t s ∧ t.indent = none ∧ t.is x) := by
  refine Yields.bind (inLine_spec hP) fun o => Yields.pure fun s hs => ⟨hs.1, fun hr => ?_⟩
  obtain ⟨t, rfl, ht⟩ := (Option.any_eq_true ..).1 hr
  obtain ⟨hf, hi⟩ := hs.2.1 t rfl
  exact ⟨t, hf, hi, ht⟩

theorem accept_word_spec (hx : x ≠ "." ∧ x ≠ "return" ∧ isReserved x = false)
    (hc : x = ":" → 2 ≤ f.rank → 0 < f.depth) (hP : ∀ s, P s → Amid g f 0 c ns s) :
    Yields P (accept x) fun r s => if r then Poised g f (weightOf x) true ns s else P s := by
  refine Yields.bind (inLine_spec hP) fun o => ?_
  cases o with
  | none => exact Yields.pure fun s hs => hs.1
  | some t =>
    refine Yields.ite (fun hi => ?_) fun _ => Yields.pure fun s hs => hs.1
    refine Yields.bind (Q := fun _ s => Poised g f (weightOf x) true ns s)
      (consume_spec fun s hs => ?_) fun _ => Yields.pure fun s hs => hs
    obtain ⟨ht, hnone⟩ := hs.2.1 t rfl
    exact (hP _ hs.1).take_word ht hi hx (fun _ _ => hnone) hc

theorem accept_spec (k : Int) (hx : isPlain x ∧ weightOf x = k)
    (hP : ∀ s, P s → Amid g f 0 c ns s) :
    Yields P (accept x) fun r s => if r then Poised g f k true ns s else P s :=
  hx.2 ▸ accept_word_spec (word_of_isPlain hx.1).1
    (fun he => ((word_of_isPlain hx.1).2.2 he).elim) hP

/-- Also where a line goes on behind its end. -/
theorem continues_spec (k : Int) (hx : isPlain x ∧ weightOf x = k)
    (hP : ∀ s, P s → Amid g f 0 c ns s) :
    Yields P (continues x) fun r s => if r then Poised g f k true ns s else P s := by
  refine Yields.bind Yields.get fun s => ?_
  split
  · next t ht =>
    refine Yields.ite (fun hi => ?_) fun _ => Yields.pure fun s hs => hs.1
    simp only [Bool.and_eq_true] at hi
    refine Yields.bind (Q := fun _ s => Poised g f k true ns s)
      (consume_spec fun s' hs => ?_) fun _ => Yields.pure fun s hs => hs
    obtain ⟨hs, rfl⟩ := hs
    rw [← hx.2]
    refine (hP _ hs).take_is ((hP _ hs).faces ht ?_ (.inr fun i hi' => ?_)) hi.1 hx.1
    · rintro hstop
      simp [Token.is, hstop] at hi
    · simpa [Option.mem_def.1 hi'] using hi.2
  · exact Yields.pure fun s hs => hs.1

/-- Behind a dot the line goes on. -/
theorem accept_dot_spec (hP : ∀ s, P s → Amid g f 0 c ns s) :
    Yields P (accept ".") fun r s =>
      if r then Amid g f 0 true ns s ∧ ∀ t ∈ s.rest.head?, t.indent = none else P s := by
  refine Yields.bind (inLine_spec hP) fun o => ?_
  cases o with
  | none => exact Yields.pure fun s hs => hs.1
  | some t =>
    refine Yields.ite (fun hi => ?_) fun _ => Yields.pure fun s hs => hs.1
    refine Yields.bind (Q := fun _ s => Amid g f 0 true ns s ∧ ∀ t ∈ s.rest.head?, t.indent = none)
      (consume_spec fun s hs => ?_) fun _ => Yields.pure fun s hs => hs
    have ha := hP _ hs.1
    obtain ⟨ht, hnone⟩ := hs.2.1 t rfl
    have hdot : t.text = "." := by simp_all [Token.is]
    have := ha.take ht (by simp [hnone]) (by simp [hdot]) (by simp [hnone]) (by simp [hdot])
    rw [hdot] at this
    exact ⟨this, (ha.fits ht.head).goesOn hdot⟩

theorem acceptAny_spec {xs : List String} (hP : ∀ s, P s → Amid g f 0 c ns s)
    (hx : ∀ x ∈ xs, isPlain x ∧ weightOf x = 0) :
    Yields P (acceptAny xs) fun r s => if r then Poised g f 0 true ns s else P s := by
  refine Yields.bind (inLine_spec hP) fun o => ?_
  cases o with
  | none => exact Yields.pure fun s hs => hs.1
  | some t =>
    refine Yields.ite (fun hi => ?_) fun _ => Yields.pure fun s hs => hs.1
    refine Yields.bind (Q := fun _ s => Poised g f 0 true ns s)
      (consume_spec fun s hs => ?_) fun _ => Yields.pure fun s hs => hs
    obtain ⟨x, hmem, hi⟩ := List.any_eq_true.1 hi
    rw [← (hx x hmem).2]
    exact (hP _ hs.1).take_is (hs.2.1 t rfl).1 hi (hx x hmem).1

theorem expect_word_spec (hx : x ≠ "." ∧ x ≠ "return" ∧ isReserved x = false)
    (hc : x = ":" → 2 ≤ f.rank → 0 < f.depth) (hP : ∀ s, P s → Amid g f 0 c ns s)
    (hh : x ∈ headers → 1 ≤ f.rank → ∀ s, P s → ∀ t ∈ s.rest.head?, t.indent = none) :
    Yields P (expect x) fun _ => Poised g f (weightOf x) true ns := by
  refine Yields.bind (needed_spec hP) fun t => Yields.ite (fun hi => ?_) fun _ => Yields.fail
  exact consume_spec fun s hs => (hP _ hs.1).take_word hs.2 hi hx
    (fun hm hk => hh hm hk s hs.1 t hs.2.head) hc

theorem expect_spec (k : Int) (hx : isPlain x ∧ weightOf x = k)
    (hP : ∀ s, P s → Amid g f 0 c ns s) : Yields P (expect x) fun _ => Poised g f k true ns :=
  hx.2 ▸ expect_word_spec (word_of_isPlain hx.1).1
    (fun he => ((word_of_isPlain hx.1).2.2 he).elim) hP
    fun hm => ((word_of_isPlain hx.1).2.1 hm).elim

/-- A colon that is taken as such stands in brackets or in front of a block. -/
theorem expect_colon_spec (hd : 2 ≤ f.rank → 0 < f.depth) (hP : ∀ s, P s → Amid g f 0 c ns s) :
    Yields P (expect ":") fun _ => Poised g f 0 true ns :=
  expect_word_spec (by decide) (fun _ => hd) hP fun hm => by simp [headers] at hm

/-- Inside brackets any word may be taken. -/
theorem expect_inside_spec (hx : x ≠ "." ∧ x ≠ "return" ∧ isReserved x = false)
    (hd : 0 < f.depth) (hP : ∀ s, P s → Amid g f 0 c ns s) :
    Yields P (expect x) fun _ => Poised g f (weightOf x) true ns :=
  expect_word_spec hx (fun _ _ => hd) hP fun _ _ s hs _ ht => (hP s hs).indent_eq_none hd ht

theorem not_header_of_not_isHard (h : isHard x = false) : x ∉ headers := by
  have hh : ∀ y ∈ headers, isHard y := by decide
  intro hx
  rw [hh x hx] at h
  cases h

/-- A name that stands behind something on its line. -/
theorem identifier_spec (hP : ∀ s, P s → Amid g f 0 c ns s ∧ ∀ t ∈ s.rest.head?, t.indent = none) :
    Yields P Grammar.identifier fun _ s => Amid g f 0 true ns s ∧ Fresh g s := by
  refine Yields.bind (needed_spec fun s hs => (hP s hs).1) fun t => ?_
  refine Yields.ite (fun hi => ?_) fun _ => Yields.fail
  refine Yields.bind (Q := fun _ s => Amid g f 0 true ns s ∧ Fresh g s)
    (consume_spec fun s hs => ?_) fun _ => Yields.pure fun s hs => hs
  obtain ⟨ha, hnone⟩ := hP _ hs.1
  simp only [isIdentifier, Bool.and_eq_true, decide_eq_true_eq, Bool.not_eq_true'] at hi
  have hshape : t.shape ≠ .symbol := by simp [hi.1]
  have hret : t.text ≠ "return" := by
    rintro hr
    simp [hr, isHard, isKeyword, keywords] at hi
  refine ⟨ha.take_plain hs.2 hshape ?_ (fun hr => (hret hr).elim) (not_header_of_not_isHard hi.2),
    ha.fresh_after hs.2 (by simp [hi.1]) ?_⟩
  · simp [hnone t hs.2.head]
  · exact ((ha.fits hs.2.head).shaped hshape).2.1

theorem nested_spec {p : Read α} {ms : α → List Node} {r : α → Prop}
    (hp : Yields (Poised g { f with depth := f.depth + 1 } 0 c ns) p fun a s =>
      Amid g { f with depth := f.depth + 1 } (-1) c' (ms a) s ∧ r a) :
    Yields (Poised g f 1 c ns) (nested p) fun a s => Amid g f 0 c' (ms a) s ∧ r a := by
  refine Yields.bind (Q := fun _ => Poised g { f with depth := f.depth + 1 } 0 c ns)
    (Yields.modify fun s hs => ?_) fun _ => Yields.bind hp fun a => ?_
  · obtain ⟨ha, hf⟩ := hs
    obtain ⟨seg, hm, hc⟩ := ha.moves
    refine ⟨⟨ha.sheet, ha.bound, ha.indent, by simp [ha.depth], ?_, ha.outside, seg,
      hm.setLevel _ _, hc⟩, hf⟩
    have ho := ha.owed
    push_cast
    omega
  · refine Yields.bind (Q := fun _ s => Amid g f 0 c' (ms a) s ∧ r a)
      (Yields.modify fun s hs => ?_) fun _ => Yields.pure fun s hs => hs
    obtain ⟨ha, hr⟩ := hs
    obtain ⟨seg, hm, hc⟩ := ha.moves
    refine ⟨⟨ha.sheet, ha.bound, ha.indent, by simp [ha.depth], ?_, ha.outside, seg,
      hm.setLevel _ _, hc⟩, hr⟩
    have ho := ha.owed
    push_cast at ho
    change owed s.rest = _
    omega

end Elementary

section Choice

variable {p q : Read α} {Q : α → State → Prop}

theorem accept_word_then (hx : x ≠ "." ∧ x ≠ "return" ∧ isReserved x = false)
    (hc : x = ":" → 2 ≤ f.rank → 0 < f.depth) (hP : ∀ s, P s → Amid g f 0 c ns s)
    (hp : Yields (Poised g f (weightOf x) true ns) p Q) (hq : Yields P q Q) :
    Yields P (do if ← accept x then p else q) Q := by
  refine Yields.bind (accept_word_spec hx hc hP) fun r => ?_
  cases r with
  | false => simpa using hq
  | true => simpa using hp

theorem accept_then (k : Int) (hx : isPlain x ∧ weightOf x = k)
    (hP : ∀ s, P s → Amid g f 0 c ns s) (hp : Yields (Poised g f k true ns) p Q)
    (hq : Yields P q Q) : Yields P (do if ← accept x then p else q) Q :=
  accept_word_then (word_of_isPlain hx.1).1 (fun he => ((word_of_isPlain hx.1).2.2 he).elim) hP
    (hx.2 ▸ hp) hq

theorem accept_colon_then (hd : 2 ≤ f.rank → 0 < f.depth) (hP : ∀ s, P s → Amid g f 0 c ns s)
    (hp : Yields (Poised g f 0 true ns) p Q) (hq : Yields P q Q) :
    Yields P (do if ← accept ":" then p else q) Q :=
  accept_word_then (by decide) (fun _ => hd) hP hp hq

theorem acceptAny_then {xs : List String} (hx : ∀ x ∈ xs, isPlain x ∧ weightOf x = 0)
    (hP : ∀ s, P s → Amid g f 0 c ns s) (hp : Yields (Poised g f 0 true ns) p Q)
    (hq : Yields P q Q) : Yields P (do if ← acceptAny xs then p else q) Q := by
  refine Yields.bind (acceptAny_spec hP hx) fun r => ?_
  cases r with
  | false => simpa using hq
  | true => simpa using hp

theorem looksAt_then (hP : ∀ s, P s → Amid g f 0 c ns s)
    (hp : Yields (fun s => P s ∧ ∃ t, Faces t s ∧ t.indent = none ∧ t.is x) p Q)
    (hq : Yields P q Q) : Yields P (do if ← looksAt x then p else q) Q := by
  refine Yields.bind (looksAt_spec hP) fun r => ?_
  cases r with
  | false => simpa using hq
  | true => simpa using hp

end Choice

/-- A reader that keeps its place, wherever it starts from under the condition `pre`. -/
def Keeps (g : Page) (pre : Frame → Prop) (c : Bool) (p : Read α) (nodes : α → List Node) : Prop :=
  ∀ f, Amid g f 0 false [] f.start → pre f →
    ∀ a s, p f.start = some (a, s) → Amid g f 0 c (nodes a) s

namespace Keeps

variable {pre : Frame → Prop} {p : Read α} {nodes : α → List Node}

theorem of_yields (h : ∀ f : Frame,
    Yields (fun s => Amid g f 0 false [] s ∧ pre { f with start := s }) p fun a => Amid g f 0 c (nodes a)) :
    Keeps g pre c p nodes :=
  fun f ha hs _ _ hp => h f ⟨ha, hs⟩ hp

/-- The nodes of a reader come behind those that are there already. -/
theorem spec (h : Keeps g pre c p nodes) (hP : ∀ s, P s → Amid g f 0 c' ns s ∧ pre { f with start := s }) :
    Yields P p fun a => Amid g f 0 (c || c') (ns ++ nodes a) := by
  intro s a s' hs hp
  obtain ⟨ha, hpre⟩ := hP s hs
  exact ha.trans (h { f with start := s } (ha.start f.rank) hpre a s' hp) le_rfl

theorem first (h : Keeps g pre c p nodes) (hP : ∀ s, P s → Amid g f 0 c' [] s ∧ pre { f with start := s }) :
    Yields P p fun a => Amid g f 0 (c || c') (nodes a) :=
  h.spec hP

end Keeps

/-- A reader of operands: it is called where one begins, and gives one node. -/
abbrev Reads (g : Page) (p : Read Node) : Prop :=
  Keeps g (fun f => Fresh g f.start) true p fun n => [n]

section Parts

variable {pre : Frame → Prop}

theorem spanned_spec {p : Read (Kind × List Node)} (hP : ∀ s, P s → Amid g f 0 c ns s)
    (h : Yields P p fun r s => Amid g f 0 c' r.2 s ∧ r.1 ≠ .call) :
    Yields P (spanned p) fun n => Amid g f 0 c' [n] := by
  refine Yields.bind (needed_spec hP) fun t => ?_
  refine Yields.bind (h.weaken fun s hs => hs.1) fun r => ?_
  exact Yields.bind Yields.get fun _ => Yields.pure fun s hs => hs.1.1.wrap hs.1.2

theorem spanned_keeps {p : Read (Kind × List Node)} (h : ∀ f : Frame,
    Yields (fun s => Amid g f 0 false [] s ∧ pre { f with start := s }) p fun r s =>
      Amid g f 0 c r.2 s ∧ r.1 ≠ .call) :
    Keeps g pre c (spanned p) fun n => [n] :=
  Keeps.of_yields fun f => spanned_spec (fun _ hs => hs.1) (h f)

theorem grown_spec {first : Node} {kind : Kind} {children : List Node} (hk : kind ≠ .call)
    (hP : ∀ s, P s → Amid g f 0 c children s) :
    Yields P (grown first kind children) fun n => Amid g f 0 c [n] :=
  Yields.bind Yields.get fun _ => Yields.pure fun s hs => (hP s hs.1).wrap hk

/-- Where a part stands that was read from `s₀` on. -/
structure Spans (s₀ : State) (n : Node) (s : State) : Prop where
  start : ∀ t ∈ s₀.rest.head?, n.extent.start = t.start ∧ n.extent.row = t.row
  stop : n.extent.stop = s.stop
  endRow : n.extent.endRow = s.endRow

theorem spanned_spans {p : Read (Kind × List Node)} : Yields (· = s₀) (spanned p) (Spans s₀) := by
  refine Yields.bind needed_head fun t => ?_
  refine Yields.bind (Q := fun _ _ => s₀.rest.head? = some t) (fun _ _ _ hs _ => hs.1) fun r => ?_
  refine Yields.bind Yields.get fun _ => Yields.pure fun s hs => ⟨fun u hu => ?_, ?_, ?_⟩
  · obtain rfl : t = u := Option.some.inj (hs.1.symm.trans hu)
    exact ⟨rfl, rfl⟩
  · exact congrArg State.stop hs.2
  · exact congrArg State.endRow hs.2

theorem grown_spans {first : Node} {kind : Kind} {children : List Node}
    (hP : ∀ s, P s → ∀ t ∈ s₀.rest.head?, first.extent.start = t.start ∧ first.extent.row = t.row) :
    Yields P (grown first kind children) (Spans s₀) := by
  refine Yields.bind Yields.get fun _ => Yields.pure fun s hs => ⟨hP s hs.1, ?_, ?_⟩
  · exact congrArg State.stop hs.2
  · exact congrArg State.endRow hs.2

end Parts

end Stencil.Flatten
