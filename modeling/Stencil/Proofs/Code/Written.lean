import Stencil.Proofs.Code.Run

/-! The tokens of a line of code, part by part. -/
namespace Stencil.Code
open Text Token

variable {a : Atom} {as bs : List Atom} {c c' : Cursor} {d e : Char} {cs rest : List Char}
  {g : Gap} {n k r o : Nat} {i : Option Nat} {t : Token} {ts us : List Token} {s : String}

namespace Atom

/-- A part that is a token or several of them. -/
def Valid : Atom → Prop
  | word cs | member cs => isIdentifier cs
  | number cs => Run cs ∧ cs ≠ []
  | quoted cs => Literal cs
  | symbol s => s ∈ symbols ∧ s ≠ "."
  | blank => True

/-- Holds if a part ends in front of a character. -/
def stops : Atom → Char → Bool
  | word _, c | member _, c => endsName c
  | number _, c => endsNumber c
  | quoted _, c => !isQuote c
  | symbol s, c => !joins s c
  | blank, _ => true

/-- The character that some parts begin with; if there is none, the one behind them. -/
def first (as : List Atom) (c : Char) : Char := (spell as).head?.getD c

/-- Every part ends where the next one begins, the last one in front of `c`. -/
def Fit : List Atom → Char → Prop
  | [], _ => True
  | a :: as, c => a.stops (first as c) ∧ Fit as c

theorem stops_first (h : a.stops (first as e)) (hd : d ∈ (spell as ++ e :: rest).head?) : a.stops d := by
  cases hspell : spell as with
  | nil => simp_all [first]
  | cons b bs => simp_all [first]

theorem spell_append (as bs : List Atom) : spell (as ++ bs) = spell as ++ spell bs :=
  List.flatMap_append

theorem spell_cons (a : Atom) (as : List Atom) : spell (a :: as) = a.chars ++ spell as :=
  List.flatMap_cons

theorem Valid.solid (h : a.Valid) (ha : a ≠ blank) : ∃ d cs, a.chars = d :: cs ∧ isSolid d := by
  have hname {cs : List Char} (h : isIdentifier cs) : ∃ d ds, cs = d :: ds ∧ isSolid d := by
    cases cs with
    | nil => simp [isIdentifier] at h
    | cons d ds => exact ⟨d, ds, rfl, isSolid_of_continue (continue_of_mem_identifier h d (by simp))⟩
  cases a with
  | word cs => exact hname h
  | number cs =>
    obtain ⟨d, ds, rfl⟩ := List.exists_cons_of_ne_nil h.2
    exact ⟨d, ds, rfl, isSolid_of_isRunChar (h.1.chars d (by simp))⟩
  | quoted cs =>
    obtain ⟨q, inside, hq, rfl, -⟩ := h.quoted
    refine ⟨q, inside ++ [q], rfl, ?_⟩
    simp only [isQuote, Bool.or_eq_true, beq_iff_eq] at hq
    obtain rfl | rfl := hq <;> decide
  | symbol s =>
    obtain ⟨d, ds, hs, hd, -⟩ := head_of_symbol s h.1
    exact ⟨d, ds, hs, hd⟩
  | member cs => exact ⟨'.', cs, rfl, by decide⟩
  | blank => exact absurd rfl ha

end Atom

namespace Token

def tokenOf (r : Nat) (g : Gap) (o : Nat) (shape : Shape) (cs : List Char) : Token :=
  ⟨shape, String.ofList cs, o, o + cs.length, r, r, g.indent, g.comments⟩

/-- What lies between the tokens of a line. -/
def within : Gap := ⟨none, []⟩

/-- The tokens of some parts in row `r` from offset `o` on, with `g` in front of them. -/
inductive Written (r : Nat) : Gap → Nat → List Atom → List Token → Prop
  | nil (g : Gap) (o : Nat) : Written r g o [] []
  | blank {g : Gap} {o : Nat} {as : List Atom} {ts : List Token} (h : Written r g (o + 1) as ts) :
      Written r g o (.blank :: as) ts
  | word {g : Gap} {o : Nat} {cs : List Char} {as : List Atom} {ts : List Token}
      (h : Written r within (o + cs.length) as ts) :
      Written r g o (.word cs :: as) (tokenOf r g o .name cs :: ts)
  | quoted {g : Gap} {o : Nat} {cs : List Char} {as : List Atom} {ts : List Token}
      (h : Written r within (o + cs.length) as ts) :
      Written r g o (.quoted cs :: as) (tokenOf r g o .quoted cs :: ts)
  | symbol {g : Gap} {o : Nat} {s : String} {as : List Atom} {ts : List Token}
      (h : Written r within (o + s.toList.length) as ts) :
      Written r g o (.symbol s :: as) (tokenOf r g o .symbol s.toList :: ts)
  | member {g : Gap} {o : Nat} {cs : List Char} {as : List Atom} {ts : List Token}
      (h : Written r within (o + 1 + cs.length) as ts) :
      Written r g o (.member cs :: as)
        (tokenOf r g o .symbol ['.'] :: tokenOf r within (o + 1) .name cs :: ts)
  | number {g : Gap} {o : Nat} {cs : List Char} {as : List Atom} {us ts : List Token}
      (hcs : Scraps cs r g us) (h : Written r within (o + cs.length) as ts) :
      Written r g o (.number cs :: as) (us ++ ts)

theorem Cursor.advance_append (h : c.rest = cs ++ rest) (hcs : '\n' ∉ cs) :
    c.advance cs.length = ⟨rest, c.offset + cs.length, c.row⟩ := by
  have hrow := row_advance_append h hcs le_rfl
  simp only [advance] at hrow
  simp [advance, h, newlines, List.count_eq_zero.2 hcs]

/-- A part that is one token. -/
theorem allFrom_single {shape : Shape} (cs : List Char) (h : allFrom n i c = some ts) (hs : Skips ⟨i, []⟩ c g c')
    (hc' : c'.rest = cs ++ rest) (hcs : '\n' ∉ cs) (hscan : scan (cs ++ rest) = some (shape, cs.length))
    (hshape : shape ≠ .stop) :
    ∃ m us, ts = tokenOf c'.row g c'.offset shape cs :: us ∧
      allFrom m none (c'.advance cs.length) = some us := by
  obtain ⟨m, us, rfl, hus⟩ := allFrom_next h hs (by rwa [hc']) hshape
  refine ⟨m, us, ?_, hus⟩
  have hrow := Cursor.row_advance_append hc' hcs le_rfl
  have hoffset : (c'.advance cs.length).offset = c'.offset + cs.length := by
    simp [Cursor.advance, hc']
  rw [tokenAt, hrow, hoffset, hc', List.take_left']
  · rfl
  · rfl

theorem not_newline_of_isIdentifier (h : isIdentifier cs) : '\n' ∉ cs := fun hn => by
  have := continue_of_mem_identifier h _ hn
  revert this
  decide

theorem symbol_not_newline : ∀ s ∈ symbols, '\n' ∉ s.toList := by decide

theorem not_newline_of_valid (h : a.Valid) : '\n' ∉ a.chars := by
  cases a with
  | word cs => exact not_newline_of_isIdentifier h
  | number cs => exact h.1.not_newline
  | quoted cs => exact Literal.not_newline h
  | symbol s => exact symbol_not_newline s h.1
  | member cs => simpa [Atom.chars] using not_newline_of_isIdentifier h
  | blank => decide

section Parts

variable (h : allFrom n i c = some ts) (hs : Skips ⟨i, []⟩ c g c')
include h hs

/-- A point and the name behind it. -/
theorem allFrom_member (hcs : isIdentifier cs) (hrest : ∀ d ∈ rest.head?, endsName d)
    (hc' : c'.rest = '.' :: cs ++ rest) :
    ∃ m us, ts = tokenOf c'.row g c'.offset .symbol ['.'] ::
        tokenOf c'.row within (c'.offset + 1) .name cs :: us ∧
      allFrom m none (c'.advance (cs.length + 1)) = some us := by
  obtain ⟨d, ds, hd⟩ : ∃ d ds, cs = d :: ds := List.exists_cons_of_ne_nil (by rintro rfl; cases hcs)
  have hhead : ∀ e ∈ (cs ++ rest).head?, e = d := by simp [hd]
  have hstart : isIdentifierStart d := by
    simp only [hd, isIdentifier, Bool.and_eq_true] at hcs
    exact hcs.1
  have hdot : scan (['.'] ++ (cs ++ rest)) = some (.symbol, ['.'].length) := by
    refine scan_symbol (s := ".") (by decide) (fun e he => ?_) fun _ e he => ?_
    · rw [hhead e he]
      exact joins_continue (continue_of_start hstart) _
    · rw [hhead e he]
      exact isDigit_of_isIdentifierStart hstart
  obtain ⟨m, us, rfl, hus⟩ := allFrom_single ['.'] h hs hc' (by decide) hdot (by decide)
  have hrest' : (c'.advance 1).rest = cs ++ rest := by simp [Cursor.advance, hc']
  have hskip : Skips within (c'.advance 1) within (c'.advance 1) :=
    .here (by rw [hrest', hd]; rfl) (isSolid_of_continue (continue_of_start hstart))
  obtain ⟨m', ws, rfl, hws⟩ := allFrom_single cs hus hskip hrest' (not_newline_of_isIdentifier hcs)
    (scan_word hcs hrest) (by decide)
  have hrow : (c'.advance 1).row = c'.row :=
    Cursor.row_advance_append (show c'.rest = ['.'] ++ (cs ++ rest) from hc') (by decide) le_rfl
  have hoffset : (c'.advance 1).offset = c'.offset + 1 := by simp [Cursor.advance, hc']
  rw [Cursor.advance_advance, Nat.add_comm] at hws
  exact ⟨m', ws, by rw [hrow, hoffset], hws⟩

theorem allFrom_part (ha : a.Valid) (hb : a ≠ .blank) (hstop : ∀ d ∈ rest.head?, a.stops d)
    (hc' : c'.rest = a.chars ++ rest) :
    ∃ us ws m, ts = us ++ ws ∧
      (∀ as vs, Written c'.row within (c'.offset + a.chars.length) as vs →
        Written c'.row g c'.offset (a :: as) (us ++ vs)) ∧
      allFrom m none (c'.advance a.chars.length) = some ws := by
  cases a with
  | word cs =>
    obtain ⟨m, us, rfl, hus⟩ := allFrom_single cs h hs hc' (not_newline_of_isIdentifier ha)
      (scan_word ha hstop) (by decide)
    exact ⟨[_], us, m, rfl, fun as vs hv => .word hv, hus⟩
  | number cs =>
    obtain ⟨us, ws, m, rfl, hscraps, hws⟩ := allFrom_run ha.1 ha.2 hstop h hs hc'
    exact ⟨us, ws, m, rfl, fun as vs hv => .number hscraps hv, hws⟩
  | quoted cs =>
    obtain ⟨m, us, rfl, hus⟩ := allFrom_single cs h hs hc' (Literal.not_newline ha)
      (scan_quoted ha fun d hd => by simpa [Atom.stops] using hstop d hd) (by decide)
    exact ⟨[_], us, m, rfl, fun as vs hv => .quoted hv, hus⟩
  | symbol s =>
    obtain ⟨m, us, rfl, hus⟩ := allFrom_single s.toList h hs hc' (symbol_not_newline s ha.1)
      (by
        rw [String.length_toList]
        exact scan_symbol ha.1 (fun d hd => by simpa [Atom.stops] using hstop d hd)
          fun hs => absurd hs ha.2) (by decide)
    exact ⟨[_], us, m, rfl, fun as vs hv => .symbol hv, hus⟩
  | member cs =>
    obtain ⟨m, us, rfl, hus⟩ := allFrom_member h hs ha hstop hc'
    exact ⟨[_, _], us, m, rfl,
      fun as vs hv => .member (by rwa [Nat.add_assoc, Nat.add_comm 1]), hus⟩
  | blank => exact absurd rfl hb

end Parts

theorem advance_part (ha : a.Valid) (hc' : c'.rest = a.chars ++ rest) :
    c'.advance a.chars.length = ⟨rest, c'.offset + a.chars.length, c'.row⟩ :=
  Cursor.advance_append hc' (not_newline_of_valid ha)

open Atom in
/-- The parts behind the first one of a line. Blanks in front of them belong to no token. -/
theorem allFrom_behind {d : Cursor} (has : ∀ a ∈ as, a.Valid) (hfit : Fit as e) (h : allFrom n i c = some ts)
    (hskip : ∀ g' e', Skips within d g' e' → Skips ⟨i, []⟩ c g' e')
    (hd : d.rest = spell as ++ e :: rest) :
    ∃ us ws m j c₁, ts = us ++ ws ∧ Written d.row within d.offset as us ∧ allFrom m j c₁ = some ws ∧
      ∀ g' e', Skips within (d.advance (spell as).length) g' e' → Skips ⟨j, []⟩ c₁ g' e' := by
  induction as generalizing c d n i ts with
  | nil => exact ⟨[], ts, n, i, c, rfl, .nil .., h, hskip⟩
  | cons a as ih =>
    rw [spell_cons, List.append_assoc] at hd
    have hadvance := advance_part (has a (by simp)) hd
    have has' : ∀ b ∈ as, b.Valid := fun b hb => has b (by simp [hb])
    rw [spell_cons, List.length_append, ← Cursor.advance_advance, hadvance]
    by_cases hblank : a = .blank
    · subst hblank
      obtain ⟨us, ws, m, j, c₁, rfl, hwritten, hws⟩ := ih (d := ⟨_, d.offset + 1, d.row⟩) has' hfit.2 h
        (fun g' e' hs => hskip g' e' (.space hd (hadvance ▸ hs))) rfl
      exact ⟨us, ws, m, j, c₁, rfl, .blank hwritten, hws⟩
    · obtain ⟨b, bs, hb, hsolid⟩ := (has a (by simp)).solid hblank
      have hs := hskip _ _ (.here (by rw [hd, hb]; rfl) hsolid)
      obtain ⟨us, ws, m, rfl, hpart, hws⟩ := allFrom_part h hs (has a (by simp)) hblank
        (fun e he => stops_first hfit.1 he) hd
      rw [hadvance] at hws
      obtain ⟨vs, ws, m', j, c₁, rfl, hwritten, hws', hafter⟩ :=
        ih (d := ⟨_, _, _⟩) has' hfit.2 hws (fun _ _ hs => hs) rfl
      exact ⟨us ++ vs, ws, m', j, c₁, by simp, hpart _ _ hwritten, hws', hafter⟩

open Atom in
/-- The parts of a line one after the other. -/
theorem allFrom_written (has : ∀ b ∈ a :: as, b.Valid) (hb : a ≠ .blank) (hfit : Fit (a :: as) e)
    (h : allFrom n i c = some ts) (hs : Skips ⟨i, []⟩ c g c')
    (hc' : c'.rest = spell (a :: as) ++ e :: rest) :
    ∃ us ws m j c₁, ts = us ++ ws ∧ Written c'.row g c'.offset (a :: as) us ∧ allFrom m j c₁ = some ws ∧
      ∀ g' d', Skips within (c'.advance (spell (a :: as)).length) g' d' → Skips ⟨j, []⟩ c₁ g' d' := by
  rw [spell_cons, List.append_assoc] at hc'
  obtain ⟨us, ws, m, rfl, hpart, hws⟩ := allFrom_part h hs (has a (by simp)) hb
    (fun d hd => stops_first hfit.1 hd) hc'
  rw [advance_part (has a (by simp)) hc'] at hws
  obtain ⟨vs, ws, m', j, c₁, rfl, hwritten, hws', hafter⟩ :=
    allFrom_behind (d := ⟨_, _, _⟩) (fun b hb => has b (by simp [hb])) hfit.2 hws (fun _ _ hs => hs) rfl
  rw [spell_cons, List.length_append, ← Cursor.advance_advance, advance_part (has a (by simp)) hc']
  exact ⟨us ++ vs, ws, m', j, c₁, by simp, hpart _ _ hwritten, hws', hafter⟩

end Token

end Stencil.Code
