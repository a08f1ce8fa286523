import Stencil.Proofs.Flatten.Marked
import Stencil.Proofs.Flatten.Shapes

/-! The tokens of one row, and what they need to be part of a sheet. -/
namespace Stencil.Flatten
open Code Token Text

variable {g : Page} {r : Nat} {t u v : Token} {ts us vs : List Token} {clean : Prop} {free : Bool}

/-- What is taken of the runtime module is no directive. -/
def Drawn (t : Token) (ts : List Token) : Prop :=
  t.text = "_jt_rt" → ∃ dot name rest, ts = dot :: name :: rest ∧ dot.text = "." ∧
    dot.start = t.stop ∧ name.start = dot.stop ∧ name.shape = .name ∧ name.text ≠ "extends" ∧
      name.text ≠ "include"

/-- What an operand may begin with is no lead and, with `clean`, no name of a directive. A name
behind a number or a point begins none. -/
def Readable (clean : Prop) : Bool → List Token → Prop
  | _, [] => True
  | free, t :: ts => (free → isLead t = false ∧ (clean → Drawn t ts)) ∧
      Readable clean (t.shape ≠ .number && t.text ≠ ".") ts

/-- The tokens of a row that is like its page says. -/
structure Strip (g : Page) (r : Nat) (us : List Token) : Prop where
  tokens : ∀ t ∈ us, Shaped t ∧ t.comments = [] ∧ t.row = r ∧ t.endRow = r
  head : ∃ t ∈ us.head?, ∃ i ∈ t.indent, g.indentOf r ≤ i ∧
    (t.text ≠ "=" → g.indentOf r = i ∧ i % 4 = 0) ∧ (g.isHeader r ↔ t.text ∈ headers) ∧
      (t.text = "else" → ∃ u ∈ us.tail.head?, u.text = ":")
  others : ∀ t ∈ us.tail, t.indent = none
  balanced : owed us = 0
  readable : Readable (g.marks r = none) true us
  point : ∀ t ∈ us.getLast?, t.text ≠ "."
  /-- The colon of a header stands at its end and is the only one outside of brackets. -/
  colon : g.isHeader r → ∃ ts t, us = ts ++ [t] ∧ t.text = ":" ∧
    ∀ a u b, ts = a ++ u :: b → u.text = ":" → owed (u :: b) ≠ 0
  mark : ∀ d ∈ g.marks r, ∀ ts : List Token, (∀ t ∈ ts.head?, t.indent.isSome) →
    Spells g.source d (us ++ ts)

/-- The tokens of the rows below a row. -/
structure Below (g : Page) (r : Nat) (ts : List Token) : Prop where
  sheet : Sheet g ts
  owed : owed ts = 0
  head : ∃ v ∈ ts.head?, v.indent.isSome ∧ v.row = r + 1
  indent : if g.isHeader r then g.indentOf (r + 1) = g.indentOf r + 4
    else g.indentOf (r + 1) ≤ g.indentOf r

theorem Below.owed_append (h : Below g r ts) (us : List Token) : Flatten.owed (us ++ ts) = Flatten.owed us := by
  rw [Flatten.owed_append, h.owed, Int.add_zero]

/-- Tokens stand where their extents say, one after the other. -/
structure InPlace (source : List Char) (ts : List Token) : Prop where
  placed : ∀ t ∈ ts, Placed source t
  ordered : ts.Pairwise fun t u => t.stop ≤ u.start

theorem InPlace.tail {source : List Char} (h : InPlace source (t :: ts)) : InPlace source ts :=
  ⟨fun u hu => h.placed u (by simp [hu]), (List.pairwise_cons.1 h.ordered).2⟩

theorem InPlace.of_append {source : List Char} (h : InPlace source (us ++ ts)) : InPlace source ts :=
  ⟨fun u hu => h.placed u (by simp [hu]), (List.pairwise_append.1 h.ordered).2.1⟩

/-- What may begin an operand does. -/
theorem InPlace.front {source : List Char} (h : InPlace source (us ++ ts)) : InPlace source us :=
  ⟨fun u hu => h.placed u (by simp [hu]), (List.pairwise_append.1 h.ordered).1⟩

theorem opens_of_readable (h : InPlace g.source (t :: ts)) (ht : Shaped t)
    (hus : ∀ u ∈ us, Shaped u) (hts : ts = us ++ vs)
    (hread : isLead t = false ∧ (g.marks t.row = none → Drawn t us)) : Opens g t ts := by
  refine ⟨hread.1, fun hm u hu => ?_⟩
  have hplaced := h.placed t (by simp)
  have hnames : ∀ x ∈ directiveNames, slice g.source t.start u.stop ≠ x := by
    intro x hx
    by_cases htext : t.text = "_jt_rt"
    · obtain ⟨dot, name, rest, rfl, hdot, hstart, hname, hshape, hne⟩ := hread.2 hm htext
      obtain ⟨hfirst, horder⟩ := List.pairwise_cons.1 h.ordered
      subst hts
      obtain ⟨-, horder⟩ := List.pairwise_cons.1 horder
      obtain ⟨hbehind, -⟩ := List.pairwise_cons.1 horder
      have hidentifier : isIdentifier name.text.toList := by
        simpa [Shaped, hshape] using hus name (by simp)
      refine slice_of_member hplaced (h.placed dot (by simp)) (h.placed name (by simp)) htext hdot
        hstart hname hshape hidentifier hne ?_ hx
      have hstop := (h.placed u hu).stop
      rcases List.mem_cons.1 hu with rfl | hu
      · exact .inl rfl
      rcases List.mem_cons.1 hu with rfl | hu
      · exact .inr (.inl rfl)
      rcases List.mem_cons.1 hu with rfl | hu
      · exact .inr (.inr (.inl rfl))
      · have := hbehind u hu
        exact .inr (.inr (.inr (by omega)))
    · exact slice_of_text_ne hplaced (.inl ht) htext hx
  exact ⟨hnames _ (by simp [directiveNames]), hnames _ (by simp [directiveNames])⟩

section Rows

variable {a c : List Token} (h : Strip g r (a ++ t :: c)) (hbelow : Below g r ts)
  (hplace : InPlace g.source (t :: (c ++ ts))) (hread : Readable (g.marks r = none) free (t :: c))
include h

theorem Strip.token : Shaped t ∧ t.comments = [] ∧ t.row = r ∧ t.endRow = r := h.tokens t (by simp)

/-- Behind its first token a row starts no line. -/
theorem Strip.behind : ∀ u ∈ c, u.indent = none := by
  intro u hu
  refine h.others u ?_
  cases a <;> simp [hu]

theorem Strip.first (hi : t.indent.isSome) : a = [] := by
  cases a with
  | nil => rfl
  | cons b a =>
    have := h.others t (by simp)
    simp [this] at hi

theorem Strip.last_of_header (hheader : g.isHeader r) (hc : c = []) : t.text = ":" := by
  obtain ⟨bs, last, hsplit, hcolon, -⟩ := h.colon hheader
  subst hc
  obtain ⟨-, hlast⟩ := List.append_inj' hsplit rfl
  rwa [List.singleton_inj.1 hlast]

/-- Inside a header no colon stands outside of brackets. -/
theorem Strip.inner_colon (hheader : g.isHeader r) (hc : c ≠ []) (htext : t.text = ":") :
    owed (t :: c) ≠ 0 := by
  obtain ⟨bs, last, hsplit, hcolon, hinner⟩ := h.colon hheader
  obtain ⟨d, x, rfl⟩ : ∃ d x, c = d ++ [x] := ⟨_, _, (List.dropLast_append_getLast hc).symm⟩
  rw [← List.cons_append, ← List.append_assoc] at hsplit
  obtain ⟨hbs, hlast⟩ := List.append_inj' hsplit rfl
  obtain rfl := List.singleton_inj.1 hlast
  have hweight : owed [x] = 0 := by simp [owed, hcolon, weightOf]
  rw [← List.cons_append, owed_append, hweight, Int.add_zero]
  exact hinner a t d hbs.symm htext

theorem Strip.opens (hplace : InPlace g.source (t :: (c ++ ts)))
    (hread : Readable (g.marks r = none) free (t :: c)) (hfree : free) : Opens g t (c ++ ts) := by
  have hshaped : ∀ u ∈ c, Shaped u := fun u hu => (h.tokens u (by simp [hu])).1
  refine opens_of_readable hplace h.token.1 hshaped rfl ?_
  rw [h.token.2.2.1]
  exact hread.1 hfree

include hbelow

/-- The next token is on the row, or starts the one below. -/
theorem Strip.next (hu : u ∈ (c ++ ts).head?) :
    (c = [] ∧ u.indent.isSome ∧ u.row = r + 1) ∨ (u ∈ c ∧ u.indent = none ∧ u.row = r) := by
  cases c with
  | nil =>
    obtain ⟨v, hv, hsome, hrow⟩ := hbelow.head
    obtain rfl : u = v := Option.some.inj (hu.symm.trans hv)
    exact .inl ⟨rfl, hsome, hrow⟩
  | cons x c =>
    obtain rfl : x = u := by simpa using hu
    exact .inr ⟨by simp, h.behind x (by simp), (h.tokens x (by simp)).2.2.1⟩

include hplace hread

theorem Strip.fits (hfree : a = [] → free) : Fits g t (c ++ ts) := by
  obtain ⟨hshaped, hquiet, hrow, hend⟩ := h.token
  obtain ⟨first, hfirst, i, hi, hstart, haligned, hheaded, helse⟩ := h.head
  have hstarts (hsome : t.indent.isSome) : a = [] ∧ t = first := by
    obtain rfl := h.first hsome
    exact ⟨rfl, by simpa using hfirst⟩
  exact {
    level := fun hsome => by
      obtain ⟨rfl, -⟩ := hstarts hsome
      rw [← List.cons_append, hbelow.owed_append]
      exact h.balanced
    last := fun hs => (hshaped.not_stop hs).elim
    quiet := hquiet
    flat := hend.trans hrow.symm
    row := fun u hu hui => by
      rcases h.next hbelow hu with ⟨-, hsome, -⟩ | ⟨-, -, hur⟩
      · simp [hui] at hsome
      · exact hur.trans hrow.symm
    next := fun u hu hui => by
      rcases h.next hbelow hu with ⟨-, -, hur⟩ | ⟨-, hnone, -⟩
      · rw [hur, hrow]
      · simp [hnone] at hui
    start := fun j hj => by
      obtain ⟨-, rfl⟩ := hstarts (Option.isSome_of_mem hj)
      obtain rfl : i = j := Option.some.inj (hi.symm.trans hj)
      rw [hrow]
      exact ⟨hstart, haligned⟩
    headed := fun hsome => by
      obtain ⟨-, rfl⟩ := hstarts hsome
      rw [hrow]
      exact hheaded
    deeper := fun u hu hui => by
      rcases h.next hbelow hu with ⟨hc, -, hur⟩ | ⟨-, hnone, -⟩
      · have hindent := hbelow.indent
        rw [hrow, hur]
        split
        · next hheader =>
          rw [if_pos hheader] at hindent
          have hcolon := h.last_of_header hheader hc
          refine ⟨hcolon, ?_, hindent⟩
          rw [← List.cons_append, hbelow.owed_append, hc]
          simp [owed, hcolon, weightOf]
        · next hheader => rwa [if_neg hheader] at hindent
      · simp [hnone] at hui
    colon := fun hheader hcolon hzero u hu => by
      rcases h.next hbelow hu with ⟨-, hsome, -⟩ | ⟨hc, -, -⟩
      · exact hsome
      · rw [← List.cons_append, hbelow.owed_append] at hzero
        exact absurd hzero (h.inner_colon (hrow ▸ hheader) (List.ne_nil_of_mem hc) hcolon)
    otherwise := fun htext hsome => by
      obtain ⟨rfl, rfl⟩ := hstarts hsome
      obtain ⟨u, hu, hcolon⟩ := helse htext
      exact ⟨u, List.mem_head?_append_of_mem_head? hu, hcolon⟩
    shaped := hshaped.shaped
    called := hshaped.called
    equals := fun htext => by
      by_contra hs
      exact hshaped.text_ne hs (by decide) htext
    lead := fun hsome => h.opens hplace hread (hfree (hstarts hsome).1)
    fresh := fun u us hus => by
      cases c with
      | nil =>
        obtain ⟨v, hv, hsome, -⟩ := hbelow.head
        rw [List.nil_append] at hus
        obtain rfl : u = v := by simpa [hus] using hv
        exact .inl ((hus ▸ hbelow.sheet : Sheet g (u :: us)).fits.lead hsome)
      | cons x c =>
        obtain ⟨rfl, rfl⟩ := List.cons.inj hus
        by_cases hflag : (t.shape ≠ .number && t.text ≠ ".") = true
        · rw [← List.singleton_append, ← List.append_assoc] at h
          exact .inl (h.opens hplace.tail hread.2 hflag)
        · right
          by_cases hn : t.shape = .number
          · exact .inl hn
          · simp only [ne_eq, hn, not_false_eq_true, decide_true, Bool.true_and, decide_eq_true_eq,
              Decidable.not_not] at hflag
            exact .inr hflag
    goesOn := fun htext u hu => by
      rcases h.next hbelow hu with ⟨rfl, -⟩ | ⟨-, hnone, -⟩
      · exact absurd htext (h.point t (by simp))
      · exact hnone
    single := hshaped.single
    mark := fun d hd hsome => by
      obtain ⟨rfl, -⟩ := hstarts hsome
      obtain ⟨v, hv, hvsome, -⟩ := hbelow.head
      exact h.mark d (hrow ▸ hd) ts fun u hu => Option.some.inj (hu.symm.trans hv) ▸ hvsome }

end Rows

/-- A row on top of a sheet. -/
theorem Strip.sheet (h : Strip g r us) (hbelow : Below g r ts) (hplace : InPlace g.source (us ++ ts)) :
    Sheet g (us ++ ts) := by
  suffices key : ∀ c a free, us = a ++ c → (a = [] → free = true) →
      Readable (g.marks r = none) free c → InPlace g.source (c ++ ts) → Sheet g (c ++ ts) from
    key us [] true rfl (fun _ => rfl) h.readable hplace
  intro c
  induction c with
  | nil => exact fun _ _ _ _ _ _ => hbelow.sheet
  | cons t c ih =>
    intro a free hus hfree hread hplace
    have hrest : Sheet g (c ++ ts) := ih (a ++ [t]) _ (by simp [hus]) (by simp) hread.2 hplace.tail
    have hfits := (hus ▸ h).fits hbelow hplace hread hfree
    intro u vs hu
    rcases List.suffix_cons_iff.1 hu with heq | hu
    · obtain ⟨rfl, rfl⟩ := List.cons.inj heq
      exact hfits
    · exact hrest u vs hu

end Stencil.Flatten
