import Stencil.Proofs.Flatten.Operands

/-!
Values with attributes, subscripts and calls behind them. A call holds no directive where none is
marked, since no text there is the name of one.
-/
namespace Stencil.Flatten
open Code Grammar

variable {g : Page} {f : Frame} {c : Bool} {ns : List Node} {s₀ : State} {P : State → Prop}
  {expr value : Read Node}

section

variable (he : Reads g expr)
include he

/-- The end of a slice, if it has one. -/
theorem bound_spec : Yields (Poised g f 0 true ns)
    (do if (← looksAt ":") || (← looksAt ",") || (← looksAt "]") then return [] else return [← expr])
    fun ms => Amid g f 0 true (ns ++ ms) := by
  refine Yields.bind (looksAt_spec fun _ hs => hs.1) fun _ => ?_
  refine Yields.bind (looksAt_spec fun _ hs => hs.1.1) fun _ => ?_
  refine Yields.bind (looksAt_spec fun _ hs => hs.1.1.1) fun _ => ?_
  refine Yields.ite (fun _ => Yields.pure fun s hs => ?_) fun _ => ?_
  · simpa using hs.1.1.1.1
  · exact Yields.bind (he.spec fun _ hs => hs.1.1.1) fun n => Yields.pure fun s hs => hs

theorem sliceTail_spec (hd : 0 < f.depth) : Yields (Poised g f 0 true ns) (sliceTail expr) fun ms =>
    Amid g f 0 true (ns ++ ms) := by
  refine Yields.bind (bound_spec he) fun stop => accept_colon_then (fun _ => hd) (fun _ hs => hs) ?_ ?_
  · refine Yields.bind (bound_spec he) fun ms => Yields.pure fun s hs => ?_
    simpa using hs
  · exact Yields.pure fun s hs => hs

theorem subscriptItem_keeps :
    Keeps g (fun f => 0 < f.depth ∧ Fresh g f.start) true (subscriptItem expr) fun n => [n] := by
  refine spanned_keeps fun f => ?_
  refine Yields.weaken (P := fun s => 0 < f.depth ∧ Poised g f 0 false [] s) (Yields.keep fun hd => ?_)
    fun s hs => ⟨hs.2.1, hs.1, hs.2.2⟩
  refine accept_colon_then (fun _ => hd) (fun _ hs => hs.1) ?_ ?_
  · exact Yields.bind (sliceTail_spec he hd) fun ms => Yields.pure fun s hs => ⟨hs, by simp⟩
  · refine Yields.bind ((starred_reads he).first fun _ hs => hs) fun n => ?_
    refine accept_colon_then (fun _ => hd) (fun _ hs => hs) ?_
      (Yields.pure fun s hs => ⟨hs, by simp⟩)
    exact Yields.bind (sliceTail_spec he hd) fun ms => Yields.pure fun s hs => ⟨hs, by simp⟩

theorem argument_reads : Reads g (argument expr) := by
  refine Keeps.of_yields fun f => Yields.bind (needed_spec fun _ hs => hs.1) fun t => ?_
  refine Yields.ite (fun _ => starry_spec he (by decide) fun _ hs => hs.1.1) fun _ => ?_
  refine Yields.bind second_spec fun o => Yields.ite (fun ht => ?_) fun _ => ?_
  · simp only [isIdentifier, Bool.and_eq_true, decide_eq_true_eq, Bool.not_eq_true'] at ht
    refine spanned_spec (fun s hs => hs.1.1.1) ?_
    refine Yields.bind (Q := fun _ => Amid g f 0 true []) (consume_spec fun s hs => ?_) fun _ => ?_
    · obtain ⟨⟨⟨ha, -⟩, hf⟩, ho⟩ := hs
      refine ha.take_plain hf (by simp [ht.1.1])
        (ha.unmarked_of_second hf.head (ho ▸ ht.2) (by decide)) (fun hr => ?_)
        (not_header_of_not_isHard ht.1.2)
      simp [hr, isHard, isKeyword, keywords] at ht
    · refine Yields.bind (expect_spec 0 (by decide) fun _ hs => hs) fun _ => ?_
      exact Yields.bind (he.first fun _ hs => hs) fun n => Yields.pure fun s hs => ⟨hs, by simp⟩
  · exact (starred_reads he).first fun s hs => hs.1.1

theorem arguments_reads (hv : Reads g value) :
    Keeps g (fun _ => True) true (arguments expr value) fun n => [n] := by
  refine spanned_keeps fun f => ?_
  refine Yields.bind (expect_spec 1 (by decide) fun _ hs => hs.1) fun _ => nested_spec ?_
  refine accept_then (-1) (by decide) (fun _ hs => hs.1)
    (Yields.pure fun s hs => ⟨hs.1, by simp⟩) ?_
  refine accept_then 0 (by decide) (fun _ hs => hs.1) ?_ ?_
  · refine Yields.bind (expect_spec (-1) (by decide) fun _ hs => hs.1) fun _ => ?_
    exact Yields.pure fun s hs => ⟨hs.1, by simp⟩
  refine Yields.bind ((argument_reads he).first fun _ hs => hs) fun n => ?_
  refine Yields.bind (atClause_spec fun _ hs => hs) fun _ => Yields.ite (fun _ => ?_) fun _ => ?_
  · exact comprehension_spec he hv (by decide) (by simp) (by simp) fun _ hs => hs
  · refine Yields.bind (elements_spec (argument_reads he) (fun _ => id) (by decide)) fun ms => ?_
    exact Yields.pure fun s hs => ⟨hs.1, by simp⟩

end

/-- The next line, if one starts here, holds no directive. -/
def Unmarked (g : Page) (s : State) : Prop :=
  ∀ t ∈ s.rest.head?, t.indent.isSome → g.marks t.row = none

section

variable (he : Reads g expr) (hv : Reads g value)
include he hv

theorem atom_keeps : Keeps g (fun f => Unmarked g f.start) true (atom expr value) fun n => [n] := by
  refine Keeps.of_yields fun f => Yields.bind (needed_spec fun _ hs => hs.1) fun t => ?_
  have hone {kind : Kind} (hk : kind ≠ .call)
      (ht : ∀ s, Amid g f 0 false [] s ∧ Unmarked g s → Faces t s → Amid g f 0 true [] (after t s)) :
      Yields (fun s => (Amid g f 0 false [] s ∧ Unmarked g s) ∧ Faces t s)
        (spanned do
          consume t
          return (kind, [])) fun n => Amid g f 0 true [n] := by
    refine spanned_spec (fun _ hs => hs.1.1) ?_
    refine Yields.bind (Q := fun _ => Amid g f 0 true [])
      (consume_spec fun s hs => ht s hs.1 hs.2) fun _ => Yields.pure fun s hs => ⟨hs, hk⟩
  have hname (hs : t.shape = .name) (hr : t.text ≠ "return") (hh : t.text ∉ headers) : ∀ s,
      Amid g f 0 false [] s ∧ Unmarked g s → Faces t s → Amid g f 0 true [] (after t s) :=
    fun s ha ht => ha.1.take_plain ht (by simp [hs]) (ha.2 t ht.head) (fun h => (hr h).elim) hh
  split
  · exact quoted_reads.first fun s hs => ⟨hs.1.1, trivial⟩
  · next hs => exact hone (by simp) fun s ha ht => ha.1.take_literal ht (.inr hs)
  · next hs =>
    refine Yields.ite (fun hi => hone (by simp) (hname hs ?_ ?_)) fun _ => ?_
    · rintro hr
      simp [hr, isIdentifier, isHard, isKeyword, keywords] at hi
    · simp only [isIdentifier, Bool.and_eq_true, Bool.not_eq_true'] at hi
      exact not_header_of_not_isHard hi.2
    · have hwords : ∀ x ∈ ["True", "False", "None"], x ≠ "return" ∧ x ∉ headers := by decide
      refine Yields.ite (fun hi => ?_) fun _ => Yields.fail
      obtain ⟨hr, hh⟩ := hwords t.text (by simpa using hi)
      exact hone (by simp) (hname hs hr hh)
  · next hs =>
    refine Yields.ite (fun _ => ?_) fun _ => Yields.ite (fun _ => ?_) fun _ =>
      Yields.ite (fun _ => ?_) fun _ => Yields.ite (fun hd => ?_) fun _ => Yields.fail
    · exact (parenthesized_reads he hv).first fun s hs => ⟨hs.1.1, trivial⟩
    · exact (bracketed_reads he hv).first fun s hs => ⟨hs.1.1, trivial⟩
    · exact (braced_reads he hv).first fun s hs => ⟨hs.1.1, trivial⟩
    · have his : t.is "..." := by simp_all [Token.is]
      exact hone (by simp) fun s ha ht => (ha.1.take_is ht his (by decide)).1
  · exact Yields.fail

end

theorem quoted_spans : Yields (· = s₀) quoted (Spans s₀) := by
  refine Yields.bind spanned_spans fun n => ?_
  -- without further literals nothing is passed behind the first one
  refine Yields.bind (Q := fun ms s => (ms = [] → Spans s₀ n s) ∧
    ∀ t ∈ s₀.rest.head?, n.extent.start = t.start ∧ n.extent.row = t.row)
    (Yields.and ?_ fun _ _ _ hs _ => hs.start) fun ms =>
    Yields.ite (fun hm => Yields.pure fun s hs => hs.1 (List.isEmpty_iff.1 hm)) fun _ =>
      grown_spans fun s hs => hs.2
  have hround (ms : List Node) : Yields (fun s => ms = [] → Spans s₀ n s)
      (do
        if (← inLine).any (·.shape = .quoted) then
          return some (← spanned do
            let t ← needed
            if t.shape = .quoted then
              consume t
              return (.quoted, [])
            else Grammar.fail)
        else return none)
      fun o s => ms ++ (o.map fun m => [m]).getD [] = [] → Spans s₀ n s := by
    refine Yields.bind (Q := fun _ s => ms = [] → Spans s₀ n s) (fun t o t' ht h => ?_) fun o =>
      Yields.ite (fun _ => ?_) fun _ => Yields.pure fun s hs => by simpa using hs
    · obtain ⟨-, rfl⟩ := pure_eq_some.1 h
      exact ht
    · refine Yields.bind Yields.trivial fun m => Yields.pure fun s hs hm => ?_
      simp at hm
  refine (Yields.many (I := fun ms s => ms = [] → Spans s₀ n s) hround).mono
    (fun s hs (_ : [] = []) => hs) fun ms s hs => ?_
  simpa using hs

theorem atom_spans : Yields (· = s₀) (atom expr value) (Spans s₀) := by
  refine Yields.bind needed_head fun t => ?_
  have hspanned {p : Read (Kind × List Node)} :
      Yields (fun s => s₀.rest.head? = some t ∧ s = s₀) (spanned p) (Spans s₀) :=
    spanned_spans.weaken fun s hs => hs.2
  split
  · exact quoted_spans.weaken fun s hs => hs.2
  · exact hspanned
  · exact Yields.ite (fun _ => hspanned) fun _ => Yields.ite (fun _ => hspanned) fun _ => Yields.fail
  · exact Yields.ite (fun _ => hspanned) fun _ => Yields.ite (fun _ => hspanned) fun _ =>
      Yields.ite (fun _ => hspanned) fun _ => Yields.ite (fun _ => hspanned) fun _ => Yields.fail
  · exact Yields.fail

/-- A value in front of what may stand behind it, and where it is. -/
structure Held (g : Page) (f : Frame) (n : Node) (s : State) : Prop where
  amid : Amid g f 0 true [n] s
  spans : Spans f.start n s

/-- No directive has its name where no line is marked. -/
theorem Held.unnamed {n : Node} {s : State} (h : Held g f n s) {t : Token} {ts : List Token}
    (ht : f.start.rest = t :: ts) (ho : Opens g t ts) (hm : g.marks t.row = none) :
    directiveName? g.source n = none := by
  obtain ⟨seg, hmoves, hseg⟩ := h.amid.moves
  obtain ⟨u, hu⟩ : ∃ u, seg.getLast? = some u :=
    Option.isSome_iff_exists.1 (by simpa using hseg rfl)
  have hmem : u ∈ t :: ts := by
    rw [← ht, hmoves.rest]
    exact List.mem_append_left _ (List.mem_of_getLast? hu)
  have htext : n.text g.source = slice g.source t.start u.stop := by
    have hstart := (h.spans.start t (by simp [ht])).1
    have hstop : n.extent.stop = u.stop := by rw [h.spans.stop, hmoves.stop, hu]; rfl
    simp [Node.text, slice, hstart, hstop]
  obtain ⟨he, hi⟩ := ho.clean hm u hmem
  simp only [directiveName?, htext]

section

variable (he : Reads g expr) (hv : Reads g value)
include he hv

theorem trailers_spec {t : Token} {ts : List Token} (ht : f.start.rest = t :: ts)
    (ho : Opens g t ts) (hm : g.marks t.row = none) (fuel : Nat) (n : Node) :
    Yields (Held g f n) (trailers expr value fuel n) (Held g f) := by
  induction fuel generalizing n with
  | zero => exact Yields.pure fun s hs => hs
  | succ fuel ih =>
    suffices h : ∀ s₁, Held g f n s₁ → Yields (Held g f n) (trailers expr value (fuel + 1) n)
        (Held g f) from fun s _ _ hs => h s hs hs
    intro s₁ hn
    have hgrown {kind : Kind} {ms : List Node} (hk : kind ≠ .call) :
        Yields (Amid g f 0 true (n :: ms)) (grown n kind (n :: ms)) (Held g f) :=
      ((grown_spec hk fun _ hs => hs).and (grown_spans fun _ _ => hn.spans.start)).mono
        (fun _ hs => hs) fun _ _ hs => ⟨hs.1, hs.2⟩
    refine Yields.bind (accept_dot_spec fun _ hs => hs.amid) fun r => Yields.ite (fun hr => ?_)
      fun hr => ?_
    · subst hr
      refine Yields.bind (identifier_spec fun _ hs => hs) fun _ => ?_
      exact Yields.bind ((hgrown (by simp)).weaken fun s hs => hs.1) ih
    refine Yields.weaken (P := Held g f n) ?_ fun s hs => by simpa [hr] using hs
    refine looksAt_then (fun _ hs => hs.amid) ?_ (looksAt_then (fun _ hs => hs.amid) ?_ ?_)
    · refine Yields.bind (expect_spec 1 (by decide) fun _ hs => hs.1.amid) fun _ => ?_
      refine Yields.bind (Q := fun ms s => Amid g f 0 true ([n] ++ ms) s ∧ True)
        (nested_spec ?_) fun ms => Yields.bind ((hgrown (by simp)).weaken fun s hs => hs.1) ih
      refine Yields.bind ((subscriptItem_keeps he).spec fun _ hs => ⟨hs.1, by simp, hs.2⟩) fun m => ?_
      refine Yields.bind (elements_spec (subscriptItem_keeps he) (fun _ hs => ⟨by simp, hs⟩) (by decide)) fun ms => ?_
      exact Yields.pure fun s hs => ⟨by simpa using hs.1, trivial⟩
    · refine Yields.bind ((arguments_reads he hv).spec fun _ hs => ⟨hs.1.amid, trivial⟩) fun a => ?_
      refine Yields.bind (Q := Held g f) ?_ ih
      refine ((?_ : Yields _ (grown n .call [n, a]) fun m => Amid g f 0 true [m]).and
        (grown_spans fun _ _ => hn.spans.start)).mono (fun _ hs => hs) fun _ _ hs => ⟨hs.1, hs.2⟩
      refine Yields.bind Yields.get fun _ => Yields.pure fun s hs => hs.1.lift fun _ hc => ?_
      exact hc.call (hn.unnamed ht ho hm)
    · exact Yields.pure fun s hs => hs

/-- A value that no marked line begins with. -/
theorem postfixed_unmarked : Keeps g (fun f => Unmarked g f.start ∧ Fresh g f.start) true
    (postfixed expr value) fun n => [n] := by
  rintro f ha ⟨hu, ho⟩ n s h
  obtain ⟨m, s', hatom, h⟩ := bind_eq_some.1 h
  obtain ⟨_, _, hget, h⟩ := bind_eq_some.1 h
  cases hget
  have hheld : Held g f m s' := ⟨atom_keeps he hv f ha hu m s' hatom, atom_spans rfl hatom⟩
  obtain ⟨t, ts, ht⟩ : ∃ t ts, f.start.rest = t :: ts := by
    obtain ⟨seg, hmoves, hseg⟩ := hheld.amid.moves
    exact ⟨_, _, hmoves.rest.trans (by rw [← List.cons_head_tail (hseg rfl)]; rfl)⟩
  have hhead : f.start.rest.head? = some t := by simp [ht]
  have hm : g.marks t.row = none := by
    cases hi : t.indent with
    | none => exact ha.outside t hhead hi
    | some i => exact hu t hhead (by simp [hi])
  exact (trailers_spec he hv ht (ho t ts ht) hm _ m hheld h).amid

end

end Stencil.Flatten
