import Stencil.Proofs.Flatten.Amid

/-!
Readers of expressions keep their place. Each lemma follows the reader it is about; the readers for
whole expressions and for values, which the others are given, keep theirs by assumption.
-/
namespace Stencil.Flatten
open Code Grammar

variable {g : Page} {f : Frame} {c : Bool} {ns : List Node} {P : State → Prop}
  {expr value item : Read Node} {close : String}

/-- Further nodes, each behind a comma unless something else follows. -/
theorem separated_spec {p : Read (Option Node)}
    (h : ∀ ns, Yields (Poised g f 0 true ns) p fun o => Amid g f 0 true (ns ++ o.toList)) :
    Yields (Amid g f 0 true ns)
      (many do
        if ← accept "," then p else return none)
      fun ms => Amid g f 0 true (ns ++ ms) := by
  refine (Yields.many (I := fun ns => Amid g f 0 true ns) (f := fun n => [n]) fun ns => ?_).mono
    (fun _ hs => hs) fun ms s hs => by simpa using hs
  refine accept_then 0 (by decide) (fun _ hs => hs) ?_ (Yields.pure fun s hs => by simpa using hs)
  refine (h ns).mono (fun _ hs => hs) fun o s hs => ?_
  cases o <;> simpa using hs

theorem elements_spec {pre : Frame → Prop} (hi : Keeps g pre true item fun n => [n])
    (hpre : ∀ s, Fresh g s → pre { f with start := s }) (hc : isPlain close ∧ weightOf close = -1) :
    Yields (Amid g f 0 true ns) (elements item close) fun ms => Poised g f (-1) true (ns ++ ms) := by
  refine Yields.bind (separated_spec fun ns => ?_) fun ms => ?_
  · refine looksAt_then (fun _ hs => hs.1) (Yields.pure fun s hs => by simpa using hs.1.1) ?_
    refine Yields.bind (hi.spec fun s hs => ⟨hs.1, hpre s hs.2⟩) fun n => ?_
    exact Yields.pure fun s hs => hs
  · exact Yields.bind (expect_spec (-1) hc fun _ hs => hs) fun _ => Yields.pure fun s hs => hs

/-- A starred or doubly starred operand. -/
theorem starry_spec {x : String} (he : Reads g expr) (hx : isPlain x ∧ weightOf x = 0)
    (hP : ∀ s, P s → Amid g f 0 c [] s) :
    Yields P (spanned do
      expect x
      return (.spread, [← expr])) fun n => Amid g f 0 true [n] := by
  refine spanned_spec hP ?_
  refine Yields.bind (expect_spec 0 hx hP) fun _ => ?_
  refine Yields.bind (he.spec fun _ hs => hs) fun n => ?_
  exact Yields.pure fun s hs => ⟨hs, by simp⟩

section

variable (he : Reads g expr)
include he

theorem starred_reads : Reads g (starred expr) := by
  refine Keeps.of_yields fun f => ?_
  refine Yields.bind (needed_spec fun _ hs => hs.1) fun t => Yields.ite (fun _ => ?_) fun _ => ?_
  · exact starry_spec he (by decide) fun s hs => hs.1.1
  · exact he.first fun s hs => hs.1

theorem element_reads : Reads g (element expr) := by
  refine Keeps.of_yields fun f => ?_
  refine Yields.bind (needed_spec fun _ hs => hs.1) fun t => Yields.ite (fun hy => ?_) fun _ => ?_
  · exact Yields.absurd fun s hs => by simp [hs.1.2.not_is hs.2.head (show "yield" ∈ leads by decide)] at hy
  · exact (starred_reads he).first fun s hs => hs.1

/-- Commas and expressions up to where a clause ends. -/
theorem listed_spec {stop : Token → Bool} :
    Yields (Amid g f 0 true ns)
      (many do
        if ← accept "," then
          match ← inLine with
          | some t => if stop t then return none else return some (← expr)
          | none => return none
        else return none)
      fun ms => Amid g f 0 true (ns ++ ms) := by
  refine separated_spec fun ns => Yields.bind (inLine_spec fun _ hs => hs.1) fun o => ?_
  cases o with
  | none => exact Yields.pure fun s hs => by simpa using hs.1.1
  | some t =>
    refine Yields.ite (fun _ => Yields.pure fun s hs => by simpa using hs.1.1) fun _ => ?_
    exact Yields.bind (he.spec fun _ hs => hs.1) fun n => Yields.pure fun s hs => hs

end

theorem targets_keeps (hv : Reads g value) : Keeps g (fun f => Fresh g f.start) true (targets value) id := by
  have htarget : Reads g (do
      let t ← needed
      let n ← if t.is "*" then spanned (do
          expect "*"
          return (Kind.spread, [← value]))
        else value
      if n.isTarget then return n else Grammar.fail) := by
    refine Keeps.of_yields fun f => Yields.bind (needed_spec fun _ hs => hs.1) fun t => ?_
    have hend (n : Node) : Yields (Amid g f 0 true [n]) (if n.isTarget then pure n else Grammar.fail)
        fun n => Amid g f 0 true [n] :=
      Yields.ite (fun _ => Yields.pure fun s hs => hs) fun _ => Yields.fail
    refine Yields.ite (fun _ => Yields.bind ?_ hend) fun _ => Yields.bind ?_ hend
    · exact starry_spec hv (by decide) fun s hs => hs.1.1
    · exact hv.first fun s hs => hs.1
  refine Keeps.of_yields fun f => Yields.bind (htarget.first fun _ hs => hs) fun first => ?_
  refine Yields.bind (separated_spec fun ns => ?_) fun more => Yields.pure fun s hs => hs
  refine looksAt_then (fun _ hs => hs.1) (Yields.pure fun s hs => by simpa using hs.1.1) ?_
  exact Yields.bind (htarget.spec fun _ hs => hs) fun n => Yields.pure fun s hs => hs

/-- A comprehension stands in brackets, so no line starts where a clause does. -/
theorem clause_spec (he : Reads g expr) (hv : Reads g value) (hd : 0 < f.depth) :
    Yields (Amid g f 0 true ns) (clause expr value) fun o => Amid g f 0 true (ns ++ o.toList) := by
  refine Yields.bind (looksAt_spec fun _ hs => hs) fun _ => ?_
  refine Yields.bind (looksAt_spec fun _ hs => hs.1) fun _ => ?_
  refine Yields.bind second_spec fun _ => Yields.ite (fun _ => ?_) fun _ => ?_
  · have hfor : Keeps g (fun f => 0 < f.depth) true (spanned do
        let _ ← accept "async"
        expect "for"
        let ts ← targets value
        expect "in"
        let first ← expr
        let more ← many do
          if ← accept "," then
            match ← inLine with
            | some t =>
              if t.shape = .symbol && [")", "]", "\x7d"].contains t.text then return none
              else return some (← expr)
            | none => return none
          else return none
        return (.other, ts ++ first :: more)) fun n => [n] := by
      refine spanned_keeps fun f => Yields.keep' (C := 0 < f.depth) fun hd => ?_
      refine Yields.bind (accept_spec 0 (by decide) fun _ hs => hs) fun r => ?_
      refine Yields.bind (Q := fun _ => Poised g f 0 true []) ?_ fun _ => ?_
      · cases r with
        | false => exact expect_inside_spec (by decide) hd fun s hs => hs
        | true => exact expect_inside_spec (by decide) hd fun s hs => hs.1
      refine Yields.bind ((targets_keeps hv).first fun _ hs => hs) fun ts => ?_
      refine Yields.bind (expect_spec 0 (by decide) fun _ hs => hs) fun _ => ?_
      refine Yields.bind (he.spec fun _ hs => hs) fun first => ?_
      refine Yields.bind (listed_spec he) fun more => Yields.pure fun s hs => ?_
      exact ⟨by simpa using hs, by simp⟩
    refine Yields.bind (hfor.spec fun _ hs => ⟨hs.1.1.1, hd⟩) fun n => ?_
    exact Yields.pure fun s hs => hs
  · refine looksAt_then (fun _ hs => hs.1.1.1) ?_ (Yields.pure fun s hs => by simpa using hs.1.1.1)
    have hif : Keeps g (fun f => 0 < f.depth) true (spanned do
        expect "if"
        return (.other, [← expr])) fun n => [n] := by
      refine spanned_keeps fun f => Yields.keep' (C := 0 < f.depth) fun hd => ?_
      refine Yields.bind (expect_inside_spec (by decide) hd fun _ hs => hs) fun _ => ?_
      exact Yields.bind (he.first fun _ hs => hs) fun n => Yields.pure fun s hs => ⟨hs, by simp⟩
    refine Yields.bind (hif.spec fun _ hs => ⟨hs.1.1.1.1, hd⟩) fun n => ?_
    exact Yields.pure fun s hs => hs

theorem clauses_spec (he : Reads g expr) (hv : Reads g value) (hd : 0 < f.depth) :
    Yields (Amid g f 0 true ns) (many (clause expr value)) fun ms =>
      Amid g f 0 true (ns ++ ms) := by
  refine (Yields.many (I := fun ns => Amid g f 0 true ns) (f := fun n => [n]) fun ns => ?_).mono
    (fun _ hs => hs) fun ms s hs => by simpa using hs
  refine (clause_spec he hv hd).mono (fun _ hs => hs) fun o s hs => ?_
  cases o <;> simpa using hs

theorem atClause_spec (hP : ∀ s, P s → Amid g f 0 c ns s) :
    Yields P atClause fun _ s => P s := by
  refine looksAt_then hP (Yields.pure fun s hs => hs.1) ?_
  refine Yields.bind (looksAt_spec hP) fun _ => ?_
  exact Yields.bind second_spec fun _ => Yields.pure fun s hs => hs.1.1

section

variable (he : Reads g expr) (hv : Reads g value)
include he hv

/-- What a comprehension has behind its first item. -/
theorem comprehension_spec (hc : isPlain close ∧ weightOf close = -1) (hd : 0 < f.depth)
    {kind : Kind} (hk : kind ≠ .call) {n : Node} (hP : ∀ s, P s → Amid g f 0 true [n] s) :
    Yields P (do
      let clauses ← many (clause expr value)
      expect close
      return (kind, n :: clauses)) fun r s => Amid g f (-1) true r.2 s ∧ r.1 ≠ .call := by
  refine Yields.bind ((clauses_spec he hv hd).weaken hP) fun ms => ?_
  refine Yields.bind (expect_spec (-1) hc fun _ hs => hs) fun _ => Yields.pure fun s hs => ?_
  exact ⟨hs.1, hk⟩

theorem parenthesized_reads : Keeps g (fun _ => True) true (parenthesized expr value) fun n => [n] := by
  refine spanned_keeps fun f => ?_
  refine Yields.bind (expect_spec 1 (by decide) fun _ hs => hs.1) fun _ => nested_spec ?_
  refine accept_then (-1) (by decide) (fun _ hs => hs.1)
    (Yields.pure fun s hs => ⟨hs.1, by simp⟩) ?_
  refine Yields.bind ((element_reads he).first fun _ hs => hs) fun n => ?_
  refine Yields.bind (atClause_spec fun _ hs => hs) fun _ => Yields.ite (fun _ => ?_) fun _ => ?_
  · exact comprehension_spec he hv (by decide) (by simp) (by simp) fun _ hs => hs
  · refine looksAt_then (fun _ hs => hs) ?_ ?_
    · refine Yields.bind ((elements_spec (element_reads he) (fun _ => id) (by decide)).weaken fun _ hs => hs.1)
        fun ms => Yields.pure fun s hs => ⟨hs.1, by simp⟩
    · refine Yields.bind (expect_spec (-1) (by decide) fun _ hs => hs) fun _ => ?_
      exact Yields.pure fun s hs => ⟨hs.1, by simp⟩

theorem bracketed_reads : Keeps g (fun _ => True) true (bracketed expr value) fun n => [n] := by
  refine spanned_keeps fun f => ?_
  refine Yields.bind (expect_spec 1 (by decide) fun _ hs => hs.1) fun _ => nested_spec ?_
  refine accept_then (-1) (by decide) (fun _ hs => hs.1)
    (Yields.pure fun s hs => ⟨hs.1, by simp⟩) ?_
  refine Yields.bind ((element_reads he).first fun _ hs => hs) fun n => ?_
  refine Yields.bind (atClause_spec fun _ hs => hs) fun _ => Yields.ite (fun _ => ?_) fun _ => ?_
  · exact comprehension_spec he hv (by decide) (by simp) (by simp) fun _ hs => hs
  · refine Yields.bind (elements_spec (element_reads he) (fun _ => id) (by decide)) fun ms => ?_
    exact Yields.pure fun s hs => ⟨hs.1, by simp⟩

omit hv in
theorem entry_keeps :
    Keeps g (fun f => 0 < f.depth ∧ Fresh g f.start) true (entry expr) fun n => [n] := by
  refine spanned_keeps fun f => ?_
  refine Yields.weaken (P := fun s => 0 < f.depth ∧ Poised g f 0 false [] s) (Yields.keep fun hd => ?_)
    fun s hs => ⟨hs.2.1, hs.1, hs.2.2⟩
  refine accept_then 0 (by decide) (fun _ hs => hs.1) ?_ ?_
  · exact Yields.bind (he.first fun _ hs => hs) fun n => Yields.pure fun s hs => ⟨hs, by simp⟩
  · refine Yields.bind (he.first fun _ hs => hs) fun key => ?_
    refine Yields.bind (expect_colon_spec (fun _ => hd) fun _ hs => hs) fun _ => ?_
    refine Yields.bind (he.spec fun _ hs => hs) fun n => Yields.pure fun s hs => ⟨hs, by simp⟩

theorem braced_reads : Keeps g (fun _ => True) true (braced expr value) fun n => [n] := by
  have hor : Keeps g (fun f => 0 < f.depth ∧ Fresh g f.start) true
      (orElse (entry expr) (element expr)) fun n => [n] := Keeps.of_yields fun f =>
    Yields.orElse ((entry_keeps he).first fun _ hs => hs)
      ((element_reads he).first fun _ hs => ⟨hs.1, hs.2.2⟩)
  refine spanned_keeps fun f => ?_
  refine Yields.bind (expect_spec 1 (by decide) fun _ hs => hs.1) fun _ => nested_spec ?_
  refine Yields.bind (accept_spec 0 (by decide) fun _ hs => hs.1) fun r => ?_
  refine Yields.weaken (P := Poised g _ 0 true []) ?_ fun s hs => by cases r <;> simpa using hs
  refine accept_then (-1) (by decide) (fun _ hs => hs.1)
    (Yields.pure fun s hs => ⟨hs.1, by simp⟩) ?_
  refine Yields.bind (hor.first fun _ hs => ⟨hs.1, by simp, hs.2⟩) fun n => ?_
  refine Yields.bind (atClause_spec fun _ hs => hs) fun _ => Yields.ite (fun _ => ?_) fun _ => ?_
  · exact comprehension_spec he hv (by decide) (by simp) (by simp) fun _ hs => hs
  · refine Yields.bind (elements_spec
      (?_ : Keeps g (fun f => 0 < f.depth ∧ Fresh g f.start) true _ fun n => [n])
      (fun _ hs => ⟨by simp, hs⟩) (by decide)) fun ms => ?_
    · split
      · exact hor
      · exact hor
      · exact fun f ha hs => element_reads he f ha hs.2
    · exact Yields.pure fun s hs => ⟨hs.1, by simp⟩

end

theorem literal_reads : Keeps g (fun _ => True) true (spanned do
    let t ← needed
    if t.shape = .quoted then
      consume t
      return (.quoted, [])
    else Grammar.fail) fun n => [n] := by
  refine spanned_keeps fun f => Yields.bind (needed_spec fun _ hs => hs.1) fun t => ?_
  refine Yields.ite (fun ht => ?_) fun _ => Yields.fail
  refine Yields.bind (Q := fun _ => Amid g f 0 true []) (consume_spec fun s hs => ?_) fun _ =>
    Yields.pure fun s hs => ⟨hs, by simp⟩
  exact hs.1.1.take_literal hs.2 (.inl (by simpa using ht))

theorem quoted_reads : Keeps g (fun _ => True) true quoted fun n => [n] := by
  refine Keeps.of_yields fun f => Yields.bind (literal_reads.first fun _ hs => hs) fun n => ?_
  refine Yields.bind (Yields.many (I := fun ns => Amid g f 0 true ns) (f := fun n => [n])
    fun ns => ?_) fun ms => Yields.ite (fun hm => Yields.pure fun s hs => ?_) fun _ => ?_
  · refine Yields.bind (inLine_spec fun _ hs => hs) fun o => Yields.ite (fun _ => ?_) fun _ => ?_
    · refine Yields.bind (literal_reads.spec fun _ hs => ⟨hs.1, trivial⟩) fun n => ?_
      exact Yields.pure fun s hs => by simpa using hs
    · exact Yields.pure fun s hs => by simpa using hs.1
  · simpa [List.isEmpty_iff.1 hm] using hs
  · exact grown_spec (by simp) fun s hs => by simpa using hs

end Stencil.Flatten
