import Stencil.Proofs.Flatten.Marked

/-! Statements keep their place and go on to the end of a line. -/
namespace Stencil.Flatten
open Code Grammar

variable {α : Type} {g : Page} {f : Frame} {c : Bool} {s s' : State} {ns : List Node} {t : Token}
  {P : State → Prop} {i : Nat}

/-- The next token starts a line, if there is one. -/
def AtLine (s : State) : Prop := ∀ t ∈ s.rest.head?, t.indent.isSome

/-- A statement may begin here; one that returns only inside a deeper block. -/
def Begins (g : Page) (f : Frame) : Prop :=
  Fresh g f.start ∧ ∀ t ∈ f.start.rest.head?, t.text = "return" → ∀ i ∈ t.indent, f.base < i

theorem listWith_reads {comma : Node → Read Bool}
    (hcomma : ∀ n ns f, Yields (Amid g f 0 true ns) (comma n) fun r s =>
      if r then Poised g f 0 true ns s else Amid g f 0 true ns s) : Reads g (listWith comma) := by
  have he := starred_reads (g := g) expression_reads
  refine Keeps.of_yields fun f => Yields.bind (he.first fun _ hs => hs) fun n => ?_
  refine Yields.bind (Yields.many (I := fun ns => Amid g f 0 true ns) (f := Option.toList)
    fun ns => ?_) fun ms => Yields.ite (fun hm => Yields.pure fun s hs => ?_) fun _ => ?_
  · refine Yields.bind (hcomma n _ f) fun r => ?_
    cases r with
    | false => exact Yields.pure fun s hs => by simpa using hs
    | true =>
      refine Yields.bind (inLine_spec fun _ hs => hs.1) fun o => ?_
      cases o with
      | none => exact Yields.pure fun s hs => by simpa using hs.1.1
      | some t =>
        refine Yields.ite (fun _ => Yields.pure fun s hs => by simpa using hs.1.1) fun _ => ?_
        refine Yields.bind (he.spec fun _ hs => hs.1) fun n => ?_
        exact Yields.pure fun s hs => by simpa using hs
  · simpa [List.isEmpty_iff.1 hm] using hs
  · exact grown_spec (by simp) fun s hs => by
      simpa [List.filterMap_eq_flatMap_toList] using hs

theorem expressionList_reads : Reads g expressionList :=
  listWith_reads fun _ _ _ => accept_spec 0 (by decide) fun _ hs => hs

theorem acceptBehind_spec {x : String} (hx : isPlain x ∧ weightOf x = 0) (n : Node) :
    Yields (Amid g f 0 c ns) (acceptBehind x n) fun r s =>
      if r then Poised g f 0 true ns s else Amid g f 0 c ns s :=
  Yields.ite (fun _ => continues_spec 0 hx fun _ hs => hs) fun _ => accept_spec 0 hx fun _ hs => hs

theorem rightSide_reads : Reads g rightSide := by
  refine Keeps.of_yields fun f => ?_
  refine Yields.bind (needed_spec fun _ hs => hs.1) fun t => Yields.ite (fun hy => ?_) fun _ => ?_
  · exact Yields.absurd fun s hs => by
      simp [hs.1.2.not_is hs.2.head (show "yield" ∈ leads by decide)] at hy
  · exact (listWith_reads fun n _ _ => acceptBehind_spec (by decide) n).first fun s hs => hs.1

theorem assignTail_spec (fuel : Nat) (left : Node) :
    Yields (Amid g f 0 true ns) (assignTail fuel left) fun ms => Amid g f 0 true (ns ++ ms) := by
  induction fuel generalizing ns left with
  | zero => exact Yields.fail
  | succ fuel ih =>
    refine Yields.bind (acceptBehind_spec (by decide) left) fun r => ?_
    cases r with
    | false => exact Yields.pure fun s hs => by simpa using hs
    | true =>
      refine Yields.weaken (P := Poised g f 0 true ns) ?_ fun s hs => by simpa using hs
      refine Yields.ite (fun _ => Yields.ite (fun _ => ?_) fun _ => Yields.fail) (by simp)
      refine Yields.bind (rightSide_reads.spec (P := Poised g f 0 true ns) fun _ hs => hs) fun n => ?_
      refine Yields.bind (ih n) fun ms => Yields.pure fun s hs => ?_
      simpa using hs

theorem atEnd_spec (hP : ∀ s, P s → Amid g f 0 c ns s) : Yields P atEnd fun _ s => P s := by
  refine Yields.bind (inLine_spec hP) fun o => ?_
  cases o with
  | none => exact Yields.pure fun s hs => hs.1
  | some t => exact Yields.pure fun s hs => hs.1

theorem expressionStatement_keeps : Keeps g (fun f => f.rank ≤ 1 ∧ Fresh g f.start) true
    expressionStatement fun n => [n] := by
  refine spanned_keeps fun f => ?_
  refine Yields.weaken (P := fun s => f.rank ≤ 1 ∧ Poised g f 0 false [] s) (Yields.keep fun hk => ?_)
    fun s hs => ⟨hs.2.1, hs.1, hs.2.2⟩
  refine Yields.bind (rightSide_reads.first fun _ hs => hs) fun n => ?_
  refine Yields.bind Yields.get fun s => ?_
  have hend (ms : List Node) : Yields (Amid g f 0 true ms)
      (do if ← atEnd then return (Kind.statement, ms) else Grammar.fail) fun r s =>
        Amid g f 0 true r.2 s ∧ r.1 ≠ .call := by
    refine Yields.bind (atEnd_spec fun _ hs => hs) fun _ => Yields.ite (fun _ => ?_)
      fun _ => Yields.fail
    exact Yields.pure fun s hs => ⟨hs, by simp⟩
  refine Yields.ite (fun _ => accept_colon_then (by omega) (fun _ hs => hs.1) ?_ ?_)
    fun _ => (hend [n]).weaken fun s hs => hs.1
  · refine Yields.bind ((starred_reads expression_reads).spec fun _ hs => hs) fun type => ?_
    exact Yields.bind (assignTail_spec _ _) fun ms => (hend _).weaken fun s hs => by simpa using hs
  · refine acceptAny_then (by decide) (fun _ hs => hs.1) ?_ ?_
    · refine Yields.bind (rightSide_reads.spec fun _ hs => hs) fun right => ?_
      exact Yields.bind (assignTail_spec _ _) fun ms => (hend _).weaken fun s hs => by simpa using hs
    · exact Yields.bind ((assignTail_spec _ _).weaken fun s hs => hs.1) fun ms => hend _

/-- Where a line cannot end. -/
def AtDot (s : State) : Prop := ∃ u ∈ s.rest.head?, IsNext u .symbol "."

theorem AtDot.inLine (h : AtDot s) : ∃ u, IsNext u .symbol "." ∧ inLine s = some (some u, s) := by
  obtain ⟨u, hu, hdot⟩ := h
  refine ⟨u, hdot, inLine_eq (List.cons_head?_tail hu).symm ?_⟩
  simp [sameLine, hdot.1, hdot.2.2]

theorem AtDot.not_atEnd (h : AtDot s) : Gives atEnd s false s := by
  obtain ⟨u, hdot, hin⟩ := h.inLine
  have hsemi : u.is ";" = false := is_ne hdot.is (by decide)
  exact .bind (.of_eq hin) (hsemi ▸ .pure)

theorem AtDot.accept {x : String} (h : AtDot s) (hx : x ≠ ".") :
    Gives (Grammar.accept x) s false s := by
  obtain ⟨u, hdot, hin⟩ := h.inLine
  exact .bind (.of_eq hin) (.ite_neg (by simp [is_ne hdot.is hx.symm]) .pure)

/-- A statement that is one only if nothing stands behind it. -/
theorem whole_spec {p : Read Node}
    (hp : Yields P p fun n s => Amid g f 0 true [n] s ∨ AtDot s) :
    Yields P (whole p) fun n => Amid g f 0 true [n] := by
  refine Yields.bind hp fun n s m s' hs h => ?_
  obtain ⟨r, t, hend, h⟩ := bind_eq_some.1 h
  obtain hs | hs := hs
  · have ht := atEnd_spec (P := Amid g f 0 true [n]) (fun _ hs => hs) hs hend
    cases r with
    | false => cases h
    | true =>
      obtain ⟨rfl, rfl⟩ := pure_eq_some.1 h
      exact ht
  · cases hs.not_atEnd _ hend
    cases h

theorem aliasStatement_spec : Keeps g (fun f => Fresh g f.start) true (whole aliasStatement)
    fun n => [n] := by
  have hkeeps : Keeps g (fun f => Fresh g f.start) true aliasStatement fun n => [n] := by
    refine spanned_keeps fun f => ?_
    refine Yields.bind second_spec fun o => Yields.ite (fun _ => ?_) fun _ => Yields.fail
    refine Yields.bind (expect_spec 0 (by decide) fun _ hs => hs.1.1) fun _ => ?_
    refine Yields.bind (expression_reads.first fun _ hs => hs) fun left => ?_
    refine Yields.bind (expect_spec 0 (by decide) fun _ hs => hs) fun _ => ?_
    refine Yields.bind (expression_reads.spec fun _ hs => hs) fun n => ?_
    exact Yields.pure fun s hs => ⟨hs, by simp⟩
  refine Keeps.of_yields fun f => whole_spec ?_
  exact (hkeeps.first fun _ hs => hs).mono (fun _ hs => hs) fun _ _ hs => .inl hs

theorem oldStatement_spec : Keeps g (fun f => Fresh g f.start) true (whole oldStatement)
    fun n => [n] := by
  refine Keeps.of_yields fun f => whole_spec ?_
  refine Yields.bind (needed_spec fun _ hs => hs.1) fun t => ?_
  refine Yields.bind (Q := fun r s => (Amid g f 0 true r.2 s ∨ AtDot s) ∧ r.1 ≠ .call) ?_
    fun r => Yields.bind Yields.get fun _ => Yields.pure fun s hs =>
      hs.1.1.imp_left fun h => h.wrap hs.1.2
  refine accept_then 0 (by decide) (fun _ hs => hs.1.1) ?_
    (accept_then 0 (by decide) (fun _ hs => hs.1.1) ?_ Yields.fail)
  · refine Yields.bind (accept_spec 0 (by decide) fun _ hs => hs.1) fun r => ?_
    refine Yields.weaken (P := Poised g f 0 true []) ?_ fun s hs => by cases r <;> exact hs
    refine Yields.bind (expressionList_reads.first fun _ hs => hs) fun n => ?_
    exact Yields.pure fun s hs => ⟨.inl hs, by simp⟩
  · refine Yields.bind (needed_spec fun _ hs => hs.1) fun t => ?_
    refine Yields.ite (fun _ => Yields.bind (Q := fun _ _ => False) Yields.fail fun _ =>
      Yields.absurd fun _ => id) fun ht => ?_
    have hshape : t.shape ≠ .symbol := by
      rintro hs
      simp [isIdentifier, hs] at ht
    have hret : t.text = "return" → t.shape = .quoted := by
      rintro hr
      simpa [isIdentifier, hr, isHard, isKeyword, keywords] using ht
    by_cases hm : t.indent.isSome → g.marks t.row = none
    · refine Yields.bind (Q := fun _ => Amid g f 0 true []) (consume_spec fun s hs => ?_)
        fun _ => accept_then 0 (by decide) (fun _ hs => hs) ?_
          (Yields.pure fun s hs => ⟨.inl hs, by simp⟩)
      · have hcalled := (hs.1.1.fits hs.2.head).called
        refine hs.1.1.take_plain hs.2 hshape hm (fun hr => ?_) fun hh => ?_
        · cases (hcalled (.inl hr)).symm.trans (hret hr)
        · have hhard := mt not_header_of_not_isHard (not_not.2 hh)
          simp [isIdentifier, hhard, hcalled (.inr hh)] at ht
      · refine Yields.bind (expressionList_reads.first fun _ hs => hs) fun n => ?_
        exact Yields.pure fun s hs => ⟨.inl hs, by simp⟩
    -- the line would go on with the directive that begins here
    · refine Yields.bind (Q := fun _ => AtDot) (consume_spec fun s hs => ?_) fun _ => ?_
      · obtain ⟨hi, hm⟩ := Classical.not_imp.1 hm
        obtain ⟨e, hm⟩ := Option.ne_none_iff_exists'.1 hm
        exact ((hs.1.1.fits hs.2.head).mark e hm hi).second
      · intro s r s' hs h
        obtain ⟨b, u, hacc, h⟩ := bind_eq_some.1 h
        cases hs.accept (by decide) _ hacc
        obtain ⟨rfl, rfl⟩ := pure_eq_some.1 h
        exact ⟨.inr hs, by simp⟩

theorem optionalList_spec : Yields (Poised g f 0 true []) optionalList (Amid g f 0 true) := by
  refine Yields.bind (atEnd_spec fun _ hs => hs.1) fun _ => Yields.ite (fun _ => ?_) fun _ => ?_
  · exact Yields.pure fun s hs => hs.1
  · exact Yields.bind (expressionList_reads.first fun _ hs => hs) fun n => Yields.pure fun s hs => hs

theorem word_eq {x : String} (h : (if t.shape = .name then t.text else "") = x) (hx : x ≠ "") :
    t.shape = .name ∧ t.text = x := by
  split at h
  · next hs => exact ⟨hs, h⟩
  · exact (hx h.symm).elim

theorem simple_keeps : Keeps g (fun f => f.rank ≤ 1 ∧ Begins g f) true simple fun n => [n] := by
  refine Keeps.of_yields fun f => Yields.bind (needed_spec fun _ hs => hs.1) fun t => ?_
  have hkeyword {x : String} {p : Read (List Node)}
      (h : (if t.shape = .name then t.text else "") = x)
      (hx : x ≠ "" ∧ isReserved x = false ∧ x ∉ headers)
      (hp : Yields (Poised g f 0 true []) p (Amid g f 0 true)) :
      Yields (fun s => (Amid g f 0 false [] s ∧ f.rank ≤ 1 ∧ Begins g { f with start := s }) ∧ Faces t s)
        (spanned do
          consume t
          return (.statement, ← p)) fun n => Amid g f 0 true [n] := by
    obtain ⟨ht, rfl⟩ := word_eq h hx.1
    refine spanned_spec (fun _ hs => hs.1.1) ?_
    refine Yields.bind (Q := fun _ => Poised g f 0 true []) (consume_spec fun s hs => ?_) fun _ =>
      Yields.bind hp fun ms => Yields.pure fun s hs => ⟨hs, by simp⟩
    obtain ⟨⟨ha, -, hb⟩, hf⟩ := hs
    refine ⟨ha.take_plain hf (by simp [ht]) (ha.unmarked hf.head hx.2.1) (hb.2 t hf.head) hx.2.2, ?_⟩
    exact ha.fresh_after hf (by simp [ht]) ((ha.fits hf.head).shaped (by simp [ht])).2.1
  have hlead {x : String} {p : Read Node} (h : (if t.shape = .name then t.text else "") = x)
      (hx : x ∈ leads) :
      Yields (fun s => (Amid g f 0 false [] s ∧ f.rank ≤ 1 ∧ Begins g { f with start := s }) ∧ Faces t s) p
        fun n => Amid g f 0 true [n] :=
    Yields.absurd fun s hs => hs.1.2.2.1.text_ne hs.2.head hx
      (word_eq h (by rintro rfl; revert hx; decide)).2
  have hnone : Yields (Poised g f 0 true []) (pure [] : Read (List Node)) (Amid g f 0 true) :=
    Yields.pure fun s hs => hs.1
  dsimp only
  split
  · next h => exact hkeyword h (by decide) hnone
  · next h => exact hkeyword h (by decide) hnone
  · next h => exact hkeyword h (by decide) hnone
  · next h => exact hkeyword h (by decide) optionalList_spec
  · next h => exact hlead h (by decide)
  · next h => exact hlead h (by decide)
  · next h => exact hlead h (by decide)
  · next h => exact hlead h (by decide)
  · next h => exact hlead h (by decide)
  · next h => exact hlead h (by decide)
  · next h => exact hlead h (by decide)
  · refine Yields.orElse ?_ (Yields.orElse ?_ ?_)
    · exact aliasStatement_spec.first fun s hs => ⟨hs.1.1, hs.1.2.2.1⟩
    · exact expressionStatement_keeps.first fun s hs => ⟨hs.1.1, hs.1.2.1, hs.1.2.2.1⟩
    · exact oldStatement_spec.first fun s hs => ⟨hs.1.1, hs.1.2.2.1⟩

/-- The semicolon that would join statements never comes. -/
theorem semicolon_spec (hP : ∀ s, P s → Amid g f 0 c ns s) :
    Yields P (accept ";") fun r s => r = false ∧ P s := by
  refine Yields.bind (inLine_spec hP) fun o => ?_
  cases o with
  | none => exact Yields.pure fun s hs => ⟨rfl, hs.1⟩
  | some t =>
    refine Yields.ite (fun hi => Yields.absurd fun s hs => ?_) fun _ =>
      Yields.pure fun s hs => ⟨rfl, hs.1⟩
    simp only [Token.is, Bool.and_eq_true, beq_iff_eq] at hi
    exact ((hP s hs.1).fits (hs.2.1 t rfl).1.head).single hi.2

section Kinds

variable {kind : Kind}

theorem spanned_kind {p : Read (Kind × List Node)} (h : Yields (· = s') p fun r _ => r.1 = kind) :
    Yields (· = s') (spanned p) fun n _ => n.kind = kind := by
  refine Yields.bind needed_head fun t => ?_
  refine Yields.bind (h.weaken fun s hs => hs.2) fun r => ?_
  exact Yields.bind Yields.get fun _ => Yields.pure fun s hs => hs.1

theorem expressionStatement_kind : Yields (· = s') expressionStatement fun n _ =>
    n.kind = .statement := by
  refine spanned_kind (Yields.bind Yields.trivial fun left => ?_)
  refine Yields.bind Yields.trivial fun s => ?_
  have hend (ms : List Node) : Yields (fun _ => True)
      (do if ← atEnd then return (Kind.statement, ms) else Grammar.fail) fun r _ =>
        r.1 = .statement :=
    Yields.bind Yields.trivial fun _ => Yields.ite (fun _ => Yields.pure fun _ _ => rfl)
      fun _ => Yields.fail
  refine Yields.ite (fun _ => ?_) fun _ => hend _
  refine Yields.bind Yields.trivial fun _ => Yields.ite (fun _ => ?_) fun _ => ?_
  · exact Yields.bind Yields.trivial fun _ => Yields.bind Yields.trivial fun _ => hend _
  refine Yields.bind Yields.trivial fun _ => Yields.ite (fun _ => ?_) fun _ => ?_
  · exact Yields.bind Yields.trivial fun _ => Yields.bind Yields.trivial fun _ => hend _
  · exact Yields.bind Yields.trivial fun _ => hend _

theorem aliasStatement_kind : Yields (· = s') aliasStatement fun n _ => n.kind = .statement := by
  refine spanned_kind (Yields.bind Yields.trivial fun _ => Yields.ite (fun _ => ?_) fun _ =>
    Yields.fail)
  refine Yields.bind Yields.trivial fun _ => Yields.bind Yields.trivial fun _ => ?_
  refine Yields.bind Yields.trivial fun _ => Yields.bind Yields.trivial fun _ => ?_
  exact Yields.pure fun _ _ => rfl

theorem oldStatement_kind : Yields (· = s') oldStatement fun n _ => n.kind = .statement := by
  have hone {p : Read Node} {l : Node → List Node} : Yields (fun _ => True)
      (do return (Kind.statement, l (← p))) fun r _ => r.1 = .statement :=
    Yields.bind Yields.trivial fun _ => Yields.pure fun _ _ => rfl
  refine spanned_kind (Yields.bind Yields.trivial fun _ => Yields.ite (fun _ => ?_) fun _ => ?_)
  · exact Yields.bind Yields.trivial fun _ => hone
  refine Yields.bind Yields.trivial fun _ => Yields.ite (fun _ => ?_) fun _ => Yields.fail
  refine Yields.bind Yields.trivial fun t => Yields.ite (fun _ => ?_) fun _ => ?_
  · exact Yields.bind (Q := fun _ _ => False) Yields.fail fun _ => Yields.absurd fun _ => id
  refine Yields.bind Yields.trivial fun _ => Yields.bind Yields.trivial fun _ => ?_
  exact Yields.ite (fun _ => hone) fun _ => Yields.pure fun _ _ => rfl

theorem whole_spans {p : Read Node}
    (hp : Yields (· = s') p fun n s => Spans s' n s ∧ n.kind = .statement) :
    Yields (· = s') (whole p) fun n s => Spans s' n s ∧ n.kind = .statement := by
  refine Yields.bind hp fun n => ?_
  have hend : Yields (fun s => Spans s' n s ∧ n.kind = .statement) atEnd fun _ s =>
      Spans s' n s ∧ n.kind = .statement := by
    intro s a s'' hs h
    obtain ⟨o, u, ho, h⟩ := bind_eq_some.1 h
    obtain ⟨-, rfl⟩ := pure_eq_some.1 ho
    cases o with
    | none => exact (pure_eq_some.1 h).2 ▸ hs
    | some t => exact (pure_eq_some.1 h).2 ▸ hs
  exact Yields.bind hend fun _ => Yields.ite (fun _ => Yields.pure fun s hs => hs)
    fun _ => Yields.fail

/-- A simple statement is one and begins where it is read. -/
theorem simple_spans : Yields (· = s') simple fun n s => Spans s' n s ∧ n.kind = .statement := by
  refine Yields.bind needed_head fun t => ?_
  have hkeyword {p : Read (List Node)} : Yields (fun s => s'.rest.head? = some t ∧ s = s')
      (spanned do
        consume t
        return (.statement, ← p)) fun n s => Spans s' n s ∧ n.kind = .statement := by
    refine Yields.weaken (P := (· = s')) (spanned_spans.and (spanned_kind ?_)) fun s hs => hs.2
    exact Yields.bind Yields.trivial fun _ => Yields.bind Yields.trivial fun _ =>
      Yields.pure fun _ _ => rfl
  dsimp only
  split
  iterate 11 exact hkeyword
  refine Yields.weaken (P := (· = s')) (Yields.orElse ?_ (Yields.orElse ?_ ?_)) fun s hs => hs.2
  · exact whole_spans (spanned_spans.and aliasStatement_kind)
  · exact spanned_spans.and expressionStatement_kind
  · exact whole_spans (spanned_spans.and oldStatement_kind)

end Kinds

/-- A line of simple statements holds a single one. -/
theorem simples_line (fuel : Nat) (ha : Amid g f 0 false [] f.start) (hk : f.rank ≤ 1)
    (hb : Begins g f) {ms : List Node} (h : simples fuel f.start = some (ms, s)) :
    ∃ n, ms = [n] ∧ Amid g f 0 true [n] s ∧ AtLine s ∧ Spans f.start n s ∧
      n.kind = .statement := by
  cases fuel with
  | zero => cases h
  | succ fuel =>
    obtain ⟨n, s₁, hn, hrest⟩ := bind_eq_some.1 h
    have hamid := simple_keeps f ha ⟨hk, hb⟩ n s₁ hn
    obtain ⟨hspans, hkind⟩ := simple_spans rfl hn
    obtain ⟨r, s₂, hr, hline⟩ := bind_eq_some.1 hrest
    obtain ⟨rfl, rfl⟩ := semicolon_spec (P := (· = s₁)) (fun _ hs => hs ▸ hamid) rfl hr
    obtain ⟨o, s₃, ho, hlast⟩ := bind_eq_some.1 hline
    obtain ⟨rfl, -, hnone⟩ := inLine_spec (P := (· = s₂)) (fun _ hs => hs ▸ hamid) rfl ho
    cases o with
    | some t => cases hlast
    | none =>
      obtain ⟨rfl, rfl⟩ := pure_eq_some.1 hlast
      exact ⟨n, rfl, hamid, hnone rfl, hspans, hkind⟩

end Stencil.Flatten
