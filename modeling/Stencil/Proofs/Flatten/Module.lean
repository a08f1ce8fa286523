import Stencil.Dependency.Discovery
import Stencil.Proofs.Code.Scaffold
import Stencil.Proofs.Compile.Expression
import Stencil.Proofs.Flatten.Failure
import Stencil.Proofs.Flatten.Render

/-!
Generated modules read back. Above the function of a module are comments, blank rows and lines of one
statement each; the rest of the module is the function, whose lines are a sheet.
-/
namespace Stencil.Flatten
open Code Grammar Token

variable {α : Type} {g : Page} {s s' s₁ : State} {t u : Token} {ts us : List Token}
  {statement : Read (List Node)} {n : Node}

/-! ### The function -/

/-- A block that is all that is left of a text. -/
structure Suite (g : Page) (ts : List Token) : Prop where
  sheet : Sheet g ts
  owed : owed ts = 0
  first : ∃ t ∈ ts.head?, t.indent = some 4 ∧ t.shape ≠ .stop

/-- Nodes have taken all tokens of a block, one node after the other. -/
def Takes (ns : List Node) (ts : List Token) : Prop :=
  ∃ segs us, List.Forall₂ (Took 4) ns segs ∧ ts = segs.flatten ++ us ∧
    ∀ t ∈ us.head?, t.indent.isSome ∧ (t.shape ≠ .stop → ∀ j ∈ t.indent, j < 4)

/-- Statements of a block, each beginning on a line of it, with the directives of its lines. -/
structure Statements (g : Page) (ts : List Token) (ns : List Node) : Prop where
  rows : ∀ n ∈ ns, g.indentOf n.extent.row = 4
  accounts : ∃ seg, Accounts g.source ns (expected g seg)
  takes : Takes ns ts

/-- A node holds the directives of lines of the page, and its parts begin on lines of one block. -/
structure Holds (g : Page) (ts : List Token) (n : Node) : Prop where
  rows : ∀ m ∈ n.children, g.indentOf m.extent.row = 4
  directives : ∃ found, Accounts g.source n.children found ∧ ∀ e ∈ found, g.marks e.1 = some e.2
  takes : Takes n.children ts

theorem marks_of_mem_expected {e : Nat × Directive} (h : e ∈ expected g ts) : g.marks e.1 = some e.2 := by
  induction ts with
  | nil => cases h
  | cons t ts ih =>
    rw [expected] at h
    obtain h | h := List.mem_append.1 h
    · exact ih h
    · split at h
      · obtain ⟨d, hd, rfl⟩ : ∃ d, g.marks t.row = some d ∧ (t.row, d) = e := by simpa using h
        exact hd
      · cases h

/-- Every statement begins on a line of the block. -/
theorem Rounds.indentOf {w : Nat} {ns : List Node} (h : Rounds g statement w s ns s') (hr : LineByLine g statement)
    (hw : 0 < w) (ha : Amid g ⟨s, 0, w, 0, 0⟩ 0 false [] s) : ∀ n ∈ ns, g.indentOf n.extent.row = w := by
  induction h with
  | done => simp
  | @next s₀ s₁ s n ns read line makes _ _ ih =>
    have hmakes := makes 0 hw.le fun _ _ _ => hw
    obtain ⟨t, ht⟩ : ∃ t, s₀.rest.head? = some t := by
      obtain ⟨seg, hmoves, hne⟩ := hmakes.amid.moves
      obtain ⟨t, seg, rfl⟩ := List.exists_cons_of_ne_nil (hne rfl)
      exact ⟨t, by rw [show s₀.rest = _ from hmoves.rest]; rfl⟩
    have hfits := ha.fits ht
    have hne : t.text ≠ "=" := by
      intro hx
      rw [hr.refuses s₀ t ht (.inl ⟨hfits.equals hx, .inl hx⟩)] at read
      cases read
    refine List.forall_mem_cons.2 ⟨?_, ih (hmakes.amid.start 0)⟩
    rw [(hmakes.spans.start t ht).2, ((hfits.start w (line t ht)).2 hne).1]

/-- The statements of a block that is all that is left. -/
theorem blockLines_holds (hr : LineByLine g statement) (hts : Suite g s.rest) (hd : s.depth = 0)
    (hi : s.indent = 4) :
    Yields (· = s) (blockLines statement 4) fun ns _ => Statements g s.rest ns := by
  obtain ⟨t, ht, hindent, -⟩ := hts.first
  have hline : ∀ u ∈ s.rest.head?, u.indent = some 4 := fun u hu => by
    rw [← Option.some.inj (ht.symm.trans hu), hindent]
  have hstart : Amid g ⟨s, 0, 4, 0, 0⟩ 0 false [] s := by
    have hamid : Amid g ⟨s, 0, s.indent, s.depth, 0⟩ 0 false [] s :=
      Amid.of_sheet hts.sheet (by rw [hts.owed, hd]; rfl)
        (fun u hu hnone => by rw [hline u hu] at hnone; cases hnone) (Nat.zero_le _)
    rwa [hd, hi] at hamid
  have honward : Onward 4 s := fun u hu =>
    ⟨by simp [hline u hu], fun _ j hj => (Option.some.inj ((hline u hu).symm.trans hj)).ge⟩
  refine (blockLines_rounds hr (by decide) hstart honward).mono (fun _ h => h) fun ns s' hs => ?_
  obtain ⟨seg, hmoves, -⟩ := (hs.1.amid (by decide) hstart).moves
  obtain ⟨segs, htook, hrest⟩ := hs.1.took hr (by decide)
  exact ⟨hs.1.indentOf hr (by decide) hstart, ⟨seg, hmoves.accounts⟩, segs, s'.rest, htook, hrest,
    fun u hu => ⟨(hs.1.onward honward u hu).1, hs.2 u hu⟩⟩

/-- The block below a header on the outermost level. -/
theorem suite_holds (hr : LineByLine g statement) (h : s.rest = t :: ts) (ht : t.is ":")
    (hs : s.depth = 0 ∧ s.indent = 0) (hts : Suite g ts) :
    Yields (· = s) (suite statement) fun n _ => Holds g ts n := by
  obtain ⟨v, hv, hindent, hshape⟩ := hts.first
  have hrest : (after t s).rest = ts := by simp [after, h]
  refine Yields.bind (Q := fun _ s' => s' = after t s) (fun s' r s'' hs' hr => ?_) fun _ => ?_
  · subst hs'
    cases expect_gives h ht _ hr
    rfl
  refine Yields.bind Yields.get fun s' => ?_
  suffices hread : s' = after t s → Yields (· = s') _ _ from
    fun s₁ n s₂ hs₁ => by
      obtain ⟨hs₁, rfl⟩ := hs₁
      exact hread hs₁ rfl
  rintro rfl
  have hzero : (after t s).indent = 0 := hs.2
  simp only [hrest, Option.mem_def.1 hv, hindent]
  refine Yields.ite (fun _ => ?_) fun hc => by simp [hzero, hshape] at hc
  refine Yields.bind (Q := fun _ s' => s' = { after t s with indent := 4 })
    (Yields.modify fun s' hs' => by rw [hs']) fun _ => ?_
  refine Yields.bind (blockLines_holds hr (by rwa [hrest]) hs.1 rfl) fun ns => ?_
  refine Yields.bind (Q := fun _ _ => Statements g ts ns)
    (Yields.modify fun s' hs' => hrest ▸ hs') fun _ => ?_
  refine Yields.bind (Q := fun _ _ => Statements g ts ns)
    (Yields.modify fun s' hs' => hs') fun _ => ?_
  refine Yields.bind (Q := fun ns _ => Statements g ts ns)
    (Yields.pure fun s' hs' => hs') fun ms => ?_
  refine Yields.bind Yields.get fun _ => Yields.pure fun s' hs' => ?_
  obtain ⟨⟨hrows, ⟨seg, haccounts⟩, htakes⟩, -⟩ := hs'
  exact ⟨hrows, ⟨_, haccounts, fun e he => marks_of_mem_expected he⟩, htakes⟩

/-- A function without parameters. -/
theorem function_holds {d m o c a v k : Token} (hr : LineByLine g statement)
    (h : s.rest = d :: m :: o :: c :: a :: v :: k :: ts) (hd : d.text = "def" ∧ d.shape = .name)
    (ho : IsNext o .symbol "(") (hc : IsNext c .symbol ")") (ha : IsNext a .symbol "->")
    (hv : IsNext v .name "str") (hk : IsNext k .symbol ":") (hs : s.depth = 0 ∧ s.indent = 0)
    (hts : Suite g ts) :
    Yields (· = s) (functionStatement statement) fun n _ =>
      n.kind = .function m.text ∧ ∃ body ∈ n.children.getLast?, Holds g ts body := by
  have hdef : d.is "def" := by simp [Token.is, hd.1, hd.2]
  have h₁ : (after d s).rest = m :: o :: c :: a :: v :: k :: ts := by simp [after, h]
  have h₂ : (after m (after d s)).rest = o :: c :: a :: v :: k :: ts := by simp [after, h]
  have h₃ : (opened o (after m (after d s))).rest = c :: a :: v :: k :: ts := by simp [opened, after, h]
  have h₄ : (closed c (opened o (after m (after d s)))).rest = a :: v :: k :: ts := by
    simp [closed, opened, after, h]
  have h₅ : (after a (closed c (opened o (after m (after d s))))).rest = v :: k :: ts := by
    simp [closed, opened, after, h]
  have h₆ : (after v (after a (closed c (opened o (after m (after d s)))))).rest = k :: ts := by
    simp [closed, opened, after, h]
  have hparameters : Gives (nested (Grammar.parameters expression true ")")) (after o (after m (after d s))) []
      (closed c (opened o (after m (after d s)))) :=
    nested_gives (.bind (accept_gives h₃ (hc.sameLine _) hc.is) (.ite_pos rfl .pure))
  have hword := hv.word (by decide)
  have hname : Gives (starred expression) (after a (closed c (opened o (after m (after d s)))))
      (.mk .name (spanTo v (after v (after a (closed c (opened o (after m (after d s))))))) [])
      (after v (after a (closed c (opened o (after m (after d s)))))) :=
    starred_gives h₅ hword.2 (expression_gives fun _ =>
      name_gives h₅ hword.1 hword.2 (ended_of_next h₆ hk (by decide)))
  refine (needed_gives h).then (Yields.bind (Q := fun r _ => r.1 = .function m.text ∧
    ∃ body ∈ r.2.getLast?, Holds g ts body) ?_ fun r => ?_)
  · refine (refuse_gives h (is_ne hdef (by decide))).then ((expect_gives h hdef).then
      ((identifier_gives h₁).then (Gives.then (a := []) ?_ ((expect_gives h₂ ho.is).then
      (hparameters.then ((accept_gives h₄ (ha.sameLine _) ha.is).then ?_))))))
    · exact .bind (looksAt_refuse h₂ (is_ne ho.is (by decide))) (.ite_neg (by simp) .pure)
    refine Yields.ite (fun _ => hname.then (Gives.pure.then ?_)) fun hfalse => (hfalse rfl).elim
    refine Yields.bind (suite_holds hr h₆ hk.is hs hts) fun n => Yields.pure fun _ hn => ⟨rfl, n, ?_, hn⟩
    simp
  · refine Yields.bind (Q := fun _ _ => r.1 = .function m.text ∧ ∃ body ∈ r.2.getLast?, Holds g ts body)
      (Yields.get.mono (fun _ hs => hs) fun _ _ hs => hs.1) fun _ => Yields.pure fun _ hs => hs

/-! ### The rows above the function -/

section Rows

open Atom

variable {as : List Atom} {r o : Nat} {gap : Gap} {comments : List Comment} {rows : List Row}
  {x y : String}

/-- A row that is read as a single statement. -/
structure SimpleRow (as : List Atom) : Prop where
  valid : (Row.code 0 as).Valid
  simple : ∀ r g o us, Written r g o as us → IsSimple us

/-- What may stand above the function. -/
inductive HeadRow : Row → Prop
  | blank : HeadRow .blank
  | comment {cs : List Char} (h : '\n' ∉ cs) : HeadRow (.comment cs)
  | code {as : List Atom} (h : SimpleRow as) : HeadRow (.code 0 as)

theorem HeadRow.valid {row : Row} (h : HeadRow row) : row.Valid := by
  cases h with
  | blank => exact True.intro
  | comment h => exact h
  | code h => exact h.valid

/-- Names with blanks between them. -/
def spaced : List String → List Atom
  | [] => []
  | [x] => [word x.toList]
  | x :: y :: xs => word x.toList :: .blank :: spaced (y :: xs)

theorem valid_spaced {xs : List String} (h : ∀ y ∈ x :: xs, Text.isIdentifier y.toList) :
    (Row.code 0 (spaced (x :: xs))).Valid := by
  induction xs generalizing x with
  | nil =>
    refine ⟨⟨_, rfl, by simp⟩, by simpa [spaced, Atom.Valid] using h, ?_, True.intro⟩
    exact (by decide : Token.endsName '\n' = true)
  | cons y xs ih =>
    obtain ⟨hx, hrest⟩ := List.forall_mem_cons.1 h
    obtain ⟨-, hvalid, hfit⟩ := ih hrest
    refine ⟨⟨_, rfl, by simp⟩, ?_, ?_, rfl, hfit⟩
    · simpa [spaced, Atom.Valid] using ⟨hx, hvalid⟩
    · exact (by decide : Token.endsName ' ' = true)

/-- The tokens of names with blanks between them. -/
theorem written_spaced {xs : List String} (h : Written r gap o (spaced (x :: xs)) us) :
    ∃ t ts, us = t :: ts ∧ (t.shape = .name ∧ t.text = x) ∧
      List.Forall₂ (fun u y => IsNext u .name y) ts xs := by
  have hgap : ∀ {gap : Gap} {o : Nat} {us : List Token} {x : String} (xs : List String),
      Written r gap o (spaced (x :: xs)) us → ∃ t ts, us = t :: ts ∧
        (t.shape = .name ∧ t.text = x ∧ t.indent = gap.indent) ∧
        List.Forall₂ (fun u y => IsNext u .name y) ts xs := by
    intro gap o us x xs h
    induction xs generalizing gap o us x with
    | nil =>
      obtain ⟨_, rfl, h₁⟩ := written_word h
      obtain rfl := written_nil h₁
      exact ⟨_, _, rfl, ⟨rfl, String.ofList_toList, rfl⟩, .nil⟩
    | cons y xs ih =>
      obtain ⟨_, rfl, h₁⟩ := written_word h
      cases h₁ with
      | blank h₂ =>
        obtain ⟨u, ts, rfl, hu, hts⟩ := ih h₂
        exact ⟨_, _, rfl, ⟨rfl, String.ofList_toList, rfl⟩, .cons hu hts⟩
  obtain ⟨t, ts, hus, ht, hts⟩ := hgap xs h
  exact ⟨t, ts, hus, ⟨ht.1, ht.2.1⟩, hts⟩

theorem simpleRow_import (h : Text.isIdentifier x.toList) : SimpleRow (spaced ["import", x]) where
  valid := valid_spaced (by simpa using ⟨by decide, h⟩)
  simple r g o us hw := by
    obtain ⟨t, _, rfl, ht, hts⟩ := written_spaced hw
    cases hts with
    | cons _ hts =>
      cases hts
      exact isSimple_import ht

/-- The end of an import from a module. -/
theorem isSimple_from_names {m : String} {names : List String}
    (hm : m ≠ "." ∧ m ≠ "...") (hx : x ≠ "*" ∧ x ≠ "(")
    (hw : Written r gap o (spaced ("from" :: m :: "import" :: x :: names)) us)
    (hitem : ∀ u ts, IsNext u .name x → List.Forall₂ (fun u y => IsNext u .name y) ts names →
      ∀ s vs, s.rest = u :: ts ++ vs → s.depth = 0 → (∀ v ∈ vs.head?, v.indent.isSome) →
        Gives importItem s () (behind (u :: ts) s)) : IsSimple us := by
  obtain ⟨t, _, rfl, ht, hts⟩ := written_spaced hw
  cases hts with
  | cons hmodule hts =>
    cases hts with
    | cons himport hts =>
      cases hts with
      | cons hu hts =>
        refine isSimple_from ht ⟨is_ne hmodule.is_name hm.1, is_ne hmodule.is_name hm.2⟩ himport.is_name
          ⟨is_ne hu.is_name hx.1, is_ne hu.is_name hx.2⟩ (hitem _ _ hu hts)

theorem simpleRow_from {m : String} (hm : Text.isIdentifier m.toList ∧ m ≠ "." ∧ m ≠ "...")
    (hx : Text.isIdentifier x.toList ∧ x ≠ "*" ∧ x ≠ "(") : SimpleRow (spaced ["from", m, "import", x]) where
  valid := valid_spaced (by simpa using ⟨by decide, hm.1, by decide, hx.1⟩)
  simple r g o us hw := isSimple_from_names hm.2 hx.2 hw fun u ts hu hts s vs h hd hline => by
    cases hts
    have hstate : behind [u] s = after u s := behind_single u s
    have hend := (behind_end h hd hline).1
    rw [hstate] at hend ⊢
    exact importItem_gives h hend

theorem simpleRow_from_as {m : String} (hm : Text.isIdentifier m.toList ∧ m ≠ "." ∧ m ≠ "...")
    (hx : Text.isIdentifier x.toList ∧ x ≠ "*" ∧ x ≠ "(") (hy : Text.isIdentifier y.toList) :
    SimpleRow (spaced ["from", m, "import", x, "as", y]) where
  valid := valid_spaced (by simpa using ⟨by decide, hm.1, by decide, hx.1, by decide, hy⟩)
  simple r g o us hw := isSimple_from_names hm.2 hx.2 hw fun u ts hu hts s vs h hd hline => by
    cases hts with
    | cons has hts =>
      cases hts with
      | cons hv hts =>
        cases hts
        have := importItem_as_gives h has
        simpa [behind, after, h] using this

/-- The declaration of a variable as a row. -/
def declarationParts (cs : List Char) : List Atom :=
  [word cs, symbol ":", .blank, word "typing".toList, member "Any".toList]

theorem simpleRow_declaration {cs : List Char} (h : Text.isIdentifier cs) (hx : isHard (String.ofList cs) = false)
    (hw : String.ofList cs ∉ leaders ∧ String.ofList cs ∉ special ∧ String.ofList cs ∉ compound) :
    SimpleRow (declarationParts cs) where
  valid := by
    refine ⟨⟨_, rfl, by simp⟩, ?_, ?_⟩
    · simp only [declarationParts, List.forall_mem_cons, Atom.Valid]
      exact ⟨h, by decide, True.intro, by decide, by decide, by simp⟩
    · refine ⟨(by decide : Token.endsName ':' = true), ?_⟩
      simp only [Fit]
      decide
  simple r g o us hwritten := by
    obtain ⟨_, rfl, h₁⟩ := written_word hwritten
    obtain ⟨_, rfl, h₂⟩ := written_symbol h₁
    cases h₂ with
    | blank h₂ =>
      obtain ⟨_, rfl, h₃⟩ := written_word h₂
      obtain ⟨_, rfl, h₄⟩ := written_member h₃
      obtain rfl := written_nil h₄
      exact isSimple_declaration ⟨rfl, hx, hw⟩ (isNext_tokenOf _ _) (isNext_tokenOf _ _) (isNext_tokenOf _ _)

/-! ### All rows -/

/-- The header of the function that a module is for. -/
def renderParts : List Atom :=
  [word "def".toList, .blank, word renderFunction.toList, symbol "(", symbol ")", .blank, symbol "->", .blank,
    word "str".toList, symbol ":"]

theorem written_head (h : Written r gap o as us) : ∀ t ∈ us.head?, t.indent = gap.indent := by
  induction h with
  | nil => simp
  | blank _ ih => exact ih
  | word | quoted | symbol | member => simp [tokenOf]
  | number hcs =>
    obtain ⟨t, ts, rfl, hindent, -⟩ := hcs.head
    simpa using hindent

/-- Every row begins with a token that has the row's indentation. -/
theorem ofRows_head (h : OfRows r o comments rows ts) : ∀ t ∈ ts.head?, t.indent.isSome := by
  induction h with
  | stop => simp
  | blank _ ih => exact ih
  | comment _ ih => exact ih
  | @code _ _ _ _ _ _ us ts hrow _ ih =>
    cases us with
    | nil => exact ih
    | cons u us => exact fun t ht => by rw [written_head hrow t ht]; rfl

/-- Behind the last row stands a token that ends the text. -/
theorem exists_stop (h : OfRows r o comments rows ts) : ∃ t ∈ ts, t.indent = some 0 := by
  induction h with
  | stop => exact ⟨_, List.mem_singleton.2 rfl, rfl⟩
  | blank _ ih | comment _ ih => exact ih
  | code _ _ ih =>
    obtain ⟨t, ht, hstop⟩ := ih
    exact ⟨t, List.mem_append_right _ ht, hstop⟩

/-- In front of a row above the function, or of the function. -/
structure Above (g : Page) (es : List Entry) (first : Nat) (s : State) : Prop where
  rows : ∃ rows r o comments, (∀ row ∈ rows, HeadRow row) ∧ r + rows.length + 1 = first ∧
    OfRows r o comments (rows ++ .code 0 renderParts :: es.map Entry.row) s.rest
  place : InPlace g.source s.rest
  depth : s.depth = 0
  indent : s.indent = 0

/-- The lines of the function's body. -/
structure Body (g : Page) (es : List Entry) (first : Nat) : Prop where
  valid : ∀ e ∈ es, e.Valid
  nested : Nested es
  describes : Describes g first es
  head : ∃ e ∈ es.head?, e.depth = 1 ∧ e.shift = 0

/-- The node of the function. -/
def IsRender (g : Page) (es : List Entry) (first : Nat) (n : Node) : Prop :=
  n.kind = .function renderFunction ∧ ∃ body ∈ n.children.getLast?, ∃ o ts,
    OfRows first o [] (es.map Entry.row) ts ∧ InPlace g.source ts ∧ Holds g ts body

variable {es : List Entry} {first k : Nat}

theorem Body.suite (h : Body g es first) (hrows : OfRows first o [] (es.map Entry.row) ts)
    (hplace : InPlace g.source ts) : Suite g ts := by
  obtain ⟨hsheet, howed, -⟩ := sheet_of_entries hrows h.valid h.nested h.describes hplace
  refine ⟨hsheet, howed, ?_⟩
  obtain ⟨e, he, hdepth, hshift⟩ := h.head
  obtain ⟨es, rfl⟩ : ∃ fs, es = e :: fs := ⟨es.tail, (List.cons_head?_tail he).symm⟩
  have hlined := (h.valid e (by simp)).lined
  cases hrows with
  | @code _ _ _ _ _ _ us ts hrow _ =>
    obtain ⟨t, ht, -⟩ := written_leading hrow hlined.spec.sound hlined.spec.begins
    have hshape := (written_tokens hrow hlined.spec.sound t (List.mem_of_mem_head? ht)).1
    refine ⟨t, List.mem_head?_append_of_mem_head? ht, ?_, fun hstop => by simp [Shaped, hstop] at hshape⟩
    rw [written_head hrow t ht, hdepth, hshift]

/-- The line of the function. -/
theorem render_round (hdepth : s.depth = 0) (hindent : s.indent = 0)
    (hrow : Written r gap o renderParts us) (hrest : s.rest = us ++ ts) (hts : Suite g ts) :
    Yields (· = s) (Grammar.lineAt k) fun ns _ => ∃ n, ns = [n] ∧ n.kind = .function renderFunction ∧
      ∃ body ∈ n.children.getLast?, Holds g ts body := by
  obtain ⟨_, rfl, h₁⟩ := written_word hrow
  cases h₁ with
  | blank h₁ =>
    obtain ⟨_, rfl, h₂⟩ := written_word h₁
    obtain ⟨_, rfl, h₃⟩ := written_symbol h₂
    obtain ⟨_, rfl, h₄⟩ := written_symbol h₃
    cases h₄ with
    | blank h₄ =>
      obtain ⟨_, rfl, h₅⟩ := written_symbol h₄
      cases h₅ with
      | blank h₅ =>
        obtain ⟨_, rfl, h₆⟩ := written_word h₅
        obtain ⟨_, rfl, h₇⟩ := written_symbol h₆
        obtain rfl := written_nil h₇
        cases k with
        | zero => exact Yields.fail
        | succ k =>
          have hfunction := function_holds (lineAt_lines k) hrest ⟨rfl, rfl⟩ (isNext_tokenOf _ _)
            (isNext_tokenOf _ _) (isNext_tokenOf _ _) (isNext_tokenOf _ _) (isNext_tokenOf _ _)
            ⟨hdepth, hindent⟩ hts
          refine (needed_gives hrest).then (second_gives.then (Gives.get.then ?_))
          exact Yields.bind hfunction fun n => Yields.pure fun _ hn => ⟨n, rfl, hn⟩

/-- A line above the function is a statement. -/
theorem above_round (hbody : Body g es first) (hs : Above g es first s) :
    Yields (· = s) (Grammar.lineAt k) fun ns s' =>
      (∃ n, ns = [n] ∧ n.kind = .statement ∧ Above g es first s') ∨ ∃ n, ns = [n] ∧ IsRender g es first n := by
  obtain ⟨⟨rows, r, o, comments, hhead, hfirst, hrows⟩, hplace, hdepth, hindent⟩ := hs
  induction rows generalizing r o comments with
  | nil =>
    generalize hrest : s.rest = vs at hrows hplace
    cases hrows with
    | code hrow hrows =>
      obtain rfl : r + 1 = first := by simpa using hfirst
      have hplace := hplace.of_append
      exact (render_round hdepth hindent hrow hrest (hbody.suite hrows hplace)).mono (fun _ h => h)
        fun ns _ ⟨n, hns, hkind, body, hlast, hholds⟩ => .inr ⟨n, hns, hkind, body, hlast, _, _, hrows, hplace, hholds⟩
  | cons row rows ih =>
    obtain ⟨hrow, hhead'⟩ := List.forall_mem_cons.1 hhead
    rw [List.length_cons] at hfirst
    cases hrow with
    | blank =>
      cases hrows with
      | blank hrows => exact ih (r + 1) _ _ hhead' (by omega) hrows
    | comment hcs =>
      cases hrows with
      | comment hrows => exact ih (r + 1) _ _ hhead' (by omega) hrows
    | code has =>
      generalize hrest : s.rest = vs at hrows hplace
      cases hrows with
      | @code _ _ _ _ _ _ us ts hrow hrows =>
        obtain ⟨n, hn, hgives⟩ := has.simple _ _ _ _ hrow k s ts hrest hdepth (ofRows_head hrows)
        have hrest' : (behind us s).rest = ts := by simp [behind, hrest]
        rintro _ ns s' rfl hread
        cases hgives _ hread
        refine .inl ⟨n, rfl, hn, ⟨rows, r + 1, _, [], hhead', by omega, hrest' ▸ hrows⟩, ?_, hdepth, hindent⟩
        rw [hrest']
        exact hplace.of_append

/-- What has been read of a module: only statements, or the function behind them. -/
def Passed (g : Page) (es : List Entry) (first : Nat) (ns : List Node) (s : State) : Prop :=
  (∀ n ∈ ns, n.kind = .statement) ∧ Above g es first s ∨
    ∃ pre n post, ns = pre ++ n :: post ∧ (∀ m ∈ pre, m.kind = .statement) ∧ IsRender g es first n

theorem passed_round (hbody : Body g es first) (ns : List Node) :
    Yields (Passed g es first ns) (Grammar.lineAt k) fun ms => Passed g es first (ns ++ ms) := by
  rintro s ms s' (⟨hns, habove⟩ | ⟨pre, n, post, rfl, hpre, hn⟩) hread
  · obtain ⟨n, rfl, hn, habove'⟩ | ⟨n, rfl, hn⟩ := above_round hbody habove rfl hread
    · exact .inl ⟨List.forall_mem_append.2 ⟨hns, by simpa using hn⟩, habove'⟩
    · exact .inr ⟨ns, n, [], rfl, hns, hn⟩
  · exact .inr ⟨pre, n, post ++ ms, by simp, hpre, hn⟩

theorem passed_blockLines (hbody : Body g es first) :
    Yields (Passed g es first []) (blockLines (Grammar.lineAt k) 0) fun ns => Passed g es first ns := by
  refine Yields.bind (Yields.many (I := Passed g es first) (f := id) (l := []) fun ns => ?_) fun found =>
    Yields.pure fun s hs => by simpa using hs
  refine Yields.bind Yields.get fun s => ?_
  split
  · refine Yields.ite (fun _ => ?_) fun _ => Yields.pure fun s hs => by simpa using hs.1
    refine Yields.bind ((passed_round hbody ns).weaken fun s hs => hs.1) fun ms => Yields.pure fun s hs => ?_
    simpa using hs
  · exact Yields.pure fun s hs => by simpa using hs.1

theorem valid_renderParts : (Row.code 0 renderParts).Valid := by
  refine ⟨⟨_, rfl, by simp⟩, ?_, ?_⟩
  · simp only [renderParts, List.forall_mem_cons, Atom.Valid]
    exact ⟨by decide, True.intro, by decide, by decide, by decide, True.intro, by decide, True.intro, by decide,
      by decide, by simp⟩
  · simp only [renderParts, Fit]
    decide

theorem Entry.Valid.row {e : Entry} (h : e.Valid) : e.row.Valid :=
  ⟨h.lined.spec.begins, fun a ha => (h.lined.spec.sound a ha).valid, h.lined.spec.fit⟩

theorem inPlace_of_all {source : List Char} (h : all? source = some ts) : InPlace source ts := by
  obtain ⟨hplaced, hordered⟩ := allFrom_placed h ⟨[], rfl, rfl⟩ (Nat.zero_le _)
  exact ⟨fun t ht => (hplaced t ht).2, hordered⟩

/-- The text of a module. -/
structure IsModule (g : Page) (head : List Row) (es : List Entry) : Prop where
  source : g.source = Row.text (head ++ .code 0 renderParts :: es.map Entry.row)
  above : ∀ row ∈ head, HeadRow row
  body : Body g es (head.length + 1)

namespace IsModule

variable {head : List Row} {nodes : List Node} {body : Node}

theorem ofRows (h : IsModule g head es) (hts : all? g.source = some ts) :
    OfRows 0 0 [] (head ++ .code 0 renderParts :: es.map Entry.row) ts := by
  refine all_ofRows (fun row hrow => ?_) (h.source ▸ hts)
  obtain hrow | hrow := List.mem_append.1 hrow
  · exact (h.above row hrow).valid
  · obtain rfl | hrow := List.mem_cons.1 hrow
    · exact valid_renderParts
    · obtain ⟨e, he, rfl⟩ := List.mem_map.1 hrow
      exact (h.body.valid e he).row

theorem passed (h : IsModule g head es) (hparse : Code.parse? g.source = some nodes) :
    ∃ s, Passed g es (head.length + 1) nodes s := by
  obtain ⟨tokens, htokens, hparse⟩ := Option.bind_eq_some_iff.1 hparse
  obtain ⟨⟨_, s⟩, hmodule, hnodes⟩ := Option.bind_eq_some_iff.1 hparse
  cases hnodes
  have habove : Above g es (head.length + 1) ⟨tokens, 0, 0, 0, 0⟩ :=
    ⟨⟨head, 0, 0, [], h.above, by omega, h.ofRows htokens⟩, inPlace_of_all htokens, rfl, rfl⟩
  obtain ⟨_, _, hget, hmodule⟩ := bind_eq_some.1 hmodule
  cases hget
  obtain ⟨found, s₁, hfound, hmodule⟩ := bind_eq_some.1 hmodule
  have hpassed := passed_blockLines h.body (.inl ⟨by simp, habove⟩) hfound
  have hend : nodes = found := by
    refine (Yields.bind Yields.trivial fun s => ?_ : Yields (fun _ => True) _ fun ns _ => ns = found)
      True.intro hmodule
    split
    · exact Yields.ite (fun _ => Yields.pure fun _ _ => rfl) fun _ => Yields.fail
    · exact Yields.fail
  exact ⟨s₁, hend ▸ hpassed⟩

/-- The function that is found holds the directives of the module's lines. -/
theorem holds (h : IsModule g head es) (hparse : Code.parse? g.source = some nodes)
    (hrender : renderBody? nodes = some body) : ∃ o ts,
      OfRows (head.length + 1) o [] (es.map Entry.row) ts ∧ InPlace g.source ts ∧ Holds g ts body := by
  have hother {n : Node} (hn : n.kind = .statement) : ¬ (n.kind == .function renderFunction) = true := by
    simp [hn]
  obtain ⟨s, ⟨hns, -⟩ | ⟨pre, n, post, rfl, hpre, hn, last, hlast, hholds⟩⟩ := h.passed hparse
  · obtain ⟨n, hn, -⟩ := Option.bind_eq_some_iff.1 hrender
    exact (hother (hns n (List.mem_of_find?_eq_some hn)) (List.find?_eq_some_iff_append.1 hn).1).elim
  · have hfind : (pre ++ n :: post).find? (fun m => m.kind == .function renderFunction) = some n := by
      rw [List.find?_append, List.find?_eq_none.2 fun m hm => hother (hpre m hm)]
      simp [hn]
    rw [renderBody?, hfind, Option.bind_some] at hrender
    obtain rfl := Option.some.inj (hlast.symm.trans hrender)
    exact hholds

/-- The statements of the function take all rows below its header. -/
theorem pieces (h : IsModule g head es) (hdepth : ∀ e ∈ es, 1 ≤ e.depth) (hparse : Code.parse? g.source = some nodes)
    (hrender : renderBody? nodes = some body) :
    ∃ ess, es = ess.flatten ∧ Pieces g.source (head.length + 1) body.children ess := by
  obtain ⟨o, ts, hrows, hplace, -, -, segs, us, htook, rfl, hus⟩ := h.holds hparse hrender
  refine pieces_of_took htook hrows h.body.valid hdepth hplace ?_
  obtain ⟨t, ht, hstop⟩ := exists_stop hrows
  obtain ht | ht := List.mem_append.1 ht
  · obtain ⟨seg, hseg, ht⟩ := List.mem_flatten.1 ht
    obtain ⟨n, -, hn⟩ := exists_of_each htook hseg
    exact (hn.above t ht hstop).elim
  · obtain ⟨u, us, rfl⟩ := List.exists_cons_of_ne_nil (List.ne_nil_of_mem ht)
    exact ⟨u, rfl, hus u rfl⟩

end IsModule

/-! ### Segments -/

section Segments

variable {P : Segment → Prop} {lines : Array String} {origins : List (Nat × Location)} {found : Found} {row : Nat}
  {segs : List Segment} {node : Node} {source : List Char} {before reading : Reading}

/-- A segment is a row without its indentation. -/
theorem segment_spec {s : Segment} (h : segment lines origins found row = .ok segs) (hs : s ∈ segs) :
    ∃ text, lines[row]? = some text ∧ s.line.code.toList = text.toList.dropWhile (· == ' ') ∧
      s.line.origin = (origins.lookup (row + 1)).map Chain.single ∧ s.directive = found.lookup row := by
  unfold segment at h
  split at h
  · cases h
  · next text htext =>
    dsimp only at h
    split at h
    · cases h
      cases hs
    · cases h
      obtain rfl := List.mem_singleton.1 hs
      exact ⟨text, htext, String.toList_ofList, rfl, rfl⟩

/-- The segments of a statement are those of its rows. -/
theorem segments_spec (hrow : ∀ row segs, first ≤ row → segment lines origins found row = .ok segs → ∀ s ∈ segs, P s)
    (hnode : first ≤ node.extent.row) (h : segments lines origins found node = .ok segs) : ∀ s ∈ segs, P s := by
  unfold segments at h
  obtain ⟨parts, hparts, hsegs⟩ := Compile.bind_eq_ok.1 h
  have hrows : ∀ row ∈ (List.range (node.extent.endRow + 1 - node.extent.row)).map (node.extent.row + ·),
      first ≤ row := by
    intro row hmem
    obtain ⟨k, -, rfl⟩ := List.mem_map.1 hmem
    exact hnode.trans (Nat.le_add_right _ _)
  generalize (List.range _).map _ = rows at hparts hrows
  have hspec := mapM_spec (segment lines origins found) rows
  rw [hparts] at hspec
  cases hsegs
  clear hparts h
  induction hspec with
  | nil => simp
  | cons hseg _ ih =>
    obtain ⟨hfirst, hrows⟩ := List.forall_mem_cons.1 hrows
    exact List.forall_mem_append.2 ⟨hrow _ _ hfirst hseg, ih hrows⟩

theorem define_spec {name : String} {ds : List (String × List Segment)} (hsegs : ∀ s ∈ segs, P s)
    (h : ∀ s ∈ ds.flatMap (·.2), P s) : ∀ s ∈ (define name segs ds).flatMap (·.2), P s := by
  induction ds with
  | nil => simpa [define] using hsegs
  | cons d ds ih =>
    rw [List.flatMap_cons] at h
    obtain ⟨hd, hds⟩ := List.forall_mem_append.1 h
    unfold define
    split
    · exact List.forall_mem_append.2 ⟨hsegs, hds⟩
    · exact List.forall_mem_append.2 ⟨hd, ih hds⟩

theorem readStatement_spec
    (hrow : ∀ row segs, first ≤ row → segment lines origins found row = .ok segs → ∀ s ∈ segs, P s)
    (hnode : first ≤ node.extent.row) (hbefore : ∀ s ∈ before.segments, P s)
    (h : readStatement lines origins found source before node = .ok reading) : ∀ s ∈ reading.segments, P s := by
  obtain ⟨hdefinitions, hbody⟩ := List.forall_mem_append.1 hbefore
  unfold readStatement at h
  split at h
  · obtain ⟨segs, hsegs, h⟩ := Compile.bind_eq_ok.1 h
    cases h
    exact List.forall_mem_append.2 ⟨define_spec (segments_spec hrow hnode hsegs) hdefinitions, hbody⟩
  · split at h
    · cases h
      exact hbefore
    · obtain ⟨segs, hsegs, h⟩ := Compile.bind_eq_ok.1 h
      cases h
      exact List.forall_mem_append.2
        ⟨hdefinitions, List.forall_mem_append.2 ⟨hbody, segments_spec hrow hnode hsegs⟩⟩

end Segments

/-- A page that these lines are on, from a row on. -/
def Page.ofEntries (source : List Char) (first : Nat) (es : List Entry) : Page where
  source
  marks row := if first ≤ row then es[row - first]?.bind (·.kind.mark?) else none
  indentOf row := if first ≤ row then (es[row - first]?.map (4 * ·.depth)).getD 0 else 0
  isHeader row := first ≤ row && es[row - first]?.any fun e => e.kind matches .header

theorem Page.ofEntries_describes (source : List Char) (first : Nat) (es : List Entry) :
    Describes (Page.ofEntries source first es) first es where
  marks k := by simp [Page.ofEntries]
  indentOf k := by simp [Page.ofEntries]
  isHeader k := by
    simp only [Page.ofEntries, Nat.le_add_right, decide_true, Bool.true_and, Nat.add_sub_cancel_left,
      Option.any_eq_true]
    refine exists_congr fun e => and_congr_right fun _ => ?_
    cases e.kind <;> simp

/-- What holds of the rows of a module's function holds of all that is read in it. -/
theorem segments_of_read {P : Segment → Prop} {file : Path} {code : String} {origins : List (Nat × Location)}
    {r : Reading} {head : List Row} {es : List Entry}
    (hcode : code.toList = Row.text (head ++ .code 0 renderParts :: es.map Entry.row))
    (hhead : ∀ row ∈ head, HeadRow row) (hvalid : ∀ e ∈ es, e.Valid) (hnested : Nested es)
    (hfirst : ∃ e ∈ es.head?, e.depth = 1 ∧ e.shift = 0) (hread : read file code origins = .ok r)
    (hrow : ∀ found : Found,
      (∀ k d, found.lookup (head.length + 1 + k) = some d → ∃ e, es[k]? = some e ∧ e.kind.mark? = some d) →
      ∀ k segs, segment ((Text.linesOf code.toList).map String.ofList).toArray origins found (head.length + 1 + k) =
        .ok segs → ∀ s ∈ segs, P s) : ∀ s ∈ r.segments, P s := by
  have hmodule : IsModule (Page.ofEntries code.toList (head.length + 1) es) head es :=
    ⟨hcode, hhead, hvalid, hnested, Page.ofEntries_describes _ _ _, hfirst⟩
  unfold read readChars at hread
  dsimp only at hread
  split at hread
  · cases hread
  · next nodes hparse =>
    split at hread
    · cases hread
    · next body hbody =>
      obtain ⟨_, _, -, -, hrows, ⟨found, haccounts, hmarks⟩, -⟩ := hmodule.holds hparse hbody
      have hfound := haccounts (some body) none []
      rw [List.append_nil] at hfound
      obtain ⟨_, hfound', hfold⟩ := Compile.bind_eq_ok.1 hread
      obtain rfl := Except.ok.inj (hfound.symm.trans hfound')
      have hall := hrow found fun k d hd => by
        obtain ⟨_, _, hmem, -⟩ := List.lookup_eq_some_iff.1 hd
        have hmark := hmarks (head.length + 1 + k, d) (by simp [hmem])
        rw [(Page.ofEntries_describes _ _ _).marks, Option.bind_eq_some_iff] at hmark
        exact hmark
      refine Dependency.Discovery.foldlM_keeps (p := fun r => ∀ s ∈ r.segments, P s)
        (fun before n reading hn hbefore h => ?_) (by simp [Reading.segments]) hfold
      have hnode : head.length + 1 ≤ n.extent.row := by
        by_contra hlt
        have hrow := hrows n hn
        dsimp only [Page.ofEntries] at hrow
        rw [if_neg hlt] at hrow
        cases hrow
      refine readStatement_spec (fun row segs hle hsegs => ?_) hnode hbefore h
      obtain ⟨k, rfl⟩ := Nat.exists_eq_add_of_le hle
      exact hall k segs hsegs

end Rows

end Stencil.Flatten
