import Stencil.Proofs.Flatten.Levels

/-! Lines that hold a directive are read as the call they are. -/
namespace Stencil.Flatten
open Code Grammar

variable {g : Page} {f : Frame} {s s' : State} {n : Node} {e : Directive} {t : Token}
  {ts : List Token} {source : List Char} {x : String}

theorem isHard_of_isReserved (h : isReserved x) : isHard x = false := by
  have hk : ∀ y ∈ keywords, isReserved y = false := by decide
  have hx : isKeyword x = false := by
    simp only [isKeyword, List.contains_eq_mem, decide_eq_false_iff_not]
    intro hmem
    rw [hk x hmem] at h
    cases h
  simp [isHard, hx]

theorem plain_of_shape (h : t.shape = .quoted) : Plain t := by
  intro x _
  simp [Token.is, h]

theorem plain_of_reserved (h : isReserved t.text) : Plain t := by
  intro x hx
  have hl : ∀ y ∈ leaders, isReserved y = false := by decide
  simp only [Token.is, Bool.and_eq_false_iff, beq_eq_false_iff_ne]
  refine .inr fun he => ?_
  rw [he, hl x hx] at h
  cases h

theorem not_is_of_reserved (h : isReserved t.text) (hx : isReserved x = false) : t.is x = false := by
  simp only [Token.is, Bool.and_eq_false_iff, beq_eq_false_iff_ne]
  refine .inr fun he => ?_
  rw [he, hx] at h
  cases h

theorem literal_gives {k : Nat} (h : s.rest = t :: ts) (hq : t.shape = .quoted)
    (he : Ended (after t s)) :
    Gives (pair k).1 s (.mk .quoted (spanTo t (after t s)) []) (after t s) :=
  pair_gives h (plain_of_shape hq) he fun _ =>
    .bind (atom_quoted_gives h hq he) (.bind .get (trailers_nil_gives he _))

/-- The node of an attribute of a name. -/
def memberNode (a b : Token) : Node :=
  .mk .member ⟨a.start, b.stop, a.row, b.endRow⟩ [.mk .name ⟨a.start, a.stop, a.row, a.endRow⟩ []]

/-- The node of its call with a single argument. -/
def callNode (a b o close : Token) (n : Node) : Node :=
  .mk .call ⟨a.start, close.stop, a.row, close.endRow⟩
    [memberNode a b, .mk .arguments ⟨o.start, close.stop, o.row, close.endRow⟩ [n]]

/-- A name with an attribute that is called, up to the opening bracket. -/
structure Calls (a dot b o : Token) : Prop where
  owner : a.shape = .name ∧ isHard a.text = false
  dot : IsNext dot .symbol "."
  name : b.shape = .name ∧ isHard b.text = false ∧ b.indent = none
  opening : IsNext o .symbol "("

theorem call_gives {k : Nat} {a dot b o l close : Token} {m rest : List Token}
    (h : s.rest = a :: dot :: b :: o :: l :: (m ++ close :: rest)) (hc : Calls a dot b o)
    (hl : ∀ x ∈ [")", ","], l.is x = false)
    (harg : Gives (argument (pair k).1) (opened o (after b (after dot (after a s)))) n
      (behind (l :: m) (opened o (after b (after dot (after a s))))))
    (hclose : IsNext close .symbol ")")
    (he : Ended (behind (a :: dot :: b :: o :: l :: (m ++ [close])) s)) :
    Gives (postfixed (pair k).1 (pair k).2) s (callNode a b o close n)
      (behind (a :: dot :: b :: o :: l :: (m ++ [close])) s) := by
  have hlast : (a :: dot :: b :: o :: l :: (m ++ [close])).getLast? = some close := by
    rw [show a :: dot :: b :: o :: l :: (m ++ [close]) =
      (a :: dot :: b :: o :: l :: m) ++ [close] by simp]
    exact List.getLast?_concat
  have hstate : closed close (behind (l :: m) (opened o (after b (after dot (after a s))))) =
      behind (a :: dot :: b :: o :: l :: (m ++ [close])) s := by
    simp [closed, behind, opened, after, h, hlast]
  have hrest : (behind (l :: m) (opened o (after b (after dot (after a s))))).rest =
      close :: rest := by simp [behind, opened, after, h]
  have hcall : Gives (postfixed (pair k).1 (pair k).2) s _ _ :=
    postfixed_call_gives h (by simp [isIdentifier, hc.owner]) hc.dot.is
      (by simp [isIdentifier, hc.name]) hc.opening.is ⟨hc.dot.2.2, hc.name.2.2, hc.opening.2.2⟩
      hl harg hrest hclose.is (by simp [behind, opened]) (by rwa [hstate])
  rw [hstate] at hcall
  have hspan (u : Token) : spanTo u (behind (a :: dot :: b :: o :: l :: (m ++ [close])) s) =
      ⟨u.start, close.stop, u.row, close.endRow⟩ := by
    simp [spanTo, behind, hlast]
  rw [hspan, hspan] at hcall
  exact hcall

/-- A call with a literal as its argument. -/
theorem call_literal_gives {k : Nat} {a dot b o l close : Token} {rest : List Token}
    (h : s.rest = a :: dot :: b :: o :: l :: close :: rest) (hc : Calls a dot b o)
    (hq : l.shape = .quoted ∧ l.indent = none) (hclose : IsNext close .symbol ")")
    (he : Ended (behind [a, dot, b, o, l, close] s)) :
    Gives (postfixed (pair k).1 (pair k).2) s
      (callNode a b o close (.mk .quoted ⟨l.start, l.stop, l.row, l.endRow⟩ []))
      (behind [a, dot, b, o, l, close] s) := by
  have hrest : (opened o (after b (after dot (after a s)))).rest = l :: close :: rest := by
    simp [opened, after, h]
  refine call_gives (m := []) h hc (fun x _ => by simp [Token.is, hq.1]) ?_
    hclose he
  refine argument_gives hrest (plain_of_shape hq.1) (is_ne hclose.is (by decide)) ?_
  rw [behind_single]
  refine literal_gives hrest hq.1 fun t ht _ => ?_
  obtain rfl : close = t := by simpa [after, opened, h] using ht
  exact ⟨hclose.1, by simp [hclose.2.1, closers]⟩

/-- The tokens of a directive and the node that they are read as. -/
structure Stated (g : Page) (s : State) (e : Directive) (t : Token) (ts : List Token)
    (n : Node) : Prop where
  rest : s.rest = t :: ts ++ (behind (t :: ts) s).rest
  line : ∀ u ∈ ts, u.indent = none
  owed : owed (t :: ts) = 0
  reserved : isReserved t.text
  colonless : ∀ u ∈ t :: ts, u.text ≠ ":"
  ended : ∀ u ∈ (behind (t :: ts) s).rest.head?, u.indent.isSome
  gives : ∀ k, Gives (postfixed (pair k).1 (pair k).2) s n (behind (t :: ts) s)
  directive : ∀ parent around before,
    directives g.source parent around n before = .ok ((t.row, e) :: before)

theorem weightOf_of_isReserved (h : isReserved x) : weightOf x = 0 := by
  have hb : ∀ y ∈ ["(", "[", "\x7b", ")", "]", "\x7d"], isReserved y = false := by decide
  have hx (y : String) (hy : y ∈ ["(", "[", "\x7b", ")", "]", "\x7d"]) : x ≠ y := by
    rintro rfl
    rw [hb x hy] at h
    cases h
  simp only [List.mem_cons, List.not_mem_nil, or_false, forall_eq_or_imp, forall_eq] at hx
  simp [weightOf, hx]

theorem node_text (source : List Char) (kind : Kind) (e : Extent) (ns : List Node) :
    (Node.mk kind e ns).text source = slice source e.start e.stop := rfl

theorem directives_of_directive {extent : Extent} {function arguments : Node}
    {parent around : Option Node} {before : Found}
    (h : directive? source around function arguments = .ok (some e)) :
    directives source parent around (.mk .call extent [function, arguments]) before =
      .ok ((extent.row, e) :: before) := by
  simp only [directives, h]
  rfl

theorem directiveName_extends (h : n.text source = "_jt_rt.extends") :
    directiveName? source n = some "extends" := by
  simp only [directiveName?, h]

theorem directiveName_include (h : n.text source = "_jt_rt.include") :
    directiveName? source n = some "include" := by
  simp only [directiveName?, h]

theorem directiveName_none (h : n.text source ≠ "_jt_rt.extends" ∧
    n.text source ≠ "_jt_rt.include") : directiveName? source n = none := by
  obtain ⟨he, hi⟩ := h
  simp only [directiveName?]

/-- The literal of a directive is its target. -/
theorem directive_of_target {path : Path} {around : Option Node} {function : Node}
    {extent le : Extent} {name : String} (hname : directiveName? source function = some name)
    (ht : (literalText (slice source le.start le.stop)).map Path.ofString = .ok path) :
    directive? source around function (.mk .arguments extent [.mk .quoted le []]) =
      if name == "extends" then .ok (some ⟨.extends_, path⟩)
      else
        match bufferAround? source around with
        | some buffer => .ok (some ⟨.include_ buffer, path⟩)
        | none => .error .outsideAppend := by
  cases hx : literalText (slice source le.start le.stop) with
  | error _ =>
    rw [hx] at ht
    cases ht
  | ok x =>
    rw [hx] at ht
    cases ht
    simp only [directive?, hname, Node.children, List.find?, Node.kind, beq_self_eq_true, node_text,
      hx]
    rfl

theorem directives_memberNode (a b : Token) (parent around : Option Node) (before : Found) :
    directives source parent around (memberNode a b) before = .ok before := by
  rw [memberNode, directives_of_kind_ne (by simp)]
  simp only [directivesAll, directives_of_kind_ne (show Kind.name ≠ .call by simp)]
  rfl

/-- A line's tokens stand in one row. -/
theorem Sheet.row_eq {us : List Token} (h : Sheet g (t :: (ts ++ us)))
    (hn : ∀ u ∈ ts, u.indent = none) : ∀ u ∈ ts, u.row = t.row := by
  induction ts generalizing t with
  | nil => simp
  | cons u ts ih =>
    have hrow : u.row = t.row := (Sheet.fits h).row u (by simp) (hn u (by simp))
    intro v hv
    obtain rfl | hv := List.mem_cons.1 hv
    · exact hrow
    · exact (ih (Sheet.suffix h (List.suffix_cons ..)) (fun v hv => hn v (by simp [hv])) v hv).trans hrow

theorem Stated.of_extends {path : Path} {a dot b o l close : Token} {rest : List Token}
    (h : s.rest = a :: dot :: b :: o :: l :: close :: rest) (hs : Sheet g s.rest)
    (hd : s.depth = 0) (ha : a.shape = .name ∧ a.text = "_jt_rt") (hdot : IsNext dot .symbol ".")
    (hb : IsNext b .name "extends") (ho : IsNext o .symbol "(")
    (hl : l.shape = .quoted ∧ l.indent = none) (hclose : IsNext close .symbol ")")
    (hrest : ∀ t ∈ rest.head?, t.indent.isSome)
    (hf : slice g.source a.start b.stop = "_jt_rt.extends")
    (ht : (literalText (slice g.source l.start l.stop)).map Path.ofString = .ok path) :
    Stated g s ⟨.extends_, path⟩ a [dot, b, o, l, close]
      (callNode a b o close (.mk .quoted ⟨l.start, l.stop, l.row, l.endRow⟩ [])) := by
  have hend : ∀ u ∈ (behind [a, dot, b, o, l, close] s).rest.head?, u.indent.isSome := by
    simpa [behind, h] using hrest
  have hres : isReserved a.text := by rw [ha.2]; decide
  have hfits : Fits g l (close :: rest) := hs l _ ⟨[a, dot, b, o], by simp [h]⟩
  have hliteral := hfits.shaped (by simp [hl.1])
  refine ⟨by simp [behind, h], ?_, ?_, hres, ?_, hend, fun k => ?_, fun parent around before => ?_⟩
  · simp [hdot.2.2, hb.2.2, ho.2.2, hl.2, hclose.2.2]
  · simp only [Flatten.owed, ha.2, hdot.2.1, hb.2.1, ho.2.1, hclose.2.1, hliteral.1]
    decide
  · simp [ha.2, hdot.2.1, hb.2.1, ho.2.1, hclose.2.1, hliteral.2.2]
  · refine call_literal_gives h ⟨⟨ha.1, isHard_of_isReserved hres⟩, hdot, ?_, ho⟩ hl hclose
      (ended_of_indent (by simpa [behind] using hd) hend)
    exact ⟨hb.1, by rw [hb.2.1]; decide, hb.2.2⟩
  · have hname : directiveName? g.source (memberNode a b) = some "extends" :=
      directiveName_extends hf
    exact directives_of_directive (directive_of_target hname ht)

/-- The arguments of an append are read inside its brackets. -/
theorem Stated.of_include {path : Path} {w p v q a dot b o l close close' : Token}
    {rest : List Token}
    (h : s.rest = w :: p :: v :: q :: a :: dot :: b :: o :: l :: close :: close' :: rest)
    (hs : Sheet g s.rest) (hd : s.depth = 0) (hw : w.shape = .name ∧ isReserved w.text)
    (hp : IsNext p .symbol ".") (hv : IsNext v .name "append") (hq : IsNext q .symbol "(")
    (ha : IsNext a .name "_jt_rt") (hdot : IsNext dot .symbol ".") (hb : IsNext b .name "include")
    (ho : IsNext o .symbol "(") (hl : l.shape = .quoted ∧ l.indent = none)
    (hclose : IsNext close .symbol ")") (hclose' : IsNext close' .symbol ")")
    (hrest : ∀ t ∈ rest.head?, t.indent.isSome)
    (hbuffer : slice g.source w.start v.stop ≠ "_jt_rt.extends" ∧
      slice g.source w.start v.stop ≠ "_jt_rt.include")
    (hf : slice g.source a.start b.stop = "_jt_rt.include")
    (ht : (literalText (slice g.source l.start l.stop)).map Path.ofString = .ok path) :
    Stated g s ⟨.include_ (slice g.source w.start w.stop), path⟩ w
      [p, v, q, a, dot, b, o, l, close, close']
      (callNode w v q close'
        (callNode a b o close (.mk .quoted ⟨l.start, l.stop, l.row, l.endRow⟩ []))) := by
  have hend : ∀ u ∈ (behind [w, p, v, q, a, dot, b, o, l, close, close'] s).rest.head?,
      u.indent.isSome := by
    simpa [behind, h] using hrest
  have hres : isReserved a.text := by rw [ha.2.1]; decide
  have hfits : Fits g l (close :: close' :: rest) :=
    hs l _ ⟨[w, p, v, q, a, dot, b, o], by simp [h]⟩
  have hliteral := hfits.shaped (by simp [hl.1])
  have hcolon : w.text ≠ ":" := by
    rintro hx
    simp [hx, isReserved] at hw
  refine ⟨by simp [behind, h], ?_, ?_, hw.2, ?_, hend, fun k => ?_, fun parent around before => ?_⟩
  · simp [hp.2.2, hv.2.2, hq.2.2, ha.2.2, hdot.2.2, hb.2.2, ho.2.2, hl.2, hclose.2.2, hclose'.2.2]
  · simp only [Flatten.owed, weightOf_of_isReserved hw.2, hp.2.1, hv.2.1, hq.2.1, ha.2.1, hdot.2.1,
      hb.2.1, ho.2.1, hclose.2.1, hclose'.2.1, hliteral.1]
    decide
  · simp [hcolon, hp.2.1, hv.2.1, hq.2.1, ha.2.1, hdot.2.1, hb.2.1, ho.2.1, hclose.2.1, hclose'.2.1,
      hliteral.2.2]
  · have hin : (opened q (after v (after p (after w s)))).rest =
        a :: dot :: b :: o :: l :: close :: close' :: rest := by
      simp [opened, after, h]
    refine call_gives (m := [dot, b, o, l, close]) h ⟨⟨hw.1, isHard_of_isReserved hw.2⟩, hp, ?_, hq⟩
      (fun x hx => ?_) ?_ hclose' (ended_of_indent (by simpa [behind] using hd) hend)
    · exact ⟨hv.1, by rw [hv.2.1]; decide, hv.2.2⟩
    · exact not_is_of_reserved hres (by revert x; decide)
    · have hstop : Ended (behind [a, dot, b, o, l, close]
          (opened q (after v (after p (after w s))))) := by
        intro t ht _
        obtain rfl : close' = t := by simpa [behind, opened, after, h] using ht
        exact ⟨hclose'.1, by simp [hclose'.2.1, closers]⟩
      refine argument_gives hin (plain_of_reserved hres) (is_ne hdot.is (by decide)) ?_
      refine pair_gives hin (plain_of_reserved hres) hstop fun k => ?_
      refine call_literal_gives hin ⟨⟨ha.1, isHard_of_isReserved hres⟩, hdot, ?_, ho⟩ hl hclose
        hstop
      exact ⟨hb.1, by rw [hb.2.1]; decide, hb.2.2⟩
  · have hnone : directiveName? g.source (memberNode w v) = none := directiveName_none hbuffer
    have hname : directiveName? g.source (memberNode a b) = some "include" :=
      directiveName_include hf
    have hsheet : Sheet g (w :: ([p, v, q, a] ++ (dot :: b :: o :: l :: close :: close' :: rest))) := by
      rwa [h] at hs
    have hrow : a.row = w.row := hsheet.row_eq (by simp [hp.2.2, hv.2.2, hq.2.2, ha.2.2]) a (by simp)
    have hinner (e : Extent) (parent : Option Node) (m : Node) :
        directives g.source parent (some (.mk .call e [memberNode w v, m]))
          (callNode a b o close (.mk .quoted ⟨l.start, l.stop, l.row, l.endRow⟩ [])) before =
            .ok ((w.row, ⟨.include_ (slice g.source w.start w.stop), path⟩) :: before) :=
      hrow ▸ directives_of_directive (directive_of_target hname ht)
    rw [callNode, directives_call hnone]
    simp only [directivesAll, directives_memberNode,
      directives_of_kind_ne (show Kind.arguments ≠ .call by simp)]
    change ((directives g.source _ _ _ before).bind _).bind _ = _
    rw [hinner]
    rfl

theorem Spells.stated (h : Spells g.source e (t :: ts)) (hr : s.rest = t :: ts)
    (hs : Sheet g s.rest) (hd : s.depth = 0) : ∃ us n, Stated g s e t us n := by
  cases h with
  | extends_ hshape htext hdot hname hopen hliteral hclose hrest hfunction htarget =>
    exact ⟨_, _, .of_extends hr hs hd ⟨hshape, htext⟩ hdot hname hopen hliteral hclose hrest
      hfunction htarget⟩
  | include_ hshape htext hdot happend hopen hruntime hdot' hname hopen' hliteral hclose' hclose
      hrest hbuffer hfunction htarget =>
    exact ⟨_, _, .of_include hr hs hd ⟨hshape, htext⟩ hdot happend hopen hruntime hdot' hname hopen'
      hliteral hclose' hclose hrest hbuffer hfunction htarget⟩

/-- A marked line is read as its directive. -/
theorem Stated.reads {us : List Token} (h : Stated g f.start e t us n)
    (ha : Amid g f 0 false [] f.start) (ht : Faces t f.start) (hi : t.indent.isSome)
    (hm : g.marks t.row = some e) : Amid g f 0 true [n] (behind (t :: us) f.start) := by
  have hrest := h.rest
  obtain ⟨i, hi⟩ := Option.isSome_iff_exists.1 hi
  have hret : ∀ u ∈ t :: us, u.text = "return" → ∀ j ∈ u.indent, f.base < j := by
    intro u hu hx j hj
    obtain rfl | hu := List.mem_cons.1 hu
    · have := h.reserved
      rw [hx] at this
      cases this
    · simp [h.line u hu] at hj
  have habove : ∀ u ∈ t :: us, ∀ j ∈ u.indent, f.base ≤ j := by
    intro u hu j hj
    obtain rfl | hu := List.mem_cons.1 hu
    · exact le_trans (ha.indent ▸ ha.bound) (ht.above j hj)
    · simp [h.line u hu] at hj
  have hheader : ∀ u ∈ t :: us, u.indent.isSome → u.text ∉ headers := by
    have hx : ∀ x ∈ headers, isReserved x = false := by decide
    intro u hu hj hmem
    obtain rfl | hu := List.mem_cons.1 hu
    · have := h.reserved
      rw [hx _ hmem] at this
      cases this
    · simp [h.line u hu] at hj
  have hexp : expected g (t :: us) = [(t.row, e)] := by
    have hus : expected g us = [] := by
      have hl := h.line
      clear hrest habove hret hheader h
      induction us with
      | nil => rfl
      | cons u us ih => simp [expected, ih fun v hv => hl v (by simp [hv]), hl u (by simp)]
    simp [expected, hus, hi, hm]
  refine ⟨ha.sheet.suffix ⟨_, hrest.symm⟩, ha.bound, ha.indent, ha.depth, ?_, ?_, t :: us,
    ⟨hrest, habove, hret, rfl, rfl, ?_, fun _ => hheader, ?_⟩, by simp⟩
  · have ho := ha.owed
    rw [hrest, owed_append, h.owed] at ho
    simpa using ho
  · intro u hu hn
    have := h.ended u hu
    simp [hn] at this
  · rw [hexp]
    exact .single fun parent around before => h.directive parent around before
  · rintro - a u b hab hu
    exact (h.colonless u (by rw [hab]; simp) hu).elim

/-- Expressions and values to any depth keep their place. -/
theorem pair_reads (k : Nat) : Reads g (pair k).1 ∧ Reads g (pair k).2 := by
  induction k with
  | zero => exact ⟨Keeps.of_yields fun f => Yields.fail, Keeps.of_yields fun f => Yields.fail⟩
  | succ k ih =>
    have hvalue : Reads g (postfixed (pair k).1 (pair k).2) := by
      intro f ha hfresh n s h
      by_cases hu : Unmarked g f.start
      · exact postfixed_unmarked ih.1 ih.2 f ha ⟨hu, hfresh⟩ n s h
      -- the line that starts here is marked
      simp only [Unmarked, not_forall, exists_prop] at hu
      obtain ⟨t, ht, hi, hm⟩ := hu
      obtain ⟨e, hm⟩ := Option.ne_none_iff_exists'.1 hm
      have hr : f.start.rest = t :: f.start.rest.tail := (List.cons_head?_tail ht).symm
      have hf := ha.fits ht
      have hd : f.start.depth = 0 := by
        have ho := ha.owed
        rw [hr, hf.level hi] at ho
        have := ha.depth
        omega
      obtain ⟨us, m, hstated⟩ := (hf.mark e hm hi).stated hr ha.sheet hd
      cases hstated.gives k _ h
      obtain ⟨_, _, hatom, -⟩ := bind_eq_some.1 h
      obtain ⟨u, _, hneeded, -⟩ := bind_eq_some.1 hatom
      have hfaces := (needed_spec (P := (· = f.start)) (fun s hs => hs ▸ ha) rfl hneeded)
      obtain ⟨rfl, hfaces⟩ := hfaces
      obtain rfl : u = t := Option.some.inj (hfaces.head.symm.trans ht)
      exact hstated.reads ha hfaces hi hm
    exact ⟨level_reads ih.1 hvalue (pair_balks k), hvalue⟩

theorem expression_reads : Reads g expression :=
  fun f ha hf n s h => (pair_reads _).1 f ha hf n s h

theorem value_reads : Reads g value := fun f ha hf n s h => (pair_reads _).2 f ha hf n s h

end Stencil.Flatten
