import Mathlib.Data.List.Nodup
import Stencil.Proofs.Code.Origin
import Stencil.Proofs.Compile.Keeps
import Stencil.Proofs.Compile.Line
import Stencil.Proofs.Compile.Rendered

/-!
The names that a template reads stand in generated lines that came from where they are read. Blocks become
functions of their own, so what counts as generated are the lines of a body and those of all blocks.
-/
namespace Stencil.Compile
open Template Code Text Token Grouping

variable {α β : Type} {u : Setting} {scope : Scope} {line : Line} {s t v buffer : String}
  {ids texts items : List String} {e : Expr} {es : List Expr} {ls ms : Lines} {i : Site} {sites : List Site}
  {template : Path} {R : α → Prop} {Q : β → Prop} {P : Builder → Prop} {blocks : List (String × Lines)}

/-! ### Runs that find blocks -/

/-- No two blocks have one name. -/
def Distinct (b : Builder) : Prop := (b.blocks.map (·.1)).Nodup

/-- No block is lost, and `R` holds of the answer if all blocks there are at the end are among `blocks`. -/
def Among (blocks : List (String × Lines)) (x : Build α) (R : α → Prop) : Prop :=
  ∀ ⦃b a b'⦄, Distinct b → x.run b = .ok (a, b') →
    Distinct b' ∧ b.blocks ⊆ b'.blocks ∧ (b'.blocks ⊆ blocks → R a)

namespace Among

/-- A run that leaves the blocks as they are. -/
theorem of_keeps {x : Build α} (h : ∀ bs, Keeps (fun b => b.blocks = bs) x R) : Among blocks x R := by
  intro b a b' hb hrun
  obtain ⟨hblocks, ha⟩ := h b.blocks rfl hrun
  exact ⟨by rwa [Distinct, hblocks], by rw [hblocks]; exact List.Subset.refl _, fun _ => ha⟩

theorem pure {a : α} (h : R a) : Among blocks (pure a) R := of_keeps fun _ => Keeps.pure h

/-- What holds of the first answer is known once all blocks are. -/
theorem bind {x : Build α} {f : α → Build β} (hx : Among blocks x R)
    (hf : ∀ a, Among blocks (f a) fun c => R a → Q c) : Among blocks (x >>= f) Q := by
  intro b c b' hb h
  rw [StateT.run_bind] at h
  cases hrun : x.run b with
  | error e => simp [hrun, Bind.bind, Except.bind] at h
  | ok r =>
    rw [hrun] at h
    obtain ⟨hdistinct, hsub, hr⟩ := hx hb hrun
    obtain ⟨hdistinct', hsub', hc⟩ := hf r.1 hdistinct h
    exact ⟨hdistinct', fun d hd => hsub' (hsub hd), fun hb' => hc hb' (hr fun d hd => hb' (hsub' hd))⟩

theorem mono {x : Build α} {R' : α → Prop} (hx : Among blocks x R) (h : ∀ a, R a → R' a) : Among blocks x R' :=
  fun _ _ _ hb hrun => (hx hb hrun).imp_right fun hsub => hsub.imp_right fun hr hb' => h _ (hr hb')

/-- A result that is known at once. -/
theorem step {x : Build α} {f : α → Build β} (hx : ∀ P, Keeps P x R) (hf : ∀ a, R a → Among blocks (f a) Q) :
    Among blocks (x >>= f) Q := by
  intro b c b' hb h
  rw [StateT.run_bind] at h
  cases hrun : x.run b with
  | error e => simp [hrun, Bind.bind, Except.bind] at h
  | ok r =>
    rw [hrun] at h
    obtain ⟨hblocks, ha⟩ := hx (· = b) rfl hrun
    have := hf r.1 ha (b := r.2) (by rwa [hblocks]) h
    rwa [hblocks] at this

theorem ite {c : Prop} {_ : Decidable c} {x y : Build α} (hx : c → Among blocks x R) (hy : ¬ c → Among blocks y R) :
    Among blocks (if c then x else y) R := by
  by_cases hc : c
  · simpa only [if_pos hc] using hx hc
  · simpa only [if_neg hc] using hy hc

end Among

theorem openBlock_eq_ok {name : String} {b b' : Builder} {a : Unit} (h : (openBlock name line).run b = .ok (a, b')) :
    name ∉ b.blocks.map (·.1) ∧ b' = { b with blocks := b.blocks ++ [(name, [])] } := by
  have hrun : (openBlock name line).run b = if (b.blocks.lookup name).isSome then
      .error (.stop ⟨.blockTwice name, line⟩) else .ok ((), { b with blocks := b.blocks ++ [(name, [])] }) := by
    unfold openBlock
    split <;> simp_all [stopAt] <;> rfl
  rw [hrun] at h
  split at h
  · cases h
  · next hnone =>
    cases h
    refine ⟨fun hmem => ?_, rfl⟩
    obtain ⟨d, hd, rfl⟩ := List.mem_map.1 hmem
    simp only [Option.not_isSome_iff_eq_none, List.lookup_eq_none_iff, bne_iff_ne] at hnone
    exact hnone d hd rfl

/-- The body of a block, between the two steps that put its function among the blocks. -/
theorem among_block {name : String} {body : Build Lines} {R : List (String × Lines) → Lines → Prop} {a : α}
    {R' : α → Prop} {function : Lines → Lines} (hbody : ∀ bs, Among bs body (R bs))
    (hclosed : ∀ bs ls, R bs ls → (∀ d ∈ bs, d.2 ≠ [] → d ∈ blocks) → (name, function ls) ∈ blocks → R' a) :
    Among blocks (do
      openBlock name line
      let ls ← body
      closeBlock name (function ls)
      return a) R' := by
  intro b a' b' hb h
  simp only [StateT.run_bind] at h
  obtain ⟨⟨u, b₁⟩, hopen, h⟩ := bind_eq_ok.1 h
  obtain ⟨⟨ls, b₂⟩, hrun, h⟩ := bind_eq_ok.1 h
  cases h
  obtain ⟨hnew, rfl⟩ := openBlock_eq_ok hopen
  have hdistinct : Distinct { b with blocks := b.blocks ++ [(name, [])] } := by
    rw [Distinct, List.map_append, List.map_singleton]
    refine List.Nodup.append hb (by simp) ?_
    simpa using hnew
  obtain ⟨hdistinct', hsub, hR⟩ := hbody b₂.blocks hdistinct hrun
  have hplace : (name, []) ∈ b₂.blocks := hsub (by simp)
  have hother {d : String × Lines} (hd : d ∈ b₂.blocks) (hname : d.1 ≠ name) :
      d ∈ b₂.blocks.map fun d => if d.1 == name then (name, function ls) else d :=
    List.mem_map.2 ⟨d, hd, by simp [hname]⟩
  refine ⟨?_, fun d hd => hother (hsub (List.mem_append_left _ hd)) ?_, fun hblocks => ?_⟩
  · have hnames : (b₂.blocks.map fun d => if d.1 == name then (name, function ls) else d).map (·.1) =
        b₂.blocks.map (·.1) := by
      rw [List.map_map]
      refine List.map_congr_left fun d _ => ?_
      by_cases hd : d.1 = name <;> simp [hd]
    exact show List.Nodup _ from hnames.symm ▸ hdistinct'
  · rintro rfl
    exact hnew (List.mem_map_of_mem hd)
  · refine hclosed b₂.blocks ls (hR (List.Subset.refl _)) (fun d hd hne => hblocks (hother hd ?_))
      (hblocks (List.mem_map.2 ⟨_, hplace, by simp⟩))
    rintro rfl
    exact hne (congrArg Prod.snd (List.inj_on_of_nodup_map hdistinct' hd hplace rfl))

/-! ### Places whose names are shown -/

/-- The names read at a place stand in lines that came from there, unless nothing is imported there. -/
def Renders (template : Path) (ls : Lines) (i : Site) : Prop :=
  i.part ≠ .idle → ∀ id ∈ i.reads, ∃ l ∈ ls, l.origin = some ⟨template, i.line⟩ ∧ Occurs (loadName id) l.code

/-- The names read at some places are shown by these lines or by the functions of blocks. -/
def Covers (template : Path) (blocks : List (String × Lines)) (sites : List Site) (ls : Lines) : Prop :=
  ∀ i ∈ sites, Renders template (ls ++ blocks.flatMap (·.2)) i

theorem Renders.mono (h : Renders template ls i) (hsub : ls ⊆ ms) : Renders template ms i := by
  intro hpart id hid
  obtain ⟨l, hl, hshown⟩ := h hpart id hid
  exact ⟨l, hsub hl, hshown⟩

namespace Covers

variable {sites' : List Site}

theorem nil : Covers template blocks [] ls := List.forall_mem_nil _

theorem mono (h : Covers template blocks sites ls) (hsub : ls ⊆ ms) : Covers template blocks sites ms :=
  fun i hi => (h i hi).mono (List.append_subset.2
    ⟨fun _ hl => List.mem_append_left _ (hsub hl), List.subset_append_right _ _⟩)

theorem both (h : Covers template blocks sites ls) (h' : Covers template blocks sites' ls) :
    Covers template blocks (sites ++ sites') ls :=
  List.forall_mem_append.2 ⟨h, h'⟩

theorem append (h : Covers template blocks sites ls) (h' : Covers template blocks sites' ms) :
    Covers template blocks (sites ++ sites') (ls ++ ms) :=
  (h.mono (List.subset_append_left _ _)).both (h'.mono (List.subset_append_right _ _))

/-- Values whose texts stand in a line. -/
theorem values {l : CodeLine Location} (hl : l ∈ ls) (ho : l.origin = some ⟨template, line⟩)
    (h : LoadsIn (readsAll es) texts) (hoccurs : ∀ t ∈ texts, Occurs t l.code) :
    Covers template blocks (sitesAt line .value es) ls := by
  have hmem (es : List Expr) (e : Expr) (he : e ∈ es) : e.reads ⊆ readsAll es := by
    induction es with
    | nil => cases he
    | cons f es ih =>
      obtain rfl | he := List.mem_cons.1 he
      · exact List.subset_append_left _ _
      · exact fun id hid => List.mem_append_right _ (ih he hid)
  simp only [Covers, sitesAt, List.forall_mem_map]
  intro e he _ id hid
  obtain ⟨t, ht, hload⟩ := h id (hmem es e he hid)
  exact ⟨l, List.mem_append_left _ hl, ho, hload.trans (hoccurs t ht)⟩

theorem value {l : CodeLine Location} (hl : l ∈ ls) (ho : l.origin = some ⟨template, line⟩) (h : Loads e.reads t)
    (hoccurs : Occurs t l.code) : Covers template blocks [⟨line, .value, e⟩] ls :=
  show Covers template blocks (sitesAt line .value [e]) ls from
    values hl ho (by simpa [readsAll] using h.item) (List.forall_mem_singleton.2 hoccurs)

theorem target (h : e.reads = []) : Covers template blocks [⟨line, .target, e⟩] ls := by
  simp [Covers, Renders, Site.reads, h]

end Covers

/-- A scope in which names are names. -/
structure Scope.Named (scope : Scope) : Prop where
  block : ∀ n ∈ scope.block, IsIdentifier n
  buffer : Grouped 1 scope.buffer

theorem grouped_made (h : IsMade s) : Grouped 1 s := grouped_name h.identifier (by simp)

namespace Scope.Named

theorem nested (h : scope.Named) : scope.nested.Named := ⟨h.block, h.buffer⟩

theorem function (h : scope.Named) : scope.function.Named := ⟨h.block, grouped_made isMade_outputBuffer⟩

theorem withBuffer (h : scope.Named) (n : Nat) : (scope.withBuffer (bufferName n)).Named :=
  ⟨h.block, grouped_made (isMade_bufferName n)⟩

theorem ofBlock (h : IsIdentifier s) : (Scope.ofBlock s).Named :=
  ⟨by simp [Scope.ofBlock, h], grouped_made isMade_outputBuffer⟩

theorem top : Scope.top.Named := ⟨by simp [Scope.top], grouped_made isMade_outputBuffer⟩

end Scope.Named

/-! ### Texts in lines -/

/-- A text that shows what is read. -/
structure Showing (ids : List String) (t : String) : Prop where
  grouped : Grouped 1 t
  loads : Loads ids t

theorem showing_compiled (h : scope.Named) (hw : e.Worded IsIdentifier false) :
    Keeps P (compiled scope e) (Showing e.reads) :=
  Keeps.ofResult fun t ht =>
    ⟨(fits_expr h.block none (by simp [Given]) false e hw t ht).inside,
      loads_expr h.block none (by simp [Given]) false e hw t ht⟩

theorem isClean_appendTo (h : Grouped 1 buffer) : IsClean (buffer ++ ".append(").toList := by
  have happend : Grouped 1 (buffer ++ "." ++ "append") := h.member (grouped_name (by decide) (by simp))
  have := isClean_opened happend (.inl rfl)
  simpa only [String.append_assoc, show ".append(" = "." ++ ("append" ++ "(") from rfl] using this

theorem occurs_append (h : Grouped 1 buffer) (v : String) : Occurs v (append buffer v) :=
  .within (u := buffer ++ ".append(") (v := ")") (isClean_appendTo h) (by decide)

theorem occurs_shown (h : Grouped 1 buffer) (v : String) : Occurs v (append buffer (shown v)) :=
  have hshown : Occurs v (shown v) := .within (u := "str(") (v := ")") (by decide) (by decide)
  hshown.trans (occurs_append h _)

theorem occurs_condition (w : String) (hw : IsClean w.toList) (t : String) : Occurs t (w ++ t ++ ":") :=
  .within hw (by decide)

theorem isClean_assigned (h : Grouped 1 t) : IsClean (t ++ " = ").toList :=
  isClean_glue h ⟨' ', "= ".toList, rfl, by decide⟩ (by decide)

theorem occurs_importText (t : String) : Occurs t (importText t) :=
  .within (u := "_jt_rt.import_template(") (v := ")") (by decide) (by decide)

theorem occurs_loopHeader (ht : Grouped 1 t) (s : String) : Occurs s (loopHeader t s) := by
  have hdelimits : Delimits " in _jt_rt.loop(" := ⟨' ', "in _jt_rt.loop(".toList, rfl, by decide⟩
  have hopen : IsClean "for loop, ".toList := by decide
  have hclean := hopen.group ht hdelimits (by decide)
  refine .within (u := "for loop, " ++ t ++ " in _jt_rt.loop(") (v := "):") ?_ (by decide)
  simpa only [String.toList_append] using hclean

theorem ended_equals : Ended 1 " = " := by
  intro expected he
  obtain ⟨b, bs, rfl⟩ := List.exists_cons_of_length_pos he
  rfl

theorem grouped_anyType : Grouped 1 anyType :=
  Grouped.member (s := "typing") (t := "Any") (grouped_name (by decide) (by simp))
    (grouped_name (by decide) (by simp))

theorem grouped_parameterText {default : Option String} (hs : IsIdentifier s) (hd : Given (Grouped 1) default) :
    Grouped 1 (parameterText s default) := by
  have hvalue : Grouped 1 (default.getD "None") := by
    cases default with
    | none => exact (stands_literal .none).inside
    | some t => exact hd t rfl
  have hdeclared : Grouped 1 (declaration s anyType) :=
    (grouped_identifier hs).raise.marked (by simp [marks]) grouped_anyType
  exact hdeclared.glue ended_equals ⟨' ', "= ".toList, rfl, by decide⟩ hvalue

/-- What stands for everything else that is passed. -/
theorem grouped_otherParameters :
    ∀ t ∈ ["*varargs: typing.Any", "*", "caller: _jt_rt.Caller = _jt_rt.no_caller", "**kwargs: typing.Any"],
      Grouped 1 t := by
  intro t ht expected he
  obtain ⟨b, bs, rfl⟩ := List.exists_cons_of_length_pos he
  simp only [List.mem_cons, List.not_mem_nil, or_false] at ht
  obtain rfl | rfl | rfl | rfl := ht
  all_goals exact ⟨_, rfl, rfl⟩

/-- A default stands in the parameters, since there are no fewer of them. -/
theorem occurs_default {params defaults used : List String} (allowCaller : Bool) (hp : ∀ n ∈ params, IsIdentifier n)
    (hd : ∀ t ∈ defaults, Grouped 1 t) (hlen : defaults.length ≤ params.length) (h : t ∈ defaults) :
    Occurs t (parameters allowCaller params defaults used) := by
  let values := List.replicate (params.length - defaults.length) none ++ defaults.map some
  have hvalues : ∀ v ∈ values, Given (Grouped 1) v := by
    refine List.forall_mem_append.2 ⟨fun v hv => ?_, List.forall_mem_map.2 fun t ht => ?_⟩
    · rw [List.eq_of_mem_replicate hv]
      simp [Given]
    · simpa [Given] using hd t ht
  obtain ⟨n, hn⟩ : ∃ n, (n, some t) ∈ params.zip values := by
    have hmem : some t ∈ (params.zip values).map (·.2) := by
      rw [List.map_snd_zip (by simp [values]; omega)]
      simp [values, h]
    obtain ⟨⟨n, v⟩, hn, rfl⟩ := List.mem_map.1 hmem
    exact ⟨n, hn⟩
  have htext : Occurs t (parameterText n (some t)) :=
    .at_end (u := declaration n anyType ++ " = ") (isClean_assigned
      ((grouped_identifier (hp n (List.of_mem_zip hn).1)).raise.marked (by simp [marks]) grouped_anyType))
  refine htext.trans (occurs_separated ?_ ?_)
  · simp only [List.mem_append, List.mem_map]
    exact .inl (.inl (.inl ⟨_, hn, rfl⟩))
  · simp only [List.forall_mem_append, List.forall_mem_map]
    refine ⟨⟨⟨fun p hmem => ?_, ?_⟩, ?_⟩, ?_⟩
    · exact grouped_parameterText (hp _ (List.of_mem_zip hmem).1) (hvalues _ (List.of_mem_zip hmem).2)
    all_goals
      intro u hu
      refine grouped_otherParameters u ?_
      split at hu <;> simp_all

theorem occurs_functionHeader (hs : Grouped 1 s) (t : String) : Occurs t (functionHeader s t) := by
  have hopen : IsClean "def ".toList := by decide
  have hclean := hopen.group hs ⟨'(', [], rfl, by decide⟩ (show IsClean "(".toList by decide)
  refine .within (u := "def " ++ s ++ "(") (v := ") -> str:") ?_ (by decide)
  simpa only [String.toList_append] using hclean

theorem grouped_joined (h : Grouped 1 buffer) : Grouped 1 (joined buffer) := by
  have hfunction : Grouped 1 "\"\".join" := by
    intro expected he
    obtain ⟨b, bs, rfl⟩ := List.exists_cons_of_length_pos he
    exact ⟨_, rfl, rfl⟩
  have hargument := h.bracketed (l := "(") (r := ")") (by simp [bracketPairs])
  have := hfunction.append hargument.raise.grouped (by
    rw [String.append_assoc]
    exact delimits_bracketed (.inl rfl) _)
  simpa only [joined, String.append_assoc, show "\"\".join(" = "\"\".join" ++ "(" from rfl] using this

theorem subset_suiteOf : ls ⊆ suiteOf u scope ls line := by
  unfold suiteOf
  split
  · next h => simp [List.isEmpty_iff.1 h]
  · exact List.Subset.refl _

theorem subset_functionOf {indent : Int} : ls ⊆ functionOf u indent t line ls := by
  intro l hl
  simp [functionOf, hl]

/-! ### Statements -/

/-- Making up a name leaves the blocks as they are. -/
theorem among_freshNumber {f : Nat → Build α} (h : ∀ n, Among blocks (f n) R) :
    Among blocks (freshNumber >>= f) R := by
  have hfresh (bs : List (String × Lines)) : Keeps (fun b => b.blocks = bs) freshNumber fun _ => True := by
    refine Keeps.get.bind fun b hb => Keeps.bind (Keeps.set ?_) fun _ _ => Keeps.pure trivial
    exact hb
  exact (Among.of_keeps hfresh).bind fun n => (h n).mono fun _ hr _ => hr

section Lines

variable (blocks) (h : scope.Named)

include h

theorem covers_outputLines {nodes : List Expr} (hw : wordedAll IsIdentifier false nodes) :
    Keeps P (outputLines u scope nodes)
      (Covers u.template blocks (nodes.map fun e => ⟨e.line, .value, e⟩)) := by
  induction nodes with
  | nil => exact Keeps.pure .nil
  | cons e es ih =>
    have hvalue : Keeps P (compiled scope e >>= fun value =>
        pure [emit u scope (append scope.buffer (shown value)) e.line])
        (Covers u.template blocks [⟨e.line, .value, e⟩]) :=
      (showing_compiled h hw.1).bind fun t ht => Keeps.pure
        (.value (List.mem_singleton_self _) rfl ht.loads (occurs_shown h.buffer t))
    have hline : Keeps P (outputLine u scope e) (Covers u.template blocks [⟨e.line, .value, e⟩]) := by
      cases e
      case data line text =>
        have hnone (ls : Lines) : Covers u.template blocks [⟨line, .value, .data line text⟩] ls := by
          simp [Covers, Renders, Site.reads, Expr.reads]
        exact Keeps.ite (fun _ => Keeps.pure (hnone _)) fun _ => Keeps.pure (hnone _)
      all_goals exact hvalue
    exact hline.bind fun _ hls => (ih hw.2).bind fun _ hms => Keeps.pure (hls.append hms)

theorem covers_loopTest {test : Option Expr} (hw : wordedOption IsIdentifier test) :
    Keeps P (loopTest u scope line test) (Covers u.template blocks (sitesAt line .value test.toList)) := by
  cases test with
  | none => exact Keeps.pure .nil
  | some e =>
    exact (showing_compiled h hw).bind fun t ht => Keeps.pure
      (.value List.mem_cons_self rfl ht.loads (occurs_condition "if not " (by decide) t))

omit h in
theorem showing_assigned {slices : Bool} (hw : e.Worded IsIdentifier slices) : Keeps P (assigned e) (Grouped 1) :=
  Keeps.ofResult fun t ht => grouped_target e hw t ht

omit h in
theorem showing_loopTarget {slices : Bool} (hw : e.Worded IsIdentifier slices) : Keeps P (loopTarget e) (Grouped 1) := by
  refine (showing_assigned hw).bind fun t ht => ?_
  cases e
  case tuple => exact Keeps.pure (grouped_parens ht).raise
  all_goals exact Keeps.pure ht

theorem covers_assignments {slices : Bool} {pairs : List (Expr × Expr)}
    (hw : ∀ p ∈ pairs, p.1.Worded IsIdentifier slices ∧ p.2.Worded IsIdentifier false) :
    Keeps P (assignments u scope line pairs)
      (Covers u.template blocks (sitesAt line .value (pairs.map (·.2)))) := by
  induction pairs with
  | nil => exact Keeps.pure .nil
  | cons p pairs ih =>
    obtain ⟨⟨htarget, hvalue⟩, hpairs⟩ := List.forall_mem_cons.1 hw
    refine (showing_assigned htarget).bind fun t ht => (showing_compiled h hvalue).bind fun v hv =>
      (ih hpairs).bind fun ls hls => Keeps.pure ?_
    have hline : Covers u.template blocks [⟨line, .value, p.2⟩] [emit u scope (t ++ " = " ++ v) line] :=
      .value (List.mem_singleton_self _) rfl hv.loads (.at_end (isClean_assigned ht))
    exact hline.append hls

omit h in
theorem showing_defaults {defaults : List Expr} (hw : wordedAll IsIdentifier false defaults) :
    Keeps P (ofResult (defaultTexts defaults)) fun ts =>
      ts.length = defaults.length ∧ (∀ t ∈ ts, Grouped 1 t) ∧ LoadsIn (readsAll defaults) ts := by
  have htexts (es : List Expr) : defaultTexts es = exprs none es := by
    induction es with
    | nil => rfl
    | cons e es ih => rw [defaultTexts, exprs, ih]
  have hlength (es : List Expr) (ts : List String) (hts : exprs none es = .ok ts) : ts.length = es.length := by
    induction es generalizing ts with
    | nil =>
      cases hts
      rfl
    | cons e es ih =>
      rw [exprs] at hts
      obtain ⟨t, -, hts⟩ := bind_eq_ok.1 hts
      obtain ⟨us, hus, hts⟩ := bind_eq_ok.1 hts
      cases hts
      rw [List.length_cons, ih us hus, List.length_cons]
  refine Keeps.ofResult fun ts hts => ?_
  rw [htexts] at hts
  exact ⟨hlength defaults ts hts, grouped_exprs (by simp) false defaults hw ts hts,
    loadsIn_exprs (by simp) false defaults hw ts hts⟩

omit h in
/-- The defaults of a function stand in its header. -/
theorem covers_functionOf {params used values : List String} {defaults : List Expr} {body : List Stmt} {indent : Int}
    (allowCaller : Bool) (hs : Grouped 1 s) (hp : ∀ n ∈ params, IsIdentifier n) (hlen : defaults.length ≤ params.length)
    (hd : values.length = defaults.length ∧ (∀ t ∈ values, Grouped 1 t) ∧ LoadsIn (readsAll defaults) values)
    (hls : Covers u.template blocks (bodySites body) ls) :
    Covers u.template blocks (sitesAt line .value defaults ++ bodySites body)
      (functionOf u indent (functionHeader s (parameters allowCaller params values used)) line ls) := by
  refine .both (.values List.mem_cons_self rfl hd.2.2 fun t ht => ?_) (hls.mono subset_functionOf)
  exact (occurs_default allowCaller hp hd.2.1 (hd.1 ▸ hlen) ht).trans (occurs_functionHeader hs _)

theorem loads_captured (hb : Grouped 1 buffer) {filter : Option Expr} (hw : wordedOption IsIdentifier filter) :
    Keeps P (captured scope buffer filter) fun t => ∀ e ∈ filter, Loads e.reads t := by
  cases filter with
  | none => exact Keeps.pure (by simp)
  | some e =>
    refine Keeps.ofResult fun t ht => ?_
    have hinput : Given (Grouped 1) (some (joined buffer)) := by simpa [Given] using grouped_joined hb
    simpa using loads_expr h.block (some (joined buffer)) hinput false e hw t ht

theorem covers_includeLine {template : Expr} {ignoreMissing : Bool} (hw : template.Worded IsIdentifier false) :
    Among blocks (includeLine u scope template ignoreMissing line)
      (Covers u.template blocks [⟨line, .template, template⟩]) := by
  refine .of_keeps fun bs => ?_
  unfold includeLine
  cases hnames : template.templateNames? with
  | none =>
    refine (showing_compiled h hw).bind fun t ht => Keeps.pure ?_
    have hcall : Occurs t ("_jt_rt.include_dynamic(" ++ t ++ ")") :=
      .within (u := "_jt_rt.include_dynamic(") (v := ")") (by decide) (by decide)
    have hline : Covers u.template blocks [⟨line, .value, template⟩]
        [emit u scope (append scope.buffer ("_jt_rt.include_dynamic(" ++ t ++ ")")) line] :=
      .value (List.mem_singleton_self _) rfl ht.loads (hcall.trans (occurs_append h.buffer _))
    simpa [Covers, Renders, Site.reads, hnames] using hline
  | some names =>
    have hnone (ls : Lines) : Covers u.template blocks [⟨line, .template, template⟩] ls := by
      simp [Covers, Renders, Site.reads, hnames]
    refine (keeps_resolve (S := fun _ => True) fun _ _ _ _ => trivial).bind fun found _ => ?_
    cases found with
    | none => exact Keeps.pure (hnone _)
    | some included =>
      refine (Keeps.modify fun b hb => ?_).bind fun _ _ => Keeps.pure (hnone _)
      exact hb

omit h in
/-- Templates that are extended have constant names. -/
theorem covers_extendsLine {template : Expr} :
    Among blocks (extendsLine u scope template line) (Covers u.template blocks [⟨line, .template, template⟩]) := by
  refine .of_keeps fun bs => Keeps.ite (fun _ => Keeps.stops) fun _ => Keeps.get.bind fun b _ =>
    Keeps.ite (fun _ => Keeps.stops) fun _ => ?_
  cases hnames : template.templateNames? with
  | none => exact Keeps.stopAt
  | some names =>
    have hnone (ls : Lines) : Covers u.template blocks [⟨line, .template, template⟩] ls := by
      simp [Covers, Renders, Site.reads, hnames]
    refine (keeps_resolve (S := fun _ => True) fun _ _ _ _ => trivial).bind fun found _ => ?_
    cases found with
    | none => exact Keeps.stopAt
    | some parent =>
      refine (Keeps.modify fun b hb => ?_).bind fun _ _ => Keeps.pure (hnone _)
      exact hb

omit h in
theorem covers_importLines {template : Expr} {names : List (String × String)} (hn : ∀ n ∈ names, IsIdentifier n.2)
    (ht : Showing template.reads t) :
    Covers u.template blocks [⟨line, if names.isEmpty then .idle else .value, template⟩]
      (importLines u scope t line names) := by
  cases names with
  | nil => simp [Covers, Renders]
  | cons n names =>
    refine .value List.mem_cons_self rfl ht.loads ?_
    have hcall : Occurs t (importText t ++ "." ++ n.1) := by
      rw [String.append_assoc]
      exact (occurs_importText t).trans (.followed (by decide) (by decide))
    have hname : Grouped 1 (identifier n.2) := (grouped_identifier (hn n List.mem_cons_self)).raise
    have hline := hcall.trans (.at_end (isClean_assigned hname))
    simpa only [emit, lineAt, String.append_assoc] using hline

omit h in
/-- Options become no code. -/
theorem covers_options (options : List (String × Expr)) :
    Covers template blocks (sitesAt line .option (options.map (·.2))) ls := by
  simp only [Covers, sitesAt, List.forall_mem_map]
  intro _ _ _ _ hid
  cases hid

end Lines

mutual

/-- The names that a statement reads stand in its lines. -/
theorem covers_statement (u : Setting) (scope : Scope) (h : scope.Named) (s : Stmt) (hw : s.Worded IsIdentifier)
    (hp : s.Paired) (blocks : List (String × Lines)) :
    Among blocks (statement u scope s) (Covers u.template blocks s.sites) := by
  cases s with
  | output line nodes => exact .of_keeps fun _ => covers_outputLines blocks h hw
  | extends_ line template => exact covers_extendsLine blocks
  | for_ line target source body otherwise test isRecursive =>
    obtain ⟨hwtarget, hwsource, hwbody, hwotherwise, hwtest⟩ := hw
    refine .step (fun _ => showing_compiled h hwsource) fun v hv => .step (fun _ => showing_loopTarget hwtarget)
      fun t ht => .step (fun _ => covers_loopTest blocks h.nested hwtest) fun tests htests =>
      (covers_statements u _ h.nested body hwbody hp.2.1 blocks).bind fun inside => ?_
    have hhead (hinside : Covers u.template blocks (bodySites body) inside) :
        Covers u.template blocks (⟨line, .target, target⟩ :: ⟨line, .value, source⟩ ::
          sitesAt line .value test.toList ++ bodySites body)
          (emit u scope (loopHeader t v) line :: tests ++ suiteOf u scope.nested inside line) := by
      have hsource : Covers u.template blocks [⟨line, .value, source⟩] [emit u scope (loopHeader t v) line] :=
        .value (List.mem_singleton_self _) rfl hv.loads (occurs_loopHeader ht v)
      exact ((Covers.target hp.1).both (hsource.append htests)).append (hinside.mono subset_suiteOf)
    refine .ite (fun hempty => .pure fun hinside => ?_) fun _ =>
      (covers_statements u _ h.nested otherwise hwotherwise hp.2.2 blocks).bind fun last =>
      .pure fun hlast hinside => ?_
    · rw [Stmt.sites, List.isEmpty_iff.1 hempty, bodySites, List.append_nil]
      exact hhead hinside
    · exact (hhead hinside).append ((hlast.mono subset_suiteOf).mono (List.subset_cons_self _ _))
  | if_ line test body branches otherwise =>
    obtain ⟨hwtest, hwbody, hwbranches, hwotherwise⟩ := hw
    refine .step (fun _ => showing_compiled h hwtest) fun t ht =>
      (covers_statements u _ h.nested body hwbody hp.1 blocks).bind fun inside =>
      (covers_elifs u scope h branches hwbranches hp.2.1 blocks).bind fun arms =>
      (covers_statements u _ h.nested otherwise hwotherwise hp.2.2 blocks).bind fun last => ?_
    have hhead (harms : Covers u.template blocks (branchSites branches) arms)
        (hinside : Covers u.template blocks (bodySites body) inside) :
        Covers u.template blocks (⟨line, .value, test⟩ :: bodySites body ++ branchSites branches)
          (emit u scope ("if " ++ t ++ ":") line :: suiteOf u scope.nested inside line ++ arms) := by
      have htest : Covers u.template blocks [⟨line, .value, test⟩] [emit u scope ("if " ++ t ++ ":") line] :=
        .value (List.mem_singleton_self _) rfl ht.loads (occurs_condition "if " (by decide) t)
      exact (htest.append (hinside.mono subset_suiteOf)).append harms
    cases otherwise with
    | nil =>
      refine .pure fun _ harms hinside => ?_
      rw [Stmt.sites, bodySites, List.append_nil]
      exact hhead harms hinside
    | cons first otherwise =>
      exact .pure fun hlast harms hinside =>
        (hhead harms hinside).append ((hlast.mono subset_suiteOf).mono (List.subset_cons_self _ _))
  | macro_ line id params defaults body =>
    obtain ⟨hwid, hwparams, hwdefaults, hwbody⟩ := hw
    refine .step (fun _ => showing_defaults hwdefaults) fun values hvalues =>
      (covers_statements u _ h.function body hwbody hp.2 blocks).bind fun inside => .pure fun hinside => ?_
    exact covers_functionOf blocks true (grouped_identifier hwid).raise hwparams hp.1 hvalues hinside
  | callBlock line call params defaults body =>
    obtain ⟨hwcall, hwparams, hwdefaults, hwbody⟩ := hw
    refine among_freshNumber fun n => .step (fun _ => showing_defaults hwdefaults) fun values hvalues =>
      (covers_statements u _ h.function body hwbody hp.2 blocks).bind fun inside => ?_
    have hcaller := grouped_made (isMade_callerName n)
    have hextra : ∀ t ∈ ["caller=" ++ callerName n], Grouped 1 t := by
      have hcaller' : Grouped 1 ("caller" ++ "=" ++ callerName n) :=
        (grouped_name (s := "caller") (by decide) (by simp)).marked (by simp [marks]) hcaller
      simpa only [List.forall_mem_singleton, show "caller=" = "caller" ++ "=" from rfl] using hcaller'
    refine .step (fun _ => Keeps.ofResult fun t ht => loads_callWith h.block hextra call hwcall ht) fun t ht =>
      .pure fun hinside => ?_
    have hcall (ls : Lines) : Covers u.template blocks [⟨line, .value, call⟩]
        (ls ++ [emit u scope (append scope.buffer (shown t)) line]) :=
      .value (List.mem_append_right _ (List.mem_singleton_self _)) rfl ht (occurs_shown h.buffer t)
    exact (hcall _).both ((covers_functionOf blocks false hcaller hwparams hp.1 hvalues hinside).mono
      (List.subset_append_left _ _))
  | filterBlock line body filter =>
    refine among_freshNumber fun n => ?_
    have hbuffer := grouped_made (isMade_bufferName n)
    refine .step (fun _ => loads_captured h hbuffer hw.2) fun t ht =>
      (covers_statements u _ (h.withBuffer n) body hw.1 hp blocks).bind fun inside => .pure fun hinside => ?_
    refine .both (.value (List.mem_append_right _ (List.mem_singleton_self _)) rfl (ht filter rfl)
      (occurs_append h.buffer t)) (hinside.mono fun l hl => ?_)
    exact List.mem_append_left _ (List.mem_cons_of_mem _ hl)
  | with_ line targets values body =>
    obtain ⟨hwtargets, hwvalues, hwbody⟩ := hw
    obtain ⟨htargets, hlen, hbody⟩ := hp
    have hpairs : ∀ p ∈ targets.zip values, p.1.Worded IsIdentifier false ∧ p.2.Worded IsIdentifier false := fun p hmem =>
      ⟨wordedAll_iff.1 hwtargets _ (List.of_mem_zip hmem).1, wordedAll_iff.1 hwvalues _ (List.of_mem_zip hmem).2⟩
    refine .step (fun _ => covers_assignments blocks h hpairs) fun head hhead =>
      (covers_statements u scope h body hwbody hbody blocks).bind fun inside => .pure fun hinside => ?_
    rw [List.map_snd_zip (by omega)] at hhead
    have hnone : Covers u.template blocks (sitesAt line .target targets) head := by
      simp only [Covers, sitesAt, List.forall_mem_map]
      intro e he _ id hid
      simp [Site.reads, htargets e he] at hid
    exact (hnone.both hhead).append hinside
  | block line id body isScoped required =>
    refine among_block (fun bs => covers_statements u _ (.ofBlock hw.1) body hw.2 hp bs)
      fun bs ls hls hbs hplace => ?_
    intro i hi hpart name hname
    obtain ⟨l, hl, hshown⟩ := hls i hi hpart name hname
    refine ⟨l, List.mem_append_right _ ?_, hshown⟩
    obtain hl | hl := List.mem_append.1 hl
    · exact List.mem_flatMap.2 ⟨_, hplace, subset_functionOf hl⟩
    · obtain ⟨d, hd, hl⟩ := List.mem_flatMap.1 hl
      exact List.mem_flatMap.2 ⟨d, hbs d hd (List.ne_nil_of_mem hl), hl⟩
  | include_ line template withContext ignoreMissing => exact covers_includeLine blocks h hw
  | import_ line template target withContext =>
    refine .step (fun _ => showing_compiled h hw.1) fun t ht => .pure ?_
    exact .value (List.mem_singleton_self _) rfl ht.loads
      ((occurs_importText t).trans (.at_end (isClean_assigned (grouped_identifier hw.2).raise)))
  | fromImport line template names withContext =>
    exact .step (fun _ => showing_compiled h hw.1) fun t ht => .pure
      (covers_importLines blocks (fun n hn => (hw.2 n hn).2) ht)
  | exprStmt line value =>
    exact .step (fun _ => showing_compiled h hw) fun t ht => .pure
      (.value (List.mem_singleton_self _) rfl ht.loads (.refl t))
  | assign line target value =>
    have hpairs : ∀ p ∈ [(target, value)], p.1.Worded IsIdentifier false ∧ p.2.Worded IsIdentifier false :=
      List.forall_mem_singleton.2 hw
    exact .of_keeps fun _ => (covers_assignments blocks h hpairs).mono fun ls hls => (Covers.target hp).both hls
  | assignBlock line target filter body =>
    obtain ⟨hwtarget, hwfilter, hwbody⟩ := hw
    refine among_freshNumber fun n => ?_
    have hbuffer := grouped_made (isMade_bufferName n)
    refine .step (fun _ => loads_captured h hbuffer hwfilter) fun v hv =>
      .step (fun _ => showing_assigned hwtarget) fun t ht =>
      (covers_statements u _ (h.withBuffer n) body hwbody hp.2 blocks).bind fun inside => .pure fun hinside => ?_
    have hfilter (ls : Lines) : Covers u.template blocks (sitesAt line .value filter.toList)
        (ls ++ [emit u scope (t ++ " = " ++ v) line]) := by
      cases filter with
      | none => exact .nil
      | some e =>
        exact .value (List.mem_append_right _ (List.mem_singleton_self _)) rfl (hv e rfl)
          (.at_end (isClean_assigned ht))
    refine ((Covers.target hp.1).both (hfilter _)).both (hinside.mono fun l hl => ?_)
    exact List.mem_append_left _ (List.mem_cons_of_mem _ hl)
  | scope line body => exact covers_statements u scope h body hw hp blocks
  | scopedOptions line options body =>
    exact (covers_statements u scope h body hw.2 hp blocks).mono fun ls hls =>
      (covers_options blocks options).both hls
  | options line options => exact .pure (covers_options blocks options)
  | continue_ | break_ => exact .pure .nil
  | other line kind => exact .of_keeps fun _ => Keeps.stopAt
termination_by structural s

theorem covers_statements (u : Setting) (scope : Scope) (h : scope.Named) (ss : List Stmt)
    (hw : wordedBody IsIdentifier ss) (hp : pairedBody ss) (blocks : List (String × Lines)) :
    Among blocks (statements u scope ss) (Covers u.template blocks (bodySites ss)) := by
  cases ss with
  | nil => exact .pure .nil
  | cons s ss =>
    exact (covers_statement u scope h s hw.1 hp.1 blocks).bind fun _ =>
      (covers_statements u scope h ss hw.2 hp.2 blocks).bind fun _ => .pure fun hms hls => hls.append hms
termination_by structural ss

theorem covers_elifs (u : Setting) (scope : Scope) (h : scope.Named) (bs : List Branch)
    (hw : wordedBranches IsIdentifier bs) (hp : pairedBranches bs) (blocks : List (String × Lines)) :
    Among blocks (elifs u scope bs) (Covers u.template blocks (branchSites bs)) := by
  cases bs with
  | nil => exact .pure .nil
  | cons b bs =>
    exact (covers_elif u scope h b hw.1 hp.1 blocks).bind fun _ =>
      (covers_elifs u scope h bs hw.2 hp.2 blocks).bind fun _ => .pure fun hms hls => hls.append hms
termination_by structural bs

theorem covers_elif (u : Setting) (scope : Scope) (h : scope.Named) (b : Branch) (hw : b.Worded IsIdentifier)
    (hp : b.Paired) (blocks : List (String × Lines)) :
    Among blocks (elif u scope b) (Covers u.template blocks b.sites) := by
  cases b with
  | mk line test body =>
    refine .step (fun _ => showing_compiled h hw.1) fun t ht =>
      (covers_statements u _ h.nested body hw.2 hp blocks).bind fun inside => .pure fun hinside => ?_
    have htest : Covers u.template blocks [⟨line, .value, test⟩] [emit u scope ("elif " ++ t ++ ":") line] :=
      .value (List.mem_singleton_self _) rfl ht.loads (occurs_condition "elif " (by decide) t)
    exact htest.append (hinside.mono subset_suiteOf)
termination_by structural b

end

/-! ### Units -/

/-- A name stands in a line of a unit that its source map leads to a line of the template. -/
def CompiledUnit.Shows (unit : CompiledUnit) (line : Line) (id : String) : Prop :=
  ∃ p : Parts Location, unit.source = p.source ∧ unit.sourceMap = p.sourceMap ∧
    ∃ k l, p.statements[k]? = some l ∧ (p.head.length + 1 + k, ⟨unit.template, line⟩) ∈ unit.sourceMap ∧
      Occurs (loadName id) l.code

/-- Every name that a template reads stands in a line of its unit that came from where it is read, unless it
is the name of a template that nothing is imported from. -/
theorem reads_shown {dialect : Dialect} {source : String} {d : Document} {template directory : Path}
    {find : Text.Points → Except Miss Path} {unit : CompiledUnit} {id : String}
    (hparse : Document.parse dialect source = .ok d) (hunit : ofDocument template directory find d = .ok unit)
    (hi : i ∈ d.sites) (hpart : i.part ≠ .idle) (hid : id ∈ i.reads) : unit.Shows i.line id := by
  unfold ofDocument at hunit
  split at hunit
  case h_2 | h_3 | h_4 => cases hunit
  case h_1 body b hrun =>
    cases hunit
    obtain ⟨-, -, hcovers⟩ := covers_statements ⟨template, find⟩ Scope.top .top d.body (worded_of_parse hparse)
      (Document.parse_paired hparse) b.blocks (b := Builder.empty) (by simp [Distinct, Builder.empty]) hrun
    obtain ⟨l, hl, horigin, hshown⟩ := hcovers (List.Subset.refl _) i hi hpart id hid
    let p : Parts Location := {
      title := titleOf template
      context := (contextVariables d).map fun v => declaration v anyType
      definitions := b.blocks.flatMap (·.2)
      body }
    have hmem : l ∈ p.statements := by
      simp only [p, Parts.statements, List.mem_append, List.mem_cons] at hl ⊢
      tauto
    obtain ⟨k, hk⟩ := List.mem_iff_getElem?.1 hmem
    exact ⟨p, rfl, rfl, k, l, hk, Parts.mem_originsFrom.2 ⟨k, l, rfl, hk, horigin⟩, hshown⟩

/-- A template that names are imported from is shown, and one that nothing is imported from leaves no line. -/
theorem reads_shown_imported :
    (∃ d unit, Document.parse ⟨false, false⟩ "\x7b% from x import y %\x7d" = .ok d ∧
      ofDocument (Path.ofString "/t/page.html") (Path.ofString "/out") (fun _ => .error .undecodable) d = .ok unit ∧
      unit.Shows (some 1) "x") ∧
    ∃ d unit i, Document.parse ⟨false, false⟩ "\x7b% from x import with context %\x7d" = .ok d ∧
      ofDocument (Path.ofString "/t/page.html") (Path.ofString "/out") (fun _ => .error .undecodable) d = .ok unit ∧
      i ∈ d.sites ∧ i.part = .idle ∧ "x" ∈ i.reads ∧ ¬ unit.Shows i.line "x" := by
  have hpage (source : String) {sites : List (Line × Part × List String)} {lines : List Nat}
      (h : (do
        let d ← (Document.parse ⟨false, false⟩ source).toOption
        let unit ← (ofDocument (Path.ofString "/t/page.html") (Path.ofString "/out") (fun _ => .error .undecodable)
          d).toOption
        return (d.sites.map fun i => (i.line, i.part, i.reads), unit.sourceMap.map (·.1))) = some (sites, lines)) :
      ∃ d unit, Document.parse ⟨false, false⟩ source = .ok d ∧
        ofDocument (Path.ofString "/t/page.html") (Path.ofString "/out") (fun _ => .error .undecodable) d = .ok unit ∧
        (d.sites.map fun i => (i.line, i.part, i.reads)) = sites ∧ unit.sourceMap.map (·.1) = lines := by
    cases hparse : Document.parse ⟨false, false⟩ source with
    | error e => simp [hparse, Except.toOption] at h
    | ok d =>
      cases hunit : ofDocument (Path.ofString "/t/page.html") (Path.ofString "/out") (fun _ => .error .undecodable)
        d with
      | error e => simp [hparse, hunit, Except.toOption] at h
      | ok unit =>
        simp only [hparse, hunit, Except.toOption, Option.bind_eq_bind, Option.bind_some, pure, Option.some.injEq,
          Prod.mk.injEq] at h
        exact ⟨d, unit, rfl, hunit, h.1, h.2⟩
  have hmem {sites : List Site} {line : Line} {part : Part} {reads : List String}
      (h : (sites.map fun i => (i.line, i.part, i.reads)) = [(line, part, reads)]) :
      ∃ i ∈ sites, i.line = line ∧ i.part = part ∧ i.reads = reads := by
    obtain ⟨i, hi, hr⟩ := List.mem_map.1 (h ▸ List.mem_singleton_self (line, part, reads))
    exact ⟨i, hi, by simpa using hr⟩
  constructor
  · obtain ⟨d, unit, hparse, hunit, hsites, -⟩ := hpage "\x7b% from x import y %\x7d"
      (show _ = some ([(some 1, .value, ["x"])], [17]) by decide +kernel)
    obtain ⟨i, hi, hline, hpart, hreads⟩ := hmem hsites
    exact ⟨d, unit, hparse, hunit, hline ▸ reads_shown hparse hunit hi (by simp [hpart]) (by simp [hreads])⟩
  · obtain ⟨d, unit, hparse, hunit, hsites, hlines⟩ := hpage "\x7b% from x import with context %\x7d"
      (show _ = some ([(some 1, .idle, ["x"])], []) by decide +kernel)
    obtain ⟨i, hi, -, hpart, hreads⟩ := hmem hsites
    refine ⟨d, unit, i, hparse, hunit, hi, hpart, by simp [hreads], ?_⟩
    rintro ⟨p, -, -, k, l, -, hmapped, -⟩
    exact List.not_mem_nil (hlines ▸ List.mem_map_of_mem hmapped)

end Stencil.Compile
