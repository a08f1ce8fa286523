import Stencil.Proofs.Compile.Draft

/-!
The code of a template depends on its names only where they stand. A name is bound, loaded, declared as a parameter
and passed as an argument under one identifier.
-/
namespace Stencil.Compile
open Template Code

variable {ν : Naming} {block : Option String} {name : String} {key : Naming → Naming}

/-! ### Names -/

theorem Drawn.loadName (name : String) : Drawn Draft.fill fun ν => loadName (ν name) := by
  by_cases hname : name ∈ runtimeGlobals
  · refine (text (Compile.loadName name)).congr fun ν hν => ?_
    rw [hν.kept name (.inl (List.mem_append_right _ hname))]
  · refine (identifier name).congr fun ν hν => ?_
    rw [Compile.loadName, if_neg]
    intro hcontains
    -- no other name becomes one of the runtime's
    have hmem : ν name ∈ runtimeGlobals := by simpa using hcontains
    exact hname (hν.kept name (.inr (List.mem_append_right _ hmem)) ▸ hmem)

theorem isSuper_rename (hν : Apt ν) (e : Expr) : isSuper (e.rename ν) = isSuper e := by
  cases e with
  | name line id usage =>
    have hiff : ν id = "super" ↔ id = "super" := hν.eq_iff (by decide)
    by_cases hid : id = "super"
    · rw [Expr.rename, hiff.2 hid, hid]
    · simp [Expr.rename, isSuper, hid, hiff]
  | _ => rfl

theorem isSelf_rename (hν : Apt ν) (e : Expr) : isSelf (e.rename ν) = isSelf e := by
  cases e with
  | name line id usage =>
    have hiff : ν id = "self" ↔ id = "self" := hν.eq_iff (by decide)
    by_cases hid : id = "self"
    · rw [Expr.rename, hiff.2 hid, hid]
    · simp [Expr.rename, isSelf, hid, hiff]
  | _ => rfl

/-! ### Arguments -/

/-- How arguments are named: keywords as they are, and other names as they are drawn. -/
structure Keys (key : Naming → Naming) : Prop where
  keyword : ∀ ν name, isKeyword name → key ν name = name
  usual : ∀ ν, Apt ν → ∀ name, isKeyword name = false → isKeyword (key ν name) = false
  drawn : ∀ name, isKeyword name = false → Drawn Draft.fill fun ν => key ν name

theorem Keys.isKeyword (h : Keys key) (hν : Apt ν) (name : String) :
    isKeyword (key ν name) = isKeyword name := by
  cases hname : Code.isKeyword name with
  | true => rw [h.keyword ν name hname, hname]
  | false => exact h.usual ν hν name hname

/-- The arguments of filters and tests. -/
theorem keys_id : Keys fun _ => id :=
  ⟨fun _ _ _ => rfl, fun _ _ _ => id, fun name _ => .text name⟩

/-- The arguments of macros are passed under the identifiers of parameters. -/
theorem keys_key : Keys Naming.key := by
  have husual {name : String} (hname : isKeyword name = false) (ν : Naming) : ν.key name = ν name := by
    rw [Naming.key, hname, if_neg Bool.false_ne_true]
  refine ⟨fun ν name hname => if_pos hname, fun ν hν name hname => ?_, fun name hname => ?_⟩
  · rw [hν.isKeyword_key, hname]
  · refine (Drawn.identifier name).congr fun ν hν => ?_
    rw [husual hname, identifier, if_neg fun h => by simp [hν.keyword name h] at hname]

/-- A draft of an argument. -/
def argument (key : Naming → Naming) (ν : Naming) (n : String × Draft) : String × String := (key ν n.1, n.2.fill ν)

theorem filter_arguments (h : Keys key) (hν : Apt ν) (p : Bool → Bool) (named : List (String × Draft)) :
    (each (argument key) ν named).filter (fun n => p (isKeyword n.1)) =
      each (argument key) ν (named.filter fun n => p (isKeyword n.1)) := by
  rw [each, each, List.filter_map]
  congr 2
  funext n
  exact congrArg p (h.isKeyword hν n.1)

theorem Drawn.argumentTexts (h : Keys key) (args : List Draft) (rest : Option Draft) (named : List (String × Draft))
    (restNamed : Option Draft) :
    Drawn (each Draft.fill) fun ν => argumentTexts (each Draft.fill ν args) (perhaps Draft.fill ν rest)
      (each (argument key) ν named) (perhaps Draft.fill ν restNamed) := by
  have hstarred (stars : String) (o : Option Draft) :
      Drawn (each Draft.fill) fun ν => ((perhaps Draft.fill ν o).map (stars ++ ·)).toList := by
    cases o with
    | none => exact nil
    | some d => exact (before stars (filled d)).cons nil
  have husual : Drawn (each Draft.fill) fun ν =>
      (named.filter fun n => !isKeyword n.1).map fun n => key ν n.1 ++ "=" ++ n.2.fill ν := by
    refine .map fun n hn => ?_
    have hname : isKeyword n.1 = false := by simpa using (List.mem_filter.1 hn).2
    exact ((h.drawn n.1 hname).behind "=").concat (filled n.2)
  have hspread : Drawn (each Draft.fill) fun ν => if (named.filter fun n => isKeyword n.1).isEmpty then [] else
      ["**\x7b" ++ Compile.commaSeparated ((named.filter fun n => isKeyword n.1).map fun n =>
        Text.quote n.1 ++ ": " ++ n.2.fill ν) ++ "\x7d"] := by
    refine .ite _ (fun _ _ => rfl) nil (.cons (.behind (.before _ (.commaSeparated (.map fun n _ => ?_))) _) nil)
    exact before _ (filled n.2)
  refine .congr (fun ν hν => ?_) (((((filled args).append (hstarred "*" rest)).append husual).append hspread).append
    (hstarred "**" restNamed))
  have hunusual : (each (argument key) ν (named.filter fun n => isKeyword n.1)).map
      (fun n => Text.quote n.1 ++ ": " ++ n.2) =
        (named.filter fun n => isKeyword n.1).map fun n => Text.quote n.1 ++ ": " ++ n.2.fill ν := by
    rw [each, List.map_map]
    refine List.map_congr_left fun n hn => ?_
    rw [Function.comp_apply, argument, h.keyword ν n.1 (List.mem_filter.1 hn).2]
  rw [Compile.argumentTexts, filter_arguments h hν (fun b => !b) named, filter_arguments h hν (fun b => b) named,
    hunusual]
  simp only [each, List.map_map, List.isEmpty_map]
  rfl

/-! ### Expressions -/

namespace Drawn

variable {s t : Naming → String} {o p q : Naming → Option String} {items : Naming → List String}

theorem between (left : String) (hs : Drawn Draft.fill s) (right : String) :
    Drawn Draft.fill fun ν => left ++ s ν ++ right := (before left hs).behind right

theorem tupleText (h : Drawn (each Draft.fill) items) : Drawn Draft.fill fun ν => tupleText (items ν) := by
  refine h.into (f := fun _ items => Compile.tupleText items) fun ds => ?_
  match ds with
  | [d] => exact between "(" (filled d) ",)"
  | [] => exact between "(" (commaSeparated (filled [])) ")"
  | d :: e :: ds => exact between "(" (commaSeparated (filled (d :: e :: ds))) ")"

theorem sliceText (ho : Drawn (perhaps Draft.fill) o) (hp : Drawn (perhaps Draft.fill) p)
    (hq : Drawn (perhaps Draft.fill) q) : Drawn Draft.fill fun ν => sliceText (o ν) (p ν) (q ν) := by
  have hbounds := ((ho.getD "").behind ":").concat (hp.getD "")
  refine hq.into (f := fun ν step => Compile.sliceText (o ν) (p ν) step) fun step => ?_
  cases step with
  | none => exact hbounds
  | some d => exact (hbounds.behind ":").concat (filled d)

theorem attributeText (hs : Drawn Draft.fill s) (attr : String) :
    Drawn Draft.fill fun ν => attributeText (s ν) attr :=
  .ite _ (fun _ _ => rfl) (((between _ hs _).behind _).behind _) ((hs.behind _).behind _)

theorem callText (hs : Drawn Draft.fill s) (h : Drawn (each Draft.fill) items) :
    Drawn Draft.fill fun ν => callText (s ν) (items ν) :=
  ((hs.behind _).concat h.commaSeparated).behind _

theorem unaryText (op : UnaryOp) (hs : Drawn Draft.fill s) : Drawn Draft.fill fun ν => unaryText op (s ν) := by
  cases op <;> exact between _ hs _

end Drawn

theorem alike_superCall (block : Option String) (line : Line) : Alike Draft.fill fun _ => superCall block line := by
  cases block with
  | none => exact .error _
  | some name => exact .ok (.text _)

mutual

/-- The text of an expression depends on its names where they stand. -/
theorem alike_expr (block : Option String) (input : Option Draft) (e : Expr) :
    Alike Draft.fill fun ν => expr block (perhaps Draft.fill ν input) (e.rename ν) :=
  match e with
  | .name _ id _ => .ok (.loadName id)
  | .attrRef _ space attr => .ok (((Drawn.identifier space).behind ".").behind attr)
  | .const .. | .data .. | .context .. => .ok (.text _)
  | .tuple _ items => (alike_exprs block items).bind fun ds => .ok (.tupleText (.filled ds))
  | .list _ items => (alike_exprs block items).bind fun ds => .ok (.between "[" (.commaSeparated (.filled ds)) "]")
  | .dict _ items =>
    (alike_pairs block items).bind fun ds => .ok (.between "\x7b" (.commaSeparated (.filled ds)) "\x7d")
  | .cond _ test body otherwise => by
    refine (alike_option block otherwise).bind fun otherwise => (alike_expr block none body).bind fun body =>
      (alike_expr block none test).bind fun test => .ok ?_
    have hif := (Drawn.before "(" (.filled body)).behind " if "
    have helse := (hif.concat (.filled test)).behind " else "
    exact (helse.concat (.getD (.filled otherwise) "None")).behind ")"
  | .filter line operand name args named rest restNamed => by
    refine (alike_filterOperand block input line name operand).bind fun operand =>
      (alike_exprs block args).bind fun args => (alike_option block rest).bind fun rest =>
      (alike_namedArguments block (fun _ => id) named).bind fun named =>
      (alike_option block restNamed).bind fun restNamed => .ok (.callText (.text _) (.cons (.filled operand) ?_))
    exact .argumentTexts keys_id args rest named restNamed
  | .test _ operand name args named rest restNamed => by
    refine (alike_expr block input operand).bind fun operand =>
      (alike_exprs block args).bind fun args => (alike_option block rest).bind fun rest =>
      (alike_namedArguments block (fun _ => id) named).bind fun named =>
      (alike_option block restNamed).bind fun restNamed => .ok (.callText (.text _) (.cons (.filled operand) ?_))
    exact .argumentTexts keys_id args rest named restNamed
  | .call line callee args named rest restNamed => by
    -- what is passed to the parent's definition is dropped, whatever its names are
    refine .ite (isSuper callee) (fun _ hν => isSuper_rename hν callee) (alike_superCall block line) ?_
    refine (alike_expr block none callee).bind fun function => (alike_exprs block args).bind fun args =>
      (alike_option block rest).bind fun rest => (alike_namedArguments block Naming.key named).bind fun named =>
      (alike_option block restNamed).bind fun restNamed => .ok (.callText (.filled function) ?_)
    exact .argumentTexts keys_key args rest named restNamed
  | .item _ owner index =>
    (alike_expr block none owner).bind fun owner => (alike_expr block none index).bind fun index =>
      .ok ((((Drawn.filled owner).behind "[").concat (.filled index)).behind "]")
  | .attr _ owner attr =>
    .ite (isSelf owner) (fun _ hν => isSelf_rename hν owner) (Alike.ok (.text _))
      ((alike_expr block none owner).bind fun owner => .ok (.attributeText (.filled owner) attr))
  | .slice _ start stop step =>
    (alike_option block start).bind fun start => (alike_option block stop).bind fun stop =>
      (alike_option block step).bind fun step => .ok (.sliceText (.filled start) (.filled stop) (.filled step))
  | .concat _ items => (alike_exprs block items).bind fun ds => .ok (.callText (.text _) (.filled ds))
  | .compare _ first others =>
    (alike_expr block none first).bind fun first => (alike_comparisons block others).bind fun ds =>
      .ok (.between "(" (.intercalate " " (.cons (.filled first) (.filled ds))) ")")
  | .binary _ op left right => by
    refine (alike_expr block none left).bind fun left => (alike_expr block none right).bind fun right => .ok ?_
    have hleft := ((((Drawn.filled left).before "(").behind " ").behind op.text).behind " "
    exact (hleft.concat (.filled right)).behind ")"
  | .unary _ op operand => (alike_expr block none operand).bind fun d => .ok (.unaryText op (.filled d))
  | .safe _ value => alike_expr block none value
  | .other line kind _ => .error _
termination_by structural e

theorem alike_filterOperand (block : Option String) (input : Option Draft) (line : Line) (name : String)
    (e : Option Expr) : Alike Draft.fill fun ν =>
      filterOperand block (perhaps Draft.fill ν input) line name (renameOption ν e) :=
  match e with
  | some e => alike_expr block input e
  | none => match input with
    | some d => .ok (.filled d)
    | none => .error _
termination_by structural e

theorem alike_exprs (block : Option String) (es : List Expr) :
    Alike (each Draft.fill) fun ν => exprs block (renameAll ν es) :=
  match es with
  | [] => .ok .nil
  | e :: es => (alike_expr block none e).bind fun d => (alike_exprs block es).bind fun ds =>
    .ok (.cons (.filled d) (.filled ds))
termination_by structural es

theorem alike_option (block : Option String) (e : Option Expr) :
    Alike (perhaps Draft.fill) fun ν => option block (renameOption ν e) :=
  match e with
  | none => .ok (.filled none)
  | some e => (alike_expr block none e).bind fun d => .ok (.filled (some d))
termination_by structural e

theorem alike_pairs (block : Option String) (es : List (Expr × Expr)) :
    Alike (each Draft.fill) fun ν => pairs block (renamePairs ν es) :=
  match es with
  | [] => .ok .nil
  | (key, value) :: es => (alike_expr block none key).bind fun key => (alike_expr block none value).bind fun value =>
    (alike_pairs block es).bind fun ds =>
    .ok (.cons (((Drawn.filled key).behind ": ").concat (.filled value)) (.filled ds))
termination_by structural es

theorem alike_namedArguments (block : Option String) (key : Naming → Naming) (es : List (String × Expr)) :
    Alike (each (argument key)) fun ν => namedArguments block (renameNamed ν (key ν) es) :=
  match es with
  | [] => .ok .nil
  | (name, e) :: es => (alike_expr block none e).bind fun d => (alike_namedArguments block key es).bind fun ds =>
    .ok (.cons (.filled (name, d)) (.filled ds))
termination_by structural es

theorem alike_comparisons (block : Option String) (es : List (CompareOp × Expr)) :
    Alike (each Draft.fill) fun ν => comparisons block (renameOperands ν es) :=
  match es with
  | [] => .ok .nil
  | (op, e) :: es => (alike_expr block none e).bind fun d => (alike_comparisons block es).bind fun ds =>
    .ok (.cons (.text op.text) (.cons (.filled d) (.filled ds)))
termination_by structural es

end

mutual

/-- A target is bound under the identifiers of its names. -/
theorem alike_target (e : Expr) : Alike Draft.fill fun ν => target (e.rename ν) :=
  match e with
  | .name _ id _ => .ok (.identifier id)
  | .attrRef _ space attr => .ok (((Drawn.identifier space).behind ".").behind attr)
  | .tuple _ items => (alike_targets items).bind fun ds =>
    match ds with
    | [d] => .ok ((Drawn.filled d).behind ",")
    | [] => .ok (.commaSeparated (.filled []))
    | d :: e :: ds => .ok (.commaSeparated (.filled (d :: e :: ds)))
  | .const l .. | .data l .. | .list l .. | .dict l .. | .cond l .. | .filter l .. | .test l .. | .call l .. | .item l ..
  | .attr l .. | .slice l .. | .concat l .. | .compare l .. | .binary l .. | .unary l .. | .safe l .. | .context l
  | .other l .. => .error (Unsupported.mk .target l)

theorem alike_targets (es : List Expr) : Alike (each Draft.fill) fun ν => targets (renameAll ν es) :=
  match es with
  | [] => .ok .nil
  | e :: es => (alike_target e).bind fun d => (alike_targets es).bind fun ds => .ok (.cons (.filled d) (.filled ds))

end

theorem alike_callWith (block : Option String) (extra : List String) (e : Expr) :
    Alike Draft.fill fun ν => callWith block extra (e.rename ν) := by
  cases e
  case call line callee args named rest restNamed =>
    refine .ite (isSuper callee) (fun _ hν => isSuper_rename hν callee) (alike_superCall block line) ?_
    refine (alike_expr block none callee).bind fun function => (alike_exprs block args).bind fun args =>
      (alike_option block rest).bind fun rest => (alike_namedArguments block Naming.key named).bind fun named =>
      (alike_option block restNamed).bind fun restNamed => .ok (.callText (.filled function) ?_)
    exact .append (.argumentTexts keys_key args rest named restNamed) (.texts extra)
  all_goals
    simp only [Expr.rename, callWith, Expr.kind, Expr.line]
    exact .error _

theorem alike_defaultTexts (es : List Expr) : Alike (each Draft.fill) fun ν => defaultTexts (renameAll ν es) := by
  induction es with
  | nil => exact .ok .nil
  | cons e es ih => exact (alike_expr none none e).bind fun d => ih.bind fun ds => .ok (.cons (.filled d) (.filled ds))

/-- The parameters behind those with names of their own, which a function has if it uses them. -/
def otherParameters (allowCaller : Bool) (has : String → Bool) : List String :=
  (if has "varargs" then ["*varargs: typing.Any"] else if allowCaller && has "caller" then ["*"] else []) ++
    (if allowCaller && has "caller" then ["caller: _jt_rt.Caller = _jt_rt.no_caller"] else []) ++
    if has "kwargs" then ["**kwargs: typing.Any"] else []

theorem parameters_eq (allowCaller : Bool) (params defaults used : List String) :
    parameters allowCaller params defaults used = commaSeparated
      ((params.zip (List.replicate (params.length - defaults.length) none ++ defaults.map some)).map
        (fun p => parameterText p.1 p.2) ++
      otherParameters allowCaller fun name => used.contains name && !params.contains name) := by
  simp only [parameters, otherParameters, List.append_assoc]

/-- The other parameters are the same, whatever names there are. -/
theorem otherParameters_rename (hν : Apt ν) (allowCaller : Bool) (params used : List String) :
    otherParameters allowCaller (fun name => (used.map ν).contains name && !(params.map ν).contains name) =
      otherParameters allowCaller fun name => used.contains name && !params.contains name := by
  have hkept : "varargs" ∈ keptNames ∧ "caller" ∈ keptNames ∧ "kwargs" ∈ keptNames := by decide
  simp only [otherParameters, hν.contains_map hkept.1, hν.contains_map hkept.2.1, hν.contains_map hkept.2.2]

/-- A parameter is declared under the identifier of its name. -/
theorem Drawn.parameters (allowCaller : Bool) (params : List String) (defaults : List Draft) (used : List String) :
    Drawn Draft.fill fun ν =>
      parameters allowCaller (params.map ν) (each Draft.fill ν defaults) (used.map ν) := by
  have hentries (values : List (Option Draft)) : Drawn (each Draft.fill) fun ν =>
      (params.zip values).map fun p => parameterText (ν p.1) (perhaps Draft.fill ν p.2) := by
    refine .map fun p _ => ?_
    exact ((((identifier p.1).behind _).behind _).behind _).concat (.getD (.filled p.2) "None")
  refine .congr (fun ν hν => ?_) (.commaSeparated (.append
    (hentries (List.replicate (params.length - defaults.length) none ++ defaults.map some))
    (.texts (otherParameters allowCaller fun name => used.contains name && !params.contains name))))
  have hvalues : List.replicate ((params.map ν).length - (each Draft.fill ν defaults).length) none ++
      (each Draft.fill ν defaults).map some =
        (List.replicate (params.length - defaults.length) none ++ defaults.map some).map (perhaps Draft.fill ν) := by
    simp [each, perhaps]
  rw [parameters_eq, otherParameters_rename hν, hvalues, List.zip_map, List.map_map]
  rfl

/-! ### Lines -/

theorem Drawn.lineAt (u : Setting) (indent : Int) (line : Line) {s : Naming → String} (h : Drawn Draft.fill s) :
    Drawn LineDraft.fill fun ν => lineAt u indent (s ν) line := by
  obtain ⟨d, hd⟩ := h
  exact ⟨⟨indent, d, some ⟨u.template, line⟩⟩, fun ν hν => congrArg (Compile.lineAt u indent · line) (hd ν hν)⟩

theorem Drawn.scaffold (indent : Int) (s : String) : Drawn LineDraft.fill fun _ => Code.scaffold indent s :=
  ⟨⟨indent, [.text s], none⟩, fun _ _ => by simp [LineDraft.fill, Draft.fill, Span.fill, Code.scaffold]⟩

variable {u : Setting} {scope : Scope} {line : Line} {ls : Naming → Lines}

theorem Drawn.suiteOf (scope : Scope) (line : Line) (h : Drawn (each LineDraft.fill) ls) :
    Drawn (each LineDraft.fill) fun ν => suiteOf u scope (ls ν) line := by
  refine h.into (f := fun _ ls => Compile.suiteOf u scope ls line) fun ds => ?_
  refine .ite ds.isEmpty (fun _ _ => ?_) (.cons (.lineAt u _ _ (.text _)) .nil) (.filled ds)
  rw [each, List.isEmpty_map]

theorem Drawn.functionOf (indent : Int) {header : Naming → String} (hheader : Drawn Draft.fill header)
    (h : Drawn (each LineDraft.fill) ls) :
    Drawn (each LineDraft.fill) fun ν => functionOf u indent (header ν) line (ls ν) :=
  .cons (.lineAt u _ _ hheader) (.cons (.scaffold _ _) (.append h (.cons (.scaffold _ _) .nil)))

/-! ### Builders -/

/-- A builder whose blocks are drafts. -/
structure BuilderDraft where
  blocks : List (String × List LineDraft)
  parent : Option Path
  includes : List Path
  counter : Nat

def BuilderDraft.fill (ν : Naming) (b : BuilderDraft) : Builder :=
  ⟨b.blocks.map fun d => (d.1, each LineDraft.fill ν d.2), b.parent, b.includes, b.counter⟩

variable {α β ι κ : Type} {F : Naming → ι → α} {G : Naming → κ → β} {x : Naming → Build α}

/-- What is drawn, and the builder's draft with it. -/
def built (F : Naming → ι → α) (ν : Naming) (r : ι × BuilderDraft) : α × Builder := (F ν r.1, r.2.fill ν)

/-- Work on a template depends on its names only where they stand. -/
def Builds (F : Naming → ι → α) (x : Naming → Build α) : Prop :=
  ∀ b : BuilderDraft, Alike (built F) fun ν => (x ν).run (b.fill ν)

namespace Builds

theorem pure {a : Naming → α} (h : Drawn F a) : Builds F fun ν => (pure (a ν) : Build α) := fun b =>
  .ok (h.into (f := fun ν a => (a, b.fill ν)) fun d => .filled (d, b))

theorem bind {f : Naming → α → Build β} (hx : Builds F x) (hf : ∀ d, Builds G fun ν => f ν (F ν d)) :
    Builds G fun ν => x ν >>= f ν := fun b => (hx b).bind fun r => hf r.1 r.2

/-- Work goes on with what no name has a part in. -/
theorem bind_same {y : Naming → Build ι} {f : Naming → ι → Build β} (hy : Builds same y)
    (hf : ∀ a, Builds G fun ν => f ν a) : Builds G fun ν => y ν >>= f ν := hy.bind hf

theorem stopAt (obstacle : Obstacle) (line : Line) : Builds F fun _ => (stopAt obstacle line : Build α) :=
  fun _ => .error _

theorem stops (obstacle : Obstacle) (line : Line) {f : Naming → α → Build β} :
    Builds G fun ν => (Compile.stopAt obstacle line : Build α) >>= f ν := fun _ => .error _

theorem ofResult {r : Naming → Result α} (h : Alike F r) : Builds F fun ν => ofResult (r ν) := by
  refine fun b => h.into (f := fun ν r => (Compile.ofResult r).run (b.fill ν)) fun y => ?_
  cases y with
  | error e => exact Alike.error _
  | ok d => exact Alike.ok (.filled (d, b))

theorem ite {c : Naming → Bool} {y : Naming → Build α} (v : Bool) (hc : ∀ ν, Apt ν → c ν = v) (hx : Builds F x)
    (hy : Builds F y) : Builds F fun ν => if c ν then x ν else y ν := fun b => by
  cases v with
  | true => exact (hx b).congr fun ν hν => congrArg (StateT.run · (b.fill ν)) (if_pos (hc ν hν))
  | false =>
    exact (hy b).congr fun ν hν => congrArg (StateT.run · (b.fill ν)) (if_neg (Bool.eq_false_iff.1 (hc ν hν)))

/-- The builder's state, seen as a draft. -/
theorem get : Builds BuilderDraft.fill fun _ => (get : Build Builder) := fun b => .ok (.filled (b, b))

theorem set {f : Naming → Builder} (h : Drawn BuilderDraft.fill f) :
    Builds same fun ν => (set (f ν) : Build PUnit) := fun _ =>
  .ok (h.into (f := fun _ b => (PUnit.unit, b)) fun b => .filled (PUnit.unit, b))

theorem modify {f : Naming → Builder → Builder} {g : BuilderDraft → BuilderDraft}
    (h : ∀ ν, Apt ν → ∀ b : BuilderDraft, f ν (b.fill ν) = (g b).fill ν) :
    Builds same fun ν => (modify (f ν) : Build PUnit) := fun b =>
  .ok ⟨(PUnit.unit, g b), fun ν hν => congrArg (PUnit.unit, ·) (h ν hν b)⟩

end Builds

theorem builds_freshNumber : Builds same fun _ => freshNumber :=
  Builds.get.bind fun b => (Builds.set ⟨{ b with counter := b.counter + 1 }, fun _ _ => rfl⟩).bind fun _ =>
    .pure (.same (b.counter + 1))

theorem builds_compiled (scope : Scope) (e : Expr) : Builds Draft.fill fun ν => compiled scope (e.rename ν) :=
  .ofResult (alike_expr scope.block none e)

theorem builds_assigned (e : Expr) : Builds Draft.fill fun ν => assigned (e.rename ν) := .ofResult (alike_target e)

theorem builds_resolve (u : Setting) (names : TemplateNames) (ignoreMissing : Bool) (line : Line) :
    Builds same fun _ => resolve u names ignoreMissing line := by
  intro b
  unfold resolve
  cases firstFound u.find names with
  | error e => exact .error _
  | ok found =>
    cases found with
    | some p => exact .ok (.filled (some p, b))
    | none => exact Builds.ite ignoreMissing (fun _ _ => rfl) (.pure (.same none)) (.stopAt _ _) b

/-- A line with a text that is drawn. -/
theorem Drawn.single (u : Setting) (scope : Scope) (line : Line) {s : Naming → String} (h : Drawn Draft.fill s) :
    Drawn (each LineDraft.fill) fun ν => [emit u scope (s ν) line] := .cons (.lineAt u _ _ h) .nil

theorem Drawn.appended (buffer : String) {s : Naming → String} (h : Drawn Draft.fill s) :
    Drawn Draft.fill fun ν => Compile.append buffer (s ν) := (h.before _).behind _

theorem Drawn.shown {s : Naming → String} (h : Drawn Draft.fill s) : Drawn Draft.fill fun ν => Compile.shown (s ν) :=
  (h.before _).behind _

theorem builds_value (u : Setting) (scope : Scope) (e : Expr) :
    Builds (each LineDraft.fill) fun ν => do
      let value ← compiled scope (e.rename ν)
      return [emit u scope (append scope.buffer (shown value)) (e.rename ν).line] := by
  simp only [Expr.line_rename]
  exact (builds_compiled scope e).bind fun d => .pure (.single u scope _ (.appended _ (.shown (.filled d))))

theorem builds_outputLines (u : Setting) (scope : Scope) (nodes : List Expr) :
    Builds (each LineDraft.fill) fun ν => outputLines u scope (renameAll ν nodes) := by
  induction nodes with
  | nil => exact .pure .nil
  | cons e es ih =>
    have hline : Builds (each LineDraft.fill) fun ν => outputLine u scope (e.rename ν) := by
      cases e
      case data line text => exact .ite _ (fun _ _ => rfl) (.pure .nil) (.pure (.single u scope line (.text _)))
      all_goals exact builds_value u scope _
    exact hline.bind fun ds => ih.bind fun es => .pure (.append (.filled ds) (.filled es))

theorem builds_loopTarget (e : Expr) : Builds Draft.fill fun ν => loopTarget (e.rename ν) := by
  refine (builds_assigned e).bind fun d => ?_
  cases e
  case tuple => exact .pure (.between "(" (.filled d) ")")
  all_goals exact .pure (.filled d)

theorem builds_loopTest (u : Setting) (scope : Scope) (line : Line) (test : Option Expr) :
    Builds (each LineDraft.fill) fun ν => loopTest u scope line (renameOption ν test) := by
  cases test with
  | none => exact .pure .nil
  | some e =>
    refine (builds_compiled scope e).bind fun d => .pure (.cons (.lineAt u _ _ ?_) (.cons (.lineAt u _ _ (.text _)) .nil))
    exact .between "if not " (.filled d) ":"

theorem builds_captured (scope : Scope) (buffer : String) (filter : Option Expr) :
    Builds Draft.fill fun ν => captured scope buffer (renameOption ν filter) := by
  cases filter with
  | none => exact .pure (.text _)
  | some e =>
    have hjoined : Alike Draft.fill fun ν => expr scope.block (some (joined buffer)) (e.rename ν) := by
      refine (alike_expr scope.block (some [.text (joined buffer)]) e).congr fun ν _ => ?_
      simp [perhaps, Draft.fill, Span.fill]
    exact .ofResult hjoined

theorem isSome_lookup_blocks (ν : Naming) (name : String) (blocks : List (String × List LineDraft)) :
    ((blocks.map fun d => (d.1, each LineDraft.fill ν d.2)).lookup name).isSome = (blocks.lookup name).isSome := by
  induction blocks with
  | nil => rfl
  | cons d blocks ih =>
    rw [List.map_cons, List.lookup_cons, List.lookup_cons]
    cases name == d.1
    · exact ih
    · rfl

theorem builds_openBlock (name : String) (line : Line) : Builds same fun _ => openBlock name line := by
  refine Builds.get.bind fun b => ?_
  refine .ite _ (fun ν _ => isSome_lookup_blocks ν name b.blocks) (.stops _ _)
    (.set ⟨{ b with blocks := b.blocks ++ [(name, [])] }, fun ν _ => ?_⟩)
  simp [BuilderDraft.fill, each]

theorem builds_closeBlock (name : String) {ls : Naming → Lines} (h : Drawn (each LineDraft.fill) ls) :
    Builds same fun ν => closeBlock name (ls ν) := by
  obtain ⟨ds, hds⟩ := h
  refine .modify (g := fun b => { b with blocks := b.blocks.map fun d => if d.1 == name then (name, ds) else d })
    fun ν hν b => ?_
  simp only [BuilderDraft.fill, List.map_map, hds ν hν]
  congr 1
  refine List.map_congr_left fun d _ => ?_
  simp only [Function.comp_apply]
  split <;> rfl

theorem builds_extendsLine (u : Setting) (scope : Scope) (template : Expr) (line : Line) :
    Builds (each LineDraft.fill) fun ν => extendsLine u scope (template.rename ν) line := by
  simp only [extendsLine, Expr.templateNames?_rename]
  refine .ite _ (fun _ _ => rfl) (.stops _ _) (Builds.get.bind fun b =>
    .ite b.parent.isSome (fun _ _ => rfl) (.stops _ _) ?_)
  cases template.templateNames? with
  | none => exact .stopAt _ _
  | some names =>
    refine (builds_resolve u names false line).bind_same fun found => ?_
    cases found with
    | none => exact .stopAt _ _
    | some parent =>
      refine (Builds.modify (g := fun b => { b with parent := some parent }) fun _ _ _ => rfl).bind fun _ => ?_
      exact .pure (.single u scope line (.text _))

theorem builds_includeLine (u : Setting) (scope : Scope) (template : Expr) (ignoreMissing : Bool) (line : Line) :
    Builds (each LineDraft.fill) fun ν => includeLine u scope (template.rename ν) ignoreMissing line := by
  simp only [includeLine, Expr.templateNames?_rename]
  cases template.templateNames? with
  | none =>
    refine (builds_compiled scope template).bind fun d => .pure (.single u scope line (.appended _ ?_))
    exact .between "_jt_rt.include_dynamic(" (.filled d) ")"
  | some names =>
    refine (builds_resolve u names ignoreMissing line).bind_same fun found => ?_
    cases found with
    | none => exact .pure .nil
    | some included =>
      refine (Builds.modify (g := fun b => { b with includes := b.includes ++ [included] }) fun _ _ _ => rfl).bind
        fun _ => ?_
      exact .pure (.single u scope line (.text _))

theorem Drawn.importText {s : Naming → String} (h : Drawn Draft.fill s) :
    Drawn Draft.fill fun ν => Compile.importText (s ν) := (h.before _).behind _

theorem Drawn.importLines (u : Setting) (scope : Scope) {s : Naming → String} (h : Drawn Draft.fill s) (line : Line)
    (names : List (String × String)) : Drawn (each LineDraft.fill) fun ν =>
      importLines u scope (s ν) line (names.map fun n => (n.1, ν n.2)) := by
  simp only [Compile.importLines, List.map_map]
  refine .map fun n _ => .lineAt u _ _ ?_
  exact ((((identifier n.2).behind _).concat h.importText).behind _).behind _

theorem builds_assignments (u : Setting) (scope : Scope) (line : Line) (pairs : List (Expr × Expr)) :
    Builds (each LineDraft.fill) fun ν => assignments u scope line (renamePairs ν pairs) := by
  induction pairs with
  | nil => exact .pure .nil
  | cons pair pairs ih =>
    refine (builds_assigned pair.1).bind fun target => (builds_compiled scope pair.2).bind fun value =>
      ih.bind fun ds => .pure (.cons (.lineAt u _ _ ?_) (.filled ds))
    exact ((Drawn.filled target).behind " = ").concat (.filled value)

theorem Drawn.functionHeader {name params : Naming → String} (hname : Drawn Draft.fill name)
    (hparams : Drawn Draft.fill params) : Drawn Draft.fill fun ν => Compile.functionHeader (name ν) (params ν) :=
  ((((hname.before _).behind _).concat hparams).behind _)

/-! ### Statements -/

mutual

/-- The code of a statement depends on its names where they stand. -/
theorem builds_statement (u : Setting) (scope : Scope) (s : Stmt) :
    Builds (each LineDraft.fill) fun ν => statement u scope (s.rename ν) := by
  cases s with
  | output line nodes => exact builds_outputLines u scope nodes
  | extends_ line template => exact builds_extendsLine u scope template line
  | for_ line target source body otherwise test isRecursive =>
    refine (builds_compiled scope source).bind fun source => (builds_loopTarget target).bind fun target =>
      (builds_loopTest u scope.nested line test).bind fun test => (builds_statements u _ body).bind fun body => ?_
    have hhead : Drawn (each LineDraft.fill) fun ν =>
        emit u scope (loopHeader (target.fill ν) (source.fill ν)) line ::
          each LineDraft.fill ν test ++ suiteOf u scope.nested (each LineDraft.fill ν body) line := by
      have hheader := (((Drawn.filled target).before "for loop, ").behind " in _jt_rt.loop(").concat (.filled source)
      exact .append (.cons (.lineAt u _ _ (hheader.behind "):")) (.filled test)) (.suiteOf _ _ (.filled body))
    refine .ite otherwise.isEmpty (fun _ _ => isEmpty_renameBody otherwise) (.pure hhead) ?_
    refine (builds_statements u _ otherwise).bind fun ds => .pure (.append hhead (.cons (.lineAt u _ _ ?_) ?_))
    · exact .between _ (.filled source) _
    · exact .suiteOf _ _ (.filled ds)
  | if_ line test body branches otherwise =>
    refine (builds_compiled scope test).bind fun test => (builds_statements u _ body).bind fun body =>
      (builds_elifs u scope branches).bind fun branches => (builds_statements u _ otherwise).bind fun last => ?_
    have hhead : Drawn (each LineDraft.fill) fun ν => emit u scope ("if " ++ test.fill ν ++ ":") line ::
        suiteOf u scope.nested (each LineDraft.fill ν body) line ++ each LineDraft.fill ν branches :=
      .append (.cons (.lineAt u _ _ (.between _ (.filled test) _)) (.suiteOf _ _ (.filled body))) (.filled branches)
    cases otherwise with
    | nil => exact .pure hhead
    | cons first otherwise =>
      simp only [renameBody, List.head?_cons, Stmt.line_rename]
      exact .pure (.append hhead (.cons (.lineAt u _ _ (.text _)) (.suiteOf _ _ (.filled last))))
  | macro_ line id params defaults body =>
    simp only [Stmt.rename, statement, mentionsAll_rename, bodyMentions_rename, ← List.map_append, loads_rename]
    refine (Builds.ofResult (alike_defaultTexts defaults)).bind fun values =>
      (builds_statements u _ body).bind fun body => .pure (.functionOf _ ?_ (.filled body))
    exact .functionHeader (.identifier id) (.parameters true params values _)
  | callBlock line call params defaults body =>
    simp only [Stmt.rename, statement, Expr.mentions_rename, mentionsAll_rename, bodyMentions_rename,
      ← List.map_append, loads_rename]
    -- names that are made up are numbered, so they are the same for all namings
    refine builds_freshNumber.bind_same fun n => (Builds.ofResult (alike_defaultTexts defaults)).bind fun values =>
      (builds_statements u _ body).bind fun body =>
      (Builds.ofResult (alike_callWith scope.block ["caller=" ++ callerName n] call)).bind fun call => .pure ?_
    refine .append (.functionOf _ ?_ (.filled body)) (.single u scope line (.appended _ (.shown (.filled call))))
    exact .functionHeader (.text _) (.parameters false params values _)
  | filterBlock line body filter =>
    refine builds_freshNumber.bind_same fun n => (builds_captured scope _ (some filter)).bind fun filtered =>
      (builds_statements u _ body).bind fun body => .pure (.append (.cons (.lineAt u _ _ (.text _)) (.filled body)) ?_)
    exact .single u scope line (.appended _ (.filled filtered))
  | with_ line targets values body =>
    simp only [Stmt.rename, statement, zip_renameAll]
    exact (builds_assignments u scope line _).bind fun ds => (builds_statements u scope body).bind fun es =>
      .pure (.append (.filled ds) (.filled es))
  | block line id body isScoped required =>
    refine (builds_openBlock id line).bind_same fun _ => (builds_statements u _ body).bind fun body =>
      (builds_closeBlock id (.functionOf 0 (.text _) (.filled body))).bind_same fun _ => .pure ?_
    exact .single u scope line (.text _)
  | include_ line template withContext ignoreMissing => exact builds_includeLine u scope template ignoreMissing line
  | import_ line template target withContext =>
    refine (builds_compiled scope template).bind fun d => .pure (.single u scope line ?_)
    exact ((Drawn.identifier target).behind " = ").concat (.importText (.filled d))
  | fromImport line template names withContext =>
    exact (builds_compiled scope template).bind fun d => .pure (.importLines u scope (.filled d) line names)
  | exprStmt line value => exact (builds_compiled scope value).bind fun d => .pure (.single u scope line (.filled d))
  | assign line target value => exact builds_assignments u scope line [(target, value)]
  | assignBlock line target filter body =>
    refine builds_freshNumber.bind_same fun n => (builds_captured scope _ filter).bind fun value =>
      (builds_assigned target).bind fun target => (builds_statements u _ body).bind fun body =>
      .pure (.append (.cons (.lineAt u _ _ (.text _)) (.filled body)) (.single u scope line ?_))
    exact ((Drawn.filled target).behind " = ").concat (.filled value)
  | scope line body | scopedOptions line options body => exact builds_statements u scope body
  | options => exact .pure .nil
  | continue_ line | break_ line => exact .pure (.single u scope line (.text _))
  | other line kind => exact .stopAt _ _
termination_by structural s

theorem builds_statements (u : Setting) (scope : Scope) (ss : List Stmt) :
    Builds (each LineDraft.fill) fun ν => statements u scope (renameBody ν ss) := by
  cases ss with
  | nil => exact .pure .nil
  | cons s ss =>
    exact (builds_statement u scope s).bind fun ds => (builds_statements u scope ss).bind fun es =>
      .pure (.append (.filled ds) (.filled es))
termination_by structural ss

theorem builds_elifs (u : Setting) (scope : Scope) (bs : List Branch) :
    Builds (each LineDraft.fill) fun ν => elifs u scope (renameBranches ν bs) := by
  cases bs with
  | nil => exact .pure .nil
  | cons b bs =>
    exact (builds_elif u scope b).bind fun ds => (builds_elifs u scope bs).bind fun es =>
      .pure (.append (.filled ds) (.filled es))
termination_by structural bs

theorem builds_elif (u : Setting) (scope : Scope) (b : Branch) :
    Builds (each LineDraft.fill) fun ν => elif u scope (b.rename ν) := by
  cases b with
  | mk line test body =>
    refine (builds_compiled scope test).bind fun test => (builds_statements u _ body).bind fun body => .pure ?_
    exact .cons (.lineAt u _ _ (.between _ (.filled test) _)) (.suiteOf scope.nested line (.filled body))
termination_by structural b

end

/-! ### Templates -/

/-- The code depends on the names of a template where they stand, and there only on what they become. -/
theorem ofDocument_drafts (template directory : Path) (find : Text.Points → Except Miss Path) (d : Document) :
    ∃ drafts : Except Failure (List LineDraft × BuilderDraft), ∀ ν, Apt ν →
      ofDocument template directory find (d.rename ν) = drafts.map fun r =>
        assemble template directory (d.rename ν) (r.1.map (LineDraft.fill ν)) (r.2.fill ν) := by
  obtain ⟨y, hy⟩ := builds_statements ⟨template, find⟩ Scope.top d.body ⟨[], none, [], 0⟩
  have hrun (ν : Naming) (hν : Apt ν) : (statements ⟨template, find⟩ Scope.top (d.rename ν).body).run Builder.empty =
      outcome (built (each LineDraft.fill)) ν y := hy ν hν
  cases y with
  | ok r => exact ⟨.ok r, fun ν hν => by rw [ofDocument, hrun ν hν]; rfl⟩
  | error e => cases e <;> exact ⟨.error _, fun ν hν => by rw [ofDocument, hrun ν hν]; rfl⟩

/-- The names that the runtime has are the only ones that are loaded from elsewhere than where they are bound. -/
theorem expr_name_eq_target_iff {input : Option String} {line line' : Line} {usage usage' : Usage} :
    expr block input (.name line name usage) = target (.name line' name usage') ↔ name ∉ runtimeGlobals := by
  have hglobals : ∀ name ∈ runtimeGlobals, "_jt_rt." ++ name ≠ identifier name := by decide
  rw [expr, target, loadName, Except.ok.injEq]
  by_cases hname : name ∈ runtimeGlobals
  · rw [if_pos (by simpa using hname)]
    exact iff_of_false (hglobals name hname) (not_not.2 hname)
  · rw [if_neg (by simpa using hname)]
    exact iff_of_true rfl hname

/-- Keywords are the only names under which no parameter gets its argument. -/
theorem argumentTexts_eq_identifier_iff {value : String} :
    argumentTexts [] none [(name, value)] none = [identifier name ++ "=" ++ value] ↔ isKeyword name = false := by
  cases hname : isKeyword name with
  | false => simp [argumentTexts, identifier, hname]
  | true =>
    have hheads : keywords.all fun k => k.toList.head?.any (· != '*') := by decide
    have hhead := List.all_eq_true.1 hheads name (by simpa [isKeyword] using hname)
    have htexts : argumentTexts [] none [(name, value)] none =
        ["**\x7b" ++ (commaSeparated [Text.quote name ++ ": " ++ value] ++ "\x7d")] := by
      simp [argumentTexts, hname, String.append_assoc]
    refine iff_of_false (fun h => ?_) (by simp)
    rw [htexts, identifier, if_pos hname] at h
    have hstars : '*' ∈ name.toList.head? := by
      have hchars := congrArg (fun s => s.toList.head?) (List.singleton_inj.1 h)
      cases hcs : name.toList with
      | nil => simp [hcs] at hhead
      | cons c cs => simpa [hcs, eq_comm] using hchars
    simp [Option.mem_def.1 hstars] at hhead

/-- A name of a template is bound and used under one identifier. It is loaded under the one that is assigned unless
the runtime has the name, and an argument is passed under its parameter's unless it is a keyword. All code of a
template is drawn so: with names open it is the same for all namings, and in each place of a name, be it assigned or
loaded there, declared or passed, stands the identifier of what it becomes. -/
theorem ofDocument_rename (template directory : Path) (find : Text.Points → Except Miss Path) (d : Document) :
    (∀ block input line usage line' usage' name, expr block input (.name line name usage) =
      target (.name line' name usage') ↔ name ∉ runtimeGlobals) ∧
    (∀ name value, argumentTexts [] none [(name, value)] none = [identifier name ++ "=" ++ value] ↔
      isKeyword name = false) ∧
    ∃ drafts : Except Failure (List LineDraft × BuilderDraft), ∀ ν, Apt ν →
      ofDocument template directory find (d.rename ν) = drafts.map fun r =>
        assemble template directory (d.rename ν) (r.1.map (LineDraft.fill ν)) (r.2.fill ν) :=
  ⟨fun _ _ _ _ _ _ _ => expr_name_eq_target_iff, fun _ _ => argumentTexts_eq_identifier_iff,
    ofDocument_drafts template directory find d⟩

/-- A macro with a parameter, a variable of the same name, and a call that passes one for the other. -/
def hailing : Document := ⟨[
  .macro_ (some 1) "hail" ["user"] [] [.output (some 1) [.name (some 1) "user" .load]],
  .assign (some 2) (.name (some 2) "user" .store) (.const (some 2) (.int 7)),
  .output (some 3) [.call (some 3) (.name (some 3) "hail" .load) [] [("user", .name (some 3) "user" .load)] none none]]⟩

def visiting (name : String) : String := if name = "user" then "visitor" else name

example : ((statements ⟨⟨true, ["page"]⟩, fun _ => .error .undecodable⟩ .top (hailing.rename visiting).body).run
    .empty).toOption.map (fun r => r.1.map (·.code)) = some [
      "def hail(visitor: typing.Any = None) -> str:", "_jt_out: list[str] = []", "_jt_out.append(str(visitor))",
      "return \"\".join(_jt_out)", "visitor = 7", "_jt_out.append(str(hail(visitor=visitor)))"] := by
  decide +kernel

theorem apt_visiting : Apt visiting := by
  have hkept : "user" ∉ keptNames ∧ "visitor" ∉ keptNames := by decide
  refine ⟨fun name hname => ?_, fun name hname => ?_⟩
  · unfold visiting at hname ⊢
    split at hname
    · next huser =>
      subst huser
      exact (hname.elim hkept.1 hkept.2).elim
    · next huser => exact if_neg huser
  · rw [visiting] at hname
    split at hname
    · exact absurd hname (by decide)
    · exact hname

theorem ofDocument_rename_hailing : Apt visiting ∧ ∃ r : List LineDraft × BuilderDraft,
    ofDocument ⟨true, ["page"]⟩ ⟨true, ["out"]⟩ (fun _ => .error .undecodable) (hailing.rename visiting) =
      .ok (assemble ⟨true, ["page"]⟩ ⟨true, ["out"]⟩ (hailing.rename visiting) (r.1.map (LineDraft.fill visiting))
        (r.2.fill visiting)) := by
  obtain ⟨-, -, drafts, hdrafts⟩ :=
    ofDocument_rename ⟨true, ["page"]⟩ ⟨true, ["out"]⟩ (fun _ => .error .undecodable) hailing
  have hfilled := hdrafts visiting apt_visiting
  cases drafts with
  | ok r => exact ⟨apt_visiting, r, hfilled⟩
  | error e =>
    have hok : (ofDocument ⟨true, ["page"]⟩ ⟨true, ["out"]⟩ (fun _ => .error .undecodable)
      (hailing.rename visiting)).toOption.isSome := by decide +kernel
    rw [hfilled] at hok
    cases hok

end Stencil.Compile
