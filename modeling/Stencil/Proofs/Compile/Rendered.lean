import Stencil.Proofs.Code.Occurs
import Stencil.Proofs.Compile.Grouped
import Stencil.Proofs.Template.Reads

/-! The names that an expression reads stand in its text. -/
namespace Stencil.Compile
open Template Code Text Token Grouping

variable {s t f o v : String} {ids ids' items args : List String} {block input : Option String} {slices : Bool}

/-- All names are loaded in a text. -/
def Loads (ids : List String) (s : String) : Prop := ∀ id ∈ ids, Occurs (loadName id) s

/-- Each name is loaded in one of several texts. -/
def LoadsIn (ids : List String) (texts : List String) : Prop := ∀ id ∈ ids, ∃ t ∈ texts, Occurs (loadName id) t

theorem Loads.append (h : Loads ids s) (h' : Loads ids' s) : Loads (ids ++ ids') s :=
  List.forall_mem_append.2 ⟨h, h'⟩

theorem Loads.within (h : Loads ids t) (hs : Occurs t s) : Loads ids s := fun id hid => (h id hid).trans hs

theorem LoadsIn.within (h : LoadsIn ids items) (hs : ∀ t ∈ items, Occurs t s) : Loads ids s := by
  intro id hid
  obtain ⟨t, ht, hload⟩ := h id hid
  exact hload.trans (hs t ht)

theorem LoadsIn.cons (h : Loads ids t) (h' : LoadsIn ids' items) : LoadsIn (ids ++ ids') (t :: items) := by
  refine List.forall_mem_append.2 ⟨fun id hid => ⟨t, by simp, h id hid⟩, fun id hid => ?_⟩
  obtain ⟨u, hu, hload⟩ := h' id hid
  exact ⟨u, List.mem_cons_of_mem _ hu, hload⟩

theorem LoadsIn.append (h : LoadsIn ids items) (h' : LoadsIn ids' args) : LoadsIn (ids ++ ids') (items ++ args) := by
  refine List.forall_mem_append.2 ⟨fun id hid => ?_, fun id hid => ?_⟩
  · obtain ⟨t, ht, hload⟩ := h id hid
    exact ⟨t, List.mem_append_left _ ht, hload⟩
  · obtain ⟨t, ht, hload⟩ := h' id hid
    exact ⟨t, List.mem_append_right _ ht, hload⟩

theorem Loads.item (h : Loads ids s) : LoadsIn ids [s] := fun id hid => ⟨s, by simp, h id hid⟩

theorem loads_nil : Loads [] s := by simp [Loads]

theorem loadsIn_nil : LoadsIn [] items := by simp [LoadsIn]

/-! ### Parts of texts -/

/-- Behind an opening bracket any text may begin, whatever is in front of it. -/
theorem isClean_opened {l : String} (h : Grouped 1 f) (hl : l = "(" ∨ l = "[") : IsClean (f ++ l).toList := by
  have hdelimits := delimits_bracketed hl ""
  rw [String.append_empty] at hdelimits
  refine isClean_glue h hdelimits ?_
  obtain rfl | rfl := hl <;> decide

theorem isClean_marked (h : Grouped 1 f) {g : String} (hg : g ∈ marks) : IsClean (f ++ g).toList :=
  isClean_glue h (delimits_mark hg) (mark_facts g hg).1

theorem occurs_separated (h : t ∈ items) (hall : ∀ t ∈ items, Grouped 1 t) : Occurs t (commaSeparated items) :=
  .intercalate h hall (by simp [marks])

theorem occurs_callee (f : String) (args : List String) : Occurs f (callText f args) := by
  rw [callText, String.append_assoc, String.append_assoc]
  exact .followed (by decide) (by decide)

theorem occurs_argument (hf : Grouped 1 f) (ha : ∀ t ∈ args, Grouped 1 t) (ht : t ∈ args) :
    Occurs t (callText f args) :=
  (occurs_separated ht ha).trans
    (.within (u := f ++ "(") (v := ")") (isClean_opened hf (.inl rfl)) (by decide))

/-- What is passed under unusual names stands in the mapping of them. -/
theorem occurs_spread {named : List (String × String)} (hn : ∀ n ∈ named, Grouped 1 n.2) {n : String × String}
    (h : n ∈ named) :
    Occurs n.2 ("**\x7b" ++ commaSeparated (named.map fun n => Text.quote n.1 ++ ": " ++ n.2) ++ "\x7d") := by
  have hcolon : ": " ∈ marks := by simp [marks]
  have hitems : ∀ t ∈ named.map fun n => Text.quote n.1 ++ ": " ++ n.2, Grouped 1 t := by
    simp only [List.mem_map, forall_exists_index, and_imp]
    rintro _ n hn' rfl
    exact (ended_quote _).grouped.marked hcolon (hn n hn')
  have hitem : Occurs n.2 (Text.quote n.1 ++ ": " ++ n.2) :=
    .at_end (isClean_marked (ended_quote _).grouped hcolon)
  have hlist := occurs_separated (List.mem_map.2 ⟨n, h, rfl⟩) hitems
  have hopen : IsClean "**\x7b".toList := by decide
  have hclose : EndsNames "\x7d".toList := by decide
  exact (hitem.trans hlist).trans (.within hopen hclose)

/-- What is passed in a call stands in one of its arguments. -/
theorem exists_argument (rest restNamed : Option String) {named : List (String × String)}
    (hn : ∀ n ∈ named, isIdentifier n.1.toList ∧ Grouped 1 n.2)
    (h : t ∈ args ++ rest.toList ++ named.map (·.2) ++ restNamed.toList) :
    ∃ a ∈ argumentTexts args rest named restNamed, Occurs t a := by
  simp only [List.mem_append, Option.mem_toList] at h
  simp only [argumentTexts, List.mem_append]
  obtain ((h | h) | h) | h := h
  · exact ⟨t, by simp [h], .refl t⟩
  · exact ⟨"*" ++ t, by simp [Option.mem_def.1 h], .at_end (u := "*") (by decide)⟩
  · obtain ⟨n, hmem, rfl⟩ := List.mem_map.1 h
    by_cases hk : isKeyword n.1
    · have hunusual : n ∈ named.filter fun n => isKeyword n.1 := List.mem_filter.2 ⟨hmem, hk⟩
      refine ⟨_, .inl (.inr ?_), occurs_spread (fun n hn' => (hn n (List.mem_filter.1 hn').1).2) hunusual⟩
      rw [if_neg (by simpa using List.ne_nil_of_mem hunusual)]
      simp
    · refine ⟨n.1 ++ "=" ++ n.2, .inl (.inl (.inr ?_)), .at_end (u := n.1 ++ "=") ?_⟩
      · exact List.mem_map.2 ⟨n, List.mem_filter.2 ⟨hmem, by simpa using hk⟩, rfl⟩
      · exact isClean_marked (grouped_name (k := 1) (hn n hmem).1 (by simp)) (by simp [marks])
  · exact ⟨"**" ++ t, by simp [Option.mem_def.1 h], .at_end (u := "**") (by decide)⟩

theorem occurs_item (h : t ∈ items) (hall : ∀ t ∈ items, Grouped 1 t) : Occurs t (tupleText items) := by
  unfold tupleText
  split
  · next item =>
    obtain rfl := List.mem_singleton.1 h
    exact .within (u := "(") (v := ",)") (by decide) (by decide)
  · exact (occurs_separated h hall).trans
      (.within (u := "(") (v := ")") (by decide) (by decide))

theorem occurs_attributeText (o attr : String) : Occurs o (attributeText o attr) := by
  unfold attributeText
  split
  · have hends : EndsNames (", ".toList ++ ((Text.quote attr).toList ++ ")".toList)) :=
      (by decide : endsName ',' = true)
    exact ⟨"getattr(".toList, _, by simp, by decide, hends⟩
  · rw [String.append_assoc]
    exact .followed (by decide) (by decide)

theorem occurs_bound {start stop step : Option String} (hstart : Given (Grouped 1) start)
    (hstop : Given (Grouped 1) stop) (h : t ∈ start.toList ++ stop.toList ++ step.toList) :
    Occurs t (sliceText start stop step) := by
  have hpart (u : Option String) (hu : Given (Grouped 1) u) : Grouped 1 (u.getD "") := by
    cases u with
    | none => exact ended_empty.grouped
    | some t => exact hu t rfl
  have hcolon {us : List Char} (hu : IsClean us) {s : String} (hs : Grouped 1 s) :
      IsClean (us ++ s.toList ++ ":".toList) :=
    hu.group hs (delimits_mark (by simp [marks])) (by decide)
  have hbounds (hmem : t ∈ start.toList ++ stop.toList) : Occurs t (start.getD "" ++ ":" ++ stop.getD "") := by
    simp only [List.mem_append, Option.mem_toList] at hmem
    obtain h | h := hmem
    · rw [Option.mem_def.1 h, String.append_assoc]
      exact .followed (by decide) (by decide)
    · rw [Option.mem_def.1 h]
      refine .at_end (u := start.getD "" ++ ":") ?_
      rw [String.toList_append]
      exact hcolon isClean_nil (hpart start hstart)
  rw [List.mem_append] at h
  cases step with
  | none => exact hbounds (by simpa using h)
  | some u =>
    obtain h | h := h
    · refine (hbounds h).trans ?_
      rw [show sliceText start stop (some u) = start.getD "" ++ ":" ++ stop.getD "" ++ (":" ++ u) from
        String.append_assoc ..]
      exact .followed (by decide) (by decide)
    · obtain rfl : t = u := by simpa using h
      refine .at_end (u := start.getD "" ++ ":" ++ stop.getD "" ++ ":") ?_
      simp only [String.toList_append]
      have hfront := hcolon isClean_nil (hpart start hstart)
      exact hcolon hfront (hpart stop hstop)

/-- The parts of a text in brackets, with something between each two. -/
theorem occurs_spaced {a b c : String} (ha : Grouped 1 a) (hb : Grouped 1 b)
    {g i : String} (hg : g ∈ marks) (hi : i ∈ marks) (h : t ∈ [a, b, c]) :
    Occurs t ("(" ++ a ++ g ++ b ++ i ++ c ++ ")") := by
  obtain ⟨hclean, hends⟩ := mark_facts g hg
  obtain ⟨hclean', hends'⟩ := mark_facts i hi
  have hopen : IsClean "(".toList := by decide
  have hfirst := hopen.group ha (delimits_mark hg) hclean
  have hsecond := hfirst.group hb (delimits_mark hi) hclean'
  have hclose : EndsNames ")".toList := by decide
  simp only [List.mem_cons, List.not_mem_nil, or_false] at h
  obtain rfl | rfl | rfl := h
  · refine ⟨"(".toList, g.toList ++ (b ++ i ++ c ++ ")").toList, by simp, hopen, ?_⟩
    obtain ⟨d, ds, hds, -⟩ := delimits_mark hg
    rw [hds] at hends ⊢
    exact hends
  · refine ⟨_, i.toList ++ (c ++ ")").toList, by simp, hfirst, ?_⟩
    obtain ⟨d, ds, hds, -⟩ := delimits_mark hi
    rw [hds] at hends' ⊢
    exact hends'
  · exact ⟨_, ")".toList, by simp, hsecond, hclose⟩

theorem occurs_operand (op : UnaryOp) (s : String) : Occurs s (unaryText op s) := by
  cases op
  case not => exact .within (u := "(not ") (v := ")") (by decide) (by decide)
  case neg => exact .within (u := "(-") (v := ")") (by decide) (by decide)
  case pos => exact .within (u := "(+") (v := ")") (by decide) (by decide)

/-- What is passed in a call is loaded in its text. -/
theorem loads_passed {all : List String} {rest restNamed : Option String} {named : List (String × String)}
    {ids₁ ids₂ ids₃ ids₄ : List String} (hf : Grouped 1 f) (hall : ∀ t ∈ all, Grouped 1 t)
    (hsub : argumentTexts args rest named restNamed ⊆ all)
    (hn : ∀ n ∈ named, isIdentifier n.1.toList ∧ Grouped 1 n.2) (h₁ : LoadsIn ids₁ args)
    (h₂ : LoadsIn ids₂ (named.map (·.2))) (h₃ : LoadsIn ids₃ rest.toList) (h₄ : LoadsIn ids₄ restNamed.toList) :
    Loads (ids₁ ++ ids₂ ++ ids₃ ++ ids₄) (callText f all) := by
  refine (((h₁.append h₂).append h₃).append h₄).within fun t ht => ?_
  have hpassed : t ∈ args ++ rest.toList ++ named.map (·.2) ++ restNamed.toList := by
    simp only [List.mem_append] at ht ⊢
    tauto
  obtain ⟨a, ha, hoccurs⟩ := exists_argument rest restNamed hn hpassed
  exact hoccurs.trans (occurs_argument hf hall (hsub ha))

/-- A filter or test loads its input and what is passed to it. -/
theorem loads_applied {rest restNamed : Option String} {named : List (String × String)}
    {ids₁ ids₂ ids₃ ids₄ : List String} (hf : Grouped 1 f) (ho : Grouped 1 o)
    (hargs : ∀ t ∈ argumentTexts args rest named restNamed, Grouped 1 t)
    (hn : ∀ n ∈ named, isIdentifier n.1.toList ∧ Grouped 1 n.2) (hload : Loads ids o) (h₁ : LoadsIn ids₁ args)
    (h₂ : LoadsIn ids₂ (named.map (·.2))) (h₃ : LoadsIn ids₃ rest.toList) (h₄ : LoadsIn ids₄ restNamed.toList) :
    Loads (ids ++ ids₁ ++ ids₂ ++ ids₃ ++ ids₄) (callText f (o :: argumentTexts args rest named restNamed)) := by
  have hall := List.forall_mem_cons.2 ⟨ho, hargs⟩
  have hpassed := loads_passed hf hall (List.subset_cons_self _ _) hn h₁ h₂ h₃ h₄
  have hoperand := hload.within (occurs_argument hf hall List.mem_cons_self)
  simpa only [List.append_assoc] using hoperand.append hpassed

/-- A call loads its function and what is passed to it. -/
theorem loads_called {rest restNamed : Option String} {named : List (String × String)} {extra : List String}
    {ids₁ ids₂ ids₃ ids₄ : List String} (hf : Grouped 1 f)
    (hargs : ∀ t ∈ argumentTexts args rest named restNamed, Grouped 1 t) (hextra : ∀ t ∈ extra, Grouped 1 t)
    (hn : ∀ n ∈ named, isIdentifier n.1.toList ∧ Grouped 1 n.2) (hload : Loads ids f) (h₁ : LoadsIn ids₁ args)
    (h₂ : LoadsIn ids₂ (named.map (·.2))) (h₃ : LoadsIn ids₃ rest.toList) (h₄ : LoadsIn ids₄ restNamed.toList) :
    Loads (ids ++ ids₁ ++ ids₂ ++ ids₃ ++ ids₄)
      (callText f (argumentTexts args rest named restNamed ++ extra)) := by
  have hpassed := loads_passed hf (List.forall_mem_append.2 ⟨hargs, hextra⟩) (List.subset_append_left _ _) hn
    h₁ h₂ h₃ h₄
  simpa only [List.append_assoc] using (hload.within (occurs_callee f _)).append hpassed

section Trees

mutual

theorem loads_expr (hb : ∀ n ∈ block, IsIdentifier n) (input : Option String) (hi : Given (Grouped 1) input)
    (slices : Bool) (e : Expr) (hw : e.Worded IsIdentifier slices) (s : String) (h : expr block input e = .ok s) : Loads e.reads s :=
  match e with
  | .name _ id usage => by
    rw [expr] at h
    cases h
    rw [Expr.reads]
    split
    · intro _ hid
      rw [List.mem_singleton.1 hid]
      exact .refl _
    · exact loads_nil
  | .attrRef .. | .const .. | .data .. | .context .. => loads_nil
  | .tuple _ items => by
    rw [expr] at h
    obtain ⟨ts, hts, h⟩ := bind_eq_ok.1 h
    cases h
    exact (loadsIn_exprs hb true items hw ts hts).within fun t ht =>
      occurs_item ht (grouped_exprs hb true items hw ts hts)
  | .list _ items => by
    rw [expr] at h
    obtain ⟨ts, hts, h⟩ := bind_eq_ok.1 h
    cases h
    exact (loadsIn_exprs hb false items hw ts hts).within fun t ht =>
      (occurs_separated ht (grouped_exprs hb false items hw ts hts)).trans (.within (by decide) (by decide))
  | .dict _ items => by
    rw [expr] at h
    obtain ⟨ts, hts, h⟩ := bind_eq_ok.1 h
    cases h
    have hopen : IsClean "\x7b".toList := by decide
    have hclose : EndsNames "\x7d".toList := by decide
    exact (loadsIn_pairs hb items hw ts hts).within fun t ht =>
      (occurs_separated ht (grouped_pairs hb items hw ts hts)).trans (.within hopen hclose)
  | .cond _ test body otherwise => by
    rw [expr] at h
    obtain ⟨o, ho, h⟩ := bind_eq_ok.1 h
    obtain ⟨b, hbody, h⟩ := bind_eq_ok.1 h
    obtain ⟨t, ht, h⟩ := bind_eq_ok.1 h
    cases h
    have hspaced := fun u hu => occurs_spaced (t := u) (c := o.getD "None")
      (fits_expr hb none (by simp [Given]) false body hw.2.1 b hbody).inside
      (fits_expr hb none (by simp [Given]) false test hw.1 t ht).inside (g := " if ") (i := " else ")
      (by simp [marks]) (by simp [marks]) hu
    refine ((loads_expr hb none (by simp [Given]) false test hw.1 t ht).within (hspaced t (by simp))).append
      ((loads_expr hb none (by simp [Given]) false body hw.2.1 b hbody).within (hspaced b (by simp))) |>.append ?_
    refine (loadsIn_option hb otherwise hw.2.2 o ho).within fun u hu => hspaced u ?_
    simp [Option.mem_toList.1 hu]
  | .filter line operand name args named rest restNamed => by
    rw [expr] at h
    obtain ⟨o, ho, h⟩ := bind_eq_ok.1 h
    obtain ⟨as, has, h⟩ := bind_eq_ok.1 h
    obtain ⟨r, hr, h⟩ := bind_eq_ok.1 h
    obtain ⟨ns, hns, h⟩ := bind_eq_ok.1 h
    obtain ⟨rn, hrn, h⟩ := bind_eq_ok.1 h
    cases h
    obtain ⟨hwo, hwname, hwargs, hwnamed, hwrest, hwrestNamed⟩ := hw
    have hoperand := grouped_filterOperand hb input hi line name operand hwo o ho
    have hnamed := grouped_named hb named hwnamed ns hns
    have hargs := grouped_argumentTexts (grouped_exprs hb false args hwargs as has)
      (grouped_option hb rest hwrest r hr) hnamed (grouped_option hb restNamed hwrestNamed rn hrn)
    have hfunction := (stands_runtimeAttribute (o := "_jt_filters")
      (grouped_name (by decide) fun _ => by decide) hwname).inside
    exact loads_applied hfunction hoperand hargs hnamed
      (loads_filterOperand hb input hi line name operand hwo o ho) (loadsIn_exprs hb false args hwargs as has)
      (loadsIn_named hb named hwnamed ns hns) (loadsIn_option hb rest hwrest r hr)
      (loadsIn_option hb restNamed hwrestNamed rn hrn)
  | .test _ operand name args named rest restNamed => by
    rw [expr] at h
    obtain ⟨o, ho, h⟩ := bind_eq_ok.1 h
    obtain ⟨as, has, h⟩ := bind_eq_ok.1 h
    obtain ⟨r, hr, h⟩ := bind_eq_ok.1 h
    obtain ⟨ns, hns, h⟩ := bind_eq_ok.1 h
    obtain ⟨rn, hrn, h⟩ := bind_eq_ok.1 h
    cases h
    obtain ⟨hwo, hwname, hwargs, hwnamed, hwrest, hwrestNamed⟩ := hw
    have hoperand := (fits_expr hb input hi false operand hwo o ho).inside
    have hnamed := grouped_named hb named hwnamed ns hns
    have hargs := grouped_argumentTexts (grouped_exprs hb false args hwargs as has)
      (grouped_option hb rest hwrest r hr) hnamed (grouped_option hb restNamed hwrestNamed rn hrn)
    have hfunction := (stands_runtimeAttribute (o := "_jt_tests")
      (grouped_name (by decide) fun _ => by decide) (testName_dotted hwname)).inside
    exact loads_applied hfunction hoperand hargs hnamed (loads_expr hb input hi false operand hwo o ho)
      (loadsIn_exprs hb false args hwargs as has) (loadsIn_named hb named hwnamed ns hns)
      (loadsIn_option hb rest hwrest r hr) (loadsIn_option hb restNamed hwrestNamed rn hrn)
  | .call line callee args named rest restNamed => by
    rw [expr] at h
    rw [Expr.reads]
    split
    · exact loads_nil
    · next hsuper =>
      rw [if_neg hsuper] at h
      obtain ⟨f, hf, h⟩ := bind_eq_ok.1 h
      obtain ⟨as, has, h⟩ := bind_eq_ok.1 h
      obtain ⟨r, hr, h⟩ := bind_eq_ok.1 h
      obtain ⟨ns, hns, h⟩ := bind_eq_ok.1 h
      obtain ⟨rn, hrn, h⟩ := bind_eq_ok.1 h
      cases h
      obtain ⟨hwf, hwargs, hwnamed, hwrest, hwrestNamed⟩ := hw
      have hnamed := grouped_named hb named hwnamed ns hns
      have hargs := grouped_argumentTexts (grouped_exprs hb false args hwargs as has)
        (grouped_option hb rest hwrest r hr) hnamed (grouped_option hb restNamed hwrestNamed rn hrn)
      have hcallee := (fits_expr hb none (by simp [Given]) false callee hwf f hf).inside
      simpa using loads_called hcallee hargs (List.forall_mem_nil _) hnamed
        (loads_expr hb none (by simp [Given]) false callee hwf f hf) (loadsIn_exprs hb false args hwargs as has)
        (loadsIn_named hb named hwnamed ns hns) (loadsIn_option hb rest hwrest r hr)
        (loadsIn_option hb restNamed hwrestNamed rn hrn)
  | .item _ owner index => by
    rw [expr] at h
    obtain ⟨o, ho, h⟩ := bind_eq_ok.1 h
    obtain ⟨i, hindex, h⟩ := bind_eq_ok.1 h
    cases h
    have howner := (fits_expr hb none (by simp [Given]) false owner hw.1 o ho).inside
    refine ((loads_expr hb none (by simp [Given]) false owner hw.1 o ho).within ?_).append
      ((loads_expr hb none (by simp [Given]) true index hw.2 i hindex).within ?_)
    · rw [String.append_assoc, String.append_assoc]
      exact .followed (by decide) (by decide)
    · exact .within (u := o ++ "[") (v := "]") (isClean_opened howner (.inr rfl)) (by decide)
  | .attr _ owner attr => by
    rw [expr] at h
    rw [Expr.reads]
    split
    · exact loads_nil
    · next hself =>
      rw [if_neg hself] at h
      obtain ⟨o, ho, h⟩ := bind_eq_ok.1 h
      cases h
      exact (loads_expr hb none (by simp [Given]) false owner hw.1 o ho).within (occurs_attributeText o attr)
  | .slice _ start stop stride => by
    rw [expr] at h
    obtain ⟨a, ha, h⟩ := bind_eq_ok.1 h
    obtain ⟨b, hb', h⟩ := bind_eq_ok.1 h
    obtain ⟨c, hc, h⟩ := bind_eq_ok.1 h
    cases h
    exact (((loadsIn_option hb start hw.2.1 a ha).append (loadsIn_option hb stop hw.2.2.1 b hb')).append
      (loadsIn_option hb stride hw.2.2.2 c hc)).within fun t ht =>
        occurs_bound (grouped_option hb start hw.2.1 a ha) (grouped_option hb stop hw.2.2.1 b hb') ht
  | .concat _ items => by
    rw [expr] at h
    obtain ⟨ts, hts, h⟩ := bind_eq_ok.1 h
    cases h
    have hfunction := grouped_runtime.member (grouped_name (s := "concat") (by decide) fun _ => by decide)
    exact (loadsIn_exprs hb false items hw ts hts).within fun t ht =>
      occurs_argument hfunction.raise (grouped_exprs hb false items hw ts hts) ht
  | .compare _ first others => by
    rw [expr] at h
    obtain ⟨f, hf, h⟩ := bind_eq_ok.1 h
    obtain ⟨ts, hts, h⟩ := bind_eq_ok.1 h
    cases h
    have hall := List.forall_mem_cons.2 ⟨(fits_expr hb none (by simp [Given]) false first hw.1 f hf).inside,
      grouped_comparisons hb others hw.2 ts hts⟩
    refine (LoadsIn.cons (loads_expr hb none (by simp [Given]) false first hw.1 f hf)
      (loadsIn_comparisons hb others hw.2 ts hts)).within fun t ht => ?_
    exact (Occurs.intercalate ht hall (by simp [marks])).trans (.within (by decide) (by decide))
  | .binary _ op left right => by
    rw [expr] at h
    obtain ⟨l, hl, h⟩ := bind_eq_ok.1 h
    obtain ⟨r, hr, h⟩ := bind_eq_ok.1 h
    cases h
    have hspaced := fun u hu => occurs_spaced (t := u) (c := r)
      (fits_expr hb none (by simp [Given]) false left hw.1 l hl).inside (grouped_binaryOp op) (g := " ") (i := " ")
      (by simp [marks]) (by simp [marks]) hu
    exact ((loads_expr hb none (by simp [Given]) false left hw.1 l hl).within (hspaced l (by simp))).append
      ((loads_expr hb none (by simp [Given]) false right hw.2 r hr).within (hspaced r (by simp)))
  | .unary _ op operand => by
    rw [expr] at h
    obtain ⟨o, ho, h⟩ := bind_eq_ok.1 h
    cases h
    exact (loads_expr hb none (by simp [Given]) false operand hw o ho).within (occurs_operand op o)
  | .safe _ value => by
    rw [expr] at h
    exact loads_expr hb none (by simp [Given]) false value hw s h
  | .other .. => by
    rw [expr] at h
    cases h
termination_by structural e

theorem loads_filterOperand (hb : ∀ n ∈ block, IsIdentifier n) (input : Option String)
    (hi : Given (Grouped 1) input) (line : Line) (name : String) (e : Option Expr) (hw : wordedOption IsIdentifier e) (s : String)
    (h : filterOperand block input line name e = .ok s) : Loads (readsOption e) s :=
  match e with
  | some e => loads_expr hb input hi false e hw s h
  | none => loads_nil
termination_by structural e

theorem loadsIn_exprs (hb : ∀ n ∈ block, IsIdentifier n) (slices : Bool) (es : List Expr) (hw : wordedAll IsIdentifier slices es)
    (ts : List String) (h : exprs block es = .ok ts) : LoadsIn (readsAll es) ts :=
  match es with
  | [] => loadsIn_nil
  | e :: es => by
    rw [exprs] at h
    obtain ⟨t, ht, h⟩ := bind_eq_ok.1 h
    obtain ⟨us, hus, h⟩ := bind_eq_ok.1 h
    cases h
    exact .cons (loads_expr hb none (by simp [Given]) slices e hw.1 t ht) (loadsIn_exprs hb slices es hw.2 us hus)
termination_by structural es

theorem loadsIn_option (hb : ∀ n ∈ block, IsIdentifier n) (e : Option Expr) (hw : wordedOption IsIdentifier e) (t : Option String)
    (h : option block e = .ok t) : LoadsIn (readsOption e) t.toList :=
  match e with
  | none => loadsIn_nil
  | some e => by
    rw [option] at h
    obtain ⟨u, hu, h⟩ := bind_eq_ok.1 h
    cases h
    exact (loads_expr hb none (by simp [Given]) false e hw u hu).item
termination_by structural e

theorem loadsIn_pairs (hb : ∀ n ∈ block, IsIdentifier n) (es : List (Expr × Expr)) (hw : wordedPairs IsIdentifier es)
    (ts : List String) (h : pairs block es = .ok ts) : LoadsIn (readsPairs es) ts :=
  match es with
  | [] => loadsIn_nil
  | (key, value) :: es => by
    rw [pairs] at h
    obtain ⟨k, hk, h⟩ := bind_eq_ok.1 h
    obtain ⟨v, hv, h⟩ := bind_eq_ok.1 h
    obtain ⟨us, hus, h⟩ := bind_eq_ok.1 h
    cases h
    have hkey := (fits_expr hb none (by simp [Given]) false key hw.1 k hk).inside
    refine LoadsIn.cons (Loads.append ?_ ?_) (loadsIn_pairs hb es hw.2.2 us hus)
    · refine (loads_expr hb none (by simp [Given]) false key hw.1 k hk).within ?_
      rw [String.append_assoc]
      exact .followed (by decide) (by decide)
    · exact (loads_expr hb none (by simp [Given]) false value hw.2.1 v hv).within
        (.at_end (isClean_marked hkey (by simp [marks])))
termination_by structural es

theorem loadsIn_named (hb : ∀ n ∈ block, IsIdentifier n) (es : List (String × Expr)) (hw : wordedNamed IsIdentifier es)
    (ts : List (String × String)) (h : namedArguments block es = .ok ts) : LoadsIn (readsNamed es) (ts.map (·.2)) :=
  match es with
  | [] => loadsIn_nil
  | (name, e) :: es => by
    rw [namedArguments] at h
    obtain ⟨t, ht, h⟩ := bind_eq_ok.1 h
    obtain ⟨us, hus, h⟩ := bind_eq_ok.1 h
    cases h
    exact .cons (loads_expr hb none (by simp [Given]) false e hw.2.1 t ht) (loadsIn_named hb es hw.2.2 us hus)
termination_by structural es

theorem loadsIn_comparisons (hb : ∀ n ∈ block, IsIdentifier n) (es : List (CompareOp × Expr))
    (hw : wordedOperands IsIdentifier es) (ts : List String) (h : comparisons block es = .ok ts) : LoadsIn (readsOperands es) ts :=
  match es with
  | [] => loadsIn_nil
  | (op, e) :: es => by
    rw [comparisons] at h
    obtain ⟨t, ht, h⟩ := bind_eq_ok.1 h
    obtain ⟨us, hus, h⟩ := bind_eq_ok.1 h
    cases h
    have hothers := LoadsIn.cons (loads_expr hb none (by simp [Given]) false e hw.1 t ht)
      (loadsIn_comparisons hb es hw.2 us hus)
    exact fun id hid => (hothers id hid).imp fun t ht => ⟨List.mem_cons_of_mem _ ht.1, ht.2⟩
termination_by structural es

end

/-- Arguments behind those of a call load nothing else. -/
theorem loads_callWith (hb : ∀ n ∈ block, IsIdentifier n) {extra : List String} (hextra : ∀ t ∈ extra, Grouped 1 t)
    (e : Expr) (hw : e.Worded IsIdentifier false) (h : callWith block extra e = .ok s) : Loads e.reads s := by
  cases e
  case call line callee args named rest restNamed =>
    rw [callWith] at h
    rw [Expr.reads]
    split
    · exact loads_nil
    · next hsuper =>
      rw [if_neg hsuper] at h
      obtain ⟨f, hf, h⟩ := bind_eq_ok.1 h
      obtain ⟨as, has, h⟩ := bind_eq_ok.1 h
      obtain ⟨r, hr, h⟩ := bind_eq_ok.1 h
      obtain ⟨ns, hns, h⟩ := bind_eq_ok.1 h
      obtain ⟨rn, hrn, h⟩ := bind_eq_ok.1 h
      cases h
      obtain ⟨hwf, hwargs, hwnamed, hwrest, hwrestNamed⟩ := hw
      have hnamed := grouped_named hb named hwnamed ns hns
      have hargs := grouped_argumentTexts (grouped_exprs hb false args hwargs as has)
        (grouped_option hb rest hwrest r hr) hnamed (grouped_option hb restNamed hwrestNamed rn hrn)
      have hcallee := (fits_expr hb none (by simp [Given]) false callee hwf f hf).inside
      exact loads_called hcallee hargs hextra hnamed
        (loads_expr hb none (by simp [Given]) false callee hwf f hf) (loadsIn_exprs hb false args hwargs as has)
        (loadsIn_named hb named hwnamed ns hns) (loadsIn_option hb rest hwrest r hr)
        (loadsIn_option hb restNamed hwrestNamed rn hrn)
  all_goals cases h

mutual

/-- What something is assigned to can stand in front of other code. -/
theorem grouped_target {slices : Bool} (e : Expr) (hw : e.Worded IsIdentifier slices) (s : String)
    (h : target e = .ok s) : Grouped 1 s :=
  match e with
  | .name .. => by
    cases h
    exact (grouped_identifier hw).raise
  | .attrRef .. => by
    cases h
    exact (grouped_identifier hw.1).raise.member (grouped_name hw.2 (by simp))
  | .tuple _ items => by
    rw [target] at h
    obtain ⟨ts, hts, h⟩ := bind_eq_ok.1 h
    have hitems := grouped_targets items hw ts hts
    split at h
    · next item =>
      cases h
      have hcomma : "," ∈ marks := by simp [marks]
      exact (hitems item (by simp)).append (ended_mark hcomma).grouped (delimits_mark hcomma)
    · cases h
      exact grouped_commaSeparated hitems
  | .const .. | .data .. | .list .. | .dict .. | .cond .. | .filter .. | .test .. | .call .. | .item .. | .attr ..
  | .slice .. | .concat .. | .compare .. | .binary .. | .unary .. | .safe .. | .context .. | .other .. => by
    cases h
termination_by structural e

theorem grouped_targets {slices : Bool} (es : List Expr) (hw : wordedAll IsIdentifier slices es) (ts : List String)
    (h : targets es = .ok ts) : ∀ t ∈ ts, Grouped 1 t :=
  match es with
  | [] => by
    cases h
    simp
  | e :: es => by
    rw [targets] at h
    obtain ⟨t, ht, h⟩ := bind_eq_ok.1 h
    obtain ⟨us, hus, h⟩ := bind_eq_ok.1 h
    cases h
    exact List.forall_mem_cons.2 ⟨grouped_target e hw.1 t ht, grouped_targets es hw.2 us hus⟩
termination_by structural es

end

end Trees

end Stencil.Compile
