import Stencil.Proofs.Flatten.Values

/-! Operators around values. -/
namespace Stencil.Flatten
open Code Grammar

variable {g : Page} {f : Frame} {c : Bool} {ns : List Node} {P : State → Prop}
  {expr value item : Read Node} {operator : Read Bool}

/-- A reader that passes an operator, or nothing. -/
def Operates (g : Page) (operator : Read Bool) : Prop :=
  ∀ f ns, Yields (Amid g f 0 true ns) operator fun r s =>
    if r then Poised g f 0 true ns s else Amid g f 0 true ns s

theorem chain_reads (ho : Operates g operator) (hr : Reads g item) :
    Reads g (chain operator item) := by
  refine Keeps.of_yields fun f => Yields.bind (hr.first fun _ hs => hs) fun n => ?_
  refine Yields.bind (Yields.many (I := fun ns => Amid g f 0 true ns) (f := fun n => [n])
    fun ns => ?_) fun ms => Yields.ite (fun hm => Yields.pure fun s hs => ?_) fun _ => ?_
  · refine Yields.bind (ho f ns) fun r => Yields.ite (fun hr' => ?_) fun hr' => ?_
    · refine Yields.bind (hr.spec fun s hs => by simpa [hr', Poised] using hs) fun n => ?_
      exact Yields.pure fun s hs => by simpa using hs
    · exact Yields.pure fun s hs => by simpa [hr'] using hs
  · simpa [List.isEmpty_iff.1 hm] using hs
  · exact grown_spec (by simp) fun s hs => by simpa using hs

theorem acceptAny_operates {xs : List String} (hx : ∀ x ∈ xs, isPlain x ∧ weightOf x = 0) :
    Operates g (acceptAny xs) :=
  fun _ _ => acceptAny_spec (fun _ hs => hs) hx

theorem comparison_operates : Operates g (do
    if ← acceptAny ["<", "<=", "==", "!=", ">=", ">", "<>", "in"] then return true
    else if ← accept "is" then
      let _ ← accept "not"
      return true
    else if (← looksAt "not") && (← second?).any (·.is "in") then
      expect "not"
      expect "in"
      return true
    else return false) := by
  intro f ns
  refine Yields.bind (acceptAny_operates (by decide) f ns) fun r => Yields.ite (fun hr => ?_)
    fun hr => ?_
  · exact Yields.pure fun s hs => by simpa [hr] using hs
  refine Yields.weaken (P := Amid g f 0 true ns) ?_ fun s hs => by simpa [hr] using hs
  refine accept_then 0 (by decide) (fun _ hs => hs) ?_ ?_
  · refine Yields.bind (accept_spec 0 (by decide) fun _ hs => hs.1) fun r => ?_
    exact Yields.pure fun s hs => by cases r <;> simpa using hs
  refine Yields.bind (looksAt_spec fun _ hs => hs) fun _ => ?_
  refine Yields.bind second_spec fun _ => Yields.ite (fun _ => ?_) fun _ => ?_
  · refine Yields.bind (expect_spec 0 (by decide) fun _ hs => hs.1.1) fun _ => ?_
    refine Yields.bind (expect_spec 0 (by decide) fun _ hs => hs.1) fun _ => ?_
    exact Yields.pure fun s hs => by simpa using hs
  · exact Yields.pure fun s hs => by simpa using hs.1.1

/-- In front of a colon. -/
def AtColon (s : State) : Prop := ∃ t ∈ s.rest.head?, t.shape = .symbol ∧ t.text = ":"

/-- A reader that gives nothing in front of a colon. -/
abbrev Balks {α : Type} (p : Read α) : Prop := Yields AtColon p fun _ _ => False

theorem needed_atColon : Yields AtColon needed fun t s =>
    AtColon s ∧ t.shape = .symbol ∧ t.text = ":" := by
  rintro s t s' ⟨u, hu, hcolon⟩ h
  obtain ⟨ht, rfl⟩ := needed_head rfl h
  obtain rfl : t = u := Option.some.inj (ht.symm.trans hu)
  exact ⟨⟨t, hu, hcolon⟩, hcolon⟩

theorem postfixed_balks : Balks (postfixed expr value) := by
  refine Yields.bind (Q := fun _ _ => False) ?_ fun _ => Yields.absurd fun _ hs => hs
  refine Yields.bind needed_atColon fun t => ?_
  split
  · next hs => exact Yields.absurd fun s h => by simp [h.2.1] at hs
  · next hs => exact Yields.absurd fun s h => by simp [h.2.1] at hs
  · next hs => exact Yields.absurd fun s h => by simp [h.2.1] at hs
  · refine Yields.ite (fun h => ?_) fun _ => Yields.ite (fun h => ?_) fun _ =>
      Yields.ite (fun h => ?_) fun _ => Yields.ite (fun h => ?_) fun _ => Yields.fail
    all_goals exact Yields.absurd fun s hs => by simp [hs.2.2] at h
  · exact Yields.fail

theorem chain_balks (h : Balks item) : Balks (chain operator item) :=
  Yields.bind h fun _ => Yields.absurd fun _ hs => hs

/-- No sign is a colon. -/
theorem prefixes_atColon {p : Read (Option Unit)} (h : Yields AtColon p fun _ => AtColon) :
    Yields AtColon (many p) fun _ => AtColon :=
  Yields.many (I := fun _ => AtColon) (f := fun _ => ([] : List Unit)) (l := []) fun _ => h

theorem unary_balks (h : Balks value) : Balks (unary value) := by
  refine Yields.bind needed_atColon fun first => ?_
  refine Yields.bind ((prefixes_atColon ?_).weaken fun s hs => hs.1) fun _ =>
    Yields.bind h fun _ => Yields.absurd fun _ hs => hs
  refine Yields.bind needed_atColon fun t => Yields.ite (fun ht => ?_) fun _ => ?_
  · exact Yields.absurd fun s hs => by simp [Token.is, hs.2.2] at ht
  refine Yields.bind second_spec fun _ => Yields.ite (fun ht => ?_) fun _ => ?_
  · exact Yields.absurd fun s hs => by simp [Token.is, hs.1.2.2] at ht
  · exact Yields.pure fun s hs => hs.1.1

theorem operand_balks (h : Balks value) : Balks (Grammar.operand expr value) := by
  have hcomparison : Balks (comparison value) := chain_balks (chain_balks (unary_balks h))
  refine Yields.bind needed_atColon fun first => ?_
  refine Yields.bind ((prefixes_atColon ?_).weaken fun s hs => hs.1) fun _ => ?_
  · refine Yields.bind needed_atColon fun t => Yields.ite (fun ht => ?_) fun _ =>
      Yields.pure fun s hs => hs.1
    exact Yields.absurd fun s hs => by simp [Token.is, hs.2.2] at ht
  refine Yields.bind needed_atColon fun t => Yields.ite (fun ht => ?_) fun _ => ?_
  · exact Yields.absurd fun s hs => by simp [Token.is, hs.2.2] at ht
  · refine Yields.bind (hcomparison.weaken fun s hs => hs.1) fun _ => Yields.absurd fun _ hs => hs

theorem level_balks (h : Balks value) : Balks (level expr value) :=
  Yields.bind (chain_balks (operand_balks h)) fun _ => Yields.absurd fun _ hs => hs

theorem pair_balks (n : Nat) : Balks (pair n).1 := by
  cases n with
  | zero => exact Yields.fail
  | succ n => exact level_balks postfixed_balks

theorem symbol_of_colon {t : Token} {ts : List Token} (h : Sheet g ts) (ht : ts.head? = some t)
    (hx : t.text = ":") : t.shape = .symbol := by
  obtain ⟨us, rfl⟩ := List.head?_eq_some_iff.1 ht
  by_contra hs
  exact (h.fits.shaped hs).2.2 hx

/-- Signs in front of an operand. -/
theorem prefixes_spec {p : Read (Option Unit)}
    (h : Yields (Poised g f 0 false []) p fun _ => Poised g f 0 false []) :
    Yields (Poised g f 0 false []) (many p) fun _ => Poised g f 0 false [] :=
  Yields.many (I := fun _ => Poised g f 0 false []) (f := fun _ => ([] : List Unit)) (l := [])
    fun _ => h

theorem unary_reads (hv : Reads g value) : Reads g (unary value) := by
  refine Keeps.of_yields fun f => Yields.bind (needed_spec fun _ hs => hs.1) fun first => ?_
  refine Yields.bind ((prefixes_spec ?_).weaken fun s hs => hs.1) fun ops => ?_
  · have hsign {t : Token} {x : String} (hx : isPlain x ∧ weightOf x = 0) (ht : t.is x)
        {P : State → Prop} (hP : ∀ s, P s → Poised g f 0 false [] s ∧ Faces t s) :
        Yields P (do
          consume t
          return some ()) fun _ => Poised g f 0 false [] := by
      refine Yields.bind (consume_is_spec 0 hx ht fun s hs => ⟨(hP s hs).1.1, (hP s hs).2⟩)
        fun _ => Yields.pure fun s hs => ⟨hs.1.lax, hs.2⟩
    refine Yields.bind (needed_spec fun _ hs => hs.1) fun t => Yields.ite (fun ht => ?_) fun _ => ?_
    · simp only [Bool.or_eq_true] at ht
      obtain (ht | ht) | ht := ht
      · exact hsign (by decide) ht fun s hs => hs
      · exact hsign (by decide) ht fun s hs => hs
      · exact hsign (by decide) ht fun s hs => hs
    refine Yields.bind second_spec fun _ => Yields.ite (fun ht => ?_) fun _ => ?_
    · simp only [Bool.and_eq_true] at ht
      exact hsign (by decide) ht.1 fun s hs => hs.1
    · exact Yields.pure fun s hs => hs.1.1
  · refine Yields.bind (hv.first fun _ hs => hs) fun n => ?_
    refine Yields.ite (fun _ => Yields.pure fun s hs => hs) fun _ => ?_
    exact Yields.bind Yields.get fun _ => Yields.pure fun s hs => hs.1.wrap (by simp)

section

variable (he : Reads g expr) (hv : Reads g value)
include he

theorem walrus_spec {n : Node} : Yields (Amid g f 0 true [n]) (walrus expr n) fun m =>
    Amid g f 0 true [m] := by
  refine Yields.ite (fun _ => ?_) fun _ => Yields.pure fun s hs => hs
  refine accept_then 0 (by decide) (fun _ hs => hs) ?_ (Yields.pure fun s hs => hs)
  refine Yields.bind (he.spec fun _ hs => hs) fun m => ?_
  exact grown_spec (by simp) fun s hs => hs

omit he in
/-- An `else` that starts a line has its colon behind it, so no value follows. -/
theorem otherwise_spec : Yields (Amid g f 0 true ns) (expect "else") fun _ s =>
    Poised g f 0 true ns s ∨ AtColon s := by
  refine Yields.bind (needed_spec fun _ hs => hs) fun t => Yields.ite (fun ht => ?_) fun _ =>
    Yields.fail
  refine consume_spec fun s hs => ?_
  cases hi : t.indent with
  | none => exact .inl (hs.1.take_word hs.2 ht (by decide) (fun _ _ => hi) (by simp))
  | some i =>
    have htext : t.text = "else" := by simp_all [Token.is]
    obtain ⟨u, hu, hcolon⟩ := (hs.1.fits hs.2.head).otherwise htext (by simp [hi])
    exact .inr ⟨u, hu, symbol_of_colon (hs.1.sheet.suffix (List.tail_suffix _)) hu hcolon, hcolon⟩

theorem conditional_spec (hb : Balks expr) {n : Node} :
    Yields (Amid g f 0 true [n]) (conditional expr n) fun m => Amid g f 0 true [m] := by
  refine looksAt_then (fun _ hs => hs) (Yields.orElse ?_ ?_) (Yields.pure fun s hs => hs)
  · refine Yields.bind (expect_word_spec (by decide) (by simp) (fun _ hs => hs.1) ?_) fun _ => ?_
    · rintro - - s ⟨-, t, ht, hnone, -⟩ u hu
      rwa [← Option.some.inj (ht.head.symm.trans hu)]
    refine Yields.bind (he.spec fun _ hs => hs) fun test => Yields.bind otherwise_spec fun _ => ?_
    refine Yields.bind (Q := fun m => Amid g f 0 true ([n, test] ++ [m])) ?_ fun otherwise =>
      grown_spec (by simp) fun s hs => by simpa using hs
    rintro s m s' (hs | hs) hp
    · exact he.spec (fun _ hs => hs) hs hp
    · exact (hb hs hp).elim
  · exact Yields.pure fun s hs => hs.1

theorem renamed_spec {n : Node} : Yields (Amid g f 0 true [n]) (renamed expr n) fun m =>
    Amid g f 0 true [m] := by
  refine accept_then 0 (by decide) (fun _ hs => hs) ?_ (Yields.pure fun s hs => hs)
  refine Yields.bind (he.spec fun _ hs => hs) fun m => ?_
  exact grown_spec (by simp) fun s hs => hs

include hv

theorem operand_reads : Reads g (Grammar.operand expr value) := by
  have hcomparison : Reads g (comparison value) :=
    chain_reads comparison_operates
      (chain_reads (acceptAny_operates (by decide)) (unary_reads hv))
  refine Keeps.of_yields fun f => Yields.bind (needed_spec fun _ hs => hs.1) fun first => ?_
  refine Yields.bind ((prefixes_spec ?_).weaken fun s hs => hs.1) fun nots => ?_
  · refine Yields.bind (needed_spec fun _ hs => hs.1) fun t => Yields.ite (fun _ => ?_) fun _ => ?_
    · refine Yields.bind (expect_spec 0 (by decide) fun _ hs => hs.1.1) fun _ => ?_
      exact Yields.pure fun s hs => ⟨hs.1.lax, hs.2⟩
    · exact Yields.pure fun s hs => hs.1
  have hend (n : Node) : Yields (Amid g f 0 true [n])
      (if nots.isEmpty then return n
      else do
        let s ← get
        return .mk .other ⟨first.start, s.stop, first.row, s.endRow⟩ [n])
      fun n => Amid g f 0 true [n] := by
    refine Yields.ite (fun _ => Yields.pure fun s hs => hs) fun _ => ?_
    exact Yields.bind Yields.get fun _ => Yields.pure fun s hs => hs.1.wrap (by simp)
  refine Yields.bind (needed_spec fun _ hs => hs.1) fun t => Yields.ite (fun ht => ?_) fun _ => ?_
  · exact Yields.absurd fun s hs => by simp [hs.1.2.not_is hs.2.head (show "lambda" ∈ leads by decide)] at ht
  · refine Yields.bind (hcomparison.first fun _ hs => hs.1) fun n => ?_
    exact Yields.bind (walrus_spec he) hend

theorem level_reads (hb : Balks expr) : Reads g (level expr value) := by
  have hchain : Reads g (chain (acceptAny ["and", "or"]) (Grammar.operand expr value)) :=
    chain_reads (acceptAny_operates (by decide)) (operand_reads he hv)
  refine Keeps.of_yields fun f => Yields.bind (hchain.first fun _ hs => hs) fun n => ?_
  exact Yields.bind (conditional_spec he hb) fun m => renamed_spec he

end

end Stencil.Flatten
