import Mathlib.Tactic.Common
import Stencil.Template.Reference

/-!
The templates that an expression can stand for. Its conditions are decided at run time, which an oracle stands for; then
it evaluates to names, or something is reached whose value is not known. The names found without the oracle are those
that some oracle leads to, and none are found if and only if some oracle leads to a value that is not known.
-/
namespace Stencil.Template

/-- Decides each condition by the way to it. The way counts items from zero; in a condition it leads to the first branch
by zero and to the other one by one. -/
abbrev Oracle := List Nat → Bool

namespace Oracle

variable (oracle : Oracle) (i : Nat) (choice : Bool)

/-- What the oracle decides inside the part at `i`. -/
def inside : Oracle := fun way => oracle (i :: way)

/-- Decides an expression that is a condition, and inside its parts as another oracle does. -/
def deciding : Oracle
  | [] => choice
  | _ :: way => oracle way

end Oracle

/-! ### Evaluation -/

mutual

/-- The names that an expression evaluates to; none if a value is reached that is not known. -/
def Expr.evaluate (oracle : Oracle) : Expr → Option TemplateNames
  | .const _ value => value.text?.map ([·])
  | .list _ items | .tuple _ items => evaluateAll oracle 0 items
  | .cond _ _ body otherwise =>
    if oracle [] then body.evaluate (oracle.inside 0)
    else match otherwise with
      | none => some []
      | some e => e.evaluate (oracle.inside 1)
  | _ => none
termination_by structural e => e

/-- The names that items from the one at `i` on evaluate to. -/
def evaluateAll (oracle : Oracle) (i : Nat) : List Expr → Option TemplateNames
  | [] => some []
  | e :: es => do
    let names ← e.evaluate (oracle.inside i)
    return names ++ (← evaluateAll oracle (i + 1) es)
termination_by structural es => es

end

/-- The items of a list or tuple. -/
def Expr.items? : Expr → Option (List Expr)
  | .list _ items | .tuple _ items => some items
  | _ => none

/-- Evaluation comes to an expression itself, to all items of a list or tuple, and to one branch of a condition. -/
inductive Expr.Reaches : Oracle → Expr → Expr → Prop
  | here {oracle e} : Reaches oracle e e
  | item {oracle e items i item part} (hitems : e.items? = some items) (hitem : items[i]? = some item)
      (h : Reaches (oracle.inside i) item part) : Reaches oracle e part
  | body {oracle line test body otherwise part} (hchoice : oracle [] = true)
      (h : Reaches (oracle.inside 0) body part) : Reaches oracle (.cond line test body otherwise) part
  | otherwise {oracle line test body other part} (hchoice : oracle [] = false)
      (h : Reaches (oracle.inside 1) other part) : Reaches oracle (.cond line test body (some other)) part

/-- Constant texts, lists, tuples and conditions. -/
def Expr.isStatic : Expr → Bool
  | .const _ (.str _) | .list .. | .tuple .. | .cond .. => true
  | _ => false

/-- Something else is reached. -/
def Expr.Stuck (oracle : Oracle) (e : Expr) : Prop := ∃ part, Reaches oracle e part ∧ part.isStatic = false

variable {oracle : Oracle} {e body : Expr} {items : List Expr} {line : Line}

theorem stuck_of_isStatic (h : e.isStatic = false) : e.Stuck oracle := ⟨e, .here, h⟩

theorem not_stuck_text {ps : Text.Points} : ¬ (Expr.const line (.str ps)).Stuck oracle := by
  rintro ⟨part, h, hpart⟩
  cases h with
  | here => cases hpart
  | item hitems => cases hitems

theorem stuck_items_iff (hitems : e.items? = some items) :
    e.Stuck oracle ↔ ∃ (i : Nat) (item : Expr), items[i]? = some item ∧ item.Stuck (oracle.inside i) := by
  constructor
  · rintro ⟨part, h, hpart⟩
    cases h with
    | here => cases e <;> cases hitems <;> cases hpart
    | item hitems' hitem h =>
      obtain rfl := Option.some.inj (hitems.symm.trans hitems')
      exact ⟨_, _, hitem, part, h, hpart⟩
    | body | otherwise => cases hitems
  · rintro ⟨i, item, hitem, part, h, hpart⟩
    exact ⟨part, .item hitems hitem h, hpart⟩

theorem stuck_cond_iff {test : Expr} {otherwise : Option Expr} : (Expr.cond line test body otherwise).Stuck oracle ↔
    if oracle [] then body.Stuck (oracle.inside 0) else ∃ e, otherwise = some e ∧ e.Stuck (oracle.inside 1) := by
  constructor
  · rintro ⟨part, h, hpart⟩
    cases h with
    | here => cases hpart
    | item hitems => cases hitems
    | body hchoice h => simpa [hchoice] using ⟨part, h, hpart⟩
    | otherwise hchoice h => simpa [hchoice] using ⟨part, h, hpart⟩
  · intro h
    split at h
    · next hchoice =>
      obtain ⟨part, h, hpart⟩ := h
      exact ⟨part, .body hchoice h, hpart⟩
    · next hchoice =>
      obtain ⟨e, rfl, part, h, hpart⟩ := h
      exact ⟨part, .otherwise (by simpa using hchoice) h, hpart⟩

theorem evaluateAll_cons_eq_none {i : Nat} : evaluateAll oracle i (e :: items) = none ↔
    e.evaluate (oracle.inside i) = none ∨ evaluateAll oracle (i + 1) items = none := by
  rw [evaluateAll]
  cases e.evaluate (oracle.inside i) <;> cases evaluateAll oracle (i + 1) items <;> simp

mutual

/-- Evaluation gives no names if and only if it reaches something that is not known. -/
theorem Expr.evaluate_eq_none_iff (e : Expr) (oracle : Oracle) : e.evaluate oracle = none ↔ e.Stuck oracle :=
  match e with
  | .const _ (.str _) => iff_of_false (by simp [Expr.evaluate, Const.text?]) not_stuck_text
  | .list _ items | .tuple _ items => by
    rw [stuck_items_iff rfl]
    simpa [Expr.evaluate] using evaluateAll_eq_none_iff items oracle 0
  | .cond _ _ body none => by
    have hbody := body.evaluate_eq_none_iff (oracle.inside 0)
    rw [stuck_cond_iff, Expr.evaluate]
    split <;> simp [hbody]
  | .cond _ _ body (some e) => by
    have hbody := body.evaluate_eq_none_iff (oracle.inside 0)
    have he := e.evaluate_eq_none_iff (oracle.inside 1)
    rw [stuck_cond_iff, Expr.evaluate]
    split <;> simp [hbody, he]
  | .const _ .none | .const _ (.bool _) | .const _ (.int _) | .const _ (.float _)
  | .name .. | .attrRef .. | .data .. | .dict .. | .filter .. | .test .. | .call .. | .item .. | .attr ..
  | .slice .. | .concat .. | .compare .. | .binary .. | .unary .. | .safe .. | .context .. | .other .. =>
    iff_of_true rfl (stuck_of_isStatic rfl)
termination_by structural e

theorem evaluateAll_eq_none_iff (es : List Expr) (oracle : Oracle) (i : Nat) :
    evaluateAll oracle i es = none ↔ ∃ (k : Nat) (e : Expr), es[k]? = some e ∧ e.Stuck (oracle.inside (i + k)) :=
  match es with
  | [] => by simp [evaluateAll]
  | e :: es => by
    have hfirst := e.evaluate_eq_none_iff (oracle.inside i)
    have hrest := evaluateAll_eq_none_iff es oracle (i + 1)
    have hshift (k : Nat) : i + 1 + k = i + (k + 1) := by omega
    simp only [hshift] at hrest
    rw [evaluateAll_cons_eq_none, hfirst, hrest]
    exact Iff.trans (by simp) Nat.or_exists_add_one
termination_by structural es

end

/-! ### Names -/

/-- What an oracle leads to is among the names, and to each of them leads an oracle. Without names, some oracle leads to
something that is not known. -/
def Describes (evaluate : Oracle → Option TemplateNames) : Option TemplateNames → Prop
  | some names => (∀ oracle, ∃ found, evaluate oracle = some found ∧ found ⊆ names) ∧
      ∀ n ∈ names, ∃ oracle found, evaluate oracle = some found ∧ n ∈ found
  | none => ∃ oracle, evaluate oracle = none

theorem mem_either {first second : TemplateNames} {n : Text.Points} :
    n ∈ first.either second ↔ n ∈ first ∨ n ∈ second := by
  by_cases hn : n ∈ first <;> simp [TemplateNames.either, hn]

namespace Describes

variable {evaluate evaluate' : Oracle → Option TemplateNames} {names? names'? : Option TemplateNames}

theorem single (n : Text.Points) : Describes (fun _ => some [n]) (some [n]) :=
  ⟨fun _ => ⟨[n], rfl, List.Subset.refl _⟩, fun _ hn => ⟨fun _ => true, [n], rfl, hn⟩⟩

theorem empty : Describes (fun _ => some []) (some []) := ⟨fun _ => ⟨[], rfl, List.Subset.refl _⟩, by simp⟩

theorem unknown : Describes (fun _ => none) none := ⟨fun _ => true, rfl⟩

/-- The names of a list are those of its first item and of the others. -/
theorem cons {i : Nat} (h : Describes e.evaluate names?) (hrest : Describes (evaluateAll · (i + 1) items) names'?) :
    Describes (evaluateAll · i (e :: items)) (do return (← names?) ++ (← names'?)) := by
  cases names? with
  | none =>
    obtain ⟨oracle, hnone⟩ := h
    exact ⟨oracle.deciding true, evaluateAll_cons_eq_none.2 (.inl hnone)⟩
  | some names =>
    cases names'? with
    | none =>
      obtain ⟨oracle, hnone⟩ := hrest
      exact ⟨oracle, evaluateAll_cons_eq_none.2 (.inr hnone)⟩
    | some names' =>
      obtain ⟨hsound, hcomplete⟩ := h
      obtain ⟨hsound', hcomplete'⟩ := hrest
      have heval (oracle : Oracle) {found found' : TemplateNames} (hfound : e.evaluate (oracle.inside i) = some found)
          (hfound' : evaluateAll oracle (i + 1) items = some found') :
          evaluateAll oracle i (e :: items) = some (found ++ found') := by
        simp [evaluateAll, hfound, hfound']
      refine ⟨fun oracle => ?_, fun n hn => ?_⟩
      · obtain ⟨found, hfound, hsub⟩ := hsound (oracle.inside i)
        obtain ⟨found', hfound', hsub'⟩ := hsound' oracle
        exact ⟨_, heval oracle hfound hfound', List.append_subset.2
          ⟨List.subset_append_of_subset_left _ hsub, List.subset_append_of_subset_right _ hsub'⟩⟩
      · obtain hn | hn := List.mem_append.1 hn
        · obtain ⟨oracle, found, hfound, hn⟩ := hcomplete n hn
          obtain ⟨found', hfound', -⟩ := hsound' (oracle.deciding true)
          exact ⟨_, _, heval (oracle.deciding true) hfound hfound', List.mem_append_left _ hn⟩
        · obtain ⟨oracle, found', hfound', hn⟩ := hcomplete' n hn
          obtain ⟨found, hfound, -⟩ := hsound (oracle.inside i)
          exact ⟨_, _, heval oracle hfound hfound', List.mem_append_right _ hn⟩

/-- The names of a condition are those of both branches. -/
theorem either (h : Describes evaluate names?) (h' : Describes evaluate' names'?) :
    Describes (fun oracle => if oracle [] then evaluate (oracle.inside 0) else evaluate' (oracle.inside 1))
      (do return (← names?).either (← names'?)) := by
  cases names? with
  | none =>
    obtain ⟨oracle, hnone⟩ := h
    exact ⟨oracle.deciding true, hnone⟩
  | some names =>
    cases names'? with
    | none =>
      obtain ⟨oracle, hnone⟩ := h'
      exact ⟨oracle.deciding false, hnone⟩
    | some names' =>
      obtain ⟨hsound, hcomplete⟩ := h
      obtain ⟨hsound', hcomplete'⟩ := h'
      refine ⟨fun oracle => ?_, fun n hn => ?_⟩
      · cases hchoice : oracle [] with
        | true =>
          obtain ⟨found, hfound, hsub⟩ := hsound (oracle.inside 0)
          exact ⟨found, by simpa [hchoice] using hfound, fun n hn => mem_either.2 (.inl (hsub hn))⟩
        | false =>
          obtain ⟨found, hfound, hsub⟩ := hsound' (oracle.inside 1)
          exact ⟨found, by simpa [hchoice] using hfound, fun n hn => mem_either.2 (.inr (hsub hn))⟩
      · obtain hn | hn := mem_either.1 hn
        · obtain ⟨oracle, found, hfound, hn⟩ := hcomplete n hn
          exact ⟨oracle.deciding true, found, hfound, hn⟩
        · obtain ⟨oracle, found, hfound, hn⟩ := hcomplete' n hn
          exact ⟨oracle.deciding false, found, hfound, hn⟩

end Describes

mutual

/-- The names of an expression are those that it can evaluate to. -/
theorem Expr.describes (e : Expr) : Describes e.evaluate e.templateNames? :=
  match e with
  | .const _ (.str ps) => .single ps
  | .list _ items | .tuple _ items => describesAll items 0
  | .cond line test body none => by
    have hnames : (Expr.cond line test body none).templateNames? =
        (do return TemplateNames.either (← body.templateNames?) (← some [])) := by
      cases h : body.templateNames? <;> simp [Expr.templateNames?, h, TemplateNames.either]
    exact hnames ▸ body.describes.either .empty
  | .cond _ _ body (some e) => body.describes.either e.describes
  | .const _ .none | .const _ (.bool _) | .const _ (.int _) | .const _ (.float _)
  | .name .. | .attrRef .. | .data .. | .dict .. | .filter .. | .test .. | .call .. | .item .. | .attr ..
  | .slice .. | .concat .. | .compare .. | .binary .. | .unary .. | .safe .. | .context .. | .other .. => .unknown
termination_by structural e

theorem describesAll (es : List Expr) (i : Nat) : Describes (evaluateAll · i es) (templateNamesAll? es) :=
  match es with
  | [] => .empty
  | e :: es => e.describes.cons (describesAll es (i + 1))
termination_by structural es

end

/-- Where an expression has names, it evaluates to some of them whatever its conditions come to, and to each of them if
they come to the right thing. It has none if and only if some outcome of its conditions leads to a part that is no constant
text, list, tuple or condition. -/
theorem templateNames_possible (e : Expr) :
    (∀ names, e.templateNames? = some names →
      (∀ oracle, ∃ found, e.evaluate oracle = some found ∧ ∀ n ∈ found, n ∈ names) ∧
        ∀ n ∈ names, ∃ oracle found, e.evaluate oracle = some found ∧ n ∈ found) ∧
      (e.templateNames? = none ↔ ∃ oracle part, Expr.Reaches oracle e part ∧ part.isStatic = false) := by
  have hstuck : (∃ oracle, e.evaluate oracle = none) ↔ ∃ oracle part, Expr.Reaches oracle e part ∧ part.isStatic = false :=
    exists_congr fun oracle => e.evaluate_eq_none_iff oracle
  rw [← hstuck]
  cases hnames : e.templateNames? with
  | none =>
    have hnone : Describes e.evaluate none := hnames ▸ e.describes
    exact ⟨fun _ h => absurd h (by simp), iff_of_true rfl hnone⟩
  | some names =>
    obtain ⟨hsound, hcomplete⟩ : Describes e.evaluate (some names) := hnames ▸ e.describes
    refine ⟨fun names' heq => Option.some.inj heq ▸ ⟨hsound, hcomplete⟩, iff_of_false (by simp) ?_⟩
    rintro ⟨oracle, hnone⟩
    obtain ⟨found, hfound, -⟩ := hsound oracle
    simp [hnone] at hfound

/-- Templates of which some hang on conditions. -/
def eitherOf : Expr :=
  let text := fun s => Expr.const none (.str (Text.Points.ofString s))
  .list none [.tuple none [text "a", text "b"], .cond none (.name none "x" .load) (text "b") (some
    (.cond none (.name none "y" .load) (text "c") none))]

/-- Both conditions decide whether a name is reached. -/
theorem templateNames_possible_eitherOf :
    eitherOf.templateNames? = some (["a", "b", "b", "c"].map Text.Points.ofString) ∧
      (∀ oracle, ∃ found, eitherOf.evaluate oracle = some found ∧
        ∀ n ∈ found, n ∈ ["a", "b", "b", "c"].map Text.Points.ofString) ∧
      (∃ oracle found, eitherOf.evaluate oracle = some found ∧ Text.Points.ofString "c" ∈ found) ∧
      eitherOf.evaluate (fun _ => false) = some (["a", "b"].map Text.Points.ofString) := by
  have hnames : eitherOf.templateNames? = some (["a", "b", "b", "c"].map Text.Points.ofString) := by decide
  obtain ⟨hsome, -⟩ := templateNames_possible eitherOf
  obtain ⟨hsound, hcomplete⟩ := hsome _ hnames
  exact ⟨hnames, hsound, hcomplete (Text.Points.ofString "c") (by decide), by decide⟩

end Stencil.Template
