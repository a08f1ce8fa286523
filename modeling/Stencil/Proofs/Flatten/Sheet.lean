import Stencil.Flatten.Reading
import Stencil.Proofs.Code.Gives

/-!
Tokens of generated code as a reader meets them. Brackets close on the line they open on, so a
reader inside brackets never leaves its line, and one outside leaves it only where an operand is
missing. `Amid` is what readers keep; the directives in what they return are those of the lines they
went over.
-/
namespace Stencil.Flatten
open Code Grammar

/-- How many brackets a token opens; one that closes counts as negative. -/
def weightOf (text : String) : Int :=
  if ["(", "[", "\x7b"].contains text then 1
  else if [")", "]", "\x7d"].contains text then -1
  else 0

/-- The number of brackets that are still open in front of some tokens. -/
def owed : List Token → Int
  | [] => 0
  | t :: ts => owed ts - weightOf t.text

/-- What no statement or operand of generated code begins with. -/
def leads : List String := [
  "lambda", "yield", "while", "try", "with", "class", "async", "del", "assert", "raise", "global",
  "nonlocal", "import", "from", "@"]

def isLead (t : Token) : Bool := leads.contains t.text

/-- What a line begins with that a block stands below. -/
def headers : List String := ["if", "elif", "else", "for", "def"]

def slice (source : List Char) (start stop : Nat) : String :=
  String.ofList ((source.drop start).take (stop - start))

def isReserved (text : String) : Bool := "_jt_".toList.isPrefixOf text.toList

/-- Tokens that start with a line which holds a directive and nothing else. -/
inductive Spells (source : List Char) : Directive → List Token → Prop
  | extends_ {path : Path} {runtime dot name opening literal closing : Token} {rest : List Token}
      (runtime_shape : runtime.shape = .name) (runtime_text : runtime.text = "_jt_rt")
      (hdot : IsNext dot .symbol ".") (hname : IsNext name .name "extends")
      (hopen : IsNext opening .symbol "(")
      (hliteral : literal.shape = .quoted ∧ literal.indent = none)
      (hclose : IsNext closing .symbol ")") (hrest : ∀ t ∈ rest.head?, t.indent.isSome)
      (hfunction : slice source runtime.start name.stop = "_jt_rt.extends")
      (htarget : (literalText (slice source literal.start literal.stop)).map Path.ofString =
        .ok path) :
      Spells source ⟨.extends_, path⟩
        (runtime :: dot :: name :: opening :: literal :: closing :: rest)
  | include_ {path : Path} {buffer dot append opening runtime dot' name opening' literal closing'
        closing : Token} {rest : List Token}
      (buffer_shape : buffer.shape = .name) (buffer_text : isReserved buffer.text)
      (hdot : IsNext dot .symbol ".") (happend : IsNext append .name "append")
      (hopen : IsNext opening .symbol "(") (hruntime : IsNext runtime .name "_jt_rt")
      (hdot' : IsNext dot' .symbol ".") (hname : IsNext name .name "include")
      (hopen' : IsNext opening' .symbol "(")
      (hliteral : literal.shape = .quoted ∧ literal.indent = none)
      (hclose' : IsNext closing' .symbol ")") (hclose : IsNext closing .symbol ")")
      (hrest : ∀ t ∈ rest.head?, t.indent.isSome)
      (hbuffer : slice source buffer.start append.stop ≠ "_jt_rt.extends" ∧
        slice source buffer.start append.stop ≠ "_jt_rt.include")
      (hfunction : slice source runtime.start name.stop = "_jt_rt.include")
      (htarget : (literalText (slice source literal.start literal.stop)).map Path.ofString =
        .ok path) :
      Spells source ⟨.include_ (slice source buffer.start buffer.stop), path⟩
        (buffer :: dot :: append :: opening :: runtime :: dot' :: name :: opening' :: literal ::
          closing' :: closing :: rest)

theorem Spells.head {source : List Char} {e : Directive} {t : Token} {ts : List Token}
    (h : Spells source e (t :: ts)) : t.shape = .name ∧ isReserved t.text := by
  cases h with
  | extends_ hshape htext => exact ⟨hshape, by rw [htext]; decide⟩
  | include_ hshape htext => exact ⟨hshape, htext⟩

theorem Spells.second {source : List Char} {e : Directive} {t : Token} {ts : List Token}
    (h : Spells source e (t :: ts)) : ∃ u ∈ ts.head?, IsNext u .symbol "." := by
  cases h with
  | extends_ _ _ hdot => exact ⟨_, rfl, hdot⟩
  | include_ _ _ hdot => exact ⟨_, rfl, hdot⟩

/-- The text that is read and what is known of its rows: the directives in them, how far they are
indented, and which ones a block stands below. -/
structure Page where
  source : List Char
  marks : Nat → Option Directive
  indentOf : Nat → Nat
  isHeader : Nat → Bool

/-- What an operand may begin with: the name of a directive only where one is marked. -/
structure Opens (g : Page) (t : Token) (ts : List Token) : Prop where
  lead : isLead t = false
  clean : g.marks t.row = none → ∀ u ∈ t :: ts,
    slice g.source t.start u.stop ≠ "_jt_rt.extends" ∧
      slice g.source t.start u.stop ≠ "_jt_rt.include"

/-- What a token and those behind it keep to. -/
structure Fits (g : Page) (t : Token) (ts : List Token) : Prop where
  level : t.indent.isSome → owed (t :: ts) = 0
  last : t.shape = .stop → t.indent = some 0
  quiet : t.comments = []
  flat : t.endRow = t.row
  row : ∀ u ∈ ts.head?, u.indent = none → u.row = t.row
  next : ∀ u ∈ ts.head?, u.indent.isSome → u.row = t.row + 1
  start : ∀ i ∈ t.indent, g.indentOf t.row ≤ i ∧
    (t.text ≠ "=" → g.indentOf t.row = i ∧ i % 4 = 0)
  headed : t.indent.isSome → (g.isHeader t.row ↔ t.text ∈ headers)
  deeper : ∀ u ∈ ts.head?, u.indent.isSome →
    if g.isHeader t.row then t.text = ":" ∧ owed (t :: ts) = 0 ∧
      g.indentOf u.row = g.indentOf t.row + 4
    else g.indentOf u.row ≤ g.indentOf t.row
  colon : g.isHeader t.row → t.text = ":" → owed (t :: ts) = 0 →
    ∀ u ∈ ts.head?, u.indent.isSome
  otherwise : t.text = "else" → t.indent.isSome → ∃ u ∈ ts.head?, u.text = ":"
  shaped : t.shape ≠ .symbol → weightOf t.text = 0 ∧ t.text ≠ "." ∧ t.text ≠ ":"
  called : t.text = "return" ∨ t.text ∈ headers → t.shape = .name
  equals : t.text = "=" → t.shape = .symbol
  lead : t.indent.isSome → Opens g t ts
  fresh : ∀ u us, ts = u :: us → Opens g u us ∨ t.shape = .number ∨ t.text = "."
  goesOn : t.text = "." → ∀ u ∈ ts.head?, u.indent = none
  single : t.text ≠ ";"
  mark : ∀ d, g.marks t.row = some d → t.indent.isSome → Spells g.source d (t :: ts)

def Sheet (g : Page) (ts : List Token) : Prop := ∀ t us, (t :: us) <:+ ts → Fits g t us

/-- The directives of the lines that start in `ts`, the last one first. -/
def expected (g : Page) : List Token → Found
  | [] => []
  | t :: ts =>
    expected g ts ++
      if t.indent.isSome then ((g.marks t.row).map fun d => (t.row, d)).toList else []

/-- The directives in `ns` are those given, wherever the nodes stand. -/
def Accounts (source : List Char) (ns : List Node) (found : Found) : Prop :=
  ∀ parent around before,
    directivesAll source parent around ns before = .ok (found ++ before)

variable {g : Page} {source : List Char} {ns ms : List Node} {t : Token} {ts us : List Token}
  {found : Found}

theorem Sheet.fits (h : Sheet g (t :: ts)) : Fits g t ts := h t ts List.suffix_rfl

theorem Sheet.suffix (h : Sheet g ts) (hs : us <:+ ts) : Sheet g us :=
  fun t vs ht => h t vs (ht.trans hs)

@[simp] theorem expected_nil : expected g [] = [] := rfl

theorem expected_append (ts us : List Token) :
    expected g (ts ++ us) = expected g us ++ expected g ts := by
  induction ts with
  | nil => simp
  | cons t ts ih => simp [expected, ih]

theorem expected_single_unmarked (h : t.indent.isSome → g.marks t.row = none) :
    expected g [t] = [] := by
  cases hi : t.indent.isSome <;> simp_all [expected]

theorem owed_append (ts us : List Token) : owed (ts ++ us) = owed ts + owed us := by
  induction ts with
  | nil => simp [owed]
  | cons t ts ih => simp only [List.cons_append, owed, ih]; omega

theorem directivesAll_append (parent around : Option Node) (before : Found) :
    directivesAll source parent around (ns ++ ms) before =
      (directivesAll source parent around ns before).bind
        (directivesAll source parent around ms) := by
  induction ns generalizing before with
  | nil => rfl
  | cons n ns ih =>
    simp only [List.cons_append, directivesAll]
    cases directives source parent around n before with
    | error e => rfl
    | ok f => exact ih f

/-- A node that is no call holds what its children hold. -/
theorem directives_of_kind_ne {kind : Kind} {extent : Extent} (hk : kind ≠ .call)
    (parent around : Option Node) (before : Found) :
    directives source parent around (.mk kind extent ns) before =
      directivesAll source (some (.mk kind extent ns)) parent ns before := by
  rw [directives]
  rintro f a he rfl
  exact hk he

/-- A call that names no directive holds what is in its function and its arguments. -/
theorem directives_call {extent : Extent} {function arguments : Node}
    (h : directiveName? source function = none) (parent around : Option Node) (before : Found) :
    directives source parent around (.mk .call extent [function, arguments]) before =
      directivesAll source (some (.mk .call extent [function, arguments])) parent
        [function, arguments] before := by
  simp only [directives, directive?, h, directivesAll]
  cases directives source _ parent function before with
  | error e => rfl
  | ok f =>
    change directives source _ parent arguments f = (directives source _ parent arguments f).bind _
    cases directives source _ parent arguments f <;> rfl

namespace Accounts

theorem nil : Accounts source [] [] := fun _ _ _ => rfl

theorem append {found' : Found} (h : Accounts source ns found) (h' : Accounts source ms found') :
    Accounts source (ns ++ ms) (found' ++ found) := by
  intro parent around before
  rw [directivesAll_append, h, List.append_assoc]
  exact h' parent around _

theorem single {n : Node}
    (h : ∀ parent around before, directives source parent around n before = .ok (found ++ before)) :
    Accounts source [n] found := by
  intro parent around before
  simp only [directivesAll, h]
  rfl

theorem wrap {kind : Kind} {extent : Extent} (hk : kind ≠ .call) (h : Accounts source ns found) :
    Accounts source [.mk kind extent ns] found :=
  single fun parent around before => by rw [directives_of_kind_ne hk, h]

theorem call {extent : Extent} {function arguments : Node}
    (hf : directiveName? source function = none)
    (h : Accounts source [function, arguments] found) :
    Accounts source [.mk .call extent [function, arguments]] found :=
  single fun parent around before => by rw [directives_call hf, h]

end Accounts

end Stencil.Flatten
