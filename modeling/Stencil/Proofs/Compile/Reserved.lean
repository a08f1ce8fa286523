import Stencil.Compile.Unit
import Stencil.Proofs.Compile.Expression
import Stencil.Proofs.Template.Parsed
import Stencil.Proofs.Template.Tokens

/-!
The names with the prefix `_jt_` are kept for generated code. Nothing refuses them in a template; what
is said about generated code holds where no token is such a name.
-/
namespace Stencil.Compile

open Template

variable {dialect : Dialect} {source : String} {d : Document} {t : Files.Tree} {a : Path} {s : String}

/-- No name that stands in a template is kept for generated code. -/
def Unreserved (source : String) : Prop :=
  (TokenStream.ofSource source).Named fun s => ¬ "_jt_".toList <+: s.toList

instance : Decidable (Unreserved source) := inferInstanceAs (Decidable (TokenStream.Named _ _))

theorem IsFree.dotted (h : IsFree s) : Dotted IsFree s := by
  refine Dotted.single h fun hdot => ?_
  exact absurd (Text.continue_of_mem_identifier h.1 _ hdot) (by decide)

theorem brought_isFree : Parser.Brought IsFree where
  autoescape := ⟨by decide, by decide⟩
  counter := ⟨by decide, by decide⟩
  gettext plural contextual := by
    cases plural <;> cases contextual <;> exact ⟨by decide, by decide⟩

/-- The names in a template are free if its tokens are. -/
theorem Unreserved.worded (h : Unreserved source) (hparse : Document.parse dialect source = .ok d) :
    wordedBody IsFree d.body :=
  Document.parse_worded (fun _ => IsFree.dotted) brought_isFree
    ((TokenStream.named_ofSource source).and h) hparse

theorem worded_of_parseFile (h : ∀ source, t.readText a = .ok source → Unreserved source)
    (hparse : parseFile dialect t a = .ok d) : wordedBody IsFree d.body := by
  unfold parseFile at hparse
  split at hparse
  · cases hparse
  · cases hparse
  · next source hread =>
    split at hparse
    · next hdocument =>
      cases hparse
      exact (h source hread).worded hdocument
    · cases hparse
    · cases hparse

theorem compile_eq_ok {library : Library} {directory : Path} {u : CompiledUnit}
    (h : compile dialect library t a directory = .ok u) :
    ∃ document, parseFile dialect t a = .ok document ∧
      ofDocument a directory (library.find t) document = .ok u := by
  unfold compile at h
  split at h
  · cases h
  · next document hparse => exact ⟨document, hparse, h⟩

end Stencil.Compile
