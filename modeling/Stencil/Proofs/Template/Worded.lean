import Stencil.Proofs.Text.Split
import Stencil.Template.Mention

/-! Syntax trees whose names satisfy a predicate and whose slices stand in brackets of their own. -/
namespace Stencil.Template

variable {p q : String → Prop} {slices : Bool} {s t : String}

/-- Holds of names that `p` holds of between points. -/
def Dotted (p : String → Prop) (s : String) : Prop := ∀ t ∈ Text.splitOnChar '.' s, p t

theorem Dotted.single (hs : p s) (h : '.' ∉ s.toList) : Dotted p s := by
  have hnone : ∀ c ∈ s.toList, (c == '.') = false := by
    intro c hc
    rw [beq_eq_false_iff_ne]
    rintro rfl
    exact h hc
  simpa [Dotted, Text.splitOnChar, Text.splitAt_of_forall hnone] using hs

theorem Dotted.mem {c : Char} (h : Dotted p s) (hc : c ∈ s.toList) : c = '.' ∨ ∃ t, p t ∧ c ∈ t.toList := by
  obtain hpoint | ⟨piece, hpiece, hc⟩ := Text.mem_splitAt (q := (· == '.')) hc
  · exact .inl (by simpa using hpoint)
  · exact .inr ⟨String.ofList piece, h _ (List.mem_map_of_mem hpiece), by simpa using hc⟩

theorem Dotted.append_iff : Dotted p (s ++ "." ++ t) ↔ Dotted p s ∧ Dotted p t := by
  have hsplit : Text.splitOnChar '.' (s ++ "." ++ t) = Text.splitOnChar '.' s ++ Text.splitOnChar '.' t := by
    simp [Text.splitOnChar, Text.splitAt_append_cons]
  rw [Dotted, hsplit]
  exact List.forall_mem_append

theorem Dotted.append (hs : Dotted p s) (ht : Dotted p t) : Dotted p (s ++ "." ++ t) := Dotted.append_iff.2 ⟨hs, ht⟩

mutual

/-- All names satisfy `p`. Slices are what an index is, or one of its parts. -/
def Expr.Worded (p : String → Prop) (slices : Bool) : Expr → Prop
  | .name _ id _ => p id
  | .attrRef _ space attr => p space ∧ p attr
  | .const .. | .data .. | .context .. => True
  | .tuple _ items => wordedAll p true items
  | .list _ items | .concat _ items | .other _ _ items => wordedAll p false items
  | .dict _ items => wordedPairs p items
  | .cond _ test body otherwise =>
    test.Worded p false ∧ body.Worded p false ∧ wordedOption p otherwise
  | .filter _ input name args named rest restNamed =>
    wordedOption p input ∧ Dotted p name ∧ wordedAll p false args ∧ wordedNamed p named ∧
      wordedOption p rest ∧ wordedOption p restNamed
  | .test _ input name args named rest restNamed =>
    input.Worded p false ∧ Dotted p name ∧ wordedAll p false args ∧ wordedNamed p named ∧
      wordedOption p rest ∧ wordedOption p restNamed
  | .call _ callee args named rest restNamed =>
    callee.Worded p false ∧ wordedAll p false args ∧ wordedNamed p named ∧
      wordedOption p rest ∧ wordedOption p restNamed
  | .item _ owner index => owner.Worded p false ∧ index.Worded p true
  | .attr _ owner attr => owner.Worded p false ∧ p attr
  | .slice _ start stop step =>
    slices = true ∧ wordedOption p start ∧ wordedOption p stop ∧ wordedOption p step
  | .compare _ first others => first.Worded p false ∧ wordedOperands p others
  | .binary _ _ left right => left.Worded p false ∧ right.Worded p false
  | .unary _ _ operand => operand.Worded p false
  | .safe _ value => value.Worded p false
termination_by structural e => e

def wordedAll (p : String → Prop) (slices : Bool) : List Expr → Prop
  | [] => True
  | e :: es => e.Worded p slices ∧ wordedAll p slices es
termination_by structural es => es

def wordedOption (p : String → Prop) : Option Expr → Prop
  | none => True
  | some e => e.Worded p false
termination_by structural e => e

def wordedPairs (p : String → Prop) : List (Expr × Expr) → Prop
  | [] => True
  | (key, value) :: es => key.Worded p false ∧ value.Worded p false ∧ wordedPairs p es
termination_by structural es => es

def wordedNamed (p : String → Prop) : List (String × Expr) → Prop
  | [] => True
  | (name, e) :: es => p name ∧ e.Worded p false ∧ wordedNamed p es
termination_by structural es => es

def wordedOperands (p : String → Prop) : List (CompareOp × Expr) → Prop
  | [] => True
  | (_, e) :: es => e.Worded p false ∧ wordedOperands p es
termination_by structural es => es

end

mutual

/-- All names of a statement satisfy `p`. -/
def Stmt.Worded (p : String → Prop) : Stmt → Prop
  | .output _ nodes => wordedAll p false nodes
  | .extends_ _ template | .include_ _ template _ _ => template.Worded p false
  | .for_ _ target source body otherwise test _ =>
    target.Worded p false ∧ source.Worded p false ∧ wordedBody p body ∧ wordedBody p otherwise ∧
      wordedOption p test
  | .if_ _ test body branches otherwise =>
    test.Worded p false ∧ wordedBody p body ∧ wordedBranches p branches ∧ wordedBody p otherwise
  | .macro_ _ id params defaults body =>
    p id ∧ (∀ s ∈ params, p s) ∧ wordedAll p false defaults ∧ wordedBody p body
  | .callBlock _ call params defaults body =>
    call.Worded p false ∧ (∀ s ∈ params, p s) ∧ wordedAll p false defaults ∧ wordedBody p body
  | .filterBlock _ body filter => wordedBody p body ∧ filter.Worded p false
  | .with_ _ targets values body =>
    wordedAll p false targets ∧ wordedAll p false values ∧ wordedBody p body
  | .block _ id body _ _ => p id ∧ wordedBody p body
  | .scope _ body => wordedBody p body
  | .import_ _ template target _ => template.Worded p false ∧ p target
  | .fromImport _ template names _ =>
    template.Worded p false ∧ ∀ n ∈ names, p n.1 ∧ p n.2
  | .exprStmt _ value => value.Worded p false
  | .assign _ target value => target.Worded p false ∧ value.Worded p false
  | .assignBlock _ target filter body =>
    target.Worded p false ∧ wordedOption p filter ∧ wordedBody p body
  | .scopedOptions _ options body => wordedNamed p options ∧ wordedBody p body
  | .options _ options => wordedNamed p options
  | .continue_ _ | .break_ _ | .other .. => True
termination_by structural s => s

def wordedBody (p : String → Prop) : List Stmt → Prop
  | [] => True
  | s :: ss => s.Worded p ∧ wordedBody p ss
termination_by structural ss => ss

def wordedBranches (p : String → Prop) : List Branch → Prop
  | [] => True
  | b :: bs => b.Worded p ∧ wordedBranches p bs
termination_by structural bs => bs

def Branch.Worded (p : String → Prop) : Branch → Prop
  | .mk _ test body => test.Worded p false ∧ wordedBody p body
termination_by structural b => b

end

/-- All names of a template satisfy `p`. -/
def Document.Worded (p : String → Prop) (d : Document) : Prop := wordedBody p d.body

/-- What is no slice may stand where slices may. -/
theorem Expr.Worded.loosen {e : Expr} (h : e.Worded p false) : e.Worded p true := by
  cases e
  case slice => exact ⟨rfl, h.2⟩
  all_goals exact h

section Lists

variable {es : List Expr} {e : Expr} {ss : List Stmt}

theorem wordedAll_iff : wordedAll p slices es ↔ ∀ e ∈ es, e.Worded p slices := by
  induction es with
  | nil => simp [wordedAll]
  | cons e es ih => simp [wordedAll, ih]

theorem wordedPairs_iff {es : List (Expr × Expr)} :
    wordedPairs p es ↔ ∀ e ∈ es, e.1.Worded p false ∧ e.2.Worded p false := by
  induction es with
  | nil => simp [wordedPairs]
  | cons e es ih => simp [wordedPairs, ih, and_assoc]

theorem wordedNamed_iff {es : List (String × Expr)} :
    wordedNamed p es ↔ ∀ e ∈ es, p e.1 ∧ e.2.Worded p false := by
  induction es with
  | nil => simp [wordedNamed]
  | cons e es ih => simp [wordedNamed, ih, and_assoc]

theorem wordedOperands_iff {es : List (CompareOp × Expr)} :
    wordedOperands p es ↔ ∀ e ∈ es, e.2.Worded p false := by
  induction es with
  | nil => simp [wordedOperands]
  | cons e es ih => simp [wordedOperands, ih]

theorem wordedBody_iff : wordedBody p ss ↔ ∀ s ∈ ss, s.Worded p := by
  induction ss with
  | nil => simp [wordedBody]
  | cons s ss ih => simp [wordedBody, ih]

theorem wordedBranches_iff {bs : List Branch} : wordedBranches p bs ↔ ∀ b ∈ bs, b.Worded p := by
  induction bs with
  | nil => simp [wordedBranches]
  | cons b bs ih => simp [wordedBranches, ih]

end Lists

/-! ### Mentions -/

mutual

/-- What is mentioned satisfies what names do. -/
theorem Expr.mention_worded (e : Expr) (slices : Bool) (h : e.Worded p slices) : ∀ m ∈ e.mentions, p m.id :=
  match e with
  | .name .. => by simpa [Expr.mentions, Expr.Worded] using h
  | .attrRef .. => by simpa [Expr.mentions] using h.1
  | .const .. | .data .. | .context .. => by simp [Expr.mentions]
  | .tuple _ items => mentionsAll_worded items _ h
  | .list _ items | .concat _ items | .other _ _ items => mentionsAll_worded items _ h
  | .dict _ items => mentionsPairs_worded items h
  | .cond _ test body otherwise => by
    simp only [Expr.mentions, List.forall_mem_append]
    exact ⟨⟨test.mention_worded _ h.1, body.mention_worded _ h.2.1⟩, mentionsOption_worded otherwise h.2.2⟩
  | .filter _ input _ args named rest restNamed => by
    simp only [Expr.mentions, List.forall_mem_append]
    exact ⟨⟨⟨⟨mentionsOption_worded input h.1, mentionsAll_worded args _ h.2.2.1⟩,
      mentionsNamed_worded named h.2.2.2.1⟩, mentionsOption_worded rest h.2.2.2.2.1⟩,
      mentionsOption_worded restNamed h.2.2.2.2.2⟩
  | .test _ input _ args named rest restNamed => by
    simp only [Expr.mentions, List.forall_mem_append]
    exact ⟨⟨⟨⟨input.mention_worded _ h.1, mentionsAll_worded args _ h.2.2.1⟩,
      mentionsNamed_worded named h.2.2.2.1⟩, mentionsOption_worded rest h.2.2.2.2.1⟩,
      mentionsOption_worded restNamed h.2.2.2.2.2⟩
  | .call _ callee args named rest restNamed => by
    simp only [Expr.mentions, List.forall_mem_append]
    exact ⟨⟨⟨⟨callee.mention_worded _ h.1, mentionsAll_worded args _ h.2.1⟩,
      mentionsNamed_worded named h.2.2.1⟩, mentionsOption_worded rest h.2.2.2.1⟩,
      mentionsOption_worded restNamed h.2.2.2.2⟩
  | .item _ owner index => by
    simp only [Expr.mentions, List.forall_mem_append]
    exact ⟨owner.mention_worded _ h.1, index.mention_worded _ h.2⟩
  | .attr _ owner _ => owner.mention_worded _ h.1
  | .slice _ start stop step => by
    simp only [Expr.mentions, List.forall_mem_append]
    exact ⟨⟨mentionsOption_worded start h.2.1, mentionsOption_worded stop h.2.2.1⟩,
      mentionsOption_worded step h.2.2.2⟩
  | .compare _ first others => by
    simp only [Expr.mentions, List.forall_mem_append]
    exact ⟨first.mention_worded _ h.1, mentionsOperands_worded others h.2⟩
  | .binary _ _ left right => by
    simp only [Expr.mentions, List.forall_mem_append]
    exact ⟨left.mention_worded _ h.1, right.mention_worded _ h.2⟩
  | .unary _ _ operand => operand.mention_worded _ h
  | .safe _ value => value.mention_worded _ h
termination_by structural e

theorem mentionsAll_worded (es : List Expr) (slices : Bool) (h : wordedAll p slices es) :
    ∀ m ∈ mentionsAll es, p m.id :=
  match es with
  | [] => by simp [mentionsAll]
  | e :: es => List.forall_mem_append.2 ⟨e.mention_worded _ h.1, mentionsAll_worded es _ h.2⟩
termination_by structural es

theorem mentionsOption_worded (e : Option Expr) (h : wordedOption p e) : ∀ m ∈ mentionsOption e, p m.id :=
  match e with
  | none => by simp [mentionsOption]
  | some e => e.mention_worded _ h
termination_by structural e

theorem mentionsPairs_worded (es : List (Expr × Expr)) (h : wordedPairs p es) :
    ∀ m ∈ mentionsPairs es, p m.id :=
  match es with
  | [] => by simp [mentionsPairs]
  | (key, value) :: es => List.forall_mem_append.2
    ⟨List.forall_mem_append.2 ⟨key.mention_worded _ h.1, value.mention_worded _ h.2.1⟩,
      mentionsPairs_worded es h.2.2⟩
termination_by structural es

theorem mentionsNamed_worded (es : List (String × Expr)) (h : wordedNamed p es) :
    ∀ m ∈ mentionsNamed es, p m.id :=
  match es with
  | [] => by simp [mentionsNamed]
  | (_, e) :: es => List.forall_mem_append.2 ⟨e.mention_worded _ h.2.1, mentionsNamed_worded es h.2.2⟩
termination_by structural es

theorem mentionsOperands_worded (es : List (CompareOp × Expr)) (h : wordedOperands p es) :
    ∀ m ∈ mentionsOperands es, p m.id :=
  match es with
  | [] => by simp [mentionsOperands]
  | (_, e) :: es => List.forall_mem_append.2 ⟨e.mention_worded _ h.1, mentionsOperands_worded es h.2⟩
termination_by structural es

end

theorem bindAll_worded {ids : List String} (h : ∀ s ∈ ids, p s) : ∀ m ∈ bindAll ids, p m.id := by
  simpa [bindAll] using h

mutual

theorem Stmt.mention_worded (s : Stmt) (h : s.Worded p) : ∀ m ∈ s.mentions, p m.id :=
  match s with
  | .output _ nodes => mentionsAll_worded nodes _ h
  | .extends_ _ template | .include_ _ template _ _ => template.mention_worded _ h
  | .for_ _ target source body otherwise test _ => by
    simp only [Stmt.mentions, List.forall_mem_append]
    exact ⟨⟨⟨⟨target.mention_worded _ h.1, source.mention_worded _ h.2.1⟩, bodyMentions_worded body h.2.2.1⟩,
      bodyMentions_worded otherwise h.2.2.2.1⟩, mentionsOption_worded test h.2.2.2.2⟩
  | .if_ _ test body branches otherwise => by
    simp only [Stmt.mentions, List.forall_mem_append]
    exact ⟨⟨⟨test.mention_worded _ h.1, bodyMentions_worded body h.2.1⟩,
      branchMentions_worded branches h.2.2.1⟩, bodyMentions_worded otherwise h.2.2.2⟩
  | .macro_ _ _ _ defaults body => by
    simp only [Stmt.mentions, List.forall_mem_append, List.forall_mem_cons, List.cons_append]
    exact ⟨h.1, ⟨bindAll_worded h.2.1, mentionsAll_worded defaults _ h.2.2.1⟩,
      bodyMentions_worded body h.2.2.2⟩
  | .callBlock _ call _ defaults body => by
    simp only [Stmt.mentions, List.forall_mem_append]
    exact ⟨⟨⟨call.mention_worded _ h.1, bindAll_worded h.2.1⟩, mentionsAll_worded defaults _ h.2.2.1⟩,
      bodyMentions_worded body h.2.2.2⟩
  | .filterBlock _ body filter =>
    List.forall_mem_append.2 ⟨bodyMentions_worded body h.1, filter.mention_worded _ h.2⟩
  | .with_ _ targets values body => by
    simp only [Stmt.mentions, List.forall_mem_append]
    exact ⟨⟨mentionsAll_worded targets _ h.1, mentionsAll_worded values _ h.2.1⟩,
      bodyMentions_worded body h.2.2⟩
  | .block _ _ body _ _ => bodyMentions_worded body h.2
  | .scope _ body => bodyMentions_worded body h
  | .import_ _ template _ _ => by
    simp only [Stmt.mentions, List.forall_mem_append]
    exact ⟨template.mention_worded _ h.1, by simpa using h.2⟩
  | .fromImport _ template names _ => by
    simp only [Stmt.mentions, List.forall_mem_append]
    exact ⟨template.mention_worded _ h.1, bindAll_worded fun s hs => by
      obtain ⟨n, hn, rfl⟩ := List.mem_map.1 hs
      exact (h.2 n hn).2⟩
  | .exprStmt _ value => value.mention_worded _ h
  | .assign _ target value =>
    List.forall_mem_append.2 ⟨target.mention_worded _ h.1, value.mention_worded _ h.2⟩
  | .assignBlock _ target filter body => by
    simp only [Stmt.mentions, List.forall_mem_append]
    exact ⟨⟨target.mention_worded _ h.1, mentionsOption_worded filter h.2.1⟩, bodyMentions_worded body h.2.2⟩
  | .scopedOptions _ options body =>
    List.forall_mem_append.2 ⟨bodyMentions_worded body h.2, mentionsNamed_worded options h.1⟩
  | .options _ options => mentionsNamed_worded options h
  | .continue_ _ | .break_ _ | .other .. => by simp [Stmt.mentions]
termination_by structural s

theorem bodyMentions_worded (ss : List Stmt) (h : wordedBody p ss) : ∀ m ∈ bodyMentions ss, p m.id :=
  match ss with
  | [] => by simp [bodyMentions]
  | s :: ss => List.forall_mem_append.2 ⟨s.mention_worded h.1, bodyMentions_worded ss h.2⟩
termination_by structural ss

theorem branchMentions_worded (bs : List Branch) (h : wordedBranches p bs) :
    ∀ m ∈ branchMentions bs, p m.id :=
  match bs with
  | [] => by simp [branchMentions]
  | b :: bs => List.forall_mem_append.2 ⟨b.mention_worded h.1, branchMentions_worded bs h.2⟩
termination_by structural bs

theorem Branch.mention_worded (b : Branch) (h : b.Worded p) : ∀ m ∈ b.mentions, p m.id :=
  match b with
  | .mk _ test body =>
    List.forall_mem_append.2 ⟨test.mention_worded _ h.1, bodyMentions_worded body h.2⟩
termination_by structural b

end

end Stencil.Template
