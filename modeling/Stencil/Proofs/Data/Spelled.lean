import Stencil.Data.Access
import Stencil.Data.Json
import Stencil.Data.JsonText
import Stencil.Proofs.Code.Quoted
import Stencil.Proofs.Decimal.Shortest

/-!
What JSON documents look like, and that they are read as the values they spell. Blanks may stand
between all parts; numbers are whole, and no key stands in a table twice.
-/
namespace Stencil.Data.Json
open Text

variable {wide : Wide} {v : Value} {vs : List Value} {es before : List (String × Value)} {k s : String}
  {c : Char} {cs ds ks ws rest : List Char} {n : Nat} {m : Int} {fuel depth : Nat}

/-! ### Strings -/

/-- How a character is written between quotes. -/
inductive Escaped (c : Char) : List Char → Prop
  | plain (hquote : c ≠ '"') (hslash : c ≠ '\\') (hc : ¬ c.toNat < 32) : Escaped c [c]
  | short {d : Char} (hd : (d, c) ∈ [('"', '"'), ('\\', '\\'), ('b', '\x08'), ('t', '\t'), ('n', '\n'),
      ('f', '\x0c'), ('r', '\r')]) : Escaped c ['\\', d]
  | control (hc : c.toNat < 32) : Escaped c ('\\' :: 'u' :: hexDigits 4 c.toNat)

theorem escaped_escapeChar (c : Char) : Escaped c (escapeChar c) := by
  unfold escapeChar
  split
  · next h => exact .short (by rw [beq_iff_eq.1 h]; simp)
  next hquote =>
  split
  · next h => exact .short (by rw [beq_iff_eq.1 h]; simp)
  next hslash =>
  split
  · next h => exact .short (by rw [beq_iff_eq.1 h]; simp)
  split
  · next h => exact .short (by rw [beq_iff_eq.1 h]; simp)
  split
  · next h => exact .short (by rw [beq_iff_eq.1 h]; simp)
  split
  · next h => exact .short (by rw [beq_iff_eq.1 h]; simp)
  split
  · next h => exact .short (by rw [beq_iff_eq.1 h]; simp)
  split
  · next h => exact .control h
  · next h => exact .plain (by simpa using hquote) (by simpa using hslash) h

theorem unicode_hexDigits (hc : c.toNat < 32) : unicode? (hexDigits 4 c.toNat ++ rest) = some (c, rest) := by
  have htake : (hexDigits 4 c.toNat ++ rest).take 4 = hexDigits 4 c.toNat :=
    List.take_left' (Code.length_hexDigits 4 c.toNat)
  have hdrop : (hexDigits 4 c.toNat ++ rest).drop 4 = rest := List.drop_left' (Code.length_hexDigits 4 c.toNat)
  have hunit : unit? (hexDigits 4 c.toNat ++ rest) = some (c.toNat, rest) := by
    have hmod : c.toNat % 16 ^ 4 = c.toNat := Nat.mod_eq_of_lt (by omega)
    simp only [unit?, htake, hdrop, Code.length_hexDigits, Code.hexNumber_hexDigits, hmod, beq_self_eq_true,
      if_true, Option.map_some]
  have hhigh : ¬ (0xd800 ≤ c.toNat ∧ c.toNat < 0xdc00) := by omega
  have hlow : ¬ (0xdc00 ≤ c.toNat ∧ c.toNat < 0xe000) := by omega
  simp [unicode?, hunit, hhigh, hlow]

/-- What a character is written as is read in one step. -/
theorem Escaped.read (h : Escaped c cs) :
    stringTail (fuel + 1) (cs ++ rest) = (stringTail fuel rest).map fun r => (c :: r.1, r.2) := by
  have hbind (cs : List Char) (hescape : escape? (cs ++ rest) = some (c, rest)) :
      stringTail (fuel + 1) ('\\' :: cs ++ rest) = (stringTail fuel rest).map fun r => (c :: r.1, r.2) := by
    rw [List.cons_append, stringTail, hescape]
    simp only [Option.bind_eq_bind, Option.bind_some]
    cases stringTail fuel rest <;> rfl
  cases h with
  | plain hquote hslash hc =>
    rw [List.singleton_append, stringTail, if_neg hc]
    · cases stringTail fuel rest <;> rfl
    · simpa using hquote
    · simpa using hslash
  | short hd =>
    refine hbind [_] ?_
    simp only [List.mem_cons, Prod.mk.injEq, List.not_mem_nil, or_false] at hd
    obtain ⟨rfl, rfl⟩ | ⟨rfl, rfl⟩ | ⟨rfl, rfl⟩ | ⟨rfl, rfl⟩ | ⟨rfl, rfl⟩ | ⟨rfl, rfl⟩ | ⟨rfl, rfl⟩ := hd <;> rfl
  | control hc => exact hbind _ (unicode_hexDigits hc)

theorem Escaped.length_pos (h : Escaped c cs) : 0 < cs.length := by cases h <;> simp

theorem length_le_flatMap (cs : List Char) : cs.length ≤ (cs.flatMap escapeChar).length := by
  induction cs with
  | nil => exact Nat.zero_le _
  | cons c cs ih =>
    have := (escaped_escapeChar c).length_pos
    simp only [List.flatMap_cons, List.length_append, List.length_cons]
    omega

theorem stringTail_flatMap (hfuel : cs.length < fuel) :
    stringTail fuel (cs.flatMap escapeChar ++ '"' :: rest) = some (cs, rest) := by
  induction cs generalizing fuel with
  | nil =>
    obtain _ | fuel := fuel
    · simp at hfuel
    · rfl
  | cons c cs ih =>
    obtain _ | fuel := fuel
    · simp at hfuel
    · rw [List.flatMap_cons, List.append_assoc, (escaped_escapeChar c).read, ih (by simpa using hfuel)]
      rfl

theorem string?_flatMap : string? (s.toList.flatMap escapeChar ++ '"' :: rest) = some (s, rest) := by
  have hlength := length_le_flatMap s.toList
  rw [string?, stringTail_flatMap (by simp only [List.length_append, List.length_cons]; omega)]
  simp

/-! ### Numbers -/

/-- Holds of what may stand behind a value; none of it continues a number. -/
def Stops (rest : List Char) : Prop := ∀ c ∈ rest.head?, isSpace c ∨ c ∈ [',', ']', '}']

theorem Stops.not_digit (h : Stops rest) : ∀ c ∈ rest.head?, c.isDigit = false := by
  intro c hc
  obtain hc | hc := h c hc
  · simp only [isSpace, Bool.or_eq_true, beq_iff_eq] at hc
    obtain ((rfl | rfl) | rfl) | rfl := hc <;> rfl
  · simp only [List.mem_cons, List.not_mem_nil, or_false] at hc
    obtain rfl | rfl | rfl := hc <;> rfl

theorem Stops.fraction (h : Stops rest) : fraction? rest = none := by
  cases rest with
  | nil => rfl
  | cons c rest =>
    unfold fraction?
    split
    · next heq =>
      cases heq
      obtain hc | hc := h '.' rfl
      · cases hc
      · simp at hc
    · rfl

theorem Stops.exponent (h : Stops rest) : exponent? rest = none := by
  cases rest with
  | nil => rfl
  | cons c rest =>
    unfold exponent?
    dsimp only
    rw [if_neg]
    have hc := h c rfl
    simp only [Bool.or_eq_true, beq_iff_eq]
    rintro (rfl | rfl) <;> revert hc <;> decide

theorem decimal_toDigits (n : Nat) : decimal (Nat.toDigits 10 n) = n := Nat.ofDigitChars_ten_toDigits

/-- No zero leads a number but nought. -/
theorem length_of_head_zero (h : (Nat.toDigits 10 n).head? = some '0') : (Nat.toDigits 10 n).length = 1 := by
  induction n using Nat.strongRecOn with
  | ind n ih =>
    obtain hn | hn := Nat.lt_or_ge n 10
    · rw [Nat.toDigits_of_lt_base hn]
      rfl
    · rw [Nat.toDigits_of_base_le (by decide) hn, List.head?_append_of_ne_nil _ Nat.toDigits_ne_nil] at h
      have hone := ih (n / 10) (by omega) h
      obtain ⟨c, hc⟩ := List.length_eq_one_iff.1 hone
      rw [hc] at h
      obtain rfl : c = '0' := by simpa using h
      have := decimal_toDigits (n / 10)
      rw [hc] at this
      exact absurd this (by simp [decimal]; omega)

theorem number?_toDigits {negative : Bool} (hrest : Stops rest) (hn : m = if negative then -(n : Int) else n)
    (hfits : wide = .keep ∨ intFits m) :
    number? wide negative (Nat.toDigits 10 n ++ rest) = some (.int m, rest) := by
  have hdigits : ∀ c ∈ Nat.toDigits 10 n, c.isDigit := fun c hc => Decimal.isDigit_toDigits hc
  have hstop : rest.takeWhile Char.isDigit = [] ∧ rest.dropWhile Char.isDigit = rest := by
    cases rest with
    | nil => exact ⟨rfl, rfl⟩
    | cons c rest => simp [hrest.not_digit c rfl]
  have hwhole : digits? (Nat.toDigits 10 n ++ rest) = some (Nat.toDigits 10 n, rest) := by
    rw [digits?, List.takeWhile_append_of_pos hdigits, List.dropWhile_append_of_pos hdigits, hstop.1, hstop.2]
    simp [Nat.toDigits_ne_nil]
  have hzero : ¬ ((Nat.toDigits 10 n).length > 1 && (Nat.toDigits 10 n).head? == some '0') := by
    intro h
    simp only [Bool.and_eq_true, decide_eq_true_eq, beq_iff_eq] at h
    have := length_of_head_zero h.2
    omega
  have hint : decide (wide = .keep) || intFits m := by simpa using hfits
  rw [number?, hwhole]
  simp only [Option.bind_eq_bind, Option.bind_some, hzero, hrest.fraction, hrest.exponent,
    Option.getD_none, List.append_nil, decimal_toDigits, ← hn, List.isEmpty_nil, beq_self_eq_true, Bool.true_and,
    hint, if_true]
  rfl

/-! ### Values -/

/-- Blanks that may stand between parts. -/
def Blanks (ws : List Char) : Prop := ∀ c ∈ ws, isSpace c

/-- A key up to its value. -/
inductive SpellsKey : String → List Char → Prop
  | mk {k : String} {ws ws' : List Char} (hws : Blanks ws) (hws' : Blanks ws') :
    SpellsKey k ((stringText k).toList ++ (ws ++ ':' :: ws'))

mutual

/-- `Spells wide v cs` says that `cs` is a way to write `v`. -/
inductive Spells (wide : Wide) : Value → List Char → Prop
  | null : Spells wide .null ['n', 'u', 'l', 'l']
  | yes : Spells wide (.bool true) ['t', 'r', 'u', 'e']
  | no : Spells wide (.bool false) ['f', 'a', 'l', 's', 'e']
  | natural (n : Nat) (hfits : wide = .keep ∨ intFits n) : Spells wide (.int n) (Nat.toDigits 10 n)
  | negative (n : Nat) (hfits : wide = .keep ∨ intFits (-n)) :
    Spells wide (.int (-n)) ('-' :: Nat.toDigits 10 n)
  | str (s : String) : Spells wide (.str s) (stringText s).toList
  | nil {ws : List Char} (hws : Blanks ws) : Spells wide (.list []) ('[' :: (ws ++ [']']))
  | list {ws cs : List Char} {vs : List Value} (hws : Blanks ws) (h : SpellsItems wide vs cs) :
    Spells wide (.list vs) ('[' :: (ws ++ cs))
  | empty {ws : List Char} (hws : Blanks ws) : Spells wide (.table []) ('{' :: (ws ++ ['}']))
  | table {ws cs : List Char} {es : List (String × Value)} (hkeys : (es.map (·.1)).Nodup) (hws : Blanks ws)
    (h : SpellsEntries wide es cs) : Spells wide (.table es) ('{' :: (ws ++ cs))

/-- The items of a list up to its closing bracket. -/
inductive SpellsItems (wide : Wide) : List Value → List Char → Prop
  | last {v : Value} {cs ws : List Char} (h : Spells wide v cs) (hws : Blanks ws) :
    SpellsItems wide [v] (cs ++ (ws ++ [']']))
  | more {v : Value} {vs : List Value} {cs ws ws' ds : List Char} (h : Spells wide v cs) (hws : Blanks ws)
    (hws' : Blanks ws') (hvs : SpellsItems wide vs ds) :
    SpellsItems wide (v :: vs) (cs ++ (ws ++ ',' :: (ws' ++ ds)))

/-- The entries of a table up to its closing brace. -/
inductive SpellsEntries (wide : Wide) : List (String × Value) → List Char → Prop
  | last {k : String} {v : Value} {ks cs ws : List Char} (hk : SpellsKey k ks) (h : Spells wide v cs)
    (hws : Blanks ws) : SpellsEntries wide [(k, v)] (ks ++ (cs ++ (ws ++ ['}'])))
  | more {k : String} {v : Value} {es : List (String × Value)} {ks cs ws ws' ds : List Char}
    (hk : SpellsKey k ks) (h : Spells wide v cs) (hws : Blanks ws) (hws' : Blanks ws')
    (hes : SpellsEntries wide es ds) :
    SpellsEntries wide ((k, v) :: es) (ks ++ (cs ++ (ws ++ ',' :: (ws' ++ ds))))

end

theorem blanks_nil : Blanks [] := by simp [Blanks]

theorem skipSpace_blanks (hws : Blanks ws) (hc : isSpace c = false) : skipSpace (ws ++ c :: rest) = c :: rest := by
  rw [skipSpace, List.dropWhile_append_of_pos hws, List.dropWhile_cons_of_neg (by simp [hc])]

theorem Blanks.stops (hws : Blanks ws) (hc : c ∈ [',', ']', '}']) : Stops (ws ++ c :: rest) := by
  intro d hd
  cases ws with
  | nil =>
    obtain rfl : c = d := by simpa using hd
    exact .inr hc
  | cons w ws =>
    obtain rfl : w = d := by simpa using hd
    exact .inl (hws w (by simp))

theorem isSpace_of_isDigit (hc : c.isDigit) : isSpace c = false := by
  by_contra hspace
  simp only [isSpace, Bool.not_eq_false, Bool.or_eq_true, beq_iff_eq] at hspace
  obtain ((rfl | rfl) | rfl) | rfl := hspace <;> cases hc

theorem Spells.head (h : Spells wide v cs) : ∃ c ds, cs = c :: ds ∧ isSpace c = false ∧ c ≠ ']' := by
  cases h with
  | natural n =>
    obtain ⟨c, ds, hcs⟩ := List.exists_cons_of_ne_nil (Nat.toDigits_ne_nil (b := 10) (n := n))
    have hc : c.isDigit := Decimal.isDigit_toDigits (n := n) (by simp [hcs])
    refine ⟨c, ds, hcs, isSpace_of_isDigit hc, ?_⟩
    rintro rfl
    cases hc
  | str s => exact ⟨'"', s.toList.flatMap escapeChar ++ ['"'], by simp [stringText], rfl, by decide⟩
  | _ => exact ⟨_, _, rfl, rfl, by decide⟩

theorem SpellsItems.head (h : SpellsItems wide vs cs) : ∃ c ds, cs = c :: ds ∧ isSpace c = false ∧ c ≠ ']' := by
  cases h with
  | last h =>
    obtain ⟨c, ds, rfl, hc⟩ := h.head
    exact ⟨c, _, rfl, hc⟩
  | more h =>
    obtain ⟨c, ds, rfl, hc⟩ := h.head
    exact ⟨c, _, rfl, hc⟩

theorem toList_stringText (s : String) :
    (stringText s).toList = '"' :: (s.toList.flatMap escapeChar ++ ['"']) := by
  simp [stringText]

theorem SpellsKey.head (h : SpellsKey k cs) : ∃ ds, cs = '"' :: ds := by
  cases h
  rw [toList_stringText]
  exact ⟨_, rfl⟩

theorem SpellsEntries.head (h : SpellsEntries wide es cs) : ∃ ds, cs = '"' :: ds := by
  cases h with
  | last hk =>
    obtain ⟨ds, rfl⟩ := hk.head
    exact ⟨_, rfl⟩
  | more hk =>
    obtain ⟨ds, rfl⟩ := hk.head
    exact ⟨_, rfl⟩

/-- A new key is put behind the others. -/
theorem put_of_new (h : k ∉ es.map (·.1)) : Value.put k v es = es ++ [(k, v)] := by
  induction es with
  | nil => rfl
  | cons e es ih =>
    rw [List.map_cons, List.mem_cons, not_or] at h
    rw [Value.put, if_neg (by simpa using Ne.symm h.1), ih h.2, List.cons_append]

/-! ### Reading what is spelled -/

/-- The value is read off what spells it. -/
def Reads (wide : Wide) (v : Value) (cs : List Char) : Prop :=
  ∀ ⦃fuel depth ws rest⦄, v.depth ≤ depth → cs.length ≤ fuel → Blanks ws → Stops rest →
    value? wide fuel depth (ws ++ (cs ++ rest)) = some (v, rest)

def ReadsItems (wide : Wide) (vs : List Value) (cs : List Char) : Prop :=
  ∀ ⦃fuel depth ws rest⦄, Value.depthOfItems vs ≤ depth → cs.length ≤ fuel → Blanks ws →
    items? wide fuel depth (ws ++ (cs ++ rest)) = some (vs, rest)

/-- The entries are read and put behind others with other keys. -/
def ReadsEntries (wide : Wide) (es : List (String × Value)) (cs : List Char) : Prop :=
  ∀ ⦃fuel depth before ws rest⦄, Value.depthOfEntries es ≤ depth → cs.length ≤ fuel → Blanks ws →
    ((before ++ es).map (·.1)).Nodup → entries? wide fuel depth before (ws ++ (cs ++ rest)) = some (before ++ es, rest)

theorem value?_blanks (hws : Blanks ws) (hc : isSpace c = false) :
    value? wide (fuel + 1) depth (ws ++ c :: cs) = value? wide (fuel + 1) depth (c :: cs) := by
  have hskip : skipSpace (c :: cs) = c :: cs := skipSpace_blanks blanks_nil hc
  rw [value?, value?, skipSpace_blanks hws hc, hskip]

theorem value?_quote (hws : Blanks ws) :
    value? wide (fuel + 1) depth (ws ++ '"' :: cs) = (string? cs).map fun r => (.str r.1, r.2) := by
  rw [value?, skipSpace_blanks hws rfl]
  rfl

theorem value?_minus (hws : Blanks ws) :
    value? wide (fuel + 1) depth (ws ++ '-' :: cs) = number? wide true cs := by
  rw [value?, skipSpace_blanks hws rfl]
  rfl

theorem value?_digit (hws : Blanks ws) (hc : c.isDigit) :
    value? wide (fuel + 1) depth (ws ++ c :: cs) = number? wide false (c :: cs) := by
  rw [value?, skipSpace_blanks hws (isSpace_of_isDigit hc)]
  -- no digit is the first character of anything else
  split <;> rename_i heq
  case h_8 => rfl
  all_goals
    cases heq
    cases hc

theorem value?_bracket (hws : Blanks ws) :
    value? wide (fuel + 1) (depth + 1) (ws ++ '[' :: cs) =
      match skipSpace cs with
      | ']' :: cs => some (.list [], cs)
      | cs => (items? wide fuel depth cs).map fun r => (.list r.1, r.2) := by
  rw [value?, skipSpace_blanks hws rfl]
  rfl

theorem value?_brace (hws : Blanks ws) :
    value? wide (fuel + 1) (depth + 1) (ws ++ '{' :: cs) =
      match skipSpace cs with
      | '}' :: cs => some (.table [], cs)
      | cs => (entries? wide fuel depth [] cs).map fun r => (.table r.1, r.2) := by
  rw [value?, skipSpace_blanks hws rfl]
  rfl

theorem reads_literal {word : List Char} (hc : isSpace c = false)
    (hread : ∀ fuel depth cs, value? wide (fuel + 1) depth (c :: cs) = literal? word v cs) :
    Reads wide v (c :: word) := by
  intro fuel depth ws rest _ hfuel hws _
  obtain _ | fuel := fuel
  · simp at hfuel
  rw [List.cons_append, value?_blanks hws hc, hread, literal?, if_pos (by simp), List.drop_left]

theorem reads_natural (hfits : wide = .keep ∨ intFits n) : Reads wide (.int n) (Nat.toDigits 10 n) := by
  intro fuel depth ws rest _ hfuel hws hrest
  obtain ⟨c, ds, hcs⟩ := List.exists_cons_of_ne_nil (Nat.toDigits_ne_nil (b := 10) (n := n))
  have hc : c.isDigit := Decimal.isDigit_toDigits (n := n) (by simp [hcs])
  have hnumber : number? wide false (Nat.toDigits 10 n ++ rest) = some (.int n, rest) :=
    number?_toDigits hrest rfl hfits
  obtain _ | fuel := fuel
  · simp [hcs] at hfuel
  rw [hcs, List.cons_append] at hnumber ⊢
  rw [value?_digit hws hc, hnumber]

theorem reads_negative (hfits : wide = .keep ∨ intFits (-n)) :
    Reads wide (.int (-n)) ('-' :: Nat.toDigits 10 n) := by
  intro fuel depth ws rest _ hfuel hws hrest
  obtain _ | fuel := fuel
  · simp at hfuel
  rw [List.cons_append, value?_minus hws, number?_toDigits hrest rfl hfits]
  rfl

theorem reads_str (s : String) : Reads wide (.str s) (stringText s).toList := by
  intro fuel depth ws rest _ hfuel hws _
  rw [toList_stringText] at hfuel ⊢
  obtain _ | fuel := fuel
  · simp at hfuel
  rw [List.cons_append, List.append_assoc, List.singleton_append, value?_quote hws, string?_flatMap]
  rfl

theorem reads_nil (hws : Blanks ws) : Reads wide (.list []) ('[' :: (ws ++ [']'])) := by
  intro fuel depth ws' rest hdepth hfuel hws' _
  obtain _ | fuel := fuel
  · simp at hfuel
  obtain _ | depth := depth
  · cases hdepth
  rw [List.cons_append, List.append_assoc, List.singleton_append, value?_bracket hws', skipSpace_blanks hws rfl]
  rfl

theorem reads_list (hws : Blanks ws) (h : SpellsItems wide vs cs) (hread : ReadsItems wide vs cs) :
    Reads wide (.list vs) ('[' :: (ws ++ cs)) := by
  intro fuel depth ws' rest hdepth hfuel hws' _
  obtain ⟨c, ds, rfl, hc, hclose⟩ := h.head
  obtain _ | fuel := fuel
  · simp at hfuel
  obtain _ | depth := depth
  · cases hdepth
  have hitems : items? wide fuel depth (c :: (ds ++ rest)) = some (vs, rest) := by
    rw [Value.depth] at hdepth
    simp only [List.length_cons, List.length_append] at hfuel
    exact hread (by omega) (by simp only [List.length_cons]; omega) blanks_nil
  rw [List.cons_append, List.append_assoc, value?_bracket hws', List.cons_append, skipSpace_blanks hws hc]
  split
  · next heq => exact absurd (List.cons.inj heq).1 hclose
  · rw [hitems]
    rfl

theorem reads_empty (hws : Blanks ws) : Reads wide (.table []) ('{' :: (ws ++ ['}'])) := by
  intro fuel depth ws' rest hdepth hfuel hws' _
  obtain _ | fuel := fuel
  · simp at hfuel
  obtain _ | depth := depth
  · cases hdepth
  rw [List.cons_append, List.append_assoc, List.singleton_append, value?_brace hws', skipSpace_blanks hws rfl]
  rfl

theorem reads_table (hkeys : (es.map (·.1)).Nodup) (hws : Blanks ws) (h : SpellsEntries wide es cs)
    (hread : ReadsEntries wide es cs) : Reads wide (.table es) ('{' :: (ws ++ cs)) := by
  intro fuel depth ws' rest hdepth hfuel hws' _
  obtain ⟨ds, rfl⟩ := h.head
  obtain _ | fuel := fuel
  · simp at hfuel
  obtain _ | depth := depth
  · cases hdepth
  have hentries : entries? wide fuel depth [] ('"' :: (ds ++ rest)) = some (es, rest) := by
    rw [Value.depth] at hdepth
    simp only [List.length_cons, List.length_append] at hfuel
    exact hread (by omega) (by simp only [List.length_cons]; omega) blanks_nil hkeys
  rw [List.cons_append, List.append_assoc, value?_brace hws', List.cons_append, skipSpace_blanks hws rfl]
  split
  · next heq => cases heq
  · rw [hentries]
    rfl

theorem readsItems_last (h : Reads wide v cs) (hws : Blanks ws) : ReadsItems wide [v] (cs ++ (ws ++ [']'])) := by
  intro fuel depth ws' rest hdepth hfuel hws'
  rw [Value.depthOfItems] at hdepth
  simp only [List.length_append, List.length_cons] at hfuel
  obtain _ | fuel := fuel
  · omega
  rw [items?, List.append_assoc, List.append_assoc, List.singleton_append,
    h (by omega) (by omega) hws' (hws.stops (by simp))]
  simp only [Option.bind_eq_bind, Option.bind_some]
  rw [skipSpace_blanks hws rfl]
  rfl

theorem readsItems_more {ws' ds : List Char} (h : Reads wide v cs) (hws : Blanks ws) (hws' : Blanks ws')
    (hvs : ReadsItems wide vs ds) : ReadsItems wide (v :: vs) (cs ++ (ws ++ ',' :: (ws' ++ ds))) := by
  intro fuel depth ws₀ rest hdepth hfuel hws₀
  rw [Value.depthOfItems] at hdepth
  simp only [List.length_append, List.length_cons] at hfuel
  obtain _ | fuel := fuel
  · omega
  rw [items?, List.append_assoc, List.append_assoc, List.cons_append, List.append_assoc,
    h (by omega) (by omega) hws₀ (hws.stops (by simp))]
  simp only [Option.bind_eq_bind, Option.bind_some]
  rw [skipSpace_blanks hws rfl]
  change (items? wide fuel depth (ws' ++ (ds ++ rest))).bind _ = _
  rw [hvs (by omega) (by omega) hws']
  rfl

/-- How the entries of a table are read up to what follows the first value. -/
theorem entries?_entry (hk : SpellsKey k ks) (h : Reads wide v cs) (hdepth : v.depth ≤ depth)
    (hfuel : cs.length ≤ fuel) (hws : Blanks ws) (hrest : Stops rest) :
    entries? wide (fuel + 1) depth before (ws ++ (ks ++ (cs ++ rest))) =
      match skipSpace rest with
      | ',' :: rest => entries? wide fuel depth (Value.put k v before) rest
      | '}' :: rest => some (Value.put k v before, rest)
      | _ => none := by
  cases hk with
  | @mk ws₁ ws₂ hws₁ hws₂ =>
    rw [toList_stringText, entries?]
    simp only [List.cons_append, List.append_assoc, List.nil_append]
    rw [skipSpace_blanks hws rfl]
    change (string? (k.toList.flatMap escapeChar ++ '"' :: (ws₁ ++ ':' :: (ws₂ ++ (cs ++ rest))))).bind _ = _
    rw [string?_flatMap]
    simp only [Option.bind_some]
    rw [skipSpace_blanks hws₁ rfl]
    change (value? wide fuel depth (ws₂ ++ (cs ++ rest))).bind _ = _
    rw [h hdepth hfuel hws₂ hrest]
    rfl

theorem readsEntries_last (hk : SpellsKey k ks) (h : Reads wide v cs) (hws : Blanks ws) :
    ReadsEntries wide [(k, v)] (ks ++ (cs ++ (ws ++ ['}']))) := by
  intro fuel depth before ws' rest hdepth hfuel hws' hkeys
  rw [Value.depthOfEntries] at hdepth
  simp only [List.length_append, List.length_cons] at hfuel
  have hnew : k ∉ before.map (·.1) := by
    rw [List.map_append, List.nodup_append] at hkeys
    exact fun hk => hkeys.2.2 k hk k (by simp) rfl
  obtain _ | fuel := fuel
  · omega
  rw [List.append_assoc, List.append_assoc, List.append_assoc, List.singleton_append,
    entries?_entry hk h (by omega) (by omega) hws' (hws.stops (by simp)), skipSpace_blanks hws rfl]
  rw [put_of_new hnew]
  rfl

theorem readsEntries_more {ws' ds : List Char} (hk : SpellsKey k ks) (h : Reads wide v cs) (hws : Blanks ws)
    (hws' : Blanks ws') (hes : ReadsEntries wide es ds) :
    ReadsEntries wide ((k, v) :: es) (ks ++ (cs ++ (ws ++ ',' :: (ws' ++ ds)))) := by
  intro fuel depth before ws₀ rest hdepth hfuel hws₀ hkeys
  rw [Value.depthOfEntries] at hdepth
  simp only [List.length_append, List.length_cons] at hfuel
  have hnew : k ∉ before.map (·.1) := by
    rw [List.map_append, List.nodup_append] at hkeys
    exact fun hk => hkeys.2.2 k hk k (by simp) rfl
  rw [List.append_cons] at hkeys
  obtain _ | fuel := fuel
  · omega
  rw [List.append_assoc, List.append_assoc, List.append_assoc, List.cons_append, List.append_assoc,
    entries?_entry hk h (by omega) (by omega) hws₀ (hws.stops (by simp)), skipSpace_blanks hws rfl]
  change entries? wide fuel depth (Value.put k v before) (ws' ++ (ds ++ rest)) = _
  rw [put_of_new hnew, hes (by omega) (by omega) hws' hkeys, ← List.append_cons]

/-- What spells a value is read as it. -/
theorem Spells.read (h : Spells wide v cs) : Reads wide v cs := by
  refine @Spells.rec wide (fun v cs _ => Reads wide v cs) (fun vs cs _ => ReadsItems wide vs cs)
    (fun es cs _ => ReadsEntries wide es cs) ?null ?yes ?no ?natural ?negative ?str ?nil ?list ?empty ?table
    ?lastItem ?item ?lastEntry ?entry v cs h
  case null => exact reads_literal rfl fun _ _ _ => rfl
  case yes => exact reads_literal rfl fun _ _ _ => rfl
  case no => exact reads_literal rfl fun _ _ _ => rfl
  case natural => exact fun n hfits => reads_natural hfits
  case negative => exact fun n hfits => reads_negative hfits
  case str => exact reads_str
  case nil => exact reads_nil
  case list => exact reads_list
  case empty => exact reads_empty
  case table => exact reads_table
  case lastItem => exact fun _ hws h => readsItems_last h hws
  case item => exact fun _ hws hws' _ h hvs => readsItems_more h hws hws' hvs
  case lastEntry => exact fun hk _ hws h => readsEntries_last hk h hws
  case entry => exact fun hk _ hws hws' _ h hes => readsEntries_more hk h hws hws' hes

/-- A document that spells a value amid blanks is parsed as it. -/
theorem parse?_spelled {ws' : List Char} (h : Spells wide v cs) (hdepth : v.depth ≤ maxDepth) (hws : Blanks ws)
    (hws' : Blanks ws') (hs : s.toList = ws ++ (cs ++ ws')) : parse? wide s = some v := by
  have hskip : skipSpace ws' = [] := List.dropWhile_eq_nil_iff.2 hws'
  have hlength : cs.length ≤ s.toList.length + 1 := by
    simp only [hs, List.length_append]
    omega
  have hstop : Stops ws' := fun c hc => .inl (hws' c (List.mem_of_mem_head? hc))
  have hread := h.read hdepth hlength hws hstop
  rw [← hs] at hread
  simp [parse?, hread, hskip]

end Stencil.Data.Json
