import Stencil.Collect.Record
import Stencil.Proofs.Data.Compact

/-!
Streams of records. What is read of a stream is what was written to it, also if lines that hold no record stand
in between: each of them is reported with its number, and the others are read as if it was not there.
-/
namespace Stencil.Collect
open Data Observed

variable {r : Record} {l : List UInt8}

/-! ### Records -/

namespace Record

/-- Holds of records whose call has a line and whose numbers can be written. -/
structure Sound (r : Record) : Prop where
  line : 1 ≤ r.line
  versionFits : Json.intFits r.version
  lineFits : Json.intFits r.line

theorem check_variableValue (v : Variable) : checkVariable (variableValue v) = .ok v := by
  have hmodules : Checked.items Value.asString 0 (v.modules.map .str) = .ok v.modules :=
    Checked.items_map (fun s _ => (rfl : Value.asString (.str s) = .ok s)) 0
  simp [variableValue, checkVariable, Fields.required, Fields.optional, List.lookup_cons, hmodules, Value.asString, Value.asList,
    Checked.both, Checked.under, Except.mapError]

theorem check_toValue (h : 1 ≤ r.line) : check r.toValue = .ok r := by
  have hline : Value.asIntAtLeast 1 (.int r.line) = .ok r.line := by
    have hif : Value.asIntAtLeast 1 (.int r.line) =
        if (1 : Int) ≤ r.line then .ok r.line else .fail .greaterThanEqual := rfl
    rw [hif, if_pos h]
  obtain ⟨version, file, template, line, passed⟩ := r
  cases passed with
  | none =>
    simp [toValue, check, checkFields, checkCall, lineField, tag, renderTag, Fields.required, Fields.optional,
      List.lookup_cons, hline, Value.asString, Value.asInt, Checked.both, Checked.under, Except.mapError]
  | some vs =>
    have hvariables : Checked.items checkVariable 0 (vs.map variableValue) = .ok vs :=
      Checked.items_map (fun v _ => check_variableValue v) 0
    simp [toValue, check, checkFields, checkCall, lineField, tag, renderTag, contextTag, Fields.required,
      Fields.optional, List.lookup_cons, hline, hvariables, Value.asList, Value.asString, Value.asInt, Checked.both, Checked.under,
      Except.mapError, Except.map]

theorem plain_toValue (h : r.Sound) : r.toValue.Plain .toFloat := by
  have htexts (ss : List String) : Value.PlainItems .toFloat (ss.map .str) := by
    induction ss with
    | nil => exact trivial
    | cons s ss ih => exact ⟨trivial, ih⟩
  have hvariables (vs : List Variable) : Value.PlainItems .toFloat (vs.map variableValue) := by
    induction vs with
    | nil => exact trivial
    | cons v vs ih => exact ⟨⟨by simp, trivial, trivial, htexts v.modules, trivial⟩, ih⟩
  obtain ⟨version, file, template, line, passed⟩ := r
  cases passed with
  | none => exact ⟨by simp, .inr h.versionFits, trivial, trivial, ⟨by simp, trivial, .inr h.lineFits, trivial⟩, trivial⟩
  | some vs =>
    exact ⟨by simp, .inr h.versionFits, trivial, trivial,
      ⟨by simp, trivial, .inr h.lineFits, hvariables vs, trivial⟩, trivial⟩

theorem depth_toValue (r : Record) : r.toValue.depth ≤ Json.maxDepth := by
  have htexts (ss : List String) : Value.depthOfItems (ss.map .str) ≤ 1 := by
    induction ss with
    | nil => simp [Value.depthOfItems]
    | cons s ss ih => simpa [Value.depthOfItems, Value.depth] using ih
  have hvariables (vs : List Variable) : Value.depthOfItems (vs.map variableValue) ≤ 3 := by
    induction vs with
    | nil => simp [Value.depthOfItems]
    | cons v vs ih =>
      have := htexts v.modules
      simp only [List.map_cons, Value.depthOfItems, variableValue, Value.depth, Value.depthOfEntries]
      omega
  obtain ⟨version, file, template, line, passed⟩ := r
  cases passed with
  | none => simp [toValue, Value.depth, Value.depthOfEntries, Json.maxDepth]
  | some vs =>
    have := hvariables vs
    simp only [toValue, List.cons_append, List.nil_append, Value.depth, Value.depthOfEntries, Json.maxDepth]
    omega

/-- The text of a record, without the end of its line. -/
def text (r : Record) : String := Json.compact r.toValue

theorem encode?_sound (h : r.Sound) : r.encode? = some (r.text ++ "\n") := by
  rw [encode?, h.versionFits, h.lineFits]
  rfl

theorem decodeLine_text (h : r.Sound) : decodeLine r.text.toUTF8 = .ok r := by
  have hutf8 : String.fromUTF8? r.text.toUTF8 = some r.text := dif_pos r.text.isValidUTF8
  have hparse : Json.parse? .toFloat r.text = some r.toValue := by
    have hblank := Json.parse?_compact (plain_toValue h) (depth_toValue r) "" (by simp [Json.Blanks])
    rwa [String.append_empty] at hblank
  have hdecode : Json.decode? r.text.toUTF8 = some r.toValue := by
    rwa [Json.decode?, hutf8, Option.bind_eq_bind, Option.bind_some]
  rw [decodeLine, hdecode]
  simp [check_toValue h.line, Except.mapError]

end Record

/-! ### Bytes -/

theorem loop_eq (bytes : ByteArray) (i : Nat) (before : List UInt8) :
    ByteArray.toList.loop bytes i before = before.reverse ++ bytes.data.toList.drop i := by
  induction h : bytes.size - i generalizing i before with
  | zero =>
    have hi : ¬ i < bytes.size := by omega
    have hle : bytes.data.toList.length ≤ i := Nat.le_of_not_lt hi
    rw [ByteArray.toList.loop, if_neg hi, List.drop_eq_nil_of_le hle, List.append_nil]
  | succ n ih =>
    have hi : i < bytes.size := by omega
    have hlt : i < bytes.data.toList.length := hi
    have hget : bytes.get! i = bytes.data.toList[i] := getElem!_pos bytes.data i hlt
    rw [ByteArray.toList.loop, if_pos hi, ih (i + 1) _ (by omega), hget, List.reverse_cons, List.append_assoc,
      List.singleton_append, List.drop_eq_getElem_cons hlt]

theorem toList_eq (bytes : ByteArray) : bytes.toList = bytes.data.toList := by
  rw [ByteArray.toList, loop_eq]
  simp

/-- Holds of bytes that end no line. -/
def Inner (b : UInt8) : Prop := b ≠ 10 ∧ b ≠ 13

theorem inner_ofNat {n : Nat} (hn : n < 256) (hne : n ≠ 10 ∧ n ≠ 13) : Inner (UInt8.ofNat n) := by
  have htoNat : (UInt8.ofNat n).toNat = n := Nat.mod_eq_of_lt hn
  constructor <;>
    · intro h
      rw [h] at htoNat
      simp at htoNat
      omega

/-- Only line ends are written with the bytes that end lines. -/
theorem inner_utf8EncodeChar {c : Char} (hc : Json.Within c) : ∀ b ∈ String.utf8EncodeChar c, Inner b := by
  unfold String.utf8EncodeChar
  dsimp only
  split
  · next hsmall =>
    refine List.forall_mem_singleton.2 (inner_ofNat (by omega) ⟨fun h => hc.1 ?_, fun h => hc.2 ?_⟩)
    · exact Char.ext (UInt32.toNat_inj.1 h)
    · exact Char.ext (UInt32.toNat_inj.1 h)
  -- all bytes of other characters are large
  split
  · simp only [List.forall_mem_cons, List.not_mem_nil, false_implies, implies_true, and_true]
    exact ⟨inner_ofNat (by omega) (by omega), inner_ofNat (by omega) (by omega)⟩
  split
  · simp only [List.forall_mem_cons, List.not_mem_nil, false_implies, implies_true, and_true]
    exact ⟨inner_ofNat (by omega) (by omega), inner_ofNat (by omega) (by omega), inner_ofNat (by omega) (by omega)⟩
  · simp only [List.forall_mem_cons, List.not_mem_nil, false_implies, implies_true, and_true]
    exact ⟨inner_ofNat (by omega) (by omega), inner_ofNat (by omega) (by omega), inner_ofNat (by omega) (by omega),
      inner_ofNat (by omega) (by omega)⟩

theorem toList_toUTF8 (s : String) : s.toUTF8.toList = s.toList.flatMap String.utf8EncodeChar := by
  have hbytes : (String.ofList s.toList).toByteArray = s.toList.utf8Encode := String.toByteArray_ofList
  rw [String.ofList_toList] at hbytes
  rw [toList_eq, String.toUTF8, hbytes, List.utf8Encode, List.toList_data_toByteArray]

theorem inner_toUTF8 {s : String} (h : ∀ c ∈ s.toList, Json.Within c) : ∀ b ∈ s.toUTF8.toList, Inner b := by
  intro b hb
  rw [toList_toUTF8] at hb
  obtain ⟨c, hc, hb⟩ := List.mem_flatMap.1 hb
  exact inner_utf8EncodeChar (h c hc) b hb

theorem byteLines_append (h : ∀ b ∈ l, Inner b) (rest : List UInt8) :
    byteLines (l ++ 10 :: rest) = l :: byteLines rest := by
  induction l with
  | nil => rfl
  | cons b l ih =>
    obtain ⟨⟨hfeed, hreturn⟩, hl⟩ := List.forall_mem_cons.1 h
    rw [List.cons_append, byteLines]
    · rw [if_neg (by simp [hfeed, hreturn]), ih hl]
    · rintro _ rfl
      exact absurd rfl hreturn

/-! ### Streams -/

/-- What a stream is made of. -/
inductive Chunk
  | record (r : Record)
  /-- A line that holds no record. -/
  | stray (bytes : List UInt8)

namespace Chunk

/-- What is written for a chunk. -/
def bytes? : Chunk → Option (List UInt8)
  | record r => r.encode?.map (·.toUTF8.toList)
  | stray bs => some (bs ++ [10])

/-- Its line without the end. -/
def line : Chunk → List UInt8
  | record r => r.text.toUTF8.toList
  | stray bs => bs

def record? : Chunk → Option Record
  | record r => some r
  | stray _ => none

/-- Holds of the lines that cannot be read; blank lines are passed over. -/
def isFault : Chunk → Bool
  | record _ => false
  | stray bs => !bs.all isBlankByte

/-- Holds of records that can be written, and of lines that hold none. -/
def Proper : Chunk → Prop
  | record r => r.Sound
  | stray bs => ∀ r, decodeLine ⟨bs.toArray⟩ ≠ .ok r

end Chunk

variable {c : Chunk} {cs : List Chunk}

theorem bytes?_of_proper (h : c.Proper) : c.bytes? = some (c.line ++ [10]) := by
  cases c with
  | stray bs => rfl
  | record r =>
    have hend : (r.text ++ "\n").toUTF8.toList = r.text.toUTF8.toList ++ [10] := by
      rw [toList_toUTF8, toList_toUTF8, String.toList_append, List.flatMap_append]
      rfl
    rw [Chunk.bytes?, Record.encode?_sound h, Option.map_some, hend]
    rfl

theorem mapM_bytes? (h : ∀ c ∈ cs, c.Proper) : cs.mapM Chunk.bytes? = some (cs.map fun c => c.line ++ [10]) := by
  induction cs with
  | nil => rfl
  | cons c cs ih =>
    obtain ⟨hc, hcs⟩ := List.forall_mem_cons.1 h
    rw [List.mapM_cons, bytes?_of_proper hc, ih hcs]
    rfl

/-- The line of a record is not blank. -/
theorem not_blank_text (r : Record) : r.text.toUTF8.toList.all isBlankByte = false := by
  rw [toList_toUTF8, Record.text, Record.toValue, Json.toList_compact_table, List.flatMap_cons, List.all_append]
  rfl

theorem toArray_toList (bytes : ByteArray) : (⟨bytes.toList.toArray⟩ : ByteArray) = bytes := by
  rw [toList_eq]

/-- The numbers, from `n` on, of the lines that cannot be read. -/
def faultsFrom (n : Nat) (cs : List Chunk) : List Nat := ((cs.zipIdx n).filter (·.1.isFault)).map (·.2)

/-- What is read of the lines from `n` on. -/
theorem decodeFrom_lines (h : ∀ c ∈ cs, c.Proper) (n : Nat) :
    (decodeFrom n (cs.map fun c => ⟨c.line.toArray⟩)).filterMap (·.2.toOption) = cs.filterMap Chunk.record? ∧
    ((decodeFrom n (cs.map fun c => ⟨c.line.toArray⟩)).filterMap fun e => match e.2 with
      | .error b => some (e.1, b)
      | .ok _ => none).map (·.1) = faultsFrom n cs := by
  induction cs generalizing n with
  | nil => exact ⟨rfl, rfl⟩
  | cons c cs ih =>
    obtain ⟨hc, hcs⟩ := List.forall_mem_cons.1 h
    obtain ⟨hrecords, hfaults⟩ := ih hcs (n + 1)
    rw [List.map_cons, decodeFrom]
    cases c with
    | record r =>
      have hline : (⟨(Chunk.record r).line.toArray⟩ : ByteArray) = r.text.toUTF8 := toArray_toList _
      have hsolid : ¬ r.text.toUTF8.toList.all isBlankByte := by
        rw [not_blank_text]
        exact Bool.false_ne_true
      rw [hline, if_neg hsolid, Record.decodeLine_text hc]
      exact ⟨congrArg (r :: ·) hrecords, hfaults⟩
    | stray bs =>
      have hbytes : (⟨(Chunk.stray bs).line.toArray⟩ : ByteArray).toList = bs := toList_eq _
      cases hblank : bs.all isBlankByte with
      | true =>
        rw [hbytes, if_pos hblank]
        refine ⟨hrecords, ?_⟩
        rw [hfaults]
        simp [faultsFrom, Chunk.isFault, hblank]
      | false =>
        rw [hbytes, if_neg (by simp [hblank])]
        obtain ⟨bad, hbad⟩ : ∃ bad, decodeLine ⟨(Chunk.stray bs).line.toArray⟩ = .error bad := by
          cases hread : decodeLine ⟨(Chunk.stray bs).line.toArray⟩ with
          | ok r => exact absurd hread (hc r)
          | error bad => exact ⟨bad, rfl⟩
        rw [hbad]
        refine ⟨hrecords, (congrArg (n :: ·) hfaults).trans ?_⟩
        simp [faultsFrom, Chunk.isFault, hblank]

theorem byteLines_lines (h : ∀ c ∈ cs, c.Proper) (hinner : ∀ bs, .stray bs ∈ cs → ∀ b ∈ bs, Inner b) :
    byteLines (cs.map fun c => c.line ++ [10]).flatten = cs.map Chunk.line := by
  induction cs with
  | nil => rfl
  | cons c cs ih =>
    obtain ⟨hc, hcs⟩ := List.forall_mem_cons.1 h
    have hline : ∀ b ∈ c.line, Inner b := by
      cases c with
      | record r => exact inner_toUTF8 (Json.within_compact _ (Record.plain_toValue hc))
      | stray bs => exact hinner bs List.mem_cons_self
    have hrest := ih hcs fun bs hbs => hinner bs (List.mem_cons_of_mem c hbs)
    rw [List.map_cons, List.flatten_cons, List.append_assoc, List.singleton_append, byteLines_append hline, hrest]
    rfl

/-- What is read of the lines of a stream is what was written to it, and the lines that hold no record are reported
with their numbers, unless they are blank. The lines are where the stream is cut if none of them holds a line end. -/
theorem decode_stream (cs : List Chunk) (h : ∀ c ∈ cs, c.Proper) :
    cs.mapM Chunk.bytes? = some (cs.map fun c => c.line ++ [10]) ∧
    (decode (cs.map fun c => ⟨c.line.toArray⟩)).1 = cs.filterMap Chunk.record? ∧
    (decode (cs.map fun c => ⟨c.line.toArray⟩)).2.map (·.1) = faultsFrom 1 cs ∧
    ((∀ bs, .stray bs ∈ cs → ∀ b ∈ bs, Inner b) →
      byteLines (cs.map fun c => c.line ++ [10]).flatten = cs.map Chunk.line) := by
  obtain ⟨hrecords, hfaults⟩ := decodeFrom_lines h 1
  exact ⟨mapM_bytes? h, hrecords, hfaults, byteLines_lines h⟩

/-- A call that renders a template, and one that gives it a variable. -/
def plainCall : Record := ⟨1, "app.py", "page", 3, none⟩

def userCall : Record := ⟨1, "app.py", "page", 4, some [⟨"user", "app.User", ["app"]⟩]⟩

/-- Both calls, with a blank line, an empty table and a word around them. -/
def strewn : List Chunk :=
  [.stray [32, 9], .record plainCall, .stray [123, 125], .record userCall, .stray [111, 107]]

theorem proper_strewn : ∀ c ∈ strewn, c.Proper := by
  have hstray (bs : List UInt8) (h : (decodeLine ⟨bs.toArray⟩).toOption.isNone) : (Chunk.stray bs).Proper := by
    intro r hr
    rw [hr] at h
    cases h
  refine List.forall_mem_cons.2 ⟨hstray _ (by decide +kernel), List.forall_mem_cons.2 ⟨?_, ?_⟩⟩
  · exact ⟨by decide, by decide, by decide⟩
  refine List.forall_mem_cons.2 ⟨hstray _ (by decide +kernel), List.forall_mem_cons.2 ⟨?_, ?_⟩⟩
  · exact ⟨by decide, by decide, by decide⟩
  · exact List.forall_mem_singleton.2 (hstray _ (by decide +kernel))

/-- The two calls are read, and the table and the word are reported with their lines. -/
theorem decode_stream_strewn :
    (decode (strewn.map fun c => ⟨c.line.toArray⟩)).1 = [plainCall, userCall] ∧
    (decode (strewn.map fun c => ⟨c.line.toArray⟩)).2.map (·.1) = [3, 5] ∧
    byteLines (strewn.map fun c => c.line ++ [10]).flatten = strewn.map Chunk.line := by
  obtain ⟨-, hrecords, hfaults, hlines⟩ := decode_stream strewn proper_strewn
  refine ⟨hrecords, hfaults, hlines fun bs hbs => ?_⟩
  simp only [strewn, List.mem_cons, Chunk.stray.injEq, reduceCtorEq, List.not_mem_nil, or_false, false_or] at hbs
  obtain rfl | rfl | rfl := hbs <;>
    · unfold Inner
      decide +kernel

end Stencil.Collect
