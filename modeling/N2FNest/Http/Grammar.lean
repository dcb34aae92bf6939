import N2FNest.Http.Containers

/-! The parser against the grammar of RFC 8259: what it reads is a tree of the
grammar within its limits, every such tree is read, and every parse ends. -/

namespace N2FNest.Http

open Lib Shared
open Json (Written Blanks NumberText Stops quoteMark quoted)

namespace Parser

private theorem height_pos (tree : Written) : 0 < tree.height := by
  cases tree <;> simp [Written.height]

private theorem literal_sound {word : String} {value read : JsValue} {text rest : List UInt16}
    (accepted : literal word value text = .ok (read, rest)) :
    read = value ∧ text = (js word).units ++ rest := by
  unfold literal at accepted
  split at accepted
  · rename_i start
    cases accepted
    exact ⟨rfl, (List.prefix_iff_eq_append.mp start).symm⟩
  · cases accepted

private theorem literal_complete (word : String) (value : JsValue) (rest : List UInt16) :
    literal word value ((js word).units ++ rest) = .ok (value, rest) := by
  rw [literal, if_pos (List.prefix_append ..), List.drop_left]

private theorem number_sound {value : JsValue} {text rest : List UInt16}
    (read : number text = .ok (value, rest)) : ∃ written : NumberText,
      text = written.text ++ rest ∧ (Written.number written).value = value ∧
        FiniteNumber written := by
  unfold number at read
  split at read
  · rename_i scanned
    obtain ⟨written, same, rfl⟩ := Json.scanNumeral_sound scanned
    split at read
    · rename_i finite
      cases read
      exact ⟨written, same, rfl, finite⟩
    · cases read
  · cases read

private theorem number_complete {written : NumberText} {rest : List UInt16}
    (finite : FiniteNumber written) (stop : Stops rest) :
    number (written.text ++ rest) = .ok (.number written.numeral.number, rest) := by
  rw [number, Json.scanNumeral_text written stop]
  exact if_pos finite

section Value

variable {levels : Nat} (reads : Reads (value levels) levels)

include reads

private theorem shown_sound {text rest : List UInt16} {result : JsValue}
    (read : value (levels + 1) text = .ok (result, rest)) : ∃ tree : Written,
      ws text = tree.text ++ rest ∧ tree.value = result ∧ tree.height ≤ levels + 1 ∧
        Strict tree := by
  rw [value] at read
  dsimp only at read
  split at read
  · obtain ⟨⟨fields, _⟩, found, finish⟩ := bind_ok read
    cases Except.ok.inj finish
    exact object_sound reads found
  · split at read
    · obtain ⟨⟨items, _⟩, found, finish⟩ := bind_ok read
      cases Except.ok.inj finish
      exact array_sound reads found
    · split at read
      · obtain ⟨⟨text, _⟩, found, finish⟩ := bind_ok read
        cases Except.ok.inj finish
        obtain ⟨pieces, same, rfl, closed⟩ := string_sound found
        exact ⟨.string pieces, same, rfl, Nat.le_add_left 1 levels, closed⟩
      · split at read
        · obtain ⟨rfl, same⟩ := literal_sound read
          exact ⟨.bool true, same, rfl, Nat.le_add_left 1 levels, trivial⟩
        · split at read
          · obtain ⟨rfl, same⟩ := literal_sound read
            exact ⟨.bool false, same, rfl, Nat.le_add_left 1 levels, trivial⟩
          · split at read
            · obtain ⟨rfl, same⟩ := literal_sound read
              exact ⟨.null, same, rfl, Nat.le_add_left 1 levels, trivial⟩
            · obtain ⟨written, same, rfl, finite⟩ := number_sound read
              exact ⟨.number written, same, rfl, Nat.le_add_left 1 levels, finite⟩

private theorem shown_complete {text rest : List UInt16} {tree : Written}
    (shown : ws text = tree.text ++ rest) (height : tree.height ≤ levels + 1)
    (strict : Strict tree) (stop : Stops rest) :
    value (levels + 1) text = .ok (tree.value, rest) := by
  rw [value]
  simp only [shown]
  cases tree with
  | null => exact literal_complete "null" .null rest
  | bool value => cases value with
    | true => exact literal_complete "true" (.bool true) rest
    | false => exact literal_complete "false" (.bool false) rest
  | number written =>
    obtain ⟨first, more, same, start⟩ := written.head
    have other : ∀ unit, unit ≠ 0x2D ∧ Decimal.isDigit unit = false →
        peek ((Written.number written).text ++ rest) ≠ some unit := by
      intro unit apart
      rw [Written.text, same]
      exact fun peeked => number_start start unit apart (Option.some.inj peeked)
    rw [if_neg (other _ (by decide)), if_neg (other _ (by decide)), if_neg (other _ (by decide)),
      if_neg (other _ (by decide)), if_neg (other _ (by decide)), if_neg (other _ (by decide))]
    exact number_complete strict stop
  | string pieces =>
    have read : string ((Written.string pieces).text ++ rest) = _ := string_complete strict rest
    rw [read]
    rfl
  | emptyArray inside =>
    have read := array_empty (value levels) inside rest
    simp only [Written.text, List.cons_append, List.append_assoc, List.nil_append, read]
    rfl
  | array elements =>
    have read := array_complete reads rest (Nat.le_of_succ_le_succ height) strict
    simp only [Written.text, List.cons_append, read]
    rfl
  | emptyObject inside =>
    have read := object_empty (value levels) inside rest
    simp only [Written.text, List.cons_append, List.append_assoc, List.nil_append, read]
    rfl
  | object members =>
    have read := object_complete reads rest (Nat.le_of_succ_le_succ height) strict.1 strict.2
    simp only [Written.text, List.cons_append, read]
    rfl

private theorem value_ends (text : List UInt16) : Ends (value (levels + 1) text) := by
  rw [value]
  dsimp only
  split
  · exact (object_ends reads _).bind fun _ _ => ends_ok _
  · split
    · exact (array_ends reads _).bind fun _ _ => ends_ok _
    · split
      · exact (ends_string _).bind fun _ _ => ends_ok _
      · split
        · exact ends_literal _ _ _
        · split
          · exact ends_literal _ _ _
          · split
            · exact ends_literal _ _ _
            · exact ends_number _

end Value

/-- With `levels` levels left, a value is read exactly if it has no more of them. -/
theorem value_reads (levels : Nat) : Reads (value levels) levels := by
  induction levels with
  | zero =>
    refine ⟨fun read => (nomatch read), ?_, fun _ => ends_malformed, fun _ => rfl⟩
    intro before tree rest height
    exact absurd (height_pos tree) (Nat.not_lt.mpr height)
  | succ levels reads =>
    refine ⟨?_, ?_, value_ends reads, ?_⟩
    · intro text result rest read
      obtain ⟨tree, same, facts⟩ := shown_sound reads read
      refine ⟨Json.leadingBlanks text, tree, ?_, facts⟩
      rw [← same]
      exact (Json.leadingBlanks_append text).symm
    · intro before tree rest height strict stop
      obtain ⟨first, more, same, dark, _⟩ := tree_head tree
      refine shown_complete reads ?_ height strict stop
      rw [same, List.cons_append, ws_blanks before dark]
    · intro text
      rw [value, value, ws_ws]

private theorem parseDocument_sound {text : List UInt16} {fields : JsObject}
    (parsed : parseDocument text = .ok fields) : ∃ (before : Blanks) (tree : Written) (behind : Blanks),
      text = before.units ++ (tree.text ++ behind.units) ∧ tree.value = .object fields ∧
        tree.height ≤ maxDepth ∧ Strict tree := by
  unfold parseDocument at parsed
  split at parsed
  · obtain ⟨⟨found, rest⟩, read, parsed⟩ := bind_ok parsed
    dsimp only at parsed
    split at parsed
    · rename_i ended
      cases Except.ok.inj parsed
      obtain ⟨tree, same, value, height, strict⟩ := object_sound (value_reads _) read
      have blanks := Json.leadingBlanks_append rest
      have none : Json.skipBlanks rest = [] := ended
      rw [none, List.append_nil] at blanks
      refine ⟨Json.leadingBlanks text, tree, Json.leadingBlanks rest, ?_, value, height, strict⟩
      rw [blanks, ← same]
      exact (Json.leadingBlanks_append text).symm
    · cases parsed
  · cases parsed

private theorem parseDocument_complete (before behind : Blanks) {tree : Written} {fields : JsObject}
    (object_ : tree.value = .object fields) (height : tree.height ≤ maxDepth) (strict : Strict tree) :
    parseDocument (before.units ++ (tree.text ++ behind.units)) = .ok fields := by
  have ended : ws behind.units = [] := by
    have stop : ∀ unit ∈ ([] : List UInt16).head?, Json.isBlank unit = false := nofun
    have blanks := Json.skipBlanks_units behind stop
    rwa [List.append_nil] at blanks
  obtain ⟨first, more, same, dark, _⟩ := tree_head tree
  have shown : ws (before.units ++ (tree.text ++ behind.units)) = tree.text ++ behind.units := by
    rw [same, List.cons_append, ws_blanks before dark]
  have read : peek (tree.text ++ behind.units) = some 0x7B ∧
      object (value (maxDepth - 1)) (tree.text ++ behind.units) = .ok (fields, behind.units) := by
    cases tree with
    | emptyObject inside =>
      cases object_
      refine ⟨rfl, ?_⟩
      rw [Written.text, List.cons_append, List.append_assoc, List.singleton_append]
      exact object_empty _ inside behind.units
    | object members =>
      cases object_
      refine ⟨rfl, ?_⟩
      rw [Written.text, List.cons_append]
      exact object_complete (value_reads _) behind.units (Nat.le_of_succ_le_succ height) strict.1
        strict.2
    | _ => cases object_
  rw [parseDocument, shown, if_pos read.1, read.2, ok_bind]
  exact if_pos ended

private theorem parseDocument_ends (text : List UInt16) : Ends (parseDocument text) := by
  unfold parseDocument
  split
  · refine (object_ends (value_reads _) _).bind ?_
    rintro ⟨fields, rest⟩ _
    dsimp only
    split
    · exact ends_ok _
    · exact ends_malformed
  · exact ends_malformed

end Parser

/-- What a body has to be, with the members it denotes: UTF-8 of at most a
megabyte, behind a byte order mark if there is one an object of the grammar among
blanks, no deeper than `maxDepth` and within the rules of `Strict`. -/
structure Accepted (bytes : List UInt8) (fields : JsObject) : Prop where
  short : bytes.length ≤ 1048576
  object : ∃ (characters : List Char) (before : Blanks) (tree : Written) (behind : Blanks),
    stripBom bytes = utf8 characters ∧
      Utf16.encode characters = before.units ++ (tree.text ++ behind.units) ∧
      tree.value = .object fields ∧ tree.height ≤ maxDepth ∧ Strict tree

private theorem decodeObject_sound {bytes : List UInt8} {fields : JsObject}
    (decoded : decodeObject bytes = some (.ok fields)) : Accepted bytes fields := by
  unfold decodeObject at decoded
  split at decoded
  · cases decoded
  · rename_i short
    split at decoded
    · cases decoded
    · rename_i text read
      split at decoded
      · rename_i found parsed
        cases decoded
        obtain ⟨characters, bytes_eq, rfl⟩ := decodeUtf8_eq_some.mp read
        obtain ⟨before, tree, behind, same, facts⟩ := Parser.parseDocument_sound parsed
        exact ⟨Nat.not_lt.mp short, characters, before, tree, behind, bytes_eq, same, facts⟩
      · cases decoded
      · cases decoded

private theorem decodeObject_complete {bytes : List UInt8} {fields : JsObject}
    (accepted : Accepted bytes fields) : decodeObject bytes = some (.ok fields) := by
  obtain ⟨characters, before, tree, behind, bytes_eq, same, object_, height, strict⟩ :=
    accepted.object
  have read := decodeUtf8_eq_some.mpr ⟨characters, bytes_eq, rfl⟩
  have parsed := Parser.parseDocument_complete before behind object_ height strict
  rw [decodeObject, if_neg (Nat.not_lt.mpr accepted.short), read]
  dsimp only
  rw [same, parsed]

private theorem decodeObject_cases (bytes : List UInt8) :
    decodeObject bytes = some (.error invalidBody) ∨ ∃ fields, decodeObject bytes = some (.ok fields) := by
  unfold decodeObject
  split
  · exact .inl rfl
  · split
    · exact .inl rfl
    · rename_i text _
      cases parsed : Parser.parseDocument text.units with
      | ok fields => exact .inr ⟨fields, rfl⟩
      | error halt => cases halt with
        | malformed => exact .inl rfl
        | unfinished => exact absurd parsed (Parser.parseDocument_ends text.units)

/-- The decoder returns exactly what an acceptable body denotes, and otherwise
refuses the body; on every body it comes to an end. -/
theorem decodeObject_accepts_grammar (bytes : List UInt8) :
    (∀ fields, decodeObject bytes = some (.ok fields) ↔ Accepted bytes fields) ∧
      (decodeObject bytes = some (.error invalidBody) ↔ ¬ ∃ fields, Accepted bytes fields) := by
  have exact_ : ∀ fields, decodeObject bytes = some (.ok fields) ↔ Accepted bytes fields :=
    fun _ => ⟨decodeObject_sound, decodeObject_complete⟩
  refine ⟨exact_, ?_⟩
  constructor
  · rintro refused ⟨fields, accepted⟩
    exact nomatch refused.symm.trans ((exact_ fields).mpr accepted)
  · intro none
    rcases decodeObject_cases bytes with refused | ⟨fields, decoded⟩
    · exact refused
    · exact absurd ⟨fields, (exact_ fields).mp decoded⟩ none

end N2FNest.Http
