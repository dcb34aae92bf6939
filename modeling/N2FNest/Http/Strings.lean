import N2FNest.Http.Json

/-! The strings that the parser reads are those of the grammar whose numbered
surrogates come in pairs. -/

namespace N2FNest.Http.Parser

open Lib Shared
open Json (quoteMark backslash Piece paired quoted unquoted)

/-- Pieces that close whatever pair they open. -/
private def Closed (pieces : List Piece) : Prop := ∀ later, paired (pieces ++ later) = paired later

private theorem closed_single {piece : Piece}
    (alone : piece.numbered?.any Utf16.isSurrogate = false) : Closed [piece] := by
  have start : piece.numbered?.any Utf16.isHigh = false := by
    cases number : piece.numbered? with
    | none => rfl
    | some unit =>
      rw [number] at alone
      exact (Bool.or_eq_false_iff.mp alone).1
  intro later
  cases later with
  | nil => simp [paired, alone]
  | cons next rest => simp [paired, alone, start]

private theorem closed_pair {first second : Piece} (opening : first.numbered?.any Utf16.isHigh = true)
    (closing : second.numbered?.any Utf16.isLow = true) : Closed [first, second] := by
  intro later
  simp [paired, opening, closing]

private theorem escape_sound {text rest : List UInt16} {units : List UInt16}
    (read : escape text = .ok (units, rest)) : ∃ pieces : List Piece,
      backslash :: text = pieces.flatMap Piece.text ++ rest ∧ units = pieces.map Piece.unit ∧
        Closed pieces := by
  rcases escape_ok read with ⟨letter, value, rfl, known, rfl⟩ |
    ⟨value, more, rfl, first, upper, lower, rfl⟩ |
    ⟨high, low, more, later, rfl, first, second, upper, lower, rfl⟩
  · exact ⟨[.short letter value known], rfl, rfl, closed_single rfl⟩
  · obtain ⟨a, b, c, d, rfl, known⟩ := unit_ok.mp first
    refine ⟨[.unicode a b c d value known], rfl, rfl, closed_single ?_⟩
    exact Bool.or_eq_false_iff.mpr ⟨upper, lower⟩
  · obtain ⟨a, b, c, d, rfl, known⟩ := unit_ok.mp first
    obtain ⟨e, f, g, h, rfl, known'⟩ := unit_ok.mp second
    exact ⟨[.unicode a b c d high known, .unicode e f g h low known'], rfl, rfl,
      closed_pair upper lower⟩

private theorem characters_sound {text rest units : List UInt16}
    (read : characters text = .ok (units, rest)) : ∃ pieces : List Piece,
      text = pieces.flatMap Piece.text ++ quoteMark :: rest ∧ units = pieces.map Piece.unit ∧
        paired pieces = true := by
  fun_induction characters text generalizing units with
  | case1 => cases read
  | case2 rest =>
    cases read
    exact ⟨[], rfl, rfl, rfl⟩
  | case3 => cases read
  | case4 character text mark printable plain ih =>
    obtain ⟨⟨later, left⟩, more, finish⟩ := bind_ok read
    cases Except.ok.inj finish
    obtain ⟨pieces, rfl, rfl, closed⟩ := ih more
    refine ⟨.plain character ⟨mark, plain, printable⟩ :: pieces, rfl, rfl, ?_⟩
    exact (closed_single rfl pieces).trans closed
  | case5 => cases read
  | case6 character text _ _ slash units more escaped ih =>
    obtain ⟨⟨later, left⟩, behind, finish⟩ := bind_ok read
    cases Except.ok.inj finish
    obtain ⟨first, same, rfl, opened⟩ := escape_sound escaped
    obtain ⟨pieces, rfl, rfl, closed⟩ := ih behind
    refine ⟨first ++ pieces, ?_, ?_, (opened pieces).trans closed⟩
    · rw [not_not.mp slash, same, List.flatMap_append, List.append_assoc]
    · rw [List.map_append]

private theorem characters_plain {character : UInt16} {text units rest : List UInt16}
    (allowed : character ≠ quoteMark ∧ character ≠ backslash ∧ ¬ character < 0x20)
    (read : characters text = .ok (units, rest)) :
    characters (character :: text) = .ok (character :: units, rest) := by
  rw [characters, if_neg allowed.1, if_neg allowed.2.2, if_pos allowed.2.1, read]
  rfl

private theorem characters_escape {text more units later rest : List UInt16}
    (escaped : escape text = .ok (units, more)) (read : characters more = .ok (later, rest)) :
    characters (backslash :: text) = .ok (units ++ later, rest) := by
  rw [characters, if_neg (by decide), if_neg (by decide), if_neg (fun other => other rfl)]
  split
  · rename_i failed
    cases failed.symm.trans escaped
  · rename_i same
    cases same.symm.trans escaped
    rw [read]
    rfl

private theorem escape_numbered {text rest : List UInt16} {value : UInt16}
    (read : unit text = .ok (value, rest)) (alone : Utf16.isSurrogate value = false) :
    escape (0x75 :: text) = .ok ([value], rest) := by
  obtain ⟨upper, lower⟩ := Bool.or_eq_false_iff.mp alone
  have letter : Json.escape? 0x75 = none := by decide
  simp [escape, letter, read, upper, lower]

private theorem escape_pair {text later rest : List UInt16} {high low : UInt16}
    (first : unit text = .ok (high, backslash :: 0x75 :: later))
    (second : unit later = .ok (low, rest)) (upper : Utf16.isHigh high = true)
    (lower : Utf16.isLow low = true) : escape (0x75 :: text) = .ok ([high, low], rest) := by
  have letter : Json.escape? 0x75 = none := by decide
  simp [escape, letter, first, second, upper, lower, expect]

/-- A piece that is no numbered surrogate is read by itself. -/
private theorem characters_single {piece : Piece} {text units rest : List UInt16}
    (alone : piece.numbered?.any Utf16.isSurrogate = false)
    (read : characters text = .ok (units, rest)) :
    characters (piece.text ++ text) = .ok (piece.unit :: units, rest) := by
  cases piece with
  | plain character allowed => exact characters_plain allowed read
  | short letter value known =>
    have escaped : escape (letter :: text) = .ok ([value], text) := by
      simp only [escape, known]
    exact characters_escape escaped read
  | unicode a b c d value known =>
    exact characters_escape (escape_numbered (unit_ok.mpr ⟨a, b, c, d, rfl, known⟩) alone) read

private theorem characters_pair {first second : Piece} {text units rest : List UInt16}
    (opening : first.numbered?.any Utf16.isHigh = true)
    (closing : second.numbered?.any Utf16.isLow = true)
    (read : characters text = .ok (units, rest)) :
    characters (first.text ++ (second.text ++ text)) =
      .ok (first.unit :: second.unit :: units, rest) := by
  cases first with
  | plain => cases opening
  | short => cases opening
  | unicode a b c d high known => cases second with
    | plain => cases closing
    | short => cases closing
    | unicode e f g h low known' =>
      exact characters_escape (escape_pair (unit_ok.mpr ⟨a, b, c, d, rfl, known⟩)
        (unit_ok.mpr ⟨e, f, g, h, rfl, known'⟩) opening closing) read

private theorem characters_complete {pieces : List Piece} (closed : paired pieces = true)
    (rest : List UInt16) : characters (pieces.flatMap Piece.text ++ quoteMark :: rest) =
      .ok (pieces.map Piece.unit, rest) := by
  have done : characters (quoteMark :: rest) = .ok ([], rest) := by
    rw [characters, if_pos rfl]
  induction pieces using Json.paired.induct with
  | case1 => exact done
  | case2 piece =>
    have alone : piece.numbered?.any Utf16.isSurrogate = false := by simpa [paired] using closed
    rw [List.flatMap_cons, List.flatMap_nil, List.append_nil]
    exact characters_single alone done
  | case3 piece next later pair ih =>
    rw [paired, if_pos pair] at closed
    obtain ⟨opening, closing⟩ := Bool.and_eq_true_iff.mp pair
    rw [List.flatMap_cons, List.flatMap_cons, List.append_assoc, List.append_assoc]
    exact characters_pair opening closing (ih closed)
  | case4 piece next later single ih =>
    rw [paired, if_neg single, Bool.and_eq_true, Bool.not_eq_true'] at closed
    rw [List.flatMap_cons, List.append_assoc]
    exact characters_single closed.1 (ih closed.2)

theorem string_sound {text rest : List UInt16} {value : JsString}
    (read : string text = .ok (value, rest)) : ∃ pieces : List Piece,
      text = quoted pieces ++ rest ∧ unquoted pieces = value ∧ paired pieces = true := by
  obtain ⟨more, mark, read⟩ := bind_ok read
  obtain ⟨⟨units, left⟩, read, finish⟩ := bind_ok read
  cases Except.ok.inj finish
  obtain ⟨pieces, same, rfl, closed⟩ := characters_sound read
  refine ⟨pieces, ?_, rfl, closed⟩
  rw [expect_ok.mp mark, same, quoted, List.cons_append, List.append_assoc, List.singleton_append]

theorem string_complete {pieces : List Piece} (closed : paired pieces = true) (rest : List UInt16) :
    string (quoted pieces ++ rest) = .ok (unquoted pieces, rest) := by
  have mark : expect quoteMark (quoted pieces ++ rest) =
      .ok (pieces.flatMap Piece.text ++ quoteMark :: rest) := by
    rw [expect_ok, quoted, List.cons_append, List.append_assoc, List.singleton_append]
  rw [string, mark, ok_bind, characters_complete closed]
  rfl

end N2FNest.Http.Parser
