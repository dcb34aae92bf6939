import N2FNest.Shared.Value

/-! Text as bytes: what `Buffer` and `TextDecoder` make of each other. -/

namespace N2FNest.Shared

open Lib

/-- The UTF-8 bytes of scalar values. -/
def utf8 (characters : List Char) : List UInt8 := characters.flatMap String.utf8EncodeChar

namespace JsString

/-- `Buffer.from(text)`; a lone surrogate is written as U+FFFD. -/
def toUtf8 (text : JsString) : List UInt8 := utf8 (Utf16.decode text.units)

/-- `Buffer.byteLength(text)`. -/
def byteLength (text : JsString) : Nat := text.toUtf8.length

/-- What a PostgreSQL `text` column keeps of a parameter, which travels as UTF-8;
U+0000 is refused. -/
def asColumn (text : JsString) : Option JsString :=
  if (0 : UInt16) ∈ text.units then none else some ⟨Utf16.encode (Utf16.decode text.units)⟩

/-- Without U+0000 and lone surrogates. -/
def isClean (text : JsString) : Bool :=
  !text.units.contains 0 && !Utf16.hasLone text.units

theorem isClean_iff {text : JsString} :
    text.isClean = true ↔ (0 : UInt16) ∉ text.units ∧ Utf16.hasLone text.units = false := by
  simp [isClean]

/-- A clean text is kept as it is. -/
theorem asColumn_of_isClean {text : JsString} (clean : text.isClean = true) :
    text.asColumn = some text := by
  obtain ⟨present, whole⟩ := isClean_iff.mp clean
  rw [asColumn, if_neg present, Utf16.encode_decode whole]

theorem isClean_trim_iff {text : JsString} : text.trim.isClean = true ↔ text.isClean = true := by
  rw [isClean_iff, isClean_iff, hasLone_trim]
  refine and_congr_left fun _ => not_congr ⟨mem_trim, fun member => ?_⟩
  exact mem_trim_of_dark member rfl

theorem isClean_trim {text : JsString} (clean : text.isClean = true) : text.trim.isClean = true :=
  isClean_trim_iff.mpr clean

end JsString

/-- A decoder drops one leading byte order mark. -/
def stripBom : List UInt8 → List UInt8
  | 0xEF :: 0xBB :: 0xBF :: rest => rest
  | bytes => bytes

/-- `new TextDecoder('utf-8', { fatal: true }).decode(bytes)`, `none` where it throws. -/
def decodeUtf8 (bytes : List UInt8) : Option JsString :=
  (stripBom bytes).toByteArray.utf8Decode?.map fun characters => ⟨Utf16.encode characters.toList⟩

theorem stripBom_cons {byte : UInt8} (other : byte ≠ 0xEF) (rest : List UInt8) :
    stripBom (byte :: rest) = byte :: rest := by
  unfold stripBom
  split
  · rename_i same
    exact absurd (List.cons.inj same).1 other
  · rfl

theorem utf8_append (left right : List Char) : utf8 (left ++ right) = utf8 left ++ utf8 right :=
  List.flatMap_append

theorem utf8_cons (character : Char) (rest : List Char) :
    utf8 (character :: rest) = String.utf8EncodeChar character ++ utf8 rest :=
  List.flatMap_cons

/-- A scalar value of ASCII takes one byte. -/
theorem utf8_length_of_ascii {characters : List Char}
    (ascii : ∀ character ∈ characters, character.toNat < 0x80) :
    (utf8 characters).length = characters.length := by
  induction characters with
  | nil => rfl
  | cons character rest ih =>
    obtain ⟨here, later⟩ := List.forall_mem_cons.mp ascii
    have single : character.utf8Size = 1 :=
      Char.utf8Size_eq_one_iff.mpr (UInt32.le_iff_toNat_le.mpr (Nat.le_of_lt_succ here))
    rw [utf8_cons, List.length_append, String.length_utf8EncodeChar, single, ih later,
      List.length_cons, Nat.add_comm]

private theorem toByteArray_utf8 (characters : List Char) :
    (utf8 characters).toByteArray = characters.utf8Encode := rfl

/-- Decoding succeeds exactly on UTF-8, with the text that it encodes. -/
theorem decodeUtf8_eq_some {bytes : List UInt8} {text : JsString} : decodeUtf8 bytes = some text ↔
    ∃ characters, stripBom bytes = utf8 characters ∧ text = ⟨Utf16.encode characters⟩ := by
  unfold decodeUtf8
  constructor
  · intro decoded
    obtain ⟨characters, read, rfl⟩ := Option.map_eq_some_iff.mp decoded
    obtain ⟨list, same⟩ := ByteArray.isSome_utf8Decode?_iff.mp (Option.isSome_of_eq_some read)
    have bytes_eq : stripBom bytes = utf8 list := by
      have data := congrArg (fun array : ByteArray => array.data.toList) same
      simpa [List.utf8Encode, utf8] using data
    rw [same, List.utf8Decode?_utf8Encode] at read
    cases Option.some.inj read
    exact ⟨list, bytes_eq, rfl⟩
  · rintro ⟨characters, same, rfl⟩
    rw [same, toByteArray_utf8, List.utf8Decode?_utf8Encode]
    rfl

/-- Text written as UTF-8 is read back, unless it starts with the mark that is dropped. -/
theorem decodeUtf8_utf8 (characters : List Char)
    (unmarked : stripBom (utf8 characters) = utf8 characters) :
    decodeUtf8 (utf8 characters) = some ⟨Utf16.encode characters⟩ :=
  decodeUtf8_eq_some.mpr ⟨characters, unmarked, rfl⟩

end N2FNest.Shared
