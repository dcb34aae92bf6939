import N2FNest.Http.Strings

/-! Arrays and objects: given that values are read as the grammar writes them, so
are the sequences of them, and no text keeps a loop running. -/

namespace N2FNest.Http

open Lib Shared
open Json (Written Elements Members Blanks Piece NumberText Stops quoteMark quoted unquoted)

/-- A number that converts to a finite double. -/
def FiniteNumber (number : NumberText) : Prop := number.numeral.number.isFinite = true

def PairedEscapes (pieces : List Piece) : Prop := Json.paired pieces = true

/-- The rules of the parser beyond the grammar and the depth: finite numbers,
numbered surrogates in pairs, and no name twice in an object. -/
def Strict (tree : Written) : Prop := tree.Every FiniteNumber PairedEscapes List.Nodup

namespace Parser

theorem ws_ws (text : List UInt16) : ws (ws text) = ws text := by
  unfold ws Json.skipBlanks
  induction text with
  | nil => rfl
  | cons first rest ih =>
    cases blank : Json.isBlank first with
    | true => simpa [blank] using ih
    | false => simp [blank]

private theorem ws_length (text : List UInt16) : (ws text).length ≤ text.length :=
  (List.dropWhile_sublist Json.isBlank).length_le

private theorem tail_ws_length (text : List UInt16) : (ws text).tail.length ≤ text.length := by
  rw [List.length_tail]
  exact (Nat.sub_le _ _).trans (ws_length text)

theorem ws_blanks (blanks : Blanks) {first : UInt16} (dark : Json.isBlank first = false)
    (rest : List UInt16) : ws (blanks.units ++ first :: rest) = first :: rest := by
  refine Json.skipBlanks_units blanks ?_
  intro unit head
  cases Option.some.inj head
  exact dark

theorem peek_cons (first : UInt16) (rest : List UInt16) : peek (first :: rest) = some first := rfl

theorem peek_eq {text : List UInt16} {character : UInt16} :
    peek text = some character ↔ text = character :: text.tail := by
  cases text with
  | nil => simp [peek]
  | cons first rest => simp [peek]

theorem of_ws {text rest : List UInt16} {character : UInt16}
    (shown : ws text = character :: rest) :
    text = (Json.leadingBlanks text).units ++ character :: rest := by
  rw [← shown]
  exact (Json.leadingBlanks_append text).symm

/-- No number goes on behind blanks, or where it is followed by a mark. -/
private theorem stops_blanks (blanks : Blanks) {mark : UInt16} (stop : Stops [mark])
    (rest : List UInt16) : Stops (blanks.units ++ mark :: rest) := by
  intro unit head
  cases units : blanks.units with
  | nil =>
    rw [units] at head
    exact stop unit head
  | cons first more =>
    rw [units] at head
    cases Option.some.inj head
    have blank := blanks.blank unit (by rw [units]; exact List.mem_cons_self)
    simp only [Json.isBlank, Bool.or_eq_true, beq_iff_eq] at blank
    rcases blank with ((rfl | rfl) | rfl) | rfl
    · decide
    · decide
    · decide
    · decide

private theorem stops_mark {mark : UInt16} (closing : mark = 0x2C ∨ mark = 0x5D ∨ mark = 0x7D) :
    Stops [mark] := by
  intro unit head
  cases Option.some.inj head
  rcases closing with rfl | rfl | rfl
  · decide
  · decide
  · decide

/-- The units that a number starts with are none of the others that a value can start with. -/
theorem number_start {first : UInt16} (start : first = 0x2D ∨ Decimal.isDigit first = true)
    (other : UInt16) (apart : other ≠ 0x2D ∧ Decimal.isDigit other = false) : first ≠ other := by
  rintro rfl
  rcases start with same | number
  · exact apart.1 same
  · exact absurd number (by simp [apart.2])

private theorem number_dark {first : UInt16} (start : first = 0x2D ∨ Decimal.isDigit first = true) :
    Json.isBlank first = false := by
  have space := number_start start 0x20 (by decide)
  have tab := number_start start 0x09 (by decide)
  have feed := number_start start 0x0A (by decide)
  have carriage := number_start start 0x0D (by decide)
  simp [Json.isBlank, space, tab, feed, carriage]

/-- A value starts with no blank and no closing bracket. -/
theorem tree_head (tree : Written) : ∃ first rest, tree.text = first :: rest ∧
    Json.isBlank first = false ∧ first ≠ 0x5D := by
  cases tree with
  | null => exact ⟨_, _, rfl, by decide, by decide⟩
  | bool value => cases value with
    | true => exact ⟨_, _, rfl, by decide, by decide⟩
    | false => exact ⟨_, _, rfl, by decide, by decide⟩
  | number number =>
    obtain ⟨first, rest, same, start⟩ := number.head
    exact ⟨first, rest, same, number_dark start, number_start start 0x5D (by decide)⟩
  | string pieces => exact ⟨_, _, rfl, by decide, by decide⟩
  | emptyArray inside => exact ⟨_, _, by rw [Written.text], by decide, by decide⟩
  | array elements => exact ⟨_, _, by rw [Written.text], by decide, by decide⟩
  | emptyObject inside => exact ⟨_, _, by rw [Written.text], by decide, by decide⟩
  | object members => exact ⟨_, _, by rw [Written.text], by decide, by decide⟩

/-- The computation came to its end, with a value or with an exception. -/
def Ends {α : Type} (result : Except Halt α) : Prop := result ≠ .error .unfinished

theorem Ends.bind {α β : Type} {result : Except Halt α} {next : α → Except Halt β}
    (first : Ends result) (rest : ∀ value, result = .ok value → Ends (next value)) :
    Ends (result >>= next) := by
  cases result with
  | error halt =>
    intro same
    cases same
    exact first rfl
  | ok value => exact rest value rfl

theorem ends_ok {α : Type} (value : α) : Ends (.ok value) := nofun

theorem ends_malformed {α : Type} : Ends (.error .malformed : Except Halt α) := nofun

private theorem ends_expect (character : UInt16) (text : List UInt16) :
    Ends (expect character text) := by
  unfold expect
  split
  · exact ends_malformed
  · split
    · exact ends_ok _
    · exact ends_malformed

private theorem ends_unit (text : List UInt16) : Ends (unit text) := by
  unfold unit
  split
  · split
    · exact ends_ok _
    · exact ends_malformed
  · exact ends_malformed

private theorem ends_escape (text : List UInt16) : Ends (escape text) := by
  unfold escape
  split
  · exact ends_malformed
  · split
    · exact ends_ok _
    · split
      · refine (ends_unit _).bind ?_
        rintro ⟨high, more⟩ _
        dsimp only
        split
        · refine (ends_expect _ _).bind fun _ _ => (ends_expect _ _).bind fun _ _ => ?_
          refine (ends_unit _).bind ?_
          rintro ⟨low, rest⟩ _
          dsimp only
          split
          · exact ends_ok _
          · exact ends_malformed
        · split
          · exact ends_malformed
          · exact ends_ok _
      · exact ends_malformed

private theorem ends_characters (text : List UInt16) : Ends (characters text) := by
  fun_induction characters text with
  | case1 => exact ends_malformed
  | case2 => exact ends_ok _
  | case3 => exact ends_malformed
  | case4 _ _ _ _ _ ih => exact ih.bind fun _ _ => ends_ok _
  | case5 _ text _ _ _ halt failed =>
    intro same
    cases same
    exact ends_escape text failed
  | case6 _ _ _ _ _ _ _ _ ih => exact ih.bind fun _ _ => ends_ok _

theorem ends_string (text : List UInt16) : Ends (string text) :=
  (ends_expect _ _).bind fun _ _ => (ends_characters _).bind fun _ _ => ends_ok _

theorem ends_literal (word : String) (value : JsValue) (text : List UInt16) :
    Ends (literal word value text) := by
  unfold literal
  split
  · exact ends_ok _
  · exact ends_malformed

theorem ends_number (text : List UInt16) : Ends (number text) := by
  unfold number
  split
  · split
    · exact ends_ok _
    · exact ends_malformed
  · exact ends_malformed

/-- `item` reads exactly the trees of at most `levels` levels. -/
structure Reads (item : List UInt16 → Except Halt (JsValue × List UInt16)) (levels : Nat) : Prop where
  sound : ∀ {text value rest}, item text = .ok (value, rest) → ∃ (before : Blanks) (tree : Written),
    text = before.units ++ (tree.text ++ rest) ∧ tree.value = value ∧ tree.height ≤ levels ∧
      Strict tree
  complete : ∀ (before : Blanks) {tree : Written} {rest}, tree.height ≤ levels → Strict tree →
    Stops rest → item (before.units ++ (tree.text ++ rest)) = .ok (tree.value, rest)
  ends : ∀ text, Ends (item text)
  blind : ∀ text, item (ws text) = item text

private theorem elements_start (written : Elements) : ∃ (before : Blanks) (first : UInt16) (more : _),
    written.text = before.units ++ first :: more ∧ Json.isBlank first = false ∧ first ≠ 0x5D := by
  cases written with
  | last before tree behind =>
    obtain ⟨first, more, same, dark, other⟩ := tree_head tree
    exact ⟨before, first, _, by rw [Elements.text, same, List.cons_append], dark, other⟩
  | more before tree behind later =>
    obtain ⟨first, more, same, dark, other⟩ := tree_head tree
    exact ⟨before, first, _, by rw [Elements.text, same, List.cons_append], dark, other⟩

section Elements

variable {item : List UInt16 → Except Halt (JsValue × List UInt16)} {levels : Nat}
  (reads : Reads item levels)

include reads

private theorem item_shorter {text rest : List UInt16} {value : JsValue}
    (read : item text = .ok (value, rest)) : rest.length < text.length := by
  obtain ⟨before, tree, rfl, _⟩ := reads.sound read
  obtain ⟨first, more, same, _⟩ := tree_head tree
  rw [same]
  simp only [List.length_append, List.length_cons]
  omega

private theorem elements_blind (steps : Nat) (output : List JsValue) (text : List UInt16) :
    elements item steps output (ws text) = elements item steps output text := by
  cases steps with
  | zero => rfl
  | succ steps => rw [elements, elements, reads.blind]

private theorem elements_sound {steps : Nat} {output values : List JsValue}
    {text rest : List UInt16} (read : elements item steps output text = .ok (values, rest)) :
    ∃ written : Elements, text = written.text ++ rest ∧ values = output ++ written.values ∧
      written.height ≤ levels ∧ written.Every FiniteNumber PairedEscapes List.Nodup := by
  induction steps generalizing output text with
  | zero => cases read
  | succ steps ih =>
    obtain ⟨⟨value, unread⟩, first, read⟩ := bind_ok read
    obtain ⟨before, tree, rfl, rfl, height, strict⟩ := reads.sound first
    dsimp only at read
    split at read
    · rename_i comma
      obtain ⟨later, same, rfl, height', strict'⟩ := ih read
      refine ⟨.more before tree (Json.leadingBlanks unread) later, ?_, ?_, ?_, strict, strict'⟩
      · rw [Elements.text, List.append_assoc, List.append_assoc, List.append_assoc, List.cons_append,
          ← same, ← of_ws (peek_eq.mp comma)]
      · rw [Elements.values, List.append_assoc, List.singleton_append]
      · exact Nat.max_le.mpr ⟨height, height'⟩
    · obtain ⟨left, bracket, finish⟩ := bind_ok read
      cases Except.ok.inj finish
      refine ⟨.last before tree (Json.leadingBlanks unread), ?_, rfl, height, strict⟩
      rw [Elements.text, List.append_assoc, List.append_assoc, List.append_assoc,
        List.singleton_append, ← of_ws (expect_ok.mp bracket)]

private theorem elements_complete {steps : Nat} (output : List JsValue) {written : Elements}
    (rest : List UInt16) (enough : written.text.length ≤ steps) (height : written.height ≤ levels)
    (strict : written.Every FiniteNumber PairedEscapes List.Nodup) :
    elements item steps output (written.text ++ rest) = .ok (output ++ written.values, rest) := by
  induction steps generalizing output written with
  | zero =>
    cases written <;> simp [Elements.text] at enough
  | succ steps ih =>
    cases written with
    | last before tree behind =>
      have read := reads.complete before height strict
        (stops_blanks behind (stops_mark (.inr (.inl rfl))) rest)
      have bracket := ws_blanks behind (by decide : Json.isBlank 0x5D = false) rest
      simp only [Elements.text, List.append_assoc, List.singleton_append, elements, read, ok_bind,
        bracket]
      rfl
    | more before tree behind later =>
      obtain ⟨here, there⟩ := Nat.max_le.mp height
      have read := reads.complete before here strict.1
        (stops_blanks behind (stops_mark (.inl rfl)) (later.text ++ rest))
      have comma := ws_blanks behind (by decide : Json.isBlank 0x2C = false) (later.text ++ rest)
      have fewer : later.text.length ≤ steps := by
        simp only [Elements.text, List.length_append, List.length_cons] at enough
        omega
      simp only [Elements.text, List.append_assoc, List.cons_append, elements, read, ok_bind, comma]
      rw [peek_cons, if_pos rfl, List.tail_cons, ih _ fewer there strict.2, Elements.values, List.append_assoc,
        List.singleton_append]

/-- Each element takes some of the text, so the loop is through before its steps are. -/
private theorem elements_ends {steps : Nat} {output : List JsValue} {text : List UInt16}
    (enough : text.length < steps) : Ends (elements item steps output text) := by
  induction steps generalizing output text with
  | zero => exact absurd enough (Nat.not_lt_zero _)
  | succ steps ih =>
    refine (reads.ends text).bind ?_
    rintro ⟨value, unread⟩ read
    have shorter := item_shorter reads read
    have tail := tail_ws_length unread
    dsimp only
    split
    · exact ih (by omega)
    · exact (ends_expect _ _).bind fun _ _ => ends_ok _

theorem array_sound {text rest : List UInt16} {values : List JsValue}
    (read : array item text = .ok (values, rest)) : ∃ tree : Written,
      text = tree.text ++ rest ∧ tree.value = .array values ∧ tree.height ≤ levels + 1 ∧
        Strict tree := by
  obtain ⟨inner, bracket, read⟩ := bind_ok read
  rw [expect_ok.mp bracket]
  split at read
  · rename_i closed
    cases read
    refine ⟨.emptyArray (Json.leadingBlanks inner), ?_, rfl, by simp [Written.height], trivial⟩
    rw [Written.text, List.cons_append, List.append_assoc, List.singleton_append,
      ← of_ws (peek_eq.mp closed)]
  · rw [elements_blind reads] at read
    obtain ⟨written, same, rfl, height, strict⟩ := elements_sound reads read
    refine ⟨.array written, ?_, rfl, Nat.add_le_add_right height 1, strict⟩
    rw [Written.text, same, List.cons_append]

theorem array_complete {written : Elements} (rest : List UInt16)
    (height : written.height ≤ levels) (strict : written.Every FiniteNumber PairedEscapes List.Nodup) :
    array item (0x5B :: (written.text ++ rest)) = .ok (written.values, rest) := by
  obtain ⟨before, first, more, same, dark, other⟩ := elements_start written
  have open_ : peek (ws (written.text ++ rest)) ≠ some 0x5D := by
    rw [same, List.append_assoc, List.cons_append, ws_blanks before dark]
    exact fun closed => other (Option.some.inj closed)
  have enough : written.text.length ≤ (written.text ++ rest).length + 1 := by
    rw [List.length_append]
    omega
  have read := elements_complete reads [] rest enough height strict
  rw [array, expect_ok.mpr rfl, ok_bind, if_neg open_, elements_blind reads, read, List.nil_append]

theorem array_ends (text : List UInt16) : Ends (array item text) := by
  refine (ends_expect _ _).bind fun inner _ => ?_
  split
  · exact ends_ok _
  · exact elements_ends reads (Nat.lt_succ_of_le (ws_length inner))

end Elements

theorem array_empty (item : List UInt16 → Except Halt (JsValue × List UInt16))
    (inside : Blanks) (rest : List UInt16) :
    array item (0x5B :: (inside.units ++ 0x5D :: rest)) = .ok ([], rest) := by
  have closed := ws_blanks inside (by decide : Json.isBlank 0x5D = false) rest
  rw [array, expect_ok.mpr rfl, ok_bind, closed, peek_cons, if_pos rfl]
  rfl

/-- Members whose names are new, each of them. -/
private def Fresh (output : JsObject) (written : Members) : Prop :=
  (written.fields.map Prod.fst).Nodup ∧ ∀ name ∈ written.fields.map Prod.fst,
    name ∉ output.map Prod.fst

private theorem fresh_last {output : JsObject} {before named lead behind : Blanks}
    {name : List Piece} {tree : Written} :
    Fresh output (.last before name named lead tree behind) ↔
      unquoted name ∉ output.map Prod.fst := by
  simp [Fresh, Members.fields]

private theorem fresh_more {output : JsObject} {before named lead behind : Blanks}
    {name : List Piece} {tree : Written} {later : Members} :
    Fresh output (.more before name named lead tree behind later) ↔
      unquoted name ∉ output.map Prod.fst ∧
        Fresh (output ++ [(unquoted name, tree.value)]) later := by
  simp only [Fresh, Members.fields, List.map_cons, List.map_append, List.map_nil, List.nodup_cons,
    List.forall_mem_cons, List.mem_append, List.mem_singleton, not_or]
  constructor
  · rintro ⟨⟨apart, distinct⟩, absent, others⟩
    refine ⟨absent, distinct, fun other member => ⟨others other member, ?_⟩⟩
    rintro rfl
    exact apart member
  · rintro ⟨absent, distinct, others⟩
    refine ⟨⟨fun member => (others _ member).2 rfl, distinct⟩, absent, ?_⟩
    exact fun other member => (others other member).1

private theorem string_shorter {text rest : List UInt16} {key : JsString}
    (read : string text = .ok (key, rest)) : rest.length < text.length := by
  obtain ⟨pieces, rfl, _⟩ := string_sound read
  rw [quoted, List.length_append, List.length_cons]
  omega

private theorem members_start (written : Members) : ∃ (before : Blanks) (more : List UInt16),
    written.text = before.units ++ quoteMark :: more := by
  cases written with
  | last before name named lead tree behind =>
    exact ⟨before, _, by rw [Members.text, quoted, List.cons_append]⟩
  | more before name named lead tree behind later =>
    exact ⟨before, _, by rw [Members.text, quoted, List.cons_append]⟩

section Members

variable {item : List UInt16 → Except Halt (JsValue × List UInt16)} {levels : Nat}

private theorem members_blind (steps : Nat) (output : JsObject) (text : List UInt16) :
    members item steps output (ws text) = members item steps output text := by
  cases steps with
  | zero => rfl
  | succ steps => rw [members, members, ws_ws]

variable (reads : Reads item levels)

include reads

private theorem members_sound {steps : Nat} {output fields : JsObject} {text rest : List UInt16}
    (read : members item steps output text = .ok (fields, rest)) :
    ∃ written : Members, text = written.text ++ rest ∧ fields = output ++ written.fields ∧
      written.height ≤ levels ∧ written.Every FiniteNumber PairedEscapes List.Nodup ∧
        Fresh output written := by
  induction steps generalizing output text with
  | zero => cases read
  | succ steps ih =>
    obtain ⟨⟨key, unread⟩, name, read⟩ := bind_ok read
    obtain ⟨pieces, start, rfl, closed⟩ := string_sound name
    obtain ⟨absent, read⟩ := refuse_ok.mp read
    obtain ⟨behind, colon, read⟩ := bind_ok read
    obtain ⟨⟨value, left⟩, first, read⟩ := bind_ok read
    obtain ⟨lead, tree, same, rfl, height, strict⟩ := reads.sound first
    have whole : text = (Json.leadingBlanks text).units ++ (quoted pieces ++
        ((Json.leadingBlanks unread).units ++ 0x3A :: (lead.units ++ (tree.text ++ left)))) := by
      rw [← same, ← of_ws (expect_ok.mp colon), ← start]
      exact (Json.leadingBlanks_append text).symm
    dsimp only at read
    split at read
    · rename_i comma
      obtain ⟨later, tail, rfl, height', strict', fresh⟩ := ih read
      refine ⟨.more (Json.leadingBlanks text) pieces (Json.leadingBlanks unread) lead tree
        (Json.leadingBlanks left) later, ?_, ?_, Nat.max_le.mpr ⟨height, height'⟩,
        ⟨closed, strict, strict'⟩, fresh_more.mpr ⟨absent, fresh⟩⟩
      · simp only [Members.text, List.append_assoc, List.cons_append]
        rw [← tail, ← of_ws (peek_eq.mp comma)]
        exact whole
      · rw [Members.fields, List.append_assoc, List.singleton_append]
    · obtain ⟨_, brace, finish⟩ := bind_ok read
      cases Except.ok.inj finish
      refine ⟨.last (Json.leadingBlanks text) pieces (Json.leadingBlanks unread) lead tree
        (Json.leadingBlanks left), ?_, rfl, height, ⟨closed, strict⟩, fresh_last.mpr absent⟩
      simp only [Members.text, List.append_assoc, List.cons_append, List.nil_append]
      rw [← of_ws (expect_ok.mp brace)]
      exact whole

/-- One turn of the loop, up to the value of a new member. -/
private theorem members_turn (steps : Nat) {output : JsObject} (before named lead : Blanks)
    {name : List Piece} {tree : Written} {rest : List UInt16} (closed : PairedEscapes name)
    (absent : unquoted name ∉ output.map Prod.fst) (height : tree.height ≤ levels)
    (strict : Strict tree) (stop : Stops rest) :
    members item (steps + 1) output (before.units ++ (quoted name ++ (named.units ++
      0x3A :: (lead.units ++ (tree.text ++ rest))))) =
      if peek (ws rest) = some 0x2C then
        members item steps (output ++ [(unquoted name, tree.value)]) (ws rest).tail
      else do
        let rest ← expect 0x7D (ws rest)
        return (output ++ [(unquoted name, tree.value)], rest) := by
  have start : ∀ more, ws (before.units ++ (quoted name ++ more)) = quoted name ++ more :=
    fun _ => ws_blanks before (by decide : Json.isBlank quoteMark = false) _
  have colon := ws_blanks named (by decide : Json.isBlank 0x3A = false)
    (lead.units ++ (tree.text ++ rest))
  rw [members, start, string_complete closed, ok_bind]
  dsimp only
  rw [if_neg absent, colon, expect_ok.mpr rfl, ok_bind, reads.complete lead height strict stop,
    ok_bind]

private theorem members_complete {steps : Nat} (output : JsObject) {written : Members}
    (rest : List UInt16) (enough : written.text.length ≤ steps) (height : written.height ≤ levels)
    (strict : written.Every FiniteNumber PairedEscapes List.Nodup) (fresh : Fresh output written) :
    members item steps output (written.text ++ rest) = .ok (output ++ written.fields, rest) := by
  induction steps generalizing output written with
  | zero =>
    cases written <;> simp [Members.text] at enough
  | succ steps ih =>
    cases written with
    | last before name named lead tree behind =>
      have turn := members_turn reads steps before named lead strict.1
        (fresh_last.mp fresh) height strict.2
        (stops_blanks behind (stops_mark (.inr (.inr rfl))) rest)
      have brace := ws_blanks behind (by decide : Json.isBlank 0x7D = false) rest
      simp only [Members.text, List.append_assoc, List.cons_append, List.nil_append]
      rw [turn, brace]
      rfl
    | more before name named lead tree behind later =>
      obtain ⟨here, there⟩ := Nat.max_le.mp height
      obtain ⟨closed, strict, strict'⟩ := strict
      obtain ⟨absent, fresh⟩ := fresh_more.mp fresh
      have turn := members_turn reads steps before named lead closed absent here strict
        (stops_blanks behind (stops_mark (.inl rfl)) (later.text ++ rest))
      have comma := ws_blanks behind (by decide : Json.isBlank 0x2C = false) (later.text ++ rest)
      have fewer : later.text.length ≤ steps := by
        simp only [Members.text, List.length_append, List.length_cons] at enough
        omega
      simp only [Members.text, List.append_assoc, List.cons_append]
      rw [turn, comma, peek_cons, if_pos rfl, List.tail_cons, ih _ fewer there strict' fresh,
        Members.fields, List.append_assoc, List.singleton_append]

private theorem members_ends {steps : Nat} {output : JsObject} {text : List UInt16}
    (enough : text.length < steps) : Ends (members item steps output text) := by
  induction steps generalizing output text with
  | zero => exact absurd enough (Nat.not_lt_zero _)
  | succ steps ih =>
    refine (ends_string _).bind ?_
    rintro ⟨key, unread⟩ name
    dsimp only
    split
    · exact ends_malformed
    · refine (ends_expect _ _).bind fun behind colon => (reads.ends behind).bind ?_
      rintro ⟨value, left⟩ read
      have first := string_shorter name
      have second := congrArg List.length (expect_ok.mp colon)
      have third := item_shorter reads read
      have tail := tail_ws_length left
      have blanks := ws_length text
      have blanks' := ws_length unread
      rw [List.length_cons] at second
      dsimp only
      split
      · exact ih (by omega)
      · exact (ends_expect _ _).bind fun _ _ => ends_ok _

theorem object_sound {text rest : List UInt16} {fields : JsObject}
    (read : object item text = .ok (fields, rest)) : ∃ tree : Written,
      text = tree.text ++ rest ∧ tree.value = .object fields ∧ tree.height ≤ levels + 1 ∧
        Strict tree := by
  obtain ⟨inner, brace, read⟩ := bind_ok read
  rw [expect_ok.mp brace]
  split at read
  · rename_i closed
    cases read
    refine ⟨.emptyObject (Json.leadingBlanks inner), ?_, rfl, by simp [Written.height], trivial⟩
    rw [Written.text, List.cons_append, List.append_assoc, List.singleton_append,
      ← of_ws (peek_eq.mp closed)]
  · rw [members_blind] at read
    obtain ⟨written, same, rfl, height, strict, fresh⟩ := members_sound reads read
    refine ⟨.object written, ?_, rfl, Nat.add_le_add_right height 1, fresh.1, strict⟩
    rw [Written.text, same, List.cons_append]

theorem object_complete {written : Members} (rest : List UInt16)
    (height : written.height ≤ levels) (distinct : (written.fields.map Prod.fst).Nodup)
    (strict : written.Every FiniteNumber PairedEscapes List.Nodup) :
    object item (0x7B :: (written.text ++ rest)) = .ok (written.fields, rest) := by
  obtain ⟨before, more, same⟩ := members_start written
  have open_ : peek (ws (written.text ++ rest)) ≠ some 0x7D := by
    rw [same, List.append_assoc, List.cons_append, ws_blanks before (by decide)]
    exact fun closed => absurd (Option.some.inj closed) (by decide)
  have enough : written.text.length ≤ (written.text ++ rest).length + 1 := by
    rw [List.length_append]
    omega
  have read := members_complete reads [] rest enough height strict ⟨distinct, by simp⟩
  rw [object, expect_ok.mpr rfl, ok_bind, if_neg open_, members_blind, read, List.nil_append]

theorem object_ends (text : List UInt16) : Ends (object item text) := by
  refine (ends_expect _ _).bind fun inner _ => ?_
  split
  · exact ends_ok _
  · exact members_ends reads (Nat.lt_succ_of_le (ws_length inner))

end Members

theorem object_empty (item : List UInt16 → Except Halt (JsValue × List UInt16))
    (inside : Blanks) (rest : List UInt16) :
    object item (0x7B :: (inside.units ++ 0x7D :: rest)) = .ok ([], rest) := by
  have closed := ws_blanks inside (by decide : Json.isBlank 0x7D = false) rest
  rw [object, expect_ok.mpr rfl, ok_bind, closed, peek_cons, if_pos rfl]
  rfl

end Parser

end N2FNest.Http
