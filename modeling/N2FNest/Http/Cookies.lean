import N2FNest.Lib.Table
import N2FNest.Shared.Date
import N2FNest.Shared.Digits
import N2FNest.Shared.Failure

/-! Cookies: reading them from a request's header and writing them for a response. -/

namespace N2FNest.Http

open Lib Shared
open Decimal (isDigit isDigit_pad isDigit_text pad)

inductive SameSite where
  | strict | lax | none
  deriving DecidableEq

def SameSite.text : SameSite → JsString
  | .strict => js "Strict"
  | .lax => js "Lax"
  | .none => js "None"

/-- A date can be there and invalid. -/
structure CookieValue where
  name : JsString
  value : JsString
  path : Option JsString
  maxAge : Option JsNumber
  expires : Option (Option Moment)
  secure : Bool
  httpOnly : Bool
  sameSite : Option SameSite

def invalidCookie : Failure := failure .internal "invalid cookie value" "http.invalid_cookie"

/-- The class of `TOKEN`. -/
def isTokenUnit (unit : UInt16) : Bool :=
  (js "!#$%&'*+-.^_`|~").units.contains unit || (0x30 ≤ unit && unit ≤ 0x39) ||
    (0x41 ≤ unit && unit ≤ 0x5A) || (0x61 ≤ unit && unit ≤ 0x7A)

def isToken (text : JsString) : Bool := !text.units.isEmpty && text.units.all isTokenUnit

/-- The class of `COOKIE_OCTETS`. -/
def isCookieOctet (unit : UInt16) : Bool :=
  unit == 0x21 || (0x23 ≤ unit && unit ≤ 0x2B) || (0x2D ≤ unit && unit ≤ 0x3A) ||
    (0x3C ≤ unit && unit ≤ 0x5B) || (0x5D ≤ unit && unit ≤ 0x7E)

def isCookieOctets (text : JsString) : Bool := text.units.all isCookieOctet

/-- `HEADER_VALUE`. -/
def isHeaderValue (text : JsString) : Bool :=
  text.units.all fun unit => 0x20 ≤ unit && unit ≤ 0x7E

/-- `text.startsWith('__Host-')`. -/
def isHostName (text : JsString) : Bool := (js "__Host-").units.isPrefixOf text.units

/-- The values of a name in the order they came. -/
structure CookieValues where
  name : JsString
  values : List JsString
  deriving DecidableEq

abbrev Cookies := Table (fun entry : CookieValues => entry.name)

/-- A value in quotes loses them. -/
def unquote (value : JsString) : JsString :=
  if 2 ≤ value.length && value.units.head? = some 0x22 && value.units.getLast? = some 0x22 then
    ⟨(value.units.drop 1).dropLast⟩
  else value

/-- The name and the value of a pair, where it has an equals sign and both are well formed. -/
def readPair (pair : List UInt16) : Option (JsString × JsString) :=
  if 0x3D ∈ pair then
    let name := JsString.trim ⟨pair.takeWhile (· ≠ 0x3D)⟩
    let value := unquote (JsString.trim ⟨(pair.dropWhile (· ≠ 0x3D)).drop 1⟩)
    if isToken name && isCookieOctets value then some (name, value) else none
  else none

def record (cookies : Cookies) (name value : JsString) : Cookies :=
  match cookies.get name with
  | some entry => cookies.set { entry with values := entry.values ++ [value] }
  | none => cookies.set ⟨name, [value]⟩

/-- One turn of the loop of `parseCookies`. -/
def readCookie (cookies : Cookies) (pair : List UInt16) : Cookies :=
  match readPair pair with
  | some (name, value) => record cookies name value
  | none => cookies

/-- The header is absent or a string. -/
def parseCookies : Option JsString → Cookies
  | none => Table.empty
  | some header =>
    if header.units.isEmpty then Table.empty
    else (header.units.splitOn 0x3B).foldl readCookie Table.empty

def isInteger : JsNumber → Bool
  | .finite value => value.den = 1
  | _ => false

def isNegative : JsNumber → Bool
  | .finite value => value < 0
  | .nan => false
  | .infinite negative => negative

/-- `String(value)`. -/
def numberText : JsNumber → List UInt16
  | .finite value => Digits.text value
  | .nan => (js "NaN").units
  | .infinite negative => (js (if negative then "-Infinity" else "Infinity")).units

/-- The checks of `serializeCookie`. -/
def refusesCookie (cookie : CookieValue) : Bool :=
  (!isToken cookie.name || !isCookieOctets cookie.value) ||
    cookie.path.any (fun path => !isHeaderValue path || path.units.contains 0x3B) ||
    cookie.maxAge.any (fun maxAge => !isInteger maxAge || isNegative maxAge) ||
    cookie.expires.any (fun expires => expires.isNone) ||
    (isHostName cookie.name && (!cookie.secure || cookie.path ≠ some (js "/"))) ||
    (cookie.sameSite = some .none && !cookie.secure)

/-- `name=value`. -/
def CookieValue.pair (cookie : CookieValue) : List UInt16 := cookie.name.units ++ 0x3D :: cookie.value.units

def serializeCookie (cookie : CookieValue) : Except Failure JsString :=
  if refusesCookie cookie then .error invalidCookie
  else
    let output := cookie.pair
    let output := match cookie.path with
      | some held => output ++ (js "; Path=").units ++ held.units
      | none => output
    let output := match cookie.maxAge with
      | some held => output ++ (js "; Max-Age=").units ++ numberText held
      | none => output
    let output := match cookie.expires with
      | some (some held) => output ++ (js "; Expires=").units ++ held.toUTCString.units
      | _ => output
    let output := if cookie.secure then output ++ (js "; Secure").units else output
    let output := if cookie.httpOnly then output ++ (js "; HttpOnly").units else output
    let output := match cookie.sameSite with
      | some held => output ++ (js "; SameSite=").units ++ held.text.units
      | none => output
    .ok ⟨output⟩

inductive CookieAttribute where
  | path (text : JsString)
  | maxAge (seconds : JsNumber)
  | expires (moment : Moment)
  | secure
  | httpOnly
  | sameSite (mode : SameSite)

def CookieAttribute.text : CookieAttribute → List UInt16
  | .path text => (js "Path=").units ++ text.units
  | .maxAge seconds => (js "Max-Age=").units ++ numberText seconds
  | .expires moment => (js "Expires=").units ++ moment.toUTCString.units
  | .secure => (js "Secure").units
  | .httpOnly => (js "HttpOnly").units
  | .sameSite mode => (js "SameSite=").units ++ mode.text.units

/-- The attributes a cookie requests. -/
def CookieValue.requested (cookie : CookieValue) : List CookieAttribute :=
  (cookie.path.map .path).toList ++ (cookie.maxAge.map .maxAge).toList ++
    (cookie.expires.join.map .expires).toList ++ (if cookie.secure then [.secure] else []) ++
    (if cookie.httpOnly then [.httpOnly] else []) ++ (cookie.sameSite.map .sameSite).toList

/-- The values of the cookies of one name, in list order. -/
def valuesOf (cookies : List CookieValue) (name : JsString) : List JsString :=
  (cookies.filter fun cookie => cookie.name = name).map CookieValue.value

/-- The entry of a name; a name without values has none. -/
def entryOf (name : JsString) (values : List JsString) : Option CookieValues :=
  if values = [] then none else some ⟨name, values⟩

/-- The pairs of a request header, joined with `; `. -/
def cookieHeader (cookies : List CookieValue) : JsString :=
  ⟨(js "; ").units.intercalate (cookies.map CookieValue.pair)⟩

/-- Printable ASCII other than the separator. -/
def isPlain (unit : UInt16) : Bool := (0x20 ≤ unit && unit ≤ 0x7E) && unit != 0x3B

private theorem isPlain_iff {unit : UInt16} :
    isPlain unit = true ↔ (0x20 ≤ unit.toNat ∧ unit.toNat ≤ 0x7E) ∧ unit.toNat ≠ 0x3B := by
  simp only [isPlain, Bool.and_eq_true, decide_eq_true_eq, bne_iff_ne, ne_eq, ← UInt16.toNat_inj,
    UInt16.le_iff_toNat_le, UInt16.reduceToNat]

private theorem isTokenUnit_range {unit : UInt16} (token : isTokenUnit unit = true) :
    (0x21 ≤ unit.toNat ∧ unit.toNat ≤ 0x7E) ∧ unit.toNat ≠ 0x3B ∧ unit.toNat ≠ 0x3D := by
  have marks : (js "!#$%&'*+-.^_`|~").units = [0x21, 0x23, 0x24, 0x25, 0x26, 0x27, 0x2A, 0x2B, 0x2D,
    0x2E, 0x5E, 0x5F, 0x60, 0x7C, 0x7E] := rfl
  simp only [isTokenUnit, marks, List.contains_eq_mem, List.mem_cons, List.not_mem_nil, or_false,
    Bool.or_eq_true, Bool.and_eq_true, decide_eq_true_eq, ← UInt16.toNat_inj,
    UInt16.le_iff_toNat_le, UInt16.reduceToNat] at token
  omega

private theorem isCookieOctet_range {unit : UInt16} (octet : isCookieOctet unit = true) :
    (0x21 ≤ unit.toNat ∧ unit.toNat ≤ 0x7E) ∧ unit.toNat ≠ 0x3B ∧ unit.toNat ≠ 0x22 := by
  simp only [isCookieOctet, Bool.or_eq_true, Bool.and_eq_true, decide_eq_true_eq, beq_iff_eq,
    ← UInt16.toNat_inj, UInt16.le_iff_toNat_le, UInt16.reduceToNat] at octet
  omega

/-- No visible unit is trimmed. -/
private theorem isSpace_visible {unit : UInt16} (low : 0x21 ≤ unit.toNat) (high : unit.toNat ≤ 0x7E) :
    JsString.isSpace unit = false := by
  rw [Bool.eq_false_iff]
  intro space
  simp only [JsString.isSpace, Bool.or_eq_true, Bool.and_eq_true, decide_eq_true_eq, beq_iff_eq,
    UInt16.le_iff_toNat_le, UInt16.toNat_inj.symm, UInt16.reduceToNat] at space
  omega

private theorem token_range {text : JsString} (token : isToken text = true) {unit : UInt16}
    (member : unit ∈ text.units) :
    (0x21 ≤ unit.toNat ∧ unit.toNat ≤ 0x7E) ∧ unit.toNat ≠ 0x3B ∧ unit.toNat ≠ 0x3D := by
  obtain ⟨-, units⟩ := Bool.and_eq_true_iff.mp token
  exact isTokenUnit_range (List.all_eq_true.mp units unit member)

private theorem octets_range {text : JsString} (octets : isCookieOctets text = true) {unit : UInt16}
    (member : unit ∈ text.units) :
    (0x21 ≤ unit.toNat ∧ unit.toNat ≤ 0x7E) ∧ unit.toNat ≠ 0x3B ∧ unit.toNat ≠ 0x22 :=
  isCookieOctet_range (List.all_eq_true.mp octets unit member)

/-- What has no separator is found again by splitting. -/
theorem splitOn_parts {α : Type} [BEq α] [LawfulBEq α] {separator : α} {head : List α}
    {parts : List (List α)} (first : separator ∉ head) (others : ∀ part ∈ parts, separator ∉ part) :
    (head ++ parts.flatMap (separator :: ·)).splitOn separator = head :: parts := by
  induction parts generalizing head with
  | nil => simpa using List.splitOn_eq_singleton first
  | cons part parts ih =>
    obtain ⟨clean, rest⟩ := List.forall_mem_cons.mp others
    rw [List.flatMap_cons, List.cons_append, List.splitOn_append_cons_self_of_not_mem first,
      ih clean rest]

private theorem intercalate_cons {α : Type} (separator first : List α) (rest : List (List α)) :
    separator.intercalate (first :: rest) = first ++ rest.flatMap (separator ++ ·) := by
  induction rest generalizing first with
  | nil => simp
  | cons next rest ih =>
    rw [List.intercalate_cons_cons, ih, List.flatMap_cons, List.append_assoc separator next,
      List.append_assoc first]

private theorem dropWhile_of_none {α : Type} {drops : α → Bool} {items : List α}
    (kept : ∀ item ∈ items, drops item = false) : items.dropWhile drops = items := by
  cases items with
  | nil => rfl
  | cons head rest => rw [List.dropWhile_cons_of_neg (by simp [kept head])]

/-- Trimming takes leading space from visible text, and nothing more. -/
private theorem trim_visible {lead units : List UInt16} (space : ∀ unit ∈ lead, JsString.isSpace unit = true)
    (visible : ∀ unit ∈ units, JsString.isSpace unit = false) :
    JsString.trim ⟨lead ++ units⟩ = ⟨units⟩ := by
  have front : (lead ++ units).dropWhile JsString.isSpace = units := by
    rw [List.dropWhile_append_of_pos space, dropWhile_of_none visible]
  have back : units.reverse.dropWhile JsString.isSpace = units.reverse :=
    dropWhile_of_none fun unit member => visible unit (List.mem_reverse.mp member)
  simp only [JsString.trim, front, back, List.reverse_reverse]

private theorem unquote_octets {value : JsString} (octets : isCookieOctets value = true) :
    unquote value = value := by
  rw [unquote, if_neg]
  intro quoted
  simp only [Bool.and_eq_true, decide_eq_true_eq] at quoted
  obtain ⟨⟨-, first⟩, -⟩ := quoted
  have range := octets_range octets (List.mem_of_mem_head? first)
  exact range.2.2 rfl

/-- A well-formed pair is read as it was written, with or without the space of the separator. -/
theorem readPair_written {name value : JsString} {lead : List UInt16} (token : isToken name = true)
    (octets : isCookieOctets value = true) (space : ∀ unit ∈ lead, unit = 0x20) :
    readPair (lead ++ (name.units ++ 0x3D :: value.units)) = some (name, value) := by
  have before : ∀ unit ∈ lead ++ name.units, (decide (unit ≠ 0x3D)) = true := by
    intro unit member
    rw [decide_eq_true_eq]
    rintro rfl
    rcases List.mem_append.mp member with blank | inside
    · cases space _ blank
    · exact (token_range token inside).2.2 rfl
  have nameText : (lead ++ (name.units ++ 0x3D :: value.units)).takeWhile (· ≠ 0x3D) =
      lead ++ name.units := by
    rw [← List.append_assoc, List.takeWhile_append_of_pos before]
    simp
  have valueText : (lead ++ (name.units ++ 0x3D :: value.units)).dropWhile (· ≠ 0x3D) =
      0x3D :: value.units := by
    rw [← List.append_assoc, List.dropWhile_append_of_pos before]
    simp
  have trimmedName : JsString.trim ⟨lead ++ name.units⟩ = name := by
    apply trim_visible
    · intro unit member
      rw [space unit member]
      rfl
    · intro unit member
      obtain ⟨⟨low, high⟩, -⟩ := token_range token member
      exact isSpace_visible low high
  have trimmedValue : JsString.trim value = value := by
    apply trim_visible (List.forall_mem_nil _)
    intro unit member
    obtain ⟨⟨low, high⟩, -⟩ := octets_range octets member
    exact isSpace_visible low high
  have present : (0x3D : UInt16) ∈ lead ++ (name.units ++ 0x3D :: value.units) := by simp
  rw [readPair, if_pos present]
  simp only [nameText, valueText, List.drop_succ_cons, List.drop_zero, trimmedName, trimmedValue,
    unquote_octets octets, token, octets, Bool.and_self, if_true]

/-- One turn adds a value at the end of its name's values. -/
private theorem get_record {cookies : Cookies} {name value wanted : JsString} {before : List JsString}
    (held : cookies.get wanted = entryOf wanted before) :
    (record cookies name value).get wanted =
      entryOf wanted (before ++ if name = wanted then [value] else []) := by
  by_cases own : name = wanted
  · subst own
    rw [if_pos rfl, entryOf, if_neg (List.append_ne_nil_of_right_ne_nil before (List.cons_ne_nil _ _))]
    cases before with
    | nil =>
      have missing : cookies.get name = none := held
      simp [record, missing]
    | cons first rest =>
      have present : cookies.get name = some ⟨name, first :: rest⟩ := held
      simp [record, present]
  · rw [if_neg own, List.append_nil, ← held]
    cases found : cookies.get name with
    | none =>
      simp only [record, found]
      exact Table.get_set_other _ own
    | some entry =>
      have named : entry.name ≠ wanted := by rwa [Table.key_of_get found]
      simp only [record, found]
      exact Table.get_set_other _ named

/-- The text of attributes, each after a separator. -/
def written (attributes : List CookieAttribute) : List UInt16 :=
  (attributes.map fun asked => 0x20 :: asked.text).flatMap (0x3B :: ·)

@[simp] theorem written_nil : written [] = [] := rfl

theorem written_append (left right : List CookieAttribute) :
    written (left ++ right) = written left ++ written right := by
  simp [written]

private theorem written_one (asked : CookieAttribute) : written [asked] = 0x3B :: 0x20 :: asked.text := by
  simp [written]

/-- The output is the pair, then what was requested. -/
theorem serializeCookie_ok {cookie : CookieValue} {output : JsString}
    (accepted : serializeCookie cookie = .ok output) : refusesCookie cookie = false ∧
      output.units = cookie.pair ++ written cookie.requested := by
  unfold serializeCookie at accepted
  split at accepted
  · cases accepted
  rename_i fine
  refine ⟨Bool.eq_false_iff.mpr fine, ?_⟩
  have path : ∀ output : List UInt16, (match cookie.path with
      | some held => output ++ (js "; Path=").units ++ held.units
      | none => output) = output ++ written (cookie.path.map .path).toList := by
    intro output
    cases cookie.path with
    | none => simp
    | some held =>
      rw [Option.map_some, Option.toList_some, written_one]
      exact List.append_assoc ..
  have maxAge : ∀ output : List UInt16, (match cookie.maxAge with
      | some held => output ++ (js "; Max-Age=").units ++ numberText held
      | none => output) = output ++ written (cookie.maxAge.map .maxAge).toList := by
    intro output
    cases cookie.maxAge with
    | none => simp
    | some held =>
      rw [Option.map_some, Option.toList_some, written_one]
      exact List.append_assoc ..
  have expires : ∀ output : List UInt16, (match cookie.expires with
      | some (some held) => output ++ (js "; Expires=").units ++ held.toUTCString.units
      | _ => output) = output ++ written (cookie.expires.join.map .expires).toList := by
    intro output
    rcases cookie.expires with none | none | held
    · simp
    · simp
    · rw [Option.join_some, Option.map_some, Option.toList_some, written_one]
      exact List.append_assoc ..
  have secure : ∀ output : List UInt16,
      (if cookie.secure then output ++ (js "; Secure").units else output) =
        output ++ written (if cookie.secure then [.secure] else []) := by
    intro output
    cases cookie.secure with
    | false => simp
    | true => rfl
  have httpOnly : ∀ output : List UInt16,
      (if cookie.httpOnly then output ++ (js "; HttpOnly").units else output) =
        output ++ written (if cookie.httpOnly then [.httpOnly] else []) := by
    intro output
    cases cookie.httpOnly with
    | false => simp
    | true => rfl
  have sameSite : ∀ output : List UInt16, (match cookie.sameSite with
      | some held => output ++ (js "; SameSite=").units ++ held.text.units
      | none => output) = output ++ written (cookie.sameSite.map .sameSite).toList := by
    intro output
    cases cookie.sameSite with
    | none => simp
    | some held =>
      rw [Option.map_some, Option.toList_some, written_one]
      exact List.append_assoc ..
  rw [← Except.ok.inj accepted]
  simp only [path, maxAge, expires, secure, httpOnly, sameSite]
  simp only [CookieValue.requested, written_append, List.append_assoc]

private theorem accepted_parts {cookie : CookieValue} (accepted : refusesCookie cookie = false) :
    isToken cookie.name = true ∧ isCookieOctets cookie.value = true := by
  simp only [refusesCookie, Bool.or_eq_false_iff, Bool.not_eq_false'] at accepted
  obtain ⟨⟨⟨⟨⟨⟨token, octets⟩, -⟩, -⟩, -⟩, -⟩, -⟩ := accepted
  exact ⟨token, octets⟩

/-- The loop over pairs as they were written gathers each name's values. -/
private theorem get_foldl {cookies : List CookieValue} {parts : List (List UInt16)} {name : JsString}
    (read : parts.map readPair = cookies.map fun cookie => some (cookie.name, cookie.value))
    {before : List JsString} {gathered : Cookies} (held : gathered.get name = entryOf name before) :
    (parts.foldl readCookie gathered).get name =
      entryOf name (before ++ valuesOf cookies name) := by
  induction cookies generalizing parts before gathered with
  | nil =>
    rw [List.map_eq_nil_iff.mp read, List.foldl_nil, held]
    simp [valuesOf]
  | cons cookie cookies ih =>
    cases parts with
    | nil => cases read
    | cons part parts =>
      obtain ⟨first, rest⟩ := List.cons.inj read
      have turn : readCookie gathered part = record gathered cookie.name cookie.value := by
        simp only [readCookie, first]
      rw [List.foldl_cons, turn, ih rest (get_record held), List.append_assoc]
      by_cases own : cookie.name = name <;> simp [valuesOf, own]

private theorem readPair_pair {cookie : CookieValue} (accepted : refusesCookie cookie = false)
    {lead : List UInt16} (space : ∀ unit ∈ lead, unit = 0x20) :
    readPair (lead ++ cookie.pair) = some (cookie.name, cookie.value) := by
  obtain ⟨token, octets⟩ := accepted_parts accepted
  exact readPair_written token octets space

private theorem pair_clean {cookie : CookieValue} (accepted : refusesCookie cookie = false) :
    (0x3B : UInt16) ∉ cookie.pair := by
  obtain ⟨token, octets⟩ := accepted_parts accepted
  intro member
  rcases List.mem_append.mp member with inside | inside
  · exact (token_range token inside).2.1 rfl
  · rcases List.mem_cons.mp inside with equals | inside
    · cases equals
    · exact (octets_range octets inside).2.1 rfl

/-- Cookies sent back in one header are read as they were written. -/
private theorem get_parseCookies {cookies : List CookieValue}
    (accepted : ∀ cookie ∈ cookies, refusesCookie cookie = false) (name : JsString) :
    (parseCookies (some (cookieHeader cookies))).get name = entryOf name (valuesOf cookies name) := by
  cases cookies with
  | nil => rfl
  | cons cookie cookies =>
    obtain ⟨first, others⟩ := List.forall_mem_cons.mp accepted
    have separator : (js "; ").units = [0x3B, 0x20] := rfl
    have written : (cookieHeader (cookie :: cookies)).units =
        cookie.pair ++ (cookies.map fun other => 0x20 :: other.pair).flatMap (0x3B :: ·) := by
      rw [cookieHeader, List.map_cons, intercalate_cons, separator, List.flatMap_map, List.flatMap_map]
      rfl
    have split : (cookieHeader (cookie :: cookies)).units.splitOn 0x3B =
        cookie.pair :: cookies.map fun other => 0x20 :: other.pair := by
      rw [written]
      refine splitOn_parts (pair_clean first) (List.forall_mem_map.mpr fun other member => ?_)
      exact List.not_mem_cons_of_ne_of_not_mem (by decide) (pair_clean (others other member))
    have present : (cookieHeader (cookie :: cookies)).units.isEmpty = false := by
      rw [written, CookieValue.pair]
      simp
    have read : (cookie.pair :: cookies.map fun other => 0x20 :: other.pair).map readPair =
        (cookie :: cookies).map fun other => some (other.name, other.value) := by
      rw [List.map_cons, List.map_cons, List.map_map]
      congr 1
      · exact readPair_pair first (List.forall_mem_nil _)
      · apply List.map_congr_left
        intro other member
        have blank : ∀ unit ∈ [(0x20 : UInt16)], unit = 0x20 := fun unit => List.mem_singleton.mp
        exact readPair_pair (others other member) blank
    have start : (Table.empty : Cookies).get name = entryOf name [] := rfl
    simp only [parseCookies, present, split]
    exact get_foldl read start

private theorem plain_of_digits {units : List UInt16} (digits : ∀ unit ∈ units, isDigit unit = true) :
    units.all isPlain = true := by
  refine List.all_eq_true.mpr fun unit member => isPlain_iff.mpr ?_
  have range := digits unit member
  simp only [isDigit, Bool.and_eq_true, decide_eq_true_eq, UInt16.le_iff_toNat_le,
    UInt16.reduceToNat] at range
  omega

private theorem nameAt_plain {names : List String} (index : Nat)
    (plain : names.all (fun name => (js name).units.all isPlain) = true) :
    (Moment.nameAt names index).all isPlain = true := by
  rw [Moment.nameAt, List.getD_eq_getElem?_getD]
  cases found : names[index]? with
  | none => rfl
  | some name => exact List.all_eq_true.mp plain name (List.mem_of_getElem? found)

private theorem pad_plain (width value : Nat) : (pad width value).all isPlain = true :=
  plain_of_digits (isDigit_pad width value)

private theorem utcYearText_plain (year : Int) : (Moment.utcYearText year).all isPlain = true := by
  rw [Moment.utcYearText, List.all_append, Bool.and_eq_true]
  constructor
  · split <;> rfl
  · split
    · exact pad_plain 4 _
    · exact plain_of_digits (isDigit_text _)

theorem toUTCString_plain (moment : Moment) : moment.toUTCString.units.all isPlain = true := by
  have week : Moment.weekdays.all (fun name => (js name).units.all isPlain) = true := rfl
  have year : Moment.months.all (fun name => (js name).units.all isPlain) = true := rfl
  have comma : (js ", ").units.all isPlain = true := rfl
  have zone : (js " GMT").units.all isPlain = true := rfl
  have blank : isPlain 0x20 = true := rfl
  have colon : isPlain 0x3A = true := rfl
  simp only [Moment.toUTCString, Moment.utcClockText, List.all_append, List.all_cons, pad_plain,
    nameAt_plain _ week, nameAt_plain _ year, utcYearText_plain, comma, zone, blank, colon,
    Bool.and_self]

private theorem layout_plain {digits : List UInt16} (decimal : ∀ unit ∈ digits, isDigit unit = true)
    (exponent : ℤ) : (Digits.layout digits exponent).all isPlain = true := by
  have taken : ∀ count, (digits.take count).all isPlain = true := fun count =>
    plain_of_digits fun unit member => decimal unit (List.mem_of_mem_take member)
  have dropped : ∀ count, (digits.drop count).all isPlain = true := fun count =>
    plain_of_digits fun unit member => decimal unit (List.mem_of_mem_drop member)
  have zeros : ∀ count, (Digits.zeros count).all isPlain = true := fun count =>
    plain_of_digits (Digits.isDigit_zeros count)
  have all := plain_of_digits decimal
  have power := plain_of_digits (isDigit_text (exponent + digits.length - 1).natAbs)
  have point : isPlain 0x2E = true := rfl
  have zero : isPlain 0x30 = true := rfl
  have mark : isPlain 0x65 = true := rfl
  unfold Digits.layout
  simp only
  split
  · rw [List.all_append, all, zeros, Bool.and_self]
  split
  · rw [List.all_append, List.all_cons, taken, dropped, point, Bool.and_self, Bool.and_self]
  split
  · simp only [List.all_cons, List.all_append, all, zeros, point, zero, Bool.and_self]
  · have fraction : (if digits.length = 1 then [] else 0x2E :: digits.drop 1).all isPlain = true := by
      split
      · rfl
      · rw [List.all_cons, dropped, point, Bool.and_self]
    have sign : isPlain (if exponent + digits.length < 1 then 0x2D else 0x2B) = true := by
      split <;> rfl
    simp only [List.all_append, List.all_cons, taken, fraction, mark, sign, power, Bool.and_self]

private theorem numberText_plain (number : JsNumber) : (numberText number).all isPlain = true := by
  cases number with
  | nan => rfl
  | infinite negative => cases negative <;> rfl
  | finite value =>
    rw [numberText, Digits.text]
    split
    · rfl
    · rw [List.all_append, layout_plain (isDigit_text _), Bool.and_true]
      split <;> rfl

private theorem path_plain {cookie : CookieValue} (accepted : refusesCookie cookie = false) {path : JsString}
    (given : cookie.path = some path) : path.units.all isPlain = true := by
  simp only [refusesCookie, Bool.or_eq_false_iff, given, Option.any_some, Bool.not_eq_false',
    List.contains_eq_mem, decide_eq_false_iff_not] at accepted
  obtain ⟨⟨⟨⟨⟨-, printable, clean⟩, -⟩, -⟩, -⟩, -⟩ := accepted
  refine List.all_eq_true.mpr fun unit member => ?_
  rw [isPlain, List.all_eq_true.mp printable unit member, Bool.true_and, bne_iff_ne]
  rintro rfl
  exact clean member

private theorem requested_plain {cookie : CookieValue} (accepted : refusesCookie cookie = false)
    {asked : CookieAttribute} (member : asked ∈ cookie.requested) : asked.text.all isPlain = true := by
  have given : ∀ {label value : List UInt16}, label.all isPlain = true → value.all isPlain = true →
      (label ++ value).all isPlain = true := by
    intro label value first second
    rw [List.all_append, first, second, Bool.and_self]
  cases asked with
  | path text =>
    have present : cookie.path = some text := by simpa [CookieValue.requested] using member
    exact given rfl (path_plain accepted present)
  | maxAge seconds => exact given rfl (numberText_plain seconds)
  | expires moment => exact given rfl (toUTCString_plain moment)
  | secure => rfl
  | httpOnly => rfl
  | sameSite mode => exact given rfl (by cases mode <;> rfl)

private theorem pair_plain {cookie : CookieValue} (accepted : refusesCookie cookie = false) :
    cookie.pair.all isPlain = true := by
  obtain ⟨token, octets⟩ := accepted_parts accepted
  refine List.all_eq_true.mpr fun unit member => isPlain_iff.mpr ?_
  rcases List.mem_append.mp member with inside | inside
  · have range := token_range token inside
    omega
  · rcases List.mem_cons.mp inside with rfl | inside
    · decide
    · have range := octets_range octets inside
      omega

private theorem separator_not_mem {units : List UInt16} (plain : units.all isPlain = true) :
    (0x3B : UInt16) ∉ units := by
  intro member
  exact absurd (List.all_eq_true.mp plain _ member) (by decide)

private theorem part_plain {cookie : CookieValue} (accepted : refusesCookie cookie = false) :
    ∀ part ∈ cookie.requested.map (fun asked => 0x20 :: asked.text), part.all isPlain = true := by
  refine List.forall_mem_map.mpr fun asked member => ?_
  rw [List.all_cons, requested_plain accepted member]
  rfl

/-- The output is printable, and its parts are the pair and what was requested. -/
private theorem output_parts {cookie : CookieValue} {output : JsString}
    (serialized : serializeCookie cookie = .ok output) :
    (∀ unit ∈ output.units, 0x20 ≤ unit ∧ unit ≤ 0x7E) ∧
      output.units.splitOn 0x3B = cookie.pair :: cookie.requested.map fun asked => 0x20 :: asked.text := by
  obtain ⟨accepted, output_eq⟩ := serializeCookie_ok serialized
  have printable : ∀ {units : List UInt16}, units.all isPlain = true →
      ∀ unit ∈ units, 0x20 ≤ unit ∧ unit ≤ 0x7E := by
    intro units plain unit member
    obtain ⟨range, -⟩ := isPlain_iff.mp (List.all_eq_true.mp plain unit member)
    exact range
  rw [output_eq]
  constructor
  · intro unit member
    rcases List.mem_append.mp member with pair | rest
    · exact printable (pair_plain accepted) unit pair
    · obtain ⟨part, present, inside⟩ := List.mem_flatMap.mp rest
      rcases List.mem_cons.mp inside with rfl | inside
      · decide
      · exact printable (part_plain accepted part present) unit inside
  · exact splitOn_parts (separator_not_mem (pair_plain accepted)) fun part member =>
      separator_not_mem (part_plain accepted part member)

/-- A name is a token, and its values are cookie octets. -/
def CookieValues.WellFormed (entry : CookieValues) : Prop :=
  isToken entry.name = true ∧ ∀ value ∈ entry.values, isCookieOctets value = true

private theorem readPair_wellFormed {pair : List UInt16} {name value : JsString}
    (read : readPair pair = some (name, value)) : isToken name = true ∧ isCookieOctets value = true := by
  unfold readPair at read
  split at read
  · simp only at read
    split at read
    · rename_i fine
      cases read
      exact Bool.and_eq_true_iff.mp fine
    · cases read
  · cases read

private theorem readCookie_wellFormed {cookies : Cookies} {pair : List UInt16}
    (formed : ∀ entry ∈ cookies.rows, entry.WellFormed) :
    ∀ entry ∈ (readCookie cookies pair).rows, entry.WellFormed := by
  unfold readCookie
  split
  · rename_i name value read
    obtain ⟨token, octets⟩ := readPair_wellFormed read
    intro entry member
    unfold record at member
    split at member
    · rename_i held found
      rcases Table.mem_set.mp member with rfl | ⟨earlier, -⟩
      · obtain ⟨named, values⟩ := formed held (Table.mem_of_get found)
        refine ⟨named, fun other present => ?_⟩
        rcases List.mem_append.mp present with before | added
        · exact values other before
        · rw [List.mem_singleton.mp added]
          exact octets
      · exact formed entry earlier
    · rcases Table.mem_set.mp member with rfl | ⟨earlier, -⟩
      · refine ⟨token, fun other present => ?_⟩
        rw [List.mem_singleton.mp present]
        exact octets
      · exact formed entry earlier
  · exact formed

private theorem foldl_wellFormed {pairs : List (List UInt16)} {cookies : Cookies}
    (formed : ∀ entry ∈ cookies.rows, entry.WellFormed) :
    ∀ entry ∈ (pairs.foldl readCookie cookies).rows, entry.WellFormed := by
  induction pairs generalizing cookies with
  | nil => exact formed
  | cons pair pairs ih => exact ih (readCookie_wellFormed formed)

private theorem parseCookies_wellFormed (header : Option JsString) :
    ∀ entry ∈ (parseCookies header).rows, entry.WellFormed := by
  have empty : ∀ entry ∈ (Table.empty : Cookies).rows, entry.WellFormed := List.forall_mem_nil _
  cases header with
  | none => exact empty
  | some header =>
    simp only [parseCookies]
    split
    · exact empty
    · exact foldl_wellFormed empty

/-- Cookies that were accepted come back as they were, each output holds what was requested
and nothing else, and no header leaves anything but tokens and octets. -/
theorem cookies_round_trip :
    (∀ cookies : List CookieValue, (∀ cookie ∈ cookies, ∃ output, serializeCookie cookie = .ok output) →
      ∀ name, (parseCookies (some (cookieHeader cookies))).get name =
        entryOf name (valuesOf cookies name)) ∧
    (∀ (cookie : CookieValue) (output : JsString), serializeCookie cookie = .ok output →
      (∀ unit ∈ output.units, 0x20 ≤ unit ∧ unit ≤ 0x7E) ∧
      output.units.splitOn 0x3B =
        cookie.pair :: cookie.requested.map fun asked => 0x20 :: asked.text) ∧
    (∀ (header : Option JsString), ∀ entry ∈ (parseCookies header).rows, entry.WellFormed) := by
  refine ⟨fun cookies serialized name => ?_, fun cookie output => output_parts, parseCookies_wellFormed⟩
  refine get_parseCookies (fun cookie member => ?_) name
  obtain ⟨output, written⟩ := serialized cookie member
  exact (serializeCookie_ok written).1

private def session (value : String) : CookieValue :=
  ⟨js "sid", js value, some (js "/"), some (.finite 60), none, true, true, some .strict⟩

theorem session_cookies_read :
    (∀ cookie ∈ [session "one", session "two"], ∃ output, serializeCookie cookie = .ok output) ∧
    (parseCookies (some (cookieHeader [session "one", session "two"]))).get (js "sid") =
      some ⟨js "sid", [js "one", js "two"]⟩ ∧
    (∃ output, serializeCookie (session "one") = .ok output ∧
      output.units.splitOn 0x3B = [(js "sid=one").units, (js " Path=/").units,
        (js " Max-Age=").units ++ Digits.text 60, (js " Secure").units, (js " HttpOnly").units,
        (js " SameSite=Strict").units]) := by
  have serialized : ∀ cookie ∈ [session "one", session "two"],
      ∃ output, serializeCookie cookie = .ok output :=
    List.forall_mem_cons.mpr ⟨⟨_, rfl⟩, List.forall_mem_singleton.mpr ⟨_, rfl⟩⟩
  obtain ⟨read, parts, -⟩ := cookies_round_trip
  obtain ⟨output, written⟩ := serialized (session "one") List.mem_cons_self
  exact ⟨serialized, read _ serialized (js "sid"), output, written, (parts _ output written).2⟩

end N2FNest.Http
