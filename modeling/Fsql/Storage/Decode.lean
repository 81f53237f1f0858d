import Fsql.Storage.Codec

/-!
# Reading encoded values back

The other half of `storage/codec.rs`: strings and values are read from the text of a database file.
`decodeString_encodeString` and `decodeValue_encodeValue` are the round trips, for every string and
for every value, a NaN included; `not_mem_encodeString` and `not_mem_encodeValue` say which
characters the encoder never writes, which is what lets the file be cut into lines and fields again.
-/

set_option autoImplicit false

namespace Fsql

open Number Text

/-- `encode_value`: the text an index key has, for every value. -/
def encodeValue (value : Value) : List Char := keyChars value

/-- `str::as_bytes`. -/
def asBytes (l : List Char) : List UInt8 := l.flatMap String.utf8EncodeChar

/-- The bytes written by pairs of hexadecimal digits.  A pair that is not ASCII has no digit in
it. -/
def decodeBytes : List UInt8 → Option (List UInt8)
  | [] => some []
  | [_] => none
  | high :: low :: bytes => do
    let byte ← parseHex 255 [Char.ofNat high.toNat, Char.ofNat low.toNat]
    return UInt8.ofNat byte :: (← decodeBytes bytes)

/-- `decode_string`. -/
def decodeString (input : List Char) : Result String :=
  if (asBytes input).length % 2 ≠ 0 then .error (.execution "invalid hex string length")
  else
    match decodeBytes (asBytes input) with
    | none => .error (.execution "invalid hex string")
    | some bytes =>
      match String.fromUTF8? ⟨bytes.toArray⟩ with
      | none => .error (.execution "invalid utf-8 string")
      | some string => .ok string

/-- `decode_vector`. -/
def decodeVector (body : List Char) : Result Value :=
  if body = [] then .ok (.vector [])
  else
    match (body.splitOn ',').mapM (parseHex (2 ^ 32 - 1)) with
    | none => .error (.execution "invalid vector in database file")
    | some values => .ok (.vector (values.map fun bits ↦ ⟨UInt32.ofNat bits⟩))

/-- `decode_point`. -/
def decodePoint (body : List Char) : Result Value :=
  match splitOnce ',' body with
  | none => .error (.execution "invalid point in database file")
  | some (lon, lat) =>
    match parseHex (2 ^ 64 - 1) lon with
    | none => .error (.execution "invalid point lon")
    | some lon =>
      match parseHex (2 ^ 64 - 1) lat with
      | none => .error (.execution "invalid point lat")
      | some lat => .ok (.point ⟨⟨UInt64.ofNat lon⟩, ⟨UInt64.ofNat lat⟩⟩)

/-- `decode_value`. -/
def decodeValue (input : List Char) : Result Value :=
  let (kind, body) := (splitOnce ':' input).getD (input, [])
  match kind with
  | ['N'] => .ok .null
  | ['I'] =>
    match parseInt (2 ^ 63 - 1) body with
    | none => .error (.execution "invalid integer in database file")
    | some value => .ok (.integer (Int64.ofInt value))
  | ['F'] =>
    match parseHex (2 ^ 64 - 1) body with
    | none => .error (.execution "invalid float in database file")
    | some bits => .ok (.float ⟨UInt64.ofNat bits⟩)
  | ['B'] =>
    if body = ['0'] then .ok (.boolean false)
    else if body = ['1'] then .ok (.boolean true)
    else .error (.execution "invalid boolean in database file")
  | ['T'] => (decodeString body).map .text
  | ['V'] => decodeVector body
  | ['P'] => decodePoint body
  | _ => .error (.execution "unknown value kind in database file")

/-! ## Strings -/

theorem toList_encodeString (s : String) :
    (encodeString s).toList = s.toByteArray.data.toList.flatMap fun byte ↦ hexPad 2 byte.toNat := by
  rw [encodeString, String.toList_ofList]

/-- The encoder writes hexadecimal digits. -/
theorem not_mem_encodeString {c : Char} (h : ∀ m < 16, hexDigit m ≠ c) (s : String) :
    c ∉ (encodeString s).toList := by
  rw [toList_encodeString, List.mem_flatMap]
  rintro ⟨byte, -, hmem⟩
  exact not_mem_hexPad h hmem

theorem utf8EncodeChar_hexDigit {n : Nat} (h : n < 16) :
    String.utf8EncodeChar (hexDigit n) = [UInt8.ofNat (hexDigit n).toNat] := by
  have key : ∀ n < 16, String.utf8EncodeChar (hexDigit n) = [UInt8.ofNat (hexDigit n).toNat] := by
    decide
  exact key n h

theorem ofNat_toNat_hexDigit {n : Nat} (h : n < 16) :
    Char.ofNat (UInt8.ofNat (hexDigit n).toNat).toNat = hexDigit n := by
  have key : ∀ n < 16, Char.ofNat (UInt8.ofNat (hexDigit n).toNat).toNat = hexDigit n := by decide
  exact key n h

/-- The two digits of a byte are two bytes of the text. -/
theorem asBytes_hexPad (byte : UInt8) :
    asBytes (hexPad 2 byte.toNat) = [UInt8.ofNat (hexDigit (byte.toNat / 16 % 16)).toNat,
      UInt8.ofNat (hexDigit (byte.toNat % 16)).toNat] := by
  have hhigh : byte.toNat / 16 % 16 < 16 := Nat.mod_lt _ (by decide)
  have hlow : byte.toNat % 16 < 16 := Nat.mod_lt _ (by decide)
  have hpad : hexPad 2 byte.toNat =
      [hexDigit (byte.toNat / 16 % 16), hexDigit (byte.toNat % 16)] := rfl
  simp only [asBytes, hpad, List.flatMap_cons, List.flatMap_nil, utf8EncodeChar_hexDigit hhigh,
    utf8EncodeChar_hexDigit hlow]
  rfl

theorem decodeBytes_hexPad (byte : UInt8) (bytes : List UInt8) :
    decodeBytes (asBytes (hexPad 2 byte.toNat) ++ bytes) =
      (decodeBytes bytes).map (byte :: ·) := by
  have hhigh : byte.toNat / 16 % 16 < 16 := Nat.mod_lt _ (by decide)
  have hlow : byte.toNat % 16 < 16 := Nat.mod_lt _ (by decide)
  have hbyte : byte.toNat < 16 ^ 2 := byte.toNat_lt
  have hparse : parseHex 255 [hexDigit (byte.toNat / 16 % 16), hexDigit (byte.toNat % 16)] =
      some byte.toNat := parseHex_hexPad (w := 2) (by decide) hbyte (by omega)
  rw [asBytes_hexPad, List.cons_append, List.cons_append, List.nil_append, decodeBytes,
    ofNat_toNat_hexDigit hhigh, ofNat_toNat_hexDigit hlow, hparse]
  cases decodeBytes bytes with
  | none => rfl
  | some rest => simp

theorem decodeBytes_encode (bytes : List UInt8) :
    decodeBytes (asBytes (bytes.flatMap fun byte ↦ hexPad 2 byte.toNat)) = some bytes := by
  induction bytes with
  | nil => rfl
  | cons byte bytes ih =>
    rw [List.flatMap_cons, asBytes, List.flatMap_append, ← asBytes, ← asBytes, decodeBytes_hexPad,
      ih, Option.map_some]

theorem length_asBytes_encode (bytes : List UInt8) :
    (asBytes (bytes.flatMap fun byte ↦ hexPad 2 byte.toNat)).length = 2 * bytes.length := by
  induction bytes with
  | nil => rfl
  | cons byte bytes ih =>
    rw [List.flatMap_cons, asBytes, List.flatMap_append, ← asBytes, ← asBytes, List.length_append,
      ih, asBytes_hexPad, List.length_cons]
    simp only [List.length_cons, List.length_nil]
    omega

/-- **Every string is read back.** -/
theorem decodeString_encodeString (s : String) : decodeString (encodeString s).toList = .ok s := by
  have heven : (asBytes (s.toByteArray.data.toList.flatMap fun byte ↦
      hexPad 2 byte.toNat)).length % 2 = 0 := by
    rw [length_asBytes_encode]
    omega
  have hutf8 : String.fromUTF8? ⟨s.toByteArray.data.toList.toArray⟩ = some s := by
    rw [Array.toArray_toList]
    exact dif_pos s.isValidUTF8
  rw [toList_encodeString, decodeString, if_neg (not_not.mpr heven), decodeBytes_encode]
  simp only [hutf8]

/-! ## Values -/

theorem ofNat_hexF64 (x : F64) : parseHex (2 ^ 64 - 1) (hexF64 x) = some x.bits.toNat :=
  parseHex_hexPad (by decide) x.bits.toNat_lt (Nat.le_sub_one_of_lt x.bits.toNat_lt)

theorem ofNat_hexF32 (x : F32) : parseHex (2 ^ 32 - 1) (hexF32 x) = some x.bits.toNat :=
  parseHex_hexPad (by decide) x.bits.toNat_lt (Nat.le_sub_one_of_lt x.bits.toNat_lt)

theorem mapM_hexF32 (xs : List F32) :
    (xs.map hexF32).mapM (parseHex (2 ^ 32 - 1)) = some (xs.map fun x ↦ x.bits.toNat) := by
  induction xs with
  | nil => rfl
  | cons x xs ih =>
    rw [List.map_cons, List.mapM_cons, ofNat_hexF32, ih]
    rfl

theorem comma_not_mem_hexPad (w n : Nat) : ',' ∉ hexPad w n := not_mem_hexPad (by decide)

theorem decodeVector_join (xs : List F32) :
    decodeVector (join ',' (xs.map hexF32)) = .ok (.vector xs) := by
  cases xs with
  | nil => rfl
  | cons x xs =>
    have hne : join ',' ((x :: xs).map hexF32) ≠ [] := by
      intro hnil
      have hlen := congrArg List.length hnil
      cases xs <;> simp [join] at hlen
    have hsplit : (join ',' ((x :: xs).map hexF32)).splitOn ',' = (x :: xs).map hexF32 := by
      refine splitOn_join (fun l hl ↦ ?_) (List.cons_ne_nil _ _)
      obtain ⟨y, -, rfl⟩ := List.mem_map.mp hl
      exact comma_not_mem_hexPad 8 _
    have hbits : ((x :: xs).map fun x ↦ x.bits.toNat).map (fun bits ↦ F32.mk (UInt32.ofNat bits)) =
        x :: xs := by
      rw [List.map_map]
      refine List.map_id'' (fun y ↦ ?_) _
      rw [Function.comp_apply, UInt32.ofNat_toNat]
    rw [decodeVector, if_neg hne, hsplit, mapM_hexF32]
    simp only [hbits]

theorem decodePoint_append (p : Point) :
    decodePoint (hexF64 p.lon ++ ',' :: hexF64 p.lat) = .ok (.point p) := by
  have hsplit : splitOnce ',' (hexF64 p.lon ++ ',' :: hexF64 p.lat) =
      some (hexF64 p.lon, hexF64 p.lat) := splitOnce_append (comma_not_mem_hexPad 16 _) _
  rw [decodePoint, hsplit]
  simp only [ofNat_hexF64, UInt64.ofNat_toNat]

/-- **Every value is read back**, bit for bit. -/
theorem decodeValue_encodeValue (v : Value) : decodeValue (encodeValue v) = .ok v := by
  cases v with
  | null => rfl
  | integer x =>
    have hsplit : splitOnce ':' (encodeValue (.integer x)) = some (['I'], decimalInt x.toInt) := rfl
    have hparse : parseInt (2 ^ 63 - 1) (decimalInt x.toInt) = some x.toInt := by
      have := x.le_toInt
      have := x.toInt_lt
      exact parseInt_decimalInt (by omega) (by omega)
    rw [decodeValue, hsplit]
    simp only [Option.getD_some, hparse, Int64.ofInt_toInt]
  | float x =>
    have hsplit : splitOnce ':' (encodeValue (.float x)) = some (['F'], hexF64 x) := rfl
    rw [decodeValue, hsplit]
    simp only [Option.getD_some, ofNat_hexF64, UInt64.ofNat_toNat]
  | boolean x => cases x <;> rfl
  | text s =>
    have hsplit : splitOnce ':' (encodeValue (.text s)) =
      some (['T'], (encodeString s).toList) := rfl
    rw [decodeValue, hsplit]
    simp only [Option.getD_some, decodeString_encodeString]
    rfl
  | vector xs => exact decodeVector_join xs
  | point p => exact decodePoint_append p

/-- The encoder separates the parts of a value by colons and commas only. -/
theorem not_mem_encodeValue {c : Char} (hhex : ∀ m < 16, hexDigit m ≠ c)
    (hsigns : c ∉ ['N', 'I', 'F', 'B', 'T', 'V', 'P', ':', ',', '-', '0', '1'])
    (hdigit : c.isDigit = false) (v : Value) : c ∉ encodeValue v := by
  simp only [List.mem_cons, List.not_mem_nil, or_false, not_or] at hsigns
  obtain ⟨hN, hI, hF, hB, hT, hV, hP, hcolon, hcomma, hminus, h0, h1⟩ := hsigns
  cases v with
  | null => simpa [encodeValue, keyChars] using hN
  | integer x =>
    have hdecimal : c ∉ decimalInt x.toInt := by
      rw [decimalInt]
      split
      · rw [List.mem_cons, not_or]
        exact ⟨hminus, not_mem_decimal hdigit⟩
      · exact not_mem_decimal hdigit
    simp [encodeValue, keyChars, hI, hcolon, hdecimal]
  | float x => simp [encodeValue, keyChars, hF, hcolon, hexF64, not_mem_hexPad hhex]
  | boolean x => cases x <;> simp [encodeValue, keyChars, hB, hcolon, h0, h1]
  | text s => simp [encodeValue, keyChars, hT, hcolon, not_mem_encodeString hhex]
  | vector xs =>
    have hjoin : c ∉ join ',' (xs.map hexF32) := by
      intro hmem
      rcases mem_join hmem with heq | ⟨l, hl, hc⟩
      · exact hcomma heq
      · obtain ⟨x, -, rfl⟩ := List.mem_map.mp hl
        exact not_mem_hexPad hhex hc
    simp [encodeValue, keyChars, hV, hcolon, hjoin]
  | point p =>
    simp [encodeValue, keyChars, hP, hcolon, hcomma, hexF64, not_mem_hexPad hhex]

end Fsql
