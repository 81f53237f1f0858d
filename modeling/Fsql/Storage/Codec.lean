import Fsql.Library.Number
import Fsql.Library.Text
import Fsql.Value

/-!
# Encoding values as text

The part of `storage/codec.rs` and `storage/table.rs` that turns a value into the key an index
stores it under: a tag, and the value's bits in hexadecimal.  `indexKey_inj` is what makes an index
a faithful picture of a column — two values have the same key only when they are the same value,
bit for bit.
-/

set_option autoImplicit false

namespace Fsql

open Number Text

/-- `encode_string`: the UTF-8 bytes in hexadecimal. -/
def encodeString (input : String) : String :=
  String.ofList (input.toByteArray.data.toList.flatMap fun byte ↦ hexPad 2 byte.toNat)

/-- `{:016x}` of an `f64`. -/
def hexF64 (x : F64) : List Char := hexPad 16 x.bits.toNat

/-- `{:08x}` of an `f32`. -/
def hexF32 (x : F32) : List Char := hexPad 8 x.bits.toNat

/-- `index_key`: the key under which an index stores a value. -/
def indexKey (value : Value) : Result String :=
  match value with
  | .null => .ok "N"
  | .integer value => .ok ("I:" ++ String.ofList (decimalInt value.toInt))
  | .float value =>
    if value.isFinite then .ok ("F:" ++ String.ofList (hexF64 value))
    else .error (.execution "non-finite value cannot be indexed")
  | .boolean value => .ok ("B:" ++ if value then "1" else "0")
  | .text value => .ok ("T:" ++ encodeString value)
  | .vector values =>
    if values.all F32.isFinite then
      .ok ("V:" ++ String.ofList (join ',' (values.map hexF32)))
    else .error (.execution "non-finite value cannot be indexed")
  | .point point =>
    if point.isFinite then
      .ok ("P:" ++ String.ofList (hexF64 point.lon ++ [','] ++ hexF64 point.lat))
    else .error (.execution "non-finite value cannot be indexed")

/-! ## Distinct values have distinct keys -/

theorem hexF64_inj {x y : F64} (h : hexF64 x = hexF64 y) : x = y := by
  have hbits := hexPad_inj (w := 16) (by have := x.bits.toNat_lt; omega)
    (by have := y.bits.toNat_lt; omega) h
  cases x; cases y
  simpa [UInt64.toNat_inj] using hbits

theorem hexF32_inj {x y : F32} (h : hexF32 x = hexF32 y) : x = y := by
  have hbits := hexPad_inj (w := 8) (by have := x.bits.toNat_lt; omega)
    (by have := y.bits.toNat_lt; omega) h
  cases x; cases y
  simpa [UInt32.toNat_inj] using hbits

@[simp] theorem length_hexF32 (x : F32) : (hexF32 x).length = 8 := length_hexPad 8 _

@[simp] theorem length_hexF64 (x : F64) : (hexF64 x).length = 16 := length_hexPad 16 _

theorem hexBytes_inj {a b : List UInt8}
    (h : (a.flatMap fun byte ↦ hexPad 2 byte.toNat) = b.flatMap fun byte ↦ hexPad 2 byte.toNat) :
    a = b := by
  induction a generalizing b with
  | nil =>
    cases b with
    | nil => rfl
    | cons y b =>
      have hlen := congrArg List.length h
      simp only [List.flatMap_nil, List.flatMap_cons, List.length_append, length_hexPad] at hlen
      simp only [List.length_nil] at hlen
      omega
  | cons x a ih =>
    cases b with
    | nil =>
      have hlen := congrArg List.length h
      simp only [List.flatMap_nil, List.flatMap_cons, List.length_append, length_hexPad] at hlen
      simp only [List.length_nil] at hlen
      omega
    | cons y b =>
      rw [List.flatMap_cons, List.flatMap_cons] at h
      obtain ⟨hhead, htail⟩ := List.append_inj h (by simp)
      have hxy := hexPad_inj (w := 2) (by have := x.toNat_lt; omega)
        (by have := y.toNat_lt; omega) hhead
      rw [ih htail, UInt8.toNat_inj.mp hxy]

theorem encodeString_inj {s t : String} (h : encodeString s = encodeString t) : s = t := by
  have hbytes := hexBytes_inj (String.ofList_injective h)
  have harr : s.toByteArray.data = t.toByteArray.data := Array.toList_inj.mp hbytes
  exact String.toByteArray_inj.mp (ByteArray.ext harr)

/-- The characters of the key of a value, finite or not. -/
def keyChars : Value → List Char
  | .null => ['N']
  | .integer value => 'I' :: ':' :: decimalInt value.toInt
  | .float value => 'F' :: ':' :: hexF64 value
  | .boolean value => 'B' :: ':' :: [if value then '1' else '0']
  | .text value => 'T' :: ':' :: (encodeString value).toList
  | .vector values => 'V' :: ':' :: join ',' (values.map hexF32)
  | .point point => 'P' :: ':' :: (hexF64 point.lon ++ ',' :: hexF64 point.lat)

theorem indexKey_eq (v : Value) :
    indexKey v = if v.isFinite then .ok (String.ofList (keyChars v))
      else .error (.execution "non-finite value cannot be indexed") := by
  cases v with
  | null => simp [indexKey, Value.isFinite, keyChars]
  | integer x => simp [indexKey, Value.isFinite, keyChars, ← String.toList_inj]
  | float x =>
    cases hx : x.isFinite <;>
      simp [indexKey, Value.isFinite, keyChars, hx, ← String.toList_inj]
  | boolean x => cases x <;> simp [indexKey, Value.isFinite, keyChars]
  | text x => simp [indexKey, Value.isFinite, keyChars, ← String.toList_inj]
  | vector xs =>
    cases hx : xs.all F32.isFinite <;>
      simp only [indexKey, Value.isFinite, keyChars, hx] <;> simp [← String.toList_inj]
  | point p =>
    cases hp : p.isFinite <;>
      simp [indexKey, Value.isFinite, keyChars, hp, ← String.toList_inj]

/-- A value has an index key exactly when it is finite. -/
theorem indexKey_eq_ok {v : Value} {key : String} :
    indexKey v = .ok key ↔ v.isFinite = true ∧ key = String.ofList (keyChars v) := by
  rw [indexKey_eq]
  split <;> rename_i h
  · simp [h, eq_comm]
  · simp [h]

theorem keyChars_inj {v w : Value} (h : keyChars v = keyChars w) : v = w := by
  cases v <;> cases w <;>
    simp only [keyChars, List.cons.injEq, Char.reduceEq, false_and, reduceCtorEq] at h
  case null.null => rfl
  case integer.integer x y => rw [Int64.toInt_inj.mp (decimalInt_inj h.2.2)]
  case float.float x y => rw [hexF64_inj h.2.2]
  case boolean.boolean x y => cases x <;> cases y <;> simp_all
  case text.text x y => rw [encodeString_inj (String.toList_inj.mp h.2.2)]
  case vector.vector xs ys =>
    have hmap := join_inj (n := 8) (by decide) (by simp) (by simp) h.2.2
    rw [List.map_injective_iff.mpr (fun x y ↦ hexF32_inj) hmap]
  case point.point p q =>
    obtain ⟨hlon, hlat⟩ := List.append_inj h.2.2 (by simp)
    cases p; cases q
    simp only [List.cons.injEq, true_and] at hlon hlat
    rw [hexF64_inj hlon, hexF64_inj hlat]

/-- **An index key determines the value it was made from.** -/
theorem indexKey_inj {v w : Value} {key : String} (hv : indexKey v = .ok key)
    (hw : indexKey w = .ok key) : v = w := by
  rw [indexKey_eq_ok] at hv hw
  exact keyChars_inj (String.ofList_injective (hv.2.symm.trans hw.2))

end Fsql
