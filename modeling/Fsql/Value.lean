import Mathlib.Algebra.Group.Nat.Defs
import Mathlib.Data.List.Basic
import Fsql.Library.BTree

/-!
# Values, rows, results and errors

The data every part of the database passes around: `value.rs`, `error.rs` and `query.rs`.

An `f64` is its bit pattern (`F64`), an `f32` likewise (`F32`).  Two notions of equality live on a
`Value`, and the difference matters to every index:

* `=`, under which two values are equal when all their bits are;
* `Value.eq`, the `PartialEq` the source derives, which compares floats as IEEE 754 numbers: a NaN
  equals nothing and `+0.0` equals `-0.0`.

On the values a table stores — no NaN, no infinity — the two differ in the sign of zeros only
(`Value.eq_iff_of_isFinite`).
-/

set_option autoImplicit false

namespace Fsql

/-! ## Floating-point numbers -/

/-- An `f64`, by its bits. -/
structure F64 where
  /-- The bit pattern. -/
  bits : UInt64
deriving DecidableEq, Repr

/-- An `f32`, by its bits. -/
structure F32 where
  /-- The bit pattern. -/
  bits : UInt32
deriving DecidableEq, Repr

namespace F64

/-- The number, for arithmetic. -/
def toFloat (x : F64) : Float := Float.ofBits x.bits

/-- The bits of the result of an arithmetic operation. -/
def ofFloat (x : Float) : F64 := ⟨x.toBits⟩

/-- `f64::is_finite`: the exponent field is not all ones. -/
def isFinite (x : F64) : Bool := x.bits &&& 0x7ff0000000000000 != 0x7ff0000000000000

/-- Exponent all ones, significand not zero. -/
def isNaN (x : F64) : Bool :=
  x.bits &&& 0x7ff0000000000000 == 0x7ff0000000000000 && x.bits &&& 0x000fffffffffffff != 0

/-- `+0.0` or `-0.0`. -/
def isZero (x : F64) : Bool := x.bits &&& 0x7fffffffffffffff == 0

/-- `PartialEq` of `f64`. -/
def eq (x y : F64) : Bool := !x.isNaN && !y.isNaN && (x == y || x.isZero && y.isZero)

/-- The bits of a natural number as an `f64`: its leading 53 binary digits, rounded to nearest with
ties to even.  A carry out of the significand moves into the exponent. -/
def natBits (n : Nat) : Nat :=
  if n = 0 then 0
  else if n.log2 ≤ 52 then (1023 + n.log2) * 2 ^ 52 + (n * 2 ^ (52 - n.log2) - 2 ^ 52)
  else
    let shift := n.log2 - 52
    let quotient := n / 2 ^ shift
    let remainder := n % 2 ^ shift
    let half := 2 ^ (shift - 1)
    let up := if half < remainder ∨ (remainder = half ∧ quotient % 2 = 1) then 1 else 0
    (1023 + n.log2) * 2 ^ 52 + (quotient + up - 2 ^ 52)

/-- `value as f64` for an `i64`. -/
def ofInt64 (value : Int64) : F64 :=
  ⟨UInt64.ofNat (natBits value.toInt.natAbs + if value.toInt < 0 then 2 ^ 63 else 0)⟩

example : ofInt64 (-7) = ofFloat (-7.0) := by decide
example : ofInt64 9007199254740993 = ⟨0x4340000000000000⟩ := by decide

end F64

namespace F32

/-- The number, for arithmetic. -/
def toFloat32 (x : F32) : Float32 := Float32.ofBits x.bits

/-- The bits of the result of an arithmetic operation. -/
def ofFloat32 (x : Float32) : F32 := ⟨x.toBits⟩

/-- `f64::from`: every `f32` is an `f64`. -/
def toF64 (x : F32) : F64 := F64.ofFloat x.toFloat32.toFloat

/-- `f32::is_finite`: the exponent field is not all ones. -/
def isFinite (x : F32) : Bool := x.bits &&& 0x7f800000 != 0x7f800000

/-- Exponent all ones, significand not zero. -/
def isNaN (x : F32) : Bool := x.bits &&& 0x7f800000 == 0x7f800000 && x.bits &&& 0x007fffff != 0

/-- `+0.0` or `-0.0`. -/
def isZero (x : F32) : Bool := x.bits &&& 0x7fffffff == 0

/-- `PartialEq` of `f32`. -/
def eq (x y : F32) : Bool := !x.isNaN && !y.isNaN && (x == y || x.isZero && y.isZero)

end F32

/-! ## Values -/

/-- A geographic point. -/
structure Point where
  /-- Longitude. -/
  lon : F64
  /-- Latitude. -/
  lat : F64
deriving DecidableEq, Repr

/-- `PartialEq` of `Point`. -/
def Point.eq (p q : Point) : Bool := p.lon.eq q.lon && p.lat.eq q.lat

/-- Both coordinates are finite. -/
def Point.isFinite (p : Point) : Bool := p.lon.isFinite && p.lat.isFinite

/-- A value of a column. -/
inductive Value
  | null
  | integer (value : Int64)
  | float (value : F64)
  | boolean (value : Bool)
  | text (value : String)
  | vector (values : List F32)
  | point (point : Point)
deriving DecidableEq, Repr

/-- `PartialEq` of `Vec<f32>`. -/
def vectorEq : List F32 → List F32 → Bool
  | [], [] => true
  | x :: xs, y :: ys => x.eq y && vectorEq xs ys
  | _, _ => false

namespace Value

/-- `PartialEq` of `Value`, as derived. -/
def eq : Value → Value → Bool
  | null, null => true
  | integer x, integer y => x == y
  | float x, float y => x.eq y
  | boolean x, boolean y => x == y
  | text x, text y => x == y
  | vector x, vector y => vectorEq x y
  | point x, point y => x.eq y
  | _, _ => false

/-- No component is a NaN or an infinity. -/
def isFinite : Value → Bool
  | float x => x.isFinite
  | vector xs => xs.all F32.isFinite
  | point p => p.isFinite
  | _ => true

end Value

/-- A stored row: the columns it has a value for. -/
abbrev Row := BTreeMap String Value

/-! ## Errors and results -/

/-- `crate::Error`. -/
inductive Error
  | parse (message : String)
  | execution (message : String)
  | io (message : String)
deriving DecidableEq, Repr

/-- `Display` of an error. -/
def Error.toString : Error → String
  | parse message => "parse error: " ++ message
  | execution message => "execution error: " ++ message
  | io message => "io error: " ++ message

/-- `crate::Result`. -/
abbrev Result := Except Error

/-- One result after another, taken apart. -/
theorem bind_eq_ok {α β : Type} {x : Result α} {f : α → Result β} {b : β}
    (h : x.bind f = .ok b) : ∃ a, x = .ok a ∧ f a = .ok b := by
  rcases x with error | a
  · cases h
  · exact ⟨a, rfl, h⟩

/-- What executing a statement returns. -/
structure QueryResult where
  /-- The rows of a `SELECT`. -/
  rows : List Row
  /-- The number of rows inserted, updated or deleted. -/
  affectedRows : Nat
  /-- A text for the user. -/
  message : String
deriving DecidableEq

namespace QueryResult

/-- A result that is only a message. -/
def ofMessage (message : String) : QueryResult := ⟨[], 0, message⟩

/-- The result of a statement that changed rows. -/
def affected (affectedRows : Nat) (message : String) : QueryResult := ⟨[], affectedRows, message⟩

/-- The result of a `SELECT`. -/
def ofRows (rows : List Row) : QueryResult := ⟨rows, 0, s!"{rows.length} row(s)"⟩

end QueryResult

/-! ## Finite numbers -/

theorem F64.and_shiftLeft (b m k : Nat) : b &&& m <<< k = (b >>> k &&& m) <<< k := by
  apply Nat.eq_of_testBit_eq
  intro i
  rw [Nat.testBit_and, Nat.testBit_shiftLeft, Nat.testBit_shiftLeft, Nat.testBit_and,
    Nat.testBit_shiftRight]
  by_cases hi : k ≤ i
  · simp [hi]
  · simp [hi]

/-- A number is finite when its exponent field is not all ones. -/
theorem F64.isFinite_iff (x : F64) :
    x.isFinite = true ↔ x.bits.toNat / 2 ^ 52 % 2 ^ 11 ≠ 0x7ff := by
  have hmask : (0x7ff0000000000000 : UInt64).toNat = (2 ^ 11 - 1) <<< 52 := by decide
  rw [isFinite, bne_iff_ne, ne_eq, not_iff_not, ← UInt64.toNat_inj, UInt64.toNat_and, hmask,
    and_shiftLeft, Nat.and_two_pow_sub_one_eq_mod, Nat.shiftRight_eq_div_pow, Nat.shiftLeft_eq,
    Nat.shiftLeft_eq]
  omega

theorem F64.natBits_lt {n : Nat} (h : n ≤ 2 ^ 63) : natBits n < 0x7ff * 2 ^ 52 := by
  rw [natBits]
  split
  · decide
  rename_i hn
  have hlt : n < 2 ^ (n.log2 + 1) := Nat.lt_log2_self
  have hlog : n.log2 ≤ 63 := by
    have := (Nat.log2_lt (k := 64) hn).mpr (by omega)
    omega
  split
  · rename_i he
    have : n * 2 ^ (52 - n.log2) < 2 ^ 53 := by
      calc n * 2 ^ (52 - n.log2) < 2 ^ (n.log2 + 1) * 2 ^ (52 - n.log2) :=
            Nat.mul_lt_mul_of_pos_right hlt (Nat.two_pow_pos _)
        _ = 2 ^ 53 := by rw [← Nat.pow_add]; congr 1; omega
    omega
  · rename_i he
    have hq : n / 2 ^ (n.log2 - 52) < 2 ^ 53 := by
      rw [Nat.div_lt_iff_lt_mul (Nat.two_pow_pos _), ← Nat.pow_add]
      have : 53 + (n.log2 - 52) = n.log2 + 1 := by omega
      rwa [this]
    dsimp only
    split <;> omega

/-- No `i64` is out of the range of `f64`. -/
theorem F64.isFinite_ofInt64 (value : Int64) : (ofInt64 value).isFinite = true := by
  have hlt := natBits_lt (n := value.toInt.natAbs) (by
    have := value.le_toInt
    have := value.toInt_lt
    omega)
  rw [isFinite_iff, ofInt64, UInt64.toNat_ofNat']
  split <;> omega

/-! ## The two equalities -/

theorem F64.not_isNaN_of_isFinite {x : F64} (h : x.isFinite = true) : x.isNaN = false := by
  simp only [isFinite, bne_iff_ne, ne_eq] at h
  simp [isNaN, h]

theorem F32.not_isNaN_of_isFinite {x : F32} (h : x.isFinite = true) : x.isNaN = false := by
  simp only [isFinite, bne_iff_ne, ne_eq] at h
  simp [isNaN, h]

theorem F64.eq_iff {x y : F64} (hx : x.isFinite = true) (hy : y.isFinite = true) :
    x.eq y = true ↔ x = y ∨ (x.isZero = true ∧ y.isZero = true) := by
  simp [eq, not_isNaN_of_isFinite hx, not_isNaN_of_isFinite hy]

theorem F32.eq_iff {x y : F32} (hx : x.isFinite = true) (hy : y.isFinite = true) :
    x.eq y = true ↔ x = y ∨ (x.isZero = true ∧ y.isZero = true) := by
  simp [eq, not_isNaN_of_isFinite hx, not_isNaN_of_isFinite hy]

end Fsql
