import Mathlib.Data.List.Basic
import Mathlib.Tactic.Ring

/-!
# Numbers as text

Decimal and hexadecimal numerals as a standard library reads and prints them.

* `Number.parseNat`, `Number.parseInt` — an optional sign, digits, and a range check.
* `Number.decimal` — the digits of a natural number; `Number.parseNat_decimal` is the round trip,
  and it makes `Number.decimal` injective.
* `Number.hexPad w n` — the `w` low hexadecimal digits of `n`, zeros included, so that two numbers
  below `16 ^ w` print alike only when they are equal (`Number.hexPad_inj`); `Number.parseHex` reads
  them back (`Number.parseHex_hexPad`).
* `Number.parseScientific` — the grammar of a decimal floating-point literal, as a significand and
  a power of ten.
-/

set_option autoImplicit false

namespace Number

/-! ## Decimal integers -/

/-- The decimal digits of `n`. -/
def decimal (n : Nat) : List Char := Nat.toDigits 10 n

/-- `str::parse` at an unsigned type whose greatest value is `max`. -/
def parseNat (max : Nat) (l : List Char) : Option Nat :=
  let digits := if l.head? = some '+' then l.tail else l
  if digits ≠ [] ∧ digits.all Char.isDigit ∧ Nat.ofDigitChars 10 digits 0 ≤ max then
    some (Nat.ofDigitChars 10 digits 0)
  else none

/-- `str::parse` at an unsigned type without a greatest value. -/
def parseUnbounded (l : List Char) : Option Nat :=
  let digits := if l.head? = some '+' then l.tail else l
  if digits ≠ [] ∧ digits.all Char.isDigit then some (Nat.ofDigitChars 10 digits 0) else none

/-- `str::parse` at a signed type of the range `[-max - 1, max]`. -/
def parseInt (max : Nat) (l : List Char) : Option Int :=
  match l with
  | '-' :: digits =>
    if digits ≠ [] ∧ digits.all Char.isDigit ∧ Nat.ofDigitChars 10 digits 0 ≤ max + 1 then
      some (-(Nat.ofDigitChars 10 digits 0 : Int))
    else none
  | l => (parseNat max l).map (↑)

theorem decimal_ne_nil (n : Nat) : decimal n ≠ [] := by
  rw [decimal, ← List.length_pos_iff_ne_nil]
  exact Nat.length_toDigits_pos

theorem isDigit_of_mem_decimal {n : Nat} {c : Char} (h : c ∈ decimal n) : c.isDigit = true :=
  Nat.isDigit_of_mem_toDigits (by decide) (by decide) h

theorem ofDigitChars_decimal (n : Nat) : Nat.ofDigitChars 10 (decimal n) 0 = n :=
  Nat.ofDigitChars_ten_toDigits

theorem decimal_inj {m n : Nat} (h : decimal m = decimal n) : m = n := by
  rw [← ofDigitChars_decimal m, h, ofDigitChars_decimal]

theorem not_mem_decimal {n : Nat} {c : Char} (h : c.isDigit = false) : c ∉ decimal n := by
  intro hmem
  rw [isDigit_of_mem_decimal hmem] at h
  cases h

theorem all_isDigit_decimal (n : Nat) : (decimal n).all Char.isDigit = true :=
  List.all_eq_true.mpr fun _ hc ↦ isDigit_of_mem_decimal hc

theorem head?_decimal_ne (n : Nat) : (decimal n).head? ≠ some '+' :=
  fun h ↦ not_mem_decimal (by decide) (List.mem_of_mem_head? h)

/-- **What is printed is read back.** -/
theorem parseNat_decimal {max n : Nat} (h : n ≤ max) : parseNat max (decimal n) = some n := by
  simp [parseNat, head?_decimal_ne, decimal_ne_nil, all_isDigit_decimal, ofDigitChars_decimal, h]

theorem parseUnbounded_decimal (n : Nat) : parseUnbounded (decimal n) = some n := by
  simp [parseUnbounded, head?_decimal_ne, decimal_ne_nil, all_isDigit_decimal, ofDigitChars_decimal]

/-- A number in a range is a number. -/
theorem parseUnbounded_of_parseNat {max : Nat} {l : List Char} {n : Nat}
    (h : parseNat max l = some n) : parseUnbounded l = some n := by
  simp only [parseNat, parseUnbounded] at h ⊢
  generalize (if l.head? = some '+' then l.tail else l) = digits at h ⊢
  split at h
  · rename_i hall
    rw [if_pos ⟨hall.1, hall.2.1⟩]
    exact h
  · cases h

/-- A text that reads as a number has no characters but digits and a sign. -/
theorem not_mem_of_parseUnbounded {l : List Char} {n : Nat} (h : parseUnbounded l = some n)
    {c : Char} (hdigit : c.isDigit = false) (hplus : c ≠ '+') : c ∉ l := by
  intro hmem
  have hdigits : c ∈ if l.head? = some '+' then l.tail else l := by
    split
    · rename_i hhead
      obtain ⟨tail, rfl⟩ := List.head?_eq_some_iff.mp hhead
      exact (List.mem_cons.mp hmem).resolve_left hplus
    · exact hmem
  simp only [parseUnbounded] at h
  generalize (if l.head? = some '+' then l.tail else l) = digits at h hdigits
  split at h
  · rename_i hall
    rw [List.all_eq_true.mp hall.2 c hdigits] at hdigit
    cases hdigit
  · cases h

/-- A signed number in decimal. -/
def decimalInt (i : Int) : List Char :=
  if i < 0 then '-' :: decimal i.natAbs else decimal i.natAbs

theorem decimalInt_inj {i j : Int} (h : decimalInt i = decimalInt j) : i = j := by
  have hminus : ∀ m n : Nat, '-' :: decimal m ≠ decimal n := by
    intro m n hmn
    have hmem : '-' ∈ decimal n := hmn ▸ List.mem_cons_self
    exact absurd (isDigit_of_mem_decimal hmem) (by decide)
  rw [decimalInt, decimalInt] at h
  split at h <;> split at h
  · have := decimal_inj (List.cons.inj h).2
    omega
  · exact absurd h (hminus _ _)
  · exact absurd h.symm (hminus _ _)
  · have := decimal_inj h
    omega

/-- **What is printed with a sign is read back.** -/
theorem parseInt_decimalInt {max : Nat} {i : Int} (hlo : -(max : Int) - 1 ≤ i) (hhi : i ≤ max) :
    parseInt max (decimalInt i) = some i := by
  rw [decimalInt]
  split
  · rename_i hneg
    have hle : i.natAbs ≤ max + 1 := by omega
    have habs : -(i.natAbs : Int) = i := by omega
    have hdigits : Nat.ofDigitChars 10 (decimal i.natAbs) 0 ≤ max + 1 := by
      rw [ofDigitChars_decimal]
      exact hle
    rw [parseInt, if_pos ⟨decimal_ne_nil _, all_isDigit_decimal _, hdigits⟩, ofDigitChars_decimal,
      habs]
  · rename_i hnonneg
    have hle : i.natAbs ≤ max := by omega
    have habs : (i.natAbs : Int) = i := by omega
    rw [parseInt]
    · rw [parseNat_decimal hle, Option.map_some, habs]
    · intro digits heq
      have hmem : '-' ∈ decimal i.natAbs := heq ▸ List.mem_cons_self
      exact not_mem_decimal (by decide) hmem

/-! ## Hexadecimal -/

/-- A hexadecimal digit in lower case. -/
def hexDigit (n : Nat) : Char := if n < 10 then Char.ofNat (48 + n) else Char.ofNat (87 + n)

/-- The `w` low hexadecimal digits of `n`, the most significant first. -/
def hexPad : Nat → Nat → List Char
  | 0, _ => []
  | w + 1, n => hexPad w (n / 16) ++ [hexDigit (n % 16)]

theorem hexDigit_inj {m n : Nat} (hm : m < 16) (hn : n < 16) (h : hexDigit m = hexDigit n) :
    m = n := by
  have key : ∀ m < 16, ∀ n < 16, hexDigit m = hexDigit n → m = n := by decide
  exact key m hm n hn h

@[simp] theorem length_hexPad (w n : Nat) : (hexPad w n).length = w := by
  induction w generalizing n with
  | zero => rfl
  | succ w ih => simp [hexPad, ih]

theorem hexPad_inj {w m n : Nat} (hm : m < 16 ^ w) (hn : n < 16 ^ w)
    (h : hexPad w m = hexPad w n) : m = n := by
  induction w generalizing m n with
  | zero => simp at hm hn; omega
  | succ w ih =>
    rw [hexPad, hexPad] at h
    obtain ⟨hhigh, hlow⟩ := List.append_inj h (by simp)
    have h1 : m / 16 = n / 16 :=
      ih (Nat.div_lt_of_lt_mul (by rwa [Nat.pow_succ, Nat.mul_comm] at hm))
        (Nat.div_lt_of_lt_mul (by rwa [Nat.pow_succ, Nat.mul_comm] at hn)) hhigh
    have h2 : m % 16 = n % 16 :=
      hexDigit_inj (Nat.mod_lt _ (by decide)) (Nat.mod_lt _ (by decide)) (List.cons.inj hlow).1
    omega

/-- The value of a hexadecimal digit, of either case. -/
def hexValue (c : Char) : Option Nat :=
  if c.isDigit then some (c.toNat - '0'.toNat)
  else if 'a' ≤ c ∧ c ≤ 'f' then some (c.toNat - 'a'.toNat + 10)
  else if 'A' ≤ c ∧ c ≤ 'F' then some (c.toNat - 'A'.toNat + 10)
  else none

/-- The number written by hexadecimal digits, read after those of `n`. -/
def ofHexDigits : List Char → Nat → Option Nat
  | [], n => some n
  | c :: cs, n => (hexValue c).bind fun digit ↦ ofHexDigits cs (16 * n + digit)

/-- `from_str_radix` at base 16 and an unsigned type whose greatest value is `max`. -/
def parseHex (max : Nat) (l : List Char) : Option Nat :=
  let digits := if l.head? = some '+' then l.tail else l
  if digits = [] then none
  else (ofHexDigits digits 0).bind fun n ↦ if n ≤ max then some n else none

theorem hexValue_hexDigit {n : Nat} (h : n < 16) : hexValue (hexDigit n) = some n := by
  have key : ∀ n < 16, hexValue (hexDigit n) = some n := by decide
  exact key n h

theorem ofHexDigits_append (l l' : List Char) (n : Nat) :
    ofHexDigits (l ++ l') n = (ofHexDigits l n).bind (ofHexDigits l') := by
  induction l generalizing n with
  | nil => rfl
  | cons c l ih =>
    rw [List.cons_append, ofHexDigits, ofHexDigits]
    cases hexValue c with
    | none => rfl
    | some digit => exact ih (16 * n + digit)

theorem ofHexDigits_hexPad {w n : Nat} (h : n < 16 ^ w) (m : Nat) :
    ofHexDigits (hexPad w n) m = some (16 ^ w * m + n) := by
  induction w generalizing n m with
  | zero =>
    rw [Nat.pow_zero] at h
    rw [hexPad, ofHexDigits, Nat.pow_zero]
    congr 1
    omega
  | succ w ih =>
    have hhigh : n / 16 < 16 ^ w :=
      Nat.div_lt_of_lt_mul (by rwa [Nat.pow_succ, Nat.mul_comm] at h)
    have hlow : n % 16 < 16 := Nat.mod_lt n (by decide)
    rw [hexPad, ofHexDigits_append, ih hhigh, Option.bind_some]
    simp only [ofHexDigits, hexValue_hexDigit hlow, Option.bind_some, Option.some_inj, Nat.pow_succ]
    have := Nat.div_add_mod n 16
    have : 16 ^ w * 16 * m = 16 * (16 ^ w * m) := by ring
    omega

theorem mem_hexPad {w n : Nat} {c : Char} (h : c ∈ hexPad w n) : ∃ m < 16, c = hexDigit m := by
  induction w generalizing n with
  | zero => simp [hexPad] at h
  | succ w ih =>
    rw [hexPad, List.mem_append, List.mem_singleton] at h
    rcases h with h | rfl
    · exact ih h
    · exact ⟨n % 16, Nat.mod_lt n (by decide), rfl⟩

/-- A hexadecimal numeral has no characters but digits. -/
theorem not_mem_hexPad {w n : Nat} {c : Char} (h : ∀ m < 16, hexDigit m ≠ c) : c ∉ hexPad w n := by
  intro hmem
  obtain ⟨m, hm, rfl⟩ := mem_hexPad hmem
  exact h m hm rfl

/-- **What is printed in hexadecimal is read back.** -/
theorem parseHex_hexPad {w n max : Nat} (hw : 0 < w) (hn : n < 16 ^ w) (hmax : n ≤ max) :
    parseHex max (hexPad w n) = some n := by
  have hhead : (hexPad w n).head? ≠ some '+' :=
    fun h ↦ not_mem_hexPad (by decide) (List.mem_of_mem_head? h)
  have hne : hexPad w n ≠ [] := by
    rw [← List.length_pos_iff_ne_nil, length_hexPad]
    exact hw
  simp [parseHex, hhead, hne, ofHexDigits_hexPad hn, hmax]

/-! ## Floating-point literals -/

/-- Split off the leading decimal digits. -/
def spanDigits (l : List Char) : List Char × List Char := l.span Char.isDigit

/-- The power of ten of a literal: nothing, or `e` with an optional sign and digits. -/
def parseExponent : List Char → Option Int
  | [] => some 0
  | c :: l =>
    if c = 'e' ∨ c = 'E' then
      let (negative, digits) := match l with
        | '-' :: l => (true, l)
        | '+' :: l => (false, l)
        | l => (false, l)
      if digits ≠ [] ∧ digits.all Char.isDigit then
        let e : Int := Nat.ofDigitChars 10 digits 0
        some (if negative then -e else e)
      else none
    else none

/-- A decimal literal `d.d` without a sign: the significand and the power of ten. -/
def parseScientific (l : List Char) : Option (Nat × Int) :=
  let (whole, rest) := spanDigits l
  let (fraction, rest) := match rest with
    | '.' :: rest => spanDigits rest
    | rest => ([], rest)
  if whole = [] ∧ fraction = [] then none
  else
    (parseExponent rest).map fun e ↦
      (Nat.ofDigitChars 10 (whole ++ fraction) 0, e - fraction.length)

end Number
