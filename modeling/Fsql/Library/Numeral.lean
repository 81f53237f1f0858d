import Fsql.Library.Number
import Fsql.Library.Text

/-!
# Numerals that are read and those that are printed

A standard library reads more numerals than it prints: signs, zeros in front, any number of digits.
For each reader this file says which of the texts it takes are printed ones.

* `FullWidth w` — a hexadecimal numeral of a fixed width; `hexPad_eq_lower_iff`: these are printed,
  up to the case of their letters.
* `Shortest` — a decimal numeral without a sign or zeros that it could do without;
  `decimalInt_eq_lower_iff`: these are printed.
-/

set_option autoImplicit false

namespace Number

open Text

/-! ## Hexadecimal -/

/-- The text has the width, and no sign. -/
def FullWidth (w : Nat) (l : List Char) : Prop := l.head? ≠ some '+' ∧ l.length = w

instance (w : Nat) (l : List Char) : Decidable (FullWidth w l) :=
  inferInstanceAs (Decidable (_ ∧ _))

/-- A digit is printed as it is read, in lower case. -/
theorem hexDigit_of_hexValue {c : Char} {d : Nat} (h : hexValue c = some d) :
    d < 16 ∧ hexDigit d = c.toLower := by
  have hval : c = Char.ofNat c.toNat := (Char.ofNat_toNat c).symm
  have key : ∀ n < 128, hexValue (Char.ofNat n) = some d →
      d < 16 ∧ hexDigit d = (Char.ofNat n).toLower := by
    intro n hn hd
    have hall : ∀ n < 128, ∀ d ∈ hexValue (Char.ofNat n),
        d < 16 ∧ hexDigit d = (Char.ofNat n).toLower := by decide
    exact hall n hn d hd
  rw [hval]
  refine key c.toNat ?_ (hval ▸ h)
  simp only [hexValue, Char.isDigit, Char.le_def, UInt32.le_iff_toNat_le, Bool.and_eq_true,
    decide_eq_true_eq, ge_iff_le, Char.reduceVal, UInt32.reduceToNat] at h
  have hnat : c.toNat = c.val.toNat := rfl
  split at h
  · omega
  · split at h
    · omega
    · split at h
      · omega
      · cases h

/-- **Digits are printed as they are read**, if they are printed with their number. -/
theorem hexPad_of_ofHexDigits {l : List Char} {m n : Nat} (h : ofHexDigits l m = some n) :
    ∃ k < 16 ^ l.length, n = 16 ^ l.length * m + k ∧ hexPad l.length k = lower l := by
  -- A numeral is printed from its last digit on.
  induction l using List.reverseRecOn generalizing n with
  | nil => exact ⟨0, by simp, by simpa [ofHexDigits, eq_comm] using h, rfl⟩
  | append_singleton l c ih =>
    rw [ofHexDigits_append, Option.bind_eq_some_iff] at h
    obtain ⟨high, hhigh, hlow⟩ := h
    obtain ⟨k, hk, rfl, hpad⟩ := ih hhigh
    obtain ⟨d, hd, hn⟩ : ∃ d, hexValue c = some d ∧ 16 * (16 ^ l.length * m + k) + d = n := by
      simpa [ofHexDigits, Option.bind_eq_some_iff] using hlow
    obtain ⟨hlt, hdigit⟩ := hexDigit_of_hexValue hd
    have hpow : 16 ^ (l ++ [c]).length = 16 * 16 ^ l.length := by
      rw [List.length_append, List.length_singleton, Nat.pow_succ, Nat.mul_comm]
    refine ⟨16 * k + d, by omega, ?_, ?_⟩
    · rw [hpow, ← hn, Nat.mul_add, Nat.mul_assoc]
      omega
    · have hdiv : (16 * k + d) / 16 = k := by omega
      have hmod : (16 * k + d) % 16 = d := by omega
      rw [List.length_append, List.length_singleton, hexPad, hdiv, hmod, hpad, hdigit, lower, lower,
        List.map_append]
      rfl

/-- What is read in hexadecimal: the digits behind the sign, if there is one. -/
theorem parseHex_eq_some {max n : Nat} {l : List Char} (h : parseHex max l = some n) :
    n ≤ max ∧ ofHexDigits (if l.head? = some '+' then l.tail else l) 0 = some n := by
  simp only [parseHex] at h
  generalize (if l.head? = some '+' then l.tail else l) = digits at h ⊢
  split at h
  · cases h
  · obtain ⟨m, hm, hmax⟩ := Option.bind_eq_some_iff.mp h
    split at hmax
    · obtain rfl := Option.some.inj hmax
      exact ⟨‹_›, hm⟩
    · cases hmax

/-- **A hexadecimal numeral that is read is a printed one exactly if it has its full width.** -/
theorem hexPad_eq_lower_iff {w max n : Nat} {l : List Char} (h : parseHex max l = some n) :
    hexPad w n = lower l ↔ FullWidth w l := by
  constructor
  · intro heq
    have hlength : l.length = w := by
      rw [← length_hexPad w n, heq, lower, List.length_map]
    refine ⟨fun hplus ↦ ?_, hlength⟩
    obtain ⟨tail, rfl⟩ := List.head?_eq_some_iff.mp hplus
    have hmem : '+' ∈ hexPad w n := by
      rw [heq]
      exact List.mem_map.mpr ⟨'+', List.mem_cons_self, rfl⟩
    exact not_mem_hexPad (by decide) hmem
  · rintro ⟨hplus, rfl⟩
    obtain ⟨-, hdigits⟩ := parseHex_eq_some h
    rw [if_neg hplus] at hdigits
    obtain ⟨k, -, rfl, hpad⟩ := hexPad_of_ofHexDigits hdigits
    rw [Nat.mul_zero, Nat.zero_add, hpad]

/-! ## Decimal -/

/-- The text is a numeral without a sign `+`, and without zeros in front of it. -/
def Shortest (l : List Char) : Prop :=
  l = ['0'] ∨ ∀ c ∈ (if l.head? = some '-' then l.tail else l).head?, c ≠ '+' ∧ c ≠ '0'

instance (l : List Char) : Decidable (Shortest l) := inferInstanceAs (Decidable (_ ∨ _))

/-- No number but zero is printed with a zero in front. -/
theorem head?_decimal_ne_zero {n : Nat} (h : 0 < n) : (decimal n).head? ≠ some '0' := by
  induction n using Nat.strongRecOn with
  | ind n ih =>
    rw [decimal, Nat.toDigits_eq_if (by decide)]
    split
    · rename_i hlt
      have key : ∀ n < 10, 0 < n → [n.digitChar].head? ≠ some '0' := by decide
      exact key n hlt h
    · have hdiv : n / 10 < n ∧ 0 < n / 10 := by omega
      have hne : (Nat.toDigits 10 (n / 10)) ≠ [] := decimal_ne_nil (n / 10)
      rw [List.head?_append_of_ne_nil _ hne]
      exact ih (n / 10) hdiv.1 hdiv.2

theorem digitChar_of_isDigit {c : Char} (h : c.isDigit = true) :
    c.toNat - '0'.toNat < 10 ∧ (c.toNat - '0'.toNat).digitChar = c := by
  have hnat : c.toNat = c.val.toNat := rfl
  simp only [Char.isDigit, ge_iff_le, UInt32.le_iff_toNat_le, Bool.and_eq_true, decide_eq_true_eq,
    UInt32.reduceToNat, Char.reduceVal] at h
  have hzero : '0'.toNat = 48 := rfl
  have hlt : c.toNat - '0'.toNat < 10 := by omega
  refine ⟨hlt, ?_⟩
  have hchar : c = Char.ofNat (48 + (c.toNat - '0'.toNat)) := by
    rw [hzero, show 48 + (c.toNat - 48) = c.toNat by omega, Char.ofNat_toNat]
  have key : ∀ n < 10, n.digitChar = Char.ofNat (48 + n) := by decide
  rw [key _ hlt, ← hchar]

/-- **Digits are printed as they are read**, unless they begin with a zero. -/
theorem decimal_ofDigitChars {l : List Char} (hne : l ≠ []) (hdigits : ∀ c ∈ l, c.isDigit = true)
    (hhead : l.head? ≠ some '0') : decimal (Nat.ofDigitChars 10 l 0) = l := by
  induction l using List.reverseRecOn with
  | nil => exact absurd rfl hne
  | append_singleton l c ih =>
    obtain ⟨hlt, hchar⟩ := digitChar_of_isDigit (hdigits c (by simp))
    rw [Nat.ofDigitChars_append, Nat.ofDigitChars_cons, Nat.ofDigitChars_nil]
    rcases eq_or_ne l [] with rfl | hl
    · rw [decimal, Nat.ofDigitChars_nil, Nat.mul_zero, Nat.zero_add, Nat.toDigits_of_lt_base hlt,
        hchar]
      rfl
    · rw [List.head?_append_of_ne_nil _ hl] at hhead
      have hprint := ih hl (fun c hc ↦ hdigits c (List.mem_append_left _ hc)) hhead
      have hpos : 0 < Nat.ofDigitChars 10 l 0 := by
        rw [Nat.pos_iff_ne_zero]
        intro hzero
        rw [hzero] at hprint
        exact hhead (hprint ▸ rfl)
      rw [decimal, ← Nat.toDigits_append_toDigits (by decide) hpos hlt, Nat.toDigits_of_lt_base hlt,
        hchar]
      exact congrArg (· ++ [c]) hprint

/-- A numeral of digits is printed as it is read, exactly if it does not begin with a zero or is
none. -/
theorem decimal_eq_iff {l : List Char} (hne : l ≠ []) (hdigits : ∀ c ∈ l, c.isDigit = true) :
    decimal (Nat.ofDigitChars 10 l 0) = l ↔ l = ['0'] ∨ l.head? ≠ some '0' := by
  constructor
  · intro heq
    rcases Nat.eq_zero_or_pos (Nat.ofDigitChars 10 l 0) with hzero | hpos
    · exact .inl (by rw [← heq, hzero]; rfl)
    · exact .inr (heq ▸ head?_decimal_ne_zero hpos)
  · rintro (rfl | hhead)
    · rfl
    · exact decimal_ofDigitChars hne hdigits hhead

/-- **A signed numeral that is read is a printed one exactly if it is the shortest.** -/
theorem decimalInt_eq_iff {max : Nat} {l : List Char} {i : Int} (h : parseInt max l = some i) :
    decimalInt i = l ↔ Shortest l := by
  unfold parseInt at h
  split at h
  · rename_i digits
    split at h
    · rename_i hdigits
      obtain ⟨hne, hall, -⟩ := hdigits
      obtain rfl := Option.some.inj h
      have hiff := decimal_eq_iff hne (List.all_eq_true.mp hall)
      have hplus : digits.head? ≠ some '+' :=
        fun hplus ↦ absurd (List.all_eq_true.mp hall '+' (List.mem_of_mem_head? hplus)) (by decide)
      have hshortest : Shortest ('-' :: digits) ↔ digits.head? ≠ some '0' := by
        simp only [Shortest, List.head?_cons, if_pos, List.tail_cons]
        refine ⟨fun h hzero ↦ ?_, fun h ↦ .inr fun c hc ↦ ⟨?_, ?_⟩⟩
        · rcases h with heq | hhead
          · exact absurd (List.cons.inj heq).1 (by decide)
          · exact (hhead '0' hzero).2 rfl
        · rintro rfl
          exact hplus hc
        · rintro rfl
          exact h hc
      rw [hshortest, decimalInt]
      rcases Nat.eq_zero_or_pos (Nat.ofDigitChars 10 digits 0) with hzero | hpos
      · -- Zero is not printed with a sign, and all of its digits are zeros.
        rw [hzero, if_neg (by decide)]
        refine ⟨fun heq ↦ absurd (List.cons.inj heq).1 (by decide), fun hhead ↦ ?_⟩
        have hprint := hiff.mpr (.inr hhead)
        rw [hzero] at hprint
        exact absurd (hprint ▸ rfl) hhead
      · rw [if_pos (by omega), Int.natAbs_neg, Int.natAbs_natCast, List.cons_inj_right, hiff]
        refine ⟨fun h ↦ h.resolve_left ?_, .inr⟩
        rintro rfl
        exact absurd hpos (by decide)
    · cases h
  · rename_i hminus
    obtain ⟨n, hn, rfl⟩ := Option.map_eq_some_iff.mp h
    have hhead : l.head? ≠ some '-' := fun hhead ↦ by
      obtain ⟨tail, rfl⟩ := List.head?_eq_some_iff.mp hhead
      exact hminus tail rfl
    rw [decimalInt, if_neg (by omega), Int.natAbs_natCast, Shortest, if_neg hhead]
    by_cases hplus : l.head? = some '+'
    · -- No number is printed with a sign `+`.
      constructor
      · intro heq
        exact absurd (heq ▸ hplus) (head?_decimal_ne n)
      · rintro (rfl | hnot)
        · exact absurd hplus (by decide)
        · exact absurd rfl (hnot '+' hplus).1
    · simp only [parseNat, if_neg hplus] at hn
      split at hn
      · rename_i hdigits
        obtain ⟨hne, hall, -⟩ := hdigits
        obtain rfl := Option.some.inj hn
        rw [decimal_eq_iff hne (List.all_eq_true.mp hall)]
        refine or_congr_right ⟨fun h c hc ↦ ⟨?_, ?_⟩, fun h hzero ↦ (h '0' hzero).2 rfl⟩
        · rintro rfl
          exact hplus hc
        · rintro rfl
          exact h hc
      · cases hn

/-- What is read as a signed number is in the range. -/
theorem parseInt_bounds {max : Nat} {l : List Char} {i : Int} (h : parseInt max l = some i) :
    -(max : Int) - 1 ≤ i ∧ i ≤ max := by
  unfold parseInt at h
  split at h
  · split at h
    · rename_i hdigits
      have hle := hdigits.2.2
      obtain rfl := Option.some.inj h
      omega
    · cases h
  · obtain ⟨n, hn, rfl⟩ := Option.map_eq_some_iff.mp h
    simp only [parseNat] at hn
    generalize (if l.head? = some '+' then l.tail else l) = digits at hn
    split at hn
    · rename_i hdigits
      have hle := hdigits.2.2
      obtain rfl := Option.some.inj hn
      omega
    · cases hn

/-- Digits have no case. -/
theorem toLower_of_isDigit {c : Char} (h : c.isDigit = true) : c.toLower = c := by
  obtain ⟨hlt, hchar⟩ := digitChar_of_isDigit h
  have key : ∀ n < 10, n.digitChar.toLower = n.digitChar := by decide
  rw [← hchar, key _ hlt]

/-- What is read as a number has no case. -/
theorem lower_of_parseInt {max : Nat} {l : List Char} {i : Int} (h : parseInt max l = some i) :
    lower l = l := by
  have hchars : ∀ c ∈ l, c.isDigit = true ∨ c = '+' ∨ c = '-' := by
    unfold parseInt at h
    split at h
    · rename_i digits
      split at h
      · rename_i hdigits
        rw [List.forall_mem_cons]
        exact ⟨.inr (.inr rfl), fun c hc ↦ .inl (List.all_eq_true.mp hdigits.2.1 c hc)⟩
      · cases h
    · obtain ⟨n, hn, -⟩ := Option.map_eq_some_iff.mp h
      intro c hc
      by_cases hplus : c = '+'
      · exact .inr (.inl hplus)
      · refine .inl (by_contra fun hdigit ↦ ?_)
        exact not_mem_of_parseUnbounded (parseUnbounded_of_parseNat hn)
          (Bool.not_eq_true _ ▸ hdigit) hplus hc
  refine (List.map_congr_left fun c hc ↦ ?_).trans (List.map_id _)
  rcases hchars c hc with hdigit | rfl | rfl
  · exact toLower_of_isDigit hdigit
  · rfl
  · rfl

end Number
