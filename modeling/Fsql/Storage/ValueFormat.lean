import Fsql.Library.Numeral
import Fsql.Library.Occurrence
import Fsql.Storage.Decode

/-!
# Which texts are read as a value and are not written for one

`decode_value` reads what `encode_value` writes, and more: the integer parsers below it take a sign
`+`, zeros in front and any number of digits, and what follows a tag is not always looked at.
`Loose` lists the texts that are read although no value is written like this, and `exact_iff` says
that they are all: every other text that is read is the one that is written for its value, up to the
case of the hexadecimal digits.
-/

set_option autoImplicit false

namespace Fsql

open Number Text

/-- **The text is read as nothing that is written differently**, up to the case of letters. -/
def Exact (input : List Char) : Prop :=
  ∀ v, decodeValue input = .ok v → lower (encodeValue v) = lower input

/-! ## Bytes -/

/-- The characters are the bytes in pairs, each read as a number. -/
inductive Pairs : List Char → List UInt8 → Prop
  | nil : Pairs [] []
  | cons {high low : Char} {body : List Char} {byte : Nat} {bytes : List UInt8}
    (hbyte : parseHex 255 [high, low] = some byte) (hbody : Pairs body bytes) :
    Pairs (high :: low :: body) (UInt8.ofNat byte :: bytes)

/-- The first byte of a character says whether it is the only one. -/
theorem utf8EncodeChar_eq_cons (c : Char) : ∃ byte bytes, String.utf8EncodeChar c = byte :: bytes ∧
    (byte.toNat < 128 ∨ c.toNat < 128 → bytes = [] ∧ Char.ofNat byte.toNat = c) := by
  have hnat : c.toNat = c.val.toNat := rfl
  unfold String.utf8EncodeChar
  dsimp only
  split
  · refine ⟨_, _, rfl, fun _ ↦ ⟨rfl, ?_⟩⟩
    rw [UInt8.toNat_ofNat', Nat.mod_eq_of_lt (by omega), ← hnat, Char.ofNat_toNat]
  · split
    · refine ⟨_, _, rfl, fun h ↦ ?_⟩
      rw [UInt8.toNat_ofNat'] at h
      omega
    · split
      · refine ⟨_, _, rfl, fun h ↦ ?_⟩
        rw [UInt8.toNat_ofNat'] at h
        omega
      · refine ⟨_, _, rfl, fun h ↦ ?_⟩
        rw [UInt8.toNat_ofNat'] at h
        omega

theorem toNat_of_hexValue {c : Char} {d : Nat} (h : hexValue c = some d) : c.toNat < 128 := by
  simp only [hexValue, Char.isDigit, Char.le_def, UInt32.le_iff_toNat_le, Bool.and_eq_true,
    decide_eq_true_eq, ge_iff_le, Char.reduceVal, UInt32.reduceToNat] at h
  have hnat : c.toNat = c.val.toNat := rfl
  split at h
  · omega
  · split at h
    · omega
    · split at h
      · omega
      · cases h

/-- **What a pair is read as**: the second character is a digit, the first one a digit or a sign. -/
theorem parseHex_pair {max n : Nat} {high low : Char} (h : parseHex max [high, low] = some n) :
    n ≤ max ∧ (high = '+' ∨ ∃ d, hexValue high = some d) ∧ ∃ d, hexValue low = some d := by
  obtain ⟨hle, hdigits⟩ := parseHex_eq_some h
  rw [List.head?_cons, List.tail_cons] at hdigits
  refine ⟨hle, ?_⟩
  by_cases hplus : high = '+'
  · rw [if_pos (congrArg some hplus), ofHexDigits] at hdigits
    obtain ⟨d, hd, -⟩ := Option.bind_eq_some_iff.mp hdigits
    exact ⟨.inl hplus, d, hd⟩
  · rw [if_neg fun heq ↦ hplus (Option.some.inj heq), ofHexDigits] at hdigits
    obtain ⟨d, hd, hrest⟩ := Option.bind_eq_some_iff.mp hdigits
    rw [ofHexDigits] at hrest
    obtain ⟨d', hd', -⟩ := Option.bind_eq_some_iff.mp hrest
    exact ⟨.inr ⟨d, hd⟩, d', hd'⟩

theorem ascii_of_parseHex {max n : Nat} {high low : Char} (h : parseHex max [high, low] = some n) :
    high.toNat < 128 ∧ low.toNat < 128 := by
  obtain ⟨-, hhigh, d, hlow⟩ := parseHex_pair h
  refine ⟨?_, toNat_of_hexValue hlow⟩
  rcases hhigh with rfl | ⟨d, hd⟩
  · decide
  · exact toNat_of_hexValue hd

/-- A byte is a character of its own number. -/
theorem toNat_ofNat_byte (byte : UInt8) : (Char.ofNat byte.toNat).toNat = byte.toNat := by
  have hlt := byte.toNat_lt
  rw [Char.ofNat, dif_pos (by left; omega)]
  rfl

/-- **A text is read as bytes exactly if it is pairs of characters.** -/
theorem decodeBytes_eq_some_iff {body : List Char} {bytes : List UInt8} :
    decodeBytes (asBytes body) = some bytes ↔ Pairs body bytes := by
  constructor
  · intro h
    induction hn : body.length using Nat.strongRecOn generalizing body bytes with
    | ind n ih =>
      cases body with
      | nil =>
        obtain rfl := Option.some.inj h
        exact .nil
      | cons c body =>
        obtain ⟨byte, more, hc, hone⟩ := utf8EncodeChar_eq_cons c
        rw [asBytes, List.flatMap_cons, hc, ← asBytes, List.cons_append] at h
        cases hlow : more ++ asBytes body with
        | nil =>
          rw [hlow] at h
          cases h
        | cons low rest =>
          rw [hlow, decodeBytes] at h
          obtain ⟨m, hm, h⟩ := Option.bind_eq_some_iff.mp h
          obtain ⟨bytes', hbytes', h⟩ := Option.bind_eq_some_iff.mp h
          obtain rfl := Option.some.inj h
          obtain ⟨hhigh, hlow'⟩ := ascii_of_parseHex hm
          rw [toNat_ofNat_byte] at hhigh hlow'
          obtain ⟨rfl, hchar⟩ := hone (.inl hhigh)
          -- The second character is behind the first one, and has one byte too.
          cases body with
          | nil => cases hlow
          | cons c' body =>
            obtain ⟨byte', more', hc', hone'⟩ := utf8EncodeChar_eq_cons c'
            rw [List.nil_append, asBytes, List.flatMap_cons, hc', ← asBytes,
              List.cons_append] at hlow
            obtain ⟨rfl, rfl⟩ := List.cons.inj hlow
            obtain ⟨rfl, hchar'⟩ := hone' (.inl hlow')
            rw [hchar, hchar'] at hm
            refine .cons hm (ih body.length ?_ hbytes' rfl)
            simp only [List.length_cons] at hn
            omega
  · intro h
    induction h with
    | nil => rfl
    | @cons high low body byte bytes hbyte hbody ih =>
      obtain ⟨hhigh, hlow⟩ := ascii_of_parseHex hbyte
      obtain ⟨b, more, hc, hone⟩ := utf8EncodeChar_eq_cons high
      obtain ⟨b', more', hc', hone'⟩ := utf8EncodeChar_eq_cons low
      obtain ⟨rfl, hchar⟩ := hone (.inr hhigh)
      obtain ⟨rfl, hchar'⟩ := hone' (.inr hlow)
      rw [asBytes, List.flatMap_cons, List.flatMap_cons, hc, hc', ← asBytes]
      show decodeBytes (b :: b' :: asBytes body) = _
      rw [decodeBytes, hchar, hchar', hbyte, ih]
      rfl

/-- Bytes come in pairs of characters. -/
theorem Pairs.even {body : List Char} {bytes : List UInt8} (h : Pairs body bytes) :
    (asBytes body).length % 2 = 0 := by
  induction h with
  | nil => rfl
  | @cons high low body byte bytes hbyte hbody ih =>
    obtain ⟨hhigh, hlow⟩ := ascii_of_parseHex hbyte
    obtain ⟨b, more, hc, hone⟩ := utf8EncodeChar_eq_cons high
    obtain ⟨b', more', hc', hone'⟩ := utf8EncodeChar_eq_cons low
    obtain ⟨rfl, -⟩ := hone (.inr hhigh)
    obtain ⟨rfl, -⟩ := hone' (.inr hlow)
    rw [asBytes, List.flatMap_cons, List.flatMap_cons, hc, hc', ← asBytes]
    simp only [List.length_append, List.length_singleton]
    omega

/-- **Pairs that are read are the ones that are written exactly if no sign is among them.** -/
theorem Pairs.encode_iff {body : List Char} {bytes : List UInt8} (h : Pairs body bytes) :
    (bytes.flatMap fun byte ↦ hexPad 2 byte.toNat) = lower body ↔ '+' ∉ body := by
  induction h with
  | nil => simp [lower]
  | @cons high low body byte bytes hbyte hbody ih =>
    obtain ⟨hle, hhigh, d, hlow⟩ := parseHex_pair hbyte
    have hnat : (UInt8.ofNat byte).toNat = byte := by
      rw [UInt8.toNat_ofNat', Nat.mod_eq_of_lt (by omega)]
    have hdigit : low ≠ '+' := by
      rintro rfl
      cases hlow
    have hwidth : FullWidth 2 [high, low] ↔ high ≠ '+' := by
      simp [FullWidth]
    have hsplit : lower (high :: low :: body) = lower [high, low] ++ lower body := rfl
    rw [List.flatMap_cons, hnat, hsplit]
    constructor
    · intro heq
      obtain ⟨hhead, htail⟩ := List.append_inj heq (by rw [length_hexPad]; rfl)
      have hplus := hwidth.mp ((hexPad_eq_lower_iff hbyte).mp hhead)
      simp [Ne.symm hplus, Ne.symm hdigit, ih.mp htail]
    · intro hplus
      simp only [List.mem_cons, not_or] at hplus
      rw [(hexPad_eq_lower_iff hbyte).mpr (hwidth.mpr (Ne.symm hplus.1)), ih.mpr hplus.2.2]

/-- **What is read as a string.** -/
theorem decodeString_eq_ok_iff {body : List Char} {s : String} :
    decodeString body = .ok s ↔
      ∃ bytes, Pairs body bytes ∧ String.fromUTF8? ⟨bytes.toArray⟩ = some s := by
  constructor
  · intro h
    rw [decodeString] at h
    split at h
    · cases h
    · split at h
      · cases h
      · rename_i bytes hbytes
        refine ⟨bytes, decodeBytes_eq_some_iff.mp hbytes, ?_⟩
        split at h
        · cases h
        · rename_i hutf8
          rw [hutf8, Except.ok.inj h]
  · rintro ⟨bytes, hpairs, hutf8⟩
    rw [decodeString, if_neg (not_not.mpr hpairs.even), decodeBytes_eq_some_iff.mpr hpairs]
    simp only [hutf8]

/-- A string has the bytes that it is made of. -/
theorem toList_of_fromUTF8? {bytes : List UInt8} {s : String}
    (h : String.fromUTF8? ⟨bytes.toArray⟩ = some s) : s.toByteArray.data.toList = bytes := by
  rw [String.fromUTF8?] at h
  split at h
  · obtain rfl := Option.some.inj h
    rfl
  · cases h

/-! ## One tag after the other -/

/-- What is printed in hexadecimal is in lower case. -/
theorem lower_hexPad (w n : Nat) : lower (hexPad w n) = hexPad w n := by
  refine (List.map_congr_left fun c hc ↦ ?_).trans (List.map_id _)
  obtain ⟨m, hm, rfl⟩ := mem_hexPad hc
  have key : ∀ m < 16, (hexDigit m).toLower = hexDigit m := by decide
  exact key m hm

/-- A payload is compared without its tag. -/
theorem lower_tagged {tag : Char} {l body : List Char} :
    lower (tag :: ':' :: l) = lower (tag :: ':' :: body) ↔ lower l = lower body := by
  simp [lower]

theorem toNat_ofNat64 {n : Nat} (h : n ≤ 2 ^ 64 - 1) : (UInt64.ofNat n).toNat = n := by
  rw [UInt64.toNat_ofNat', Nat.mod_eq_of_lt (by omega)]

theorem toNat_ofNat32 {n : Nat} (h : n ≤ 2 ^ 32 - 1) : (UInt32.ofNat n).toNat = n := by
  rw [UInt32.toNat_ofNat', Nat.mod_eq_of_lt (by omega)]

section Payloads

variable (body : List Char)

/-- The payload of a null is not looked at, and is never written. -/
theorem not_exact_null : ¬ Exact ('N' :: ':' :: body) := by
  intro h
  have hlen := congrArg List.length (h .null rfl)
  simp [encodeValue, keyChars, lower] at hlen

theorem exact_boolean : Exact ('B' :: ':' :: body) := by
  intro v hv
  have hdecode : decodeValue ('B' :: ':' :: body) =
      if body = ['0'] then .ok (.boolean false)
      else if body = ['1'] then .ok (.boolean true)
      else .error (.execution "invalid boolean in database file") := rfl
  rw [hdecode] at hv
  split at hv
  · rename_i hzero
    obtain rfl := Except.ok.inj hv
    rw [hzero]
    rfl
  · split at hv
    · rename_i hone
      obtain rfl := Except.ok.inj hv
      rw [hone]
      rfl
    · cases hv

theorem decodeValue_integer : decodeValue ('I' :: ':' :: body) =
    match parseInt (2 ^ 63 - 1) body with
    | none => .error (.execution "invalid integer in database file")
    | some value => .ok (.integer (Int64.ofInt value)) := rfl

theorem decodeValue_float : decodeValue ('F' :: ':' :: body) =
    match parseHex (2 ^ 64 - 1) body with
    | none => .error (.execution "invalid float in database file")
    | some bits => .ok (.float ⟨UInt64.ofNat bits⟩) := rfl

/-- **Integers are read as they are written unless they are not the shortest numeral.** -/
theorem exact_integer_iff : Exact ('I' :: ':' :: body) ↔
    ((parseInt (2 ^ 63 - 1) body).isSome = true → Shortest body) := by
  rw [Exact, decodeValue_integer]
  rcases hparse : parseInt (2 ^ 63 - 1) body with _ | value
  · simp
  · obtain ⟨hlo, hhi⟩ := parseInt_bounds hparse
    have hvalue : (Int64.ofInt value).toInt = value := by
      rw [Int64.toInt_ofInt_of_le (by omega) (by omega)]
    have hread : parseInt (2 ^ 63 - 1) (decimalInt value) = some value :=
      parseInt_decimalInt (by omega) (by omega)
    have hiff : lower (encodeValue (.integer (Int64.ofInt value))) = lower ('I' :: ':' :: body) ↔
        Shortest body := by
      rw [encodeValue, keyChars, lower_tagged, hvalue, lower_of_parseInt hread,
        lower_of_parseInt hparse, decimalInt_eq_iff hparse]
    constructor
    · exact fun h _ ↦ hiff.mp (h _ rfl)
    · intro h v hv
      obtain rfl := Except.ok.inj hv
      exact hiff.mpr (h rfl)

/-- **Floats are read as they are written unless they do not have 16 digits.** -/
theorem exact_float_iff : Exact ('F' :: ':' :: body) ↔
    ((parseHex (2 ^ 64 - 1) body).isSome = true → FullWidth 16 body) := by
  rw [Exact, decodeValue_float]
  rcases hparse : parseHex (2 ^ 64 - 1) body with _ | bits
  · simp
  · have hiff : lower (encodeValue (.float ⟨UInt64.ofNat bits⟩)) = lower ('F' :: ':' :: body) ↔
        FullWidth 16 body := by
      rw [encodeValue, keyChars, lower_tagged, hexF64, toNat_ofNat64 (parseHex_eq_some hparse).1,
        lower_hexPad, hexPad_eq_lower_iff hparse]
    constructor
    · exact fun h _ ↦ hiff.mp (h _ rfl)
    · intro h v hv
      obtain rfl := Except.ok.inj hv
      exact hiff.mpr (h rfl)

/-- **Strings are read as they are written unless a sign is among the digits.** -/
theorem exact_text_iff : Exact ('T' :: ':' :: body) ↔
    ∀ bytes, Pairs body bytes → (String.fromUTF8? ⟨bytes.toArray⟩).isSome = true → '+' ∉ body := by
  have hdecode : decodeValue ('T' :: ':' :: body) = (decodeString body).map .text := rfl
  have hiff : ∀ bytes s, Pairs body bytes → String.fromUTF8? ⟨bytes.toArray⟩ = some s →
      (lower (encodeValue (.text s)) = lower ('T' :: ':' :: body) ↔ '+' ∉ body) := by
    intro bytes s hpairs hutf8
    rw [encodeValue, keyChars, lower_tagged, toList_encodeString, toList_of_fromUTF8? hutf8,
      ← hpairs.encode_iff]
    have hlower : lower (bytes.flatMap fun byte ↦ hexPad 2 byte.toNat) =
        bytes.flatMap fun byte ↦ hexPad 2 byte.toNat := by
      rw [lower, List.map_flatMap]
      exact congrArg (List.flatMap · bytes) (funext fun byte ↦ lower_hexPad 2 byte.toNat)
    rw [hlower]
  constructor
  · intro h bytes hpairs hvalid
    obtain ⟨s, hutf8⟩ := Option.isSome_iff_exists.mp hvalid
    refine (hiff bytes s hpairs hutf8).mp (h (.text s) ?_)
    rw [hdecode, decodeString_eq_ok_iff.mpr ⟨bytes, hpairs, hutf8⟩]
    rfl
  · intro h v hv
    rw [hdecode] at hv
    rcases hread : decodeString body with _ | s
    · rw [hread] at hv
      cases hv
    · rw [hread] at hv
      obtain rfl := Except.ok.inj hv
      obtain ⟨bytes, hpairs, hutf8⟩ := decodeString_eq_ok_iff.mp hread
      exact (hiff bytes s hpairs hutf8).mpr
        (h bytes hpairs (Option.isSome_iff_exists.mpr ⟨s, hutf8⟩))

/-- Cutting a text does not depend on the case of its letters. -/
theorem splitOn_lower : (lower body).splitOn ',' = (body.splitOn ',').map lower := by
  induction body with
  | nil => rfl
  | cons c body ih =>
    have hcomma : (c.toLower == ',') = (c == ',') := by
      rw [Bool.eq_iff_iff, beq_iff_eq, beq_iff_eq]
      exact toLower_eq_iff (by decide)
    rw [lower_cons, List.splitOn_cons_eq_if_modifyHead, List.splitOn_cons_eq_if_modifyHead, hcomma,
      ih]
    split
    · rfl
    · rcases body.splitOn ',' with _ | ⟨part, parts⟩
      · rfl
      · rfl

/-- Numbers read from a list: one by one. -/
theorem mapM_parseHex {parts : List (List Char)} {values : List Nat}
    (h : parts.mapM (parseHex (2 ^ 32 - 1)) = some values) :
    values.map (hexF32 ⟨UInt32.ofNat ·⟩) = parts.map lower ↔ ∀ part ∈ parts, FullWidth 8 part := by
  induction parts generalizing values with
  | nil =>
    obtain rfl := Option.some.inj h
    simp
  | cons part parts ih =>
    rw [List.mapM_cons] at h
    obtain ⟨value, hvalue, h⟩ := Option.bind_eq_some_iff.mp h
    obtain ⟨rest, hrest, h⟩ := Option.bind_eq_some_iff.mp h
    obtain rfl := Option.some.inj h
    rw [List.map_cons, List.map_cons, List.cons.injEq, ih hrest, List.forall_mem_cons, hexF32,
      toNat_ofNat32 (parseHex_eq_some hvalue).1, hexPad_eq_lower_iff hvalue]

theorem isSome_mapM_parseHex {parts : List (List Char)} :
    (parts.mapM (parseHex (2 ^ 32 - 1))).isSome = true ↔
      ∀ part ∈ parts, (parseHex (2 ^ 32 - 1) part).isSome = true := by
  induction parts with
  | nil => simp
  | cons part parts ih =>
    rw [List.forall_mem_cons, ← ih, List.mapM_cons]
    rcases parseHex (2 ^ 32 - 1) part with _ | value
    · simp
    · rcases parts.mapM (parseHex (2 ^ 32 - 1)) with _ | values
      · simp
      · simp

/-- **Vectors are read as they are written unless a component does not have 8 digits.** -/
theorem exact_vector_iff : Exact ('V' :: ':' :: body) ↔
    (body ≠ [] → (∀ part ∈ body.splitOn ',', (parseHex (2 ^ 32 - 1) part).isSome = true) →
      ∀ part ∈ body.splitOn ',', FullWidth 8 part) := by
  have hdecode : decodeValue ('V' :: ':' :: body) = decodeVector body := rfl
  rw [Exact, hdecode, decodeVector]
  rcases eq_or_ne body [] with rfl | hne
  · refine ⟨fun _ h ↦ absurd rfl h, fun _ v hv ↦ ?_⟩
    obtain rfl := Except.ok.inj hv
    rfl
  rw [if_neg hne, ← isSome_mapM_parseHex]
  rcases hread : (body.splitOn ',').mapM (parseHex (2 ^ 32 - 1)) with _ | values
  · simp
  · have hvalues : values ≠ [] := by
      rintro rfl
      rcases hparts : body.splitOn ',' with _ | ⟨part, parts⟩
      · exact List.splitOn_ne_nil ',' body hparts
      · rw [hparts, List.mapM_cons] at hread
        obtain ⟨value, -, hread⟩ := Option.bind_eq_some_iff.mp hread
        obtain ⟨rest, -, hread⟩ := Option.bind_eq_some_iff.mp hread
        cases Option.some.inj hread
    have hiff : lower (encodeValue (.vector (values.map fun bits ↦ ⟨UInt32.ofNat bits⟩))) =
        lower ('V' :: ':' :: body) ↔ ∀ part ∈ body.splitOn ',', FullWidth 8 part := by
      rw [encodeValue, keyChars, lower_tagged, ← mapM_parseHex hread, List.map_map]
      have hcut : (join ',' (values.map (hexF32 ∘ fun bits ↦ ⟨UInt32.ofNat bits⟩))).splitOn ',' =
          values.map (hexF32 ⟨UInt32.ofNat ·⟩) := by
        refine splitOn_join (fun l hl ↦ ?_) (by simpa using hvalues)
        obtain ⟨value, -, rfl⟩ := List.mem_map.mp hl
        exact comma_not_mem_hexPad 8 _
      have hlower : (values.map (hexF32 ⟨UInt32.ofNat ·⟩)).map lower =
          values.map (hexF32 ⟨UInt32.ofNat ·⟩) := by
        rw [List.map_map]
        exact List.map_congr_left fun value _ ↦ lower_hexPad 8 _
      constructor
      · intro heq
        have hparts := congrArg (List.splitOn ',') heq
        rwa [splitOn_lower, splitOn_lower, hcut, hlower] at hparts
      · intro hparts
        have hjoin (l : List Char) : [','].intercalate (l.splitOn ',') = l :=
          List.intercalate_splitOn ','
        rw [← hjoin (lower (join ',' _)), splitOn_lower, hcut, hlower, hparts, ← splitOn_lower,
          hjoin]
    constructor
    · exact fun h _ _ ↦ hiff.mp (h _ rfl)
    · intro h v hv
      obtain rfl := Except.ok.inj hv
      exact hiff.mpr (h hne rfl)

/-- A point needs two coordinates. -/
theorem exact_point_of_not_mem (h : ',' ∉ body) : Exact ('P' :: ':' :: body) := by
  intro v hv
  have hdecode : decodeValue ('P' :: ':' :: body) = decodePoint body := rfl
  rw [hdecode, decodePoint, splitOnce_eq_none h] at hv
  cases hv

/-- **Points are read as they are written unless a coordinate does not have 16 digits.** -/
theorem exact_point_iff {lon : List Char} (lat : List Char) (hcomma : ',' ∉ lon) :
    Exact ('P' :: ':' :: (lon ++ ',' :: lat)) ↔
      ((parseHex (2 ^ 64 - 1) lon).isSome = true → (parseHex (2 ^ 64 - 1) lat).isSome = true →
        FullWidth 16 lon ∧ FullWidth 16 lat) := by
  have hdecode : decodeValue ('P' :: ':' :: (lon ++ ',' :: lat)) =
      decodePoint (lon ++ ',' :: lat) := rfl
  rw [Exact, hdecode, decodePoint, splitOnce_append hcomma lat]
  dsimp only
  rcases hlon : parseHex (2 ^ 64 - 1) lon with _ | west
  · simp
  rcases hlat : parseHex (2 ^ 64 - 1) lat with _ | north
  · simp
  have hiff : lower (encodeValue (.point ⟨⟨UInt64.ofNat west⟩, ⟨UInt64.ofNat north⟩⟩)) =
      lower ('P' :: ':' :: (lon ++ ',' :: lat)) ↔ FullWidth 16 lon ∧ FullWidth 16 lat := by
    have hlower : ',' ∉ lower lon := fun hmem ↦ hcomma ((mem_lower_iff (by decide)).mp hmem)
    rw [encodeValue, keyChars, lower_tagged, hexF64, hexF64,
      toNat_ofNat64 (parseHex_eq_some hlon).1,
      toNat_ofNat64 (parseHex_eq_some hlat).1, lower_append, lower_append, lower_cons, lower_cons,
      lower_hexPad, lower_hexPad, ← hexPad_eq_lower_iff hlon, ← hexPad_eq_lower_iff hlat]
    constructor
    · intro heq
      have hcut := congrArg (splitOnce ',') heq
      rw [show ','.toLower = ',' from rfl, splitOnce_append (comma_not_mem_hexPad 16 west),
        splitOnce_append hlower] at hcut
      exact Prod.mk.inj (Option.some.inj hcut)
    · rintro ⟨hwest, hnorth⟩
      rw [hwest, hnorth]
  constructor
  · exact fun h _ _ ↦ hiff.mp (h _ rfl)
  · intro h v hv
    obtain rfl := Except.ok.inj hv
    exact hiff.mpr (h rfl rfl)

end Payloads

/-! ## All of them -/

/-- **The texts that are read as a value and are not written for one.** -/
inductive Loose : List Char → Prop
  /-- The tag of a string stands for the empty one. -/
  | bareText : Loose ['T']
  /-- The tag of a vector stands for the empty one. -/
  | bareVector : Loose ['V']
  /-- Anything behind the tag of a null. -/
  | null (body : List Char) : Loose ('N' :: ':' :: body)
  /-- An integer with a sign `+` or with zeros in front. -/
  | integer {body : List Char} (hreads : (parseInt (2 ^ 63 - 1) body).isSome = true)
    (hlong : ¬ Shortest body) : Loose ('I' :: ':' :: body)
  /-- A float with a sign, or not of 16 digits. -/
  | float {body : List Char} (hreads : (parseHex (2 ^ 64 - 1) body).isSome = true)
    (hwidth : ¬ FullWidth 16 body) : Loose ('F' :: ':' :: body)
  /-- A string with a sign in place of a digit. -/
  | text {body : List Char} {bytes : List UInt8} (hpairs : Pairs body bytes)
    (hvalid : (String.fromUTF8? ⟨bytes.toArray⟩).isSome = true) (hplus : '+' ∈ body) :
    Loose ('T' :: ':' :: body)
  /-- A vector with a component with a sign, or not of 8 digits. -/
  | vector {body : List Char} (hne : body ≠ [])
    (hreads : ∀ part ∈ body.splitOn ',', (parseHex (2 ^ 32 - 1) part).isSome = true)
    (hwidth : ¬ ∀ part ∈ body.splitOn ',', FullWidth 8 part) : Loose ('V' :: ':' :: body)
  /-- A point with a coordinate with a sign, or not of 16 digits. -/
  | point {lon lat : List Char} (hcomma : ',' ∉ lon)
    (hlon : (parseHex (2 ^ 64 - 1) lon).isSome = true)
    (hlat : (parseHex (2 ^ 64 - 1) lat).isSome = true)
    (hwidth : ¬ (FullWidth 16 lon ∧ FullWidth 16 lat)) : Loose ('P' :: ':' :: (lon ++ ',' :: lat))

/-- **What a value begins with**: its tag, and a colon unless there is nothing behind it. -/
theorem tag_of_decodeValue {input : List Char} {v : Value} (h : decodeValue input = .ok v) :
    input = ['N'] ∨ input = ['T'] ∨ input = ['V'] ∨
      ∃ tag ∈ ['N', 'I', 'F', 'B', 'T', 'V', 'P'], ∃ body, input = tag :: ':' :: body := by
  rw [decodeValue] at h
  by_cases hcolon : ':' ∈ input
  · obtain ⟨kind, body, rfl, hkind⟩ := List.eq_append_cons_of_mem hcolon
    rw [splitOnce_append hkind, Option.getD_some] at h
    refine .inr (.inr (.inr ?_))
    dsimp only at h
    split at h
    case h_8 => cases h
    all_goals exact ⟨_, by decide, body, rfl⟩
  · rw [splitOnce_eq_none hcolon, Option.getD_none] at h
    dsimp only at h
    split at h
    · exact .inl rfl
    · cases h
    · cases h
    · cases h
    · exact .inr (.inl rfl)
    · exact .inr (.inr (.inl rfl))
    · cases h
    · cases h

/-- **Which texts the decoder takes for what no value is written as**: the loose ones. -/
theorem exact_iff (input : List Char) : Exact input ↔ ¬ Loose input := by
  constructor
  · intro h hloose
    cases hloose with
    | bareText => exact absurd (h (.text "") rfl) (by decide)
    | bareVector => exact absurd (h (.vector []) rfl) (by decide)
    | null body => exact not_exact_null body h
    | integer hreads hlong => exact hlong ((exact_integer_iff _).mp h hreads)
    | float hreads hwidth => exact hwidth ((exact_float_iff _).mp h hreads)
    | text hpairs hvalid hplus => exact (exact_text_iff _).mp h _ hpairs hvalid hplus
    | vector hne hreads hwidth => exact hwidth ((exact_vector_iff _).mp h hne hreads)
    | point hcomma hlon hlat hwidth => exact hwidth ((exact_point_iff _ hcomma).mp h hlon hlat)
  · intro h v hv
    rcases tag_of_decodeValue hv with rfl | rfl | rfl | ⟨tag, htag, body, rfl⟩
    · obtain rfl := Except.ok.inj hv
      rfl
    · exact absurd .bareText h
    · exact absurd .bareVector h
    simp only [List.mem_cons, List.not_mem_nil, or_false] at htag
    rcases htag with rfl | rfl | rfl | rfl | rfl | rfl | rfl
    · exact absurd (.null body) h
    · exact (exact_integer_iff body).mpr
        (fun hreads ↦ by_contra fun hlong ↦ h (.integer hreads hlong)) v hv
    · exact (exact_float_iff body).mpr
        (fun hreads ↦ by_contra fun hwidth ↦ h (.float hreads hwidth)) v hv
    · exact exact_boolean body v hv
    · exact (exact_text_iff body).mpr
        (fun _ hpairs hvalid hplus ↦ h (.text hpairs hvalid hplus)) v hv
    · exact (exact_vector_iff body).mpr
        (fun hne hreads ↦ by_contra fun hwidth ↦ h (.vector hne hreads hwidth)) v hv
    · by_cases hcomma : ',' ∈ body
      · obtain ⟨lon, lat, rfl, hlon⟩ := List.eq_append_cons_of_mem hcomma
        exact (exact_point_iff lat hlon).mpr
          (fun hwest hnorth ↦ by_contra fun hwidth ↦ h (.point hlon hwest hnorth hwidth)) v hv
      · exact exact_point_of_not_mem body hcomma v hv

/-- **A vector of one digit, an integer with a sign and a null with a payload are read**, and would
be written differently. -/
theorem not_exact_short :
    decodeValue "V:1".toList = .ok (.vector [⟨1⟩]) ∧
      encodeValue (.vector [⟨1⟩]) = "V:00000001".toList ∧
      ¬ Exact "V:1".toList ∧ ¬ Exact "I:+5".toList ∧ ¬ Exact "N:1".toList := by
  refine ⟨by decide +kernel, by decide +kernel, fun h ↦ ?_, fun h ↦ ?_, fun h ↦ ?_⟩
  · exact absurd (h (.vector [⟨1⟩]) (by decide +kernel)) (by decide +kernel)
  · exact absurd (h (.integer 5) (by decide +kernel)) (by decide +kernel)
  · exact absurd (h .null (by decide +kernel)) (by decide +kernel)

end Fsql
