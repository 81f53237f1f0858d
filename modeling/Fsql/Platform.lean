import Fsql.Value

/-!
# What the platform provides

Three functions of the Rust standard library that the database calls and that this development
does not spell out: the two Unicode tables behind the full-text tokenizers, and the `{:?}` rendering
of a value, which occurs in one error message.  Everything is proved for an arbitrary `Platform`.
-/

set_option autoImplicit false

namespace Fsql

/-- The standard-library functions left abstract. -/
class Platform where
  /-- `char::is_alphanumeric`. -/
  isAlphanumeric : Char → Bool
  /-- `str::to_lowercase`. -/
  toLowercase : String → String
  /-- `{:?}` of a value. -/
  debugValue : Value → String

/-- The ASCII fragment of the platform, on which it agrees with the standard library: enough to
run the model on ASCII texts. -/
@[reducible] def Platform.ascii : Platform where
  isAlphanumeric := Char.isAlphanum
  toLowercase s := String.ofList (s.toList.map Char.toLower)
  debugValue _ := "_"

end Fsql
