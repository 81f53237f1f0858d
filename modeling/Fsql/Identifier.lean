import Fsql.Library.Text

/-!
# Identifiers

`identifier.rs`: the one function through which every table, column and index name passes.  It is
not idempotent — trimming a quote can expose another kind of quote, or a blank — which is why the
table looks names up under the normalised form of what the parser already normalised.
-/

set_option autoImplicit false

namespace Fsql

open Text

/-- `normalize_identifier`: trim blanks, then backquotes, then double quotes, then single quotes,
and lower the case. -/
def normalizeIdentifier (input : String) : String :=
  String.ofList (lower (trimMatches '\'' (trimMatches '"' (trimMatches '`' (trim input.toList)))))

example : normalizeIdentifier " `MixedCase` " = "mixedcase" := by decide

example : normalizeIdentifier "'`a`'" = "`a`" ∧ normalizeIdentifier "`a`" = "a" := by decide

end Fsql
