/-!
# TOML values

What a TOML document means, once its text is understood: a table of values. The members of a
table are kept in the byte order of their keys, which is the order in which a reader of the
table meets them.
-/

set_option autoImplicit false

namespace Excision.Toml

/-- A value of a TOML document. A date or time is kept as its text. A float that is too large
for a double has no value, and neither has an integer whose text is no number after all; both
are refused only by a reader who looks at them. -/
inductive Value where
  | string (text : String)
  | integer (value : Option Int)
  | float (value : Option Float)
  | boolean (value : Bool)
  | moment (text : String)
  | array (items : List Value)
  | table (members : List (String × Value))
deriving Repr, Inhabited

/-- The members of a table. -/
abbrev Members := List (String × Value)

/-- The members of a table in the byte order of their keys. -/
def sortMembers (members : Members) : Members :=
  members.mergeSort fun a b => a.1 ≤ b.1

/-- Why a text is no TOML document. A character that is given by a code point that no character
has is told apart from everything else. -/
inductive Fault where
  | malformed
  | badCodePoint
deriving DecidableEq, Repr

end Excision.Toml
