/-!
# JSON documents

A JSON document as a value whose objects keep their members in order, and its text, indented
by two spaces a level. Only quotes, backslashes and control characters below the space are
escaped.
-/

set_option autoImplicit false

namespace Excision

/-- A JSON document. A number is kept as its text. -/
inductive Json where
  | null
  | bool (value : Bool)
  | number (text : String)
  | string (text : String)
  | array (items : List Json)
  | object (members : List (String × Json))
deriving Repr

namespace Json

/-- A natural number. -/
def nat (n : Nat) : Json := .number (toString n)

/-- A list of texts. -/
def strings (texts : List String) : Json := .array (texts.map .string)

/-- A member for a value that may be missing, in which case there is no member. -/
def optional (key : String) : Option Json → List (String × Json)
  | some value => [(key, value)]
  | none => []

/-- The two last hexadecimal digits of a control character. -/
def controlDigits (c : Char) : List Char :=
  [Nat.digitChar (c.toNat / 16), Nat.digitChar (c.toNat % 16)]

/-- A character as it stands in a JSON string. -/
def escapedChar (c : Char) : List Char :=
  match c with
  | '"' => ['\\', '"']
  | '\\' => ['\\', '\\']
  | '\n' => ['\\', 'n']
  | '\r' => ['\\', 'r']
  | '\t' => ['\\', 't']
  | '\x08' => ['\\', 'b']
  | '\x0c' => ['\\', 'f']
  | c => if c.toNat < 0x20 then ['\\', 'u', '0', '0'] ++ controlDigits c else [c]

/-- A text between quotes. -/
def quote (text : String) : String :=
  String.ofList ('"' :: text.toList.flatMap escapedChar ++ ['"'])

/-- The blanks that start a line of the given level. -/
def indent (level : Nat) : String := String.ofList (List.replicate (2 * level) ' ')

/-- Items on lines of their own, between brackets. -/
def block (opening closing : String) (level : Nat) (items : List String) : String :=
  if items.isEmpty then opening ++ closing
  else
    let lines := items.map fun item => "\n" ++ indent (level + 1) ++ item
    opening ++ ",".intercalate lines ++ "\n" ++ indent level ++ closing

mutual

/-- The text of a document from the given level on. -/
def prettyFrom (level : Nat) : Json → String
  | .null => "null"
  | .bool true => "true"
  | .bool false => "false"
  | .number text => text
  | .string text => quote text
  | .array items => block "[" "]" level (prettyItems (level + 1) items)
  | .object members => block "\x7b" "\x7d" level (prettyMembers (level + 1) members)

/-- The texts of the items of an array. -/
def prettyItems (level : Nat) : List Json → List String
  | [] => []
  | item :: items => prettyFrom level item :: prettyItems level items

/-- The texts of the members of an object. -/
def prettyMembers (level : Nat) : List (String × Json) → List String
  | [] => []
  | (key, value) :: members =>
    (quote key ++ ": " ++ prettyFrom level value) :: prettyMembers level members

end

/-- The text of a document, indented. -/
def pretty (document : Json) : String := prettyFrom 0 document

end Json

end Excision
