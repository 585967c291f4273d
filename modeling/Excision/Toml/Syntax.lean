import Excision.Toml.Token

/-!
# The statements of a TOML document

A document is a list of statements: `key = value` pairs, and headers that open a table or the
next table of an array. Tokens are read one at a time by a machine with a stack of the arrays
and inline tables that are still open, of which at most eighty may be open at once. Strings and
words stay as they are written.

Arrays and inline tables may spread over lines and end with a comma, and comments may stand
anywhere between their tokens. Keys and headers may not spread over lines. A word in the place
of a value goes on over dots and over blanks as long as words or dots follow.

The machine refuses only what no reading of the words and strings could mend. A part of a key or
a value that is not there is kept as a missing one, and it is left to those who look at it to
refuse it. So is everything else after the key of a header that lacks a part of it: up to the
end of the line it is not looked at.
-/

set_option autoImplicit false

namespace Excision.Toml

/-- A string or a word, as it is written. -/
inductive Raw where
  | quoted (quotation : Quotation) (body : List Char)
  /-- A string without the marks that close it. -/
  | unclosed
  | word (text : List Char)
deriving DecidableEq, Repr

/-- What stands for a part of a key or a value that is not there. -/
def Raw.missing : Raw := .word []

/-- A key, from the outside in. -/
abbrev RawKey := List Raw

/-- A value, as it is written. -/
inductive RawValue where
  | scalar (raw : Raw)
  | array (items : List RawValue)
  | inline (members : List (RawKey × RawValue))
deriving Repr, Inhabited

/-- A statement of a document. -/
inductive Statement where
  | pair (key : RawKey) (value : RawValue)
  | table (key : RawKey)
  | tableOfArray (key : RawKey)
deriving Repr

namespace Statement

/-- What is open around the place where one reads, the innermost first. Items, members and key
parts come last one first. -/
inductive Frame where
  /-- The value of a pair. -/
  | pair (key : RawKey)
  /-- An array after some items. -/
  | array (items : List RawValue)
  /-- An inline table after some members. -/
  | members (members : List (RawKey × RawValue))
  /-- The value of a member of an inline table. -/
  | member (members : List (RawKey × RawValue)) (key : RawKey)
deriving Repr

/-- What a key is the key of. -/
inductive KeyUse where
  | pair
  | member
  | header (ofArray : Bool)
deriving DecidableEq, Repr

/-- What the next token may be. -/
inductive Place where
  | lineStart
  | lineEnd
  /-- In the rest of a line that is not looked at. -/
  | skipped
  /-- Directly after the bracket that opens a header. -/
  | headerStart
  /-- Between the two brackets that close the header of an array. -/
  | headerClosing (key : RawKey)
  /-- In a key, before a part of it or after one. -/
  | key (use : KeyUse) (key : RawKey) (beforePart : Bool)
  /-- In an inline table, between the key of a member and its value. -/
  | assignment (key : RawKey)
  | value
  /-- In a word that is a value. The last character comes first. -/
  | run (text : List Char)
  /-- In an array or inline table, after an item or a member. -/
  | separator
  /-- In an inline table, before a member. -/
  | memberStart
deriving DecidableEq, Repr

/-- The state of reading. Statements come last one first. -/
structure Reading where
  place : Place
  frames : List Frame
  statements : List Statement
deriving Repr

/-- How many arrays and inline tables may be open at once. -/
def maxNesting : Nat := 80

/-- Whether a frame is an array or an inline table. -/
def Frame.nests : Frame → Bool
  | .pair _ => false
  | _ => true

/-- The part of a key that a token is. -/
def part? : Token → Option Raw
  | .quoted quotation body => some (.quoted quotation body)
  | .unclosed => some .unclosed
  | .word text => some (.word text)
  | _ => none

/-- Whether a token may stand anywhere in an array or an inline table. -/
def isFiller : Token → Bool
  | .blank _ => true
  | .newline => true
  | .comment => true
  | _ => false

/-- Whether a character of a word that is a value is one of the blanks over which it goes on. -/
def isRunBlank (c : Char) : Bool := c = ' ' || c = '\t'

namespace Reading

/-- At the start of a document. -/
def start : Reading := ⟨.lineStart, [], []⟩

/-- Reading goes on at another place. -/
def at_ (r : Reading) (place : Place) : Option Reading := some { r with place := place }

/-- A header is complete, and reading goes on at another place. -/
def header (r : Reading) (statement : Statement) (place : Place) : Option Reading :=
  some ⟨place, r.frames, statement :: r.statements⟩

/-- One more array or inline table is open. -/
def nest (r : Reading) (place : Place) (frame : Frame) : Option Reading :=
  if (r.frames.filter Frame.nests).length < maxNesting then
    some { r with place := place, frames := frame :: r.frames }
  else none

/-- A value is complete and goes to the innermost frame. -/
def complete (r : Reading) (value : RawValue) : Option Reading :=
  match r.frames with
  | [] => none
  | .pair key :: frames =>
    some ⟨.lineEnd, frames, .pair key.reverse value :: r.statements⟩
  | .array items :: frames => some ⟨.separator, .array (value :: items) :: frames, r.statements⟩
  | .members _ :: _ => none
  | .member members key :: frames =>
    some ⟨.separator, .members ((key.reverse, value) :: members) :: frames, r.statements⟩

/-- The innermost array or inline table closes. -/
def close (r : Reading) : Token → Option Reading
  | .closeBracket =>
    match r.frames with
    | .array items :: frames => complete { r with frames := frames } (.array items.reverse)
    | _ => none
  | .closeBrace =>
    match r.frames with
    | .members members :: frames =>
      complete { r with frames := frames } (.inline members.reverse)
    | _ => none
  | _ => none

/-- A key is complete, and its value comes next. -/
def openValue (r : Reading) (key : RawKey) : Option Reading :=
  match r.frames with
  | [] => some { r with place := .value, frames := [.pair key] }
  | .members members :: frames =>
    some { r with place := .value, frames := .member members key :: frames }
  | _ => none

/-- A token after a statement. -/
def stepLineEnd (r : Reading) : Token → Option Reading
  | .blank _ => some r
  | .comment => some r
  | .newline => r.at_ .lineStart
  | _ => none

/-- A token in the rest of a line that is not looked at. -/
def stepSkipped (r : Reading) : Token → Option Reading
  | .newline => r.at_ .lineStart
  | _ => some r

/-- A token after an item of an array or a member of an inline table. -/
def stepSeparator (r : Reading) (token : Token) : Option Reading :=
  if isFiller token then some r
  else
    match token, r.frames with
    | .comma, .array _ :: _ => r.at_ .value
    | .comma, _ => r.at_ .memberStart
    | token, _ => r.close token

/-- A token after a complete value. -/
def stepAfter (r : Reading) (token : Token) : Option Reading :=
  match r.place with
  | .lineEnd => r.stepLineEnd token
  | _ => r.stepSeparator token

/-- A token instead of a value. A pair and a member may end without one, as far as the tokens
go. -/
def stepNoValue (r : Reading) (token : Token) : Option Reading :=
  match r.frames with
  | .pair _ :: _ => do (← r.complete (.scalar .missing)).stepLineEnd token
  | .array _ :: _ => if isFiller token then some r else r.close token
  | _ =>
    if isFiller token then some r else do (← r.complete (.scalar .missing)).close token

/-- A token before a value. -/
def stepValue (r : Reading) (token : Token) : Option Reading :=
  match token with
  | .blank _ => some r
  | .quoted quotation body => r.complete (.scalar (.quoted quotation body))
  | .unclosed => r.complete (.scalar .unclosed)
  | .word text => r.at_ (.run text.reverse)
  | .dot => r.at_ (.run ['.'])
  | .openBracket => r.nest .value (.array [])
  | .openBrace => r.nest .memberStart (.members [])
  | token => r.stepNoValue token

/-- A token in a word that is a value, or after it. -/
def stepRun (r : Reading) (text : List Char) (token : Token) : Option Reading :=
  match token with
  | .dot => r.at_ (.run ('.' :: text))
  | .word more => r.at_ (.run (more.reverse ++ text))
  | .blank c => r.at_ (.run (c :: text))
  | token => do
    let word := (text.dropWhile isRunBlank).reverse
    (← r.complete (.scalar (.word word))).stepAfter token

/-- A token after a key that has all its parts or lacks one. -/
def stepKeyEnd (r : Reading) (use : KeyUse) (key : RawKey) (isWhole : Bool) (token : Token) :
    Option Reading :=
  match use, token with
  | .pair, .equals => r.openValue key
  | .pair, _ => none
  | .member, .equals => r.openValue key
  | .member, .closeBrace => do (← r.openValue key).stepValue .closeBrace
  | .member, token => if isFiller token then r.at_ (.assignment key) else none
  | .header false, .closeBracket => r.header (.table key.reverse) .lineEnd
  | .header true, .closeBracket => r.at_ (.headerClosing key)
  | .header _, token =>
    if isWhole then none
    else do (← r.header (.table key.reverse) .skipped).stepSkipped token

/-- A token in a key, before a part of it or after one. -/
def stepKey (r : Reading) (use : KeyUse) (key : RawKey) (beforePart : Bool) (token : Token) :
    Option Reading :=
  match token with
  | .blank _ => r.at_ (.key use key beforePart)
  | .dot => r.at_ (.key use (if beforePart then .missing :: key else key) true)
  | token =>
    match beforePart, part? token with
    | true, some part => r.at_ (.key use (part :: key) false)
    | true, none => r.stepKeyEnd use (.missing :: key) false token
    | false, _ => r.stepKeyEnd use key true token

/-- The state after one more token. -/
def step (r : Reading) (token : Token) : Option Reading :=
  match r.place with
  | .lineStart =>
    if isFiller token then some r
    else if token = .openBracket then r.at_ .headerStart
    else r.stepKey .pair [] true token
  | .lineEnd => r.stepLineEnd token
  | .skipped => r.stepSkipped token
  | .headerStart =>
    if token = .openBracket then r.at_ (.key (.header true) [] true)
    else r.stepKey (.header false) [] true token
  | .headerClosing key =>
    if token = .closeBracket then r.header (.tableOfArray key.reverse) .lineEnd else none
  | .key use key beforePart => r.stepKey use key beforePart token
  | .assignment key => r.stepKeyEnd .member key true token
  | .value => r.stepValue token
  | .run text => r.stepRun text token
  | .separator => r.stepSeparator token
  | .memberStart =>
    if isFiller token then some r
    else if token = .closeBrace then r.close token
    else r.stepKey .member [] true token

/-- The state after more tokens. -/
def steps (r : Reading) : List Token → Option Reading
  | [] => some r
  | token :: tokens =>
    match r.step token with
    | some r => r.steps tokens
    | none => none

end Reading

/-- The statements of a document. -/
def ofTokens? (tokens : List Token) : Option (List Statement) :=
  match Reading.start.steps (tokens ++ [.newline]) with
  | some ⟨.lineStart, _, statements⟩ => some statements.reverse
  | _ => none

end Statement

end Excision.Toml
