/-!
# Tokens of TOML

The text of a document is cut into tokens: punctuation, blanks, comments, newlines, quoted
strings with their bodies as they are written, and words, which are runs of all other
characters. A quotation mark opens a string only where a token begins; inside a word it is a
character like any other.

A carriage return without a newline and a control character in a comment are found here, and
such a text has no tokens. A string that does not close is a token of its own: a string of one
line goes to the end of its line, and a multi-line one to the end of the text. Everything inside
a string or a word is looked at later.
-/

set_option autoImplicit false

namespace Excision.Toml

/-- The four kinds of quoted strings. -/
inductive Quotation where
  | basic
  | literal
  | multilineBasic
  | multilineLiteral
deriving DecidableEq, Repr

/-- A piece of a document. -/
inductive Token where
  | dot
  | equals
  | comma
  | openBracket
  | closeBracket
  | openBrace
  | closeBrace
  /-- A space or a tab. -/
  | blank (c : Char)
  | newline
  | comment
  | quoted (quotation : Quotation) (body : List Char)
  /-- A string without the marks that close it. -/
  | unclosed
  | word (text : List Char)
deriving DecidableEq, Repr

/-- The token that a single character is, if it is one. -/
def Token.ofChar? : Char → Option Token
  | '.' => some .dot
  | '=' => some .equals
  | ',' => some .comma
  | '[' => some .openBracket
  | ']' => some .closeBracket
  | '\x7b' => some .openBrace
  | '\x7d' => some .closeBrace
  | ' ' => some (.blank ' ')
  | '\t' => some (.blank '\t')
  | '\n' => some .newline
  | _ => none

/-- Whether a character may stand in a comment or a string: a tab, or no control character. -/
def isTextChar (c : Char) : Bool := c = '\t' || (0x20 ≤ c.toNat && c.toNat ≠ 0x7F)

namespace Quotation

/-- The character that opens and closes a string. -/
def mark : Quotation → Char
  | basic => '"'
  | literal => '\''
  | multilineBasic => '"'
  | multilineLiteral => '\''

/-- Whether a string may spread over lines. -/
def isMultiline : Quotation → Bool
  | basic => false
  | literal => false
  | multilineBasic => true
  | multilineLiteral => true

/-- Whether a backslash escapes the next character of a string. -/
def escapes : Quotation → Bool
  | basic => true
  | literal => false
  | multilineBasic => true
  | multilineLiteral => false

/-- The kind of string that opens with three marks where this one opens with one. -/
def multiline : Quotation → Quotation
  | basic => multilineBasic
  | multilineBasic => multilineBasic
  | literal => multilineLiteral
  | multilineLiteral => multilineLiteral

end Quotation

/-- What is being read. The characters of a word or a string come last one first. -/
inductive Mode where
  | between
  | word (text : List Char)
  | comment
  /-- After a carriage return that needs a newline. -/
  | carriage
  /-- After one mark that opens a string. -/
  | openedOnce (quotation : Quotation)
  /-- After two marks, which are an empty string or open a multi-line one. -/
  | openedTwice (quotation : Quotation)
  | quoted (quotation : Quotation) (body : List Char)
  /-- After a backslash in a string. -/
  | escaped (quotation : Quotation) (body : List Char)
  /-- After the given number of marks in a multi-line string. -/
  | closing (quotation : Quotation) (body : List Char) (marks : Nat)
deriving DecidableEq, Repr

/-- A mode, and the tokens before it, last one first. -/
structure Scan where
  mode : Mode
  tokens : List Token
deriving DecidableEq, Repr

namespace Scan

/-- The tokens when what is being read outside of strings ends. -/
def flushed (s : Scan) : List Token :=
  match s.mode with
  | .word text => .word text.reverse :: s.tokens
  | .comment => .comment :: s.tokens
  | _ => s.tokens

/-- A string is complete. -/
def closeString (tokens : List Token) (quotation : Quotation) (body : List Char) : Scan :=
  ⟨.between, .quoted quotation body.reverse :: tokens⟩

/-- The tokens when a text ends that should have been closed by more marks. If the last mark
stands after a backslash, it counts as the closing one, and the backslash is left alone. -/
def breakString (tokens : List Token) (quotation : Quotation) : List Char → List Token
  | [] => .unclosed :: tokens
  | c :: body =>
    if c = quotation.mark then .quoted quotation body.reverse :: tokens
    else .unclosed :: tokens

/-- A character where a token begins. -/
def stepStart (tokens : List Token) (c : Char) : Scan :=
  if c = '"' then ⟨.openedOnce .basic, tokens⟩
  else if c = '\'' then ⟨.openedOnce .literal, tokens⟩
  else ⟨.word [c], tokens⟩

/-- A character outside of strings and comments. -/
def stepOutside (s : Scan) (c : Char) : Scan :=
  if c = '#' then ⟨.comment, s.flushed⟩
  else if c = '\r' then ⟨.carriage, s.flushed⟩
  else
    match Token.ofChar? c, s.mode with
    | some token, _ => ⟨.between, token :: s.flushed⟩
    | none, .word text => ⟨.word (c :: text), s.tokens⟩
    | none, _ => stepStart s.tokens c

/-- A character of a comment. -/
def stepComment (s : Scan) (c : Char) : Option Scan :=
  if c = '\n' then some ⟨.between, .newline :: s.flushed⟩
  else if c = '\r' then some ⟨.carriage, s.flushed⟩
  else if isTextChar c then some s
  else none

/-- A character of a string. -/
def stepQuoted (tokens : List Token) (quotation : Quotation) (body : List Char) (c : Char) :
    Scan :=
  if c = quotation.mark then
    if quotation.isMultiline then ⟨.closing quotation body 1, tokens⟩
    else closeString tokens quotation body
  else if c = '\n' ∧ !quotation.isMultiline then
    ⟨.between, .newline :: breakString tokens quotation body⟩
  else if c = '\\' ∧ quotation.escapes then ⟨.escaped quotation (c :: body), tokens⟩
  else ⟨.quoted quotation (c :: body), tokens⟩

/-- A character of a string after a backslash. -/
def stepEscaped (tokens : List Token) (quotation : Quotation) (body : List Char) (c : Char) :
    Scan :=
  if c = '\n' ∧ !quotation.isMultiline then ⟨.between, .newline :: .unclosed :: tokens⟩
  else ⟨.quoted quotation (c :: body), tokens⟩

/-- The marks that belong to a multi-line string when the given number of them ends it: all but
three. -/
def keptMarks (quotation : Quotation) (marks : Nat) : List Char :=
  List.replicate (marks - 3) quotation.mark

/-- A character of a multi-line string after the given number of marks. At most five marks end
it. -/
def stepClosing (tokens : List Token) (quotation : Quotation) (body : List Char) (marks : Nat)
    (c : Char) : Scan :=
  if c = quotation.mark then
    if marks = 4 then closeString tokens quotation (keptMarks quotation 5 ++ body)
    else ⟨.closing quotation body (marks + 1), tokens⟩
  else if 3 ≤ marks then
    (closeString tokens quotation (keptMarks quotation marks ++ body)).stepOutside c
  else stepQuoted tokens quotation (List.replicate marks quotation.mark ++ body) c

/-- The state after one more character. -/
def step (s : Scan) (c : Char) : Option Scan :=
  match s.mode with
  | .between => some (s.stepOutside c)
  | .word _ => some (s.stepOutside c)
  | .comment => s.stepComment c
  | .carriage => if c = '\n' then some ⟨.between, .newline :: s.tokens⟩ else none
  | .openedOnce quotation =>
    if c = quotation.mark then some ⟨.openedTwice quotation, s.tokens⟩
    else some (stepQuoted s.tokens quotation [] c)
  | .openedTwice quotation =>
    if c = quotation.mark then some ⟨.quoted quotation.multiline [], s.tokens⟩
    else some ((closeString s.tokens quotation []).stepOutside c)
  | .quoted quotation body => some (stepQuoted s.tokens quotation body c)
  | .escaped quotation body => some (stepEscaped s.tokens quotation body c)
  | .closing quotation body marks => some (stepClosing s.tokens quotation body marks c)

/-- The state after more characters. -/
def steps (s : Scan) : List Char → Option Scan
  | [] => some s
  | c :: cs =>
    match s.step c with
    | some s => s.steps cs
    | none => none

/-- All tokens at the end of a document, last one first. -/
def finish (s : Scan) : Option (List Token) :=
  match s.mode with
  | .carriage => none
  | .openedOnce _ => some (.unclosed :: s.tokens)
  | .openedTwice quotation => some (closeString s.tokens quotation []).tokens
  | .quoted quotation body =>
    if quotation.isMultiline then some (.unclosed :: s.tokens)
    else some (breakString s.tokens quotation body)
  | .escaped .. => some (.unclosed :: s.tokens)
  | .closing quotation body marks =>
    if 3 ≤ marks then some (closeString s.tokens quotation (keptMarks quotation marks ++ body)).tokens
    else if marks = 2 then some (breakString s.tokens quotation body)
    else some (.unclosed :: s.tokens)
  | _ => some s.flushed

end Scan

/-- The mark that may stand in front of a text in UTF-8. -/
def byteOrderMark : Char := '\uFEFF'

/-- A document without the byte order mark that may stand in front of it. -/
def withoutByteOrderMark : List Char → List Char
  | [] => []
  | c :: cs => if c = byteOrderMark then cs else c :: cs

/-- The tokens of a document. -/
def tokens? (text : List Char) : Option (List Token) := do
  let scan ← Scan.steps ⟨.between, []⟩ (withoutByteOrderMark text)
  return (← scan.finish).reverse

end Excision.Toml
