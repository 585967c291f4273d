/-!
# Splitting a text into lines

Two ways to cut a text at its newlines.

* `splitAfter` keeps each terminator on the line that it ends, so that the pieces in order
  are the text again (`flatten_splitAfter`). This is how source documents are read.
* `splitLines` drops the terminator, a carriage return directly before it included. This is
  how lists of names are read.

In both, a text that ends with a newline has no further empty line after it.
-/

set_option autoImplicit false

namespace Excision.Text

/-- Cuts a text after each newline, with the characters `line`, last one first, already read
of the first piece. -/
def cutAfter (line : List Char) : List Char → List (List Char)
  | [] => if line.isEmpty then [] else [line.reverse]
  | c :: cs => if c = '\n' then (c :: line).reverse :: cutAfter [] cs else cutAfter (c :: line) cs

/-- Cuts a text after each newline. -/
def splitAfter (cs : List Char) : List (List Char) := cutAfter [] cs

theorem flatten_cutAfter (line cs : List Char) :
    (cutAfter line cs).flatten = line.reverse ++ cs := by
  induction cs generalizing line with
  | nil => cases line <;> simp [cutAfter]
  | cons c cs ih =>
    rw [cutAfter]
    split <;> simp [ih]

/-- The pieces of a text in order are the text. -/
theorem flatten_splitAfter (cs : List Char) : (splitAfter cs).flatten = cs :=
  flatten_cutAfter [] cs

/-- A line without its terminator: a newline, and one carriage return before it. -/
def withoutTerminator (line : List Char) : List Char :=
  match line.reverse with
  | '\n' :: '\r' :: rest => rest.reverse
  | '\n' :: rest => rest.reverse
  | _ => line

/-- The lines of a text, without their terminators. -/
def splitLines (cs : List Char) : List (List Char) := (splitAfter cs).map withoutTerminator

end Excision.Text
