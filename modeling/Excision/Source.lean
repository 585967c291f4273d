import Excision.Text.Blank
import Excision.Text.Lines

/-!
# Source documents

A source document is an ordered list of lines, each with its terminator attached, so the
text of a document is the concatenation of its lines. Reading a text gives lines that hold
a newline at most as their last character; a document made from given lines keeps them as
they are.
-/

set_option autoImplicit false

namespace Excision

/-- An ordered list of lines, terminators included. -/
structure Source where
  lines : List String
deriving DecidableEq, Repr

namespace Source

/-- Reads a text into lines, each with its terminator. -/
def ofText (text : String) : Source := ⟨(Text.splitAfter text.toList).map String.ofList⟩

/-- The text of a document: its lines one after the other. -/
def text (s : Source) : String := String.join s.lines

/-- The number of lines. -/
def size (s : Source) : Nat := s.lines.length

/-- Whether the line at an index exists and holds blank characters only. -/
def isBlankAt (s : Source) (index : Nat) : Bool := s.lines[index]?.any Text.isBlankText

/-- Reading a text loses nothing of it. -/
theorem text_ofText (text : String) : (ofText text).text = text := by
  apply String.toList_inj.1
  simp [ofText, Source.text, String.toList_join, List.flatMap_map, Text.flatten_splitAfter]

end Source

end Excision
