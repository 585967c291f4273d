import Excision.Proofs.Blanks
import Excision.Proofs.Lines
import Excision.Proofs.NameLists

/-!
# Methods files

A methods file is read line by line. What a line lists is its text up to a comment, trimmed
(`MethodNames.ofLine_of_notMem`, `MethodNames.ofLine_comment`), so blank characters at its end make
no difference, its terminator among them (`MethodNames.listed?_append_blank`). Hence a newline
between two texts lists the names of the first and then those of the second, wherever it comes to
stand: behind an unterminated line, behind a terminated one, where it makes an empty line, or behind
a carriage return, which it takes along (`MethodNames.ofFile_append_newline`).

The ways to write a file are data, each with its text and its names (`MethodNames.Listing`). A row
has at most one name, blank characters around it and perhaps a comment, and lists exactly its name
(`MethodNames.Row.listed?_text`). The law of the newline takes a listing apart row by row, so every
listing is read as the names it was written with, and these are accepted as they are
(`MethodNames.ofFile_listing`).
-/

set_option autoImplicit false

namespace Excision.MethodNames

/-! ## Lines -/

theorem takeWhile_ne_of_notMem {front : List Char} (h : '#' ∉ front) (rest : List Char) :
    (front ++ rest).takeWhile (· ≠ '#') = front ++ rest.takeWhile (· ≠ '#') := by
  apply List.takeWhile_append_of_pos
  intro c hc
  apply decide_eq_true
  rintro rfl
  exact h hc

/-- Without a number sign a line is trimmed. -/
theorem ofLine_of_notMem {line : List Char} (h : '#' ∉ line) : ofLine line = Text.trim line := by
  have hall := takeWhile_ne_of_notMem h []
  rw [List.append_nil, List.takeWhile_nil, List.append_nil] at hall
  rw [ofLine, hall]

/-- What stands behind the first number sign is left out. -/
theorem ofLine_comment {line : List Char} (h : '#' ∉ line) (comment : List Char) :
    ofLine (line ++ '#' :: comment) = Text.trim line := by
  rw [ofLine, takeWhile_ne_of_notMem h, List.takeWhile_cons, decide_eq_false (not_not_intro rfl),
    if_neg Bool.false_ne_true, List.append_nil]

theorem sign_notMem_of_blank {blanks : List Char} (h : ∀ c ∈ blanks, Text.isBlank c = true) :
    '#' ∉ blanks := by
  intro hmem
  exact Bool.false_ne_true (h '#' hmem)

/-- Blank characters at the end of a line stand in its comment or are trimmed. -/
theorem ofLine_append_blank {blanks : List Char} (h : ∀ c ∈ blanks, Text.isBlank c = true)
    (line : List Char) : ofLine (line ++ blanks) = ofLine line := by
  by_cases hsign : '#' ∈ line
  · obtain ⟨front, comment, rfl, hfront⟩ := List.eq_append_cons_of_mem hsign
    rw [List.append_assoc, List.cons_append, ofLine_comment hfront, ofLine_comment hfront]
  · have hboth : '#' ∉ line ++ blanks := by
      rw [List.mem_append]
      rintro (hline | hblanks)
      · exact hsign hline
      · exact sign_notMem_of_blank h hblanks
    rw [ofLine_of_notMem hboth, ofLine_of_notMem hsign, Text.trim_append_blank h]

/-- The name on a line, if there is one. -/
def listed? (line : List Char) : Option String :=
  if ofLine line = [] then none else some (String.ofList (ofLine line))

theorem listed?_append_blank {blanks : List Char} (h : ∀ c ∈ blanks, Text.isBlank c = true)
    (line : List Char) : listed? (line ++ blanks) = listed? line := by
  rw [listed?, listed?, ofLine_append_blank h]

/-- A terminator is made of blank characters. -/
theorem exists_eq_withoutTerminator_append (line : List Char) :
    ∃ blanks, line = Text.withoutTerminator line ++ blanks ∧
      ∀ c ∈ blanks, Text.isBlank c = true := by
  unfold Text.withoutTerminator
  split
  · next rest hline =>
    refine ⟨['\r', '\n'], by simpa using congrArg List.reverse hline, ?_⟩
    exact List.forall_mem_cons.2 ⟨rfl, List.forall_mem_singleton.2 rfl⟩
  · next rest hline =>
    refine ⟨['\n'], by simpa using congrArg List.reverse hline, ?_⟩
    exact List.forall_mem_singleton.2 rfl
  · exact ⟨[], by simp, by simp⟩

theorem ofLine_withoutTerminator (line : List Char) :
    ofLine (Text.withoutTerminator line) = ofLine line := by
  obtain ⟨blanks, hline, hblanks⟩ := exists_eq_withoutTerminator_append line
  have happend := ofLine_append_blank hblanks (Text.withoutTerminator line)
  rw [← hline] at happend
  exact happend.symm

/-- The names on some lines come one line after the other. -/
theorem filterMap_listed?_cons (line : List Char) (lines : List (List Char)) :
    (line :: lines).filterMap listed? = (listed? line).toList ++ lines.filterMap listed? := by
  rw [List.filterMap_cons]
  cases listed? line <;> rfl

/-- The names on some lines. -/
theorem map_filter_ofLine (lines : List (List Char)) :
    ((lines.map ofLine).filter (· ≠ [])).map String.ofList = lines.filterMap listed? := by
  induction lines with
  | nil => rfl
  | cons line lines ih =>
      rw [List.map_cons, List.filter_cons, List.filterMap_cons, listed?, ← ih]
      by_cases hnone : ofLine line = []
      · rw [if_pos hnone, hnone, if_neg (by decide)]
      · rw [if_neg hnone, if_pos (decide_eq_true hnone), List.map_cons]

/-- A file may as well be read with the terminators on its lines. -/
theorem ofFile_eq_filterMap (text : String) :
    ofFile text = (Text.splitAfter text.toList).filterMap listed? := by
  have hsame : ofLine ∘ Text.withoutTerminator = ofLine := funext ofLine_withoutTerminator
  rw [ofFile, Text.splitLines, List.map_map, hsame, map_filter_ofLine]

/-! ## Texts with a newline between them -/

theorem filterMap_cutAfter_append (line cs more : List Char) :
    (Text.cutAfter line (cs ++ '\n' :: more)).filterMap listed? =
      (Text.cutAfter line cs).filterMap listed? ++ (Text.splitAfter more).filterMap listed? := by
  induction cs generalizing line with
  | nil =>
      -- the newline ends the line that is being read, which may be empty
      have hnewline : listed? ('\n' :: line).reverse = listed? line.reverse := by
        rw [List.reverse_cons]
        exact listed?_append_blank (List.forall_mem_singleton.2 rfl) _
      have hcut : Text.cutAfter line ('\n' :: more) =
          ('\n' :: line).reverse :: Text.splitAfter more := rfl
      rw [List.nil_append, hcut, filterMap_listed?_cons, hnewline]
      cases line with
      | nil => rfl
      | cons c line =>
          have hlast : Text.cutAfter (c :: line) [] = [(c :: line).reverse] := rfl
          rw [hlast, filterMap_listed?_cons, List.filterMap_nil, List.append_nil]
  | cons c cs ih =>
      rw [List.cons_append, Text.cutAfter, Text.cutAfter]
      split
      · rw [filterMap_listed?_cons, filterMap_listed?_cons, ih, List.append_assoc]
      · exact ih _

/-- A newline between two texts lists the names of both, one after the other. -/
theorem ofFile_append_newline (text more : String) :
    ofFile (text ++ "\n" ++ more) = ofFile text ++ ofFile more := by
  have hchars : (text ++ "\n" ++ more).toList = text.toList ++ '\n' :: more.toList := by simp
  rw [ofFile_eq_filterMap, ofFile_eq_filterMap, ofFile_eq_filterMap, hchars]
  exact filterMap_cutAfter_append [] text.toList more.toList

/-- A text on one line lists what the line lists. -/
theorem ofFile_of_notMem {text : String} (h : '\n' ∉ text.toList) :
    ofFile text = (listed? text.toList).toList := by
  rw [ofFile_eq_filterMap]
  by_cases hempty : text.toList = []
  · rw [hempty]
    rfl
  · -- the text is a last line without a terminator
    have hcut := Text.splitAfter_flatten (Text.Cut.last hempty h)
    rw [List.flatten_cons, List.flatten_nil, List.append_nil] at hcut
    rw [hcut, filterMap_listed?_cons, List.filterMap_nil, List.append_nil]

/-! ## Rows -/

/-- Whether a name can be listed: it is a name, and no part of it is taken for a comment. -/
def IsListable (name : String) : Prop := isName name = true ∧ '#' ∉ name.toList

instance (name : String) : Decidable (IsListable name) := inferInstanceAs (Decidable (_ ∧ _))

/-- A line of a methods file, without its terminator. -/
structure Row where
  before : String
  name? : Option String
  after : String
  comment? : Option String
  listable : ∀ name ∈ name?, IsListable name
  blank_before : Text.isBlankText before = true
  blank_after : Text.isBlankText after = true
  /-- All of it stands on one line. -/
  oneLine : '\n' ∉ (before ++ after ++ comment?.getD "").toList

namespace Row

variable (row : Row)

/-- The text of a row up to its comment. -/
def front : String := row.before ++ row.name?.getD "" ++ row.after

/-- The text of a row. -/
def text : String := row.front ++ row.comment?.elim "" ("#" ++ ·)

theorem not_isBlank_of_mem_name : ∀ c ∈ (row.name?.getD "").toList, Text.isBlank c = false := by
  cases hname : row.name? with
  | none => simp
  | some name => exact ((isName_iff name).1 (row.listable name hname).1).2

theorem isBlank_of_mem_before : ∀ c ∈ row.before.toList, Text.isBlank c = true :=
  List.all_eq_true.1 row.blank_before

theorem isBlank_of_mem_after : ∀ c ∈ row.after.toList, Text.isBlank c = true :=
  List.all_eq_true.1 row.blank_after

theorem sign_notMem_front : '#' ∉ row.front.toList := by
  rw [front, String.toList_append, String.toList_append, List.mem_append, List.mem_append]
  rintro ((hbefore | hname) | hafter)
  · exact sign_notMem_of_blank row.isBlank_of_mem_before hbefore
  · cases hlisted : row.name? with
    | none => simp [hlisted] at hname
    | some name =>
        rw [hlisted] at hname
        exact (row.listable name hlisted).2 hname
  · exact sign_notMem_of_blank row.isBlank_of_mem_after hafter

theorem newline_notMem_text : '\n' ∉ row.text.toList := by
  have hline := row.oneLine
  simp only [String.toList_append, List.mem_append, not_or] at hline
  obtain ⟨⟨hbefore, hafter⟩, hcomment⟩ := hline
  rw [text, front]
  simp only [String.toList_append, List.mem_append, not_or]
  refine ⟨⟨⟨hbefore, ?_⟩, hafter⟩, ?_⟩
  · intro hname
    exact Bool.false_ne_true (row.not_isBlank_of_mem_name '\n' hname).symm
  · cases hrow : row.comment? with
    | none => simp
    | some comment =>
        rw [hrow] at hcomment
        simpa using hcomment

/-- What is left of a row is its name. -/
theorem ofLine_text : ofLine row.text.toList = (row.name?.getD "").toList := by
  have hfront : ofLine row.text.toList = Text.trim row.front.toList := by
    rw [text, String.toList_append]
    cases row.comment? with
    | none =>
        rw [Option.elim_none, String.toList_empty, List.append_nil]
        exact ofLine_of_notMem row.sign_notMem_front
    | some comment =>
        rw [Option.elim_some, String.toList_append]
        exact ofLine_comment row.sign_notMem_front comment.toList
  rw [hfront, front, String.toList_append, String.toList_append,
    Text.trim_append_blank row.isBlank_of_mem_after,
    Text.trim_blank_append row.isBlank_of_mem_before,
    Text.trim_eq_self row.not_isBlank_of_mem_name]

/-- A row lists its name, if it has one, and nothing else. -/
theorem listed?_text : listed? row.text.toList = row.name? := by
  rw [listed?, row.ofLine_text]
  cases hname : row.name? with
  | none => rfl
  | some name =>
      have hne : name ≠ "" := ((isName_iff name).1 (row.listable name hname).1).1
      rw [Option.getD_some, if_neg (by simpa using hne), String.ofList_toList]

end Row

/-! ## Listings -/

/-- How a line of a file ends. -/
inductive LineEnd where
  | newline
  /-- A newline with a carriage return before it. -/
  | carriageReturn
deriving DecidableEq, Repr

/-- The characters at the end of a line. -/
def LineEnd.text : LineEnd → String
  | newline => "\n"
  | carriageReturn => "\r\n"

/-- A way to write a methods file. -/
inductive Listing where
  | empty
  /-- The last line without a terminator. -/
  | unterminated (row : Row)
  | line (row : Row) (ending : LineEnd) (rest : Listing)

namespace Listing

/-- The text of a listing. -/
def text : Listing → String
  | empty => ""
  | unterminated row => row.text
  | line row ending rest => row.text ++ ending.text ++ rest.text

/-- The names that a listing is written with. -/
def names : Listing → List String
  | empty => []
  | unterminated row => row.name?.toList
  | line row _ rest => row.name?.toList ++ rest.names

theorem isListable_of_mem_names (listing : Listing) : ∀ name ∈ listing.names, IsListable name := by
  induction listing with
  | empty => simp [names]
  | unterminated row =>
      intro name hname
      exact row.listable name (Option.mem_toList.1 hname)
  | line row ending rest ih =>
      intro name hname
      rcases List.mem_append.1 hname with hname | hname
      · exact row.listable name (Option.mem_toList.1 hname)
      · exact ih name hname

/-- Names can be listed together exactly if each can be listed. -/
theorem exists_names_eq_iff (names : List String) :
    (∃ listing : Listing, listing.names = names) ↔ ∀ name ∈ names, IsListable name := by
  constructor
  · rintro ⟨listing, rfl⟩
    exact listing.isListable_of_mem_names
  · intro h
    induction names with
    | nil => exact ⟨empty, rfl⟩
    | cons name names ih =>
        obtain ⟨hname, hnames⟩ := List.forall_mem_cons.1 h
        obtain ⟨rest, rfl⟩ := ih hnames
        let row : Row := ⟨"", some name, "", none, by simpa using hname, rfl, rfl, by decide⟩
        exact ⟨line row .newline rest, rfl⟩

/-- A file is read as the names it was written with. -/
theorem ofFile_text (listing : Listing) : ofFile listing.text = listing.names := by
  induction listing with
  | empty => rfl
  | unterminated row =>
      rw [text, ofFile_of_notMem row.newline_notMem_text, row.listed?_text, names]
  | line row ending rest ih =>
      cases ending with
      | newline =>
          have htext : (line row .newline rest).text = row.text ++ "\n" ++ rest.text := rfl
          rw [htext, ofFile_append_newline, ih, ofFile_of_notMem row.newline_notMem_text,
            row.listed?_text, names]
      | carriageReturn =>
          -- the carriage return counts as a blank character at the end of the row
          have htext : (line row .carriageReturn rest).text =
              row.text ++ "\r" ++ "\n" ++ rest.text := by
            have hend : LineEnd.carriageReturn.text = "\r" ++ "\n" := rfl
            rw [text, hend, ← String.append_assoc]
          have hline : '\n' ∉ (row.text ++ "\r").toList := by
            simpa using row.newline_notMem_text
          have hblank : Text.isBlankText "\r" = true := rfl
          rw [htext, ofFile_append_newline, ih, ofFile_of_notMem hline, String.toList_append,
            listed?_append_blank (List.all_eq_true.1 hblank), row.listed?_text, names]

end Listing

/-- Names are accepted as they are. -/
theorem exists_ofList_eq_ok {names : List String} (h : ∀ name ∈ names, isName name = true) :
    ∃ methods, ofList names = .ok methods ∧ FirstOccurrences names methods := by
  have htrimmed : names.map Text.trimmed = names := by
    have hname : ∀ name ∈ names, Text.trimmed name = id name := by
      intro name hname
      obtain ⟨-, hblank⟩ := (isName_iff name).1 (h name hname)
      rw [Text.trimmed, Text.trim_eq_self hblank, String.ofList_toList]
      rfl
    rw [List.map_congr_left hname, List.map_id]
  refine ⟨names.eraseDups, (ofList_eq_ok_iff names _).2 ?_, firstOccurrences_eraseDups names⟩
  rw [htrimmed]
  exact ⟨h, firstOccurrences_eraseDups names⟩

/-- **A methods file is read as it was written.** Names can be listed together, in any order and
number, exactly if each of them can be listed. However they are written, each on a line of its own
between blank characters, with comments and with lines without names anywhere, with either end of a
line or none at the end of the file, the file is read as these names in their order, with
repetitions, and they are accepted and come to their first occurrences. Of any two texts with a
newline between them the names are those of the first, and then those of the second. -/
theorem ofFile_listing (names : List String) (text more : String) :
    ((∃ listing : Listing, listing.names = names) ↔ ∀ name ∈ names, IsListable name) ∧
      (∀ listing : Listing, listing.names = names →
        ofFile listing.text = names ∧
          ∃ methods, ofList (ofFile listing.text) = .ok methods ∧
            FirstOccurrences names methods) ∧
      ofFile (text ++ "\n" ++ more) = ofFile text ++ ofFile more := by
  refine ⟨Listing.exists_names_eq_iff names, ?_, ofFile_append_newline text more⟩
  rintro listing rfl
  rw [listing.ofFile_text]
  refine ⟨rfl, exists_ofList_eq_ok ?_⟩
  intro name hname
  exact (listing.isListable_of_mem_names name hname).1

/-- A name with a comment, a blank line, a line with a name in its comment only, and the first name
again, behind it a carriage return that ends no line. -/
theorem ofFile_listing_of_four_rows :
    let first : Row :=
      ⟨" \t", some "größe", " ", some " old", by decide, by decide, by decide, by decide⟩
    let idle : Row := ⟨"", none, "  ", none, by simp, by decide, by decide, by decide⟩
    let comment : Row := ⟨"", none, "", some "# a|b", by simp, by decide, by decide, by decide⟩
    let last : Row := ⟨"", some "größe", "\r", none, by decide, by decide, by decide, by decide⟩
    let rest : Listing := .line comment .newline (.unterminated last)
    let listing : Listing := .line first .carriageReturn (.line idle .newline rest)
    listing.text = " \tgröße # old\r\n  \n## a|b\ngröße\r" ∧
      listing.names = ["größe", "größe"] ∧ ofFile listing.text = ["größe", "größe"] ∧
      ∃ methods, ofList (ofFile listing.text) = .ok methods ∧
        FirstOccurrences ["größe", "größe"] methods := by
  intro first idle comment last rest listing
  have hnames : listing.names = ["größe", "größe"] := rfl
  obtain ⟨-, hread, -⟩ := ofFile_listing ["größe", "größe"] "" ""
  exact ⟨by decide +kernel, hnames, hread listing hnames⟩

end Excision.MethodNames
