import Excision.Toml.Scalar

/-!
# TOML documents

A document is read in three steps: its text is cut into tokens, the tokens are arranged into
statements, and the statements are carried out one after the other on a growing table. The
first two steps look at the whole document before the third begins, so what they refuse is found
before any fault in a key or a value.

The third step keeps the rule that nothing is defined twice. A growing table remembers how it
came to be: by a header of its own, by dotted keys, or only because a header names something
inside it. A header may define only a table that is there for the last reason or not at all;
dotted keys may extend only tables made by dotted keys; an inline table or an array that is
written out is never extended. A header that leads through an array of tables means its last
table.

A table that a header opens is in its place from the beginning. The next table of an array
grows on its own until the next header or the end of the document, and only then goes to its
array; if there can be no such array, that is found out then.
-/

set_option autoImplicit false

namespace Excision.Toml

/-- How a growing table came to be. -/
inductive Origin where
  | header
  | dottedKey
  /-- A header names something inside the table. -/
  | passage
deriving DecidableEq, Repr

/-- What stands under a key of a growing table. -/
inductive Growth where
  | value (value : Value)
  | table (origin : Origin) (members : List (String × Growth))
  /-- An array of tables, each defined by a header, the last one first. -/
  | tables (tables : List (List (String × Growth)))
deriving Repr, Inhabited

/-- The members of a growing table. -/
abbrev Growing := List (String × Growth)

namespace Growing

/-- What stands under a key. -/
def get? (members : Growing) (key : String) : Option Growth := List.lookup key members

/-- The members with another growth under a key. -/
def set (members : Growing) (key : String) (growth : Growth) : Growing :=
  (key, growth) :: members.filter (·.1 ≠ key)

/-- A change of a growing table that may be refused. -/
abbrev Change := Origin → Growing → Except Fault (Origin × Growing)

/-- Carries out a change on the table at the end of a path. Tables on the way that are missing
are made; tables that a header defined are not passed by dotted keys. -/
def changeAt (dotted : Bool) : List String → Change → Change
  | [], change, origin, members => change origin members
  | key :: path, change, origin, members =>
    match members.get? key with
    | none => do
      let (inner, grown) ← changeAt dotted path change (if dotted then .dottedKey else .passage) []
      return (origin, members.set key (.table inner grown))
    | some (.value _) => .error .malformed
    | some (.table inner grown) =>
      if dotted ∧ inner = .header then .error .malformed
      else do
        let (inner, grown) ← changeAt dotted path change inner grown
        return (origin, members.set key (.table inner grown))
    | some (.tables []) => .error .malformed
    | some (.tables (last :: before)) => do
      let (_, last) ← changeAt dotted path change .header last
      return (origin, members.set key (.tables (last :: before)))

/-- Defines a value under a new key. With a dotted key the table must be one of dotted keys. -/
def define (dotted : Bool) (key : String) (value : Value) : Change := fun origin members =>
  if dotted ≠ (origin = .dottedKey) then .error .malformed
  else if (members.get? key).isSome then .error .malformed
  else .ok (origin, members.set key (.value value))

/-- Defines a value under a key, from the outside in. -/
def definePair (path : List String) (value : Value) : Change :=
  match path.getLast? with
  | none => fun _ _ => .error .malformed
  | some key =>
    let tables := path.dropLast
    changeAt true tables (define (!tables.isEmpty) key value)

/-- Opens a table by a header. -/
def openTable (path : List String) : Change :=
  match path.getLast? with
  | none => fun _ _ => .error .malformed
  | some key =>
    changeAt false path.dropLast fun origin members =>
      match members.get? key with
      | none => .ok (origin, members.set key (.table .header []))
      | some (.table .passage grown) => .ok (origin, members.set key (.table .header grown))
      | some _ => .error .malformed

/-- Puts a table behind the others of an array of tables. -/
def appendTable (path : List String) (table : Growing) : Change :=
  match path.getLast? with
  | none => fun _ _ => .error .malformed
  | some key =>
    changeAt false path.dropLast fun origin members =>
      match members.get? key with
      | none => .ok (origin, members.set key (.tables [table]))
      | some (.tables tables) => .ok (origin, members.set key (.tables (table :: tables)))
      | some _ => .error .malformed

end Growing

mutual

/-- What a growth has become at the end. -/
def Growth.finish : Growth → Value
  | .value done => done
  | .table _ members => .table (sortMembers (finishMembers members))
  | .tables grown => .array (finishTables grown).reverse

/-- What the members of a growing table have become at the end. -/
def Growth.finishMembers : List (String × Growth) → Members
  | [] => []
  | (key, growth) :: members => (key, growth.finish) :: finishMembers members

/-- What the tables of an array have become at the end. -/
def Growth.finishTables : List (List (String × Growth)) → List Value
  | [] => []
  | members :: rest => .table (sortMembers (finishMembers members)) :: finishTables rest

end

/-- How many parts a key may have. -/
def maxKeyParts : Nat := 80

/-- The parts of a key. -/
def keyPath (key : RawKey) : Except Fault (List String) := do
  let path ← key.mapM keyPart
  if path.length ≤ maxKeyParts then return path else .error .malformed

mutual

/-- The value that is written. -/
def RawValue.value : RawValue → Except Fault Value
  | .scalar raw => scalarValue raw
  | .array items => do return .array (← values items)
  | .inline members => do
    let (_, grown) ← grow members .header []
    return .table (sortMembers (Growth.finishMembers grown))

/-- The values of the items of an array. -/
def RawValue.values : List RawValue → Except Fault (List Value)
  | [] => .ok []
  | item :: items => do
    let value ← item.value
    return value :: (← values items)

/-- The growth of an inline table by its members. -/
def RawValue.grow : List (RawKey × RawValue) → Growing.Change
  | [], origin, grown => .ok (origin, grown)
  | (key, raw) :: members, origin, grown => do
    let path ← keyPath key
    let value ← raw.value
    let (origin, grown) ← Growing.definePair path value origin grown
    grow members origin grown

end

/-- A document while it is read: the growing table, the path of the last header, and the members
of the table of an array that this header opened, if it did. -/
structure Draft where
  members : Growing
  path : List String
  appended : Option Growing
deriving Repr

namespace Draft

/-- Nothing is read. -/
def empty : Draft := ⟨[], [], none⟩

/-- A draft with a value under a key of the table that is open. -/
def define (draft : Draft) (key : List String) (value : Value) : Except Fault Draft :=
  let change := Growing.definePair key value
  match draft.appended with
  | some members => do
    let (_, members) ← change .header members
    return { draft with appended := some members }
  | none => do
    let (_, members) ← Growing.changeAt false draft.path change .header draft.members
    return { draft with members := members }

/-- A draft with the table that is open in its place. -/
def settled (draft : Draft) : Except Fault Draft :=
  match draft.appended with
  | some table => do
    let (_, members) ← Growing.appendTable draft.path table .header draft.members
    return ⟨members, draft.path, none⟩
  | none => .ok draft

/-- A draft with one more statement carried out. -/
def carryOut (draft : Draft) : Statement → Except Fault Draft
  | .pair key raw => do
    let path ← keyPath key
    let value ← raw.value
    draft.define path value
  | .table key => do
    let draft ← draft.settled
    let path ← keyPath key
    let (_, members) ← Growing.openTable path .header draft.members
    return ⟨members, path, none⟩
  | .tableOfArray key => do
    let draft ← draft.settled
    let path ← keyPath key
    return ⟨draft.members, path, some []⟩

end Draft

/-- The table that a document means. -/
def parse (text : String) : Except Fault Members :=
  match (tokens? text.toList).bind Statement.ofTokens? with
  | none => .error .malformed
  | some statements => do
    let draft ← (← statements.foldlM Draft.carryOut .empty).settled
    return sortMembers (Growth.finishMembers draft.members)

end Excision.Toml
