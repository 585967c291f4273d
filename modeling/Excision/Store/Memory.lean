import Excision.Store

/-!
# A store in memory

Documents kept as texts under their paths. Two paths with the same components are one path to the
store, however they are written: what is saved to `out//S.ts` is loaded from `out/S.ts`. Saving to a
path that is denied fails and changes nothing; otherwise it sets that path and no other. The
template of the last save is kept, so that one can see with which template a run saved.
-/

set_option autoImplicit false

namespace Excision

/-- Documents in memory. -/
structure Memory where
  files : List (Path × String)
  denied : List Path
  template : Option Path
  journal : List Record
deriving DecidableEq, Repr

namespace Memory

/-- The text under the components of a path. -/
def under? (memory : Memory) (components : String × List String) : Option String :=
  (memory.files.find? (·.1.components == components)).map Prod.snd

/-- The text at a path. -/
def text? (memory : Memory) (path : Path) : Option String := memory.under? path.components

/-- A path as it is written in memory, if it is there. -/
def known (memory : Memory) (path : Path) : Path :=
  ((memory.files.find? (·.1.isSame path)).map Prod.fst).getD path

/-- A text set at a path. -/
def put (memory : Memory) (path : Path) (text : String) : Memory :=
  { memory with
    files := (memory.known path, text) :: memory.files.filter (!·.1.isSame path) }

/-- Nothing at a path. -/
def erase (memory : Memory) (path : Path) : Memory :=
  { memory with files := memory.files.filter (!·.1.isSame path) }

/-- The text at one path taken to another, if there is one. -/
def move (memory : Memory) (origin destination : Path) : Memory :=
  match memory.text? origin with
  | some text => (memory.erase origin).put destination text
  | none => memory

/-- The document at a path, in memory. -/
def load (memory : Memory) (path : Path) : Except StoreFault Source :=
  match memory.text? path with
  | some text => .ok (Source.ofText text)
  | none => .error (.unreadable path "no such file")

/-- Lines saved at a path, in memory. -/
def save (memory : Memory) (path : Path) (lines : List String) (template : Option Path) :
    Except StoreFault Unit × Memory :=
  let memory := { memory with template := template }
  if memory.denied.any (·.isSame path) then (.error (.unwritable path "read-only"), memory)
  else (.ok (), memory.put path (String.join lines))

instance : Journaling (StateM Memory) where
  keep records := modify fun memory => { memory with journal := memory.journal ++ records }

instance : Store (StateM Memory) where
  load path := do return (← get).load path
  save path lines template := modifyGet fun memory => memory.save path lines template

end Memory

end Excision
