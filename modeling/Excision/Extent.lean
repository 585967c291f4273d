/-!
# Extents of methods

The extent of a method is the stretch of lines that goes when the method goes: its doc
comment, its declaration and its body. Indices count from zero and both ends belong to the
extent. Texts shown to a person count lines from one.
-/

set_option autoImplicit false

namespace Excision

/-- The lines `first` to `last` of a method that is declared on line `declaration`. -/
structure Extent where
  first : Nat
  declaration : Nat
  last : Nat
deriving DecidableEq, Repr

namespace Extent

/-- The number of lines of an extent. -/
def size (e : Extent) : Nat := e.last - e.first + 1

/-- Whether the line at an index belongs to the extent. -/
def covers (e : Extent) (index : Nat) : Bool := e.first ≤ index && index ≤ e.last

/-- The indices of the lines of an extent, in order. -/
def indices (e : Extent) : List Nat := List.range' e.first (e.last + 1 - e.first)

/-- The extent as a person reads it, in line numbers from one. -/
def describe (e : Extent) : String := s!"lines {e.first + 1} to {e.last + 1}"

theorem covers_iff (e : Extent) (index : Nat) :
    e.covers index = true ↔ e.first ≤ index ∧ index ≤ e.last := by
  simp [covers]

theorem mem_indices_iff (e : Extent) (index : Nat) :
    index ∈ e.indices ↔ e.covers index = true := by
  simp only [indices, List.mem_range', covers_iff]
  constructor
  · rintro ⟨k, hk, rfl⟩
    omega
  · intro h
    exact ⟨index - e.first, by omega, by omega⟩

end Extent

end Excision
