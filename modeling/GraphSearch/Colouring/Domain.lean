import GraphSearch.Colouring.Graph

/-!
# The colours that are left for a variable

A domain is a list of colours. It starts as the whole palette in ascending order and only ever loses
colours, so the order of the rest stays as it was.

A colour is *unsupported* by the domain of a neighbour if it is the only one that the neighbour has
left: giving it to both would break the edge between them. An empty domain supports everything.
-/

namespace GraphSearch.Colouring

/-- The colours that are left for a variable, in the order in which they are to be tried. -/
structure Domain where
  /-- The colours. -/
  colours : List Colour := []
deriving DecidableEq, Repr

namespace Domain

/-- The whole palette of size `k`. -/
def full (k : Nat) : Domain := ⟨List.range' 1 k⟩

/-- The number of colours left. -/
def size (d : Domain) : Nat := d.colours.length

/-- Whether no colour is left. -/
def isEmpty (d : Domain) : Bool := d.colours.isEmpty

/-- Whether the colour `c` is left. -/
def contains (d : Domain) (c : Colour) : Bool := d.colours.contains c

/-- Whether there are colours left and all of them are `c`. -/
def isOnly (d : Domain) (c : Colour) : Bool := !d.isEmpty && d.colours.all (· == c)

/-- Takes the first `c` away. -/
def erase (d : Domain) (c : Colour) : Domain := ⟨d.colours.erase c⟩

/-- Takes everything but `c` away. -/
def retain (d : Domain) (c : Colour) : Domain := ⟨d.colours.filter (· == c)⟩

/-- Takes the first of each of the colours away. -/
def eraseAll (d : Domain) (cs : List Colour) : Domain := cs.foldl erase d

/-- The colours that a neighbour with the domain `support` rules out. -/
def unsupported (d support : Domain) : List Colour := d.colours.filter support.isOnly

/-! ### What taking colours away does to their number -/

theorem size_erase_of_mem {d : Domain} {c : Colour} (h : c ∈ d.colours) :
    (d.erase c).size + 1 = d.size := by
  have := List.length_pos_of_mem h
  simp only [erase, size, List.length_erase_of_mem h]
  omega

theorem size_eraseAll_le (d : Domain) (cs : List Colour) : (d.eraseAll cs).size ≤ d.size := by
  induction cs generalizing d with
  | nil => exact Nat.le_refl _
  | cons c cs ih => exact Nat.le_trans (ih (d.erase c)) (List.length_erase_le ..)

/-- Taking away a colour that is there, and others with it, leaves strictly fewer. -/
theorem size_eraseAll_lt {d : Domain} {c : Colour} {cs : List Colour} (h : c ∈ d.colours) :
    (d.eraseAll (c :: cs)).size < d.size := by
  have := size_erase_of_mem h
  have := size_eraseAll_le (d.erase c) cs
  show ((d.erase c).eraseAll cs).size < d.size
  omega

/-- If anything is unsupported, taking it away leaves strictly fewer colours. -/
theorem size_eraseAll_unsupported_lt {d support : Domain} (h : d.unsupported support ≠ []) :
    (d.eraseAll (d.unsupported support)).size < d.size := by
  cases hu : d.unsupported support with
  | nil => exact absurd hu h
  | cons c cs =>
    have hc : c ∈ d.unsupported support := hu ▸ List.mem_cons_self ..
    exact size_eraseAll_lt (List.mem_filter.1 hc).1

end Domain

end GraphSearch.Colouring
