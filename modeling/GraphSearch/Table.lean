import GraphSearch.Fault

/-!
# Tables

A table holds one entry for each of the numbers `0, 1, …, size - 1`. A colouring problem keeps its
labels, neighbourhoods, domains and colours in tables, where the number is that of a variable.
Reading or writing past the end is a `Fault`, which names the size and the number asked for.

A table is seen through `toList`. The lemmas of this file say what each operation does to that list.
-/

namespace GraphSearch

universe u

/-- Entries numbered from zero. -/
structure Table (α : Type u) where
  /-- The entries, in the order of their numbers. -/
  entries : Array α
deriving DecidableEq, Repr

namespace Table

variable {α : Type u}

/-- The table with the given entries. -/
def ofList (l : List α) : Table α := ⟨l.toArray⟩

/-- The entries in the order of their numbers. -/
def toList (t : Table α) : List α := t.entries.toList

/-- The number of entries. -/
def size (t : Table α) : Nat := t.entries.size

/-- Whether there are no entries. -/
def isEmpty (t : Table α) : Bool := t.size == 0

/-- The table without entries. -/
def empty : Table α := ⟨#[]⟩

/-- The table whose first `n` entries are all `a`. -/
def filled (n : Nat) (a : α) : Table α := ⟨Array.replicate n a⟩

/-- The numbers that have an entry, in ascending order. -/
def keys (t : Table α) : List Nat := List.range t.size

/-- Every entry with its number, in ascending order of the numbers. -/
def pairs (t : Table α) : List (Nat × α) := t.toList.zipIdx.map fun (a, k) ↦ (k, a)

/-- The entry of number `k`. -/
def get (t : Table α) (k : Nat) : Except Fault α :=
  match t.entries[k]? with
  | some a => .ok a
  | none => .error (.indexOutOfRange t.size k)

/-- The table whose entry of number `k` is `a` and whose other entries are those of `t`. -/
def set (t : Table α) (k : Nat) (a : α) : Except Fault (Table α) :=
  if h : k < t.entries.size then .ok ⟨t.entries.set k a h⟩
  else .error (.indexOutOfRange t.size k)

/-- The table with one more entry, which gets the next number. -/
def push (t : Table α) (a : α) : Table α := ⟨t.entries.push a⟩

/-! ### What the operations do to the list of entries -/

@[simp] theorem length_toList (t : Table α) : t.toList.length = t.size := by
  simp [toList, size]

@[simp] theorem toList_ofList (l : List α) : (ofList l).toList = l := by
  simp [toList, ofList]

@[simp] theorem size_ofList (l : List α) : (ofList l).size = l.length := by
  simp [size, ofList]

@[simp] theorem toList_filled (n : Nat) (a : α) : (filled n a).toList = List.replicate n a := by
  simp [toList, filled]

@[simp] theorem size_filled (n : Nat) (a : α) : (filled n a).size = n := by
  simp [size, filled]

@[simp] theorem toList_push (t : Table α) (a : α) : (t.push a).toList = t.toList ++ [a] := by
  simp [toList, push]

/-- Reading succeeds exactly at the numbers that have an entry, and gives that entry. -/
theorem get_eq_ok_iff {t : Table α} {k : Nat} {a : α} :
    t.get k = .ok a ↔ t.toList[k]? = some a := by
  unfold get toList
  rw [Array.getElem?_toList]
  cases t.entries[k]? <;> simp

/-- Reading past the end names the size and the number asked for. -/
theorem get_eq_error_iff {t : Table α} {k : Nat} {e : Fault} :
    t.get k = .error e ↔ t.size ≤ k ∧ e = .indexOutOfRange t.size k := by
  unfold get size
  cases h : t.entries[k]? with
  | none => simp [Array.getElem?_eq_none_iff.1 h, eq_comm]
  | some a =>
    obtain ⟨hk, -⟩ := Array.getElem?_eq_some_iff.1 h
    simp [Nat.not_le.2 hk]

/-- Writing succeeds exactly at the numbers that have an entry, and changes that entry only. -/
theorem set_eq_ok_iff {t s : Table α} {k : Nat} {a : α} :
    t.set k a = .ok s ↔ k < t.size ∧ s.toList = t.toList.set k a := by
  unfold set size toList
  split
  · rename_i h
    rw [← Array.toList_set (h := h), Array.toList_inj]
    cases s
    simp [h, eq_comm]
  · rename_i h
    simp [h]

end Table

end GraphSearch
