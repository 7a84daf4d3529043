import GraphSearch.CommandLine.Surroundings
import Mathlib.Data.List.Basic

/-!
# Surroundings with known files

What a program finds under a path does not change while it runs, but how long its computations take
is not known. Such surroundings have a state that may be anything and that each action may change.
`Gives` says what an action gives in every state, and is put together along the program: one action
after another (`Gives.bind`), and one for each entry of a list (`Gives.mapM`).

In the surroundings of `Surroundings.Finds` looking at a path gives what is known to be there, and
taking the time of a computation gives its value. Nothing is said about the time. A folder in which
each computation takes longer than the one before it is an example (`Folder.slowing`).
-/

namespace GraphSearch.CommandLine

variable {σ α β : Type}

/-! ### What an action gives in every state -/

/-- From every state the action gives a result of `Q`. -/
def Gives (m : StateM σ α) (Q : α → Prop) : Prop := ∀ t, Q (m.run t).1

namespace Gives

theorem pure {Q : α → Prop} {a : α} (h : Q a) : Gives (Pure.pure a : StateM σ α) Q := fun _ ↦ h

/-- What an action gives is all that the next one has to rely on. -/
theorem bind {m : StateM σ α} {f : α → StateM σ β} {Q : α → Prop} {R : β → Prop}
    (hm : Gives m Q) (hf : ∀ a, Q a → Gives (f a) R) : Gives (m >>= f) R :=
  fun t ↦ hf _ (hm t) (m.run t).2

/-- If `g` of what an action gives is known for each entry of a list, it is known for all of them.
-/
theorem mapM {γ : Type} {f : α → StateM σ β} {g : β → γ} {k : α → γ}
    (h : ∀ a, Gives (f a) fun b ↦ g b = k a) (l : List α) :
    Gives (l.mapM f) fun bs ↦ bs.map g = l.map k := by
  induction l with
  | nil => exact pure rfl
  | cons a l ih =>
    rw [List.mapM_cons]
    refine (h a).bind fun b hb ↦ ih.bind fun bs hbs ↦ pure ?_
    rw [List.map_cons, List.map_cons, hb, hbs]

end Gives

/-! ### Known files -/

/-- In every state paths are found to be what `look` says, and computations have the values that
they have. The times that they take are left open. -/
structure Surroundings.Finds (u : Surroundings (StateM σ)) (look : String → Found) : Prop where
  /-- What is found under a path. -/
  gives_look : ∀ path, Gives (u.look path) (· = look path)
  /-- What a computation gives beside its time. -/
  gives_time : ∀ {α : Type} (compute : Unit → α), Gives (u.time compute) (·.1 = compute ())

/-- The folder as surroundings in which each computation takes a nanosecond longer than the one
before it. -/
def Folder.slowing (f : Folder) : Surroundings (StateM Nat) where
  look path := return f.look path
  time compute := do
    let count ← get
    set (count + 1)
    return (compute (), ⟨count⟩)

theorem Folder.finds_slowing (f : Folder) : f.slowing.Finds f.look where
  gives_look _ _ := rfl
  gives_time _ _ := rfl

end GraphSearch.CommandLine
