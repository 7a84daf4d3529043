import GraphSearch.CommandLine.Grammar
import GraphSearch.Proofs.Faultless

/-!
# Changes of the settings that a command line carries along

What a command line says is read from settings to settings. A step of such a reading carries a
change of the settings along if from changed settings it ends in the changed ones (`Carries`). This
is asked for only where it ends in settings of `P`, which must then have held from the start: a
switch that was set stays set, so what ends without it never had it.

Steps that carry a change along can be put one after another, and so can those of a list. It follows
that a whole command line carries a change along if every option, switch and operand of the grammar
does (`Grammar.Carries.read`).
-/

namespace GraphSearch.CommandLine

variable {σ : Type} {f : σ → σ} {P : σ → Prop}

theorem Grammar.accept_eq_ok_iff {o : Option σ} {s : σ} : accept o = .ok s ↔ o = some s := by
  cases o <;> simp [accept]

/-- Where the step ends in settings of `P`, it begins in settings of `P`, and leads from the changed
settings to the changed ones. -/
def Carries (f : σ → σ) (P : σ → Prop) (step : σ → Except Stop σ) : Prop :=
  ∀ s s', step s = .ok s' → P s' → P s ∧ step (f s) = .ok (f s')

namespace Carries

theorem ok : Carries f P .ok := by
  rintro s _ ⟨⟩ hP
  exact ⟨hP, rfl⟩

theorem error (e : Stop) : Carries f P fun _ ↦ .error e := nofun

theorem bind {first next : σ → Except Stop σ} (hfirst : Carries f P first)
    (hnext : Carries f P next) : Carries f P fun s ↦ first s >>= next := by
  intro s s'' h hP
  obtain ⟨s', hs', hs''⟩ := bind_eq_ok_iff.1 h
  obtain ⟨hP', hcarried'⟩ := hnext s' s'' hs'' hP
  obtain ⟨hP, hcarried⟩ := hfirst s s' hs' hP'
  refine ⟨hP, ?_⟩
  show first (f s) >>= next = _
  rw [hcarried, ok_bind, hcarried']

theorem foldlM {α : Type} {step : σ → α → Except Stop σ} (h : ∀ a, Carries f P (step · a))
    (l : List α) : Carries f P (l.foldlM step ·) := by
  induction l with
  | nil => exact ok
  | cons a l ih =>
    simp only [List.foldlM_cons]
    exact (h a).bind ih

theorem accept {set : σ → Option σ}
    (h : ∀ s s', set s = some s' → P s' → P s ∧ set (f s) = some (f s')) :
    Carries f P fun s ↦ Grammar.accept (set s) := by
  intro s s' hset hP
  obtain ⟨hP, hcarried⟩ := h s s' (Grammar.accept_eq_ok_iff.1 hset) hP
  exact ⟨hP, Grammar.accept_eq_ok_iff.2 hcarried⟩

/-- A setting that may be chosen once carries changes of other settings along. -/
theorem choose {α : Type} {taken : σ → Bool} {choice : Option α} {take : α → σ → σ}
    (htaken : ∀ s, taken (f s) = taken s) (htake : ∀ a s, take a (f s) = f (take a s))
    (hP : ∀ a s, P (take a s) → P s) :
    Carries f P fun s ↦ Grammar.accept (if taken s then none else choice.map (take · s)) := by
  refine accept fun s s' hset hs' ↦ ?_
  split at hset
  · cases hset
  · rename_i hfree
    obtain ⟨a, rfl, rfl⟩ := Option.map_eq_some_iff.1 hset
    refine ⟨hP a s hs', ?_⟩
    rw [if_neg (htaken s ▸ hfree), Option.map_some, htake]

/-- So does a setting that can only be turned on. -/
theorem turnOn {taken : σ → Bool} {take : σ → σ} (htaken : ∀ s, taken (f s) = taken s)
    (htake : ∀ s, take (f s) = f (take s)) (hP : ∀ s, P (take s) → P s) :
    Carries f P fun s ↦ Grammar.accept (if taken s then none else some (take s)) := by
  have hchoose : Carries f P fun s ↦
      Grammar.accept (if taken s then none else (some ()).map fun _ ↦ take s) :=
    choose htaken (fun _ ↦ htake) fun _ ↦ hP
  exact hchoose

end Carries

/-- Each option, switch and operand of the grammar carries the change along. -/
structure Grammar.Carries (g : Grammar σ) (f : σ → σ) (P : σ → Prop) : Prop where
  /-- Options that are switches do. -/
  switch : ∀ {name set}, g.option name = some (.switch set) →
    CommandLine.Carries f P fun s ↦ accept (set s)
  /-- Options that take a value do. -/
  value : ∀ {name set}, g.option name = some (.value set) → ∀ text,
    CommandLine.Carries f P fun s ↦ accept (set text s)
  /-- Switches of one letter do. -/
  letter : ∀ {c set}, g.letter c = some (.switch set) →
    CommandLine.Carries f P fun s ↦ accept (set s)
  /-- Operands do. -/
  operand : ∀ text, CommandLine.Carries f P fun s ↦ accept (g.operand text s)

namespace Grammar.Carries

variable {g : Grammar σ} (h : g.Carries f P)

include h

theorem readSwitch (c : Char) : CommandLine.Carries f P (g.readSwitch · c) := by
  unfold Grammar.readSwitch
  split
  · rename_i set hset
    exact h.letter hset
  · exact .error _
  · exact .error _

/-- **A command line carries along what its words do.** -/
theorem read : ∀ words : List String, CommandLine.Carries f P (g.read · words)
  | [] => .ok
  | word :: words => by
    have ih := read words
    simp only [Grammar.read]
    cases Word.ofString word with
    | endOfOptions => exact .foldlM h.operand words
    | operand text => exact (h.operand text).bind ih
    | switches letters => exact (CommandLine.Carries.foldlM h.readSwitch letters).bind ih
    | option name given =>
      dsimp only
      split
      · rename_i set hset
        exact (h.switch hset).bind ih
      · exact .error _
      · rename_i set text hset
        exact (h.value hset text).bind ih
      · rename_i set hset
        cases words with
        | nil => exact .error _
        | cons next words =>
          dsimp only
          split
          · rename_i text _
            exact (h.value hset text).bind (read words)
          · exact .error _
      · exact .error _

end Grammar.Carries

end GraphSearch.CommandLine
