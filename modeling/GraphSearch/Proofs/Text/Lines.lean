import GraphSearch.Proofs.Faultless
import GraphSearch.Text.Source
import Mathlib.Data.List.Basic
import Mathlib.Data.List.TakeWhile

/-!
# Reading a text line by line

A line is silent if nothing is left of it after trimming, or a comment; every other line is a
statement. `Recites Means lines xs` is what a grammar `Means` for single statements makes of a whole
text: every line that is not silent says one thing, and `xs` is what they say, in their order.

A reader goes through the statements with a state and stops at the first one that it refuses. It
follows the grammar if it takes up what a statement says, where its state allows that, and refuses
every other statement with the error that the grammar has for it (`Follows`). Then it comes to an
end exactly on the texts that recite something which it may take up throughout
(`Follows.run_eq_ok_iff`), and otherwise its error is that of the first line to blame, before which
all is recited (`Follows.run_eq_error_iff`). What a single statement does is all that these ask
about a reader.
-/

namespace GraphSearch.Text

variable {text s t line : List Char} {c : Char}

/-! ### Trimming -/

/-- What trimming takes away is blank. -/
theorem exists_append_trim (text : List Char) : ∃ before after,
    text = before ++ trim text ++ after ∧ (∀ c ∈ before, isBlank c = true) ∧
      ∀ c ∈ after, isBlank c = true := by
  let rest := text.dropWhile isBlank
  refine ⟨text.takeWhile isBlank, (rest.reverse.takeWhile isBlank).reverse, ?_,
    fun c ↦ List.mem_takeWhile_imp, fun c hc ↦ List.mem_takeWhile_imp (List.mem_reverse.1 hc)⟩
  have hrest : trim text ++ (rest.reverse.takeWhile isBlank).reverse = rest := by
    rw [trim, ← List.reverse_append, List.takeWhile_append_dropWhile, List.reverse_reverse]
  rw [List.append_assoc, hrest, List.takeWhile_append_dropWhile]

/-- A character that is not blank outlasts trimming. -/
theorem mem_trim (hc : c ∈ text) (hblank : isBlank c = false) : c ∈ trim text := by
  obtain ⟨before, after, htext, hbefore, hafter⟩ := exists_append_trim text
  rw [htext, List.mem_append, List.mem_append] at hc
  rcases hc with (hc | hc) | hc
  · exact absurd (hbefore c hc) (by simp [hblank])
  · exact hc
  · exact absurd (hafter c hc) (by simp [hblank])

/-! ### Fields -/

/-- A text is divided by the first place of a character in it. -/
theorem takeWhile_dropWhile_ne (h : c ∉ s) :
    (s ++ c :: t).takeWhile (· != c) = s ∧ (s ++ c :: t).dropWhile (· != c) = c :: t := by
  have hall : ∀ b ∈ s, (b != c) = true := fun b hb ↦ bne_iff_ne.2 fun heq ↦ h (heq ▸ hb)
  constructor
  · rw [List.takeWhile_append_of_pos hall]
    simp
  · rw [List.dropWhile_append_of_pos hall]
    simp

theorem fields_of_notMem (h : ',' ∉ text) : fields text = [trim text] := by
  rw [fields, List.splitOn_eq_singleton h, List.map_singleton]

/-- A comma separates the fields before it from those after it. -/
theorem fields_append_comma (s t : List Char) : fields (s ++ ',' :: t) = fields s ++ fields t := by
  rw [fields, List.splitOn, List.splitOnP_append_cons s t (p := (· == ',')) rfl, List.map_append]
  rfl

/-- There is one field more than there are commas. -/
theorem length_fields (text : List Char) : (fields text).length = text.count ',' + 1 := by
  rw [fields, List.length_map, List.splitOn]
  induction text with
  | nil => rfl
  | cons c text ih =>
    rw [List.splitOnP_cons_eq_if_modifyHead, List.count_cons]
    split
    · rw [List.length_cons, ih]
    · rw [List.length_modifyHead, ih]

/-! ### Silent lines -/

/-- The line is blank or a comment. -/
def IsSilent (line : List Char) : Prop := trim line = [] ∨ (trim line).head? = some '#'

instance (line : List Char) : Decidable (IsSilent line) := inferInstanceAs (Decidable (_ ∨ _))

theorem isStatement_trim_iff : isStatement (trim line) = true ↔ ¬IsSilent line := by
  simp [isStatement, IsSilent]

/-! ### Statements -/

/-- The statements of lines that are numbered from `k + 1`, and where a line cannot be read the
reason. -/
def statementsFrom (k : Nat) (lines : List (Except ReadError (List Char))) :
    List (Except ReadError Statement) :=
  (lines.zipIdx k).filterMap fun (line, k) ↦
    match line with
    | .error e => some (.error e)
    | .ok text =>
      let text := trim text
      if isStatement text then some (.ok ⟨k + 1, text⟩) else none

theorem Source.statements_eq (s : Source) : s.statements = statementsFrom 0 s.lines := rfl

variable {k : Nat} {rest : List (Except ReadError (List Char))}

theorem statementsFrom_of_silent (h : IsSilent line) :
    statementsFrom k (.ok line :: rest) = statementsFrom (k + 1) rest := by
  have hnone : ¬isStatement (trim line) = true := fun hs ↦ isStatement_trim_iff.1 hs h
  rw [statementsFrom, List.zipIdx_cons, List.filterMap_cons]
  simp only [if_neg hnone]
  rfl

theorem statementsFrom_of_not_silent (h : ¬IsSilent line) :
    statementsFrom k (.ok line :: rest) =
      .ok ⟨k + 1, trim line⟩ :: statementsFrom (k + 1) rest := by
  rw [statementsFrom, List.zipIdx_cons, List.filterMap_cons]
  simp only [if_pos (isStatement_trim_iff.2 h)]
  rfl

theorem statementsFrom_append (k : Nat) (lines rest : List (Except ReadError (List Char))) :
    statementsFrom k (lines ++ rest) =
      statementsFrom k lines ++ statementsFrom (k + lines.length) rest := by
  rw [statementsFrom, List.zipIdx_append, List.filterMap_append]
  rfl

/-- A statement is that of a line, with the number of the line. -/
theorem exists_line_of_statementsFrom {lines : List (List Char)}
    {es es' : List (Except ReadError Statement)} {a : Except ReadError Statement}
    (h : statementsFrom k (lines.map .ok) = es ++ a :: es') :
    ∃ before line after, lines = before ++ line :: after ∧
      statementsFrom k (before.map .ok) = es ∧ ¬IsSilent line ∧
      a = .ok ⟨k + before.length + 1, trim line⟩ := by
  induction lines generalizing k es with
  | nil => simp [statementsFrom] at h
  | cons line lines ih =>
    have hnumber : ∀ before : List (List Char),
        k + 1 + before.length = k + (line :: before).length := fun before ↦ by
      rw [List.length_cons, Nat.add_assoc, Nat.add_comm 1]
    rw [List.map_cons] at h
    by_cases hline : IsSilent line
    · rw [statementsFrom_of_silent hline] at h
      obtain ⟨before, found, after, rfl, rfl, hfound, rfl⟩ := ih h
      refine ⟨line :: before, found, after, rfl, statementsFrom_of_silent hline, hfound, ?_⟩
      rw [hnumber]
    · rw [statementsFrom_of_not_silent hline] at h
      rcases List.cons_eq_append_iff.1 h with ⟨rfl, hhead⟩ | ⟨es, rfl, htail⟩
      · exact ⟨[], line, lines, rfl, rfl, hline, (List.cons.inj hhead).1⟩
      · obtain ⟨before, found, after, rfl, rfl, hfound, rfl⟩ := ih htail
        refine ⟨line :: before, found, after, rfl, statementsFrom_of_not_silent hline, hfound, ?_⟩
        rw [hnumber]

/-! ### What a text says -/

section Reading

universe u v w

variable {α : Type u} {σ ε : Type v} {Means : List Char → α → Prop} {lines : List (List Char)}
  {xs : List α} {x : α}

/-- Every line that is not silent says one thing, and these are the things said, in their order. -/
inductive Recites (Means : List Char → α → Prop) : List (List Char) → List α → Prop
  /-- Without lines nothing is said. -/
  | nil : Recites Means [] []
  /-- A silent line says nothing. -/
  | silent {line : List Char} {lines : List (List Char)} {xs : List α} (silent : IsSilent line)
      (rest : Recites Means lines xs) : Recites Means (line :: lines) xs
  /-- Another line says what is written there without the blanks around it. -/
  | spoken {line : List Char} {lines : List (List Char)} {x : α} {xs : List α}
      (speaks : ¬IsSilent line) (means : Means (trim line) x) (rest : Recites Means lines xs) :
      Recites Means (line :: lines) (x :: xs)

namespace Recites

theorem cons_iff_of_silent (h : IsSilent line) :
    Recites Means (line :: lines) xs ↔ Recites Means lines xs := by
  constructor
  · intro hxs
    cases hxs with
    | silent _ rest => exact rest
    | spoken speaks _ _ => exact absurd h speaks
  · exact .silent h

theorem cons_iff_of_not_silent (h : ¬IsSilent line) :
    Recites Means (line :: lines) xs ↔
      ∃ y ys, xs = y :: ys ∧ Means (trim line) y ∧ Recites Means lines ys := by
  constructor
  · intro hxs
    cases hxs with
    | silent silent _ => exact absurd silent h
    | spoken _ means rest => exact ⟨_, _, rfl, means, rest⟩
  · rintro ⟨y, ys, rfl, hy, hys⟩
    exact .spoken h hy hys

/-- What is recited is said in some text. -/
theorem exists_means_of_mem (h : Recites Means lines xs) (hx : x ∈ xs) : ∃ text, Means text x := by
  induction h with
  | nil => exact absurd hx List.not_mem_nil
  | silent _ _ ih => exact ih hx
  | spoken _ means _ ih =>
    rcases List.mem_cons.1 hx with rfl | hx
    · exact ⟨_, means⟩
    · exact ih hx

/-- What is recited is what some line says, if no line says two things. -/
theorem mem_iff (h : Recites Means lines xs)
    (hunique : ∀ {text x y}, Means text x → Means text y → x = y) :
    x ∈ xs ↔ ∃ line ∈ lines, ¬IsSilent line ∧ Means (trim line) x := by
  induction h with
  | nil => simp
  | silent silent _ ih =>
    rw [ih, List.exists_mem_cons_iff]
    simp [silent]
  | spoken speaks means _ ih =>
    rw [List.mem_cons, ih, List.exists_mem_cons_iff]
    refine or_congr_left ⟨?_, fun hx ↦ hunique hx.2 means⟩
    rintro rfl
    exact ⟨speaks, means⟩

end Recites

/-! ### Readers -/

variable {entry : σ → Except ReadError Statement → Except ε σ} {take : σ → α → Option σ}
  {Blames : σ → Nat → List Char → ε → Prop} {d d' : σ}

/-- The reader follows a grammar. What a statement says is taken up where the state allows that, and
for any other statement the grammar knows whom to blame. -/
structure Follows (entry : σ → Except ReadError Statement → Except ε σ)
    (Means : List Char → α → Prop) (take : σ → α → Option σ)
    (Blames : σ → Nat → List Char → ε → Prop) : Prop where
  /-- What is said is taken up. -/
  accepts : ∀ {d n text x d'}, Means text x → take d x = some d' →
    entry d (.ok ⟨n, text⟩) = .ok d'
  /-- Whoever is blamed is refused for that. -/
  refuses : ∀ {d n text e}, Blames d n text e → entry d (.ok ⟨n, text⟩) = .error e
  /-- There is something to be taken up, or somebody to be blamed. -/
  decides : ∀ d n text, (∃ x d', Means text x ∧ take d x = some d') ∨ ∃ e, Blames d n text e
  /-- A line that cannot be read is refused. -/
  refuses_unread : ∀ d e, ∃ e', entry d (.error e) = .error e'

namespace Follows

variable (h : Follows entry Means take Blames)

include h

theorem entry_eq_ok_iff {n : Nat} :
    entry d (.ok ⟨n, text⟩) = .ok d' ↔ ∃ x, Means text x ∧ take d x = some d' := by
  constructor
  · intro hok
    rcases h.decides d n text with ⟨x, d₁, hx, htake⟩ | ⟨e, he⟩
    · obtain rfl := Except.ok.inj (hok.symm.trans (h.accepts hx htake))
      exact ⟨x, hx, htake⟩
    · cases hok.symm.trans (h.refuses he)
  · rintro ⟨x, hx, htake⟩
    exact h.accepts hx htake

theorem entry_eq_error_iff {n : Nat} {e : ε} :
    entry d (.ok ⟨n, text⟩) = .error e ↔ Blames d n text e := by
  refine ⟨fun herror ↦ ?_, h.refuses⟩
  rcases h.decides d n text with ⟨x, d₁, hx, htake⟩ | ⟨e', he'⟩
  · cases herror.symm.trans (h.accepts hx htake)
  · obtain rfl := Except.error.inj (herror.symm.trans (h.refuses he'))
    exact he'

/-- **A reader comes to an end exactly on what the grammar lets be said.** -/
theorem run_eq_ok_iff :
    (statementsFrom k (lines.map .ok)).foldlM entry d = .ok d' ↔
      ∃ xs, Recites Means lines xs ∧ xs.foldlM take d = some d' := by
  -- The state is generalised, since a line that says something hands another one on.
  induction lines generalizing k d with
  | nil =>
    constructor
    · rintro ⟨⟩
      exact ⟨[], .nil, rfl⟩
    · rintro ⟨_, ⟨⟩, ⟨⟩⟩
      rfl
  | cons line lines ih =>
    rw [List.map_cons]
    by_cases hline : IsSilent line
    · simp only [statementsFrom_of_silent hline, ih, Recites.cons_iff_of_silent hline]
    · rw [statementsFrom_of_not_silent hline, List.foldlM_cons, bind_eq_ok_iff]
      simp only [h.entry_eq_ok_iff, ih, Recites.cons_iff_of_not_silent hline]
      constructor
      · rintro ⟨d₁, ⟨x, hx, htake⟩, xs, hxs, hrest⟩
        exact ⟨x :: xs, ⟨x, xs, rfl, hx, hxs⟩, by rw [List.foldlM_cons, htake]; exact hrest⟩
      · rintro ⟨_, ⟨x, xs, rfl, hx, hxs⟩, hrest⟩
        rw [List.foldlM_cons] at hrest
        obtain ⟨d₁, htake, hrest⟩ := Option.bind_eq_some_iff.1 hrest
        exact ⟨d₁, ⟨x, hx, htake⟩, xs, hxs, hrest⟩

/-- **The error of a reader is that of the first line that is to blame.** -/
theorem run_eq_error_iff {e : ε} :
    (statementsFrom k (lines.map .ok)).foldlM entry d = .error e ↔
      ∃ before line after xs d', lines = before ++ line :: after ∧ Recites Means before xs ∧
        xs.foldlM take d = some d' ∧ ¬IsSilent line ∧
        Blames d' (k + before.length + 1) (trim line) e := by
  simp only [← h.entry_eq_error_iff]
  rw [foldlM_eq_error_iff]
  constructor
  · rintro ⟨es, a, rest, d', hstatements, hbefore, hrefused⟩
    obtain ⟨before, line, after, rfl, rfl, hline, rfl⟩ := exists_line_of_statementsFrom hstatements
    obtain ⟨xs, hxs, htake⟩ := h.run_eq_ok_iff.1 hbefore
    exact ⟨before, line, after, xs, d', rfl, hxs, htake, hline, hrefused⟩
  · rintro ⟨before, line, after, xs, d', rfl, hxs, htake, hline, hrefused⟩
    have hbefore : (statementsFrom k (before.map .ok)).foldlM entry d = .ok d' :=
      h.run_eq_ok_iff.2 ⟨xs, hxs, htake⟩
    refine ⟨_, _, statementsFrom (k + before.length + 1) (after.map .ok), d', ?_, hbefore, hrefused⟩
    rw [List.map_append, statementsFrom_append, List.map_cons, statementsFrom_of_not_silent hline,
      List.length_map]

/-- A reader that comes to an end has read every line. -/
theorem exists_lines_of_run_eq_ok {lines : List (Except ReadError (List Char))}
    (hrun : (statementsFrom k lines).foldlM entry d = .ok d') :
    ∃ read : List (List Char), lines = read.map .ok := by
  induction lines generalizing k d with
  | nil => exact ⟨[], rfl⟩
  | cons line lines ih =>
    rcases line with e | line
    · obtain ⟨e', he'⟩ := h.refuses_unread d e
      have hfirst : statementsFrom k (.error e :: lines) =
          .error e :: statementsFrom (k + 1) lines := rfl
      rw [hfirst, List.foldlM_cons, he'] at hrun
      cases hrun
    · suffices hrest : ∃ d₁, (statementsFrom (k + 1) lines).foldlM entry d₁ = .ok d' by
        obtain ⟨d₁, hrest⟩ := hrest
        obtain ⟨read, rfl⟩ := ih hrest
        exact ⟨line :: read, rfl⟩
      by_cases hline : IsSilent line
      · rw [statementsFrom_of_silent hline] at hrun
        exact ⟨d, hrun⟩
      · rw [statementsFrom_of_not_silent hline, List.foldlM_cons] at hrun
        obtain ⟨d₁, -, hrest⟩ := bind_eq_ok_iff.1 hrun
        exact ⟨d₁, hrest⟩

end Follows

end Reading

end GraphSearch.Text
