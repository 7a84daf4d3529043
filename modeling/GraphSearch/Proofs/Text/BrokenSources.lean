import GraphSearch.Proofs.Text.Lines

/-!
# Sources that break off

A source breaks where nothing can be read on (`Source.Breaks`): it fails, and with it goes the line
that it had begun to deliver, or it comes to a line that is not UTF-8. Before that stand the lines
which a line feed has completed.

A reader that follows a grammar never comes to an end on such a source. Its error is that of the
first line in error among the completed ones, a line that is not UTF-8 being one of them
(`FirstError`); and if none of them is in error it is the cause of the break
(`Follows.run_eq_error_iff_of_breaks`). So it does not matter what the completed lines amount to,
nor what was delivered of the next one.
-/

namespace GraphSearch.Text

/-! ### Completed lines -/

/-- The bytes begin with these lines, each of them ended by a line feed, and go on with `rest`. -/
structure Completed (bytes : List UInt8) (pieces : List (List UInt8)) (rest : List UInt8) :
    Prop where
  /-- A line feed stands behind each line. -/
  bytes_eq : bytes = pieces.flatMap (· ++ [10]) ++ rest
  /-- No line feed stands in a line. -/
  whole : ∀ piece ∈ pieces, 10 ∉ piece

/-- What is read of the bytes before a line feed. -/
def completedLine (piece : List UInt8) : Except ReadError (List Char) :=
  decodeLine (dropReturn piece)

variable {bytes piece rest : List UInt8} {pieces : List (List UInt8)} {cause : ReadError}
  {s : Source}

theorem decodeLine_eq_error (h : ¬bytes.toByteArray.IsValidUTF8) :
    decodeLine bytes = .error .notUtf8 := by
  rw [decodeLine, String.fromUTF8?, dif_neg h]

theorem splitOn_append_lineFeed (h : 10 ∉ piece) :
    (piece ++ 10 :: rest).splitOn 10 = piece :: rest.splitOn 10 := by
  rw [List.splitOn, List.splitOnP_append_cons piece rest (p := (· == 10)) rfl]
  exact congrArg (· ++ _) (List.splitOn_eq_singleton h)

theorem Completed.splitOn_eq (h : Completed bytes pieces rest) :
    bytes.splitOn 10 = pieces ++ rest.splitOn 10 := by
  obtain ⟨rfl, whole⟩ := h
  induction pieces with
  | nil => rfl
  | cons piece pieces ih =>
    obtain ⟨hpiece, hpieces⟩ := List.forall_mem_cons.1 whole
    rw [List.flatMap_cons, List.append_assoc, List.append_assoc, List.singleton_append,
      splitOn_append_lineFeed hpiece, ih hpieces]
    rfl

/-- Any bytes are those of completed lines and of one that is not. -/
theorem exists_completed (bytes : List UInt8) :
    ∃ pieces rest, Completed bytes pieces rest ∧ 10 ∉ rest := by
  induction bytes with
  | nil => exact ⟨[], [], ⟨rfl, by simp⟩, List.not_mem_nil⟩
  | cons b bytes ih =>
    obtain ⟨pieces, rest, ⟨rfl, whole⟩, hrest⟩ := ih
    by_cases hb : b = 10
    · subst hb
      exact ⟨[] :: pieces, rest, ⟨rfl, List.forall_mem_cons.2 ⟨List.not_mem_nil, whole⟩⟩, hrest⟩
    · -- The byte belongs to the first line, which may be the one that is not completed.
      cases pieces with
      | nil =>
        refine ⟨[], b :: rest, ⟨rfl, by simp⟩, ?_⟩
        exact List.not_mem_cons_of_ne_of_not_mem (Ne.symm hb) hrest
      | cons piece pieces =>
        obtain ⟨hpiece, hpieces⟩ := List.forall_mem_cons.1 whole
        refine ⟨(b :: piece) :: pieces, rest, ⟨rfl, List.forall_mem_cons.2 ⟨?_, hpieces⟩⟩, hrest⟩
        exact List.not_mem_cons_of_ne_of_not_mem (Ne.symm hb) hpiece

/-! ### Where a source breaks -/

/-- After the completed lines the source cannot be read on. -/
inductive Source.Breaks (s : Source) (pieces : List (List UInt8)) : ReadError → Prop
  /-- It fails, whatever it has delivered of the next line. -/
  | failure {rest : List UInt8} {cause : ReadError} (completed : Completed s.bytes pieces rest)
      (begun : 10 ∉ rest) (fails : s.failure = some cause) : Breaks s pieces cause
  /-- The next line is not UTF-8. -/
  | line {piece rest : List UInt8} (completed : Completed s.bytes pieces (piece ++ 10 :: rest))
      (whole : 10 ∉ piece) (bad : ¬(dropReturn piece).toByteArray.IsValidUTF8) :
      Breaks s pieces .notUtf8
  /-- The source ends with the next line, and that is not UTF-8. -/
  | lastLine {piece : List UInt8} (completed : Completed s.bytes pieces piece) (whole : 10 ∉ piece)
      (ends : s.failure = none) (bad : ¬piece.toByteArray.IsValidUTF8) : Breaks s pieces .notUtf8

/-- A source that fails breaks there, with the lines that were completed before. -/
theorem Source.exists_breaks_failAfter (s : Source) (n : Nat) (cause : ReadError) :
    ∃ pieces rest, Completed (s.bytes.take n) pieces rest ∧ 10 ∉ rest ∧
      (s.failAfter n cause).Breaks pieces cause := by
  obtain ⟨pieces, rest, hcompleted, hrest⟩ := exists_completed (s.bytes.take n)
  exact ⟨pieces, rest, hcompleted, hrest, .failure hcompleted hrest rfl⟩

/-- Whatever a source ends with, the completed lines are read first. -/
theorem Source.exists_lines_eq (s : Source) :
    ∃ after, s.lines = (s.bytes.splitOn 10).dropLast.map completedLine ++ after := by
  obtain ⟨bytes, failure⟩ := s
  cases failure with
  | some cause => exact ⟨_, rfl⟩
  | none =>
    simp only [Source.lines]
    split
    · exact ⟨[], (List.append_nil _).symm⟩
    · exact ⟨_, rfl⟩

/-- What is read of a source that breaks: the completed lines, and then the cause. -/
theorem Source.Breaks.exists_lines (h : s.Breaks pieces cause) :
    ∃ after, s.lines = pieces.map completedLine ++ .error cause :: after := by
  cases h with
  | @failure rest cause completed begun fails =>
    refine ⟨[], ?_⟩
    simp only [Source.lines, completed.splitOn_eq, List.splitOn_eq_singleton begun,
      List.dropLast_concat, fails]
    rfl
  | @line piece rest completed whole bad =>
    obtain ⟨after, hafter⟩ := s.exists_lines_eq
    have hpiece : completedLine piece = .error .notUtf8 := decodeLine_eq_error bad
    refine ⟨(rest.splitOn 10).dropLast.map completedLine ++ after, ?_⟩
    rw [hafter, completed.splitOn_eq, splitOn_append_lineFeed whole,
      List.dropLast_append_of_ne_nil (List.cons_ne_nil _ _),
      List.dropLast_cons_of_ne_nil (List.splitOn_ne_nil 10 rest), List.map_append, List.map_cons,
      hpiece, List.append_assoc, List.cons_append]
  | @lastLine piece completed whole ends bad =>
    have hne : piece.isEmpty = false := by
      rw [List.isEmpty_eq_false_iff]
      rintro rfl
      exact bad ByteArray.isValidUTF8_empty
    refine ⟨[], ?_⟩
    simp only [Source.lines, completed.splitOn_eq, List.splitOn_eq_singleton whole,
      List.dropLast_concat, List.getLast?_concat, Option.getD_some, ends, hne,
      decodeLine_eq_error bad]
    rfl

/-! ### The first error -/

section Reading

universe u v

variable {α : Type u} {σ ε : Type v}

/-- The first error among lines of which some may not be read. It is that of a line to blame, in
view of what the lines before it say, or that of a line that is not read. All the lines before it
say something that is allowed. -/
inductive FirstError (Means : List Char → α → Prop) (Allows : List α → Prop)
    (Blames : List α → Nat → List Char → ε → Prop) (unread : ReadError → ε)
    (entries : List (Except ReadError (List Char))) : ε → Prop
  /-- A line is to blame. -/
  | line {before : List (List Char)} {line : List Char}
      {after : List (Except ReadError (List Char))} {said : List α} {e : ε}
      (split : entries = before.map .ok ++ .ok line :: after) (recited : Recites Means before said)
      (allowed : Allows said) (speaks : ¬IsSilent line)
      (blamed : Blames said (before.length + 1) (trim line) e) :
      FirstError Means Allows Blames unread entries e
  /-- A line is not read. -/
  | unread {before : List (List Char)} {cause : ReadError}
      {after : List (Except ReadError (List Char))} {said : List α}
      (split : entries = before.map .ok ++ .error cause :: after)
      (recited : Recites Means before said) (allowed : Allows said) :
      FirstError Means Allows Blames unread entries (unread cause)

theorem exists_lines_or_unread (entries : List (Except ReadError (List Char))) :
    (∃ lines : List (List Char), entries = lines.map .ok) ∨
      ∃ (lines : List (List Char)) (cause : ReadError)
        (after : List (Except ReadError (List Char))),
        entries = lines.map .ok ++ .error cause :: after := by
  induction entries with
  | nil => exact Or.inl ⟨[], rfl⟩
  | cons entry entries ih =>
    cases entry with
    | error cause => exact Or.inr ⟨[], cause, entries, rfl⟩
    | ok line =>
      rcases ih with ⟨lines, rfl⟩ | ⟨lines, cause, after, rfl⟩
      · exact Or.inl ⟨line :: lines, rfl⟩
      · exact Or.inr ⟨line :: lines, cause, after, rfl⟩

namespace Follows

variable {Means : List Char → α → Prop} {entry : σ → Except ReadError Statement → Except ε σ}
  {take : σ → α → Option σ} {Refuses : σ → Nat → List Char → ε → Prop} {d : σ}
  {Allows : List α → Prop} {Blames : List α → Nat → List Char → ε → Prop} {unread : ReadError → ε}
  {entries : List (Except ReadError (List Char))} {e : ε}

-- What was said before decides, and the state of the reader only as far as it was said.
variable (h : Follows entry Means take Refuses)
  (hunread : ∀ d cause, entry d (.error cause) = .error (unread cause))
  (hallows : ∀ said, Allows said ↔ ∃ d', said.foldlM take d = some d')
  (hblames : ∀ {said d'}, said.foldlM take d = some d' →
    ∀ n text e, Blames said n text e ↔ Refuses d' n text e)

include hunread in
/-- A line that is not read ends the reading. -/
theorem foldlM_unread (d : σ) (k : Nat) (cause : ReadError)
    (after : List (Except ReadError (List Char))) :
    (statementsFrom k (.error cause :: after)).foldlM entry d = .error (unread cause) := by
  have hfirst : statementsFrom k (.error cause :: after) =
      .error cause :: statementsFrom (k + 1) after := rfl
  rw [hfirst, List.foldlM_cons, hunread, error_bind]

include h hunread hallows hblames

/-- **The error of a reader is the first one**, also where lines are not read. -/
theorem run_eq_error_iff_firstError :
    (statementsFrom 0 entries).foldlM entry d = .error e ↔
      FirstError Means Allows Blames unread entries e := by
  -- Of lines that are all read the first to blame decides.
  have hline : ∀ (lines : List (List Char)) (after : List (Except ReadError (List Char))) (e : ε),
      (statementsFrom 0 (lines.map .ok)).foldlM entry d = .error e →
        FirstError Means Allows Blames unread (lines.map .ok ++ after) e := by
    intro lines after e hrun
    obtain ⟨before, line, rest, said, d', rfl, hsaid, htake, hspeaks, hblamed⟩ :=
      h.run_eq_error_iff.1 hrun
    have hsplit : (before ++ line :: rest).map Except.ok ++ after =
        before.map .ok ++ .ok line :: (rest.map .ok ++ after) := by
      rw [List.map_append, List.map_cons, List.append_assoc, List.cons_append]
    exact .line hsplit hsaid ((hallows said).2 ⟨d', htake⟩) hspeaks
      ((hblames htake _ _ _).2 (Nat.zero_add before.length ▸ hblamed))
  constructor
  · intro hrun
    rcases exists_lines_or_unread entries with ⟨lines, rfl⟩ | ⟨lines, cause, after, rfl⟩
    · exact List.append_nil (lines.map Except.ok) ▸ hline lines [] e hrun
    · cases hlines : (statementsFrom 0 (lines.map .ok)).foldlM entry d with
      | error e' =>
        rw [statementsFrom_append, List.foldlM_append, hlines, error_bind] at hrun
        exact Except.error.inj hrun ▸ hline lines _ e' hlines
      | ok d' =>
        rw [statementsFrom_append, List.foldlM_append, hlines, ok_bind] at hrun
        rw [foldlM_unread hunread] at hrun
        obtain ⟨said, hsaid, htake⟩ := h.run_eq_ok_iff.1 hlines
        exact Except.error.inj hrun ▸ .unread rfl hsaid ((hallows said).2 ⟨d', htake⟩)
  · rintro (⟨rfl, hsaid, hallowed, hspeaks, hblamed⟩ | ⟨rfl, hsaid, hallowed⟩)
    · obtain ⟨d', htake⟩ := (hallows _).1 hallowed
      rw [statementsFrom_append, List.foldlM_append, h.run_eq_ok_iff.2 ⟨_, hsaid, htake⟩, ok_bind,
        statementsFrom_of_not_silent hspeaks, List.foldlM_cons, List.length_map, Nat.zero_add,
        h.refuses ((hblames htake _ _ _).1 hblamed), error_bind]
    · obtain ⟨d', htake⟩ := (hallows _).1 hallowed
      rw [statementsFrom_append, List.foldlM_append, h.run_eq_ok_iff.2 ⟨_, hsaid, htake⟩, ok_bind,
        foldlM_unread hunread]

/-- **A reader never comes to an end on a source that breaks.** Its error is the first among the
completed lines, or else the cause of the break. -/
theorem run_eq_error_iff_of_breaks {s : Source} {pieces : List (List UInt8)} {cause : ReadError}
    (hs : s.Breaks pieces cause) :
    (∀ d', s.statements.foldlM entry d ≠ .ok d') ∧
      ∀ e, s.statements.foldlM entry d = .error e ↔
        FirstError Means Allows Blames unread (pieces.map completedLine) e ∨
          (¬∃ e', FirstError Means Allows Blames unread (pieces.map completedLine) e') ∧
            e = unread cause := by
  obtain ⟨after, hlines⟩ := hs.exists_lines
  simp only [← h.run_eq_error_iff_firstError hunread hallows hblames]
  rw [Source.statements_eq, hlines, statementsFrom_append, List.foldlM_append]
  cases (statementsFrom 0 (pieces.map completedLine)).foldlM entry d with
  | error e' => simp
  | ok d' =>
    rw [ok_bind, foldlM_unread hunread]
    simp [eq_comm]

end Follows

end Reading

end GraphSearch.Text
