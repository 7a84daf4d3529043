import GraphSearch.Proofs.Colouring.InstanceGrammar
import GraphSearch.Proofs.Route.InstanceGrammar
import GraphSearch.Proofs.Text.BrokenSources

/-!
# Instances in sources that break off

Both kinds of instances are refused when their source breaks off, even if what was read is an
instance already: whether anything is missing is only asked at the end of a source, and the end is
never reached. What decides is the first error among the completed lines, for colouring instances in
view of whether the number of colours was given before (`Colouring.Instance.FirstError`,
`Route.Instance.FirstError`). Without one the instance is unreadable, for the cause of the break
(`parse_broken_source`).
-/

namespace GraphSearch

open Text (Completed ReadError Source completedLine)

namespace Colouring.Instance

/-- The first error among lines of which some may not be read. The number of colours is given once
at most before it. -/
def FirstError (entries : List (Except ReadError (List Char))) (e : InstanceError) : Prop :=
  Text.FirstError Means (fun said ↦ (sizes said).length ≤ 1) (fun said ↦ Blames (sizes said ≠ []))
    .unreadable entries e

/-- A colouring instance is not read from a source that breaks. -/
theorem parse_of_breaks {source : Source} {pieces : List (List UInt8)} {cause : ReadError}
    (h : source.Breaks pieces cause) :
    (∀ i, parse source ≠ .ok i) ∧
      ∀ e, parse source = .error e ↔ FirstError (pieces.map completedLine) e ∨
        (¬∃ e', FirstError (pieces.map completedLine) e') ∧ e = .unreadable cause := by
  have hallows : ∀ said : List Meaning,
      (sizes said).length ≤ 1 ↔ ∃ d', said.foldlM Draft.take {} = some d' := fun said ↦ by
    simp [foldlM_take_eq_some_iff]
  have hblames : ∀ {said : List Meaning} {d' : Draft}, said.foldlM Draft.take {} = some d' →
      ∀ n text e, Blames (sizes said ≠ []) n text e ↔
        Blames (d'.palette.isSome = true) n text e := by
    intro said d' htake n text e
    obtain ⟨-, rfl⟩ := foldlM_take_eq_some_iff.1 htake
    simp
  obtain ⟨hok, herror⟩ := follows_readEntry.run_eq_error_iff_of_breaks (fun _ _ ↦ rfl) hallows
    hblames h
  constructor
  · intro i hi
    obtain ⟨d, hd, -⟩ := parse_eq_ok_iff_exists_draft.1 hi
    exact hok d hd
  · intro e
    rw [parse_eq_error_iff_exists_draft, herror]
    exact or_iff_left fun ⟨d, hd, _⟩ ↦ hok d hd

end Colouring.Instance

namespace Route.Instance

/-- The first error among lines of which some may not be read. -/
def FirstError (entries : List (Except ReadError (List Char))) (e : InstanceError) : Prop :=
  Text.FirstError Means (fun _ ↦ True) (fun _ ↦ Blames) .unreadable entries e

/-- A pathfinding instance is not read from a source that breaks. -/
theorem parse_of_breaks {source : Source} {pieces : List (List UInt8)} {cause : ReadError}
    (h : source.Breaks pieces cause) :
    (∀ i, parse source ≠ .ok i) ∧
      ∀ e, parse source = .error e ↔ FirstError (pieces.map completedLine) e ∨
        (¬∃ e', FirstError (pieces.map completedLine) e') ∧ e = .unreadable cause := by
  have hallows : ∀ said : List Meaning,
      True ↔ ∃ d', said.foldlM (fun d m ↦ some (Draft.take d m)) {} = some d' :=
    fun said ↦ iff_of_true trivial ⟨_, List.foldlM_pure⟩
  obtain ⟨hok, herror⟩ := follows_readEntry.run_eq_error_iff_of_breaks (fun _ _ ↦ rfl) hallows
    (fun {_ _} _ _ _ _ ↦ Iff.rfl) h
  rw [parse]
  cases hrun : source.statements.foldlM readEntry {} with
  | ok d => exact absurd hrun (hok d)
  | error e' =>
    refine ⟨fun i hi ↦ ?_, fun e ↦ ?_⟩
    · rw [error_bind] at hi
      cases hi
    · have he := herror e
      rw [hrun, Except.error.injEq] at he
      rw [error_bind, Except.error.injEq]
      exact he

end Route.Instance

/-- **A source that breaks off is never accepted.** A source that fails breaks off after the lines
which were completed before, whatever they say. An instance of either kind is then refused for the
first line in error among them, a line that is not UTF-8 being one, and if there is none it is
unreadable for the cause of the break. So it is in a source that is not UTF-8 in its next line. -/
theorem parse_broken_source :
    (∀ (bytes : List UInt8) (n : Nat) (cause : ReadError), ∃ pieces rest,
      Completed (bytes.take n) pieces rest ∧ 10 ∉ rest ∧
        (Source.failAfter { bytes } n cause).Breaks pieces cause) ∧
    ∀ (source : Source) (pieces : List (List UInt8)) (cause : ReadError),
      source.Breaks pieces cause →
        ((∀ i, Colouring.Instance.parse source ≠ .ok i) ∧
          ∀ e, Colouring.Instance.parse source = .error e ↔
            Colouring.Instance.FirstError (pieces.map completedLine) e ∨
              (¬∃ e', Colouring.Instance.FirstError (pieces.map completedLine) e') ∧
                e = .unreadable cause) ∧
        (∀ i, Route.Instance.parse source ≠ .ok i) ∧
          ∀ e, Route.Instance.parse source = .error e ↔
            Route.Instance.FirstError (pieces.map completedLine) e ∨
              (¬∃ e', Route.Instance.FirstError (pieces.map completedLine) e') ∧
                e = .unreadable cause := by
  refine ⟨fun bytes n cause ↦ Source.exists_breaks_failAfter { bytes } n cause, ?_⟩
  intro source pieces cause h
  exact ⟨Colouring.Instance.parse_of_breaks h, Route.Instance.parse_of_breaks h⟩

/-- Bytes that are a whole colouring instance are none if the source fails after them, in the middle
of a line. A comment that is not UTF-8 is not read on, but a number that is none is what counts if
it comes before. -/
theorem parse_broken_source_whole :
    (∃ i, Colouring.Instance.parse (.ofString "colors=2\n1,2\n") = .ok i) ∧
      (∀ i, Colouring.Instance.parse
        (Source.failAfter (.ofString "colors=2\n1,2\n34") 14 (.failed "boom")) ≠ .ok i) ∧
      (Source.mk [83, 44, 63, 10, 35, 255, 10] none).Breaks [[83, 44, 63]] .notUtf8 ∧
      Route.Instance.FirstError ([[83, 44, 63]].map completedLine) (.invalidInteger 1 "?") := by
  obtain ⟨hfails, hbreaks⟩ := parse_broken_source
  obtain ⟨pieces, rest, -, -, hfailed⟩ :=
    hfails (Source.ofString "colors=2\n1,2\n34").bytes 14 (.failed "boom")
  have hnotUtf8 : ¬(Text.dropReturn [35, 255]).toByteArray.IsValidUTF8 := by decide +kernel
  have hcompleted :
      Completed [83, 44, 63, 10, 35, 255, 10] [[83, 44, 63]] ([35, 255] ++ 10 :: []) :=
    ⟨rfl, by decide⟩
  have hcomment : (Source.mk [83, 44, 63, 10, 35, 255, 10] none).Breaks [[83, 44, 63]] .notUtf8 :=
    .line hcompleted (by decide) hnotUtf8
  have hread : (fun _ ↦ ()) <$> Route.Instance.parse ⟨[83, 44, 63, 10, 35, 255, 10], none⟩ =
      .error (.invalidInteger 1 "?") := by decide +kernel
  refine ⟨⟨⟨.declared [.edge 1 2], 2⟩, by decide +kernel⟩, (hbreaks _ _ _ hfailed).1.1, hcomment,
    ?_⟩
  have hfirst := ((hbreaks _ _ _ hcomment).2.2 _).1 (map_eq_error_iff.1 hread)
  exact hfirst.resolve_right fun h ↦ by cases h.2

end GraphSearch
