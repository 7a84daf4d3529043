import GraphSearch.CommandLine.Colour
import GraphSearch.Proofs.Text.Lines
import GraphSearch.Proofs.Text.Numerals
import Mathlib.Data.List.Basic

/-!
# Reading a colouring back from its lines

A colouring is printed as one line for each label, and statistics may follow it. `pairOf?` reads the
label and the colour of a line back, and `colouringLines` are the lines of an output that come
before the statistics, which begin with three percent signs.

Nothing is lost or added between the two. A line gives its pair back if the label and the colour fit
into 32 bits (`pairOf?_pairLine`): the label ends at the first blank, since there is none in a
printed integer. A line of a colouring never begins like one of the statistics, and all lines of the
statistics do, so the lines of an output divide where the colouring ends (`colouringLines_append`).
-/

namespace GraphSearch.CommandLine.Colour

open Colouring (Colour Label Run Solution)
open StatisticLog (Casing Entry Format Sink)

/-! ### Lines of a colouring -/

/-- The line of a label and its colour. -/
def pairLine (p : Label × Colour) : String := s!"Var {p.1} -> Color {p.2}"

/-- The label and the colour that a line of a colouring gives. -/
def pairOf? (line : String) : Option (Label × Colour) := do
  let text ← line.toList.dropPrefix? "Var ".toList
  let u ← Text.signedOfWidth? 32 (text.takeWhile (· != ' '))
  let rest ← (text.dropWhile (· != ' ')).dropPrefix? " -> Color ".toList
  return (u, ← Text.unsignedOfWidth? 32 rest)

theorem toList_pairLine (u : Label) (c : Colour) :
    (pairLine (u, c)).toList =
      "Var ".toList ++ ((toString u).toList ++ (" -> Color ".toList ++ (toString c).toList)) := by
  simp only [pairLine, String.toList_append, List.append_assoc]
  rfl

/-- **A line of a colouring gives its label and its colour back.** -/
theorem pairOf?_pairLine {u : Label} {c : Colour} (hu : -2 ^ 31 ≤ u ∧ u < 2 ^ 31)
    (hc : c < 2 ^ 32) : pairOf? (pairLine (u, c)) = some (u, c) := by
  have hlabel : Text.signedOfWidth? 32 (toString u).toList = some u :=
    Text.signedOfWidth?_eq_some_iff.2 ⟨Text.isInteger_toString u, hu⟩
  have hcolour : Text.unsignedOfWidth? 32 (toString c).toList = some c :=
    Text.unsignedOfWidth?_eq_some_iff.2 ⟨Text.isNatural_toString c, hc⟩
  have hdropped : ∀ start text : List Char, (start ++ text).dropPrefix? start = some text :=
    fun start text ↦ List.dropPrefix?_append_of_beq text (beq_self_eq_true start)
  -- The label ends at the first blank, since there is none in it.
  have hblank : ' ' ∉ (toString u).toList :=
    (Text.isInteger_toString u).notMem (Or.inl (by decide)) (by decide) (by decide)
  obtain ⟨htake, hdrop⟩ :
      ((toString u).toList ++ (" -> Color ".toList ++ (toString c).toList)).takeWhile (· != ' ') =
          (toString u).toList ∧
        ((toString u).toList ++ (" -> Color ".toList ++ (toString c).toList)).dropWhile (· != ' ') =
          " -> Color ".toList ++ (toString c).toList :=
    Text.takeWhile_dropWhile_ne hblank
  simp only [pairOf?, toList_pairLine, hdropped, htake, hdrop, hlabel, hcolour, Option.bind_eq_bind,
    Option.bind_some, Option.pure_def]

/-- **The lines of a solution give its pairs back**, one for each line, if they fit. -/
theorem map_pairOf?_solutionLines {s : Solution}
    (h : ∀ p ∈ s.pairs, (-2 ^ 31 ≤ p.1 ∧ p.1 < 2 ^ 31) ∧ p.2 < 2 ^ 32) :
    (solutionLines (some s)).map pairOf? = s.pairs.map some := by
  show (s.pairs.map pairLine).map pairOf? = s.pairs.map some
  rw [List.map_map]
  exact List.map_congr_left fun p hp ↦ pairOf?_pairLine (h p hp).1 (h p hp).2

/-! ### Where the colouring ends -/

/-- Whether a line begins like one of the statistics. -/
def isStatisticLine (line : String) : Bool := "%%%".toList.isPrefixOf line.toList

/-- The lines of an output before the first that begins like one of the statistics. -/
def colouringLines (output : List String) : List String :=
  output.takeWhile fun line ↦ !isStatisticLine line

theorem isStatisticLine_pairLine (p : Label × Colour) : isStatisticLine (pairLine p) = false := by
  rw [isStatisticLine, toList_pairLine]
  rfl

theorem isStatisticLine_solutionLines {o : Option Solution} {line : String}
    (h : line ∈ solutionLines o) : isStatisticLine line = false := by
  cases o with
  | none =>
    obtain rfl := List.mem_singleton.1 h
    decide
  | some s =>
    obtain ⟨p, -, rfl⟩ := List.mem_map.1 h
    exact isStatisticLine_pairLine p

/-- A statistic begins with its heading. -/
theorem isPrefix_line {ω : Type} (f : Format ω) (e : Entry) (recase : Casing → String → String) :
    f.heading.toList <+: (f.line e recase).toList := by
  simp only [Format.line, String.toList_append, List.append_assoc]
  exact List.prefix_append _ _

theorem isStatisticLine_statisticLines {s : Settings} {r : Run} {time : Elapsed}
    {recase : Casing → String → String} {line : String}
    (h : line ∈ statisticLines s r time recase) : isStatisticLine line = true := by
  rw [statisticLines, statisticSink] at h
  split at h
  · -- Each statistic has the heading in front, and the closing line follows them.
    simp only [Sink.configure, Sink.log, Sink.close, List.flatMap_cons, List.flatMap_nil,
      Option.map_some, Option.getD_some, Option.toList_some, List.mem_append, List.mem_map,
      List.mem_singleton, List.append_nil] at h
    rcases h with ⟨e, -, rfl⟩ | rfl
    · refine List.isPrefixOf_iff_prefix.2 (List.IsPrefix.trans ?_ (isPrefix_line _ e _))
      decide
    · decide
  · simp [Sink.log, Sink.close] at h

/-- **The statistics do not touch the colouring**, whatever names are made of theirs. -/
theorem colouringLines_append (o : Option Solution) (s : Settings) (r : Run) (time : Elapsed)
    (recase : Casing → String → String) :
    colouringLines (solutionLines o ++ statisticLines s r time recase) = solutionLines o := by
  have hhead : ∀ line ∈ solutionLines o, (!isStatisticLine line) = true := fun line hline ↦ by
    rw [isStatisticLine_solutionLines hline]
    rfl
  rw [colouringLines, List.takeWhile_append_of_pos hhead]
  cases hrest : statisticLines s r time recase with
  | nil => exact List.append_nil _
  | cons line rest =>
    have hline : isStatisticLine line = true :=
      isStatisticLine_statisticLines (hrest ▸ List.mem_cons_self)
    rw [List.takeWhile_cons, hline]
    exact List.append_nil _

/-- There is no colouring exactly if a single line says so. -/
theorem solutionLines_eq_failure_iff {o : Option Solution} :
    solutionLines o = ["failure"] ↔ o = none := by
  cases o with
  | none => exact iff_of_true rfl rfl
  | some s =>
    refine iff_of_false (fun h ↦ ?_) nofun
    have hmem : "failure" ∈ s.pairs.map pairLine := by
      rw [show s.pairs.map pairLine = ["failure"] from h]
      exact List.mem_singleton_self _
    obtain ⟨⟨u, c⟩, -, hline⟩ := List.mem_map.1 hmem
    have htext := congrArg String.toList hline
    rw [toList_pairLine] at htext
    cases htext

end GraphSearch.CommandLine.Colour
