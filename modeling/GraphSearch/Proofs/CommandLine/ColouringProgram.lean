import GraphSearch.Proofs.Colouring.DeclarationOrder
import GraphSearch.Proofs.Colouring.SafeSolving
import GraphSearch.Proofs.CommandLine.CarriedSettings
import GraphSearch.Proofs.CommandLine.ColouringLines
import GraphSearch.Proofs.CommandLine.KnownFiles

/-!
# What the program that colours a graph prints

The program prints a colouring of all of the graph or nothing of it. What it prints can be read back
(`run_reports_colouring`): the lines before the statistics are the pairs of the solution that the
search comes to, or say that there is none, whatever the options are, however the command line says
them and however long the search takes. If the instance is not read, nothing is printed at all.

Three facts meet here. The search answers and its solution passes the checks of the program, so no
fault keeps it from being printed (`exists_search_eq_ok`). Labels and colours are read with 32 bits,
so they fit when their lines are read back (`DeclaresLabel.fits`, `palette_lt_of_parse_eq_ok`). And
statistics do not touch the lines of the colouring, so these are the same on every command line that
differs in the switch for statistics only, which can be put in front of any that lacks it
(`read_statistics`).
-/

namespace GraphSearch.Colouring.Instance

open CommandLine.Colour (Settings search)
open Text (Source)

variable {source : Source} {i : Instance} {u : Label}

/-! ### What is declared fits -/

theorem Means.label_fits {text : List Char} {c : Declaration} (h : Means text (.declares c))
    (hu : c.Names u) : -2 ^ 31 ≤ u ∧ u < 2 ^ 31 := by
  cases h with
  | vertex label =>
    rw [Declaration.names_vertex_iff.1 hu]
    exact label.2
  | edge first second ne =>
    obtain ⟨-, rfl | rfl⟩ := Declaration.names_edge_iff.1 hu
    · exact first.2
    · exact second.2

/-- A declared label fits into 32 bits. -/
theorem DeclaresLabel.fits (h : DeclaresLabel source u) : -2 ^ 31 ≤ u ∧ u < 2 ^ 31 := by
  obtain ⟨c, ⟨line, -, -, hmeans⟩, hnames⟩ := h
  exact hmeans.label_fits hnames

theorem Means.palette_lt {text : List Char} {k : Nat} (h : Means text (.palette k)) :
    k < 2 ^ 32 := by
  cases h with
  | palette key_eq size => exact size.2

/-- The number of colours that is given fits into 32 bits. -/
theorem palette_lt_of_parse_eq_ok (h : parse source = .ok i) : i.palette < 2 ^ 32 := by
  obtain ⟨lines, hlines⟩ := exists_lines_of_parse_eq_ok h
  obtain ⟨⟨said, hsaid, hsizes⟩, -⟩ := (parse_eq_ok_iff hlines).1 h
  have hgiven : i.palette ∈ sizes said := hsizes ▸ List.mem_singleton_self _
  obtain ⟨m, hm, hsize⟩ := List.mem_filterMap.1 hgiven
  cases m with
  | declares c => cases hsize
  | palette k =>
    obtain rfl := Option.some.inj hsize
    obtain ⟨line, -, -, hmeans⟩ := (mem_iff_tells hlines hsaid).1 hm
    exact hmeans.palette_lt

/-- A search of an instance that was read answers, and the program does not reject the answer. -/
theorem exists_search_eq_ok (h : parse source = .ok i) (s : Settings) :
    ∃ r, solve i.graph i.palette s.options = .ok r ∧ search s i = .ok r := by
  obtain ⟨calls, hgraph, -⟩ := exists_calls_of_parse_eq_ok h
  obtain ⟨r, hr, -⟩ := exists_solve_eq_ok calls i.palette s.options
  refine ⟨r, hgraph ▸ hr, ?_⟩
  rw [search, hgraph, hr, ok_bind, verify_of_solve hr]
  rfl

end GraphSearch.Colouring.Instance

namespace GraphSearch.CommandLine.Colour

open Colouring (Instance InstanceError Run Solution solve)
open Colouring.Instance (DeclaresEdge DeclaresLabel)
open Text (Source)

variable {σ : Type} {u : Surroundings (StateM σ)} {look : String → Found} {s : Settings}
  {path : String} {i : Instance} {e : InstanceError} {r : Run} {a : Solution}

/-! ### What a run prints -/

/-- Nothing is printed of an instance that is not read. -/
theorem gives_colour_of_error (hu : u.Finds look)
    (h : Instance.parse (look path).source = .error e) :
    Gives (colour u s path) fun o ↦ o.output = [] ∧ o.code = 1 := by
  refine (hu.gives_look path).bind ?_
  rintro _ rfl
  split
  · exact .pure ⟨rfl, rfl⟩
  · rw [h]
    exact .pure ⟨rfl, rfl⟩

/-- Of an instance that is read the solution is printed, and then the statistics. -/
theorem gives_colour_of_ok (hu : u.Finds look) (h : Instance.parse (look path).source = .ok i)
    (hr : search s i = .ok r) :
    Gives (colour u s path) fun o ↦ o.code = 0 ∧
      ∃ time, o.output = solutionLines r.solution ++ statisticLines s r time u.recase := by
  refine (hu.gives_look path).bind ?_
  rintro _ rfl
  split
  · rename_i hfound
    rw [hfound] at h
    cases h
  · rw [h]
    refine (hu.gives_time _).bind ?_
    rintro ⟨_, time⟩ rfl
    rw [hr]
    exact .pure ⟨rfl, time, rfl⟩

/-- The outcome of the program, started in the state `t` of its surroundings. -/
def outcome (u : Surroundings (StateM σ)) (words : List String) (t : σ) : Outcome :=
  ((run u words).run t).1

theorem run_eq_colour {words : List String} (hread : u.read grammar {} words = .ok s)
    (hpath : s.path = some path) : run u words = colour u s path := by
  rw [run, hread]
  dsimp only
  rw [hpath]

/-! ### The switch for statistics -/

/-- What ends without statistics never asked for them. -/
theorem carries_setStatistics : Carries (fun s : Settings ↦ { s with statistics := true })
    (fun s ↦ s.statistics = false) fun s ↦ Grammar.accept s.setStatistics := by
  refine .accept fun s s' hset hs' ↦ ?_
  rw [Settings.setStatistics] at hset
  split at hset
  · cases hset
  · cases hset
    cases hs'

/-- Whatever is said without statistics can be said with them. -/
theorem carries_statistics :
    grammar.Carries (fun s ↦ { s with statistics := true }) fun s ↦ s.statistics = false where
  switch {name set} h := by
    simp only [grammar] at h
    split at h
    all_goals cases h
    · exact .turnOn (fun _ ↦ rfl) (fun _ ↦ rfl) fun _ hs ↦ hs
    · exact carries_setStatistics
    · exact .turnOn (fun _ ↦ rfl) (fun _ ↦ rfl) fun _ hs ↦ hs
  value {name set} h text := by
    simp only [grammar] at h
    split at h
    all_goals cases h
    · exact .choose (fun _ ↦ rfl) (fun _ _ ↦ rfl) fun _ _ hs ↦ hs
    · exact .choose (fun _ ↦ rfl) (fun _ _ ↦ rfl) fun _ _ hs ↦ hs
  letter {c set} h := by
    simp only [grammar] at h
    split at h
    all_goals cases h
    · exact carries_setStatistics
    · exact .turnOn (fun _ ↦ rfl) (fun _ ↦ rfl) fun _ hs ↦ hs
  operand text := .turnOn (fun _ ↦ rfl) (fun _ ↦ rfl) fun _ hs ↦ hs

/-- **Statistics can be asked for in front of any command line that does not ask for them.** -/
theorem read_statistics {words : List String} (hread : grammar.read {} words = .ok s)
    (hs : s.statistics = false) :
    grammar.read {} ("--log-statistics" :: words) = .ok { s with statistics := true } :=
  (carries_statistics.read words {} s hread hs).2

/-! ### Reading back what is printed -/

/-- The lines show a colouring of what the source declares, and give it back if they are read line
by line: each label once, in strictly ascending order, with colours of the palette that differ at
the ends of every edge. -/
structure Decodes (lines : List String) (a : Solution) (source : Source) (palette : Nat) :
    Prop where
  /-- There is a line for each pair of the solution, in its order. -/
  printed : lines = a.pairs.map pairLine
  /-- Each line gives its pair back. -/
  read_back : lines.map pairOf? = a.pairs.map some
  /-- The labels are strictly ascending. -/
  ascending : (a.pairs.map Prod.fst).Pairwise (· < ·)
  /-- The labels are those that the source declares. -/
  mem_labels : ∀ u, u ∈ a.pairs.map Prod.fst ↔ DeclaresLabel source u
  /-- The colours are of the palette. -/
  palette : ∀ q ∈ a.pairs, 1 ≤ q.2 ∧ q.2 ≤ palette
  /-- The ends of a declared edge have different colours. -/
  proper : ∀ q ∈ a.pairs, ∀ r ∈ a.pairs, DeclaresEdge source q.1 r.1 → q.2 ≠ r.2

/-- The lines of a solution are read back as a colouring of what was declared. -/
theorem decodes_of_solve {source : Source} (h : Instance.parse source = .ok i)
    (hr : solve i.graph i.palette s.options = .ok r) (ha : r.solution = some a) :
    Decodes (solutionLines (some a)) a source i.palette := by
  obtain ⟨calls, hgraph, hlabels, hedges⟩ := Instance.exists_calls_of_parse_eq_ok h
  obtain ⟨r', hr', -, hsome⟩ := Colouring.exists_solve_eq_ok calls i.palette s.options
  obtain rfl : r' = r := Except.ok.inj (hr'.symm.trans (hgraph ▸ hr))
  have hsolves := (hsome a ha).1
  have hmem : ∀ u, u ∈ a.pairs.map Prod.fst ↔ DeclaresLabel source u :=
    fun u ↦ (hsolves.mem_labels u).trans (hlabels u).symm
  refine ⟨rfl, map_pairOf?_solutionLines fun q hq ↦ ⟨?_, ?_⟩, hsolves.ascending, hmem,
    hsolves.palette, fun q hq r hr hjoins ↦ hsolves.proper q hq r hr ((hedges _ _).1 hjoins)⟩
  · exact ((hmem q.1).1 (List.mem_map_of_mem hq)).fits
  · exact (hsolves.palette q hq).2.trans_lt (Instance.palette_lt_of_parse_eq_ok h)

/-- **A colouring is printed whole or not at all, and can be read back.** In surroundings with known
files, started in any state, with whatever settings the command line is read as: if the instance is
not read, nothing is printed and the exit code is 1. Otherwise the code is 0. The lines before the
statistics are then the single line for no colouring, exactly if the search with these options shows
that there is none, or can be read back as the solution that it finds. They are the same if the
program is run again with the same settings but for the statistics. With the reader of this library
these can be asked for in front of any command line that does not ask for them. -/
theorem run_reports_colouring (u : Surroundings (StateM σ)) (look : String → Found)
    (hu : u.Finds look) (words : List String) (s : Settings) (path : String)
    (hread : u.read grammar {} words = .ok s) (hpath : s.path = some path) (t : σ) :
    (∀ e, Instance.parse (look path).source = .error e →
      (outcome u words t).output = [] ∧ (outcome u words t).code = 1) ∧
    (∀ i, Instance.parse (look path).source = .ok i →
      (outcome u words t).code = 0 ∧
      ∃ r, solve i.graph i.palette s.options = .ok r ∧
        (colouringLines (outcome u words t).output = ["failure"] ↔ r.solution = none) ∧
        (∀ a, r.solution = some a →
          Decodes (colouringLines (outcome u words t).output) a (look path).source i.palette) ∧
        ∀ words' b t', u.read grammar {} words' = .ok { s with statistics := b } →
          colouringLines (outcome u words' t').output =
            colouringLines (outcome u words t).output) ∧
    (grammar.read {} words = .ok s → s.statistics = false →
      grammar.read {} ("--log-statistics" :: words) = .ok { s with statistics := true }) := by
  refine ⟨?_, ?_, read_statistics⟩
  · intro e he
    rw [outcome, run_eq_colour hread hpath]
    exact gives_colour_of_error hu he t
  · intro i hi
    obtain ⟨r, hr, hsearch⟩ := Instance.exists_search_eq_ok hi s
    -- What is printed of the colouring depends neither on the switch nor on the time.
    have hlines : ∀ words' b t', u.read grammar {} words' = .ok { s with statistics := b } →
        (outcome u words' t').code = 0 ∧
          colouringLines (outcome u words' t').output = solutionLines r.solution := by
      intro words' b t' hread'
      rw [outcome, run_eq_colour hread' hpath]
      obtain ⟨hcode, time, houtput⟩ := gives_colour_of_ok hu hi (s := { s with statistics := b })
        hsearch t'
      rw [houtput]
      exact ⟨hcode, colouringLines_append ..⟩
    obtain ⟨hcode, hhere⟩ := hlines words s.statistics t hread
    refine ⟨hcode, r, hr, ?_, ?_, ?_⟩
    · rw [hhere]
      exact solutionLines_eq_failure_iff
    · intro a ha
      rw [hhere, ha]
      exact decodes_of_solve hi hr ha
    · intro words' b t' hread'
      rw [(hlines words' b t' hread').2, hhere]

/-- A folder with an edge that has a negative end, and with a file that says nothing of colours. -/
def twoFiles : Folder where
  files := [("edge", .ofString "colors=2\n4,-3"), ("blank", .ofString "# nothing")]

/-- The edge is coloured, with statistics after the colouring, while time goes by. Without them the
colouring is the same. Of the other file nothing is printed. -/
theorem run_reports_colouring_edge :
    (outcome twoFiles.slowing ["-s", "edge"] 7).code = 0 ∧
      (colouringLines (outcome twoFiles.slowing ["-s", "edge"] 7).output).map pairOf? =
        [some (-3, 1), some (4, 2)] ∧
      colouringLines (outcome twoFiles.slowing ["edge"] 9).output =
        colouringLines (outcome twoFiles.slowing ["-s", "edge"] 7).output ∧
      (outcome twoFiles.slowing ["--verbose", "blank"] 0).output = [] := by
  have hparse : Instance.parse (twoFiles.look "edge").source =
      .ok ⟨.declared [.edge 4 (-3)], 2⟩ := by decide +kernel
  have hsolve : Run.solution <$> solve (.declared [.edge 4 (-3)]) 2 {} =
      .ok (some ⟨.ofList [-3, 4], .ofList [1, 2]⟩) := by cbv
  have hblank : Instance.parse (twoFiles.look "blank").source = .error .missingPalette := by
    decide +kernel
  obtain ⟨-, hedge, -⟩ := run_reports_colouring twoFiles.slowing twoFiles.look
    twoFiles.finds_slowing ["-s", "edge"] { path := some "edge", statistics := true } "edge"
    (by decide +kernel) rfl 7
  obtain ⟨hcode, r, hr, -, hdecodes, hsame⟩ := hedge _ hparse
  obtain ⟨r', hr', hsolution⟩ := map_eq_ok_iff.1 hsolve
  obtain rfl : r' = r := Except.ok.inj (hr'.symm.trans hr)
  obtain ⟨hnothing, -, -⟩ := run_reports_colouring twoFiles.slowing twoFiles.look
    twoFiles.finds_slowing ["--verbose", "blank"] { path := some "blank", verbose := true } "blank"
    (by decide +kernel) rfl 0
  refine ⟨hcode, ?_, hsame ["edge"] false 9 (by decide +kernel), (hnothing _ hblank).1⟩
  exact (hdecodes _ hsolution).read_back

end GraphSearch.CommandLine.Colour
