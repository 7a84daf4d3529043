import GraphSearch.CommandLine.Grammar
import GraphSearch.Elapsed
import GraphSearch.Numeric.Binary64
import GraphSearch.StatisticLog.Casing
import GraphSearch.Text.Source

/-!
# What a program finds around it

A program looks at paths and takes the time. Both are given to it as `Surroundings`, which say how
to do so in some monad, so that the program itself can be written without knowing where it runs.
With them come the functions that a program leaves to others: the reader of command lines, the
casing of names and the hypotenuse. They are those of this library unless others are given. A
`Folder` is a working directory with known contents; in it programs are plain functions, and no time
passes.
-/

namespace GraphSearch.CommandLine

open Numeric (Binary64)
open StatisticLog (Casing)
open Text (Source)

/-- What is found under a path. -/
inductive Found where
  /-- There is nothing. -/
  | nothing
  /-- There is a directory. -/
  | directory
  /-- There is something to be read. -/
  | file (source : Source)
deriving DecidableEq, Repr

/-- What reading the path delivers. -/
def Found.source : Found → Source
  | nothing => .failing .notFound
  | directory => .failing .isDirectory
  | file source => source

/-- How to look at paths and to take the time of an evaluation, and the functions that a program
leaves to others. -/
structure Surroundings (m : Type → Type) where
  /-- Looks at a path. -/
  look : String → m Found
  /-- Evaluates and takes the time. -/
  time : {α : Type} → (Unit → α) → m (α × Elapsed)
  /-- Reads a command line, starting from the given settings. -/
  read : {σ : Type} → Grammar σ → σ → List String → Except Stop σ := Grammar.read
  /-- The name as the casing writes it. -/
  recase : Casing → String → String := Casing.apply
  /-- The length of the hypotenuse of a right triangle with these legs. -/
  hypot : Int32 → Int32 → Binary64 := Binary64.hypot

/-! ### Working directories with known contents -/

/-- The names along a path. Empty names and single dots lead nowhere. -/
def names (path : String) : List String :=
  ((path.toList.splitOn '/').map String.ofList).filter fun name ↦ name != "" && name != "."

/-- A working directory. -/
structure Folder where
  /-- The files by path. -/
  files : List (String × Source) := []
  /-- The paths of directories. -/
  directories : List String := []

namespace Folder

/-- What is found by following the names from the top of the folder. A directory need not be given
if something in it is. -/
def entry (f : Folder) (place : List String) : Found :=
  match f.files.find? fun (path, _) ↦ names path == place with
  | some (_, source) => .file source
  | none =>
    let known := f.directories.map names ++ f.files.map fun (path, _) ↦ names path
    if place.isEmpty || known.any place.isPrefixOf then .directory else .nothing

/-- Follows names from a place in the folder, the innermost name of the place first. Above the
folder nothing is known but the directories on the way up. -/
def follow (f : Folder) : (place names : List String) → Found
  | place, [] => f.entry place.reverse
  | place, name :: rest =>
    if name != ".." then f.follow (name :: place) rest
    else if f.entry place.reverse != .directory then .nothing
    else
      match place with
      | _ :: above => f.follow above rest
      | [] => if rest.all (· == "..") then .directory else .nothing

/-- Looks at a path. The empty path leads nowhere, and of what is outside the folder only the root
is known. -/
def look (f : Folder) (path : String) : Found :=
  if path.isEmpty then .nothing
  else if path.startsWith "/" then if (names path).isEmpty then .directory else .nothing
  else f.follow [] (names path)

/-- The folder as surroundings in which no time passes. -/
def surroundings (f : Folder) : Surroundings Id where
  look path := f.look path
  time run := (run (), ⟨0⟩)

end Folder

end GraphSearch.CommandLine
