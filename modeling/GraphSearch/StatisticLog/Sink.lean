import GraphSearch.StatisticLog.Casing

/-!
# Where statistics go

Statistics are written as lines `HEADING name=value`. Until it has been said where to and how, they
are dropped; once it has been said, saying it again changes nothing. A block of statistics may be
followed by a closing line.

A `Logger` is a name under which statistics are filed: the names of its statistics start with it and
an underscore. The logger without a name adds nothing. The casing is applied to the whole name, by
`Casing.apply` unless another function is given.
-/

namespace GraphSearch.StatisticLog

/-- How statistics are written, and to which of the writers. -/
structure Format (ω : Type) where
  /-- What stands in front of each statistic. -/
  heading : String
  /-- What stands after a block of statistics, if anything does. -/
  closing : Option String
  /-- How names are written, unless as they are given. -/
  casing : Option Casing
  /-- Where the lines go. -/
  writer : ω

/-- Where statistics go, if it has been said. -/
structure Sink (ω : Type) where
  /-- The format that was said first. -/
  format : Option (Format ω) := none

/-- A statistic by its full name. -/
structure Entry where
  /-- The name before any casing. -/
  name : String
  /-- The value as text. -/
  value : String
deriving DecidableEq, Repr

namespace Format

variable {ω : Type}

/-- The line of a statistic. -/
def line (f : Format ω) (e : Entry) (recase : Casing → String → String := Casing.apply) :
    String :=
  let name := match f.casing with
    | some casing => recase casing e.name
    | none => e.name
  s!"{f.heading} {name}={e.value}"

end Format

namespace Sink

variable {ω : Type}

/-- Says how and where, unless that has been said before. -/
def configure (s : Sink ω) (f : Format ω) : Sink ω :=
  match s.format with
  | some _ => s
  | none => ⟨some f⟩

/-- Whether statistics are kept. -/
def isConfigured (s : Sink ω) : Bool := s.format.isSome

/-- What the statistics add to the writer. -/
def log (s : Sink ω) (entries : List Entry)
    (recase : Casing → String → String := Casing.apply) : Option (ω × List String) :=
  s.format.map fun f ↦ (f.writer, entries.map (f.line · recase))

/-- What the end of a block adds to the writer. -/
def close (s : Sink ω) : Option (ω × List String) :=
  s.format.map fun f ↦ (f.writer, f.closing.toList)

end Sink

/-- The name under which statistics are filed. -/
structure Logger where
  /-- The name, or nothing. -/
  scope : String := ""
deriving DecidableEq, Repr

namespace Logger

/-- The logger whose name has the given parts. -/
def ofParts (parts : List String) : Logger := ⟨"_".intercalate parts⟩

/-- A name filed under the logger. -/
def qualify (l : Logger) (name : String) : String :=
  if l.scope.isEmpty then name else s!"{l.scope}_{name}"

/-- The logger whose name is extended. -/
def attach (l : Logger) (addition : String) : Logger := ⟨l.qualify addition⟩

/-- A statistic filed under the logger. -/
def entry (l : Logger) (name value : String) : Entry := ⟨l.qualify name, value⟩

end Logger

end GraphSearch.StatisticLog
