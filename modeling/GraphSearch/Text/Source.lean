import GraphSearch.Text.Blank

/-!
# Sources of lines

A source delivers bytes and then either ends or fails. Reading one by lines gives a list in which
each entry is a line or the reason why there is none at this point: a line ends at a line feed, a
carriage return right before the line feed belongs to neither line, and bytes that are not UTF-8
make no line. If the source ends, what follows the last line feed is a line too, unless it is empty.
If the source fails, what follows the last line feed is lost and the failure stands in its place.

Instances of all kinds are written one statement to the line: lines are trimmed, and those that are
then empty or start with `#` say nothing. `Source.statements` gives the rest with their line
numbers, which count every line.
-/

namespace GraphSearch.Text

/-- Why the next line could not be read. -/
inductive ReadError where
  /-- The source failed and said so in this text. -/
  | failed (text : String)
  /-- The bytes of the line are not UTF-8. -/
  | notUtf8
  /-- There is nothing of that name to read. -/
  | notFound
  /-- The name is that of a directory. -/
  | isDirectory
deriving DecidableEq, Repr

/-- The text that reports the cause. -/
def ReadError.cause : ReadError → String
  | failed text => text
  | notUtf8 => "stream did not contain valid UTF-8"
  | notFound => "No such file or directory (os error 2)"
  | isDirectory => "Is a directory (os error 21)"

/-- Bytes that are followed by the end or by a failure. -/
structure Source where
  /-- The bytes that are delivered. -/
  bytes : List UInt8
  /-- The failure that follows them, if one does. -/
  failure : Option ReadError := none
deriving DecidableEq, Repr

/-- A line that says something. -/
structure Statement where
  /-- The number of the line, counted from one. -/
  line : Nat
  /-- The line without the blanks around it. -/
  text : List Char
deriving DecidableEq, Repr

/-- The characters of a line. -/
def decodeLine (bytes : List UInt8) : Except ReadError (List Char) :=
  match String.fromUTF8? bytes.toByteArray with
  | some s => .ok s.toList
  | none => .error .notUtf8

/-- A line without the carriage return that its line feed may have brought along. -/
def dropReturn (bytes : List UInt8) : List UInt8 :=
  if bytes.getLast? = some 13 then bytes.dropLast else bytes

/-- Whether a trimmed line says something. -/
def isStatement (text : List Char) : Bool := !text.isEmpty && text.head? != some '#'

namespace Source

/-- The source that delivers the bytes of a text and ends. -/
def ofString (s : String) : Source := { bytes := s.toUTF8.toList }

/-- The source that fails without delivering anything. -/
def failing (e : ReadError) : Source := { bytes := [], failure := some e }

/-- The source that delivers at most the first `n` bytes and then fails. -/
def failAfter (s : Source) (n : Nat) (e : ReadError) : Source :=
  { bytes := s.bytes.take n, failure := some e }

/-- The lines in their order, and where one cannot be read the reason. -/
def lines (s : Source) : List (Except ReadError (List Char)) :=
  let pieces := s.bytes.splitOn 10
  let complete := pieces.dropLast.map fun piece ↦ decodeLine (dropReturn piece)
  let rest := (pieces.getLast?).getD []
  match s.failure with
  | some e => complete ++ [.error e]
  | none => if rest.isEmpty then complete else complete ++ [decodeLine rest]

/-- The statements in their order, and where a line cannot be read the reason. -/
def statements (s : Source) : List (Except ReadError Statement) :=
  s.lines.zipIdx.filterMap fun (line, k) ↦
    match line with
    | .error e => some (.error e)
    | .ok text =>
      let text := trim text
      if isStatement text then some (.ok ⟨k + 1, text⟩) else none

end Source

/-- The parts of a statement between commas, each without the blanks around it. There is always at
least one. -/
def fields (text : List Char) : List (List Char) := (text.splitOn ',').map trim

end GraphSearch.Text
