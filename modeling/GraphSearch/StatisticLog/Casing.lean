import GraphSearch.Text.Cluster
import GraphSearch.Text.Letter

/-!
# The words of a name, and ways to write them

A name such as `ac3_arcs_processed` or `solveTime` is a sequence of words. Underscores, hyphens and
spaces stand between words. A word also ends where the case or the kind of the signs changes:
between a small letter and a capital, between a letter and a digit, and before the last of several
capitals if a small letter follows it, so that `XMLHttp` has the words `XML` and `Http`. Signs that
are neither letters nor digits belong to the word they stand in and separate nothing. A sign is a
cluster of characters: an underscore with an accent is no separator.

A casing says how the words are written and what is put between them.
-/

namespace GraphSearch.StatisticLog

open Text (capitals clusters isCapital isLetterOfOneCase isSmall smallLetters toCapital toSmall)

/-! ### Words -/

/-- What a sign is to the words of a name. -/
inductive SignKind where
  | separator
  | capital
  | small
  | digit
  | other
deriving DecidableEq, Repr

/-- The kind of a cluster of characters. Only the digits of ASCII count as digits. -/
def SignKind.of (cluster : List Char) : SignKind :=
  if cluster = ['_'] || cluster = ['-'] || cluster = [' '] then .separator
  else if cluster.all Char.isDigit then .digit
  else if isCapital cluster then .capital
  else if isSmall cluster then .small
  else .other

/-- A cluster of characters and its kind. -/
structure Sign where
  /-- The characters. -/
  text : List Char
  /-- Their kind. -/
  kind : SignKind

/-- The signs of a name. -/
def signs (name : List Char) : List Sign := (clusters name).map fun c ↦ ⟨c, .of c⟩

/-- Whether a word ends between signs of kinds `a` and `b`, of which the second is followed by one
of kind `next`. -/
def endsBetween (a b : SignKind) (next : Option SignKind) : Bool :=
  match a, b with
  | .small, .capital | .capital, .digit | .digit, .capital | .digit, .small | .small, .digit => true
  | .capital, .capital => next == some .small
  | _, _ => false

/-- Puts a text in front of the first word. -/
def prepend (text : List Char) : List (List Char) → List (List Char)
  | [] => [text]
  | word :: rest => (text ++ word) :: rest

/-- The words between all ends of words, some of which may be empty. -/
def pieces : List Sign → List (List Char)
  | [] => [[]]
  | a :: rest =>
    if a.kind = .separator then [] :: pieces rest
    else
      match rest with
      | [] => [a.text]
      | b :: after =>
        if endsBetween a.kind b.kind (after.head?.map (·.kind)) then a.text :: pieces (b :: after)
        else prepend a.text (pieces (b :: after))

/-- The words of a name. -/
def words (name : List Char) : List (List Char) := (pieces (signs name)).filter (!·.isEmpty)

/-! ### Casings -/

/-- How a word is written. -/
inductive WordForm where
  /-- All capitals. -/
  | upper
  /-- All small letters. -/
  | lower
  /-- A capital, then small letters. -/
  | capitalised
  /-- A small letter, then capitals. -/
  | toggled
  /-- As it was given. -/
  | unchanged
deriving DecidableEq, Repr

/-- The word in the given form. -/
def WordForm.apply : WordForm → List Char → List Char
  | _, [] => []
  | upper, word => capitals word
  | lower, word => smallLetters false word
  | capitalised, c :: rest => toCapital c ++ smallLetters false rest
  | toggled, c :: rest => toSmall c ++ capitals rest
  | unchanged, word => word

/-- The ways to write a name. Some of them have more than one name. -/
inductive Casing where
  /-- Written as `ONE TWO`. -/
  | upper
  /-- Written as `one two`. -/
  | lower
  /-- Written as `One Two`. -/
  | title
  /-- Written as `oNE tWO`. -/
  | toggle
  /-- Written as `oneTwo`. -/
  | camel
  /-- Written as `OneTwo`. -/
  | pascal
  /-- Written as `OneTwo`. -/
  | upperCamel
  /-- Written as `one_two`. -/
  | snake
  /-- Written as `ONE_TWO`. -/
  | upperSnake
  /-- Written as `ONE_TWO`. -/
  | screamingSnake
  /-- Written as `one-two`. -/
  | kebab
  /-- Written as `ONE-TWO`. -/
  | cobol
  /-- Written as `ONE-TWO`. -/
  | upperKebab
  /-- Written as `One-Two`. -/
  | train
  /-- Written as `onetwo`. -/
  | flat
  /-- Written as `ONETWO`. -/
  | upperFlat
  /-- Written as `oNe TwO`. -/
  | alternating
deriving DecidableEq, Repr

/-- Small letters and capitals in turn, over all words, where only the letters that are one or the
other count. `capitalNext` says which is next. -/
def alternate (capitalNext : Bool) : List Char → List Char
  | [] => []
  | c :: rest =>
    if isLetterOfOneCase c then
      (if capitalNext then toCapital c else toSmall c) ++ alternate (!capitalNext) rest
    else c :: alternate capitalNext rest

namespace Casing

/-- What is put between two words. -/
def joint : Casing → List Char
  | upper | lower | title | toggle | alternating => [' ']
  | camel | pascal | upperCamel | flat | upperFlat => []
  | snake | upperSnake | screamingSnake => ['_']
  | kebab | cobol | upperKebab | train => ['-']

/-- The form of the first word. -/
def first : Casing → WordForm
  | upper | upperSnake | screamingSnake | cobol | upperKebab | upperFlat => .upper
  | lower | camel | snake | kebab | flat => .lower
  | title | pascal | upperCamel | train => .capitalised
  | toggle => .toggled
  | alternating => .unchanged

/-- The form of the other words. -/
def others : Casing → WordForm
  | camel => .capitalised
  | casing => casing.first

/-- The words as they are written. -/
def write (casing : Casing) (words : List (List Char)) : List Char :=
  let joined := List.intercalate casing.joint <|
    match words with
    | [] => []
    | word :: rest => casing.first.apply word :: rest.map casing.others.apply
  if casing = alternating then alternate false joined else joined

/-- The name as the casing writes it. -/
def apply (casing : Casing) (name : String) : String :=
  String.ofList (casing.write (words name.toList))

end Casing

end GraphSearch.StatisticLog
