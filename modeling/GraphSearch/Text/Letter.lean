import GraphSearch.Text.CaseTable
import GraphSearch.Text.MarkTable

/-!
# Letters and their case

What a character becomes in the other case, which may be several characters, and what that makes of
a text: a text of *capitals* is its own text of capitals but not its own text of small letters, and
a text of *small letters* the other way round. A text that is both, such as a digit, and one that is
neither, such as a digraph of which only the first half is a capital, count as neither.

A single character may also have a case without a counterpart in the other one, as the double-struck
letters of mathematics have. `isCased` and `isLetterOfOneCase` know these too.
-/

namespace GraphSearch.Text

/-! ### Single characters -/

/-- The characters to which a table maps `c`. One that is not in the table is mapped to itself. -/
def mapCase (runs : List CaseRun) (expansions : List (Nat × List Nat)) (c : Char) : List Char :=
  match expansions.find? fun e ↦ e.1 == c.toNat with
  | some (_, images) => images.map Char.ofNat
  | none =>
    match runs.findSome? fun r ↦ r.map? c.toNat with
    | some image => [Char.ofNat image]
    | none => [c]

/-- The small letter of a character. -/
def toSmall (c : Char) : List Char := mapCase smallRuns smallExpansions c

/-- The capital of a character. -/
def toCapital (c : Char) : List Char := mapCase capitalRuns capitalExpansions c

/-- Whether a character is a letter of some case: capital, small or title. -/
def isCased (c : Char) : Bool := toSmall c != [c] || toCapital c != [c] || isIn unpairedLetters c

/-- Whether a character is a capital or a small letter, and not both in one as the letters in title
case are. -/
def isLetterOfOneCase (c : Char) : Bool := isCased c && !isIn titleLetters c

/-- Whether a character is passed over in looking for the letter before or after another one, as are
accents, apostrophes, full stops and colons. -/
def isPassedOver (c : Char) : Bool := isIn nonspacingMarks c || isIn furtherIgnorables c

/-! ### Texts -/

/-- The capitals of a text. -/
def capitals (text : List Char) : List Char := text.flatMap toCapital

/-- The small letters of a text. A capital sigma that ends a word, after a letter and not before
one, becomes the small sigma that is written there. -/
def smallLetters (afterLetter : Bool) : List Char → List Char
  | [] => []
  | c :: rest =>
    let beforeLetter := (rest.dropWhile isPassedOver).head?.any isCased
    let small := if c == 'Σ' && afterLetter && !beforeLetter then ['ς'] else toSmall c
    small ++ smallLetters (if isPassedOver c then afterLetter else isCased c) rest

/-- Whether a text is one of capitals. -/
def isCapital (text : List Char) : Bool :=
  capitals text == text && smallLetters false text != text

/-- Whether a text is one of small letters. -/
def isSmall (text : List Char) : Bool :=
  smallLetters false text == text && capitals text != text

example : toSmall 'Ä' = ['ä'] ∧ toCapital 'ß' = ['S', 'S'] := by decide +kernel

example : isCapital ['Я'] = true ∧ isSmall ['ž'] = true ∧ isCapital ['7'] = false := by
  decide +kernel

example : isLetterOfOneCase 'ĸ' = true ∧ toCapital 'ĸ' = ['ĸ'] ∧ isLetterOfOneCase 'ǅ' = false := by
  decide +kernel

example : smallLetters false ['Σ', 'Α', 'Σ'] = ['σ', 'α', 'ς'] := by decide +kernel

end GraphSearch.Text
