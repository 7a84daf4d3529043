import GraphSearch.Text.ClusterTable
import GraphSearch.Text.MarkTable

/-!
# Clusters of characters

What a reader takes for one character may be written as several: a letter and the accents on it, a
syllable of Hangul, a flag as two letters, a picture joined from others. `clusters` cuts a text into
these *extended grapheme clusters* of Unicode. Nothing is lost by it (`flatten_clusters`).

A character joins the cluster before it or begins the next one. Which of the two depends on its
class and on the classes of the characters that are in the cluster so far, of which the last one
mostly decides: a mark joins everything but a control character. In the definitions a cluster that
is being collected is a list with its last character first.
-/

namespace GraphSearch.Text

/-! ### Classes -/

/-- The classes of characters by which a text is cut into clusters. -/
inductive ClusterClass where
  | carriageReturn
  | lineFeed
  | control
  /-- A mark or another character that extends the one before it. -/
  | extender
  /-- A mark that joins two consonants. -/
  | linker
  /-- The joiner of zero width. -/
  | joiner
  /-- The sign of zero width that keeps two characters apart, which extends the one before it. -/
  | nonJoiner
  | spacingMark
  | leadingSign
  | consonant
  | pictograph
  /-- One of the letters that name a flag in pairs. -/
  | flagLetter
  | hangulLead
  | hangulVowel
  | hangulTail
  /-- A syllable without an end consonant. -/
  | openSyllable
  /-- A syllable with an end consonant. -/
  | closedSyllable
  | other
deriving DecidableEq, Repr

/-- Whether the character is a syllable of Hangul. There are 28 with the same beginning in a row, of
which the first is open. -/
def isHangulSyllable (c : Char) : Bool := 0xAC00 ≤ c.toNat && c.toNat ≤ 0xD7A3

/-- The class of a character. -/
def clusterClass (c : Char) : ClusterClass :=
  if c == '\r' then .carriageReturn
  else if c == '\n' then .lineFeed
  else if c.toNat == 0x200C then .nonJoiner
  else if c.toNat == 0x200D then .joiner
  else if 0x1F1E6 ≤ c.toNat && c.toNat ≤ 0x1F1FF then .flagLetter
  else if isHangulSyllable c then
    if (c.toNat - 0xAC00) % 28 == 0 then .openSyllable else .closedSyllable
  else if isIn controls c then .control
  else if isIn conjunctLinkers c then .linker
  else if isIn nonspacingMarks c || isIn furtherExtenders c then .extender
  else if isIn spacingMarks c then .spacingMark
  else if isIn leadingSigns c then .leadingSign
  else if isIn conjunctConsonants c then .consonant
  else if isIn pictographs c then .pictograph
  else if isIn hangulLeads c then .hangulLead
  else if isIn hangulVowels c then .hangulVowel
  else if isIn hangulTails c then .hangulTail
  else .other

/-- Whether a cluster ends before and after a character of the class. -/
def ClusterClass.standsAlone : ClusterClass → Bool
  | carriageReturn | lineFeed | control => true
  | _ => false

/-- Whether a character of the class joins every cluster that does not stand alone. -/
def ClusterClass.joinsAny : ClusterClass → Bool
  | extender | linker | joiner | nonJoiner | spacingMark => true
  | _ => false

/-- Whether a character of the class may stand between a picture and the joiner after it. -/
def ClusterClass.extends : ClusterClass → Bool
  | extender | linker | nonJoiner => true
  | _ => false

/-- Whether a character of the class may stand between two consonants that are joined to one. -/
def ClusterClass.keepsConjunct : ClusterClass → Bool
  | extender | linker | joiner => true
  | _ => false

/-! ### Joining -/

/-- Whether the cluster ends with a consonant and marks after it of which one is a linker. -/
def endsLinked (cluster : List ClusterClass) : Bool :=
  (cluster.takeWhile (·.keepsConjunct)).contains .linker &&
    (cluster.dropWhile (·.keepsConjunct)).head? == some .consonant

/-- Whether a character of class `next` joins the cluster with these classes. -/
def joins : List ClusterClass → ClusterClass → Bool
  | [], _ => false
  | last :: before, next =>
    if last.standsAlone || next.standsAlone then last == .carriageReturn && next == .lineFeed
    else if next.joinsAny || last == .leadingSign then true
    else
      match next with
      | .consonant => endsLinked (last :: before)
      | .pictograph =>
        last == .joiner && (before.dropWhile (·.extends)).head? == some .pictograph
      | .flagLetter => ((last :: before).takeWhile (· == .flagLetter)).length % 2 == 1
      | .hangulLead | .openSyllable | .closedSyllable => last == .hangulLead
      | .hangulVowel => last == .hangulLead || last == .hangulVowel || last == .openSyllable
      | .hangulTail =>
        last == .hangulVowel || last == .openSyllable || last == .hangulTail ||
          last == .closedSyllable
      | _ => false

/-- The clusters of a text of which the characters in `cluster`, with these classes, have been
collected already, the last one first. -/
def clustersFrom (classes : List ClusterClass) (cluster : List Char) :
    List Char → List (List Char)
  | [] => [cluster.reverse]
  | c :: rest =>
    let next := clusterClass c
    if joins classes next then clustersFrom (next :: classes) (c :: cluster) rest
    else cluster.reverse :: clustersFrom [next] [c] rest

/-- The clusters of a text. -/
def clusters : List Char → List (List Char)
  | [] => []
  | c :: rest => clustersFrom [clusterClass c] [c] rest

/-! ### What is cut is all of the text -/

theorem flatten_clustersFrom (classes : List ClusterClass) (cluster text : List Char) :
    (clustersFrom classes cluster text).flatten = cluster.reverse ++ text := by
  induction text generalizing classes cluster with
  | nil => simp [clustersFrom]
  | cons c rest ih =>
    simp only [clustersFrom]
    split <;> simp [ih]

/-- The clusters of a text, one after another, are the text. -/
theorem flatten_clusters (text : List Char) : (clusters text).flatten = text := by
  cases text with
  | nil => rfl
  | cons c rest => simp [clusters, flatten_clustersFrom]

theorem nil_notMem_clustersFrom (classes : List ClusterClass) {cluster : List Char}
    (h : cluster ≠ []) (text : List Char) : [] ∉ clustersFrom classes cluster text := by
  induction text generalizing classes cluster with
  | nil => simpa [clustersFrom] using h.symm
  | cons c rest ih =>
    simp only [clustersFrom]
    split
    · exact ih _ (by simp)
    · simpa [h] using ih _ (by simp)

/-- No cluster is empty. -/
theorem nil_notMem_clusters (text : List Char) : [] ∉ clusters text := by
  cases text with
  | nil => simp [clusters]
  | cons c rest => exact nil_notMem_clustersFrom _ (by simp) rest

example : clusters ['e', '\u0301', 'a', '\r', '\n'] = [['e', '\u0301'], ['a'], ['\r', '\n']] := by
  decide +kernel

end GraphSearch.Text
