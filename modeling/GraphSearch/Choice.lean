/-!
# Named choices

A setting with a closed set of alternatives, each of which has a name that is typed and a title that
is shown. A text is read as the alternative whose name it is; a reader may ask that the case of
ASCII letters be ignored, and no other letters have a case here.
-/

namespace GraphSearch

universe u

/-- A type whose values are the alternatives of a setting. -/
class Choice (α : Type u) where
  /-- The alternatives in the order in which they are listed. -/
  all : List α
  /-- The name that is typed for an alternative. -/
  name : α → String
  /-- The title under which an alternative is shown. -/
  title : α → String

namespace Choice

variable {α : Type u} [Choice α]

/-- The alternative that is named by the text. -/
def ofName? (ignoreCase : Bool) (text : String) : Option α :=
  (all : List α).find? fun a ↦
    if ignoreCase then (name a).toLower == text.toLower else name a == text

/-- The text that reports a name that no alternative has. -/
def unknownMessage (text : String) : String := s!"invalid variant: {text}"

end Choice

end GraphSearch
