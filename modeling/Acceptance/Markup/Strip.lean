import Acceptance.Markup.Block
import Acceptance.Markup.Bracket

/-!
# Text without markup

The marks of emphasis are taken out of a text, then all stars and ticks that are left, and last the
blanks and low lines at both ends. Everything else stays as it stands.

Results:
* `Passage.taken_of_margin`: without a margin exactly the marks of emphasis are taken out.
* `not_mem_withoutMarkup`: neither a star nor a tick is left.
-/

namespace Acceptance.Markup

open Text

variable {text : List Char}

/-- The places that a piece of emphasis takes out of a passage: its marks. The margin belongs to the
emphasis that ends right in front of it, so there the last places are taken instead. -/
def Passage.taken (p : Passage text) (e : Emphasis text) : List (Place text) :=
  let closing := e.closing.map (·.toPlace)
  let last := if closing.getLast?.any p.isLast then (closing ++ p.margin).drop p.margin.length
    else closing
  e.opening.map (·.toPlace) ++ last

/-- The places that emphasis takes out of a document, which `strip_markup` does not keep. -/
def allEmphasis (text : List Char) : List (Place text) :=
  let o := outline text
  o.passages.flatMap fun p => ((chains o.labels p).flatMap (emphases [])).flatMap p.taken

/-- Whether a character is decoration wherever it stands. -/
def isDecoration (c : Char) : Bool :=
  c == '*' || c == tick

/-- Whether a character is decoration at the ends of a text. -/
def isBorder (c : Char) : Bool :=
  c == '_' || isBlank c

/-- Model of `strip_markup`: the text without emphasis, stars and ticks, and without blanks and low
lines at the ends. -/
def withoutMarkup (text : List Char) : List Char :=
  trimWhile isBorder ((without (allEmphasis text)).filter fun c => !isDecoration c)

/-! ## First laws -/

theorem Passage.taken_of_margin {p : Passage text} (h : p.margin = []) (e : Emphasis text) :
    p.taken e = (e.opening ++ e.closing).map (·.toPlace) := by
  unfold taken
  rw [h]
  simp

theorem mem_of_mem_trimWhile {p : Char → Bool} {c : Char} {s : List Char}
    (h : c ∈ trimWhile p s) : c ∈ s := by
  simp only [trimWhile, dropEndWhile, List.mem_reverse] at h
  have h := (List.dropWhile_sublist p).mem h
  exact (List.dropWhile_sublist p).mem (List.mem_reverse.1 h)

theorem not_mem_withoutMarkup {c : Char} (hc : isDecoration c = true) (text : List Char) :
    c ∉ withoutMarkup text := fun h => by
  have := (List.mem_filter.1 (mem_of_mem_trimWhile h)).2
  simp [hc] at this

end Acceptance.Markup
