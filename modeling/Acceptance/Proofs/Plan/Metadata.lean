import Mathlib.Data.List.Count
import Acceptance.Plan.Read
import Acceptance.Proofs.Plan.Bold

/-!
# Metadata as they are written

The label of a metadata field shows the words of the field in bold, in any case and with blanks between
them. What a line says about the field stands behind its leftmost label, and behind one more colon if a
colon comes first. Lines on which nothing stands there are passed over, and so are lines with blanks
there, with one exception: reading a value takes at least one character, so where a line ends in the
colon behind its label, that colon is read as the value.

Main results:

* `boldLabel?_keywords_eq_some_iff`: the reader finds exactly the labels that are written.
* `metadataHere?_eq_some_iff`: what a label gives.
* `Metadata.isFirstText_read_iff`: when the value of a field is the first text that is not blank.
* `Metadata.not_isFirstText_endsInColon`: a colon that hides the text on a later line.
-/

namespace Acceptance

open Text

/-! ## Specification -/

/-- Whether a text shows some words in any case, with blanks between them. -/
def ShowsWords : List (List Char) → List Char → Prop
  | [], s => s = []
  | [word], s => s.map foldLetter = word
  | word :: next :: more, s => ∃ shown blanks rest, s = shown ++ (blanks ++ rest) ∧
      shown.map foldLetter = word ∧ blanks ≠ [] ∧ allBlank blanks = true ∧
      ShowsWords (next :: more) rest

/-- Whether a text starts with some words in bold and goes on with `rest`. -/
def StartsLabel (words : List (List Char)) (s rest : List Char) : Prop :=
  ∃ blanks shown mark, s = "**".toList ++ (blanks ++ (shown ++ (mark ++ ("**".toList ++ rest)))) ∧
    allBlank blanks = true ∧ ShowsWords words shown ∧ IsMark mark

/-- Whether a text is blanks and a colon at its end. -/
def IsBareColon (s : List Char) : Prop := ∃ blanks, allBlank blanks = true ∧ s = blanks ++ [':']

/-- Whether a line with the property `p` comes behind lines with the property `passed` only. -/
def ComesFirst (p passed : List Char → Prop) (lines : List (List Char)) : Prop :=
  ∃ before line after, lines = before ++ line :: after ∧ p line ∧ ∀ l ∈ before, passed l

namespace Metadata

/-- A field of the metadata. -/
inductive Field where
  | testPlanId
  | workItem
  | project
  | feature
  deriving Repr, DecidableEq

namespace Field

/-- The words of the label in lower case. -/
def words : Field → List (List Char)
  | testPlanId => ["test".toList, "plan".toList, "id".toList]
  | workItem => ["work".toList, "item".toList]
  | project => ["project".toList]
  | feature => ["feature".toList]

/-- The value of the field. -/
def value (m : Metadata) : Field → String
  | testPlanId => m.testPlanId
  | workItem => m.workItem
  | project => m.project
  | feature => m.feature

/-- Whether a text is what a line says about the field: it stands behind the leftmost label. -/
def Says (field : Field) (line text : List Char) : Prop :=
  ∃ rest, IsLeftmost (StartsLabel field.words) line rest ∧ IsTextOf rest text

/-- Whether a line says nothing about the field, or blanks. -/
def SaysNothing (field : Field) (line : List Char) : Prop :=
  ∀ text, field.Says line text → text = []

/-- Whether a line ends in the colon behind its label. -/
def EndsInColon (field : Field) (line : List Char) : Prop :=
  ∃ rest, IsLeftmost (StartsLabel field.words) line rest ∧ IsBareColon rest

/-- Whether a value is the text on the first line that says one, and empty if there is no such line. -/
def IsFirstText (field : Field) (lines : List (List Char)) (value : List Char) : Prop :=
  (value ≠ [] ∧ ComesFirst (field.Says · value) field.SaysNothing lines) ∨
    (value = [] ∧ ∀ line ∈ lines, field.SaysNothing line)

end Field

end Metadata

/-! ## The first line -/

section ComesFirst

variable {p passed : List Char → Prop}

theorem not_comesFirst_nil : ¬ ComesFirst p passed [] := by
  rintro ⟨before, line, after, h, -⟩
  cases before <;> cases h

theorem comesFirst_cons {line : List Char} {lines : List (List Char)} :
    ComesFirst p passed (line :: lines) ↔ p line ∨ (passed line ∧ ComesFirst p passed lines) := by
  constructor
  · rintro ⟨before, l, after, h, hl, hbefore⟩
    cases before with
    | nil =>
      obtain ⟨rfl, -⟩ := List.cons.inj h
      exact .inl hl
    | cons first before =>
      obtain ⟨rfl, rfl⟩ := List.cons.inj h
      exact .inr ⟨hbefore _ List.mem_cons_self, before, l, after, rfl, hl,
        fun m hm => hbefore m (List.mem_cons_of_mem _ hm)⟩
  · rintro (h | ⟨hline, before, l, after, rfl, hl, hbefore⟩)
    · exact ⟨[], line, lines, rfl, h, by rintro m ⟨⟩⟩
    · exact ⟨line :: before, l, after, rfl, hl, List.forall_mem_cons.2 ⟨hline, hbefore⟩⟩

end ComesFirst

/-! ## Labels of several words -/

/-- What shows some words starts with the first of them. -/
theorem ShowsWords.exists_cons {words : List (List Char)} (hne : words ≠ [])
    (hwords : ∀ word ∈ words, StartsWithLetter word) {s : List Char} (h : ShowsWords words s) :
    ∃ c more, s = c :: more ∧ isBlank c = false := by
  match words with
  | [] => exact absurd rfl hne
  | [word] => exact (hwords word List.mem_cons_self).exists_shown h
  | word :: next :: more =>
    obtain ⟨shown, blanks, rest, rfl, hshown, -⟩ := h
    obtain ⟨c, behind, rfl, hc⟩ := (hwords word List.mem_cons_self).exists_shown hshown
    exact ⟨c, _, rfl, hc⟩

/-- Reading some words is finding a text that shows them. -/
theorem keywords?_eq_some_iff {words : List (List Char)}
    (hwords : ∀ word ∈ words, StartsWithLetter word) {s rest : List Char} :
    keywords? words s = some rest ↔ ∃ shown, ShowsWords words shown ∧ s = shown ++ rest := by
  match words with
  | [] => simp [keywords?, ShowsWords]
  | [word] => exact keyword?_eq_some_iff
  | word :: next :: more =>
    have hmore : ∀ w ∈ next :: more, StartsWithLetter w := fun w hw =>
      hwords w (List.mem_cons_of_mem word hw)
    simp only [keywords?, Option.bind_eq_bind, Option.bind_eq_some_iff, keyword?_eq_some_iff,
      keywords?_eq_some_iff hmore]
    constructor
    · rintro ⟨behind, ⟨shown, hshown, rfl⟩, inner, hblanks, later, hlater, rfl⟩
      obtain ⟨⟨c, hhead, hc⟩, hskip⟩ := blanks?_eq_some_iff.1 hblanks
      obtain ⟨blanks, hbehind, hblank⟩ := exists_skipBlanks behind
      have hne : blanks ≠ [] := by
        rintro rfl
        rw [hbehind, List.nil_append] at hhead
        rw [head?_dropWhile hhead] at hc
        cases hc
      refine ⟨shown ++ (blanks ++ later), ⟨shown, blanks, later, rfl, hshown, hne, hblank, hlater⟩, ?_⟩
      rw [hbehind, ← hskip, List.append_assoc, List.append_assoc]
    · rintro ⟨_, ⟨shown, blanks, later, rfl, hshown, hne, hblank, hlater⟩, rfl⟩
      obtain ⟨c, tail, rfl, hc⟩ := hlater.exists_cons (List.cons_ne_nil next more) hmore
      obtain ⟨b, gap, rfl⟩ := List.exists_cons_of_ne_nil hne
      refine ⟨b :: gap ++ (c :: tail ++ rest), ⟨shown, hshown, by simp⟩, c :: tail ++ rest, ?_,
        c :: tail, hlater, rfl⟩
      exact blanks?_eq_some_iff.2 ⟨⟨b, rfl, List.all_eq_true.1 hblank b List.mem_cons_self⟩,
        (skipBlanks_append_cons hblank hc _).symm⟩

/-- Reading a label of some words is finding one that is written. -/
theorem boldLabel?_keywords_eq_some_iff {words : List (List Char)} (hne : words ≠ [])
    (hwords : ∀ word ∈ words, StartsWithLetter word) {s rest : List Char} :
    boldLabel? (keywords? words) s = some rest ↔ StartsLabel words s rest :=
  boldLabel?_eq_some_iff_of_shows (fun _ _ => keywords?_eq_some_iff hwords)
    fun _ h => h.exists_cons hne hwords

/-! ## One label after another -/

theorem not_mem_of_allBlank {s : List Char} (h : allBlank s = true) : '*' ∉ s := fun hm =>
  absurd (List.all_eq_true.1 h _ hm) (by decide)

theorem IsMark.not_mem {s : List Char} (h : IsMark s) : '*' ∉ s := by
  obtain ⟨before, behind, hbefore, hbehind, rfl | rfl⟩ := h
  · rw [List.mem_append, not_or]
    exact ⟨not_mem_of_allBlank hbefore, not_mem_of_allBlank hbehind⟩
  · rw [List.mem_append, List.mem_cons, not_or, not_or]
    exact ⟨not_mem_of_allBlank hbefore, by decide, not_mem_of_allBlank hbehind⟩

theorem ShowsWords.not_mem {words : List (List Char)} (hletters : ∀ word ∈ words, '*' ∉ word)
    {s : List Char} (h : ShowsWords words s) : '*' ∉ s := by
  have hword {word shown : List Char} (hword : '*' ∉ word) (h : shown.map foldLetter = word) :
      '*' ∉ shown := fun hm =>
    hword (h ▸ List.mem_map.2 ⟨'*', hm, by decide⟩)
  match words with
  | [] => exact h ▸ List.not_mem_nil
  | [word] => exact hword (hletters word List.mem_cons_self) h
  | word :: next :: more =>
    obtain ⟨shown, blanks, rest, rfl, hshown, -, hblanks, hrest⟩ := h
    have hlater := hrest.not_mem fun w hw => hletters w (List.mem_cons_of_mem word hw)
    simp only [List.mem_append, not_or]
    exact ⟨hword (hletters word List.mem_cons_self) hshown, not_mem_of_allBlank hblanks, hlater⟩

section Stars

variable {words : List (List Char)}

/-- A label has four stars. -/
theorem StartsLabel.count_eq (hletters : ∀ word ∈ words, '*' ∉ word) {s rest : List Char}
    (h : StartsLabel words s rest) : s.count '*' = 4 + rest.count '*' := by
  obtain ⟨blanks, shown, mark, rfl, hblanks, hshown, hmark⟩ := h
  have hzero {t : List Char} (ht : '*' ∉ t) : t.count '*' = 0 := List.count_eq_zero.2 ht
  have hstars : "**".toList.count '*' = 2 := by decide
  simp only [List.count_append, hstars, hzero (not_mem_of_allBlank hblanks),
    hzero (hshown.not_mem hletters), hzero hmark.not_mem]
  omega

/-- No label starts inside one that ends with its line. -/
theorem StartsLabel.not_of_suffix (hletters : ∀ word ∈ words, '*' ∉ word) {s t rest : List Char}
    (h : StartsLabel words s []) (hsuffix : t <:+ s) (hlength : t.length < s.length) :
    ¬ StartsLabel words t rest := by
  intro ht
  obtain ⟨front, rfl⟩ := hsuffix
  have hs := h.count_eq hletters
  rw [List.count_append, ht.count_eq hletters] at hs
  -- the first character of a label is a star
  have hstar : '*' ∈ front := by
    obtain ⟨blanks, shown, mark, he, -⟩ := h
    cases front with
    | nil => simp at hlength
    | cons c front =>
      have hc : c = '*' := (List.cons.inj he).1
      exact hc ▸ List.mem_cons_self
  have := List.count_pos_iff.2 hstar
  simp only [List.count_nil] at hs
  omega

end Stars

/-! ## What a label gives -/

theorem isBareColon_iff {s : List Char} : IsBareColon s ↔ skipBlanks s = [':'] := by
  constructor
  · rintro ⟨blanks, hblanks, rfl⟩
    exact skipBlanks_append_cons hblanks (by decide) []
  · intro h
    obtain ⟨blanks, hs, hblanks⟩ := exists_skipBlanks s
    exact ⟨blanks, hblanks, h ▸ hs⟩

/-- What is read behind a label: the text there, but the colon at the end of a line; nothing if nothing
stands there at all. -/
def IsReadFrom (rest value : List Char) : Prop :=
  (IsBareColon rest ∧ value = [':']) ∨ (¬ IsBareColon rest ∧ rest ≠ [] ∧ IsTextOf rest value)

/-- Something is read behind every label but one that ends with its line. -/
theorem exists_isReadFrom {rest : List Char} (h : rest ≠ []) : ∃ value, IsReadFrom rest value := by
  by_cases hcolon : IsBareColon rest
  · exact ⟨[':'], .inl ⟨hcolon, rfl⟩⟩
  · exact ⟨trim (skipMark rest), .inr ⟨hcolon, h, isTextOf_iff.2 rfl⟩⟩

section Here

variable {words : List (List Char)} (hne : words ≠ [])
  (hwords : ∀ word ∈ words, StartsWithLetter word)

include hne hwords in
theorem metadataHere?_eq_some_iff {s value : List Char} : metadataHere? words s = some value ↔
    ∃ rest, StartsLabel words s rest ∧ IsReadFrom rest value := by
  simp only [metadataHere?, Option.bind_eq_bind, Option.bind_eq_some_iff,
    boldLabel?_keywords_eq_some_iff hne hwords]
  refine exists_congr fun rest => and_congr_right fun _ => ?_
  rw [IsReadFrom, isBareColon_iff, isTextOf_iff]
  cases hskip : skipMark rest with
  | cons c behind =>
    have hcolon : skipBlanks rest ≠ [':'] := by
      intro h
      rw [skipMark, h] at hskip
      cases hskip
    have hrest : rest ≠ [] := by
      rintro rfl
      cases hskip
    simp [hcolon, hrest, eq_comm (a := value)]
  | nil =>
    cases rest with
    | nil => simp [skipBlanks]
    | cons c more =>
      by_cases hcolon : skipBlanks (c :: more) = [':']
      · simp [hcolon, eq_comm (a := value)]
      · have htrim : trim [] = [] := rfl
        simp [hcolon, htrim]

end Here

/-! ## What a line gives -/

namespace Metadata.Field

variable (field : Field)

theorem startsWithLetter_of_mem_words : ∀ word ∈ field.words, StartsWithLetter word := by
  have letters : ∀ word ∈ field.words, word.head?.any Char.isAlpha = true := by
    cases field <;> decide
  intro word hword
  have hletter := letters word hword
  cases word with
  | nil => cases hletter
  | cons c more => exact ⟨c, more, rfl, hletter⟩

theorem star_not_mem_words : ∀ word ∈ field.words, '*' ∉ word := by
  cases field <;> decide

theorem words_ne_nil : field.words ≠ [] := by
  cases field <;> decide

/-- What a line gives is read behind its leftmost label. -/
theorem metadata?_eq_some_iff {line value : List Char} : metadata? field.words line = some value ↔
    ∃ rest, IsLeftmost (StartsLabel field.words) line rest ∧ IsReadFrom rest value := by
  rw [metadata?, firstMatch?_eq_some_iff_isLeftmost fun _ _ _ =>
    metadataHere?_eq_some_iff field.words_ne_nil field.startsWithLetter_of_mem_words]
  constructor
  · rintro ⟨place, hplace, ⟨rest, hrest, hread⟩, hearlier⟩
    refine ⟨rest, ⟨place, hplace, hrest, fun earlier hsuffix hlt later hlater => ?_⟩, hread⟩
    -- a label in front of the place would give something, unless the line ended with it
    by_cases hend : later = []
    · subst hend
      have hinside := List.suffix_of_suffix_length_le hplace hsuffix (Nat.le_of_lt hlt)
      exact hlater.not_of_suffix field.star_not_mem_words hinside hlt hrest
    · obtain ⟨b, hb⟩ := exists_isReadFrom hend
      exact hearlier earlier hsuffix hlt b ⟨later, hlater, hb⟩
  · rintro ⟨rest, ⟨place, hplace, hrest, hearlier⟩, hread⟩
    exact ⟨place, hplace, ⟨rest, hrest, hread⟩, fun earlier hsuffix hlt _ ⟨b, hb, _⟩ =>
      hearlier earlier hsuffix hlt b hb⟩

/-- The text behind the leftmost label. -/
theorem isLeftmost_startsLabel_iff {line rest : List Char} :
    IsLeftmost (StartsLabel field.words) line rest ↔
      firstMatch? (boldLabel? (keywords? field.words)) line = some rest :=
  (firstMatch?_eq_some_iff_isLeftmost fun _ _ _ => boldLabel?_keywords_eq_some_iff
    field.words_ne_nil field.startsWithLetter_of_mem_words).symm

theorem says_iff {line text : List Char} : field.Says line text ↔
    (firstMatch? (boldLabel? (keywords? field.words)) line).map (fun rest => trim (skipMark rest)) =
      some text := by
  simp only [Says, isLeftmost_startsLabel_iff, isTextOf_iff, Option.map_eq_some_iff,
    eq_comm (a := text)]

instance (line text : List Char) : Decidable (field.Says line text) :=
  decidable_of_iff _ field.says_iff.symm

variable {field}

/-- What a line gives: a colon, nothing or blanks, or what it says. -/
theorem line_cases (field : Field) (line : List Char) :
    (field.EndsInColon line ∧ metadata? field.words line = some [':']) ∨
      ¬ field.EndsInColon line ∧
        ((field.SaysNothing line ∧ (metadata? field.words line).getD [] = []) ∨
          ∃ text, text ≠ [] ∧ field.Says line text ∧ metadata? field.words line = some text) := by
  cases hlabel : firstMatch? (boldLabel? (keywords? field.words)) line with
  | none =>
    have hno (rest : List Char) : ¬ IsLeftmost (StartsLabel field.words) line rest := by
      rw [isLeftmost_startsLabel_iff, hlabel]
      exact nofun
    have hgives : metadata? field.words line = none :=
      Option.eq_none_iff_forall_ne_some.2 fun value hvalue =>
        have ⟨rest, hrest, _⟩ := field.metadata?_eq_some_iff.1 hvalue
        hno rest hrest
    exact .inr ⟨fun ⟨rest, hrest, _⟩ => hno rest hrest,
      .inl ⟨fun text ⟨rest, hrest, _⟩ => absurd hrest (hno rest), by rw [hgives]; rfl⟩⟩
  | some rest =>
    have hleft (r : List Char) : IsLeftmost (StartsLabel field.words) line r ↔ r = rest := by
      rw [isLeftmost_startsLabel_iff, hlabel, Option.some_inj, eq_comm]
    have hgives (value : List Char) :
        metadata? field.words line = some value ↔ IsReadFrom rest value := by
      simp only [metadata?_eq_some_iff, hleft, exists_eq_left]
    have hends : field.EndsInColon line ↔ IsBareColon rest := by
      simp only [EndsInColon, hleft, exists_eq_left]
    have hsaid (text : List Char) : field.Says line text ↔ text = trim (skipMark rest) := by
      simp only [Says, hleft, exists_eq_left, isTextOf_iff]
    rw [hends]
    by_cases hcolon : IsBareColon rest
    · exact .inl ⟨hcolon, (hgives _).2 (.inl ⟨hcolon, rfl⟩)⟩
    refine .inr ⟨hcolon, ?_⟩
    by_cases hblank : trim (skipMark rest) = []
    · refine .inl ⟨fun text htext => ((hsaid text).1 htext).trans hblank, ?_⟩
      cases hvalue : metadata? field.words line with
      | none => rfl
      | some value =>
        rcases (hgives value).1 hvalue with ⟨h, -⟩ | ⟨-, -, htext⟩
        · exact absurd h hcolon
        · exact (isTextOf_iff.1 htext).trans hblank
    · have hrest : rest ≠ [] := by
        rintro rfl
        exact hblank rfl
      exact .inr ⟨_, hblank, (hsaid _).2 rfl,
        (hgives _).2 (.inr ⟨hcolon, hrest, isTextOf_iff.2 rfl⟩)⟩

/-! ## The first text -/

/-- Lines that say nothing can be left out in front. -/
theorem isFirstText_cons {line : List Char} (h : field.SaysNothing line) {lines : List (List Char)}
    {value : List Char} : field.IsFirstText (line :: lines) value ↔ field.IsFirstText lines value := by
  have hsaid : value ≠ [] → ¬ field.Says line value := fun hne hsaid => hne (h value hsaid)
  rw [IsFirstText, IsFirstText, comesFirst_cons, List.forall_mem_cons]
  refine or_congr (and_congr_right fun hne => ?_) (and_congr_right fun _ => and_iff_right h)
  rw [or_iff_right (hsaid hne), and_iff_right h]

/-- The first value that is not blank. -/
def firstValue (field : Field) (lines : List (List Char)) : List Char :=
  ((lines.filterMap (metadata? field.words)).find? fun value => !value.isEmpty).getD []

theorem firstValue_cons (field : Field) (line : List Char) (lines : List (List Char)) :
    field.firstValue (line :: lines) =
      if (metadata? field.words line).getD [] = [] then field.firstValue lines
      else (metadata? field.words line).getD [] := by
  rw [firstValue, firstValue, List.filterMap_cons]
  cases metadata? field.words line with
  | none => rfl
  | some value =>
    cases value with
    | nil => rfl
    | cons c value => rfl

theorem firstValue_spec (field : Field) (lines : List (List Char)) :
    (ComesFirst field.EndsInColon field.SaysNothing lines → field.firstValue lines = [':']) ∧
      (¬ ComesFirst field.EndsInColon field.SaysNothing lines →
        field.IsFirstText lines (field.firstValue lines)) := by
  induction lines with
  | nil =>
    exact ⟨fun h => absurd h not_comesFirst_nil, fun _ => .inr ⟨rfl, by rintro line ⟨⟩⟩⟩
  | cons line lines ih =>
    rw [firstValue_cons, comesFirst_cons]
    rcases field.line_cases line with ⟨hcolon, hvalue⟩ |
      ⟨hcolon, ⟨hnothing, hvalue⟩ | ⟨text, hne, hsaid, hvalue⟩⟩
    · rw [hvalue]
      exact ⟨fun _ => rfl, fun h => absurd (.inl hcolon) h⟩
    · rw [hvalue, if_pos rfl, or_iff_right hcolon, and_iff_right hnothing, isFirstText_cons hnothing]
      exact ih
    · rw [hvalue, Option.getD_some, if_neg hne]
      refine ⟨?_, fun _ => .inl ⟨hne, comesFirst_cons.2 (.inl hsaid)⟩⟩
      rintro (h | ⟨hnothing, -⟩)
      · exact absurd h hcolon
      · exact absurd (hnothing text hsaid) hne

theorem toList_value_ofLines (field : Field) (lines : List (List Char)) :
    (field.value (Metadata.ofLines lines)).toList = field.firstValue lines := by
  cases field <;> exact String.toList_ofList

end Metadata.Field

namespace Metadata

/-- The value of a field is the first text that a line says about it, unless the line of a bare colon
comes before all such lines. There the value is that colon. -/
theorem isFirstText_read_iff (text : String) (field : Field) :
    let lines := Text.lines text.toList
    let value := (field.value (Plan.read text).metadata).toList
    (field.IsFirstText lines value ↔
        ¬ ComesFirst field.EndsInColon field.SaysNothing lines ∨ field.IsFirstText lines [':']) ∧
      (ComesFirst field.EndsInColon field.SaysNothing lines → value = [':']) := by
  intro lines value
  have hvalue : value = field.firstValue lines := field.toList_value_ofLines lines
  obtain ⟨hcolon, htext⟩ := field.firstValue_spec lines
  rw [hvalue]
  by_cases hfirst : ComesFirst field.EndsInColon field.SaysNothing lines
  · rw [hcolon hfirst]
    exact ⟨⟨.inr, fun h => h.resolve_left (not_not_intro hfirst)⟩, fun _ => rfl⟩
  · exact ⟨⟨fun _ => .inl hfirst, fun _ => htext hfirst⟩, hcolon⟩

/-- A plan that names its project on the second of two lines. -/
def laterProject : String := "**Project**:\n**Project**: Other\n"

/-- The colon of a label without text hides the text on a later line. -/
theorem not_isFirstText_endsInColon :
    (Plan.read laterProject).metadata.project = ":" ∧
      Field.project.IsFirstText (Text.lines laterProject.toList) "Other".toList ∧
      ¬ Field.project.IsFirstText (Text.lines laterProject.toList) ":".toList := by
  have hlines : Text.lines laterProject.toList =
      ["**Project**:".toList, "**Project**: Other".toList] := by decide
  have hfirst : Field.project.SaysNothing "**Project**:".toList := by
    intro text htext
    rw [Field.says_iff] at htext
    exact (Option.some.inj htext).symm
  refine ⟨by decide, ?_, ?_⟩
  · rw [hlines, Field.isFirstText_cons hfirst]
    exact .inl ⟨by decide, comesFirst_cons.2 (.inl (by decide))⟩
  · rw [hlines, Field.isFirstText_cons hfirst]
    rintro (⟨-, h⟩ | ⟨h, -⟩)
    · rcases comesFirst_cons.1 h with h | ⟨-, h⟩
      · exact absurd h (by decide)
      · exact not_comesFirst_nil h
    · cases h

end Metadata

end Acceptance
