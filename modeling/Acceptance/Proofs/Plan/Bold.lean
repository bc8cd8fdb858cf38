import Mathlib.Data.List.Basic
import Acceptance.Proofs.Plan.Label
import Acceptance.Proofs.Plan.Line

/-!
# Bold labels as they are written

A bold label is a word in any case between two pairs of stars, with blanks on both sides of the word
and maybe a colon behind it. One more colon may stand behind the label; it does not belong to the text
of the line. Of several labels on a line the leftmost counts. A priority label that no word follows is
passed over, a step label without text is not.

Main results:

* `boldLabel?_keyword_eq_some_iff`: the reader finds exactly the labels that are written.
* `step?_eq_some_iff`, `priority?_eq_some_iff`: what a line says.
-/

namespace Acceptance

open Text

/-! ## Specification -/

/-- Whether a text is blanks and at most one colon. -/
def IsMark (s : List Char) : Prop :=
  ∃ before behind, allBlank before = true ∧ allBlank behind = true ∧
    (s = before ++ behind ∨ s = before ++ ':' :: behind)

/-- Whether a text starts with a word in bold, in any case, and goes on with `rest`. -/
def StartsBold (word s rest : List Char) : Prop :=
  ∃ blanks shown mark, s = "**".toList ++ (blanks ++ (shown ++ (mark ++ ("**".toList ++ rest)))) ∧
    allBlank blanks = true ∧ shown.map foldLetter = word ∧ IsMark mark

/-- Whether a text is what a line says behind a label that leaves `rest`: all of it behind one colon
if a colon comes first, without the blanks at both ends. -/
def IsTextOf (rest text : List Char) : Prop :=
  (∃ blanks behind, rest = blanks ++ ':' :: behind ∧ allBlank blanks = true ∧ text = trim behind) ∨
    ((skipBlanks rest).head? ≠ some ':' ∧ text = trim rest)

/-- Whether a place of a line is the leftmost one where something is found, and `a` is found there. -/
def IsLeftmost {α : Type} (found : List Char → α → Prop) (line : List Char) (a : α) : Prop :=
  ∃ place, place <:+ line ∧ found place a ∧
    ∀ earlier, earlier <:+ line → place.length < earlier.length → ∀ b, ¬ found earlier b

/-- Whether a step label starts a text, and the text behind it. -/
def StartsStep (s : List Char) (said : Label × List Char) : Prop :=
  ∃ rest, StartsBold said.1.word s rest ∧ IsTextOf rest said.2

/-- Whether a priority label starts a text with a whole word behind it. -/
def StartsPriority (s word : List Char) : Prop :=
  ∃ mark behind, StartsBold "priority".toList s (mark ++ (word ++ behind)) ∧ IsMark mark ∧
    word ≠ [] ∧ (∀ c ∈ word, isWordChar c = true) ∧ ∀ c ∈ behind.head?, isWordChar c = false

/-! ## Marks -/

/-- A mark is passed over. -/
theorem skipMark_append {mark : List Char} (h : IsMark mark) {c : Char} (hc : isBlank c = false)
    (hcolon : c ≠ ':') (s : List Char) : skipMark (mark ++ c :: s) = c :: s := by
  have hskip : skipColon (c :: s) = c :: s := skipColon_of_head? (by simpa using hcolon)
  obtain ⟨before, behind, hbefore, hbehind, rfl | rfl⟩ := h
  · have hblank : allBlank (before ++ behind) = true := by
      rw [allBlank, List.all_append]
      exact Bool.and_eq_true_iff.2 ⟨hbefore, hbehind⟩
    rw [skipMark, skipBlanks_append_cons hblank hc, hskip, skipBlanks_cons hc]
  · rw [skipMark, List.append_assoc, List.cons_append, skipBlanks_append_cons hbefore (by decide)]
    exact skipBlanks_append_cons hbehind hc s

/-- What is passed over is a mark. -/
theorem exists_skipMark (s : List Char) : ∃ mark, s = mark ++ skipMark s ∧ IsMark mark := by
  obtain ⟨before, hs, hbefore⟩ := exists_skipBlanks s
  by_cases hcolon : (skipBlanks s).head? = some ':'
  · obtain ⟨rest, hrest⟩ := List.head?_eq_some_iff.1 hcolon
    obtain ⟨behind, hr, hbehind⟩ := exists_skipBlanks rest
    refine ⟨before ++ ':' :: behind, ?_, before, behind, hbefore, hbehind, .inr rfl⟩
    rw [skipMark, hrest, List.append_assoc, List.cons_append]
    show s = before ++ ':' :: (behind ++ skipBlanks rest)
    rw [← hr, ← hrest]
    exact hs
  · refine ⟨before, ?_, before, [], hbefore, rfl, .inl (List.append_nil _).symm⟩
    rw [skipMark, skipColon_of_head? hcolon, skipBlanks, skipBlanks, List.dropWhile_idempotent]
    exact hs

theorem isTextOf_iff {rest text : List Char} : IsTextOf rest text ↔ text = trim (skipMark rest) := by
  rw [skipMark, trim_skipBlanks]
  by_cases hcolon : (skipBlanks rest).head? = some ':'
  · obtain ⟨behind, hbehind⟩ := List.head?_eq_some_iff.1 hcolon
    obtain ⟨blanks, hrest, hblanks⟩ := exists_skipBlanks rest
    rw [hbehind] at hrest
    have hskip : skipColon (skipBlanks rest) = behind := by rw [hbehind]; rfl
    rw [hskip]
    constructor
    · rintro (⟨blanks', behind', rfl, hblanks', rfl⟩ | ⟨hne, -⟩)
      · rw [skipBlanks_append_cons hblanks' (by decide)] at hbehind
        rw [(List.cons.inj hbehind).2]
      · exact absurd hcolon hne
    · exact fun h => .inl ⟨blanks, behind, hrest, hblanks, h⟩
  · rw [skipColon_of_head? hcolon, trim_skipBlanks]
    constructor
    · rintro (⟨blanks, behind, rfl, hblanks, -⟩ | ⟨-, h⟩)
      · exact absurd (by rw [skipBlanks_append_cons hblanks (by decide)]; rfl) hcolon
      · exact h
    · exact fun h => .inr ⟨hcolon, h⟩

/-! ## Labels -/

/-- Whether a word starts with a letter. -/
def StartsWithLetter (word : List Char) : Prop := ∃ c more, word = c :: more ∧ c.isAlpha = true

theorem Label.startsWithLetter_word (label : Label) : StartsWithLetter label.word := by
  cases label <;> exact ⟨_, _, rfl, by decide⟩

/-- Reading a bold label is finding one that is written, whatever is read as its word. -/
theorem boldLabel?_eq_some_iff_of_shows {word? : List Char → Option (List Char)}
    {p : List Char → Prop}
    (hread : ∀ s rest, word? s = some rest ↔ ∃ shown, p shown ∧ s = shown ++ rest)
    (hfirst : ∀ shown, p shown → ∃ c more, shown = c :: more ∧ isBlank c = false)
    {s rest : List Char} : boldLabel? word? s = some rest ↔
      ∃ blanks shown mark, s = "**".toList ++ (blanks ++ (shown ++ (mark ++ ("**".toList ++ rest)))) ∧
        allBlank blanks = true ∧ p shown ∧ IsMark mark := by
  rw [boldLabel?_eq_some_iff]
  constructor
  · rintro ⟨body, tail, rfl, hword, hstars⟩
    obtain ⟨blanks, hbody, hblanks⟩ := exists_skipBlanks body
    obtain ⟨shown, hshown, hs⟩ := (hread _ _).1 hword
    obtain ⟨mark, htail, hmark⟩ := exists_skipMark tail
    refine ⟨blanks, shown, mark, ?_, hblanks, hshown, hmark⟩
    rw [hbody, hs, htail, hstars]
    rfl
  · rintro ⟨blanks, shown, mark, rfl, hblanks, hshown, hmark⟩
    obtain ⟨c, more, rfl, hc⟩ := hfirst shown hshown
    have hbody : skipBlanks (blanks ++ (c :: more ++ (mark ++ ("**".toList ++ rest)))) =
        c :: more ++ (mark ++ ("**".toList ++ rest)) :=
      skipBlanks_append_cons hblanks hc _
    refine ⟨blanks ++ (c :: more ++ (mark ++ ("**".toList ++ rest))), mark ++ ("**".toList ++ rest),
      rfl, ?_, skipMark_append hmark (by decide) (by decide) _⟩
    rw [hbody]
    exact (hread _ _).2 ⟨c :: more, hshown, rfl⟩

/-- A word that starts with a letter is shown with a character that is not blank in front. -/
theorem StartsWithLetter.exists_shown {word : List Char} (hword : StartsWithLetter word)
    {shown : List Char} (h : shown.map foldLetter = word) :
    ∃ c more, shown = c :: more ∧ isBlank c = false := by
  obtain ⟨k, more, rfl, hk⟩ := hword
  obtain ⟨c, rest, rfl, hc, -⟩ := List.map_eq_cons_iff.1 h
  exact ⟨c, rest, rfl, not_isBlank_of_isFoldedLetter (by rw [isFoldedLetter, hc]; exact hk)⟩

/-- Reading a word in bold is finding one that is written. -/
theorem boldLabel?_keyword_eq_some_iff {word : List Char} (hword : StartsWithLetter word)
    {s rest : List Char} : boldLabel? (keyword? word) s = some rest ↔ StartsBold word s rest :=
  boldLabel?_eq_some_iff_of_shows (p := fun shown => shown.map foldLetter = word)
    (fun _ _ => keyword?_eq_some_iff) fun _ h => hword.exists_shown h

/-- No two step labels start at the same place. -/
theorem Label.eq_of_keyword? {l l' : Label} {s r r' : List Char} (h : keyword? l.word s = some r)
    (h' : keyword? l'.word s = some r') : l = l' := by
  obtain ⟨start, hl, rfl⟩ := keyword?_eq_some_iff.1 h
  obtain ⟨start', hl', hs⟩ := keyword?_eq_some_iff.1 h'
  have hhead : ∀ label : Label, ∀ t u : List Char, t.map foldLetter = label.word →
      (t ++ u).head?.map foldLetter = label.word.head? := by
    intro label t u ht
    obtain ⟨c, more, hc, -⟩ := label.startsWithLetter_word
    rw [hc] at ht ⊢
    obtain ⟨d, t, rfl, hd, -⟩ := List.map_eq_cons_iff.1 ht
    exact congrArg some hd
  have hwords : l.word.head? = l'.word.head? := by
    rw [← hhead l start r hl, hs, hhead l' start' r' hl']
  revert hwords
  cases l <;> cases l' <;> decide

theorem boldLabel?_eq_none_of_ne {l l' : Label} (hne : l' ≠ l) {s rest : List Char}
    (h : boldLabel? (keyword? l.word) s = some rest) : boldLabel? (keyword? l'.word) s = none := by
  refine Option.eq_none_iff_forall_ne_some.2 fun rest' h' => hne ?_
  obtain ⟨body, tail, rfl, hkeyword, -⟩ := boldLabel?_eq_some_iff.1 h
  obtain ⟨body', tail', hbody, hkeyword', -⟩ := boldLabel?_eq_some_iff.1 h'
  simp only [List.cons.injEq, true_and] at hbody
  subst hbody
  exact Label.eq_of_keyword? hkeyword' hkeyword

/-- What a step label at one place says. -/
theorem stepHere?_eq_some_iff {s : List Char} (hs : '\n' ∉ s) {said : Label × List Char} :
    stepHere? s = some said ↔ StartsStep s said := by
  obtain ⟨label, text⟩ := said
  have hbold (l : Label) (rest : List Char) :
      boldLabel? (keyword? l.word) s = some rest ↔ StartsBold l.word s rest :=
    boldLabel?_keyword_eq_some_iff l.startsWithLetter_word
  constructor
  · intro h
    obtain ⟨l, -, hl⟩ := List.exists_of_findSome?_eq_some h
    simp only at hl
    split at hl
    · next rest hrest =>
      split_ifs at hl
      obtain ⟨rfl, rfl⟩ := Prod.mk.inj (Option.some.inj hl)
      exact ⟨rest, (hbold l rest).1 hrest, isTextOf_iff.2 rfl⟩
    · cases hl
  · rintro ⟨rest, hstarts, htext⟩
    obtain rfl := isTextOf_iff.1 htext
    have hrest := (hbold label rest).2 hstarts
    have hsuffix : skipMark rest <:+ s :=
      (skipMark_suffix rest).trans (boldLabel?_suffix (fun _ _ => keyword?_suffix) hrest)
    exact stepHere?_eq_some hrest (fun l hl => boldLabel?_eq_none_of_ne hl hrest)
      fun hm => hs (hsuffix.mem hm)

/-- What a priority label at one place says. -/
theorem priorityHere?_eq_some_iff {s word : List Char} :
    priorityHere? s = some word ↔ StartsPriority s word := by
  have hbold (rest : List Char) : boldLabel? (keyword? "priority".toList) s = some rest ↔
      StartsBold "priority".toList s rest :=
    boldLabel?_keyword_eq_some_iff ⟨_, _, rfl, by decide⟩
  simp only [priorityHere?, Option.bind_eq_bind, Option.bind_eq_some_iff, hbold]
  constructor
  · rintro ⟨rest, hstarts, ⟨run, behind⟩, hrun, hw⟩
    cases hw
    obtain ⟨mark, hrest, hmark⟩ := exists_skipMark rest
    obtain ⟨hskip, hne, hword, hbehind⟩ := run?_eq_some_iff.1 hrun
    rw [hskip] at hrest
    exact ⟨mark, behind, hrest ▸ hstarts, hmark, hne, hword, hbehind⟩
  · rintro ⟨mark, behind, hstarts, hmark, hne, hword, hbehind⟩
    obtain ⟨c, more, rfl⟩ := List.exists_cons_of_ne_nil hne
    have hc : isWordChar c = true := hword c List.mem_cons_self
    refine ⟨_, hstarts, (c :: more, behind), ?_, rfl⟩
    rw [List.cons_append, skipMark_append hmark (not_isBlank_of_isWordChar hc) ?_,
      ← List.cons_append]
    · exact run?_append hne hword hbehind
    · rintro rfl
      exact absurd hc (by decide)

/-! ## Lines -/

theorem firstMatch?_eq_some_iff_isLeftmost {α : Type} {find? : List Char → Option α}
    {found : List Char → α → Prop} {line : List Char}
    (h : ∀ place, place <:+ line → ∀ a, find? place = some a ↔ found place a) {a : α} :
    firstMatch? find? line = some a ↔ IsLeftmost found line a := by
  rw [firstMatch?_eq_some_iff]
  refine exists_congr fun place => and_congr_right fun hplace =>
    and_congr (h place hplace a) (forall₂_congr fun earlier hearlier => imp_congr_right fun _ => ?_)
  rw [Option.eq_none_iff_forall_ne_some]
  exact forall_congr' fun b => not_congr (h earlier hearlier b)

/-- What a line says is behind its leftmost step label. -/
theorem step?_eq_some_iff {line : List Char} (h : '\n' ∉ line) {said : Label × List Char} :
    step? line = some said ↔ IsLeftmost StartsStep line said :=
  firstMatch?_eq_some_iff_isLeftmost fun _ hplace _ =>
    stepHere?_eq_some_iff fun hm => h (hplace.mem hm)

/-- The priority on a line is behind its leftmost priority label with a word. -/
theorem priority?_eq_some_iff {line word : List Char} :
    priority? line = some word ↔ IsLeftmost StartsPriority line word :=
  firstMatch?_eq_some_iff_isLeftmost fun _ _ _ => priorityHere?_eq_some_iff

end Acceptance
