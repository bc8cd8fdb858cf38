import Mathlib.Data.List.TakeWhile
import Acceptance.Proofs.Codeunit.Sound

/-!
# Names of codeunits

A codeunit without a name of its own is named after its work item. The number in front of the title is
left out, the first three words of the title are joined in pascal case, and the join is cut where the
suffix would not fit. A join that starts with a digit gives a name that does, so such a name cannot stand
in code without quotes, while a name that is given always can.

Main results:

* `Naming.isTitleOf_iff`, `Naming.isStemOf_iff`: the title and the stem for a work item.
* `Naming.exists_codeunitName_eq`: a derived name is a part of the stem and the suffix.
* `Options.isIdentifier_nameFor_iff`: the names that can stand without quotes.
* `Options.not_isIdentifier_nameFor`: one that cannot.
-/

namespace Acceptance

open Text

namespace Naming

/-! ## Specification -/

/-- Whether a text is a number with what divides it from a title: one or more digits and a hyphen or a
colon, with blanks on both sides of that. -/
def IsNumbering (s : List Char) : Prop :=
  ∃ digits gap mark behind, s = digits ++ (gap ++ mark :: behind) ∧ digits ≠ [] ∧
    (∀ c ∈ digits, isDigit c = true) ∧ allBlank gap = true ∧ (mark = '-' ∨ mark = ':') ∧
    allBlank behind = true

/-- Whether a text is the title of a work item: what stands behind its number, or all of it if there is
none. -/
def IsTitleOf (workItem title : List Char) : Prop :=
  (∃ numbering, IsNumbering numbering ∧ workItem = numbering ++ title ∧
      ∀ c ∈ title.head?, isBlank c = false) ∨
    ((∀ numbering rest, IsNumbering numbering → workItem ≠ numbering ++ rest) ∧ title = workItem)

/-- The pieces between the blanks of a text, without empty ones, once all characters but ASCII letters,
ASCII digits and blanks are dropped. -/
def titleWords (s : List Char) : List (List Char) :=
  ((s.filter fun c => c.isAlphanum || isBlank c).splitOnP isBlank).filter fun w => !w.isEmpty

/-- The word with its first letter in upper case and the others in lower case, where only ASCII letters
have a case. -/
def inCapitals : List Char → List Char
  | [] => []
  | c :: w => c.toUpper :: w.map Char.toLower

/-- The first three words of a text in pascal case. -/
def joined (s : List Char) : List Char := ((titleWords s).take 3).flatMap inCapitals

/-- Whether a text is the stem for a work item: the first three words of its title in pascal case, or
`Atdd` if there are none. -/
def IsStemOf (workItem stem : List Char) : Prop :=
  ∃ title, IsTitleOf (trim workItem) title ∧
    stem = if joined title = [] then "Atdd".toList else joined title

/-! ## Titles -/

/-- What stands behind the digits of a numbering. -/
theorem IsNumbering.exists_mark {numbering : List Char} (h : IsNumbering numbering) (s : List Char) :
    ∃ mark behind, (mark == '-' || mark == ':') = true ∧ allBlank behind = true ∧
      skipBlanks ((numbering ++ s).dropWhile isDigit) = mark :: (behind ++ s) ∧
      (numbering ++ s).head?.any isDigit = true := by
  obtain ⟨digits, gap, mark, behind, rfl, hne, hdigits, hgap, hmark, hbehind⟩ := h
  have hmark' : isBlank mark = false ∧ isDigit mark = false ∧ (mark == '-' || mark == ':') = true := by
    rcases hmark with rfl | rfl <;> decide
  refine ⟨mark, behind, hmark'.2.2, hbehind, ?_, ?_⟩
  · have hstop : (gap ++ mark :: (behind ++ s)).dropWhile isDigit = gap ++ mark :: (behind ++ s) := by
      cases gap with
      | nil => exact List.dropWhile_cons_of_neg (by simp [hmark'.2.1])
      | cons b gap =>
        refine List.dropWhile_cons_of_neg fun hb => ?_
        have hblank := List.all_eq_true.1 hgap b List.mem_cons_self
        rw [not_isBlank_of_isDigit hb] at hblank
        cases hblank
    rw [List.append_assoc, List.append_assoc, List.cons_append, List.dropWhile_append_of_pos hdigits,
      hstop, skipBlanks_append_cons hgap hmark'.1]
  · obtain ⟨d, more, rfl⟩ := List.exists_cons_of_ne_nil hne
    exact hdigits d List.mem_cons_self

/-- A numbering is left out. -/
theorem withoutNumber_append {numbering title : List Char} (h : IsNumbering numbering)
    (htitle : ∀ c ∈ title.head?, isBlank c = false) : withoutNumber (numbering ++ title) = title := by
  obtain ⟨mark, behind, hmark, hbehind, hskip, hdigit⟩ := h.exists_mark title
  rw [withoutNumber, hskip]
  simp only [hdigit, hmark, Bool.and_self, if_true]
  exact skipBlanks_append_of_allBlank hbehind htitle

/-- Without a numbering nothing is left out. -/
theorem withoutNumber_eq_self {s : List Char}
    (h : ∀ numbering rest, IsNumbering numbering → s ≠ numbering ++ rest) : withoutNumber s = s := by
  unfold withoutNumber
  split
  · next mark rest hskip =>
    split_ifs with hmark
    · rw [Bool.and_eq_true, Bool.or_eq_true, beq_iff_eq, beq_iff_eq] at hmark
      obtain ⟨gap, hgap, hblank⟩ := exists_skipBlanks (s.dropWhile isDigit)
      have hs : s = s.takeWhile isDigit ++ (gap ++ [mark]) ++ rest := by
        rw [List.append_assoc, List.append_assoc, List.singleton_append, ← hskip, ← hgap,
          List.takeWhile_append_dropWhile]
      have hne : s.takeWhile isDigit ≠ [] := by
        obtain ⟨d, hd, hdigit⟩ := (Option.any_eq_true _ _).1 hmark.1
        obtain ⟨more, rfl⟩ := List.head?_eq_some_iff.1 hd
        rw [List.takeWhile_cons_of_pos hdigit]
        exact List.cons_ne_nil _ _
      refine absurd hs (h _ rest ⟨_, gap, mark, [], rfl, hne, ?_, hblank, hmark.2, rfl⟩)
      exact List.all_eq_true.1 List.all_takeWhile
    · rfl
  · rfl

theorem isTitleOf_iff {workItem title : List Char} :
    IsTitleOf workItem title ↔ title = withoutNumber workItem := by
  constructor
  · rintro (⟨numbering, h, rfl, htitle⟩ | ⟨h, rfl⟩)
    · exact (withoutNumber_append h htitle).symm
    · exact (withoutNumber_eq_self h).symm
  · rintro rfl
    by_cases h : ∀ numbering rest, IsNumbering numbering → workItem ≠ numbering ++ rest
    · exact .inr ⟨h, withoutNumber_eq_self h⟩
    · push Not at h
      obtain ⟨numbering, rest, h, rfl⟩ := h
      -- blanks in front of the rest belong to the numbering
      obtain ⟨blanks, hrest, hblanks⟩ := exists_skipBlanks rest
      have hmore : IsNumbering (numbering ++ blanks) := by
        obtain ⟨digits, gap, mark, behind, rfl, hne, hdigits, hgap, hmark, hbehind⟩ := h
        refine ⟨digits, gap, mark, behind ++ blanks, by simp, hne, hdigits, hgap, hmark, ?_⟩
        rw [allBlank, List.all_append]
        exact Bool.and_eq_true_iff.2 ⟨hbehind, hblanks⟩
      have hfirst : ∀ c ∈ (skipBlanks rest).head?, isBlank c = false := fun c hc => head?_dropWhile hc
      have hparts : numbering ++ rest = numbering ++ blanks ++ skipBlanks rest := by
        rw [List.append_assoc, ← hrest]
      rw [hparts, withoutNumber_append hmore hfirst]
      exact .inl ⟨_, hmore, rfl, hfirst⟩

/-! ## Words -/

/-- The words of a text are the pieces between its blanks. -/
theorem words_eq_splitOnP (s : List Char) :
    words s = (s.splitOnP isBlank).filter fun w => !w.isEmpty := by
  induction s with
  | nil => rfl
  | cons c s ih =>
    rw [words, List.splitOnP_cons_eq_if_modifyHead]
    split_ifs with hc
    · exact ih
    cases s with
    | nil => rfl
    | cons d s =>
      rw [List.splitOnP_cons_eq_if_modifyHead] at ih ⊢
      split_ifs at ih ⊢ with hd
      · -- the word ends with its first character
        rw [ih, List.modifyHead_cons, List.filter_cons_of_neg (by simp),
          List.filter_cons_of_pos (by simp)]
        cases (s.splitOnP isBlank).filter fun w => !w.isEmpty with
        | nil => rfl
        | cons w ws => exact if_pos hd
      · obtain ⟨p, ps, hp⟩ := List.exists_cons_of_ne_nil (List.splitOnP_ne_nil isBlank s)
        rw [hp] at ih ⊢
        rw [ih]
        simp [hd]

/-- The first word starts with the first character that is not blank. -/
theorem words_cases (s : List Char) :
    (s.find? (fun c => !isBlank c) = none ∧ words s = []) ∨
      ∃ c w ws, s.find? (fun c => !isBlank c) = some c ∧ words s = (c :: w) :: ws := by
  induction s with
  | nil => exact .inl ⟨rfl, rfl⟩
  | cons c s ih =>
    by_cases hc : isBlank c = true
    · rw [words_cons_of_blank hc, List.find?_cons_of_neg (by simp [hc])]
      exact ih
    · refine .inr ⟨c, ?_⟩
      rw [words, if_neg hc, List.find?_cons_of_pos (by simp [hc])]
      split
      · split_ifs
        · exact ⟨_, _, rfl, rfl⟩
        · exact ⟨_, _, rfl, rfl⟩
      · exact ⟨_, _, rfl, rfl⟩

theorem capitalize_eq_inCapitals {w : List Char} (h : ∀ c ∈ w, c.isAlphanum = true) :
    capitalize w = inCapitals w := by
  have hlower (v : List Char) (hv : ∀ c ∈ v, c.isAlphanum = true) :
      v.flatMap lowerChar = v.map Char.toLower := by
    rw [List.flatMap_congr fun c hc => lowerChar_of_lt (toNat_lt_of_isAlphanum (hv c hc))]
    exact List.map_eq_flatMap.symm
  cases w with
  | nil => rfl
  | cons c w =>
    rw [capitalize, upperChar_of_lt (toNat_lt_of_isAlphanum (h c List.mem_cons_self)),
      hlower w fun d hd => h d (List.mem_cons_of_mem c hd)]
    rfl

/-- The first words of a text in pascal case. -/
theorem joined_eq (s : List Char) : joined s = pascalCase s 3 := by
  have hwords : titleWords s = plainWords s := (words_eq_splitOnP _).symm
  rw [joined, hwords, pascalCase]
  exact List.flatMap_congr fun w hw => (capitalize_eq_inCapitals
    (isAlphanum_of_mem_plainWords (List.mem_of_mem_take hw))).symm

theorem isStemOf_iff {workItem s : List Char} : IsStemOf workItem s ↔ s = stem workItem := by
  simp only [IsStemOf, isTitleOf_iff, exists_eq_left, joined_eq, stem]
  cases pascalCase (withoutNumber (trim workItem)) 3 <;> simp [fallbackStem]

/-- The stem starts with the first letter or digit of the title, if there is one. -/
theorem head?_pascalCase (s : List Char) (most : ℕ) :
    (pascalCase s (most + 1)).head? = (s.find? Char.isAlphanum).map Char.toUpper := by
  have hfind : s.find? Char.isAlphanum =
      (s.filter fun c => c.isAlphanum || isBlank c).find? fun c => !isBlank c := by
    rw [List.find?_filter]
    refine congrArg (List.find? · s) (funext fun c => ?_)
    cases hc : c.isAlphanum with
    | true => simp [not_isBlank_of_plain (isPlainNameChar_of_isAlphanum hc)]
    | false => simp
  rw [hfind, pascalCase, plainWords]
  rcases words_cases (s.filter fun c => c.isAlphanum || isBlank c) with
    ⟨hnone, hwords⟩ | ⟨c, w, ws, hsome, hwords⟩
  · rw [hnone, hwords]
    rfl
  · have hmem : c :: w ∈ plainWords s := by
      rw [plainWords, hwords]
      exact List.mem_cons_self
    have hc := isAlphanum_of_mem_plainWords hmem c List.mem_cons_self
    rw [hsome, hwords, List.take_succ_cons, List.flatMap_cons, capitalize,
      upperChar_of_lt (toNat_lt_of_isAlphanum hc)]
    rfl

/-! ## Derived names -/

theorem stem_ne_nil (workItem : List Char) : stem workItem ≠ [] := by
  unfold stem
  split
  · decide
  · exact List.cons_ne_nil _ _

theorem isAlphanum_of_mem_stem {workItem : List Char} {c : Char} (h : c ∈ stem workItem) :
    c.isAlphanum = true := by
  unfold stem at h
  split at h
  · have fallback : fallbackStem.all Char.isAlphanum = true := by decide
    exact List.all_eq_true.1 fallback c h
  · next hp =>
    rw [← hp] at h
    obtain ⟨w, hw, hc⟩ := List.mem_flatMap.1 h
    exact isAlphanum_of_mem_capitalize
      (isAlphanum_of_mem_plainWords (List.mem_of_mem_take hw)) c hc

variable {affix : List Char}

theorem isAlphanum_of_mem_nameSuffix (h : ∀ c ∈ affix, c.isAlphanum = true) {c : Char}
    (hc : c ∈ nameSuffix affix) : c.isAlphanum = true := by
  have tests : "Tests".toList.all Char.isAlphanum = true := by decide
  have ending : "FDW".toList.all Char.isAlphanum = true := by decide
  replace hc : c ∈ "Tests".toList ++ affix ++ "FDW".toList := hc
  rw [List.mem_append, List.mem_append] at hc
  rcases hc with (hc | hc) | hc
  · exact List.all_eq_true.1 tests c hc
  · exact h c hc
  · exact List.all_eq_true.1 ending c hc

/-- The part of the stem that is kept. -/
def keptStem (workItem affix : List Char) : List Char :=
  (stem workItem).take (maxObjectName - (nameSuffix affix).length)

theorem codeunitName_eq (h : ∀ c ∈ affix, c.isAlphanum = true) (workItem : List Char) :
    codeunitName workItem affix = keptStem workItem affix ++ nameSuffix affix := by
  have hplain : IsPlain (nameSuffix affix) := isPlain_nameSuffix (List.all_eq_true.2 h)
  rw [codeunitName, keptStem, ← hplain.byteLength_eq, cut_eq_take (isPlain_stem workItem)]

theorem isAlphanum_of_mem_codeunitName (h : ∀ c ∈ affix, c.isAlphanum = true) {workItem : List Char}
    {c : Char} (hc : c ∈ codeunitName workItem affix) : c.isAlphanum = true := by
  rw [codeunitName_eq h, List.mem_append] at hc
  rcases hc with hc | hc
  · exact isAlphanum_of_mem_stem (List.mem_of_mem_take hc)
  · exact isAlphanum_of_mem_nameSuffix h hc

/-- Where the suffix leaves room, a name starts as its stem does. -/
theorem head?_keptStem (h : (nameSuffix affix).length < maxObjectName) (workItem : List Char) :
    (keptStem workItem affix).head? = (stem workItem).head? := by
  rw [keptStem, List.head?_take, if_neg (by omega)]

theorem keptStem_ne_nil (h : (nameSuffix affix).length < maxObjectName) (workItem : List Char) :
    keptStem workItem affix ≠ [] := by
  intro hnil
  have hhead := head?_keptStem h workItem
  rw [hnil] at hhead
  exact stem_ne_nil workItem (List.head?_eq_none_iff.1 hhead.symm)

/-- A derived name is what fits of the stem and the suffix. -/
theorem exists_codeunitName_eq {workItem affix : List Char} (haffix : ∀ c ∈ affix, c.isAlphanum = true)
    (hroom : ("Tests".toList ++ affix ++ "FDW".toList).length < 30) :
    ∃ stem kept, IsStemOf workItem stem ∧ kept <+: stem ∧ kept ≠ [] ∧
      codeunitName workItem affix = kept ++ ("Tests".toList ++ affix ++ "FDW".toList) ∧
      (∀ c ∈ codeunitName workItem affix, c.isAlphanum = true) ∧
      (codeunitName workItem affix).length ≤ 30 ∧
      (kept = stem ∨ (codeunitName workItem affix).length = 30) := by
  have hname := codeunitName_eq haffix workItem
  have hfits : (nameSuffix affix).length < maxObjectName := hroom
  have hlength : (codeunitName workItem affix).length =
      min (30 - (nameSuffix affix).length) (stem workItem).length + (nameSuffix affix).length := by
    rw [hname, List.length_append, keptStem, List.length_take, maxObjectName]
  refine ⟨stem workItem, keptStem workItem affix, isStemOf_iff.2 rfl, List.take_prefix _ _,
    keptStem_ne_nil hfits workItem, hname, fun _ => isAlphanum_of_mem_codeunitName haffix, ?_, ?_⟩
  · rw [maxObjectName] at hfits
    omega
  · by_cases hwhole : (stem workItem).length ≤ 30 - (nameSuffix affix).length
    · exact .inl (List.take_of_length_le hwhole)
    · rw [maxObjectName] at hfits
      exact .inr (by omega)

/-- A work item of which a name keeps a part of the third word. -/
def longWorkItem : String := "\t42 : «Größe» der Lieferantenliste prüfen"

theorem exists_codeunitName_eq_longWorkItem :
    (∀ c ∈ "18A2".toList, c.isAlphanum = true) ∧
      ("Tests".toList ++ "18A2".toList ++ "FDW".toList).length < 30 ∧
      codeunitName longWorkItem.toList "18A2".toList = "GreDerLieferantenlTests18A2FDW".toList ∧
      ∃ stem kept, IsStemOf longWorkItem.toList stem ∧ kept <+: stem ∧ kept ≠ [] ∧
        "GreDerLieferantenlTests18A2FDW".toList = kept ++ "Tests18A2FDW".toList := by
  have haffix : ∀ c ∈ "18A2".toList, c.isAlphanum = true := List.all_eq_true.1 (by decide)
  have hroom : ("Tests".toList ++ "18A2".toList ++ "FDW".toList).length < 30 := by decide
  have hname : codeunitName longWorkItem.toList "18A2".toList =
      "GreDerLieferantenlTests18A2FDW".toList := by decide +kernel
  obtain ⟨stem, kept, hstem, hprefix, hne, heq, -⟩ :=
    @exists_codeunitName_eq longWorkItem.toList _ haffix hroom
  exact ⟨haffix, hroom, hname, stem, kept, hstem, hprefix, hne, hname.symm.trans heq⟩

/-! ## Identifiers -/

/-- Capitals are made of letters. -/
theorem isAlpha_toUpper_iff {c : Char} (h : c.isAlphanum = true) :
    c.toUpper.isAlpha = true ↔ c.isDigit = false := by
  have key : ∀ n < 128, (Char.ofNat n).isAlphanum = true →
      ((Char.ofNat n).toUpper.isAlpha = true ↔ (Char.ofNat n).isDigit = false) := by decide
  exact ascii_induction (p := fun c => c.isAlphanum = true →
    (c.toUpper.isAlpha = true ↔ c.isDigit = false)) key (toNat_lt_of_isAlphanum h) h

/-- A text of letters and digits is an identifier if it starts with a letter. -/
theorem isIdentifier_iff_of_isAlphanum {s : List Char} (h : ∀ c ∈ s, c.isAlphanum = true) :
    isIdentifier s = true ↔ s.head?.any Char.isAlpha = true := by
  cases s with
  | nil => simp [isIdentifier]
  | cons c s =>
    have hlow : (c == '_') = false := beq_eq_false_iff_ne.2 <| by
      rintro rfl
      exact absurd (h '_' List.mem_cons_self) (by decide)
    have hrest : s.all isPlainNameChar = true := List.all_eq_true.2 fun d hd =>
      isPlainNameChar_of_isAlphanum (h d (List.mem_cons_of_mem c hd))
    rw [isIdentifier_cons, hlow, hrest, Bool.or_false, Bool.and_true, List.head?_cons, Option.any_some]

theorem head?_stem (workItem : List Char) : (stem workItem).head? =
    some ((((withoutNumber (trim workItem)).find? Char.isAlphanum).map Char.toUpper).getD 'A') := by
  rw [← head?_pascalCase _ 2, stem]
  cases pascalCase (withoutNumber (trim workItem)) 3 <;> rfl

/-- A derived name is an identifier unless the title starts with a digit, marks left aside. -/
theorem isIdentifier_codeunitName_iff {workItem affix : List Char}
    (haffix : ∀ c ∈ affix, c.isAlphanum = true) (hroom : (nameSuffix affix).length < maxObjectName) :
    isIdentifier (codeunitName workItem affix) = true ↔
      ∀ c ∈ (withoutNumber (trim workItem)).find? Char.isAlphanum, c.isDigit = false := by
  have hhead : (codeunitName workItem affix).head? = (stem workItem).head? := by
    rw [codeunitName_eq haffix, List.head?_append_of_ne_nil _ (keptStem_ne_nil hroom workItem),
      head?_keptStem hroom]
  rw [isIdentifier_iff_of_isAlphanum fun _ => isAlphanum_of_mem_codeunitName haffix, hhead, head?_stem,
    Option.any_some]
  cases hfind : (withoutNumber (trim workItem)).find? Char.isAlphanum with
  | none => exact ⟨fun _ => by rintro c ⟨⟩, fun _ => rfl⟩
  | some c =>
    rw [Option.map_some, Option.getD_some, isAlpha_toUpper_iff (List.find?_some hfind)]
    exact ⟨fun h d hd => Option.some.inj hd ▸ h, fun h => h c rfl⟩

end Naming

namespace Options

open Naming

/-- The name of a codeunit can stand without quotes if it is given, or else unless the first ASCII letter
or digit of the title of the work item is a digit. -/
theorem isIdentifier_nameFor_iff {o : Options} (h : o.validate = .ok ()) (m : Metadata) :
    ∃ title, IsTitleOf (trim m.workItem.toList) title ∧
      (isIdentifier (o.nameFor m).toList = true ↔
        o.codeunitName.isSome = true ∨ ∀ c ∈ title.find? Char.isAlphanum, c.isDigit = false) := by
  obtain ⟨hname, -, haffix, hroom⟩ := spec_of_validate h
  refine ⟨_, isTitleOf_iff.2 rfl, ?_⟩
  unfold nameFor
  cases hc : o.codeunitName with
  | some name => exact iff_of_true (hname name hc).1 (.inl rfl)
  | none =>
    rw [(isPlain_nameSuffix haffix).byteLength_eq] at hroom
    simp only [String.toList_ofList, isIdentifier_codeunitName_iff (List.all_eq_true.1 haffix) hroom,
      Option.isSome_none, Bool.false_eq_true, false_or]

/-- A work item whose title starts with a mark and holds a digit. -/
def markedWorkItem : Metadata := { workItem := "12 - «Card» for 3D printers" }

theorem isIdentifier_nameFor_markedWorkItem :
    ({} : Options).validate = .ok () ∧
      isIdentifier (({} : Options).nameFor markedWorkItem).toList = true := by
  obtain ⟨title, htitle, hiff⟩ := isIdentifier_nameFor_iff (o := {}) rfl markedWorkItem
  have hfirst : title.find? Char.isAlphanum = some 'C' := by
    rw [isTitleOf_iff.1 htitle]
    decide
  refine ⟨rfl, hiff.2 (.inr fun c hc => ?_)⟩
  rw [hfirst] at hc
  cases hc
  rfl

/-- The name for a title that starts with a digit does so too. -/
theorem not_isIdentifier_nameFor :
    ({} : Options).validate = .ok () ∧
      ({} : Options).nameFor { workItem := "3D printing" } = "3dPrintingTests182FDW" ∧
      isIdentifier "3dPrintingTests182FDW".toList = false := by
  decide

end Options

end Acceptance
