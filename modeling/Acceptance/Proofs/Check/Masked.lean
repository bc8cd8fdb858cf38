import Mathlib.Data.List.Basic
import Mathlib.Data.Option.Basic
import Acceptance.Check.ObjectName
import Acceptance.Check.Usage
import Acceptance.Proofs.Codeunit.Whole
import Acceptance.Proofs.Text.Reader
import Acceptance.Proofs.Text.Search

/-!
# What the checks of the masked view find in generated code

Three checks search the masked view. They are ruled out line by line: no equals sign has the word
for a forbidden setting behind it, no blank has a digit behind it but in the first line, and the
lines of a test have no word that a call of Commit could start with. The only object declared is the
codeunit itself, and its name is short.

Main results:

* `permissions_code`: nothing sets TestPermissions.
* `objectLength_code`: the name of the codeunit is the only one, and fits.
* `commit_code`: no test calls Commit.
-/

namespace Acceptance

open Text Source CodeLine

/-! ## Settings -/

namespace Check

/-- Whether no equals sign of a line may stand before the value of a forbidden setting: behind each
one the line goes on with another letter than that of the value. -/
def endsSettings (line : List Char) : Bool :=
  line.tails.all fun t =>
    t.head? != some '=' || (skipBlanks t.tail).head?.any fun c => foldLetter c != 'd'

theorem endsSettings_of_not_mem {line : List Char} (h : '=' ∉ line) : endsSettings line = true := by
  refine List.all_eq_true.2 fun t ht => ?_
  rw [Bool.or_eq_true]
  refine .inl (bne_iff_ne.2 fun he => h ?_)
  exact ((List.mem_tails _ _).1 ht).mem (List.mem_of_mem_head? he)

/-- Blanks may be skipped in a part of a text that has another character. -/
theorem skipBlanks_append {s : List Char} {c : Char} (h : (skipBlanks s).head? = some c)
    (t : List Char) : skipBlanks (s ++ t) = skipBlanks s ++ t := by
  induction s with
  | nil => cases h
  | cons d s ih =>
    unfold skipBlanks at h ih ⊢
    rw [List.dropWhile_cons] at h ⊢
    rw [List.cons_append, List.dropWhile_cons]
    split_ifs at h ⊢
    · exact ih h
    · rfl

/-- A forbidden setting has an equals sign with the value behind it. -/
theorem exists_of_disabledPermissions? {b : Option Char} {t : List Char} {found : Unit × List Char}
    (h : disabledPermissions? b t = some found) :
    ∃ behind rest, '=' :: behind <:+ t ∧
      keyword? "disabled".toList (skipBlanks behind) = some rest := by
  simp only [disabledPermissions?, Option.bind_eq_bind, Option.bind_eq_some_iff] at h
  obtain ⟨-, -, r, hname, behind, hsign, rest, hvalue, -⟩ := h
  refine ⟨behind, rest, ?_, hvalue⟩
  rw [← char?_eq_some_iff.1 hsign]
  exact (List.dropWhile_suffix isBlank).trans (keyword?_suffix hname)

/-- The value of a forbidden setting does not stand behind an equals sign of such a line. -/
theorem keyword?_disabled_eq_none {line behind : List Char} (h : endsSettings line = true)
    (hsign : '=' :: behind <:+ line) (later : List Char) :
    keyword? "disabled".toList (skipBlanks (behind ++ later)) = none := by
  have hq := List.all_eq_true.1 h _ ((List.mem_tails _ _).2 hsign)
  have hhead : ∃ c, (skipBlanks behind).head? = some c ∧ foldLetter c ≠ 'd' := by
    simpa [Option.any_eq_true] using hq
  obtain ⟨c, hc, hne⟩ := hhead
  obtain ⟨s, hs⟩ := List.head?_eq_some_iff.1 hc
  have hletter : ¬ (foldLetter c == 'd') = true := mt beq_iff_eq.1 hne
  have hword : "disabled".toList = 'd' :: "isabled".toList := by decide
  rw [skipBlanks_append hc, hs, List.cons_append, hword, keyword?, if_neg hletter]

theorem disabledPermissions?_eq_none {lines : List (List Char)}
    (h : ∀ line ∈ lines, endsSettings line = true) (b : Option Char) {t : List Char}
    (ht : t <:+ joinLines lines) : disabledPermissions? b t = none := by
  by_contra hne
  obtain ⟨found, hfound⟩ := Option.ne_none_iff_exists'.1 hne
  obtain ⟨behind, rest, hsign, hvalue⟩ := exists_of_disabledPermissions? hfound
  rcases suffix_joinLines (hsign.trans ht) with he | ⟨line, hline, u, later, hu, he⟩
  · cases he
  cases u with
  | nil => exact absurd (List.cons.inj he).1 (by decide)
  | cons e v =>
    obtain ⟨rfl, rfl⟩ := List.cons.inj he
    have hnone := keyword?_disabled_eq_none (h line hline) hu ('\n' :: later)
    exact absurd (hvalue.symm.trans hnone) (Option.some_ne_none rest)

/-! ## Numbers -/

/-- Whether a blank and a digit stand in a row. -/
def isNumberStart (before : Option Char) (c : Char) : Bool := before.any isBlank && isDigit c

/-- A declaration of an object has a number behind a blank. -/
theorem objectName?_eq_none {b : Option Char} {t : List Char} {last : Option Char}
    (h : anyPair isNumberStart last t = false) : objectName? b t = none := by
  cases ho : objectName? b t with
  | none => rfl
  | some found =>
    exfalso
    simp only [objectName?, Option.bind_eq_bind, Option.bind_eq_some_iff] at ho
    obtain ⟨-, -, ⟨word, r1⟩, h1, r2, h2, ⟨digits, r3⟩, h3, -⟩ := ho
    obtain ⟨start, -, rfl⟩ := keyword?_eq_some_iff.1 (anyKeyword?_mem h1).2
    obtain ⟨blanks, rfl, hne, hblank, -⟩ := blanks?_eq_some_iff_append.1 h2
    obtain ⟨rfl, hdigits, hdigit, -⟩ := run?_eq_some_iff.1 h3
    -- the digit right behind the blanks
    obtain ⟨d, s, rfl⟩ := List.exists_cons_of_ne_nil hdigits
    have he : isBlank (blanks.getLast hne) = true := hblank _ (List.getLast_mem hne)
    have hd : isDigit d = true := hdigit d List.mem_cons_self
    have hlast : (start ++ blanks).getLast? = some (blanks.getLast hne) := by
      rw [List.getLast?_append_of_ne_nil _ hne, List.getLast?_eq_some_getLast hne]
    rw [← List.append_assoc, anyPair_append, Bool.or_eq_false_iff, hlast, List.cons_append, anyPair,
      isNumberStart] at h
    simp [he, hd] at h

/-! ## Calls of Commit -/

/-- Whether a call of Commit may start with a character behind another one. -/
def isCommitStart (before : Option Char) (c : Char) : Bool := isEdge before && foldLetter c == 'c'

theorem commitCall?_eq_none {b : Option Char} {c : Char} (h : isCommitStart b c = false)
    (s : List Char) : commitCall? b (c :: s) = none := by
  cases hc : commitCall? b (c :: s) with
  | none => rfl
  | some found =>
    exfalso
    simp only [commitCall?, Option.bind_eq_bind, Option.bind_eq_some_iff] at hc
    obtain ⟨_, hg, r1, h1, -⟩ := hc
    have he : isEdge b = true := by
      by_contra hne
      rw [guard, if_neg hne] at hg
      cases hg
    have hw : "commit".toList = 'c' :: "ommit".toList := by decide
    rw [hw, keyword?] at h1
    split_ifs at h1 with hf
    rw [isCommitStart, he, hf] at h
    cases h

end Check

open Check

/-! ## Lines of generated code -/

/-- What the searches need to know of a masked line. -/
structure IsQuiet (line : List Char) : Prop where
  settings : endsSettings line = true
  numbers : anyPair isNumberStart (some '\n') line = false

instance (line : List Char) : Decidable (IsQuiet line) :=
  decidable_of_iff (endsSettings line = true ∧ anyPair isNumberStart (some '\n') line = false)
    ⟨fun h => ⟨h.1, h.2⟩, fun h => ⟨h.settings, h.numbers⟩⟩

/-- A text without digits starts no number, whatever stands before it. -/
theorem isNumberStart_of_no_digit {s : List Char} (h : s.any isDigit = false)
    (before : Option Char) : anyPair isNumberStart before s = false := by
  refine anyPair_of_never (fun c hc b => ?_) before
  rw [isNumberStart, eq_false_of_ne_true (List.any_eq_false.1 h c hc), Bool.and_false]

theorem isQuiet_spaces (n : ℕ) : IsQuiet (List.replicate n ' ') where
  settings := endsSettings_of_not_mem fun h => absurd (List.eq_of_mem_replicate h) (by decide)
  numbers := by
    refine isNumberStart_of_no_digit (List.any_eq_false.2 fun c hc => ?_) _
    rw [List.eq_of_mem_replicate hc]
    decide

/-- Where only the first character of a name could have a property with the one before it. -/
theorem anyPair_name {p : Option Char → Char → Bool}
    (hp : ∀ e c, isPlainNameChar e = true → p (some e) c = false) {d : Char} {rest : List Char}
    (h : IsPlain (d :: rest)) {before : Option Char} (hd : p before d = false) :
    anyPair p before (d :: rest) = false := by
  refine anyPair_eq_false ?_ fun e he c _ => hp e c (h e he)
  rintro c ⟨⟩
  exact hd

theorem isNumberStart_name {d : Char} {rest : List Char} (h : IsPlain (d :: rest))
    (hd : isDigit d = false) (before : Option Char) :
    anyPair isNumberStart before (d :: rest) = false := by
  refine anyPair_name (fun e c he => ?_) h ?_
  · rw [isNumberStart, Option.any_some, not_isBlank_of_plain he, Bool.false_and]
  · rw [isNumberStart, hd, Bool.and_false]

theorem not_mem_of_isPlain {name : List Char} (h : IsPlain name) {m : Char} (hm : isMark m = true) :
    m ∉ name := fun hc => ne_of_plain (h m hc) hm rfl

theorem isQuiet_procedureLine {rest : List Char} (h : IsPlain ('T' :: rest)) :
    IsQuiet (procedureLine ('T' :: rest)) where
  settings := by
    refine endsSettings_of_not_mem fun hm => ?_
    unfold procedureLine at hm
    rw [List.mem_append, List.mem_append] at hm
    rcases hm with hm | hm | hm
    · exact absurd hm (by decide)
    · exact not_mem_of_isPlain h (by decide) hm
    · exact absurd hm (by decide)
  numbers := by
    have front : "    procedure ".toList.any isDigit = false := by decide
    have behind : "()".toList.any isDigit = false := by decide
    unfold procedureLine
    rw [anyPair_append, anyPair_append, isNumberStart_of_no_digit front,
      isNumberStart_name h (by decide), isNumberStart_of_no_digit behind]
    rfl

theorem isQuiet_libraryLine {name : List Char} (h : Naming.isIdentifier name = true) :
    IsQuiet (libraryLine name) := by
  obtain ⟨hp, hne⟩ := isPlain_of_isIdentifier h
  obtain ⟨d, rest, rfl⟩ := List.exists_cons_of_ne_nil hne
  have hd : isDigit d = false := by
    have key : ∀ n < 128, ((Char.ofNat n).isAlpha || Char.ofNat n == '_') = true →
        isDigit (Char.ofNat n) = false := by
      decide
    rw [Naming.isIdentifier, Bool.and_eq_true] at h
    exact ascii_induction (p := fun c => (c.isAlpha || c == '_') = true → isDigit c = false) key
      (toNat_lt_of_isPlainNameChar (hp d List.mem_cons_self)) h.1
  have hl : libraryLine (d :: rest) = List.replicate 8 ' ' ++
      ((d :: rest) ++ (": Codeunit ".toList ++ ((d :: rest) ++ ";".toList))) := by
    have : ": Codeunit ".toList = ':' :: " Codeunit ".toList := by decide
    rw [this]
    rfl
  constructor
  · refine endsSettings_of_not_mem fun hm => ?_
    rw [hl, List.mem_append, List.mem_append, List.mem_append, List.mem_append] at hm
    rcases hm with hm | hm | hm | hm | hm
    · exact absurd (List.eq_of_mem_replicate hm) (by decide)
    · exact not_mem_of_isPlain hp (by decide) hm
    · exact absurd hm (by decide)
    · exact not_mem_of_isPlain hp (by decide) hm
    · exact absurd hm (by decide)
  · have front : (List.replicate 8 ' ').any isDigit = false := by decide
    have middle : ": Codeunit ".toList.any isDigit = false := by decide
    have behind : ";".toList.any isDigit = false := by decide
    rw [hl, anyPair_append, anyPair_append, anyPair_append, anyPair_append,
      isNumberStart_of_no_digit front, isNumberStart_name hp hd, isNumberStart_of_no_digit middle,
      isNumberStart_name hp hd, isNumberStart_of_no_digit behind]
    rfl

/-! ## Searching generated code -/

namespace Codeunit

variable {c : Codeunit}

theorem isQuiet_later (h : c.IsSound) {l : CodeLine} (hl : l ∈ c.later) : IsQuiet (mask l.raw) := by
  have fixed : ∀ l ∈ TestProcedure.fixedLines ++ fixedLines, IsQuiet (mask l.raw) :=
    CodeLine.forall_raw (fun row => IsQuiet (mask row))
      ⟨_, by repeat' constructor, by decide +kernel⟩
  obtain ⟨hp, -⟩ := isPlain_of_isIdentifier h.library
  cases mem_later h hl with
  | library hr =>
    rw [hr, mask_bare (isBare_libraryLine hp)]
    exact isQuiet_libraryLine h.library
  | test rest ht hr =>
    rw [hr, mask_bare (isBare_procedureLine ht)]
    exact isQuiet_procedureLine ht
  | remark content hc =>
    obtain ⟨n, hn⟩ := hc.exists_mask_raw
    exact hn ▸ isQuiet_spaces n
  | fixed hf => exact fixed l hf

/-- The masked view of generated code: the line of the codeunit and the lines behind it. -/
theorem masked_code (h : c.IsSound) :
    (Analysis.ofString c.code).source.masked = objectLine c.id.toNat c.name.toList ++
      '\n' :: joinLines ((raws c.later).map mask) := by
  rw [ofString_code, Analysis.source_ofChars, masked_ofChars,
    mask_join fun line hl => (isPlainLine_lines h line hl).whole, raws_lines h, List.map_cons,
    joinLines_cons, mask_bare (isBare_objectLine h.name _)]

theorem quiet_later (h : c.IsSound) : ∀ line ∈ (raws c.later).map mask, IsQuiet line := by
  intro line hline
  obtain ⟨raw, hraw, rfl⟩ := List.mem_map.1 hline
  obtain ⟨l, hl, rfl⟩ := List.mem_map.1 hraw
  exact isQuiet_later h hl

theorem permissions_code (h : c.IsSound) : permissions (Analysis.ofString c.code) = [] := by
  have first : endsSettings (objectLine c.id.toNat c.name.toList) = true := by
    refine endsSettings_of_not_mem fun hm => ?_
    unfold objectLine at hm
    rw [List.mem_append, List.mem_append, List.mem_cons] at hm
    rcases hm with hm | hm | hm | hm
    · exact absurd hm (by decide)
    · exact not_mem_of_isPlain (isPlain_toDigits _) (by decide) hm
    · exact absurd hm (by decide)
    · exact not_mem_of_isPlain h.name (by decide) hm
  have all : ∀ line ∈ objectLine c.id.toNat c.name.toList :: (raws c.later).map mask,
      endsSettings line = true := by
    intro line hl
    rcases List.mem_cons.1 hl with rfl | hl
    · exact first
    · exact (quiet_later h line hl).settings
  rw [permissions, masked_code h, ← joinLines_cons,
    allMatches_eq_nil fun b _ ht _ => disabledPermissions?_eq_none all b ht]
  rfl

/-- At the start of the code stands the declaration of the codeunit. -/
theorem objectName?_objectLine {name : List Char} (hn : IsPlain name) (hne : name ≠ []) (id : ℕ)
    (rest : List Char) :
    objectName? none (objectLine id name ++ '\n' :: rest) = some (name, '\n' :: rest) := by
  have hdigits : ∀ d ∈ Nat.toDigits 10 id, isDigit d = true := fun d hd =>
    isDigit_of_isAsciiDigit (isAsciiDigit_of_isDigit (isDigit_of_mem_toDigits hd))
  have hskip : ∀ {s : List Char}, s ≠ [] → IsPlain s → ∀ t, skipBlanks (s ++ t) = s ++ t := by
    intro s hs hp t
    obtain ⟨d, s, rfl⟩ := List.exists_cons_of_ne_nil hs
    exact skipBlanks_cons (not_isBlank_of_plain (hp d List.mem_cons_self)) _
  have hnumber : blanks? (' ' :: (Nat.toDigits 10 id ++ ' ' :: (name ++ '\n' :: rest))) =
      some (Nat.toDigits 10 id ++ ' ' :: (name ++ '\n' :: rest)) := by
    rw [blanks?, if_pos (by rfl), hskip Nat.toDigits_ne_nil (isPlain_toDigits id)]
  have hrun : run? isDigit (Nat.toDigits 10 id ++ ' ' :: (name ++ '\n' :: rest)) =
      some (Nat.toDigits 10 id, ' ' :: (name ++ '\n' :: rest)) := by
    refine run?_append Nat.toDigits_ne_nil hdigits ?_
    rintro c ⟨⟩
    rfl
  have hname : blanks? (' ' :: (name ++ '\n' :: rest)) = some (name ++ '\n' :: rest) := by
    rw [blanks?, if_pos (by rfl), hskip hne hn]
  have hquoted : quotedName? (name ++ '\n' :: rest) = none := by
    obtain ⟨d, name, rfl⟩ := List.exists_cons_of_ne_nil hne
    have hd : d ≠ '"' := ne_of_plain (hn d List.mem_cons_self) rfl
    rw [List.cons_append, quotedName?]
    exact fun _ he => absurd (List.cons.inj he).1 hd
  have hplain : run? isNameChar (name ++ '\n' :: rest) = some (name, '\n' :: rest) := by
    refine run?_append hne (fun c hc => (plain_spec (hn c hc)).2.1) ?_
    rintro c ⟨⟩
    rfl
  have hword : anyKeyword? objectKeywords (objectLine id name ++ '\n' :: rest) =
      some ("codeunit".toList, ' ' :: (Nat.toDigits 10 id ++ ' ' :: (name ++ '\n' :: rest))) := by
    have hl : objectLine id name ++ '\n' :: rest =
        "codeunit ".toList ++ (Nat.toDigits 10 id ++ ' ' :: (name ++ '\n' :: rest)) := by
      unfold objectLine
      rw [List.append_assoc, List.append_assoc, List.cons_append]
    rw [hl]
    rfl
  have hedge : (guard (isEdge none = true) : Option Unit) = some () := rfl
  unfold objectName?
  rw [hword, hedge]
  simp only [Option.bind_eq_bind, Option.bind_some, hnumber, hrun, hname, hquoted,
    Option.orElse_none, hplain]

theorem allMatches_objectName? (h : c.IsSound) :
    allMatches objectName? (Analysis.ofString c.code).source.masked = [(0, c.name.toList)] := by
  have hfirst := objectName?_objectLine h.name h.name_ne_nil c.id.toNat
    (joinLines ((raws c.later).map mask))
  obtain ⟨d, line, hline⟩ : ∃ d line, objectLine c.id.toNat c.name.toList = d :: line :=
    ⟨'c', _, rfl⟩
  have quiet : ∀ lines : List (List Char), (∀ line ∈ lines, IsQuiet line) → ∀ b,
      anyPair isNumberStart b ('\n' :: joinLines lines) = false := by
    intro lines
    induction lines with
    | nil =>
      intro _ b
      exact isNumberStart_of_no_digit (by decide) b
    | cons l lines ih =>
      intro hl b
      have hf : isNumberStart b '\n' = false := by
        rw [isNumberStart, show isDigit '\n' = false by decide, Bool.and_false]
      rw [anyPair, hf, joinLines_cons, anyPair_append, (hl l List.mem_cons_self).numbers,
        ih fun k hk => hl k (List.mem_cons_of_mem _ hk)]
      rfl
  rw [masked_code h]
  rw [hline, List.cons_append] at hfirst ⊢
  rw [allMatches, matchesFrom, hfirst]
  obtain ⟨later, last, hskip⟩ := matchesFrom_skip (0 + d.utf8Size) (some d) line
    ('\n' :: joinLines ((raws c.later).map mask))
  have hlen : (line ++ '\n' :: joinLines ((raws c.later).map mask)).length -
      ('\n' :: joinLines ((raws c.later).map mask)).length = line.length := by
    rw [List.length_append]
    omega
  simp only [hlen]
  rw [hskip, matchesFrom_eq_nil]
  intro b t ht _
  obtain ⟨e, he⟩ := anyPair_of_suffix ht (quiet _ (quiet_later h) none)
  exact objectName?_eq_none he

theorem bareName_of_isPlain {name : List Char} (hn : IsPlain name) (hne : name ≠ []) :
    bareName name = name := by
  have hf : name.filter (fun c => !(c == '"' || c == '\'')) = name := by
    refine List.filter_eq_self.2 fun d hd => ?_
    have h1 : d ≠ '"' := ne_of_plain (hn d hd) rfl
    have h2 : d ≠ '\'' := ne_of_plain (hn d hd) rfl
    simp [h1, h2]
  obtain ⟨start, e, he⟩ := (List.eq_nil_or_concat name).resolve_left hne
  obtain ⟨d, rest, hd⟩ := List.exists_cons_of_ne_nil hne
  have hs : skipBlanks name = name := by
    rw [hd]
    exact skipBlanks_cons (not_isBlank_of_plain (hn d (hd ▸ List.mem_cons_self))) rest
  rw [bareName, hf, trim_eq_trimEnd_trimStart, hs, he, List.concat_eq_append]
  refine trimEnd_concat (not_isBlank_of_plain (hn e ?_)) start
  rw [he, List.concat_eq_append]
  exact List.mem_append_right _ List.mem_cons_self

theorem objectLength_code (h : c.IsSound) : objectLength (Analysis.ofString c.code) = [] := by
  refine objectLength_eq_nil_iff.2 fun m hm => ?_
  rw [allMatches_objectName? h, List.mem_singleton] at hm
  rw [hm, bareName_of_isPlain h.name h.name_ne_nil]
  exact h.name_length

/-! ## Calls of Commit -/

theorem allMatches_commit_procedureLine {rest : List Char} (h : IsPlain ('T' :: rest)) :
    allMatches commitCall? (procedureLine ('T' :: rest)) = [] := by
  have front : anyPair isCommitStart none "    procedure ".toList = false := by decide
  have name : ∀ before, anyPair isCommitStart before ('T' :: rest) = false := by
    intro before
    refine anyPair_name (fun e c he => ?_) h ?_
    · rw [isCommitStart, isEdge, Option.any_some, (plain_spec he).2.2.1]
      rfl
    · rw [isCommitStart, show (foldLetter 'T' == 'c') = false by decide, Bool.and_false]
  have behind : ∀ before, anyPair isCommitStart before "()".toList = false := by
    have hc : "()".toList.any (foldLetter · == 'c') = false := by decide
    refine anyPair_of_never fun c hm b => ?_
    rw [isCommitStart, eq_false_of_ne_true (List.any_eq_false.1 hc c hm), Bool.and_false]
  refine allMatches_eq_nil_of_anyPair (p := isCommitStart)
    (fun b c s hp => commitCall?_eq_none hp s) ?_
  unfold procedureLine
  rw [anyPair_append, anyPair_append, front, name, behind]
  rfl

theorem allMatches_commit_spaces (n : ℕ) :
    allMatches commitCall? (List.replicate n ' ') = [] := by
  refine allMatches_eq_nil_of_anyPair (p := isCommitStart)
    (fun b c s hp => commitCall?_eq_none hp s) (anyPair_of_never (fun c hc b => ?_) none)
  rw [List.eq_of_mem_replicate hc, isCommitStart, show (foldLetter ' ' == 'c') = false by decide,
    Bool.and_false]

/-- No line of a test calls Commit. -/
theorem allMatches_commit_test {t : TestProcedure} (h : t.IsSound) {l : CodeLine}
    (hl : l ∈ t.lines) : allMatches commitCall? (mask l.raw) = [] := by
  have fixed : ∀ l ∈ TestProcedure.fixedLines, allMatches commitCall? (mask l.raw) = [] :=
    CodeLine.forall_raw (fun row => allMatches commitCall? (mask row) = [])
      ⟨_, by repeat' constructor, by decide +kernel⟩
  rcases TestProcedure.mem_lines h hl with rfl | ⟨content, hc⟩ | hf
  · obtain ⟨rest, hn, hp⟩ := h.name
    rw [TestProcedure.header, raw_procedureLine, hn, mask_bare (isBare_procedureLine hp)]
    exact allMatches_commit_procedureLine hp
  · obtain ⟨n, hn⟩ := hc.exists_mask_raw
    rw [hn]
    exact allMatches_commit_spaces n
  · exact fixed l hf

theorem commit_code (h : c.IsSound) : commit (Analysis.ofString c.code) = [] := by
  rw [commit, tests_code h, lines_code h]
  refine List.flatMap_eq_nil_iff.2 fun r hr => (testCommits_eq_nil_iff _ _).2 fun line hm hl => ?_
  obtain ⟨p, hp, rfl⟩ := List.mem_map.1 hr
  have hlines := (shows_lines h).lines p (mem_shown_of_mem_shownFrom hp)
  obtain ⟨t, ht, n, rfl⟩ := TestProcedure.mem_shownFrom hp
  have hline : line ∈ (t.shown n).2 := by
    rw [hlines]
    exact List.mem_filter.2 ⟨hm, hl⟩
  obtain ⟨l, hl, -, hmask⟩ := TestProcedure.mem_shown_lines hline
  rw [hmask]
  exact allMatches_commit_test (h.tests t ht) hl

end Codeunit

end Acceptance
