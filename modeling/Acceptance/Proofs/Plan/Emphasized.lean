import Mathlib.Data.List.Basic
import Acceptance.Proofs.Markup.Border
import Acceptance.Proofs.Plan.Break
import Acceptance.Proofs.Plan.Number

/-!
# Emphasis in the heading of a scenario

The heading of a scenario may be emphasized as a whole or in part. Marks in front of its first word, in
its title and around its title do not change what is read. Low lines in front of the colon belong to
the token, which gives the same number. Stars in front of the colon do not: they end the token, so the
colon behind them is taken for the start of the title.

Main results:

* `Heading.ofLine?_eq`: the parts of a heading.
* `Plan.read_emphasized`: the number and the title of a heading with emphasis.
* `Plan.read_stars_before_colon`: a colon that is read as a part of the title.
-/

namespace Acceptance

open Text Markup

/-! ## Specification -/

/-- Where the emphasis stands in a heading. -/
inductive Placement where
  | around
  | behindColon
  | beforeColon
  | aroundTitle
  | nowhere
  deriving Repr, DecidableEq

namespace Placement

/-- The text of the heading. -/
def text (mark : String) (n : ℕ) (title : String) : Placement → String
  | around => s!"{mark}Scenario {n}: {title}{mark}"
  | behindColon => s!"{mark}Scenario {n}:{mark} {title}"
  | beforeColon => s!"{mark}Scenario {n}{mark}: {title}"
  | aroundTitle => s!"Scenario {n}: {mark}{title}{mark}"
  | nowhere => s!"Scenario {n}: {title}"

/-- Whether a colon is read as a part of the title. -/
def KeepsColon (p : Placement) (mark : String) : Prop := p = beforeColon ∧ mark ∈ ["*", "**"]

instance (p : Placement) (mark : String) : Decidable (p.KeepsColon mark) := by
  unfold KeepsColon
  infer_instance

/-- The title that is read. -/
def shown (mark title : String) (p : Placement) : String :=
  if p.KeepsColon mark then ": " ++ title else title

end Placement

/-- The marks of emphasis. -/
def emphasisMarks : List String := ["*", "**", "_", "__"]

/-- Whether a line is a heading with the given content: one to six hash signs behind at most three
blanks, and blanks or nothing in front of the content. -/
def IsHeadingOf (content line : List Char) : Prop :=
  ∃ indent level gap, line = indent ++ (List.replicate level '#' ++ (gap ++ content)) ∧
    allBlank indent = true ∧ indent.length ≤ 3 ∧ 1 ≤ level ∧ level ≤ 6 ∧ allBlank gap = true

/-- Whether a title is made of ASCII letters, digits and inner spaces. -/
structure IsSimpleTitle (title : List Char) : Prop where
  ne_nil : title ≠ []
  simple : ∀ c ∈ title, c.isAlphanum = true ∨ c = ' '
  first : title.head? ≠ some ' '
  last : title.getLast? ≠ some ' '

/-! ## The parts of a heading -/

theorem hashes?_eq {indent gap content : List Char} {level : ℕ} (hindent : allBlank indent = true)
    (hlength : indent.length ≤ 3) (hlevel : 1 ≤ level ∧ level ≤ 6) (hgap : allBlank gap = true)
    (hcontent : ∀ c ∈ content.head?, c ≠ '#') :
    hashes? (indent ++ (List.replicate level '#' ++ (gap ++ content))) =
      some (level, gap ++ content) := by
  obtain ⟨n, rfl⟩ := Nat.exists_eq_add_of_le' hlevel.1
  have hfirst : ∀ c ∈ (gap ++ content).head?, c ≠ '#' := by
    cases gap with
    | nil => exact hcontent
    | cons d gap =>
      rintro c ⟨⟩ rfl
      have := List.all_eq_true.1 hgap '#' List.mem_cons_self
      cases this
  have hskip : skipBlanks (indent ++ (List.replicate (n + 1) '#' ++ (gap ++ content))) =
      List.replicate (n + 1) '#' ++ (gap ++ content) :=
    skipBlanks_append_cons hindent (by decide) _
  have htake : (indent ++ (List.replicate (n + 1) '#' ++ (gap ++ content))).takeWhile isBlank =
      indent := by
    rw [List.takeWhile_append_of_pos (List.all_eq_true.1 hindent), List.replicate_succ,
      List.cons_append, List.takeWhile_cons_of_neg (by decide), List.append_nil]
  have hhashes : ∀ c ∈ List.replicate (n + 1) '#', (c == '#') = true := fun c hc =>
    beq_iff_eq.2 (List.eq_of_mem_replicate hc)
  have hcontent' : (gap ++ content).takeWhile (· == '#') = [] ∧
      (gap ++ content).dropWhile (· == '#') = gap ++ content := by
    cases hs : gap ++ content with
    | nil => exact ⟨rfl, rfl⟩
    | cons c s =>
      have hc : (c == '#') = false := beq_eq_false_iff_ne.2 (hfirst c (by rw [hs]; rfl))
      exact ⟨List.takeWhile_cons_of_neg (by simp [hc]), List.dropWhile_cons_of_neg (by simp [hc])⟩
  unfold hashes?
  simp only [hskip, htake, List.takeWhile_append_of_pos hhashes, hcontent'.1, List.append_nil,
    List.length_replicate, List.dropWhile_append_of_pos hhashes, hcontent'.2]
  exact if_pos ⟨hlength, hlevel⟩

/-- The parts of a heading with marks in front of its first word. -/
theorem Heading.ofLine?_eq {line opening token rest : List Char}
    (hopening : ∀ c ∈ opening, c = '*' ∨ c = '_') (hne : token ≠ [])
    (htoken : ∀ c ∈ token, isNameChar c = true) (hfirst : ∀ c ∈ token.head?, isBlank c = false)
    (hrest : ∀ c ∈ rest.head?, isNameChar c = false)
    (h : IsHeadingOf (opening ++ ("Scenario ".toList ++ (token ++ rest))) line) :
    ∃ level, ofLine? line = some ⟨level, token, skipBlanks (skipSeparator (skipBlanks rest))⟩ := by
  obtain ⟨indent, level, gap, rfl, hindent, hlength, hlevel, hle, hgap⟩ := h
  refine ⟨level, ?_⟩
  have hhead : ∀ c ∈ (opening ++ ("Scenario ".toList ++ (token ++ rest))).head?,
      c ≠ '#' ∧ isBlank c = false := by
    cases opening with
    | nil => rintro c ⟨⟩; decide
    | cons d opening =>
      rintro c ⟨⟩
      rcases hopening d List.mem_cons_self with rfl | rfl <;> decide
  have hmarks : (opening ++ ("Scenario ".toList ++ (token ++ rest))).dropWhile
      (fun c => c == '*' || c == '_') = "Scenario ".toList ++ (token ++ rest) := by
    rw [List.dropWhile_append_of_pos fun c hc => by simpa using hopening c hc]
    rfl
  have hword : keyword? "scenario".toList (skipBlanks ("Scenario ".toList ++ (token ++ rest))) =
      some (' ' :: (token ++ rest)) := rfl
  have hblanks : blanks? (' ' :: (token ++ rest)) = some (token ++ rest) := by
    obtain ⟨d, more, rfl⟩ := List.exists_cons_of_ne_nil hne
    exact blanks?_space (hfirst d rfl) _
  rw [ofLine?, hashes?_eq hindent hlength ⟨hlevel, hle⟩ hgap fun c hc => (hhead c hc).1]
  simp only [Option.bind_eq_bind, Option.bind_some,
    skipBlanks_append_of_allBlank hgap fun c hc => (hhead c hc).2, hmarks, hword, hblanks,
    run?_append hne htoken hrest]
  rfl

/-! ## Titles -/

namespace IsSimpleTitle

variable {title : List Char}

theorem not_isBlank {c : Char} (h : c.isAlphanum = true ∨ c = ' ') (hspace : c ≠ ' ') :
    isBlank c = false :=
  not_isBlank_of_plain (isPlainNameChar_of_isAlphanum (h.resolve_right hspace))

theorem plain (h : IsSimpleTitle title) :
    ∀ c ∈ title, c ≠ '_' ∧ isDecoration c = false ∧ isLineEnd c = false := by
  have key : ∀ n < 128, (Char.ofNat n).isAlphanum = true → Char.ofNat n ≠ '_' ∧
      isDecoration (Char.ofNat n) = false ∧ isLineEnd (Char.ofNat n) = false := by
    decide
  intro c hc
  rcases h.simple c hc with hc | rfl
  · exact ascii_induction (p := fun c => c.isAlphanum = true →
      c ≠ '_' ∧ isDecoration c = false ∧ isLineEnd c = false) key (toNat_lt_of_isAlphanum hc) hc
  · decide

theorem isBorder_eq (h : IsSimpleTitle title) {c : Char} (hc : c ∈ title) (hspace : c ≠ ' ') :
    isBorder c = false := by
  rw [isBorder, not_isBlank (h.simple c hc) hspace, Bool.or_false]
  exact beq_eq_false_iff_ne.2 (h.plain c hc).1

theorem isKept (h : IsSimpleTitle title) : IsKept title where
  ne_nil := h.ne_nil
  plain := h.plain
  first := fun _ hc => h.isBorder_eq (List.mem_of_mem_head? hc) fun he => h.first (he ▸ hc)
  last := fun _ hc => h.isBorder_eq (List.mem_of_getLast? hc) fun he => h.last (he ▸ hc)

/-- A colon in front of a title would be kept too. -/
theorem isKept_colon (h : IsSimpleTitle title) : IsKept (": ".toList ++ title) where
  ne_nil := List.cons_ne_nil _ _
  plain := by
    have hcolon : ∀ c ∈ [':', ' '], c ≠ '_' ∧ isDecoration c = false ∧ isLineEnd c = false :=
      List.forall_mem_cons.2 ⟨by decide, List.forall_mem_singleton.2 (by decide)⟩
    exact fun c hc => (List.mem_append.1 hc).elim (hcolon c) (h.plain c)
  first := by
    rintro c ⟨⟩
    decide
  last := by
    intro c hc
    rw [List.getLast?_append_of_ne_nil _ h.ne_nil] at hc
    exact h.isKept.last c hc

theorem skipBlanks_eq (h : IsSimpleTitle title) (s : List Char) :
    skipBlanks (' ' :: (title ++ s)) = title ++ s := by
  obtain ⟨c, more, rfl⟩ := List.exists_cons_of_ne_nil h.ne_nil
  have hc : isBlank c = false :=
    not_isBlank (h.simple c List.mem_cons_self) fun he => h.first (he ▸ rfl)
  have hspace : allBlank [' '] = true := by decide
  exact skipBlanks_append_cons hspace hc _

end IsSimpleTitle

/-! ## Headings with emphasis -/

/-- What is read of a heading, where `low` are the low lines that belong to its token. -/
theorem Heading.exists_of_parts {line opening low rest front middle back : List Char} {n : UInt32}
    (hn : n ≠ 0) (hopening : ∀ c ∈ opening, c = '*' ∨ c = '_') (hlow : ∀ c ∈ low, c = '_')
    (hrest : ∀ c ∈ rest.head?, isNameChar c = false)
    (htitle : skipBlanks (skipSeparator (skipBlanks rest)) = front ++ middle ++ back)
    (hfront : ∀ c ∈ front, isFrame c = true) (hback : ∀ c ∈ back, isFrame c = true)
    (hmiddle : IsKept middle)
    (h : IsHeadingOf (opening ++
      ("Scenario ".toList ++ (Nat.toDigits 10 n.toNat ++ (low ++ rest)))) line) :
    ∃ heading, ofLine? line = some heading ∧ scenarioNumber? heading.token = some n ∧
      withoutMarkup heading.title = middle := by
  rw [← List.append_assoc (Nat.toDigits 10 n.toNat)] at h
  have hplain := isPlain_toDigits n.toNat
  have hdigits : Nat.toDigits 10 n.toNat ≠ [] := Nat.toDigits_ne_nil
  have htoken : ∀ c ∈ Nat.toDigits 10 n.toNat ++ low, isNameChar c = true := by
    intro c hc
    rcases List.mem_append.1 hc with hc | hc
    · exact (plain_spec (hplain c hc)).2.1
    · rw [hlow c hc]
      decide
  have hfirst : ∀ c ∈ (Nat.toDigits 10 n.toNat ++ low).head?, isBlank c = false := by
    intro c hc
    rw [List.head?_append_of_ne_nil _ hdigits] at hc
    exact not_isBlank_of_plain (hplain c (List.mem_of_mem_head? hc))
  have hwrites : WritesNumber (Nat.toDigits 10 n.toNat ++ low) n.toNat := by
    refine ⟨[], Nat.toDigits 10 n.toNat, low, rfl, by decide, hdigits,
      fun c hc => isAsciiDigit_of_isDigit (isDigit_of_mem_toDigits hc), fun c hc => ?_,
      Nat.ofDigitChars_ten_toDigits⟩
    rw [hlow c (List.mem_of_mem_head? hc)]
    decide
  obtain ⟨level, hline⟩ := ofLine?_eq hopening (List.append_ne_nil_of_left_ne_nil hdigits low) htoken
    hfirst hrest h
  refine ⟨_, hline, scenarioNumber?_eq_some_iff.2 ⟨hwrites, hn⟩, ?_⟩
  rw [htitle]
  exact withoutMarkup_append hfront hback hmiddle

/-- A mark is a star or a low line, once or twice. -/
theorem exists_of_mem_emphasisMarks {mark : String} (h : mark ∈ emphasisMarks) :
    ∃ c more, mark.toList = c :: more ∧ isBlank c = false ∧ (∀ d ∈ mark.toList, d = '*' ∨ d = '_') ∧
      (mark ∈ ["*", "**"] → ∀ d ∈ mark.toList, d = '*') ∧
      (mark ∉ ["*", "**"] → ∀ d ∈ mark.toList, d = '_') := by
  simp only [emphasisMarks, List.mem_cons, List.not_mem_nil, or_false] at h
  rcases h with rfl | rfl | rfl | rfl <;>
    exact ⟨_, _, rfl, by decide, by simp, by simp, by simp⟩

namespace Placement

/-- What stands in front of the first word. -/
def opening (mark : List Char) : Placement → List Char
  | around | behindColon | beforeColon => mark
  | aroundTitle | nowhere => []

/-- What stands behind the number. -/
def behind (mark title : List Char) : Placement → List Char
  | around => ": ".toList ++ (title ++ mark)
  | behindColon => ":".toList ++ (mark ++ (" ".toList ++ title))
  | beforeColon => mark ++ (": ".toList ++ title)
  | aroundTitle => ": ".toList ++ (mark ++ (title ++ mark))
  | nowhere => ": ".toList ++ title

theorem toList_text (mark : String) (n : ℕ) (title : String) (p : Placement) :
    (p.text mark n title).toList = p.opening mark.toList ++ ("Scenario ".toList ++
      (Nat.toDigits 10 n ++ p.behind mark.toList title.toList)) := by
  cases p <;>
    simp only [text, String.toList_append, Nat.toString_eq_repr, Nat.toList_repr,
      List.append_assoc] <;>
    rfl

variable {p : Placement} {line : List Char} {mark title : String} {n : UInt32}

/-- The number and the title that are read of a heading. -/
theorem exists_heading (hn : n ≠ 0) (hmark : mark ∈ emphasisMarks) (ht : IsSimpleTitle title.toList)
    (h : IsHeadingOf (p.text mark n.toNat title).toList line) :
    ∃ heading, Heading.ofLine? line = some heading ∧ scenarioNumber? heading.token = some n ∧
      withoutMarkup heading.title = (p.shown mark title).toList := by
  obtain ⟨c, more, hcons, hc, hmarks, hstars, hlows⟩ := exists_of_mem_emphasisMarks hmark
  have hframe : ∀ d ∈ mark.toList, isFrame d = true := by
    intro d hd
    rcases hmarks d hd with rfl | rfl <;> decide
  have hnone (q : Char → Prop) : ∀ d ∈ ([] : List Char), q d := fun _ hd =>
    absurd hd List.not_mem_nil
  have hcolon (s : List Char) : ∀ d ∈ (':' :: s).head?, isNameChar d = false := by
    rintro d ⟨⟩
    decide
  have halone : skipBlanks (' ' :: title.toList) = [] ++ title.toList ++ [] := by
    have := ht.skipBlanks_eq []
    rwa [List.append_nil] at this ⊢
  rw [toList_text] at h
  cases p with
  | around =>
    have htitle : skipBlanks (' ' :: (title.toList ++ mark.toList)) =
        [] ++ title.toList ++ mark.toList := ht.skipBlanks_eq mark.toList
    exact Heading.exists_of_parts hn hmarks (hnone _) (hcolon _) htitle (hnone _) hframe ht.isKept h
  | behindColon =>
    have hfront : ∀ d ∈ mark.toList ++ [' '], isFrame d = true := fun d hd =>
      (List.mem_append.1 hd).elim (hframe d) fun hd => List.mem_singleton.1 hd ▸ by decide
    have htitle : skipBlanks (mark.toList ++ ' ' :: title.toList) =
        mark.toList ++ [' '] ++ title.toList ++ [] := by
      rw [List.append_nil, List.append_assoc, hcons]
      exact skipBlanks_cons hc _
    exact Heading.exists_of_parts hn hmarks (hnone _) (hcolon _) htitle hfront (hnone _) ht.isKept h
  | beforeColon =>
    by_cases hstar : mark ∈ ["*", "**"]
    · have hstar' : mark.toList = '*' :: more := by
        rw [hcons, hstars hstar c (hcons ▸ List.mem_cons_self)]
      have hrest : ∀ d ∈ (mark.toList ++ (": ".toList ++ title.toList)).head?,
          isNameChar d = false := by
        rw [hstar']
        rintro d ⟨⟩
        decide
      have htitle : skipBlanks (skipSeparator (skipBlanks (mark.toList ++
          (": ".toList ++ title.toList)))) = mark.toList ++ (": ".toList ++ title.toList) ++ [] := by
        rw [List.append_nil, hstar']
        rfl
      have hshown : (shown mark title beforeColon).toList = ": ".toList ++ title.toList := by
        rw [shown, if_pos ⟨rfl, hstar⟩, String.toList_append]
      rw [hshown]
      exact Heading.exists_of_parts hn hmarks (hnone _) hrest htitle hframe (hnone _)
        ht.isKept_colon h
    · have hshown : shown mark title beforeColon = title := if_neg fun hk => hstar hk.2
      rw [hshown]
      exact Heading.exists_of_parts hn hmarks (hlows hstar) (hcolon _) halone (hnone _) (hnone _)
        ht.isKept h
  | aroundTitle =>
    have htitle : skipBlanks (' ' :: (mark.toList ++ (title.toList ++ mark.toList))) =
        mark.toList ++ title.toList ++ mark.toList := by
      rw [List.append_assoc, hcons]
      have hspace : allBlank [' '] = true := by decide
      exact skipBlanks_append_cons hspace hc _
    exact Heading.exists_of_parts hn (hnone _) (hnone _) (hcolon _) htitle hframe hframe ht.isKept h
  | nowhere =>
    exact Heading.exists_of_parts hn (hnone _) (hnone _) (hcolon _) halone (hnone _) (hnone _)
      ht.isKept h

theorem shown_eq_iff : p.shown mark title = title ↔ ¬ p.KeepsColon mark := by
  rw [shown]
  split_ifs with hk
  · refine iff_of_false (fun he => ?_) (not_not_intro hk)
    have := congrArg String.length he
    rw [String.length_append] at this
    exact absurd this (Nat.ne_of_gt (Nat.lt_add_of_pos_left (by decide)))
  · exact iff_of_true rfl hk

end Placement

/-! ## Plans with emphasis -/

/-- The block of a heading comes behind those of the headings above it. -/
theorem Block.exists_of_heading {line : List Char} {heading : Heading}
    (h : Heading.ofLine? line = some heading) (before after : List (List Char)) :
    ∃ block, (ofLines (before ++ line :: after))[before.countP
      fun l => (Heading.ofLine? l).isSome]? = some block ∧ block.heading = heading := by
  have hheadings : (ofLines (before ++ line :: after)).map Block.heading =
      (before ++ line :: after).filterMap Heading.ofLine? :=
    map_heading_blocksFrom none (before ++ line :: after)
  have hplace : ((before ++ line :: after).filterMap Heading.ofLine?)[before.countP
      fun l => (Heading.ofLine? l).isSome]? = some heading := by
    rw [← List.length_filterMap_eq_countP, List.filterMap_append, List.filterMap_cons_some h,
      List.getElem?_append_right (Nat.le_refl _), Nat.sub_self]
    rfl
  rw [← hheadings, List.getElem?_map] at hplace
  exact Option.map_eq_some_iff.1 hplace

/-- A heading with emphasis gives its number and its title, but that stars in front of the colon leave
the colon in the title. -/
theorem Plan.read_emphasized {text : String} {before after : List (List Char)} {line : List Char}
    {p : Placement} {mark title : String} {n : UInt32}
    (hlines : Text.lines text.toList = before ++ line :: after)
    (hline : IsHeadingOf (p.text mark n.toNat title).toList line) (hn : n ≠ 0)
    (hmark : mark ∈ emphasisMarks) (htitle : IsSimpleTitle title.toList) :
    ∃ scenario, (read text).scenarios[before.countP fun l => (Heading.ofLine? l).isSome]? =
        some scenario ∧ scenario.id = n ∧ scenario.title = p.shown mark title ∧
      (scenario.title = title ↔ ¬ p.KeepsColon mark) := by
  obtain ⟨heading, hheading, hnumber, hshown⟩ := p.exists_heading hn hmark htitle hline
  obtain ⟨block, hblock, rfl⟩ := Block.exists_of_heading hheading before after
  let place := 1 + before.countP fun l => (Heading.ofLine? l).isSome
  have hid : (block.scenario place).id = n := by
    rw [Block.id_scenario, hnumber]
    rfl
  have htext : (block.scenario place).title = p.shown mark title := by
    show String.ofList (withoutMarkup block.heading.title) = _
    rw [hshown, String.ofList_toList]
  refine ⟨block.scenario place, ?_, hid, htext, by rw [htext, Placement.shown_eq_iff]⟩
  rw [read, ofLines, hlines]
  exact (Block.getElem?_scenarios 1 _ _).trans (by rw [hblock]; rfl)

/-- A plan with emphasis at several places. -/
def emphasizedPlan : String :=
  "## __Scenario 7: Approve vendor__\r\n  ###### *Scenario 10*: Post 2 cards\n" ++
    "#_Scenario 12_: Close a case"

theorem Plan.read_emphasized_emphasizedPlan :
    ∃ before line, Text.lines emphasizedPlan.toList = before ++ [line] ∧
      before.countP (fun l => (Heading.ofLine? l).isSome) = 2 ∧
      IsHeadingOf (Placement.beforeColon.text "_" 12 "Close a case").toList line ∧
      IsSimpleTitle "Close a case".toList ∧ "_" ∈ emphasisMarks ∧
      ∃ scenario, (read emphasizedPlan).scenarios[2]? = some scenario ∧ scenario.id = 12 ∧
        scenario.title = "Close a case" := by
  have hlines : Text.lines emphasizedPlan.toList =
      ["## __Scenario 7: Approve vendor__".toList, "  ###### *Scenario 10*: Post 2 cards".toList] ++
        ["#_Scenario 12_: Close a case".toList] := by
    decide +kernel
  have hline : IsHeadingOf (Placement.beforeColon.text "_" 12 "Close a case").toList
      "#_Scenario 12_: Close a case".toList :=
    ⟨[], 1, [], by decide +kernel, by decide, by decide, by decide, by decide, by decide⟩
  have htitle : IsSimpleTitle "Close a case".toList :=
    ⟨by decide, by simp, by decide, by decide⟩
  have hcount : ["## __Scenario 7: Approve vendor__".toList,
      "  ###### *Scenario 10*: Post 2 cards".toList].countP (fun l => (Heading.ofLine? l).isSome) =
        2 := by
    decide +kernel
  obtain ⟨scenario, hscenario, hid, hshown, -⟩ :=
    Plan.read_emphasized (n := 12) hlines hline (by decide) (by decide) htitle
  rw [hcount] at hscenario
  exact ⟨_, _, hlines, hcount, hline, htitle, by decide, scenario, hscenario, hid, hshown⟩

/-- A colon behind closing stars is read as a part of the title. -/
theorem Plan.read_stars_before_colon :
    IsHeadingOf (Placement.beforeColon.text "**" 1 "Approve vendor").toList
        "### **Scenario 1**: Approve vendor".toList ∧
      IsSimpleTitle "Approve vendor".toList ∧ "**" ∈ emphasisMarks ∧
      (read "### **Scenario 1**: Approve vendor\n").scenarios.map (fun s => (s.id, s.title)) =
        [(1, ": Approve vendor")] ∧
      ": Approve vendor" ≠ "Approve vendor" :=
  ⟨⟨[], 3, " ".toList, by decide +kernel, by decide, by decide, by decide, by decide, by decide⟩,
    ⟨by decide, by simp, by decide, by decide⟩, by decide, by decide +kernel, by decide⟩

end Acceptance
