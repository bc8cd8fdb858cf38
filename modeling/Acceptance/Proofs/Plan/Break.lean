import Mathlib.Data.List.Basic
import Acceptance.Proofs.Plan.Blank
import Acceptance.Proofs.Text.Lines

/-!
# Plans with a break between them

A thematic break closes every block, so nothing of one plan reaches into the plan behind the break
but the number of its scenarios, by which scenarios without a number of their own are numbered, and
its metadata, which come first.

Main results:

* `Block.isMoved_of_getElem?`: a scenario alone and behind others.
* `Block.ofLines_break`, `Metadata.ofLines_append`: blocks and metadata on both sides of a break.
* `Plan.read_break`: both plans together.
-/

namespace Acceptance

open Text

/-! ## Specification -/

/-- The numbers that the headings of a plan give to its scenarios. -/
def Plan.numbers (text : String) : List (Option UInt32) :=
  ((Text.lines text.toList).filterMap Heading.ofLine?).map fun heading =>
    scenarioNumber? heading.token

/-- How a scenario reads alone, where it has the given place, and behind `n` others: the same, but
that it is numbered by its place if its heading gives no number. Such numbers stop at the greatest
one of 32 bits. -/
structure Scenario.IsMoved (n place : ℕ) (number? : Option UInt32) (alone behind : Scenario) :
    Prop where
  same : behind = { alone with id := behind.id }
  numbered : ∀ number ∈ number?, alone.id = number ∧ behind.id = number
  unnumbered : number? = none → alone.id.toNat = min place (2 ^ 32 - 1) ∧
    behind.id.toNat = min (n + place) (2 ^ 32 - 1)

/-- A text, or another one if it is empty. -/
def orText (text other : String) : String := if text = "" then other else text

/-- The metadata of a plan, and those of another one where it has none. -/
def Metadata.orElse (m other : Metadata) : Metadata where
  testPlanId := orText m.testPlanId other.testPlanId
  workItem := orText m.workItem other.workItem
  project := orText m.project other.project
  feature := orText m.feature other.feature

/-! ## Scenarios -/

namespace Block

theorem scenarios_append (place : ℕ) (blocks later : List Block) :
    scenarios place (blocks ++ later) =
      scenarios place blocks ++ scenarios (place + blocks.length) later := by
  induction blocks generalizing place with
  | nil => rfl
  | cons block blocks ih =>
    rw [List.cons_append, scenarios, ih, scenarios, List.cons_append, List.length_cons,
      Nat.add_right_comm, Nat.add_assoc]

theorem getElem?_scenarios (place : ℕ) (blocks : List Block) (i : ℕ) :
    (scenarios place blocks)[i]? = blocks[i]?.map (scenario (place + i)) := by
  induction blocks generalizing place i with
  | nil => rfl
  | cons block blocks ih =>
    cases i with
    | zero => rfl
    | succ i =>
      rw [scenarios, List.getElem?_cons_succ, List.getElem?_cons_succ, ih, Nat.add_right_comm,
        Nat.add_assoc]

theorem map_heading_blocksFrom (current : Option Block) (lines : List (List Char)) :
    (blocksFrom current lines).map heading =
      (current.map heading).toList ++ lines.filterMap Heading.ofLine? := by
  induction lines generalizing current with
  | nil => cases current <;> rfl
  | cons line lines ih =>
    cases hh : Heading.ofLine? line with
    | some heading =>
      rw [blocksFrom_heading hh, List.filterMap_cons_some hh, List.map_append, ih]
      cases current <;> rfl
    | none =>
      rw [List.filterMap_cons_none hh]
      cases current with
      | none => rw [blocksFrom_outside hh, ih]
      | some block =>
        cases hc : block.heading.isClosedBy line with
        | true =>
          rw [blocksFrom_closed hh hc, List.map_cons, ih]
          rfl
        | false =>
          rw [blocksFrom_inside hh hc, ih]
          rfl

theorem ofLines_break (lines later : List (List Char)) :
    ofLines (lines ++ "---".toList :: later) = ofLines lines ++ ofLines later :=
  blocksFrom_break (by decide) (by decide) lines later none

end Block

theorem toNat_placeNumber (place : ℕ) : (placeNumber place).toNat = min place (2 ^ 32 - 1) := by
  rw [placeNumber, UInt32.toNat_ofNat']
  have : UInt32.size = 2 ^ 32 := rfl
  omega

theorem Block.id_scenario (place : ℕ) (block : Block) : (block.scenario place).id =
    (scenarioNumber? block.heading.token).getD (placeNumber place) := rfl

theorem Block.isMoved_scenario (n place : ℕ) (block : Block) :
    Scenario.IsMoved n place (scenarioNumber? block.heading.token) (block.scenario place)
      (block.scenario (n + place)) where
  same := rfl
  numbered := by
    intro number hn
    rw [id_scenario, id_scenario, Option.mem_def.1 hn]
    exact ⟨rfl, rfl⟩
  unnumbered := by
    intro hn
    rw [id_scenario, id_scenario, hn]
    exact ⟨toNat_placeNumber place, toNat_placeNumber (n + place)⟩

/-- Every scenario of a plan, alone and behind `n` others. -/
theorem Block.isMoved_of_getElem? {n i : ℕ} {blocks : List Block} {number? : Option UInt32}
    {alone moved : Scenario}
    (hnumber : (blocks.map fun block => scenarioNumber? block.heading.token)[i]? = some number?)
    (halone : (scenarios 1 blocks)[i]? = some alone)
    (hmoved : (scenarios (n + 1) blocks)[i]? = some moved) :
    Scenario.IsMoved n (i + 1) number? alone moved := by
  rw [List.getElem?_map] at hnumber
  rw [getElem?_scenarios] at halone hmoved
  cases hblock : blocks[i]? with
  | none =>
    rw [hblock] at halone
    cases halone
  | some block =>
    rw [hblock] at hnumber halone hmoved
    cases hnumber
    cases halone
    cases hmoved
    have hmoved := isMoved_scenario n (i + 1) block
    rwa [Nat.add_comm 1 i, Nat.add_assoc, Nat.add_comm 1 i]

/-- The numbers of a plan are those of its blocks. -/
theorem Plan.numbers_eq (text : String) : numbers text =
    (Block.ofLines (Text.lines text.toList)).map fun block =>
      scenarioNumber? block.heading.token := by
  have hheadings : (Block.ofLines (Text.lines text.toList)).map Block.heading =
      (Text.lines text.toList).filterMap Heading.ofLine? :=
    Block.map_heading_blocksFrom none (Text.lines text.toList)
  rw [numbers, ← hheadings, List.map_map]
  rfl

/-! ## Metadata -/

theorem Metadata.find_append (words : List String) (lines later : List (List Char)) :
    find words (lines ++ later) = orText (find words lines) (find words later) := by
  have hfind (lines : List (List Char)) : find words lines = String.ofList
      (((lines.filterMap (metadata? (words.map String.toList))).find?
        fun value => !value.isEmpty).getD []) := rfl
  rw [hfind (lines ++ later), List.filterMap_append, List.find?_append, orText, hfind lines]
  cases hl : (lines.filterMap (metadata? (words.map String.toList))).find?
    fun value => !value.isEmpty with
  | none => rfl
  | some value =>
    have hvalue : value ≠ [] := by simpa using List.find?_some hl
    simp [hvalue]

theorem Metadata.ofLines_append (lines later : List (List Char)) :
    ofLines (lines ++ later) = (ofLines lines).orElse (ofLines later) := by
  simp only [ofLines, orElse, find_append]

/-! ## Plans -/

/-- The plan on lines with a break between them. -/
theorem Plan.ofLines_break (lines later : List (List Char)) :
    ofLines (lines ++ "---".toList :: later) =
      { metadata := (ofLines lines).metadata.orElse (ofLines later).metadata
        scenarios := (ofLines lines).scenarios ++
          Block.scenarios ((ofLines lines).scenarios.length + 1) (Block.ofLines later) } := by
  have hbreak : Metadata.ofLines ("---".toList :: later) = Metadata.ofLines later := by
    have hnone (words : List (List Char)) : metadata? words "---".toList = none :=
      metadata?_eq_none (by decide)
    simp only [Metadata.ofLines, Metadata.find, List.filterMap_cons_none (hnone _)]
  simp only [ofLines, Metadata.ofLines_append, hbreak, Block.ofLines_break, Block.scenarios_append,
    Block.length_scenarios, Nat.add_comm 1]

theorem Plan.ofLines_concat_newline {s : List Char} (h : s.getLast? ≠ some '\r') :
    ofLines (Text.lines (s ++ ['\n'])) = ofLines (Text.lines s) := by
  have hblank : (if EndsWithLine s then [[]] else []).filter isFilled = [] := by
    split_ifs <;> rfl
  rw [← ofLines_filter_isFilled, lines_concat_newline h, List.filter_append, hblank,
    List.append_nil, ofLines_filter_isFilled]

/-- The lines of two texts with a break between them. -/
theorem lines_break (a b : String) : Text.lines (a ++ "\n---\n" ++ b).toList =
    Text.lines (a.toList ++ ['\n']) ++ "---".toList :: Text.lines b.toList := by
  have htext : (a ++ "\n---\n" ++ b).toList =
      (a.toList ++ ['\n']) ++ ("---".toList ++ '\n' :: b.toList) := by
    simp [String.toList_append]
  have hends : EndsWithLine (a.toList ++ ['\n']) := by
    intro c hc
    rw [List.getLast?_concat] at hc
    exact (Option.some.inj hc).symm
  rw [htext, lines_append hends]
  rfl

/-- Reading two plans with a break between them. -/
theorem Plan.read_break {a : String} (h : a.toList.getLast? ≠ some '\r') (b : String) :
    ∃ behind : List Scenario,
      read (a ++ "\n---\n" ++ b) =
          { metadata := (read a).metadata.orElse (read b).metadata
            scenarios := (read a).scenarios ++ behind } ∧
        behind.length = (read b).scenarios.length ∧
        (numbers b).length = (read b).scenarios.length ∧
        ∀ (i : ℕ) (number? : Option UInt32) (alone moved : Scenario),
          (numbers b)[i]? = some number? → (read b).scenarios[i]? = some alone →
          behind[i]? = some moved →
          Scenario.IsMoved (read a).scenarios.length (i + 1) number? alone moved := by
  let blocks := Block.ofLines (Text.lines b.toList)
  have hcount (place : ℕ) : (Block.scenarios place blocks).length = (read b).scenarios.length :=
    (Block.length_scenarios place blocks).trans (Block.length_scenarios 1 blocks).symm
  refine ⟨Block.scenarios ((read a).scenarios.length + 1) blocks, ?_, hcount _, ?_, ?_⟩
  · rw [read, lines_break, ofLines_break, ofLines_concat_newline h]
    rfl
  · rw [numbers_eq, List.length_map]
    exact (Block.length_scenarios 1 blocks).symm
  · intro i number? alone moved hnumber halone hmoved
    rw [numbers_eq] at hnumber
    exact Block.isMoved_of_getElem? hnumber halone hmoved

/-- A plan whose last line has no end. -/
def firstPlan : String := "**Project**: A\n# Scenario 4: First\n- **Given** a card"

/-- A plan with a scenario that is numbered by its place. -/
def secondPlan : String :=
  "**Project**: B\r\n**Feature**: C\r\n# Scenario x: Second\r\n# Scenario T9: Third\r\n"

theorem Plan.read_break_secondPlan :
    firstPlan.toList.getLast? ≠ some '\r' ∧ numbers secondPlan = [none, some 9] ∧
      ∃ behind : List Scenario,
        read (firstPlan ++ "\n---\n" ++ secondPlan) =
            { metadata := ⟨"", "", "A", "C"⟩
              scenarios := (read firstPlan).scenarios ++ behind } ∧
          behind.map (·.id) = [2, 9] := by
  have hend : firstPlan.toList.getLast? ≠ some '\r' := by decide +kernel
  have hnumbers : numbers secondPlan = [none, some 9] := by decide +kernel
  have hmetadata : (read firstPlan).metadata.orElse (read secondPlan).metadata =
      ⟨"", "", "A", "C"⟩ := by
    decide +kernel
  have hfirst : (read firstPlan).scenarios.length = 1 := by decide +kernel
  have hsecond : (read secondPlan).scenarios.length = 2 := by decide +kernel
  obtain ⟨behind, hread, hlength, -, hmoved⟩ := Plan.read_break hend secondPlan
  obtain ⟨second, third, rfl⟩ := List.length_eq_two.1 (hlength.trans hsecond)
  obtain ⟨secondAlone, thirdAlone, halone⟩ := List.length_eq_two.1 hsecond
  rw [hnumbers, halone, hfirst] at hmoved
  have hplace : second.id = 2 :=
    UInt32.toNat_inj.1 ((hmoved 0 none secondAlone second rfl rfl rfl).unnumbered rfl).2
  have hnumber : third.id = 9 :=
    ((hmoved 1 (some 9) thirdAlone third rfl rfl rfl).numbered 9 rfl).2
  rw [hmetadata] at hread
  refine ⟨hend, hnumbers, _, hread, ?_⟩
  rw [List.map_cons, List.map_cons, List.map_nil, hplace, hnumber]

end Acceptance
