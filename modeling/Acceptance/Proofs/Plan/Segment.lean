import Mathlib.Data.List.TakeWhile
import Acceptance.Proofs.Plan.Break
import Acceptance.Proofs.Plan.Number

/-!
# Segments of a plan

A scenario heading opens a segment of the plan. The first line below it that is a scenario heading, a
thematic break or a heading with fewer hash signs ends the segment and does not belong to it. Segments
are told by the lines alone, without going through them one after the other: a scenario is what the
lines of its segment say, and a line outside of all segments says nothing.

Main results:

* `Block.blocksFrom_some`: a block holds the lines up to the first one that ends its segment.
* `areSegments_segmentsFrom`: the segments of some lines.
* `Plan.scenarios_of_segments`: every segment is one scenario.
-/

namespace Acceptance

open Text

/-! ## Specification -/

/-- Whether a line ends the segment that a heading opened. -/
def Heading.Ends (h : Heading) (line : List Char) : Prop :=
  (∃ next, Heading.ofLine? line = some next) ∨ isThematicBreak line = true ∨
    ∃ level, headingLevel? line = some level ∧ level < h.level

/-- A scenario heading and the lines below it, by their places. -/
structure Segment where
  /-- The place of the heading. -/
  start : ℕ
  heading : Heading
  /-- The place of the line that ends the segment, or the number of all lines. -/
  stop : ℕ
  deriving Repr, DecidableEq

namespace Segment

/-- The lines strictly between the heading and the end. -/
def body (s : Segment) (lines : List (List Char)) : List (List Char) :=
  (lines.take s.stop).drop (s.start + 1)

/-- Whether the line at a place belongs to a segment. -/
def Holds (s : Segment) (place : ℕ) : Prop := s.start ≤ place ∧ place < s.stop

/-- Whether a segment starts at a heading among some lines and goes on to the first line that ends
it. -/
structure IsIn (s : Segment) (lines : List (List Char)) : Prop where
  opened : ∃ line, lines[s.start]? = some line ∧ Heading.ofLine? line = some s.heading
  start_lt : s.start < s.stop
  stop_le : s.stop ≤ lines.length
  within : ∀ place line, s.start < place → place < s.stop → lines[place]? = some line →
    ¬ s.heading.Ends line
  ended : ∀ line, lines[s.stop]? = some line → s.heading.Ends line

/-- Whether a scenario is what a segment at the given place among all segments says. It has the number
that the heading writes, or else that place as far as 32 bits reach. -/
structure Says (s : Segment) (lines : List (List Char)) (place : ℕ) (scenario : Scenario) :
    Prop where
  body : scenario = Scenario.ofLines scenario.id
    (String.ofList (Markup.withoutMarkup s.heading.title)) (s.body lines)
  number : ∀ n, WritesNumber s.heading.token n → 1 ≤ n → n < 2 ^ 32 → scenario.id.toNat = n
  place : (∀ n, WritesNumber s.heading.token n → ¬ (1 ≤ n ∧ n < 2 ^ 32)) →
    scenario.id.toNat = min place (2 ^ 32 - 1)
  positive : 0 < scenario.id.toNat

end Segment

/-- Whether some segments are all segments of the lines, in order and without a common line. -/
structure AreSegments (lines : List (List Char)) (segments : List Segment) : Prop where
  isIn : ∀ s ∈ segments, s.IsIn lines
  complete : ∀ place line heading, lines[place]? = some line →
    Heading.ofLine? line = some heading → ∃ s ∈ segments, s.start = place
  ordered : segments.Pairwise fun s t => s.stop ≤ t.start

/-! ## The lines of a block -/

/-- As `Heading.Ends`, to be computed. -/
def Heading.isEndedBy (h : Heading) (line : List Char) : Bool :=
  (Heading.ofLine? line).isSome || h.isClosedBy line

theorem Heading.isEndedBy_iff {h : Heading} {line : List Char} :
    h.isEndedBy line = true ↔ h.Ends line := by
  rw [isEndedBy, isClosedBy, Bool.or_eq_true, Bool.or_eq_true, Option.isSome_iff_exists,
    Option.any_eq_true, Ends]
  simp only [decide_eq_true_eq]

theorem Heading.not_ends {h : Heading} {line : List Char} (hl : (!h.isEndedBy line) = true) :
    ¬ h.Ends line := by
  rw [← isEndedBy_iff]
  simpa using hl

/-- The lines up to the first one that ends the segment of a heading. -/
def Heading.reach (h : Heading) (lines : List (List Char)) : List (List Char) :=
  lines.takeWhile fun line => !h.isEndedBy line

theorem Heading.reach_cons_of_ends {h : Heading} {line : List Char} (hl : h.isEndedBy line = true)
    (rest : List (List Char)) : h.reach (line :: rest) = [] :=
  List.takeWhile_cons_of_neg (by simp [hl])

/-- A block holds the lines that its heading reaches, and the other blocks are those that its lines
would have without it. -/
theorem Block.blocksFrom_some (block : Block) (lines : List (List Char)) :
    blocksFrom (some block) lines =
      { block with lines := block.lines ++ block.heading.reach lines } :: blocksFrom none lines := by
  induction lines generalizing block with
  | nil =>
    show [block] = [{ block with lines := block.lines ++ [] }]
    rw [List.append_nil]
  | cons line rest ih =>
    cases hh : Heading.ofLine? line with
    | some heading =>
      have hends : block.heading.isEndedBy line = true := by
        rw [Heading.isEndedBy, hh, Option.isSome_some, Bool.true_or]
      rw [blocksFrom_heading hh, blocksFrom_heading hh, Heading.reach_cons_of_ends hends,
        List.append_nil]
      rfl
    | none =>
      have hends : block.heading.isEndedBy line = block.heading.isClosedBy line := by
        rw [Heading.isEndedBy, hh, Option.isSome_none, Bool.false_or]
      cases hc : block.heading.isClosedBy line with
      | true =>
        rw [blocksFrom_closed hh hc, blocksFrom_outside hh,
          Heading.reach_cons_of_ends (hends.trans hc), List.append_nil]
      | false =>
        have hreach : block.heading.reach (line :: rest) = line :: block.heading.reach rest :=
          List.takeWhile_cons_of_pos (by rw [hends, hc]; rfl)
        rw [blocksFrom_inside hh hc, ih, blocksFrom_outside hh, hreach, List.append_assoc,
          List.singleton_append]

/-! ## Finding segments -/

/-- The segment that a heading opens at a place in front of some lines. -/
def Heading.segment (h : Heading) (place : ℕ) (rest : List (List Char)) : Segment where
  start := place
  heading := h
  stop := place + 1 + (h.reach rest).length

/-- The segments of some lines, of which the first has the given place. -/
def segmentsFrom (place : ℕ) : List (List Char) → List Segment
  | [] => []
  | line :: rest =>
    match Heading.ofLine? line with
    | some heading => heading.segment place rest :: segmentsFrom (place + 1) rest
    | none => segmentsFrom (place + 1) rest

section Found

variable {place : ℕ} {lines before rest : List (List Char)} {line : List Char} {heading : Heading}

theorem segmentsFrom_heading (h : Heading.ofLine? line = some heading) :
    segmentsFrom place (line :: rest) =
      heading.segment place rest :: segmentsFrom (place + 1) rest := by
  simp only [segmentsFrom, h]

theorem segmentsFrom_other (h : Heading.ofLine? line = none) :
    segmentsFrom place (line :: rest) = segmentsFrom (place + 1) rest := by
  simp only [segmentsFrom, h]

/-- The lines of a segment are those around its heading and its end. -/
theorem Segment.isIn_of_heading (h : Heading.ofLine? line = some heading)
    {reach after : List (List Char)} (hreach : ∀ l ∈ reach, ¬ heading.Ends l)
    (hafter : ∀ l ∈ after.head?, heading.Ends l) (before : List (List Char)) :
    IsIn ⟨before.length, heading, before.length + 1 + reach.length⟩
      (before ++ line :: (reach ++ after)) where
  opened := ⟨line, by simp, h⟩
  start_lt := by
    show before.length < before.length + 1 + reach.length
    omega
  stop_le := by
    show before.length + 1 + reach.length ≤ _
    rw [List.length_append, List.length_cons, List.length_append]
    omega
  within := by
    intro place l hstart hstop hl
    obtain ⟨i, rfl⟩ := Nat.exists_eq_add_of_lt hstart
    have hi : i < reach.length := by
      have : before.length + i + 1 < before.length + 1 + reach.length := hstop
      omega
    rw [Nat.add_assoc, List.getElem?_append_right (Nat.le_add_right _ _), Nat.add_sub_cancel_left,
      List.getElem?_cons_succ, List.getElem?_append_left hi] at hl
    exact hreach l (List.mem_of_getElem? hl)
  ended := by
    intro l hl
    rw [Nat.add_assoc, List.getElem?_append_right (Nat.le_add_right _ _), Nat.add_sub_cancel_left,
      Nat.add_comm, List.getElem?_cons_succ, List.getElem?_append_right (Nat.le_refl _), Nat.sub_self,
      ← List.head?_eq_getElem?] at hl
    exact hafter l hl

/-- What a heading reaches, and the line that ends its segment. -/
theorem Heading.exists_reach (h : Heading) (rest : List (List Char)) :
    ∃ after, rest = h.reach rest ++ after ∧ (∀ l ∈ h.reach rest, ¬ h.Ends l) ∧
      ∀ l ∈ after.head?, h.Ends l := by
  refine ⟨rest.dropWhile fun line => !h.isEndedBy line, List.takeWhile_append_dropWhile.symm,
    fun l hl => not_ends (List.mem_takeWhile_imp (p := fun line => !h.isEndedBy line) hl),
    fun l hl => isEndedBy_iff.1 ?_⟩
  simpa using head?_dropWhile hl

/-- The segment of a heading goes on to the line that ends it. -/
theorem Heading.isIn_segment (h : ofLine? line = some heading) (before rest : List (List Char)) :
    (heading.segment before.length rest).IsIn (before ++ line :: rest) := by
  obtain ⟨after, hrest, hreach, hafter⟩ := heading.exists_reach rest
  have hin := Segment.isIn_of_heading h hreach hafter before
  rwa [← hrest] at hin

theorem isIn_of_mem_segmentsFrom {s : Segment} (before : List (List Char))
    (h : s ∈ segmentsFrom before.length rest) :
    s.IsIn (before ++ rest) ∧ before.length ≤ s.start := by
  induction rest generalizing before with
  | nil => cases h
  | cons line rest ih =>
    have hlater (h : s ∈ segmentsFrom (before.length + 1) rest) :
        s.IsIn (before ++ line :: rest) ∧ before.length ≤ s.start := by
      have hin := ih (before ++ [line]) (by rwa [List.length_append])
      rw [List.append_assoc, List.singleton_append, List.length_append] at hin
      exact ⟨hin.1, Nat.le_of_succ_le hin.2⟩
    cases hh : Heading.ofLine? line with
    | none => exact hlater (segmentsFrom_other hh ▸ h)
    | some heading =>
      rw [segmentsFrom_heading hh] at h
      rcases List.mem_cons.1 h with rfl | h
      · exact ⟨Heading.isIn_segment hh before rest, Nat.le_refl _⟩
      · exact hlater h

theorem exists_mem_segmentsFrom (h : Heading.ofLine? line = some heading)
    (before rest : List (List Char)) (place : ℕ) :
    ∃ s ∈ segmentsFrom place (before ++ line :: rest), s.start = place + before.length := by
  induction before generalizing place with
  | nil => exact ⟨_, segmentsFrom_heading h ▸ List.mem_cons_self, rfl⟩
  | cons l before ih =>
    obtain ⟨s, hs, hstart⟩ := ih (place + 1)
    refine ⟨s, ?_, by rw [hstart, List.length_cons, Nat.add_right_comm, Nat.add_assoc]⟩
    rw [List.cons_append]
    cases hl : Heading.ofLine? l with
    | none => rwa [segmentsFrom_other hl]
    | some _ =>
      rw [segmentsFrom_heading hl]
      exact List.mem_cons_of_mem _ hs

/-- No heading reaches into the next segment. -/
theorem pairwise_segmentsFrom (before rest : List (List Char)) :
    (segmentsFrom before.length rest).Pairwise fun s t => s.stop ≤ t.start := by
  induction rest generalizing before with
  | nil => exact .nil
  | cons line rest ih =>
    have ih := ih (before ++ [line])
    rw [List.length_append] at ih
    cases hh : Heading.ofLine? line with
    | none => rwa [segmentsFrom_other hh]
    | some heading =>
      rw [segmentsFrom_heading hh]
      refine List.pairwise_cons.2 ⟨fun t ht => ?_, ih⟩
      have ht : t ∈ segmentsFrom (before ++ [line]).length rest := by rwa [List.length_append]
      have hlater := isIn_of_mem_segmentsFrom (before ++ [line]) ht
      rw [List.append_assoc, List.singleton_append, List.length_append] at hlater
      obtain ⟨⟨⟨next, hnext, hheading⟩, -⟩, hle⟩ := hlater
      by_contra hlt
      exact (Heading.isIn_segment hh before rest).within t.start next hle (Nat.not_le.1 hlt) hnext
        (.inl ⟨_, hheading⟩)

/-- The segments of some lines. -/
theorem areSegments_segmentsFrom (lines : List (List Char)) :
    AreSegments lines (segmentsFrom 0 lines) where
  isIn := fun _ hs => (isIn_of_mem_segmentsFrom [] hs).1
  complete := by
    intro place line heading hl hh
    obtain ⟨hlt, rfl⟩ := List.getElem?_eq_some_iff.1 hl
    obtain ⟨s, hs, hstart⟩ :=
      exists_mem_segmentsFrom hh (lines.take place) (lines.drop (place + 1)) 0
    rw [← List.drop_eq_getElem_cons hlt, List.take_append_drop] at hs
    rw [List.length_take_of_le (Nat.le_of_lt hlt), Nat.zero_add] at hstart
    exact ⟨s, hs, hstart⟩
  ordered := pairwise_segmentsFrom [] lines

/-! ## Blocks and segments -/

/-- The block of a segment. -/
def Segment.block (lines : List (List Char)) (s : Segment) : Block := ⟨s.heading, s.body lines⟩

theorem Heading.body_segment (h : Heading) (before : List (List Char)) (line : List Char)
    (rest : List (List Char)) :
    (h.segment before.length rest).body (before ++ line :: rest) = h.reach rest := by
  have hreach : h.reach rest <+: rest := List.takeWhile_prefix _
  show List.drop (before.length + 1) (List.take _ (before ++ line :: rest)) = _
  rw [List.drop_take]
  show List.take (before.length + 1 + (h.reach rest).length - (before.length + 1)) _ = _
  rw [Nat.add_sub_cancel_left, ← List.drop_drop, List.drop_left, List.drop_succ_cons, List.drop_zero]
  exact (List.prefix_iff_eq_take.1 hreach).symm

/-- Every segment is a block. -/
theorem map_block_segmentsFrom (before rest : List (List Char)) :
    (segmentsFrom before.length rest).map (Segment.block (before ++ rest)) =
      Block.blocksFrom none rest := by
  induction rest generalizing before with
  | nil => rfl
  | cons line rest ih =>
    have ih := ih (before ++ [line])
    rw [List.append_assoc, List.singleton_append, List.length_append, List.length_singleton] at ih
    cases hh : Heading.ofLine? line with
    | none =>
      rw [segmentsFrom_other hh, Block.blocksFrom_outside hh]
      exact ih
    | some heading =>
      rw [segmentsFrom_heading hh, List.map_cons, Segment.block, heading.body_segment, ih,
        Block.blocksFrom_heading hh, Block.blocksFrom_some]
      rfl

end Found

/-- The scenario of a block says what its segment does. -/
theorem Segment.says_scenario (lines : List (List Char)) (s : Segment) {place : ℕ} (h : 0 < place) :
    s.Says lines place ((s.block lines).scenario place) where
  body := rfl
  number := by
    intro n hn hpos hlt
    have hword : (UInt32.ofNat n).toNat = n := UInt32.toNat_ofNat_of_lt' hlt
    have hne : UInt32.ofNat n ≠ 0 := by
      intro he
      rw [he] at hword
      exact absurd hword (Nat.ne_of_lt hpos)
    have hnumber := scenarioNumber?_eq_some_iff.2 ⟨hword.symm ▸ hn, hne⟩
    rw [Block.id_scenario, show (s.block lines).heading.token = s.heading.token from rfl, hnumber]
    exact hword
  place := by
    intro hnone
    rw [Block.id_scenario, show (s.block lines).heading.token = s.heading.token from rfl,
      ← toNat_placeNumber]
    cases hnumber : scenarioNumber? s.heading.token with
    | none => rfl
    | some id =>
      obtain ⟨hn, hne⟩ := scenarioNumber?_eq_some_iff.1 hnumber
      have hpos : id.toNat ≠ 0 := fun he => hne (UInt32.toNat_inj.1 he)
      exact absurd ⟨Nat.one_le_iff_ne_zero.2 hpos, id.toNat_lt⟩ (hnone _ hn)
  positive := by
    rw [Block.id_scenario]
    cases hnumber : scenarioNumber? (s.block lines).heading.token with
    | none =>
      rw [Option.getD_none, toNat_placeNumber]
      omega
    | some id =>
      exact Nat.pos_of_ne_zero fun he => scenarioNumber?_ne_zero hnumber (UInt32.toNat_inj.1 he)

/-! ## Lines between segments -/

/-- No segment holds a line between the end of a segment and the next heading. -/
theorem AreSegments.not_holds {lines : List (List Char)} {segments : List Segment}
    (h : AreSegments lines segments) {i place : ℕ} {s : Segment} (hs : segments[i]? = some s)
    (hstop : s.stop ≤ place) (hnext : ∀ t ∈ segments[i + 1]?, place < t.start) :
    ∀ t ∈ segments, ¬ t.Holds place := by
  intro t ht ⟨hstart, hlt⟩
  obtain ⟨j, hj⟩ := List.mem_iff_getElem?.1 ht
  obtain ⟨hi', rfl⟩ := List.getElem?_eq_some_iff.1 hs
  obtain ⟨hj', rfl⟩ := List.getElem?_eq_some_iff.1 hj
  have hordered := List.pairwise_iff_getElem.1 h.ordered
  rcases Nat.lt_trichotomy j i with hji | rfl | hij
  · -- An earlier segment ends where this one starts, at the latest.
    have := hordered j i hj' hi' hji
    have := (h.isIn _ (List.getElem_mem hi')).start_lt
    omega
  · omega
  · -- A later segment starts at the next one, at the earliest.
    have hnext' : i + 1 < segments.length := Nat.lt_of_le_of_lt hij hj'
    have hplace := hnext _ (List.getElem?_eq_getElem hnext')
    rcases Nat.eq_or_lt_of_le hij with rfl | hij
    · exact Nat.not_le.2 hplace hstart
    · have := hordered (i + 1) j hnext' hj' hij
      have := (h.isIn _ (List.getElem_mem hnext')).start_lt
      omega

/-- The scenarios of a plan are its segments in order, and no line between two segments belongs to any
of them. -/
theorem Plan.scenarios_of_segments (text : String) :
    ∃ segments, AreSegments (Text.lines text.toList) segments ∧
      segments.length = (read text).scenarios.length ∧
      (∀ (i : ℕ) (s : Segment) (scenario : Scenario), segments[i]? = some s →
        (read text).scenarios[i]? = some scenario →
        s.Says (Text.lines text.toList) (i + 1) scenario) ∧
      ∀ (i place : ℕ) (s : Segment), segments[i]? = some s → s.stop ≤ place →
        (∀ t ∈ segments[i + 1]?, place < t.start) → ∀ t ∈ segments, ¬ t.Holds place := by
  let lines := Text.lines text.toList
  have hsegments := areSegments_segmentsFrom lines
  have hblocks : (segmentsFrom 0 lines).map (Segment.block lines) = Block.ofLines lines :=
    map_block_segmentsFrom [] lines
  have hscenarios : (read text).scenarios = Block.scenarios 1 (Block.ofLines lines) := rfl
  refine ⟨segmentsFrom 0 lines, hsegments, ?_, fun i s scenario hs hscenario => ?_,
    fun i place s hs hstop hnext => hsegments.not_holds hs hstop hnext⟩
  · rw [hscenarios, Block.length_scenarios, ← hblocks, List.length_map]
  · rw [hscenarios, Block.getElem?_scenarios, ← hblocks, List.getElem?_map, hs, Option.map_some,
      Option.map_some] at hscenario
    rw [← Option.some.inj hscenario, Nat.add_comm 1 i]
    exact s.says_scenario lines (Nat.succ_pos i)

/-- A number that is too great, zero and a deep heading leave the place; a break and a higher heading
end a scenario. -/
example : (Plan.read ("## Scenario 4294967296: A\n### Notes\n**Given** a\n---\n**Given** b\n" ++
    "## Scenario tc07x: B\n**Given** c\n# Notes\n**Given** d\n#### Scenario 0: C")).scenarios.map
      (fun s => (s.id, s.given)) = [(1, ["a"]), (7, ["c"]), (3, [])] := by
  decide +kernel

end Acceptance
