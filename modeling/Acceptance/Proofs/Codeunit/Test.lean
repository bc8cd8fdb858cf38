import Mathlib.Data.List.Basic
import Acceptance.Proofs.Codeunit.Line

/-!
# Generated tests

A generated test leaves the scan of routines at rest and is shown as one routine with its
attributes, whatever text the plan puts into its comments. These are the comments of the scenario
and of its steps, one for each and in order.

Main results:

* `TestProcedure.shows_lines`: a test is shown as a test with its attributes.
* `TestProcedure.contents_text`: the comments of a test.
* `TestProcedure.shows_tests`: several tests, one after the other.
-/

namespace Acceptance

open Text Source

/-! ## What the parts are made of -/

/-- All variables that a test may declare. -/
def knownDeclarations : List String :=
  fallbackDeclaration :: declarationRules.flatMap (·.declarations)

/-- A test whose texts stay on their lines. -/
structure TestProcedure.IsSound (t : TestProcedure) : Prop where
  name : ∃ rest, t.name.toList = 'T' :: rest ∧ IsPlain ('T' :: rest)
  title : '\n' ∉ t.title.toList
  given : ∀ step ∈ t.given, '\n' ∉ step.toList
  when : ∀ step ∈ t.when, '\n' ∉ step.toList
  expected : ∀ step ∈ t.expected, '\n' ∉ step.toList
  declarations : ∀ d ∈ t.declarations, d ∈ knownDeclarations
  fallback : t.declarations = [fallbackDeclaration] ∨ fallbackDeclaration ∉ t.declarations

/-- The contents of the comments on some lines, without the blanks around them. -/
def contents (raws : List (List Char)) : List (List Char) :=
  raws.flatMap fun raw => (commentTexts raw).map skipBlanks

@[simp] theorem contents_append (first second : List (List Char)) :
    contents (first ++ second) = contents first ++ contents second := by
  rw [contents, List.flatMap_append]
  rfl

theorem contents_numbered (number : ℕ) (raws : List (List Char)) :
    ((numbered number raws).flatMap Line.comments).map Comment.content = contents raws := by
  induction raws generalizing number with
  | nil => rfl
  | cons raw raws ih =>
    rw [numbered_cons, List.flatMap_cons, List.map_append, ih, Line.comments, List.map_map]
    rfl

namespace CodeLine

/-- The lines as they stand in the code. -/
def raws (lines : List CodeLine) : List (List Char) := lines.map raw

@[simp] theorem raws_append (first second : List CodeLine) :
    raws (first ++ second) = raws first ++ raws second :=
  List.map_append

@[simp] theorem raws_cons (l : CodeLine) (lines : List CodeLine) :
    raws (l :: lines) = l.raw :: raws lines := rfl

@[simp] theorem raws_nil : raws [] = [] := rfl

theorem contents_eq_nil {lines : List CodeLine} (h : ∀ l ∈ lines, commentTexts l.raw = []) :
    contents (raws lines) = [] := by
  refine List.flatMap_eq_nil_iff.2 fun line hline => ?_
  obtain ⟨l, hm, rfl⟩ := List.mem_map.1 hline
  exact congrArg (List.map skipBlanks) (h l hm)

/-- Lines that are all fixed hold no comments. -/
theorem contents_fixed {lines : List CodeLine}
    (h : ∃ rows, Spells lines rows ∧ ∀ row ∈ rows, commentTexts row = []) :
    contents (raws lines) = [] :=
  contents_eq_nil (forall_raw (commentTexts · = []) h)

/-- The line that opens a body. -/
def begins : CodeLine := ⟨1, "begin"⟩

/-- The line that closes a body. -/
def ends : CodeLine := ⟨1, "end;"⟩

/-- A routine that is laid out line by line. -/
def routineText (header : CodeLine) (declarations body : List CodeLine) : RoutineText :=
  ⟨header.raw, raws declarations, begins.raw, raws body, ends.raw⟩

theorem lines_routineText (header : CodeLine) (declarations body : List CodeLine) :
    (routineText header declarations body).lines =
      raws (header :: (declarations ++ begins :: (body ++ [ends]))) := by
  rw [raws_cons, raws_append, raws_cons, raws_append]
  rfl

/-- What the lines of a routine must be, besides the two that delimit its body. -/
theorem declares_routineText {header : CodeLine} {declarations body : List CodeLine}
    {name : List Char} {kind : RoutineKind} (hb : opensBracket (mask header.raw) = false)
    (hh : header? header.raw (mask header.raw) = some (name, kind))
    (hd : ∀ l ∈ declarations, blockDelta (mask l.raw) = 0 ∧ isHeader (mask l.raw) = false)
    (hi : ∀ l ∈ body, blockDelta (mask l.raw) = 0) :
    (routineText header declarations body).Declares name kind where
  no_bracket := hb
  header := hh
  declarations := by
    intro line hl
    obtain ⟨l, hm, rfl⟩ := List.mem_map.1 hl
    exact hd l hm
  opening := by
    show blockDelta (mask begins.raw) = 1
    decide
  body := by
    intro line hl
    obtain ⟨l, hm, rfl⟩ := List.mem_map.1 hl
    exact hi l hm
  closing := by
    show blockDelta (mask ends.raw) = -1
    decide

theorem IsRemark.blockDelta_raw {l : CodeLine} {content : String} (h : l.IsRemark content) :
    blockDelta (mask l.raw) = 0 := by
  obtain ⟨n, hn⟩ := h.exists_mask_raw
  rw [hn, blockDelta_spaces]

/-- A line that holds one list of attributes. -/
theorem read_attributeLine {l : CodeLine} {names : List (List Char)}
    (h : afterAttribute? (mask l.raw) = some []) (hn : attributeNames (mask l.raw) = names)
    {s : ScanState} (hs : s.opened = none) (number : ℕ) :
    s.read ⟨number, l.raw, mask l.raw⟩ =
      ({ s with
          attributes := s.attributes ++ names
          testLine := if names.any marksTest then some number else s.testLine }, none) := by
  rw [ScanState.read_attributes hs _ h, ← hn]

/-- A blank line behind some lines shows nothing. -/
theorem shows_blank {number : ℕ} {lines : List CodeLine} {shown : List (Routine × List Line)}
    (h : Shows number (raws lines) shown) : Shows number (raws (lines ++ [.blank])) shown := by
  have hb : Shows (number + (raws lines).length) (raws [.blank]) [] :=
    .idle (by decide) _
  have := h.append hb
  rwa [List.append_nil, ← raws_append] at this

end CodeLine

open CodeLine

/-! ## Tests -/

namespace TestProcedure

variable {t : TestProcedure}

/-- The attributes of a test. -/
def attributes (t : TestProcedure) : List (List Char) :=
  "Test".toList :: if t.handled then ["HandlerFunctions".toList] else []

/-- The lines of the attributes of a test. -/
def lead (t : TestProcedure) : List CodeLine :=
  ⟨1, "[Test]"⟩ :: if t.handled then [⟨1, handlerAttribute⟩] else []

/-- The line that declares a test. -/
def header (t : TestProcedure) : CodeLine := ⟨1, s!"procedure {t.name}()"⟩

/-- The lines between the delimiters of the body of a test. -/
def inner (t : TestProcedure) : List CodeLine :=
  ⟨2, s!"// [SCENARIO {t.id.toNat}] {t.title}"⟩ :: (stepComments .given t.given ++
    ⟨2, "Initialize();"⟩ :: .blank :: (stepComments .when t.when ++
    ⟨2, whenPlaceholder⟩ :: .blank :: (stepComments .expected t.expected ++
    [⟨2, thenPlaceholder⟩])))

/-- The test as the scan of routines sees it. -/
def text (t : TestProcedure) : RoutineText :=
  routineText t.header (⟨1, "var"⟩ :: t.declarations.map (⟨2, ·⟩)) t.inner

theorem lines_eq (t : TestProcedure) :
    t.lines = t.lead ++ (t.header :: ((⟨1, "var"⟩ :: t.declarations.map (⟨2, ·⟩)) ++
      begins :: (t.inner ++ [ends]))) ++ [.blank] := by
  simp [lines, lead, body, inner, header, begins, ends]

/-- What the placeholder behind the WHEN comments says. -/
def whenRemark : String := "[WHEN] TODO: Implement action using TestPage"

/-- What the placeholder behind the THEN comments says. -/
def thenRemark : String := "[THEN] TODO: Implement assertions using TestPage"

theorem isRemark_when : (⟨2, whenPlaceholder⟩ : CodeLine).IsRemark whenRemark where
  text := by decide
  start := by
    have hs : whenRemark.toList.head? = some '[' := by decide
    rw [hs]
    rintro c ⟨⟩
    decide
  ne_nil := by decide
  no_feed := by decide

theorem isRemark_then : (⟨2, thenPlaceholder⟩ : CodeLine).IsRemark thenRemark where
  text := by decide
  start := by
    have hs : thenRemark.toList.head? = some '[' := by decide
    rw [hs]
    rintro c ⟨⟩
    decide
  ne_nil := by decide
  no_feed := by decide

theorem mem_stepComments {g : Group} {steps : List String}
    (h : ∀ step ∈ steps, '\n' ∉ step.toList) {l : CodeLine} (hl : l ∈ stepComments g steps) :
    ∃ content, l.IsRemark content := by
  obtain ⟨step, hs, rfl⟩ := List.mem_map.1 hl
  exact ⟨_, isRemark_step (h step hs) g⟩

/-- Inside a test there are remarks, a call and blank lines. -/
theorem mem_inner (h : t.IsSound) {l : CodeLine} (hl : l ∈ t.inner) :
    (∃ content, l.IsRemark content) ∨ l ∈ [⟨2, "Initialize();"⟩, CodeLine.blank] := by
  simp only [inner, List.mem_cons, List.mem_append, List.not_mem_nil, or_false] at hl ⊢
  rcases hl with rfl | hl | rfl | rfl | hl | rfl | rfl | hl | rfl
  · exact .inl ⟨_, isRemark_scenario h.title t.id⟩
  · exact .inl (mem_stepComments h.given hl)
  · exact .inr (.inl rfl)
  · exact .inr (.inr rfl)
  · exact .inl (mem_stepComments h.when hl)
  · exact .inl ⟨_, isRemark_when⟩
  · exact .inr (.inr rfl)
  · exact .inl (mem_stepComments h.expected hl)
  · exact .inl ⟨_, isRemark_then⟩

theorem mem_lead {l : CodeLine} (hl : l ∈ t.lead) :
    l ∈ [(⟨1, "[Test]"⟩ : CodeLine), ⟨1, handlerAttribute⟩] := by
  unfold lead at hl
  cases hh : t.handled with
  | false =>
    rw [hh] at hl
    exact List.mem_cons.2 (.inl (List.mem_singleton.1 hl))
  | true =>
    rw [hh] at hl
    exact hl

/-- A line between the header and the body of a test. -/
theorem mem_declared (h : t.IsSound) {l : CodeLine}
    (hl : l ∈ (⟨1, "var"⟩ : CodeLine) :: t.declarations.map (⟨2, ·⟩)) :
    l ∈ (⟨1, "var"⟩ : CodeLine) :: knownDeclarations.map (⟨2, ·⟩) := by
  rcases List.mem_cons.1 hl with rfl | hl
  · exact List.mem_cons_self
  · obtain ⟨d, hd, rfl⟩ := List.mem_map.1 hl
    exact List.mem_cons_of_mem _ (List.mem_map.2 ⟨d, h.declarations d hd, rfl⟩)

/-- The lines of tests that hold nothing of a plan. -/
def fixedLines : List CodeLine :=
  [⟨1, "[Test]"⟩, ⟨1, handlerAttribute⟩, begins, ends, ⟨2, "Initialize();"⟩, .blank] ++
    ⟨1, "var"⟩ :: knownDeclarations.map (⟨2, ·⟩)

/-- A line of a test is its header, a remark or a fixed line. -/
theorem mem_lines (h : t.IsSound) {l : CodeLine} (hl : l ∈ t.lines) :
    l = t.header ∨ (∃ content, l.IsRemark content) ∨ l ∈ fixedLines := by
  rw [lines_eq] at hl
  simp only [List.mem_append, List.mem_cons (a := l) (b := t.header), List.mem_cons (b := begins),
    List.mem_singleton] at hl
  rcases hl with (hl | rfl | hl | rfl | hl | rfl) | rfl
  · have := mem_lead hl
    simp only [List.mem_cons, List.not_mem_nil, or_false] at this
    rcases this with rfl | rfl
    · exact .inr (.inr List.mem_cons_self)
    · exact .inr (.inr (List.mem_cons_of_mem _ List.mem_cons_self))
  · exact .inl rfl
  · have := mem_declared h hl
    exact .inr (.inr (List.mem_append_right _ this))
  · exact .inr (.inr (List.mem_append_left _ (by decide)))
  · rcases mem_inner h hl with hc | hc
    · exact .inr (.inl hc)
    · simp only [List.mem_cons, List.not_mem_nil, or_false] at hc
      rcases hc with rfl | rfl
      · exact .inr (.inr (List.mem_append_left _ (by decide)))
      · exact .inr (.inr (List.mem_append_left _ (by decide)))
  · exact .inr (.inr (List.mem_append_left _ (by decide)))
  · exact .inr (.inr (List.mem_append_left _ (by decide)))

theorem declares_text (h : t.IsSound) : t.text.Declares t.name.toList .procedure := by
  obtain ⟨rest, hn, hp⟩ := h.name
  have hr : t.header.raw = procedureLine ('T' :: rest) := by
    rw [header, raw_procedureLine, hn]
  refine declares_routineText ?_ ?_ ?_ ?_
  · rw [hr, mask_bare (isBare_procedureLine hp)]
    rfl
  · rw [hr, hn]
    exact header?_procedureLine hp
  · have key : ∀ l ∈ (⟨1, "var"⟩ : CodeLine) :: knownDeclarations.map (⟨2, ·⟩),
        blockDelta (mask l.raw) = 0 ∧ isHeader (mask l.raw) = false :=
      forall_raw (fun row => blockDelta (mask row) = 0 ∧ isHeader (mask row) = false)
        ⟨_, by repeat' constructor, by decide +kernel⟩
    exact fun l hl => key l (mem_declared h hl)
  · have key : ∀ l ∈ [⟨2, "Initialize();"⟩, CodeLine.blank], blockDelta (mask l.raw) = 0 := by
      decide
    intro l hl
    rcases mem_inner h hl with ⟨content, hc⟩ | hc
    · exact hc.blockDelta_raw
    · exact key l hc

/-- The lines of its attributes leave the attributes of a test waiting. -/
theorem run_lead (t : TestProcedure) (number : ℕ) :
    ScanState.start.run (numbered number (raws t.lead)) =
      (⟨t.attributes, some number, none⟩, []) := by
  have first (s : ScanState) (hs : s.opened = none) :=
    read_attributeLine (l := ⟨1, "[Test]"⟩) (by decide)
      (show attributeNames _ = ["Test".toList] by decide) hs number
  have second (s : ScanState) (hs : s.opened = none) :=
    read_attributeLine (l := ⟨1, handlerAttribute⟩) (by decide)
      (show attributeNames _ = ["HandlerFunctions".toList] by decide) hs (number + 1)
  unfold lead attributes
  rw [raws_cons, numbered_cons, ScanState.run_cons, first _ rfl]
  cases t.handled with
  | false => rfl
  | true =>
    rw [if_pos rfl, if_pos rfl, raws_cons, numbered_cons, ScanState.run_cons, second _ rfl]
    rfl

/-- The test that lines from the given number on show. -/
def shown (t : TestProcedure) (number : ℕ) : Routine × List Line :=
  t.text.shown t.name.toList .procedure t.attributes (some number)
    (number + (raws t.lead).length)

theorem shows_lines (h : t.IsSound) (number : ℕ) :
    Shows number (raws t.lines) [t.shown number] := by
  rw [lines_eq]
  refine shows_blank ?_
  rw [raws_append, ← lines_routineText]
  exact .routine (t.run_lead number) (declares_text h)

/-! ## The comments of a test -/

/-- What stands in the comments of a test, in order. -/
def remarks (t : TestProcedure) : List String :=
  scenarioRemark t.id t.title :: (t.given.map (stepRemark .given) ++
    t.when.map (stepRemark .when) ++ whenRemark ::
    (t.expected.map (stepRemark .expected) ++ [thenRemark]))

theorem contents_remark {l : CodeLine} {content : String} (h : l.IsRemark content)
    (raws : List (List Char)) :
    contents (l.raw :: raws) = trimEnd content.toList :: contents raws := by
  rw [contents, List.flatMap_cons, h.commentTexts_raw]
  rfl

theorem contents_stepComments {g : Group} {steps : List String}
    (h : ∀ step ∈ steps, '\n' ∉ step.toList) :
    contents (raws (stepComments g steps)) =
      (steps.map (stepRemark g)).map fun content => trimEnd content.toList := by
  induction steps with
  | nil => rfl
  | cons step steps ih =>
    have hs := isRemark_step (h step List.mem_cons_self) g
    exact (contents_remark hs _).trans
      (congrArg (_ :: ·) (ih fun s hm => h s (List.mem_cons_of_mem _ hm)))

theorem contents_text (h : t.IsSound) :
    contents t.text.lines = t.remarks.map fun content => trimEnd content.toList := by
  obtain ⟨rest, hn, hp⟩ := h.name
  have hr : t.header.raw = procedureLine ('T' :: rest) := by
    rw [header, raw_procedureLine, hn]
  have header : contents [t.header.raw] = [] := by
    rw [hr, contents, List.flatMap_singleton, commentTexts_bare (isBare_procedureLine hp)]
    rfl
  have declared : contents (raws (⟨1, "var"⟩ :: t.declarations.map (⟨2, ·⟩))) = [] := by
    have key : ∀ l ∈ (⟨1, "var"⟩ : CodeLine) :: knownDeclarations.map (⟨2, ·⟩),
        commentTexts l.raw = [] :=
      forall_raw (commentTexts · = []) ⟨_, by repeat' constructor, by decide +kernel⟩
    exact contents_eq_nil fun l hl => key l (mem_declared h hl)
  have fixed : contents (raws [begins]) = [] ∧ contents (raws [ends]) = [] ∧
      contents (raws [⟨2, "Initialize();"⟩, .blank]) = [] ∧ contents (raws [.blank]) = [] := by
    decide
  have hlines : t.text.lines = [t.header.raw] ++ raws (⟨1, "var"⟩ :: t.declarations.map (⟨2, ·⟩)) ++
      raws [begins] ++ raws t.inner ++ raws [ends] := by
    rw [text, lines_routineText]
    simp
  have hinner : raws t.inner = raw ⟨2, s!"// [SCENARIO {t.id.toNat}] {t.title}"⟩ ::
      (raws (stepComments .given t.given) ++ raws [⟨2, "Initialize();"⟩, .blank] ++
        raws (stepComments .when t.when) ++ raw ⟨2, whenPlaceholder⟩ :: (raws [.blank] ++
        raws (stepComments .expected t.expected) ++ [raw ⟨2, thenPlaceholder⟩])) := by
    simp [inner]
  rw [hlines, hinner]
  simp only [contents_append, header, declared, fixed, contents_remark isRemark_when,
    contents_remark isRemark_then, contents_remark (isRemark_scenario h.title t.id),
    contents_stepComments h.given, contents_stepComments h.when, contents_stepComments h.expected]
  simp [remarks, contents]

/-! ## Several tests -/

/-- The tests that lines from the given number on show. -/
def shownFrom (number : ℕ) : List TestProcedure → List (Routine × List Line)
  | [] => []
  | t :: tests => t.shown number :: shownFrom (number + (raws t.lines).length) tests

theorem shows_tests {tests : List TestProcedure} (h : ∀ t ∈ tests, t.IsSound) (number : ℕ) :
    Shows number (raws (tests.flatMap lines)) (shownFrom number tests) := by
  induction tests generalizing number with
  | nil => exact .nil number
  | cons t tests ih =>
    rw [List.flatMap_cons, raws_append]
    exact (shows_lines (h t List.mem_cons_self) number).append
      (ih (fun u hu => h u (List.mem_cons_of_mem _ hu)) _)

theorem mem_shownFrom {number : ℕ} {tests : List TestProcedure} {p : Routine × List Line}
    (h : p ∈ shownFrom number tests) : ∃ t ∈ tests, ∃ n, p = t.shown n := by
  induction tests generalizing number with
  | nil => cases h
  | cons t tests ih =>
    rcases List.mem_cons.1 h with rfl | h
    · exact ⟨t, List.mem_cons_self, number, rfl⟩
    · obtain ⟨u, hu, n, hp⟩ := ih h
      exact ⟨u, List.mem_cons_of_mem _ hu, n, hp⟩

theorem length_shownFrom (number : ℕ) (tests : List TestProcedure) :
    (shownFrom number tests).length = tests.length := by
  induction tests generalizing number with
  | nil => rfl
  | cons t tests ih => rw [shownFrom, List.length_cons, ih, List.length_cons]

/-- The lines of a routine are lines of its test. -/
theorem mem_shown_lines {t : TestProcedure} {number : ℕ} {line : Line}
    (h : line ∈ (t.shown number).2) : ∃ l ∈ t.lines, line.raw = l.raw ∧ line.masked = mask l.raw := by
  have key : ∀ (raws : List (List Char)) (n : ℕ), line ∈ numbered n raws →
      ∃ raw ∈ raws, line.raw = raw ∧ line.masked = mask raw := by
    intro raws
    induction raws with
    | nil => intro n hm; cases hm
    | cons raw raws ih =>
      intro n hm
      rcases List.mem_cons.1 hm with rfl | hm
      · exact ⟨raw, List.mem_cons_self, rfl, rfl⟩
      · obtain ⟨r, hr, he⟩ := ih _ hm
        exact ⟨r, List.mem_cons_of_mem _ hr, he⟩
  obtain ⟨raw, hraw, he⟩ := key _ _ h
  rw [text, lines_routineText] at hraw
  obtain ⟨l, hl, rfl⟩ := List.mem_map.1 hraw
  refine ⟨l, ?_, he⟩
  rw [lines_eq]
  exact List.mem_append_left _ (List.mem_append_right _ hl)

end TestProcedure

end Acceptance
