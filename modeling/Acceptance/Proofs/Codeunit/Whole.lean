import Mathlib.Data.List.Basic
import Acceptance.Check.Analysis
import Acceptance.Proofs.Codeunit.Test

/-!
# A whole generated codeunit

The head of a generated codeunit shows the trigger and its variables show nothing; then come the two
procedures that prepare a test, the tests and the handlers. Every line is one of a few kinds, so the
code can be looked at line by line.

Main results:

* `Codeunit.mem_later`: the kinds of lines.
* `Codeunit.shows_lines`: the routines of the codeunit, each with its lines.
* `Codeunit.routines_code`, `Codeunit.commentsOf_code`: the same of the analysis of its code.
-/

namespace Acceptance

open Text Source CodeLine

namespace Analysis

@[simp] theorem source_ofChars (code : List Char) : (ofChars code).source = Source.ofChars code := rfl

@[simp] theorem routines_ofChars (code : List Char) :
    (ofChars code).routines = (Source.ofChars code).routines := rfl

@[simp] theorem varBlocks_ofChars (code : List Char) :
    (ofChars code).varBlocks = (Source.ofChars code).varBlocks := rfl

end Analysis

/-- A codeunit with usable names whose texts stay on their lines. -/
structure Codeunit.IsSound (c : Codeunit) : Prop where
  name : IsPlain c.name.toList
  name_ne_nil : c.name.toList ≠ []
  name_length : c.name.toList.length ≤ Naming.maxObjectName
  workItemNumber : '\n' ∉ c.workItemNumber.toList
  workItem : '\n' ∉ c.workItem.toList
  library : Naming.isIdentifier c.library.toList = true
  tests : ∀ t ∈ c.tests, t.IsSound

/-! ## The parts -/

namespace Codeunit

variable {c : Codeunit}

/-- The lines before the trigger. -/
def preface (c : Codeunit) : List CodeLine :=
  [⟨0, s!"codeunit {c.id.toNat} {c.name}"⟩, ⟨0, "\x7b"⟩, ⟨1, "Subtype = Test;"⟩, .blank]

/-- What stands in the comment of the trigger. -/
def featureRemark (c : Codeunit) : String :=
  s!"[FEATURE] User Story {c.workItemNumber}: {c.workItem}"

/-- The line of the comment of the trigger. -/
def featureLine (c : Codeunit) : CodeLine :=
  ⟨2, s!"// [FEATURE] User Story {c.workItemNumber}: {c.workItem}"⟩

/-- The trigger as the scan of routines sees it. -/
def onRunText (c : Codeunit) : RoutineText :=
  routineText ⟨1, "trigger OnRun()"⟩ [] [c.featureLine]

/-- The statements of `Initialize`. -/
def initializeBody : List CodeLine :=
  [⟨2, "SetTestPermissions();"⟩, ⟨2, "LibraryVariableStorage.Clear();"⟩, .blank,
    ⟨2, "if IsInitialized then"⟩, ⟨3, "exit;"⟩, .blank, ⟨2, "Commit();"⟩,
    ⟨2, "IsInitialized := true;"⟩]

/-- `Initialize` as the scan of routines sees it. -/
def initializeText : RoutineText :=
  routineText ⟨1, "local procedure Initialize()"⟩ [] initializeBody

/-- `SetTestPermissions` as the scan of routines sees it. -/
def permissionsText : RoutineText :=
  routineText ⟨1, "local procedure SetTestPermissions()"⟩ []
    [⟨2, "LibraryLowerPermissions.AddO365BusinessPremium();"⟩]

/-- The handler of messages as the scan of routines sees it. -/
def messageText : RoutineText :=
  routineText ⟨1, "procedure MessageHandler(Message: Text[1024])"⟩ []
    [⟨2, "LibraryVariableStorage.Enqueue(Message);"⟩]

/-- The handler of questions as the scan of routines sees it. -/
def confirmText : RoutineText :=
  routineText ⟨1, "procedure ConfirmHandler(Question: Text[1024]; var Reply: Boolean)"⟩ []
    [⟨2, "Reply := LibraryVariableStorage.DequeueBoolean();"⟩]

/-! ## The kinds of lines -/

/-- The lines outside of tests that hold nothing of a plan or of the options. -/
def fixedLines : List CodeLine :=
  [⟨0, "\x7b"⟩, ⟨1, "Subtype = Test;"⟩, .blank, ⟨1, "trigger OnRun()"⟩, begins, ends, ⟨1, "var"⟩,
    ⟨2, "LibraryAssert: Codeunit \"Library Assert\";"⟩,
    ⟨2, "LibraryVariableStorage: Codeunit \"Library - Variable Storage\";"⟩,
    ⟨2, "LibraryLowerPermissions: Codeunit \"Library - Lower Permissions\";"⟩,
    ⟨2, "IsInitialized: Boolean;"⟩, ⟨0, "\x7d"⟩] ++ setup ++ handlers

/-- A line of a codeunit behind the first one declares the library or a test, or it is a remark or a
fixed line. -/
inductive LineKind (c : Codeunit) (l : CodeLine) : Prop where
  | library : l.raw = libraryLine c.library.toList → LineKind c l
  | test (rest : List Char) : IsPlain ('T' :: rest) → l.raw = procedureLine ('T' :: rest) →
      LineKind c l
  | remark (content : String) : l.IsRemark content → LineKind c l
  | fixed : l ∈ TestProcedure.fixedLines ++ fixedLines → LineKind c l

theorem toList_featureRemark (c : Codeunit) :
    c.featureRemark.toList = "[FEATURE] User Story ".toList ++
      (c.workItemNumber.toList ++ (": ".toList ++ c.workItem.toList)) := by
  unfold featureRemark
  rw [String.toList_append, String.toList_append, String.toList_append, List.append_assoc,
    List.append_assoc]
  rfl

theorem isRemark_feature (h : c.IsSound) : c.featureLine.IsRemark c.featureRemark where
  text := by
    have hs : "// [FEATURE] User Story ".toList =
        ['/', '/', ' '] ++ "[FEATURE] User Story ".toList := by
      decide
    have ht : c.featureLine.text.toList = "// [FEATURE] User Story ".toList ++
        (c.workItemNumber.toList ++ (": ".toList ++ c.workItem.toList)) := by
      unfold featureLine
      rw [String.toList_append, String.toList_append, String.toList_append, List.append_assoc,
        List.append_assoc]
      rfl
    rw [ht, hs, List.append_assoc, ← toList_featureRemark]
    rfl
  start := by
    have hs : "[FEATURE] User Story ".toList.head? = some '[' := by decide
    rw [toList_featureRemark, List.head?_append_of_ne_nil _ (by decide), hs]
    rintro c ⟨⟩
    decide
  ne_nil := by
    rw [toList_featureRemark]
    exact List.append_ne_nil_of_left_ne_nil (by decide) _
  no_feed := by
    have hs : '\n' ∉ "[FEATURE] User Story ".toList := by decide
    have hc : '\n' ∉ ": ".toList := by decide
    rw [toList_featureRemark, List.mem_append, List.mem_append, List.mem_append]
    rintro (hm | hm | hm | hm)
    · exact hs hm
    · exact h.workItemNumber hm
    · exact hc hm
    · exact h.workItem hm

theorem raw_preface (h : c.IsSound) :
    raws c.preface = objectLine c.id.toNat c.name.toList ::
      raws [⟨0, "\x7b"⟩, ⟨1, "Subtype = Test;"⟩, .blank] := by
  rw [preface, raws_cons, raw_objectLine h.name h.name_ne_nil]

/-- The lines of a codeunit behind the first one. -/
def later (c : Codeunit) : List CodeLine :=
  [⟨0, "\x7b"⟩, ⟨1, "Subtype = Test;"⟩, .blank, ⟨1, "trigger OnRun()"⟩, begins, c.featureLine, ends,
    .blank] ++ c.globals ++ setup ++ c.tests.flatMap (·.lines) ++
    (if c.hasHandlers then handlers else []) ++ [⟨0, "\x7d"⟩]

theorem raws_lines (h : c.IsSound) :
    raws c.lines = objectLine c.id.toNat c.name.toList :: raws c.later := by
  rw [← raw_objectLine h.name h.name_ne_nil]
  rfl

theorem mem_later (h : c.IsSound) {l : CodeLine} (hl : l ∈ c.later) : LineKind c l := by
  have fixed (lines : List CodeLine) (hs : ∀ k ∈ lines, k ∈ fixedLines) (hm : l ∈ lines) :
      LineKind c l := .fixed (List.mem_append_right _ (hs l hm))
  simp only [later, List.mem_append] at hl
  rcases hl with ((((hl | hl) | hl) | hl) | hl) | hl
  · simp only [List.mem_cons, List.not_mem_nil, or_false] at hl
    rcases hl with rfl | rfl | rfl | rfl | rfl | rfl | rfl | rfl
    · exact fixed [⟨0, "\x7b"⟩] (by decide) (by decide)
    · exact fixed [⟨1, "Subtype = Test;"⟩] (by decide) (by decide)
    · exact fixed [.blank] (by decide) (by decide)
    · exact fixed [⟨1, "trigger OnRun()"⟩] (by decide) (by decide)
    · exact fixed [begins] (by decide) (by decide)
    · exact .remark _ (isRemark_feature h)
    · exact fixed [ends] (by decide) (by decide)
    · exact fixed [.blank] (by decide) (by decide)
  · rw [globals, List.mem_cons, List.mem_cons] at hl
    rcases hl with rfl | rfl | hl
    · exact fixed [⟨1, "var"⟩] (by decide) (by decide)
    · exact .library (raw_libraryLine _)
    · exact fixed _ (by decide) hl
  · exact fixed setup (fun k hk => List.mem_append_left _ (List.mem_append_right _ hk)) hl
  · obtain ⟨t, ht, hl⟩ := List.mem_flatMap.1 hl
    rcases TestProcedure.mem_lines (h.tests t ht) hl with rfl | ⟨content, hc⟩ | hf
    · obtain ⟨rest, hn, hp⟩ := (h.tests t ht).name
      refine .test rest hp ?_
      rw [TestProcedure.header, raw_procedureLine, hn]
    · exact .remark content hc
    · exact .fixed (List.mem_append_left _ hf)
  · refine fixed handlers (fun k hk => List.mem_append_right _ hk) ?_
    cases hh : c.hasHandlers <;> rw [hh] at hl
    · cases hl
    · exact hl
  · exact fixed [⟨0, "\x7d"⟩] (by decide) hl

/-! ## What the parts show -/

theorem declares_onRun (h : c.IsSound) : c.onRunText.Declares "OnRun".toList .trigger := by
  refine declares_routineText (by decide) (by decide) (by simp) ?_
  intro l hl
  rw [List.mem_singleton.1 hl]
  exact (isRemark_feature h).blockDelta_raw

/-- A routine whose lines are all fixed. -/
theorem declares_fixed {header : CodeLine} {body : List CodeLine} {name : List Char}
    {kind : RoutineKind} (hb : opensBracket (mask header.raw) = false)
    (hh : header? header.raw (mask header.raw) = some (name, kind))
    (hi : ∃ rows, CodeLine.Spells body rows ∧ ∀ row ∈ rows, blockDelta (mask row) = 0) :
    (routineText header [] body).Declares name kind :=
  declares_routineText hb hh (fun _ hl => absurd hl List.not_mem_nil)
    (CodeLine.forall_raw (fun row => blockDelta (mask row) = 0) hi)

theorem declares_initialize : initializeText.Declares "Initialize".toList .procedure :=
  declares_fixed (by decide) (by decide)
    ⟨_, by repeat' constructor, by decide +kernel⟩

theorem declares_permissions : permissionsText.Declares "SetTestPermissions".toList .procedure :=
  declares_fixed (by decide) (by decide)
    ⟨_, by repeat' constructor, by decide +kernel⟩

theorem declares_message : messageText.Declares "MessageHandler".toList .procedure :=
  declares_fixed (by decide) (by decide)
    ⟨_, by repeat' constructor, by decide +kernel⟩

theorem declares_confirm : confirmText.Declares "ConfirmHandler".toList .procedure :=
  declares_fixed (by decide) (by decide)
    ⟨_, by repeat' constructor, by decide +kernel⟩

/-- A routine without attributes, and the blank line behind it. -/
theorem shows_plain {header : CodeLine} {body : List CodeLine} {name : List Char}
    {kind : RoutineKind} (h : (routineText header [] body).Declares name kind) (number : ℕ) :
    Shows number (raws (header :: begins :: (body ++ [ends]) ++ [.blank]))
      [(routineText header [] body).shown name kind [] none number] := by
  refine shows_blank ?_
  have lead : ScanState.start.run (numbered number []) = (⟨[], none, none⟩, []) := rfl
  have := Shows.routine lead h
  rw [lines_routineText] at this
  exact this

theorem shows_header (h : c.IsSound) :
    Shows 1 (raws c.header) [c.onRunText.shown "OnRun".toList .trigger [] none 5] := by
  have preface : Shows 1 (raws c.preface) [] := by
    have fixed : ∀ line ∈ raws [⟨0, "\x7b"⟩, ⟨1, "Subtype = Test;"⟩, .blank],
        opensBracket (mask line) = false ∧ isHeader (mask line) = false := by
      decide
    refine .idle (fun line hl => ?_) 1
    rw [raw_preface h] at hl
    rcases List.mem_cons.1 hl with rfl | hl
    · rw [mask_bare (isBare_objectLine h.name _)]
      exact ⟨rfl, rfl⟩
    · exact fixed line hl
  exact preface.append (shows_plain (declares_onRun h) 5)

theorem shows_globals (h : c.IsSound) (number : ℕ) : Shows number (raws c.globals) [] := by
  have fixed : ∀ line ∈ raws [⟨1, "var"⟩, ⟨2, "LibraryAssert: Codeunit \"Library Assert\";"⟩,
      ⟨2, "LibraryVariableStorage: Codeunit \"Library - Variable Storage\";"⟩,
      ⟨2, "LibraryLowerPermissions: Codeunit \"Library - Lower Permissions\";"⟩,
      ⟨2, "IsInitialized: Boolean;"⟩, .blank],
      opensBracket (mask line) = false ∧ isHeader (mask line) = false :=
    List.forall_mem_map.2 <| CodeLine.forall_raw
      (fun row => opensBracket (mask row) = false ∧ isHeader (mask row) = false)
      ⟨_, by repeat' constructor, by decide +kernel⟩
  obtain ⟨hp, hne⟩ := isPlain_of_isIdentifier h.library
  refine .idle (fun line hl => ?_) number
  rw [globals, raws_cons, raws_cons, raw_libraryLine] at hl
  rcases List.mem_cons.1 hl with rfl | hl
  · exact fixed _ List.mem_cons_self
  rcases List.mem_cons.1 hl with rfl | hl
  · rw [mask_bare (isBare_libraryLine hp)]
    refine ⟨?_, isHeader_libraryLine hp hne⟩
    rw [opensBracket, skipBlanks_libraryLine hp hne]
    obtain ⟨d, rest, hs⟩ := List.exists_cons_of_ne_nil hne
    rw [hs, List.cons_append, List.head?_cons, beq_eq_false_iff_ne]
    intro he
    exact ne_of_plain (hp d (hs ▸ List.mem_cons_self)) rfl (Option.some.inj he)
  · exact fixed line (List.mem_cons_of_mem _ hl)

/-- The procedures that prepare a test, on lines from the given number on. -/
def setupShown (number : ℕ) : List (Routine × List Line) :=
  [initializeText.shown "Initialize".toList .procedure [] none number,
    permissionsText.shown "SetTestPermissions".toList .procedure [] none (number + 12)]

theorem shows_setup (number : ℕ) : Shows number (raws setup) (setupShown number) :=
  (shows_plain declares_initialize number).append (shows_plain declares_permissions _)

/-- The handlers, on lines from the given number on. -/
def handlersShown (number : ℕ) : List (Routine × List Line) :=
  [messageText.shown "MessageHandler".toList .procedure ["MessageHandler".toList] none (number + 1),
    confirmText.shown "ConfirmHandler".toList .procedure ["ConfirmHandler".toList] none
      (number + 7)]

/-- A handler with the line of its attribute and the blank line behind it. -/
theorem shows_handler (list : CodeLine) {header : CodeLine} {body : List CodeLine} {name : List Char}
    (ha : afterAttribute? (mask list.raw) = some [])
    (hn : attributeNames (mask list.raw) = [name]) (ht : marksTest name = false)
    (h : (routineText header [] body).Declares name .procedure) (number : ℕ) :
    Shows number (raws (list :: header :: begins :: (body ++ [ends]) ++ [.blank]))
      [(routineText header [] body).shown name .procedure [name] none (number + 1)] := by
  refine shows_blank ?_
  have lead : ScanState.start.run (numbered number [list.raw]) =
      (⟨[name], none, none⟩, []) := by
    rw [numbered_cons, ScanState.run_cons, read_attributeLine ha hn rfl]
    simp [ht, ScanState.start]
  have := Shows.routine lead h
  rw [lines_routineText] at this
  exact this

theorem shows_handlers (number : ℕ) : Shows number (raws handlers) (handlersShown number) :=
  (shows_handler ⟨1, "[MessageHandler]"⟩ (by decide) (by decide)
    (by decide) declares_message number).append
    (shows_handler ⟨1, "[ConfirmHandler]"⟩ (by decide) (by decide)
      (by decide) declares_confirm _)

/-! ## The whole codeunit -/

/-- The number of lines before the tests. -/
def linesBeforeTests : ℕ := 33

/-- The routines of a codeunit, each with its lines. -/
def shown (c : Codeunit) : List (Routine × List Line) :=
  c.onRunText.shown "OnRun".toList .trigger [] none 5 :: (setupShown 17 ++
    TestProcedure.shownFrom (linesBeforeTests + 1) c.tests ++
    if c.hasHandlers then
      handlersShown (linesBeforeTests + 1 + (raws (c.tests.flatMap (·.lines))).length)
    else [])

theorem shows_lines (h : c.IsSound) : Shows 1 (raws c.lines) c.shown := by
  have before : Shows 1 (raws (c.header ++ c.globals ++ setup))
      (c.onRunText.shown "OnRun".toList .trigger [] none 5 :: setupShown 17) := by
    rw [raws_append, raws_append]
    exact ((shows_header h).append (shows_globals h _)).append (shows_setup _)
  have hlen : 1 + (raws (c.header ++ c.globals ++ setup)).length = linesBeforeTests + 1 := rfl
  have tests := TestProcedure.shows_tests h.tests (linesBeforeTests + 1)
  rw [← hlen] at tests
  have closing (number : ℕ) : Shows number (raws [⟨0, "\x7d"⟩]) [] := .idle (by decide) _
  rw [lines, shown, raws_append, raws_append, raws_append (c.header ++ c.globals ++ setup), ← hlen]
  cases c.hasHandlers with
  | false => simpa using (before.append tests).append (closing _)
  | true =>
    have := ((before.append tests).append (shows_handlers _)).append (closing _)
    rw [List.length_append, ← Nat.add_assoc] at this
    simpa using this

/-! ## The analysis of its code -/

theorem toList_code (c : Codeunit) : c.code.toList = joinLines (raws c.lines) := by
  rw [code, String.toList_ofList, allChars_eq]
  rfl

theorem isPlainLine_lines (h : c.IsSound) : ∀ line ∈ raws c.lines, IsPlainLine line := by
  have fixed : ∀ l ∈ TestProcedure.fixedLines ++ fixedLines, IsPlainLine l.raw :=
    CodeLine.forall_raw IsPlainLine
      ⟨_, by repeat' constructor, by decide +kernel⟩
  intro line hline
  rw [raws_lines h] at hline
  rcases List.mem_cons.1 hline with rfl | hline
  · exact isPlainLine_objectLine h.name h.name_ne_nil _
  obtain ⟨l, hl, rfl⟩ := List.mem_map.1 hline
  cases mem_later h hl with
  | library hr => exact hr ▸ isPlainLine_libraryLine (isPlain_of_isIdentifier h.library).1
  | test rest hp hr => exact hr ▸ isPlainLine_procedureLine hp
  | remark content hc => exact hc.isPlainLine_raw
  | fixed hf => exact fixed l hf

theorem ofString_code (c : Codeunit) :
    Analysis.ofString c.code = Analysis.ofChars (joinLines (raws c.lines)) := by
  rw [Analysis.ofString, toList_code]

theorem routines_code (h : c.IsSound) :
    (Analysis.ofString c.code).routines = c.shown.map Prod.fst := by
  rw [ofString_code, Analysis.routines_ofChars, (shows_lines h).routines_eq (isPlainLine_lines h)]

/-- The comments of a routine are those of its lines. -/
theorem commentsOf_code (h : c.IsSound) {p : Routine × List Line} (hp : p ∈ c.shown) :
    (Analysis.ofString c.code).commentsOf p.1 = p.2.flatMap Line.comments := by
  rw [Analysis.commentsOf, ofString_code, Analysis.source_ofChars,
    commentsBetween_join (isPlainLine_lines h), (shows_lines h).lines p hp]

theorem lines_code (h : c.IsSound) :
    (Analysis.ofString c.code).source.lines = numbered 1 (raws c.lines) := by
  rw [ofString_code, Analysis.source_ofChars, lines_join (isPlainLine_lines h)]

/-- The tests of the code are those of the codeunit. -/
theorem tests_code (h : c.IsSound) :
    (Analysis.ofString c.code).tests =
      (TestProcedure.shownFrom (linesBeforeTests + 1) c.tests).map Prod.fst := by
  have tests : ∀ (tests : List TestProcedure) (number : ℕ),
      ((TestProcedure.shownFrom number tests).map Prod.fst).filter (·.isTest) =
        (TestProcedure.shownFrom number tests).map Prod.fst := by
    intro tests number
    refine List.filter_eq_self.2 fun r hr => ?_
    obtain ⟨p, hp, rfl⟩ := List.mem_map.1 hr
    obtain ⟨t, -, n, rfl⟩ := TestProcedure.mem_shownFrom hp
    rfl
  rw [Analysis.tests, routines_code h, shown, List.map_cons, List.map_append, List.map_append,
    List.filter_cons, List.filter_append, List.filter_append, tests]
  cases c.hasHandlers with
  | false => exact List.append_nil _
  | true => exact List.append_nil _

theorem mem_shown_of_mem_shownFrom {p : Routine × List Line}
    (hp : p ∈ TestProcedure.shownFrom (linesBeforeTests + 1) c.tests) : p ∈ c.shown :=
  List.mem_cons_of_mem _ (List.mem_append_left _ (List.mem_append_right _ hp))

end Codeunit

end Acceptance
