import Acceptance.Codeunit.Basic

/-!
# The layout of a test codeunit

Code is laid out line by line, four spaces for each level, and no line ends in blanks. The text of a
plan only gets into comments that fill the rest of their line.

Results:
* `CodeLine.allChars_append`: lines are laid out one after the other.
-/

namespace Acceptance

open Text

/-- A line of code. -/
structure CodeLine where
  /-- The number of levels by which it is indented. -/
  level : Nat
  text : String
  deriving Repr, DecidableEq

namespace CodeLine

/-- Model of `Emitter::blank`: a line with nothing on it. -/
def blank : CodeLine := ⟨0, ""⟩

/-- Model of `Emitter::line`: the line with its indentation and its line feed. -/
def chars (l : CodeLine) : List Char :=
  List.replicate (4 * l.level) ' ' ++ trimEnd l.text.toList ++ ['\n']

/-- Some lines one after the other. -/
def allChars (lines : List CodeLine) : List Char :=
  lines.flatMap chars

end CodeLine

/-- Model of `HANDLER_FUNCTIONS_ATTRIBUTE`: the attribute that attaches the handlers to a test. -/
def handlerAttribute : String := "[HandlerFunctions('MessageHandler,ConfirmHandler')]"

/-- Model of `WHEN_PLACEHOLDER`: what ends the WHEN comments of a test. -/
def whenPlaceholder : String := "// [WHEN] TODO: Implement action using TestPage"

/-- Model of `THEN_PLACEHOLDER`: what ends the THEN comments of a test. -/
def thenPlaceholder : String := "// [THEN] TODO: Implement assertions using TestPage"

/-- Model of `Emitter::comment` for each step: the comments of the steps of a group. -/
def stepComments (g : Group) (steps : List String) : List CodeLine :=
  steps.map fun step => ⟨2, s!"// [{g.tag}] {step}"⟩

namespace TestProcedure

/-- The body of a test from its `begin` on. -/
def body (t : TestProcedure) : List CodeLine :=
  [⟨1, "begin"⟩, ⟨2, s!"// [SCENARIO {t.id.toNat}] {t.title}"⟩] ++
    stepComments .given t.given ++ [⟨2, "Initialize();"⟩, .blank] ++
    stepComments .when t.when ++ [⟨2, whenPlaceholder⟩, .blank] ++
    stepComments .expected t.expected ++ [⟨2, thenPlaceholder⟩, ⟨1, "end;"⟩, .blank]

/-- Model of `test_procedure`: the test with its attributes and its variables. -/
def lines (t : TestProcedure) : List CodeLine :=
  [⟨1, "[Test]"⟩] ++ (if t.handled then [⟨1, handlerAttribute⟩] else []) ++
    [⟨1, s!"procedure {t.name}()"⟩, ⟨1, "var"⟩] ++ t.declarations.map (⟨2, ·⟩) ++ t.body

end TestProcedure

namespace Codeunit

/-- Model of `header`: the start of the object up to its first trigger. -/
def header (c : Codeunit) : List CodeLine :=
  [⟨0, s!"codeunit {c.id.toNat} {c.name}"⟩, ⟨0, "\x7b"⟩, ⟨1, "Subtype = Test;"⟩, .blank,
    ⟨1, "trigger OnRun()"⟩, ⟨1, "begin"⟩,
    ⟨2, s!"// [FEATURE] User Story {c.workItemNumber}: {c.workItem}"⟩, ⟨1, "end;"⟩, .blank]

/-- Model of `globals`: the variables of the object. -/
def globals (c : Codeunit) : List CodeLine :=
  [⟨1, "var"⟩, ⟨2, s!"{c.library}: Codeunit {c.library};"⟩,
    ⟨2, "LibraryAssert: Codeunit \"Library Assert\";"⟩,
    ⟨2, "LibraryVariableStorage: Codeunit \"Library - Variable Storage\";"⟩,
    ⟨2, "LibraryLowerPermissions: Codeunit \"Library - Lower Permissions\";"⟩,
    ⟨2, "IsInitialized: Boolean;"⟩, .blank]

/-- Model of `setup_procedures`: the procedures that prepare a test. -/
def setup : List CodeLine :=
  [⟨1, "local procedure Initialize()"⟩, ⟨1, "begin"⟩, ⟨2, "SetTestPermissions();"⟩,
    ⟨2, "LibraryVariableStorage.Clear();"⟩, .blank, ⟨2, "if IsInitialized then"⟩, ⟨3, "exit;"⟩,
    .blank, ⟨2, "Commit();"⟩, ⟨2, "IsInitialized := true;"⟩, ⟨1, "end;"⟩, .blank,
    ⟨1, "local procedure SetTestPermissions()"⟩, ⟨1, "begin"⟩,
    ⟨2, "LibraryLowerPermissions.AddO365BusinessPremium();"⟩, ⟨1, "end;"⟩, .blank]

/-- Model of `handlers`: the handlers for messages and questions. -/
def handlers : List CodeLine :=
  [⟨1, "[MessageHandler]"⟩, ⟨1, "procedure MessageHandler(Message: Text[1024])"⟩, ⟨1, "begin"⟩,
    ⟨2, "LibraryVariableStorage.Enqueue(Message);"⟩, ⟨1, "end;"⟩, .blank,
    ⟨1, "[ConfirmHandler]"⟩,
    ⟨1, "procedure ConfirmHandler(Question: Text[1024]; var Reply: Boolean)"⟩, ⟨1, "begin"⟩,
    ⟨2, "Reply := LibraryVariableStorage.DequeueBoolean();"⟩, ⟨1, "end;"⟩, .blank]

/-- All lines of the object. -/
def lines (c : Codeunit) : List CodeLine :=
  c.header ++ c.globals ++ setup ++ c.tests.flatMap (·.lines) ++
    (if c.hasHandlers then handlers else []) ++ [⟨0, "\x7d"⟩]

/-- The code of the object. -/
def code (c : Codeunit) : String :=
  String.ofList (CodeLine.allChars c.lines)

end Codeunit

/-- Model of `generate_test_codeunit`: the code of the test codeunit of a plan. The options are
taken as they are. -/
def generate (o : Options) (p : Plan) : String :=
  (Codeunit.ofPlan o p).code

/-! ## First laws -/

@[simp] theorem CodeLine.allChars_append (first second : List CodeLine) :
    allChars (first ++ second) = allChars first ++ allChars second := by
  simp [allChars]

end Acceptance
