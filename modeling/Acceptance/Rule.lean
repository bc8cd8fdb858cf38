/-!
# The rule catalog

The named conventions that a test codeunit is held to. Every rule belongs to one category, the
check that reports it, and has a severity: errors block acceptance, warnings are advisory.

Results:
* `lookup?_eq_some_iff`: a code finds exactly the rule of the catalog with that code.
* `codes_nodup`: no two rules have the same code.
* `Severity.ofKey?_key`, `Category.ofKey?_key`: written names are read back.
-/

namespace Acceptance

/-- How seriously a violation is taken. -/
inductive Severity where
  | error
  | warning
  deriving Repr, DecidableEq, Inhabited

namespace Severity

/-- Model of `as_str`: the written name of a severity. -/
def key : Severity → String
  | error => "error"
  | warning => "warning"

/-- The severity with a written name. -/
def ofKey? (key : String) : Option Severity :=
  [error, warning].find? (·.key == key)

end Severity

/-- Model of `CheckCategory`: a group of rules that one check reports. -/
inductive Category where
  /-- Names of test procedures. -/
  | naming
  /-- Tag comments inside tests. -/
  | comments
  /-- Use of the property TestPermissions. -/
  | permissions
  /-- Calls of Commit inside tests. -/
  | commit
  /-- Length of object names. -/
  | objectLength
  /-- Number and numbering of scenarios. -/
  | scenarioCount
  /-- Comments in library procedures. -/
  | library
  /-- Order of declarations in var blocks. -/
  | variableOrder
  deriving Repr, DecidableEq, Inhabited

namespace Category

/-- Model of `CheckCategory::ALL`: all categories, in the order in which the checks run. -/
def all : List Category :=
  [.naming, .comments, .permissions, .commit, .objectLength,
   .scenarioCount, .library, .variableOrder]

/-- Model of `CheckCategory::key`: the written name of a category. -/
def key : Category → String
  | naming => "naming"
  | comments => "comments"
  | permissions => "permissions"
  | commit => "commit"
  | objectLength => "objectLength"
  | scenarioCount => "scenarioCount"
  | library => "library"
  | variableOrder => "variableOrder"

/-- The category with a written name. -/
def ofKey? (key : String) : Option Category :=
  all.find? (·.key == key)

end Category

/-- One named convention. -/
structure Rule where
  /-- Its stable code. -/
  code : String
  /-- What it requires. -/
  description : String
  /-- A conforming example, or what to write instead. -/
  sample : String
  severity : Severity
  category : Category
  deriving Repr, DecidableEq

namespace Rule

/-! ## Codes -/

def testNamingPrefix : String := "TEST_NAMING_PREFIX"
def testNamingQuotes : String := "TEST_NAMING_QUOTES"
def testNamingLength : String := "TEST_NAMING_LENGTH"
def missingScenario : String := "MISSING_SCENARIO"
def missingGiven : String := "MISSING_GIVEN"
def missingWhen : String := "MISSING_WHEN"
def missingThen : String := "MISSING_THEN"
def forbiddenComment : String := "FORBIDDEN_COMMENT"
def forbiddenTestPermissions : String := "FORBIDDEN_TESTPERMISSIONS_DISABLED"
def forbiddenCommitInTest : String := "FORBIDDEN_COMMIT_IN_TEST"
def objectNameLength : String := "OBJECT_NAME_LENGTH"
def scenarioCountMismatch : String := "SCENARIO_COUNT_MISMATCH"
def scenarioNumberingGap : String := "SCENARIO_NUMBERING_GAP"
def libraryNoComments : String := "LIBRARY_NO_COMMENTS"
def variableOrder : String := "VARIABLE_ORDER"

/-! ## The catalog -/

/-- Model of `RULES`: all rules, category by category. -/
def catalog : List Rule :=
  [
    { code := testNamingPrefix
      description := "Test procedures must use T####_ prefix format"
      sample := "procedure T0001_ValidateCustomerCreation()"
      severity := .error
      category := .naming },
    { code := testNamingQuotes
      description := "Test procedure names must not contain quotation marks"
      sample := "Use PascalCase: BOMVersionTests16FDW instead of \"ATDD 330789 BOM Version Tests\""
      severity := .error
      category := .naming },
    { code := testNamingLength
      description := "Test procedure names should not exceed 120 characters"
      sample := "T0004_PostInvoiceWithDiscount rather than a sentence-length name"
      severity := .warning
      category := .naming },
    { code := missingScenario
      description := "Every test must have // [SCENARIO X] comment"
      sample := "// [SCENARIO 1] Customer creation with valid data"
      severity := .error
      category := .comments },
    { code := missingGiven
      description := "Every test must have at least one // [GIVEN] comment"
      sample := "// [GIVEN] Valid customer data is prepared"
      severity := .error
      category := .comments },
    { code := missingWhen
      description := "Every test must have at least one // [WHEN] comment with TestPage actions"
      sample := "// [WHEN] User creates customer through the page"
      severity := .error
      category := .comments },
    { code := missingThen
      description := "Every test must have at least one // [THEN] comment"
      sample := "// [THEN] Customer is successfully created"
      severity := .error
      category := .comments },
    { code := forbiddenComment
      description := "Only [SCENARIO], [GIVEN], [WHEN], [THEN] comments allowed in tests"
      sample := "Remove all explanatory comments, keep only structured test comments"
      severity := .error
      category := .comments },
    { code := forbiddenTestPermissions
      description := "TestPermissions = Disabled is forbidden"
      sample := "Use SetTestPermissions() procedure with LibraryLowerPermissions instead"
      severity := .error
      category := .permissions },
    { code := forbiddenCommitInTest
      description := "Commit() is forbidden in test procedures"
      sample := "Only use Commit() in Initialize() for one-time setup"
      severity := .error
      category := .commit },
    { code := objectNameLength
      description := "AL object names must not exceed 30 characters"
      sample := "Use FormulationMgmt199FDW instead of FormulationManagementAdministration199FDW"
      severity := .error
      category := .objectLength },
    { code := scenarioCountMismatch
      description := "Number of test procedures must match number of scenarios"
      sample := "10 scenarios = exactly 10 test procedures (T0001 through T0010)"
      severity := .error
      category := .scenarioCount },
    { code := scenarioNumberingGap
      description := "Scenario numbers should run 1..N without gaps"
      sample := "[SCENARIO 1], [SCENARIO 2], [SCENARIO 3] rather than 1, 3, 4"
      severity := .warning
      category := .scenarioCount },
    { code := libraryNoComments
      description := "Library functions should be self-documenting without comments"
      sample := "Use clear naming like CreateCustomerWithLocationCode() instead of comments"
      severity := .warning
      category := .library },
    { code := variableOrder
      description := "Variables should be ordered by type (Record, Report, Codeunit, etc.)"
      sample := "Record variables first, then Report, then Codeunit, etc."
      severity := .warning
      category := .variableOrder } ]

/-- Model of `rule`: the rule with a code. -/
def lookup? (code : String) : Option Rule :=
  catalog.find? (·.code == code)

/-- Model of `rules_in`: the rules that one check reports. -/
def inCategory (category : Category) : List Rule :=
  catalog.filter (·.category == category)

/-! ## First laws -/

theorem codes_nodup : (catalog.map code).Nodup := by decide +kernel

theorem find?_code_of_mem {rules : List Rule} (h : (rules.map code).Nodup) {r : Rule}
    (hr : r ∈ rules) : rules.find? (·.code == r.code) = some r := by
  induction rules with
  | nil => simp at hr
  | cons first rest ih =>
    simp only [List.map_cons, List.nodup_cons] at h
    rcases List.mem_cons.1 hr with rfl | hr
    · simp
    · have hne : first.code ≠ r.code := fun he => h.1 (he ▸ List.mem_map_of_mem hr)
      simp [hne, ih h.2 hr]

theorem lookup?_eq_some_iff {code : String} {r : Rule} :
    lookup? code = some r ↔ r ∈ catalog ∧ r.code = code := by
  constructor
  · intro h
    exact ⟨List.mem_of_find?_eq_some h, by simpa using List.find?_some h⟩
  · rintro ⟨h, rfl⟩
    exact find?_code_of_mem codes_nodup h

end Rule

theorem Severity.ofKey?_key (s : Severity) : ofKey? s.key = some s := by
  cases s <;> decide

theorem Category.ofKey?_key (c : Category) : ofKey? c.key = some c := by
  cases c <;> decide

end Acceptance
