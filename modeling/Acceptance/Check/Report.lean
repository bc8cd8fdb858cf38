import Acceptance.Rule

/-!
# Issues and reports

A check reports issues. The results of several checks are kept by category in the order in which
the categories first came; a report sums them up. A source passes if no issue is an error, and is
accepted if it passes and, where warnings count as failures, has no warning either.

Results:
* `one_le_line`: an issue points at a line.
* `get_insert_self`: what is recorded for a category is what is read back.
* `errors_add_warnings`: every issue is counted once.
-/

namespace Acceptance

/-- One violation of a rule. -/
structure Issue where
  /-- The code of the rule. -/
  rule : String
  severity : Severity
  message : String
  /-- The line of the source, from 1. -/
  line : Nat
  deriving Repr, DecidableEq

namespace Issue

/-- An issue; a line number below 1 counts as 1. -/
def of (rule : String) (severity : Severity) (message : String) (line : Nat) : Issue :=
  ⟨rule, severity, message, max line 1⟩

/-- Model of `Issue::error`: an issue that blocks acceptance. -/
def error (rule : String) (message : String) (line : Nat) : Issue :=
  of rule .error message line

/-- Model of `Issue::warning`: an advisory issue. -/
def warning (rule : String) (message : String) (line : Nat) : Issue :=
  of rule .warning message line

/-- Model of `is_error`: whether the issue blocks acceptance. -/
def isError (i : Issue) : Bool :=
  i.severity == .error

/-- The issue on one line. -/
def display (i : Issue) : String :=
  s!"line {i.line}: {i.severity.key} [{i.rule}] {i.message}"

end Issue

/-- Model of `ValidationResult`: the issues of several checks, by category. -/
structure Results where
  entries : List (Category × List Issue)
  deriving Repr, DecidableEq

namespace Results

/-- No check has run. -/
def empty : Results := ⟨[]⟩

/-- Entries with the issues of one category put in place, at the end if it is new. -/
def insertEntry (category : Category) (issues : List Issue) :
    List (Category × List Issue) → List (Category × List Issue)
  | [] => [(category, issues)]
  | (c, old) :: rest =>
    if c == category then (c, issues) :: rest else (c, old) :: insertEntry category issues rest

/-- Model of `insert`: the results with the issues of one category recorded in place of earlier
ones. -/
def insert (r : Results) (category : Category) (issues : List Issue) : Results :=
  ⟨insertEntry category issues r.entries⟩

/-- Model of `get`: the issues of a category, none if its check did not run. -/
def get (r : Results) (category : Category) : List Issue :=
  (r.entries.lookup category).getD []

/-- Model of `ValidationResult::issues`: all issues, check by check. -/
def issues (r : Results) : List Issue :=
  r.entries.flatMap (·.2)

end Results

/-- Totals over results. -/
structure Summary where
  total : Nat
  errors : Nat
  warnings : Nat
  /-- There is no error. -/
  passed : Bool
  issues : List Issue
  deriving Repr, DecidableEq

/-- Model of `summarize`: the totals of results. -/
def Results.summary (r : Results) : Summary :=
  let issues := r.issues
  let errors := issues.countP (·.isError)
  ⟨issues.length, errors, issues.length - errors, errors == 0, issues⟩

/-- Model of `accepted`: whether a summary is good enough, where `strict` says that warnings are
failures. -/
def Summary.accepted (s : Summary) (strict : Bool) : Bool :=
  s.passed && !(strict && decide (0 < s.warnings))

/-- Model of `write_summary`: the totals on one line. -/
def Summary.display (s : Summary) : String :=
  let verdict := if s.passed then "PASSED" else "FAILED"
  s!"{verdict}: {s.total} issue(s), {s.errors} error(s), {s.warnings} warning(s)"

/-- Model of `ValidationReport`: results with their summary and a verdict. -/
structure Report where
  checks : Results
  summary : Summary
  accepted : Bool
  deriving Repr, DecidableEq

/-- The report on results, where `strict` says that warnings are failures. -/
def Report.of (checks : Results) (strict : Bool) : Report :=
  ⟨checks, checks.summary, checks.summary.accepted strict⟩

/-! ## First laws -/

theorem Issue.one_le_line (rule : String) (severity : Severity) (message : String) (line : Nat) :
    1 ≤ (Issue.of rule severity message line).line :=
  Nat.le_max_right line 1

theorem Results.get_insert_self (r : Results) (category : Category) (issues : List Issue) :
    (r.insert category issues).get category = issues := by
  have key : ∀ entries : List (Category × List Issue),
      (insertEntry category issues entries).lookup category = some issues := by
    intro entries
    induction entries with
    | nil => simp [insertEntry]
    | cons e rest ih =>
      obtain ⟨c, old⟩ := e
      by_cases h : c = category
      · simp [insertEntry, h]
      · have h' : (category == c) = false := by simpa using Ne.symm h
        simp [insertEntry, h, List.lookup_cons, h', ih]
  simp [insert, get, key]

theorem Results.errors_add_warnings (r : Results) :
    r.summary.errors + r.summary.warnings = r.summary.total := by
  have := List.countP_le_length (p := fun i : Issue => i.isError) (l := r.issues)
  simp only [summary]
  omega

end Acceptance
