/-!
# Conventions of generated code

What holds of generated code by the way it is laid out, as a list for readers.

Results:
* `ids_nodup`: no two conventions have the same name.
-/

namespace Acceptance

/-- A convention that generated code follows. -/
structure Convention where
  id : String
  /-- The convention in one sentence. -/
  summary : String
  deriving Repr, DecidableEq

namespace Convention

/-- Model of `applied_conventions`: all conventions, in the order in which they are listed. -/
def all : List Convention :=
  [⟨"TEST_NAMING_PREFIX", "Test procedures are named T<4-digit id>_<PascalCaseTitle>"⟩,
    ⟨"SCENARIO_COMMENT", "Each test opens with // [SCENARIO <id>] <title>"⟩,
    ⟨"GIVEN_WHEN_THEN", "Steps are emitted as // [GIVEN], // [WHEN] and // [THEN] comments"⟩,
    ⟨"AND_CONTEXT_INHERITANCE", "AND steps are emitted under the group they extend"⟩,
    ⟨"NO_EXTRA_COMMENTS", "Test bodies contain only structural tag comments"⟩,
    ⟨"NO_COMMENTS_IN_INITIALIZE", "Initialize() holds statements only"⟩,
    ⟨"NO_COMMENTS_IN_SETTESTPERMISSIONS", "SetTestPermissions() holds a single statement"⟩,
    ⟨"TESTPAGE_IN_WHEN", "Worksheet interaction goes through a TestPage declared per test"⟩,
    ⟨"OBJECT_NAME_LENGTH", "Derived codeunit names never exceed 30 characters"⟩,
    ⟨"SCENARIO_COUNT_MATCH", "One test procedure and one scenario tag per scenario"⟩]

/-! ## First laws -/

theorem ids_nodup : (all.map (·.id)).Nodup := by decide

end Convention

end Acceptance
