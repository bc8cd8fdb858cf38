import Acceptance.Source.Routine
import Acceptance.Source.VarBlock

/-!
# What the checks look at

The views of a source together with its routines and its blocks of variables. All checks of a
source share one analysis.
-/

namespace Acceptance

/-- A source with its structure. -/
structure Analysis where
  source : Source
  routines : List Source.Routine
  varBlocks : List Source.VarBlock
  deriving Repr, DecidableEq

namespace Analysis

/-- Model of `Analysis::new`: the analysis of a source text. -/
def ofChars (code : List Char) : Analysis :=
  let source := Source.ofChars code
  ⟨source, source.routines, source.varBlocks⟩

/-- The analysis of a source text. -/
def ofString (code : String) : Analysis :=
  ofChars code.toList

/-- Model of `tests`: the routines that are marked as tests. -/
def tests (a : Analysis) : List Source.Routine :=
  a.routines.filter (·.isTest)

/-- The comments that open inside a routine. -/
def commentsOf (a : Analysis) (r : Source.Routine) : List Source.Comment :=
  a.source.commentsBetween r.headerLine r.endLine

end Analysis

end Acceptance
