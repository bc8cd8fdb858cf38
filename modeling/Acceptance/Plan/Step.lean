import Acceptance.Plan.Label

/-!
# Steps of a scenario

A labelled line opens the group of its label, or stays in the active group if it is an AND line,
even if nothing follows the label. It makes a step if something does. Before the first label of a
group the given group is active.

Results:
* `length_attributed`: each labelled line belongs to one group.
* `text_ne_nil`: no step is without text.
-/

namespace Acceptance

open Text

/-- A labelled line and the group that it belongs to. -/
structure Step where
  label : Label
  group : Group
  text : List Char
  deriving Repr, DecidableEq

namespace Step

/-- Model of `ContextMachine` along the loop of `extract_steps`: labelled lines with their groups,
where `current` is the active group. -/
def attributed (current : Group) : List (Label × List Char) → List Step
  | [] => []
  | (label, text) :: rest =>
    let group := label.observe current
    ⟨label, group, text⟩ :: attributed group rest

/-- The steps on some lines, in order. -/
def ofLines (lines : List (List Char)) : List Step :=
  (attributed .given (lines.filterMap step?)).filter fun s => !s.text.isEmpty

end Step

namespace Scenario

/-- Model of `extract_steps`: the scenario whose body has the given lines. The first word behind a
priority label is its priority. -/
def ofLines (id : UInt32) (title : String) (lines : List (List Char)) : Scenario :=
  let steps := Step.ofLines lines
  let texts (label : Label) : List String :=
    (steps.filter (·.label == label)).map fun s => String.ofList s.text
  { id, title
    priority := ((lines.findSome? priority?).map String.ofList).getD defaultPriority
    given := texts .given
    when := texts .when
    expected := texts .expected
    ands := (steps.filter (·.label == .and)).map fun s => ⟨s.group, String.ofList s.text⟩ }

end Scenario

/-! ## First laws -/

@[simp] theorem Step.length_attributed (current : Group) (labelled : List (Label × List Char)) :
    (attributed current labelled).length = labelled.length := by
  induction labelled generalizing current with
  | nil => rfl
  | cons p rest ih => simp [attributed, ih]

theorem Step.text_ne_nil {s : Step} {lines : List (List Char)} (h : s ∈ ofLines lines) :
    s.text ≠ [] := by
  have := (List.mem_filter.1 h).2
  intro he
  simp [he] at this

end Acceptance
