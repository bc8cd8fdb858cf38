import Acceptance.Proofs.CommandLine.World
import Acceptance.Proofs.Json.Written

/-!
# Plans are read back

The record of a plan holds all of the plan, and a text that holds the record gives it back. This is
so for both layouts of the record and for what parsing prints, which is the long layout with a line
feed behind it.

Main results:

* `Scenario.ofJson?_toJson`, `Plan.ofJson?_toJson`: a record gives back what it was made of.
* `Plan.isReadable_toJson`: the record of a plan can be written.
* `Plan.ofText?_toText`: a plan is read from each of its texts, and what has been read from any text
  is read again from the texts of its record.
* `eval_execute_parse`: what is printed is one of these texts.
-/

namespace Acceptance

open Json

/-! ## Specification -/

/-- The plan that a text gives: its record in JSON, in any layout, with metadata left out or members
that mean nothing. -/
def Plan.ofText? (document : String) : Option Plan :=
  (Json.read? document).bind Plan.ofJson?

/-! ## Records -/

theorem Json.word32?_natural (n : UInt32) : word32? (.natural n.toNat) = some n := by
  rw [word32?, if_pos n.toNat_lt, UInt32.ofNat_toNat]

theorem Json.listOf?_map {α : Type} {f : α → Json} {g : Json → Option α}
    (h : ∀ a, g (f a) = some a) (l : List α) : listOf? g (.list (l.map f)) = some l :=
  mapM_map_of_forall fun a _ => h a

theorem Scenario.ofJson?_toJson (s : Scenario) : ofJson? s.toJson = some s := by
  have htexts (l : List String) : listOf? text? (.list (l.map .text)) = some l :=
    listOf?_map (f := .text) (g := text?) (fun _ => rfl) l
  have hands : listOf? AndStep.ofJson? (.list (s.ands.map AndStep.toJson)) = some s.ands :=
    listOf?_map AndStep.ofJson?_toJson s.ands
  show (do
    return {
      id := ← word32? (.natural s.id.toNat)
      title := s.title
      priority := s.priority
      given := ← listOf? text? (.list (s.given.map .text))
      when := ← listOf? text? (.list (s.when.map .text))
      expected := ← listOf? text? (.list (s.expected.map .text))
      ands := ← listOf? AndStep.ofJson? (.list (s.ands.map AndStep.toJson)) } : Option Scenario) = _
  rw [word32?_natural, htexts, htexts, htexts, hands]
  rfl

namespace Plan

theorem ofJson?_toJson (p : Plan) : ofJson? p.toJson = some p := by
  have hscenarios : listOf? Scenario.ofJson? (.list (p.scenarios.map Scenario.toJson)) =
      some p.scenarios :=
    listOf?_map Scenario.ofJson?_toJson p.scenarios
  show (do
    return {
      metadata := ← Metadata.ofJson? p.metadata.toJson
      scenarios := ← listOf? Scenario.ofJson? (.list (p.scenarios.map Scenario.toJson)) } :
        Option Plan) = _
  rw [Metadata.ofJson?_toJson, hscenarios]
  rfl

end Plan

/-! ## Texts -/

theorem Json.isReadable_list_map {α : Type} {f : α → Json} (h : ∀ a, IsReadable (f a))
    (l : List α) : IsReadable (.list (l.map f)) :=
  .list fun v hv => by
    obtain ⟨a, -, rfl⟩ := List.mem_map.1 hv
    exact h a

theorem Metadata.isReadable_toJson (m : Metadata) : IsReadable m.toJson := by
  refine .object ?_
  simp only [List.forall_mem_cons, List.not_mem_nil, false_implies, implies_true, and_true]
  exact ⟨.text _, .text _, .text _, .text _⟩

theorem AndStep.isReadable_toJson (s : AndStep) : IsReadable s.toJson := by
  refine .object ?_
  simp only [List.forall_mem_cons, List.not_mem_nil, false_implies, implies_true, and_true]
  exact ⟨.text _, .text _⟩

theorem Scenario.isReadable_toJson (s : Scenario) : IsReadable s.toJson := by
  have htexts (l : List String) : IsReadable (.list (l.map .text)) := isReadable_list_map .text l
  refine .object ?_
  simp only [List.forall_mem_cons, List.not_mem_nil, false_implies, implies_true, and_true]
  exact ⟨.natural _, .text _, .text _, htexts _, htexts _, htexts _,
    isReadable_list_map AndStep.isReadable_toJson _⟩

namespace Plan

theorem isReadable_toJson (p : Plan) : IsReadable p.toJson := by
  refine .object ?_
  simp only [List.forall_mem_cons, List.not_mem_nil, false_implies, implies_true, and_true]
  exact ⟨p.metadata.isReadable_toJson, isReadable_list_map Scenario.isReadable_toJson _⟩

variable (p : Plan)

theorem ofText?_compact : ofText? p.toJson.compact = some p := by
  rw [ofText?, read?_compact p.isReadable_toJson]
  exact p.ofJson?_toJson

theorem ofText?_pretty : ofText? p.toJson.pretty = some p := by
  rw [ofText?, read?_pretty p.isReadable_toJson]
  exact p.ofJson?_toJson

/-- The line feed behind the record means nothing. -/
theorem ofText?_json : ofText? (Output.json p.toJson) = some p := by
  have hfeed : IsSpacing ['\n'] := by decide
  have hread : Json.read? (Output.json p.toJson) = some p.toJson := by
    rw [Json.read?, Output.json, Output.line, String.toList_append, pretty, String.toList_ofList]
    exact (writes_prettyChars p.isReadable_toJson 0).readChars?_append hfeed
  rw [ofText?, hread]
  exact p.ofJson?_toJson

end Plan

/-- The record of a plan loses nothing: the plan is read from either layout and from what is printed,
and reading a text, writing what it gives and reading that comes to reading the text. -/
theorem Plan.ofText?_toText :
    (∀ p : Plan, ofText? p.toJson.compact = some p ∧ ofText? p.toJson.pretty = some p ∧
      ofText? (Output.json p.toJson) = some p) ∧
    ∀ document : String,
      ((ofText? document).bind fun p => ofText? p.toJson.compact) = ofText? document ∧
      ((ofText? document).bind fun p => ofText? p.toJson.pretty) = ofText? document ∧
      ((ofText? document).bind fun p => ofText? (Output.json p.toJson)) = ofText? document := by
  refine ⟨fun p => ⟨p.ofText?_compact, p.ofText?_pretty, p.ofText?_json⟩, fun document => ?_⟩
  simp only [ofText?_compact, ofText?_pretty, ofText?_json, Option.bind_fun_some, and_self]

/-! ## The command -/

section Command

open Effect

variable {σ : Type} {fs : FileSystem σ} {w : World σ} {path document : String}

/-- Parsing prints the record of the plan in its long layout. -/
theorem eval_execute_parse (h : fs.read w.files path = .ok document) :
    eval (Command.execute fs (.parse path true)) w =
      (.ok true, w.print (Output.json (Plan.read document).toJson) "") := by
  have hread : eval (Command.readText fs.ofWorld.access path) w = (.ok document, w) :=
    FileSystem.eval_readText h
  simp only [Command.execute, Command.run, eval_bind, hread, eval_pure, eval_modify, if_true]

end Command

end Acceptance
