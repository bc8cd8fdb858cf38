import Mathlib.Data.List.Forall2
import Acceptance.Proofs.Codeunit.Outline
import Acceptance.Proofs.Source.Position

/-!
# What a plan can change in generated code

The texts of a plan stand in remarks, which the masked view hides. So the masked view of generated
code is made of the name of the codeunit and of the name, the variables and the handlers of each
test, and two plans that agree on these are not told apart by it.

Main results:

* `Codeunit.visible_lines`: without its remarks a codeunit shows the same.
* `Codeunit.significant_code`: the masked view of generated code, line by line.
* `significant_generate_eq`: the masked views of two plans.
-/

namespace Acceptance

open Text Source CodeLine

/-! ## Specification -/

/-- The lines of a text without the blanks at their ends, except for the blank ones. -/
def Text.significant (s : List Char) : List (List Char) :=
  ((lines s).map trimEnd).filter fun line => !line.isEmpty

/-- Whether two scenarios give tests with the same name, variables and handlers. -/
structure Scenario.SameFrame (s t : Scenario) : Prop where
  name : Naming.procedureName s.id s.title.toList = Naming.procedureName t.id t.title.toList
  declarations : s.localDeclarations = t.localDeclarations
  handlers : s.needsHandlers = t.needsHandlers

/-! ## Lines that can be seen -/

namespace CodeLine

/-- What the masked view shows of some lines. -/
def visible (lines : List CodeLine) : List (List Char) :=
  ((raws lines).map fun raw => trimEnd (mask raw)).filter fun line => !line.isEmpty

@[simp] theorem visible_append (first second : List CodeLine) :
    visible (first ++ second) = visible first ++ visible second := by
  rw [visible, raws_append, List.map_append, List.filter_append]
  rfl

theorem visible_cons (l : CodeLine) (lines : List CodeLine) :
    visible (l :: lines) = visible [l] ++ visible lines :=
  visible_append [l] lines

theorem visible_flatMap {α : Type} (f : α → List CodeLine) (as : List α) :
    visible (as.flatMap f) = as.flatMap fun a => visible (f a) := by
  induction as with
  | nil => rfl
  | cons a as ih => rw [List.flatMap_cons, List.flatMap_cons, visible_append, ih]

/-- Nothing is seen of a remark. -/
theorem IsRemark.visible_eq {l : CodeLine} {content : String} (h : l.IsRemark content) :
    visible [l] = [] := by
  obtain ⟨n, hn⟩ := h.exists_mask_raw
  have htrim : trimEnd (List.replicate n ' ') = [] := by
    have hskip : (List.replicate n ' ').dropWhile isBlank = [] := skipBlanks_spaces n
    rw [trimEnd, dropEndWhile, List.reverse_replicate, hskip]
    rfl
  rw [visible, raws_cons, raws_nil, List.map_singleton, hn, htrim]
  rfl

theorem visible_stepComments {g : Group} {steps : List String}
    (h : ∀ step ∈ steps, '\n' ∉ step.toList) : visible (stepComments g steps) = [] := by
  induction steps with
  | nil => rfl
  | cons step steps ih =>
    have hremark := isRemark_step (h step List.mem_cons_self) g
    rw [stepComments, List.map_cons, visible_cons, hremark.visible_eq]
    exact ih fun k hk => h k (List.mem_cons_of_mem step hk)

end CodeLine

/-! ## Frames -/

namespace TestProcedure

variable {t : TestProcedure}

/-- The body of a test without the remarks that hold texts of a plan. -/
def bodyFrame : List CodeLine :=
  [⟨1, "begin"⟩] ++ [⟨2, "Initialize();"⟩, .blank] ++ [⟨2, whenPlaceholder⟩, .blank] ++
    [⟨2, thenPlaceholder⟩, ⟨1, "end;"⟩, .blank]

/-- The lines of a test without the remarks that hold texts of a plan. -/
def frame (t : TestProcedure) : List CodeLine :=
  [⟨1, "[Test]"⟩] ++ (if t.handled then [⟨1, handlerAttribute⟩] else []) ++
    [⟨1, s!"procedure {t.name}()"⟩, ⟨1, "var"⟩] ++ t.declarations.map (⟨2, ·⟩) ++ bodyFrame

theorem visible_body (h : t.IsSound) : visible t.body = visible bodyFrame := by
  have hscenario := (isRemark_scenario h.title t.id).visible_eq
  have hgiven := visible_stepComments (g := .given) h.given
  have hwhen := visible_stepComments (g := .when) h.when
  have hexpected := visible_stepComments (g := .expected) h.expected
  rw [body, visible_append, visible_append, visible_append, visible_append, visible_append,
    visible_append, visible_cons, hscenario, hgiven, hwhen, hexpected, bodyFrame, visible_append,
    visible_append, visible_append]
  simp only [List.append_nil]

theorem visible_lines (h : t.IsSound) : visible t.lines = visible t.frame := by
  rw [TestProcedure.lines, frame, visible_append, visible_append _ bodyFrame, visible_body h]

theorem frame_ofScenario {s u : Scenario} (h : s.SameFrame u) :
    (ofScenario s).frame = (ofScenario u).frame := by
  have hname : (ofScenario s).name = (ofScenario u).name := congrArg String.ofList h.name
  have hdeclarations : (ofScenario s).declarations = (ofScenario u).declarations := h.declarations
  have hhandled : (ofScenario s).handled = (ofScenario u).handled := h.handlers
  rw [frame, frame, hname, hdeclarations, hhandled]

/-- Scenarios that agree give the same tests but for remarks. -/
theorem frames_ofScenario {ss us : List Scenario} (h : List.Forall₂ Scenario.SameFrame ss us) :
    (ss.map ofScenario).flatMap frame = (us.map ofScenario).flatMap frame ∧
      (ss.map ofScenario).any handled = (us.map ofScenario).any handled := by
  induction h with
  | nil => exact ⟨rfl, rfl⟩
  | @cons s u ss us hsame _ ih =>
    have hhandled : (ofScenario s).handled = (ofScenario u).handled := hsame.handlers
    refine ⟨?_, ?_⟩
    · rw [List.map_cons, List.map_cons, List.flatMap_cons, List.flatMap_cons,
        frame_ofScenario hsame, ih.1]
    · rw [List.map_cons, List.map_cons, List.any_cons, List.any_cons, hhandled, ih.2]

end TestProcedure

namespace Codeunit

variable {c : Codeunit}

/-- The start of an object without the remark that holds texts of a plan. -/
def headerFrame (c : Codeunit) : List CodeLine :=
  [⟨0, s!"codeunit {c.id.toNat} {c.name}"⟩, ⟨0, "\x7b"⟩, ⟨1, "Subtype = Test;"⟩, .blank,
    ⟨1, "trigger OnRun()"⟩, ⟨1, "begin"⟩] ++ [⟨1, "end;"⟩, .blank]

/-- The lines of a codeunit without the remarks that hold texts of a plan. -/
def frame (c : Codeunit) : List CodeLine :=
  c.headerFrame ++ c.globals ++ setup ++ c.tests.flatMap (·.frame) ++
    (if c.hasHandlers then handlers else []) ++ [⟨0, "\x7d"⟩]

theorem visible_header (h : c.IsSound) : visible c.header = visible c.headerFrame := by
  have hsplit : c.header =
      [⟨0, s!"codeunit {c.id.toNat} {c.name}"⟩, ⟨0, "\x7b"⟩, ⟨1, "Subtype = Test;"⟩, .blank,
        ⟨1, "trigger OnRun()"⟩, ⟨1, "begin"⟩] ++ c.featureLine :: [⟨1, "end;"⟩, .blank] := rfl
  have hfeature : visible [c.featureLine] = [] := (isRemark_feature h).visible_eq
  rw [hsplit, visible_append, visible_cons c.featureLine, hfeature, List.nil_append, headerFrame,
    visible_append]

/-- Without its remarks a codeunit shows the same. -/
theorem visible_lines (h : c.IsSound) : visible c.lines = visible c.frame := by
  have htests : visible (c.tests.flatMap (·.lines)) = visible (c.tests.flatMap (·.frame)) := by
    rw [visible_flatMap, visible_flatMap]
    exact List.flatMap_congr fun t ht => TestProcedure.visible_lines (h.tests t ht)
  simp only [lines, frame, visible_append, visible_header h, htests]

/-- What is left of the masked view of generated code are the lines that can be seen. -/
theorem significant_code (h : c.IsSound) :
    significant (Source.ofString c.code).masked = visible c.lines := by
  have hmasked (t : List Char) :
      Text.lines (Source.ofChars t).masked = (Source.ofChars t).lines.map Line.masked :=
    (map_withoutEnd_pieces (mask t)).symm.trans (map_masked_lines t).symm
  have hlines : (Source.ofString c.code).lines = numbered 1 (raws c.lines) := lines_code h
  have hnumbered : (numbered 1 (raws c.lines)).map Line.masked = (raws c.lines).map mask := by
    rw [← zipLines_eq_numbered, map_masked_zipLines (by rw [List.length_map])]
  rw [significant, Source.ofString, hmasked, ← Source.ofString, hlines, hnumbered, List.map_map]
  rfl

theorem frame_ofPlan {o : Options} {p q : Plan} (hname : o.nameFor p.metadata = o.nameFor q.metadata)
    (hs : List.Forall₂ Scenario.SameFrame p.scenarios q.scenarios) :
    (ofPlan o p).frame = (ofPlan o q).frame := by
  obtain ⟨htests, hhandled⟩ := TestProcedure.frames_ofScenario hs
  have hheader : (ofPlan o p).headerFrame = (ofPlan o q).headerFrame := by
    have hobject : (ofPlan o p).name = (ofPlan o q).name := hname
    have hid : (ofPlan o p).id = (ofPlan o q).id := rfl
    rw [headerFrame, headerFrame, hobject, hid]
  have hglobals : (ofPlan o p).globals = (ofPlan o q).globals := by
    have hlibrary : (ofPlan o p).library = (ofPlan o q).library := rfl
    rw [globals, globals, hlibrary]
  have hall : (ofPlan o p).tests.flatMap (·.frame) = (ofPlan o q).tests.flatMap (·.frame) := htests
  have hany : (ofPlan o p).hasHandlers = (ofPlan o q).hasHandlers := hhandled
  rw [frame, frame, hheader, hglobals, hall, hany]

end Codeunit

/-! ## Two plans -/

/-- Two plans whose texts stay on their lines, with the same name for the codeunit and with as many
scenarios, of which each gives a test with the same name, variables and handlers: whatever else the
plans say, the masked views of their code are the same but for blank lines and blanks at the ends of
lines. -/
theorem significant_generate_eq {o : Options} (ho : o.validate = .ok ()) {p q : Plan}
    (hp : p.IsSingleLine) (hq : q.IsSingleLine)
    (hname : o.nameFor p.metadata = o.nameFor q.metadata)
    (hs : List.Forall₂ Scenario.SameFrame p.scenarios q.scenarios) :
    significant (Source.ofString (generate o p)).masked =
      significant (Source.ofString (generate o q)).masked := by
  have hc := Codeunit.isSound_ofPlan ho hp
  have hd := Codeunit.isSound_ofPlan ho hq
  rw [generate, generate, Codeunit.significant_code hc, Codeunit.significant_code hd,
    Codeunit.visible_lines hc, Codeunit.visible_lines hd, Codeunit.frame_ofPlan hname hs]

/-- A plan with the names of `codeLikePlan` that says other things. -/
def quotedPlan : Plan where
  metadata := { workItem := "0 - 'End" }
  scenarios :=
    [{ id := 7, title := "Begin /* X", given := ["it's \"quoted"], when := ["end;", "\x7d"],
       expected := ["// [Test]", "a message */"] }]

/-- Texts that open comments and literals leave no more in sight than those that close them. -/
theorem significant_generate_quotedPlan :
    ({} : Options).validate = .ok () ∧ codeLikePlan.IsSingleLine ∧ quotedPlan.IsSingleLine ∧
      codeLikePlan.scenarios.map Scenario.texts ≠ quotedPlan.scenarios.map Scenario.texts ∧
      significant (Source.ofString (generate {} codeLikePlan)).masked =
        significant (Source.ofString (generate {} quotedPlan)).masked :=
  have first : codeLikePlan.IsSingleLine := by decide
  have second : quotedPlan.IsSingleLine := by decide
  have name : ({} : Options).nameFor codeLikePlan.metadata =
      ({} : Options).nameFor quotedPlan.metadata := by decide
  have frames : List.Forall₂ Scenario.SameFrame codeLikePlan.scenarios quotedPlan.scenarios :=
    .cons ⟨by decide, by decide, by decide⟩ .nil
  ⟨Options.validate_default, first, second, by decide,
    significant_generate_eq Options.validate_default first second name frames⟩

end Acceptance
