import Mathlib.Data.List.Basic
import Acceptance.Codeunit.Layout
import Acceptance.Proofs.Source.Kind
import Acceptance.Proofs.Text.Plain
import Acceptance.Proofs.Text.Reader

/-!
# Lines of generated code

The lines of a generated codeunit as the validation sees them. Most are fixed; the texts of the plan
stand in remarks, and the names stand in bare lines.

Main results:

* `CodeLine.allChars_eq`: the code is its lines, each with a line feed.
* `CodeLine.forall_raw`: what holds of a table of lines can be decided on their characters.
* `CodeLine.IsRemark.commentTexts_raw`: a remark is one comment, trimmed at its end.
* `header?_procedureLine`: the line of a test procedure gives its name.
* `isHeader_libraryLine`: the line of the library is no header, whatever the library is called.
-/

namespace Acceptance

open Text Source

namespace CodeLine

/-- The line with its indentation, without its line feed. -/
def raw (l : CodeLine) : List Char := List.replicate (4 * l.level) ' ' ++ trimEnd l.text.toList

theorem allChars_eq (lines : List CodeLine) : allChars lines = joinLines (lines.map raw) := by
  rw [allChars, joinLines, List.flatMap_map]
  rfl

/-! ## Lines in full -/

/-- Lines with the rows that they show, where every text is given by its characters. What holds of
all lines of a table can be decided on its rows, without decoding the texts. -/
inductive Spells : List CodeLine → List (List Char) → Prop where
  | nil : Spells [] []
  | cons {level : ℕ} {text : String} {chars : List Char} {lines : List CodeLine}
      {rows : List (List Char)} (ht : text = String.ofList chars) (hs : Spells lines rows) :
      Spells (⟨level, text⟩ :: lines) ((List.replicate (4 * level) ' ' ++ trimEnd chars) :: rows)

theorem forall_raw {lines : List CodeLine} (p : List Char → Prop)
    (h : ∃ rows, Spells lines rows ∧ ∀ row ∈ rows, p row) : ∀ l ∈ lines, p l.raw := by
  obtain ⟨rows, hs, hp⟩ := h
  induction hs with
  | nil => exact fun _ hl => absurd hl List.not_mem_nil
  | cons ht _ ih =>
    intro l hl
    rcases List.mem_cons.1 hl with rfl | hl
    · rw [raw, ht, String.toList_ofList]
      exact hp _ List.mem_cons_self
    · exact ih (fun row hr => hp row (List.mem_cons_of_mem _ hr)) l hl

/-! ## Remarks -/

/-- Whether a line is a remark with the given content, which does not start with a blank. -/
structure IsRemark (l : CodeLine) (content : String) : Prop where
  text : l.text.toList = '/' :: '/' :: ' ' :: content.toList
  start : ∀ c ∈ content.toList.head?, isBlank c = false
  ne_nil : content.toList ≠ []
  no_feed : '\n' ∉ content.toList

namespace IsRemark

variable {l : CodeLine} {content : String}

theorem trimEnd_content (h : l.IsRemark content) :
    ∃ c s, isBlank c = false ∧ trimEnd content.toList = c :: s ∧
      ∀ p : List Char, trimEnd (p ++ content.toList) = p ++ trimEnd content.toList := by
  obtain ⟨c, s, hs⟩ := List.exists_cons_of_ne_nil h.ne_nil
  have hc : isBlank c = false := h.start c (by rw [hs]; rfl)
  refine ⟨c, trimEnd s, hc, ?_, fun p => ?_⟩
  · rw [hs, trimEnd_cons hc]
  · rw [hs, trimEnd_append_cons hc, trimEnd_cons hc]

theorem raw_eq (h : l.IsRemark content) :
    l.raw = remark (4 * l.level) (' ' :: trimEnd content.toList) := by
  obtain ⟨_, _, _, _, hp⟩ := h.trimEnd_content
  have ht : trimEnd l.text.toList = '/' :: '/' :: ' ' :: trimEnd content.toList := by
    rw [h.text]
    exact hp ['/', '/', ' ']
  rw [raw, ht]
  rfl

theorem body_no_feed (h : l.IsRemark content) : '\n' ∉ ' ' :: trimEnd content.toList := by
  intro hm
  rcases List.mem_cons.1 hm with hm | hm
  · exact absurd hm (by decide)
  · exact h.no_feed (mem_of_mem_trimEnd hm)

theorem body_no_return (h : l.IsRemark content) :
    (' ' :: trimEnd content.toList).getLast? ≠ some '\r' := by
  obtain ⟨c, s, _, he, _⟩ := h.trimEnd_content
  have hl : (' ' :: trimEnd content.toList).getLast? = (trimEnd content.toList).getLast? := by
    rw [he, List.getLast?_cons_cons]
  rw [hl]
  intro hr
  exact absurd (not_isBlank_of_getLast?_trimEnd hr) (by decide)

theorem isPlainLine_raw (h : l.IsRemark content) : IsPlainLine l.raw := by
  rw [h.raw_eq]
  exact isPlainLine_remark h.body_no_feed h.body_no_return

theorem commentTexts_raw (h : l.IsRemark content) :
    (commentTexts l.raw).map skipBlanks = [trimEnd content.toList] := by
  obtain ⟨c, s, hc, he, _⟩ := h.trimEnd_content
  have hs : skipBlanks (' ' :: trimEnd content.toList) = trimEnd content.toList := by
    rw [he]
    exact (skipBlanks_replicate_append 1 _).trans (skipBlanks_cons hc s)
  rw [h.raw_eq, commentTexts_remark h.body_no_feed h.body_no_return, List.map_singleton, hs]

theorem exists_mask_raw (h : l.IsRemark content) : ∃ n, mask l.raw = List.replicate n ' ' := by
  rw [h.raw_eq]
  exact mask_remark h.body_no_feed

end IsRemark

end CodeLine

/-- What stands in the scenario comment of a test. -/
def scenarioRemark (id : UInt32) (title : String) : String := s!"[SCENARIO {id.toNat}] {title}"

/-- What stands in the comment of a step. -/
def stepRemark (g : Group) (step : String) : String := s!"[{g.tag}] {step}"

theorem toList_scenarioRemark (id : UInt32) (title : String) :
    (scenarioRemark id title).toList =
      "[SCENARIO ".toList ++ (Nat.toDigits 10 id.toNat ++ ']' :: ' ' :: title.toList) := by
  simp only [scenarioRemark, String.toList_append, List.append_assoc, Nat.toString_eq_repr,
    Nat.toList_repr]
  rfl

theorem toList_stepRemark (g : Group) (step : String) :
    (stepRemark g step).toList = '[' :: (g.tag.toList ++ ']' :: ' ' :: step.toList) := by
  simp only [stepRemark, String.toList_append, List.append_assoc]
  rfl

theorem isRemark_scenario {title : String} (h : '\n' ∉ title.toList) (id : UInt32) :
    (⟨2, s!"// [SCENARIO {id.toNat}] {title}"⟩ : CodeLine).IsRemark (scenarioRemark id title) where
  text := by
    simp only [scenarioRemark, String.toList_append, List.append_assoc]
    rfl
  start := by
    rw [toList_scenarioRemark]
    rintro c ⟨⟩
    rfl
  ne_nil := by
    rw [toList_scenarioRemark]
    exact List.cons_ne_nil _ _
  no_feed := by
    rw [toList_scenarioRemark, List.mem_append, List.mem_append]
    rintro (hm | hm | hm)
    · exact absurd hm (by decide)
    · exact absurd (isDigit_of_mem_toDigits hm) (by decide)
    · exact h (by simpa using hm)

theorem isRemark_step {step : String} (h : '\n' ∉ step.toList) (g : Group) :
    (⟨2, s!"// [{g.tag}] {step}"⟩ : CodeLine).IsRemark (stepRemark g step) where
  text := by
    simp only [stepRemark, String.toList_append, List.append_assoc]
    rfl
  start := by
    rw [toList_stepRemark]
    rintro c ⟨⟩
    rfl
  ne_nil := by
    rw [toList_stepRemark]
    exact List.cons_ne_nil _ _
  no_feed := by
    rw [toList_stepRemark, List.mem_cons, List.mem_append]
    rintro (hm | hm | hm)
    · exact absurd hm (by decide)
    · cases g <;> exact absurd hm (by decide)
    · exact h (by simpa using hm)

/-! ## The line of a procedure -/

theorem isBare_append {s t : List Char} (hs : IsBare s) (ht : IsBare t) : IsBare (s ++ t) :=
  fun c hc => (List.mem_append.1 hc).elim (hs c) (ht c)

theorem isBare_of_isPlain {s : List Char} (h : IsPlain s) : IsBare s := fun _ hc =>
  ⟨ne_of_plain (h _ hc) rfl, ne_of_plain (h _ hc) rfl, ne_of_plain (h _ hc) rfl,
    ne_of_plain (h _ hc) rfl⟩

instance (s : List Char) : Decidable (IsBare s) := List.decidableBAll _ s

/-- The line that declares a procedure without parameters. -/
def procedureLine (name : List Char) : List Char :=
  "    procedure ".toList ++ (name ++ "()".toList)

theorem raw_procedureLine (name : String) :
    (⟨1, s!"procedure {name}()"⟩ : CodeLine).raw = procedureLine name.toList := by
  have ht : (s!"procedure {name}()").toList =
      ("procedure ".toList ++ name.toList ++ ['(']) ++ [')'] := by
    simp only [String.toList_append, List.append_assoc]
    rfl
  rw [CodeLine.raw, ht, trimEnd_concat (by decide)]
  simp only [List.append_assoc]
  rfl

theorem isBare_procedureLine {name : List Char} (h : IsPlain name) :
    IsBare (procedureLine name) := by
  have hs : IsBare "    procedure ".toList := by decide
  have he : IsBare "()".toList := by decide
  exact isBare_append hs (isBare_append (isBare_of_isPlain h) he)

theorem isPlainLine_procedureLine {name : List Char} (h : IsPlain name) :
    IsPlainLine (procedureLine name) := by
  refine isPlainLine_bare (isBare_procedureLine h) ?_
  unfold procedureLine
  rw [List.getLast?_append_of_ne_nil _ (by simp), List.getLast?_append_of_ne_nil _ (by decide)]
  decide

theorem header?_procedureLine {name : List Char} (h : IsPlain ('T' :: name)) :
    header? (procedureLine ('T' :: name)) (mask (procedureLine ('T' :: name))) =
      some ('T' :: name, .procedure) := by
  have hrun : run? isNameChar ('T' :: name ++ "()".toList) = some ('T' :: name, "()".toList) := by
    refine run?_append (List.cons_ne_nil _ _) (fun c hc => (plain_spec (h c hc)).2.1) ?_
    rintro c ⟨⟩
    rfl
  have hname : firstMatch? procedureName? (procedureLine ('T' :: name)) =
      (run? isNameChar ('T' :: name ++ "()".toList)).map (·.1) := rfl
  rw [mask_bare (isBare_procedureLine h), header?, if_pos (by rfl), hname, hrun]
  rfl

/-! ## Lines with the names of a codeunit -/

/-- The line that declares the codeunit. -/
def objectLine (id : ℕ) (name : List Char) : List Char :=
  "codeunit ".toList ++ (Nat.toDigits 10 id ++ ' ' :: name)

/-- The line that declares the library. -/
def libraryLine (name : List Char) : List Char :=
  List.replicate 8 ' ' ++ (name ++ ':' :: (" Codeunit ".toList ++ (name ++ [';'])))

theorem raw_objectLine {name : String} (hn : IsPlain name.toList) (hne : name.toList ≠ [])
    (id : ℕ) : (⟨0, s!"codeunit {id} {name}"⟩ : CodeLine).raw = objectLine id name.toList := by
  obtain ⟨start, c, hs⟩ := (List.eq_nil_or_concat name.toList).resolve_left hne
  rw [List.concat_eq_append] at hs
  have hc : isBlank c = false := not_isBlank_of_plain (hn c (by rw [hs]; simp))
  have ht : (s!"codeunit {id} {name}").toList =
      ("codeunit ".toList ++ (Nat.toDigits 10 id ++ ' ' :: start)) ++ [c] := by
    simp only [String.toList_append, List.append_assoc, Nat.toString_eq_repr, Nat.toList_repr]
    show "codeunit ".toList ++ (Nat.toDigits 10 id ++ ' ' :: name.toList) = _
    rw [hs]
    rfl
  rw [CodeLine.raw, ht, trimEnd_concat hc, hs]
  simp only [List.append_assoc]
  rfl

theorem raw_libraryLine (name : String) :
    (⟨2, s!"{name}: Codeunit {name};"⟩ : CodeLine).raw = libraryLine name.toList := by
  have ht : (s!"{name}: Codeunit {name};").toList =
      (name.toList ++ ':' :: (" Codeunit ".toList ++ name.toList)) ++ [';'] := by
    simp only [String.toList_append, List.append_assoc]
    rfl
  rw [CodeLine.raw, ht, trimEnd_concat (by decide)]
  simp only [List.append_assoc, List.cons_append]
  rfl

theorem isBare_objectLine {name : List Char} (h : IsPlain name) (id : ℕ) :
    IsBare (objectLine id name) := by
  have hs : IsBare "codeunit ".toList := by decide
  have hb : IsBare [' '] := by decide
  exact isBare_append hs (isBare_append (isBare_of_isPlain (isPlain_toDigits id))
    (isBare_append hb (isBare_of_isPlain h)))

theorem isBare_libraryLine {name : List Char} (h : IsPlain name) : IsBare (libraryLine name) := by
  have hs : IsBare (List.replicate 8 ' ') := by decide
  have hc : IsBare (':' :: " Codeunit ".toList) := by decide
  have he : IsBare [';'] := by decide
  exact isBare_append hs (isBare_append (isBare_of_isPlain h)
    (isBare_append hc (isBare_append (isBare_of_isPlain h) he)))

theorem isPlainLine_objectLine {name : List Char} (h : IsPlain name) (hne : name ≠ []) (id : ℕ) :
    IsPlainLine (objectLine id name) := by
  refine isPlainLine_bare (isBare_objectLine h id) ?_
  unfold objectLine
  rw [List.getLast?_append_of_ne_nil _ (by simp), List.getLast?_append_of_ne_nil _ (by simp),
    List.getLast?_cons]
  intro hr
  cases hl : name.getLast? with
  | none => exact hne (List.getLast?_eq_none_iff.1 hl)
  | some c =>
    rw [hl] at hr
    obtain rfl : c = '\r' := Option.some.inj hr
    exact absurd (h _ (List.mem_of_getLast? hl)) (by decide)

theorem isPlainLine_libraryLine {name : List Char} (h : IsPlain name) :
    IsPlainLine (libraryLine name) := by
  refine isPlainLine_bare (isBare_libraryLine h) ?_
  have hl : libraryLine name =
      (List.replicate 8 ' ' ++ (name ++ ':' :: (" Codeunit ".toList ++ name))) ++ [';'] := by
    simp [libraryLine]
  rw [hl, List.getLast?_concat]
  decide

theorem isPlain_of_isIdentifier {s : List Char} (h : Naming.isIdentifier s = true) :
    IsPlain s ∧ s ≠ [] := by
  cases s with
  | nil => cases h
  | cons c s =>
    rw [Naming.isIdentifier, Bool.and_eq_true, List.all_eq_true] at h
    refine ⟨.cons ?_ h.2, List.cons_ne_nil c s⟩
    rw [isPlainNameChar, Char.isAlphanum, Bool.or_right_comm, Bool.or_eq_true]
    exact .inl h.1

/-- Where a keyword is the start of a name before a colon, no blank comes next. -/
theorem blanks?_of_keyword? {word name more rest : List Char} (hw : ':' ∉ word)
    (hn : IsPlain name) (h : keyword? word (name ++ ':' :: more) = some rest) :
    blanks? rest = none := by
  obtain ⟨start, hs, he⟩ := keyword?_eq_some_iff.1 h
  have colon : ∀ t : List Char, ':' :: more = t ++ rest → blanks? rest = none ∨ ':' ∈ t := by
    intro t ht
    cases t with
    | nil =>
      rw [List.nil_append] at ht
      rw [← ht]
      exact .inl rfl
    | cons c t => exact .inr ((List.cons.inj ht).1 ▸ List.mem_cons_self)
  rcases List.append_eq_append_iff.1 he with ⟨t, rfl, ht⟩ | ⟨t, rfl, ht⟩
  · -- the keyword reaches to the colon or beyond it
    refine (colon t ht).resolve_right fun hm => hw ?_
    rw [← hs]
    exact List.mem_map.2 ⟨':', List.mem_append_right _ hm, rfl⟩
  · cases t with
    | nil =>
      rw [List.nil_append] at ht
      rw [ht]
      rfl
    | cons c t =>
      have hc : isBlank c = false :=
        not_isBlank_of_plain (hn c (List.mem_append_right _ List.mem_cons_self))
      rw [ht, List.cons_append, blanks?, hc]
      rfl

theorem skipBlanks_libraryLine {name : List Char} (hn : IsPlain name) (hne : name ≠ []) :
    skipBlanks (libraryLine name) = name ++ ':' :: (" Codeunit ".toList ++ (name ++ [';'])) := by
  obtain ⟨c, rest, rfl⟩ := List.exists_cons_of_ne_nil hne
  unfold libraryLine
  rw [skipBlanks_replicate_append]
  exact skipBlanks_cons (not_isBlank_of_plain (hn c List.mem_cons_self)) _

theorem isHeader_libraryLine {name : List Char} (hn : IsPlain name) (hne : name ≠ []) :
    isHeader (libraryLine name) = false := by
  have hs := skipBlanks_libraryLine hn hne
  have word : ∀ w : List Char, ':' ∉ w →
      (keyword? w (skipBlanks (libraryLine name))).bind blanks? = none := by
    intro w hw
    cases hk : keyword? w (skipBlanks (libraryLine name)) with
    | none => rfl
    | some rest =>
      rw [hs] at hk
      exact blanks?_of_keyword? hw hn hk
  have access : afterAccess? (skipBlanks (libraryLine name)) = none := by
    have h1 := word "local".toList (by decide)
    have h2 := word "internal".toList (by decide)
    have h3 := word "protected".toList (by decide)
    unfold afterAccess? anyKeyword? anyKeyword? anyKeyword? anyKeyword?
    cases hk1 : keyword? "local".toList (skipBlanks (libraryLine name)) with
    | some rest => rw [hk1] at h1; exact h1
    | none =>
      cases hk2 : keyword? "internal".toList (skipBlanks (libraryLine name)) with
      | some rest => rw [hk2] at h2; exact h2
      | none =>
        cases hk3 : keyword? "protected".toList (skipBlanks (libraryLine name)) with
        | some rest => rw [hk3] at h3; exact h3
        | none => rfl
  have trigger : triggerName? (libraryLine name) = none := by
    have h4 := word "trigger".toList (by decide)
    unfold triggerName?
    cases hk : keyword? "trigger".toList (skipBlanks (libraryLine name)) with
    | none => rfl
    | some rest =>
      rw [hk] at h4
      have hb : blanks? rest = none := h4
      simp [hb]
  have procedure := word "procedure".toList (by decide)
  unfold isHeader isProcedureHeader
  simp only [access, trigger, Option.getD_none, procedure]
  rfl

end Acceptance
