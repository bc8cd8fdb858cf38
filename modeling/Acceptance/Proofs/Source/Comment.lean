import Acceptance.Proofs.Source.Lines
import Acceptance.Proofs.Source.Report

/-!
# Comments and routines

Two sources with the same masked view have the same lines but for what stands in their comments and
literals. The scan looks at the masked view, with one exception: the name of a procedure is searched
on the line as written, where the keyword first stands, and that may be in a comment. So the
routines are the same exactly if no header outside of bodies gets another name, or loses the one
that it has.

Main results:

* `forall₂_lines`: the lines of two sources with the same masked view.
* `scan_congr`: what the scan needs to agree on.
* `routines_eq_iff`: when the text of comments makes no difference.
-/

namespace Acceptance.Source

open Text

/-! ## Specification -/

namespace Token

/-- A token without the text of a comment. -/
def withoutComment : Token → Token
  | lineComment _ => lineComment []
  | blockComment _ closed => blockComment [] closed
  | t => t

end Token

/-- Whether two sources are the same tokens but for the text inside comments, and the comments take
the same places. -/
structure DifferInComments (s t : List Char) : Prop where
  tokens : (tokens s).map Token.withoutComment = (Source.tokens t).map Token.withoutComment
  mask : mask s = Source.mask t

instance (s t : List Char) : Decidable (DifferInComments s t) :=
  decidable_of_iff ((tokens s).map Token.withoutComment = (tokens t).map Token.withoutComment ∧
      mask s = mask t)
    ⟨fun h => ⟨h.1, h.2⟩, fun h => ⟨h.tokens, h.mask⟩⟩

/-! ## Lines with the same masked view -/

namespace Line

/-- Whether two lines are the same but for the text as written. -/
def IsMaskedAs (k l : Line) : Prop := k.number = l.number ∧ k.masked = l.masked

variable {k l : Line}

theorem IsMaskedAs.lists_eq (h : k.IsMaskedAs l) : k.lists = l.lists := by
  rw [lists, lists, h.2]

theorem IsMaskedAs.rest_eq (h : k.IsMaskedAs l) : k.rest = l.rest := by
  rw [rest, rest, h.2]

theorem IsMaskedAs.attributes_eq (h : k.IsMaskedAs l) : k.attributes = l.attributes := by
  rw [attributes, attributes, h.lists_eq]

theorem IsMaskedAs.isLead_eq (h : k.IsMaskedAs l) : k.isLead = l.isLead := by
  rw [isLead, isLead, h.rest_eq]

theorem IsMaskedAs.isProcedure_eq (h : k.IsMaskedAs l) : k.isProcedure = l.isProcedure := by
  rw [isProcedure, isProcedure, h.rest_eq]

theorem IsMaskedAs.readsAs (h : k.IsMaskedAs l) : k.ReadsAs l :=
  ⟨h.1, congrArg _ h.2, congrArg _ h.2, h.attributes_eq, h.isLead_eq⟩

/-- A header is the same if the name is, where the line is the header of a procedure. -/
theorem IsMaskedAs.header?_eq (h : k.IsMaskedAs l) (hn : k.isProcedure = true → k.name? = l.name?) :
    header? k.rawRest k.rest = header? l.rawRest l.rest := by
  by_cases hp : k.isProcedure = true
  · rw [header?_of_isProcedure hp, header?_of_isProcedure (h.isProcedure_eq ▸ hp), hn hp]
  · have hp' : ¬ l.isProcedure = true := h.isProcedure_eq ▸ hp
    rw [header?, header?, ← isProcedure, ← isProcedure, if_neg hp, if_neg hp', h.rest_eq]

end Line

/-- Two sources with the same masked view have the same lines, but for the text as written. -/
theorem forall₂_lines {s t : List Char} (h : mask s = mask t) :
    List.Forall₂ Line.IsMaskedAs (ofChars s).lines (ofChars t).lines := by
  have hlen : (Text.lines s).length = (Text.lines t).length := by
    rw [← length_lines_mask, h, length_lines_mask]
  show List.Forall₂ _ (zipLines 1 (Text.lines s) (Text.lines (mask s)))
    (zipLines 1 (Text.lines t) (Text.lines (mask t)))
  have hraws : List.Forall₂ (fun _ _ => True) (Text.lines s) (Text.lines t) :=
    List.forall₂_iff_zip.2 ⟨hlen, fun _ => trivial⟩
  have hmaskeds : List.Forall₂ Eq (Text.lines (mask s)) (Text.lines (mask t)) :=
    h ▸ List.forall₂_refl _
  exact forall₂_zipLines (fun _ _ _ _ _ _ hm => ⟨rfl, hm⟩) hraws hmaskeds 1

/-- Two elements stand side by side if as many stand before the one as before the other. -/
theorem mem_zip_iff {ks ls : List Line} {p : Line × Line} :
    p ∈ ks.zip ls ↔ ∃ front back front' back', ks = front ++ p.1 :: back ∧
      ls = front' ++ p.2 :: back' ∧ front.length = front'.length := by
  constructor
  · intro h
    induction ks generalizing ls with
    | nil => cases h
    | cons k ks ih =>
      cases ls with
      | nil => cases h
      | cons l ls =>
        rcases List.mem_cons.1 h with rfl | h
        · exact ⟨[], ks, [], ls, rfl, rfl, rfl⟩
        · obtain ⟨front, back, front', back', rfl, rfl, hlen⟩ := ih h
          exact ⟨k :: front, back, l :: front', back', rfl, rfl, congrArg (· + 1) hlen⟩
  · rintro ⟨front, back, front', back', rfl, rfl, hlen⟩
    rw [List.zip_append hlen]
    exact List.mem_append_right _ List.mem_cons_self

/-! ## The scan -/

namespace ScanState

/-- The lines of procedure headers outside of bodies are all that the two scans need to agree on
beyond the masked view. -/
theorem scan_congr {ks ls : List Line} (h : List.Forall₂ Line.IsMaskedAs ks ls) (s : ScanState)
    (last : ℕ)
    (hn : ∀ front k back front' l back', ks = front ++ k :: back → ls = front' ++ l :: back' →
      front.length = front'.length → k.isProcedure = true →
      (∀ o, (s.run front).1.opened = some o → ¬ o.Holds k) → k.name? = l.name?) :
    s.scan last ks = s.scan last ls := by
  induction h generalizing s last with
  | nil => rfl
  | @cons k l ks ls hkl hrest ih =>
    have hread : s.read k = s.read l :=
      read_congr hkl.readsAs s fun _ ho =>
        hkl.header?_eq fun hp => hn [] k ks [] l ls rfl rfl rfl hp ho
    have hcons (m : Line) (ms : List Line) :
        s.scan last (m :: ms) = (s.read m).2.toList ++ (s.read m).1.scan m.number ms := rfl
    rw [hcons, hcons, ← hread, hkl.1]
    refine congrArg _ (ih (s.read k).1 l.number
      fun front m back front' m' back' he he' hlen hm ho => ?_)
    refine hn (k :: front) m back (l :: front') m' back' (congrArg _ he) (congrArg _ he')
      (congrArg (· + 1) hlen) hm ?_
    rw [run_cons]
    exact ho

end ScanState

/-! ## Names of procedures -/

/-- The name of the routine of a header line is the one that is read from the line. -/
theorem exists_named_iff {src : Source} {before after : List Line} {l : Line}
    (h : src.lines = before ++ l :: after) (hl : l.isProcedure = true) (name : List Char) :
    (∃ r ∈ src.routines, r.headerLine = l.number ∧ r.name = name) ↔
      IsOutside src l ∧ l.name? = some name := by
  refine (exists_routine_iff_opened h (p := fun r => r.name = name) fun _ _ => Iff.rfl).trans ?_
  rw [isOutside_iff h, ScanState.readOutside_of_not_isLead (Line.isLead_of_isProcedure hl),
    Line.header?_of_isProcedure hl]
  refine and_congr Iff.rfl ?_
  cases l.name? with
  | none => simp
  | some m => simp

/-- Sources that differ in comments have the same routines exactly if every header of a procedure
outside of bodies has the same name as written, or none in both. -/
theorem routines_eq_iff {a b : String} (h : DifferInComments a.toList b.toList) :
    (ofString a).routines = (ofString b).routines ↔
      ∀ p ∈ (ofString a).lines.zip (ofString b).lines, p.1.isProcedure = true →
        IsOutside (ofString a) p.1 → p.1.name? = p.2.name? := by
  have hlines := forall₂_lines h.mask
  constructor
  · intro heq p hp hk hout
    obtain ⟨front, back, front', back', ha, hb, hlen⟩ := mem_zip_iff.1 hp
    have hkl : p.1.IsMaskedAs p.2 := (List.forall₂_iff_zip.1 hlines).2 hp
    have hfree : IsOutside (ofString b) p.2 := by
      rw [← isFree_iff_isOutside hb, ← heq, IsFree, ← hkl.1]
      exact (isFree_iff_isOutside ha).2 hout
    have hname (name : List Char) : p.1.name? = some name ↔ p.2.name? = some name := by
      have h1 := exists_named_iff ha hk name
      have h2 := exists_named_iff hb (hkl.isProcedure_eq ▸ hk) name
      rw [heq, hkl.1] at h1
      have h3 := h1.symm.trans h2
      simpa [hout, hfree] using h3
    exact Option.ext hname
  · intro hnames
    refine ScanState.scan_congr hlines _ 0 fun front k back front' l back' ha hb hlen hk ho => ?_
    exact hnames (k, l) (mem_zip_iff.2 ⟨front, back, front', back', ha, hb, hlen⟩) hk
      ((isOutside_iff ha).2 ho)

/-- A comment behind a header makes no difference. -/
theorem routines_eq_behind_header :
    let a := "procedure X() // one\nbegin\nend;\n"
    let b := "procedure X() // two\nbegin\nend;\n"
    DifferInComments a.toList b.toList ∧ (ofString a).routines = (ofString b).routines := by
  intro a b
  have h : DifferInComments a.toList b.toList := by decide +kernel
  exact ⟨h, (routines_eq_iff h).2 (by decide +kernel)⟩

/-- A comment in front of a header gives the routine its name, and one between the keyword and the
name decides whether there is a routine. -/
theorem routines_ne_of_comment :
    let a := "/* procedure A */ procedure X()\nbegin\nend;\n"
    let b := "/* procedure B */ procedure X()\nbegin\nend;\n"
    let c := "procedure /* procedure Y */ X()\nbegin\nend;\n"
    let d := "procedure /* procedure, Y*/ X()\nbegin\nend;\n"
    (DifferInComments a.toList b.toList ∧
        (ofString a).routines.map (·.name) = ["A".toList] ∧
        (ofString b).routines.map (·.name) = ["B".toList]) ∧
      DifferInComments c.toList d.toList ∧
        (ofString c).routines.map (·.name) = ["Y".toList] ∧ (ofString d).routines = [] := by
  decide +kernel

end Acceptance.Source
