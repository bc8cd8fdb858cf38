import Mathlib.Data.List.Chain
import Mathlib.Data.List.Flatten
import Acceptance.Markup.Strip
import Acceptance.Proofs.Markup.Runs

/-!
# Pairs of marks

Emphasis pairs the last marks of an open run with the first ones of a closing run. The marks at each
end stand in a row, there are one or two of them, and the opening ones come first. What a heading
adds at its end keeps all of that.

Main results:

* `isOrdered_of_mem_paired`: one opening and one closing run.
* `isOrdered_of_mem_emphases`: a chain of runs.
* `isOrdered_of_mem_chain`: the emphasis of a passage.
-/

namespace Acceptance.Markup

open Place
open scoped List

variable {text : List Char}

/-- Whether emphasis has its marks in order. -/
structure Emphasis.IsOrdered (e : Emphasis text) : Prop where
  opening : (marked e.opening).IsChain Next
  closing : (marked e.closing).IsChain Next
  length_eq : e.closing.length = e.opening.length
  length : e.opening.length = 1 ∨ e.opening.length = 2
  before : ∀ a ∈ marked e.opening, ∀ b ∈ marked e.closing, Before a b

/-- Whether marks stand in a row, the last one first. -/
def IsBackward (marks : List (Mark text)) : Prop :=
  (marked marks).IsChain fun b a => Next a b

/-- Whether open runs are rows, and all in front of some places. -/
structure AreOpen (openers : List (OpenRun text)) (later : List (Place text)) : Prop where
  backward : ∀ o ∈ openers, IsBackward o.marks
  before : ∀ o ∈ openers, ∀ a ∈ marked o.marks, ∀ b ∈ later, Before a b

theorem marked_suffix {marks more : List (Mark text)} (h : marks <:+ more) :
    marked marks <:+ marked more := h.map _

namespace AreOpen

variable {openers : List (OpenRun text)} {opener : OpenRun text} {later : List (Place text)}

theorem tail (h : AreOpen (opener :: openers) later) : AreOpen openers later :=
  ⟨fun o ho => h.backward o (List.mem_cons_of_mem _ ho),
    fun o ho => h.before o (List.mem_cons_of_mem _ ho)⟩

theorem mono (h : AreOpen openers later) {fewer : List (Place text)} (hf : fewer ⊆ later) :
    AreOpen openers fewer :=
  ⟨h.backward, fun o ho a ha b hb => h.before o ho a ha b (hf hb)⟩

theorem of_suffix (h : AreOpen openers later) {left : List (OpenRun text)}
    (hl : ∀ o ∈ left, ∃ k ∈ openers, o.marks <:+ k.marks) : AreOpen left later where
  backward o ho := by
    obtain ⟨k, hk, hsuffix⟩ := hl o ho
    exact List.IsChain.suffix (h.backward k hk) (marked_suffix hsuffix)
  before o ho a ha := by
    obtain ⟨k, hk, hsuffix⟩ := hl o ho
    exact h.before k hk a ((marked_suffix hsuffix).mem ha)

end AreOpen

/-! ## Two runs -/

theorem isOrdered_of_mem_paired {opening closing : List (Mark text)} (ho : IsBackward opening)
    (hc : (marked closing).IsChain Next)
    (h : ∀ a ∈ marked opening, ∀ b ∈ marked closing, Before a b) :
    ∀ e ∈ paired opening closing, e.IsOrdered := by
  fun_induction paired opening closing with
  | case1 second first opening third fourth closing ih =>
    intro e he
    have hopening : marked opening <:+ marked (second :: first :: opening) :=
      marked_suffix (List.suffix_append [second, first] opening)
    have hclosing : marked closing <:+ marked (third :: fourth :: closing) :=
      marked_suffix (List.suffix_append [third, fourth] closing)
    rcases List.mem_cons.1 he with rfl | he
    · refine ⟨.cons_cons (List.isChain_cons_cons.1 ho).1 (.singleton _),
        .cons_cons (List.isChain_cons_cons.1 hc).1 (.singleton _), rfl, .inr rfl, fun a ha b hb => ?_⟩
      have ha' : a = first.toPlace ∨ a = second.toPlace := by simpa [marked] using ha
      have hb' : b = third.toPlace ∨ b = fourth.toPlace := by simpa [marked] using hb
      refine h a ?_ b ?_
      · simpa [marked] using ha'.symm.imp_right .inl
      · simpa [marked] using hb'.imp_right .inl
    · exact ih (List.IsChain.suffix ho hopening) (hc.suffix hclosing)
        (fun a ha b hb => h a (hopening.mem ha) b (hclosing.mem hb)) e he
  | case2 first opening last closing =>
    intro e he
    obtain rfl := List.mem_singleton.1 he
    refine ⟨.singleton _, .singleton _, rfl, .inl rfl, fun a ha b hb => ?_⟩
    obtain rfl := List.mem_singleton.1 ha
    obtain rfl := List.mem_singleton.1 hb
    exact h _ List.mem_cons_self _ List.mem_cons_self
  | case3 => exact fun e he => absurd he List.not_mem_nil

/-! ## A closing run -/

/-- A closing run takes marks from the ends of open runs. -/
theorem matchMarks_spec (closer : Run text) {marks : List (Mark text)}
    {openers : List (OpenRun text)} (hm : (marked marks).IsChain Next)
    (ho : AreOpen openers (marked marks)) :
    (∀ e ∈ (matchMarks closer marks openers).found, e.IsOrdered) ∧
      (matchMarks closer marks openers).left <:+ marks ∧
      ∀ o ∈ (matchMarks closer marks openers).openers, ∃ k ∈ openers, o.marks <:+ k.marks := by
  fun_induction matchMarks closer marks openers with
  | case1 openers =>
    exact ⟨fun e he => absurd he List.not_mem_nil, List.suffix_refl _,
      fun o ho => ⟨o, ho, List.suffix_refl _⟩⟩
  | case2 marks =>
    exact ⟨fun e he => absurd he List.not_mem_nil, List.suffix_refl _,
      fun o ho => absurd ho List.not_mem_nil⟩
  | case3 marks opener rest _ _ found _ more ih =>
    have hdrop : marks.drop opener.marks.length <:+ marks := List.drop_suffix _ _
    have hfound := isOrdered_of_mem_paired (ho.backward opener List.mem_cons_self) hm
      (ho.before opener List.mem_cons_self)
    obtain ⟨hmore, hleft, hopeners⟩ := ih (hm.suffix (marked_suffix hdrop))
      (ho.tail.mono (marked_suffix hdrop).subset)
    refine ⟨fun e he => (List.mem_append.1 he).elim (hfound e) (hmore e), hleft.trans hdrop,
      fun o hmem => ?_⟩
    obtain ⟨k, hk, hsuffix⟩ := hopeners o hmem
    exact ⟨k, List.mem_cons_of_mem opener hk, hsuffix⟩
  | case4 marks opener rest =>
    have hfound := isOrdered_of_mem_paired (ho.backward opener List.mem_cons_self) hm
      (ho.before opener List.mem_cons_self)
    refine ⟨hfound, List.nil_suffix, fun o hmem => ?_⟩
    rcases List.mem_cons.1 hmem with rfl | hmem
    · exact ⟨opener, List.mem_cons_self, List.drop_suffix _ _⟩
    · exact ⟨o, List.mem_cons_of_mem opener hmem, List.suffix_refl _⟩
  | case5 marks opener rest =>
    exact ⟨fun e he => absurd he List.not_mem_nil, List.suffix_refl _,
      fun o ho => ⟨o, ho, List.suffix_refl _⟩⟩
  | case6 marks opener rest _ _ farther _ ih =>
    obtain ⟨hfound, hleft, hopeners⟩ := ih hm ho.tail
    refine ⟨hfound, hleft, fun o hmem => ?_⟩
    obtain ⟨k, hk, hsuffix⟩ := hopeners o hmem
    exact ⟨k, List.mem_cons_of_mem opener hk, hsuffix⟩

/-- A run closes emphasis that is in order, and what is open after it is in front of what comes
behind it. -/
theorem matchRun_spec {r : Run text} {openers : List (OpenRun text)} {later : List (Place text)}
    (hr : (marked r.marks).IsChain Next) (ho : AreOpen openers (marked r.marks ++ later))
    (hl : ∀ a ∈ marked r.marks, ∀ b ∈ later, Before a b) :
    (∀ e ∈ (matchRun r openers).1, e.IsOrdered) ∧ AreOpen (matchRun r openers).2 later := by
  have hmatch : ∃ c : Closing text,
      (if r.canClose then matchMarks r r.marks openers else ⟨[], r.marks, openers⟩) = c ∧
      (∀ e ∈ c.found, e.IsOrdered) ∧ c.left <:+ r.marks ∧
      ∀ o ∈ c.openers, ∃ k ∈ openers, o.marks <:+ k.marks := by
    refine ⟨_, rfl, ?_⟩
    split
    · exact matchMarks_spec r hr (ho.mono (List.subset_append_left _ _))
    · exact ⟨fun e he => absurd he List.not_mem_nil, List.suffix_refl _,
        fun o ho => ⟨o, ho, List.suffix_refl _⟩⟩
  obtain ⟨c, hc, hfound, hleft, hopeners⟩ := hmatch
  have hopen : AreOpen c.openers later :=
    (ho.mono (List.subset_append_right _ _)).of_suffix hopeners
  simp only [matchRun, hc]
  split
  · exact ⟨hfound, hopen⟩
  · -- the marks that are left are open from now on
    have hreverse : marked c.left.reverse = (marked c.left).reverse := List.map_reverse
    refine ⟨hfound, fun o hmem => ?_, fun o hmem a ha b hb => ?_⟩
    · rcases List.mem_cons.1 hmem with rfl | hmem
      · rw [IsBackward, hreverse]
        exact List.isChain_reverse.2 (hr.suffix (marked_suffix hleft))
      · exact hopen.backward o hmem
    · rcases List.mem_cons.1 hmem with rfl | hmem
      · rw [hreverse, List.mem_reverse] at ha
        exact hl a ((marked_suffix hleft).mem ha) b hb
      · exact hopen.before o hmem a ha b hb

/-! ## Chains -/

theorem isOrdered_of_mem_emphases {runs : List (Run text)} {openers : List (OpenRun text)}
    (hrows : ∀ r ∈ runs, (marked r.marks).IsChain Next)
    (horder : (allMarked runs).Pairwise Before) (ho : AreOpen openers (allMarked runs)) :
    ∀ e ∈ emphases openers runs, e.IsOrdered := by
  induction runs generalizing openers with
  | nil => exact fun e he => absurd he List.not_mem_nil
  | cons r runs ih =>
    have hcons : allMarked (r :: runs) = marked r.marks ++ allMarked runs := List.flatMap_cons
    rw [hcons] at horder ho
    obtain ⟨-, hruns, hbefore⟩ := List.pairwise_append.1 horder
    obtain ⟨hfound, hopen⟩ := matchRun_spec (hrows r List.mem_cons_self) ho hbefore
    intro e he
    rw [emphases] at he
    rcases List.mem_append.1 he with he | he
    · exact hfound e he
    · exact ih (fun q hq => hrows q (List.mem_cons_of_mem r hq)) hruns hopen e he

/-- The emphasis in a passage that is in order. -/
theorem isOrdered_of_mem_chain {labels : List (List Char)} {p : Passage text} (hp : p.IsOrdered)
    {c : List (Run text)} (hc : c ∈ chains labels p) : ∀ e ∈ emphases [] c, e.IsOrdered := by
  have hruns := sublist_of_mem_chains hc
  refine isOrdered_of_mem_emphases (fun r hr => ?_) ?_
    ⟨fun o ho => absurd ho List.not_mem_nil, fun o ho => absurd ho List.not_mem_nil⟩
  · -- a mark is no line end, so nothing is left out between two marks
    obtain ⟨front, behind, hrow⟩ := infix_of_mem_runs (hruns.mem hr)
    have hlinked := hp.linked
    rw [← hrow] at hlinked
    refine hlinked.left_of_append.right_of_append.imp_of_mem_imp fun a b ha _ hab => hab ?_
    obtain ⟨mark, -, rfl⟩ := List.mem_map.1 ha
    rcases mark.marked with h | h <;> rw [h] <;> rfl
  · have hmarked : allMarked c <+ allMarked (runsOf (tokens p.places)) := hruns.flatMap _
    exact (pairwise_places text).sublist
      (hmarked.trans ((runs_sublist none 0 p.places).trans hp.sublist))

/-! ## What is taken out -/

/-- A row of closing marks and the margin behind it. -/
theorem isChain_append_margin {p : Passage text} (hp : p.IsOrdered) {closing : List (Place text)}
    (hc : closing.IsChain Next) (h : closing.getLast?.any p.isLast = true) :
    (closing ++ p.margin).IsChain Next := by
  refine List.isChain_append.2 ⟨hc, hp.margin, fun a ha b hb => ?_⟩
  rw [Option.mem_def.1 ha, Option.any_some, Passage.isLast] at h
  cases hmargin : p.margin with
  | nil =>
    rw [hmargin] at hb
    cases hb
  | cons blank more =>
    rw [hmargin] at h hb
    obtain rfl : blank = b := Option.some.inj hb
    exact eq_of_beq h

theorem Mark.utf8Size_char (m : Mark text) : m.char.utf8Size = 1 := by
  rcases m.marked with h | h <;> rw [h] <;> rfl

theorem utf8Size_of_isGap {c : Char} (h : isGap c = true) : c.utf8Size = 1 := by
  simp only [isGap, isSpace, isLineEnd, Bool.or_eq_true, beq_iff_eq] at h
  rcases h with (((rfl | rfl) | rfl) | rfl) | rfl | rfl <;> rfl

/-- What emphasis takes out of a passage at its end. -/
def Passage.closing (p : Passage text) (e : Emphasis text) : List (Place text) :=
  if (marked e.closing).getLast?.any p.isLast then
    (marked e.closing ++ p.margin).drop p.margin.length
  else marked e.closing

theorem taken_eq (p : Passage text) (e : Emphasis text) :
    p.taken e = marked e.opening ++ p.closing e := rfl

/-- What emphasis takes out of a passage in order: its opening marks, and a row of as many places of
one byte behind them. -/
theorem Emphasis.IsOrdered.closing_spec {p : Passage text} (hp : p.IsOrdered) {e : Emphasis text}
    (he : e.IsOrdered) : (p.closing e).IsChain Next ∧ (p.closing e).length = e.opening.length ∧
      (∀ a ∈ marked e.opening, ∀ b ∈ p.closing e, Before a b) ∧
      ∀ b ∈ p.closing e, b.char.utf8Size = 1 := by
  have hlength : (marked e.closing).length = e.opening.length := by
    rw [marked, List.length_map, he.length_eq]
  have hsize (b : Place text) (hb : b ∈ marked e.closing) : b.char.utf8Size = 1 := by
    obtain ⟨mark, -, rfl⟩ := List.mem_map.1 hb
    exact mark.utf8Size_char
  rw [Passage.closing]
  split_ifs with hlast
  · have hchain := isChain_append_margin hp he.closing hlast
    have hmem (b : Place text) (hb : b ∈ (marked e.closing ++ p.margin).drop p.margin.length) :=
      List.mem_append.1 (List.mem_of_mem_drop hb)
    refine ⟨hchain.drop _, ?_, fun a ha b hb => ?_, fun b hb => ?_⟩
    · rw [List.length_drop, List.length_append, Nat.add_sub_cancel, hlength]
    · rcases hmem b hb with hb | hb
      · exact he.before a ha b hb
      · -- the margin comes behind the last closing mark
        have hpairs := (hchain.imp fun _ _ => Next.before).pairwise
        obtain ⟨-, -, hbefore⟩ := List.pairwise_append.1 hpairs
        have hne : marked e.closing ≠ [] := by
          intro hnil
          rw [hnil] at hlast
          cases hlast
        obtain ⟨c, hc⟩ := List.exists_mem_of_ne_nil _ hne
        exact Nat.lt_trans (he.before a ha c hc) (hbefore c hc b hb)
    · exact (hmem b hb).elim (hsize b) fun hb => utf8Size_of_isGap (hp.gaps b hb)
  · exact ⟨he.closing, hlength, he.before, hsize⟩

end Acceptance.Markup
