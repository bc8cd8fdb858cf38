import Mathlib.Data.List.Chain
import Mathlib.Data.List.TakeWhile
import Acceptance.Markup.Block

/-!
# Reading goes forward

Whatever is read of a document, what is left is an end of the document. So the content of a passage
keeps the order of the text, and nothing is left out of it inside a line.

Main results:

* `matchContainers_suffix`, `openContainers_suffix`: containers are read forward.
* `Outline.goes_step`: one step reads forward and adds passages that are in order.
* `isOrdered_of_mem_passages`: every passage of a document is in order.
-/

namespace Acceptance.Markup

open scoped List

variable {text : List Char}

/-! ## Places in a row -/

namespace Place

/-- Whether a place comes right behind another one. -/
def Next (a b : Place text) : Prop := b.position = a.position + 1

/-- Whether a place stands in front of another one. -/
def Before (a b : Place text) : Prop := a.position < b.position

instance : Trans (@Before text) (@Before text) (@Before text) where
  trans h h' := Nat.lt_trans h h'

/-- Whether a place comes right behind another one, or behind the end of its line. -/
def Linked (a b : Place text) : Prop := isLineEnd a.char = false → Next a b

theorem Next.before {a b : Place text} (h : Next a b) : Before a b := by
  rw [Before, h]
  exact Nat.lt_succ_self _

end Place

open Place

theorem isChain_placesFrom (before rest : List Char) (h : text = before.reverse ++ rest) :
    (placesFrom before rest h).IsChain Next := by
  induction rest generalizing before with
  | nil => exact .nil
  | cons c rest ih =>
    have hchain := ih (c :: before) (by simpa using h)
    cases rest with
    | nil => exact .singleton _
    | cons d rest => exact .cons_cons rfl hchain

theorem isChain_places (text : List Char) : (places text).IsChain Next :=
  isChain_placesFrom [] text rfl

theorem pairwise_places (text : List Char) : (places text).Pairwise Before :=
  ((isChain_places text).imp fun _ _ => Next.before).pairwise

theorem isChain_of_suffix {s : List (Place text)} (h : s <:+ places text) : s.IsChain Next :=
  (isChain_places text).suffix h

/-! ## Lines -/

theorem splitLine_append (s : List (Place text)) : (splitLine s).1 ++ (splitLine s).2 = s := by
  fun_induction splitLine s <;> simp_all

theorem isChain_splitLine {s : List (Place text)} (h : s <:+ places text) :
    (splitLine s).1.IsChain Next := by
  have hs := isChain_of_suffix h
  rw [← splitLine_append s] at hs
  exact hs.left_of_append

/-- A line ends with its line end or at the end of the text. -/
theorem splitLine_end (s : List (Place text)) :
    (splitLine s).2 = [] ∨ ∃ p ∈ (splitLine s).1.getLast?, isLineEnd p.char = true := by
  fun_induction splitLine s with
  | case1 => exact .inl rfl
  | case2 p rest hp => exact .inr ⟨p, rfl, by rw [isLineEnd, hp]; rfl⟩
  | case3 => exact .inl rfl
  | case4 p _ _ q more hq => exact .inr ⟨q, rfl, by rw [isLineEnd, hq]; rfl⟩
  | case5 p _ hp q more _ => exact .inr ⟨p, rfl, by rw [isLineEnd, hp, Bool.or_true]⟩
  | case6 p rest _ _ line more h ih =>
    rw [h] at ih
    rcases ih with ih | ⟨q, hq, hend⟩
    · exact .inl ih
    · refine .inr ⟨q, ?_, hend⟩
      rw [List.getLast?_cons, Option.mem_def.1 hq]
      rfl

theorem splitLine_suffix (s : List (Place text)) : (splitLine s).2 <:+ s :=
  ⟨_, splitLine_append s⟩

theorem behindFeed_suffix (s : List (Place text)) : behindFeed s <:+ s :=
  (List.drop_suffix 1 _).trans (List.dropWhile_suffix _)

/-! ## Containers -/

namespace Cursor

theorem skipFrom_suffix (missing owed column : ℕ) (rest : List (Place text)) :
    (skipFrom missing owed column rest).2.rest <:+ rest := by
  fun_induction skipFrom missing owed column rest with
  | case1 => exact List.suffix_refl _
  | case2 => exact List.suffix_refl _
  | case3 _ _ _ p _ _ ih => exact ih.trans (List.suffix_cons p _)
  | case4 _ _ _ p _ _ _ _ _ ih => exact ih.trans (List.suffix_cons p _)
  | case5 => exact List.suffix_refl _

theorem skip_suffix (n : ℕ) (c : Cursor text) : (c.skip n).2.rest <:+ c.rest :=
  skipFrom_suffix _ _ _ _

theorem advance_suffix (n : ℕ) (c : Cursor text) : (c.advance n).rest <:+ c.rest :=
  List.drop_suffix _ _

theorem skipIndent_suffix (c : Cursor text) : c.skipIndent.rest <:+ c.rest :=
  List.dropWhile_suffix _

theorem behindQuote?_suffix {c behind : Cursor text} (h : c.behindQuote? = some behind) :
    behind.rest <:+ c.rest := by
  rw [behindQuote?] at h
  split_ifs at h
  obtain rfl := Option.some.inj h
  exact (skip_suffix 1 _).trans (advance_suffix 1 c)

end Cursor

theorem Container.behind?_suffix {container : Container} {c behind : Cursor text}
    (h : container.behind? c = some behind) : behind.rest <:+ c.rest := by
  cases container with
  | quote => exact (Cursor.behindQuote?_suffix h).trans (c.skip_suffix 3)
  | item indent =>
    cases indent with
    | none =>
      rw [behind?] at h
      split_ifs at h
      obtain rfl := Option.some.inj h
      exact c.skipIndent_suffix
    | some indent =>
      simp only [behind?] at h
      split_ifs at h
      obtain rfl := Option.some.inj h
      exact c.skip_suffix indent

theorem matchContainers_suffix (c : Cursor text) (containers : List Container) :
    (matchContainers c containers).2.rest <:+ c.rest := by
  induction containers generalizing c with
  | nil => exact List.suffix_refl _
  | cons container more ih =>
    rw [matchContainers]
    split
    · exact List.suffix_refl _
    · next behind h => exact (ih behind).trans (Container.behind?_suffix h)

theorem listItem?_suffix {outer column : ℕ} {c behind : Cursor text}
    (h : listItem? outer c = some (column, behind)) : behind.rest <:+ c.rest := by
  simp only [listItem?] at h
  split at h
  · cases h
  · next marker _ =>
    have hgap := ((c.advance marker.width).skip_suffix 1).trans (c.advance_suffix marker.width)
    split_ifs at h
    · obtain ⟨-, rfl⟩ := Prod.mk.inj (Option.some.inj h)
      exact hgap
    · obtain ⟨-, rfl⟩ := Prod.mk.inj (Option.some.inj h)
      exact (Cursor.skip_suffix 4 _).trans hgap
    · obtain ⟨-, rfl⟩ := Prod.mk.inj (Option.some.inj h)
      exact hgap

theorem openContainers_suffix (fuel : ℕ) (containers : List Container) (c : Cursor text) :
    (openContainers fuel containers c).2.1.rest <:+ c.rest := by
  induction fuel generalizing containers c with
  | zero => exact List.suffix_refl _
  | succ fuel ih =>
    have hskip := c.skip_suffix 4
    simp only [openContainers]
    split_ifs
    · exact List.suffix_refl _
    · split
      · next column behind h =>
        have hitem := (listItem?_suffix h).trans hskip
        split_ifs
        · exact hitem
        · exact (ih _ behind).trans hitem
      · split
        · next behind h => exact (ih _ behind).trans ((Cursor.behindQuote?_suffix h).trans hskip)
        · exact List.suffix_refl _

/-! ## Blocks without running text -/

theorem behindFence_suffix (containers : List Container) (fence : Char × ℕ) (indent fuel : ℕ)
    (s : List (Place text)) : behindFence containers fence indent fuel s <:+ s := by
  induction fuel generalizing s with
  | zero => exact List.suffix_refl _
  | succ fuel ih =>
    cases s with
    | nil => exact List.suffix_refl _
    | cons p s =>
      have hmatch := matchContainers_suffix ⟨p :: s, 0, 0⟩ containers
      simp only [behindFence]
      split_ifs
      · exact List.suffix_refl _
      · exact (splitLine_suffix _).trans
          ((Cursor.skip_suffix _ _).trans ((Cursor.skip_suffix _ _).trans hmatch))
      · exact (ih _).trans ((behindFeed_suffix _).trans hmatch)

theorem behindIndented_suffix (containers : List Container) (fuel : ℕ) (s : List (Place text)) :
    behindIndented containers fuel s <:+ s := by
  induction fuel generalizing s with
  | zero => exact List.suffix_refl _
  | succ fuel ih =>
    cases s with
    | nil => exact List.suffix_refl _
    | cons p s =>
      have hmatch := matchContainers_suffix ⟨p :: s, 0, 0⟩ containers
      simp only [behindIndented]
      split_ifs
      · exact List.suffix_refl _
      · exact (ih _).trans ((behindFeed_suffix _).trans ((Cursor.skip_suffix _ _).trans hmatch))

theorem behindHtml_suffix (containers : List Container) (stop? : Option (List Char)) (fuel : ℕ)
    (s : List (Place text)) : behindHtml containers stop? fuel s <:+ s := by
  induction fuel generalizing s with
  | zero => exact List.suffix_refl _
  | succ fuel ih =>
    cases s with
    | nil => exact List.suffix_refl _
    | cons p s =>
      have hfeed := behindFeed_suffix (p :: s)
      have hmatch := matchContainers_suffix ⟨behindFeed (p :: s), 0, 0⟩ containers
      simp only [behindHtml]
      split_ifs
      · exact hfeed
      · exact (ih _).trans (hmatch.trans hfeed)

/-! ## Paragraphs -/

theorem lineStart_suffix (containers : List Container) (s : List (Place text)) :
    (lineStart containers s).2.2.rest <:+ s :=
  (Cursor.skip_suffix 4 _).trans (matchContainers_suffix ⟨s, 0, 0⟩ containers)

theorem behindUnderline?_suffix {containers : List Container} {s behind : List (Place text)}
    (h : behindUnderline? containers s = some behind) : behind <:+ s := by
  simp only [behindUnderline?] at h
  split_ifs at h
  obtain rfl := Option.some.inj h
  exact (splitLine_suffix _).trans (lineStart_suffix containers s)

theorem nextOfParagraph?_suffix {containers : List Container} {s next : List (Place text)}
    (h : nextOfParagraph? containers s = some next) : next <:+ s := by
  simp only [nextOfParagraph?] at h
  split_ifs at h
  obtain rfl := Option.some.inj h
  exact (Cursor.skipIndent_suffix _).trans (lineStart_suffix containers s)

theorem flatMap_paragraphLines_sublist (containers : List Container) (fuel : ℕ)
    (s : List (Place text)) : (paragraphLines containers fuel s).flatMap (·.1) <+ s := by
  induction fuel generalizing s with
  | zero => exact List.nil_sublist s
  | succ fuel ih =>
    have hs := splitLine_append s
    simp only [paragraphLines]
    split
    · rw [List.flatMap_singleton]
      exact List.IsPrefix.sublist ⟨_, hs⟩
    · next next h =>
      conv_rhs => rw [← hs]
      rw [List.flatMap_cons]
      exact (List.Sublist.refl _).append ((ih next).trans (nextOfParagraph?_suffix h).sublist)

theorem suffix_of_mem_paragraphLines {containers : List Container} {fuel : ℕ}
    {s : List (Place text)} {l : List (Place text) × List (Place text)}
    (h : l ∈ paragraphLines containers fuel s) : l.1 ++ l.2 <:+ s := by
  induction fuel generalizing s with
  | zero => cases h
  | succ fuel ih =>
    have hs := splitLine_append s
    simp only [paragraphLines] at h
    split at h
    · obtain rfl := List.mem_singleton.1 h
      exact ⟨[], hs⟩
    · next next hnext =>
      rcases List.mem_cons.1 h with rfl | h
      · exact ⟨[], hs⟩
      · exact (ih h).trans ((nextOfParagraph?_suffix hnext).trans (splitLine_suffix s))

/-- Nothing is left out inside the lines of a paragraph. -/
theorem isChain_paragraphLines (containers : List Container) (fuel : ℕ) {s : List (Place text)}
    (h : s <:+ places text) :
    ((paragraphLines containers fuel s).flatMap (·.1)).IsChain Linked := by
  induction fuel generalizing s with
  | zero => exact .nil
  | succ fuel ih =>
    have hs := splitLine_append s
    have hline : (splitLine s).1.IsChain Linked :=
      (isChain_splitLine h).imp fun _ _ hnext _ => hnext
    simp only [paragraphLines]
    split
    · rwa [List.flatMap_singleton]
    · next next hnext =>
      have hsuffix := nextOfParagraph?_suffix hnext
      rw [List.flatMap_cons, List.isChain_append]
      refine ⟨hline, ih (hsuffix.trans ((splitLine_suffix s).trans h)), fun p hp q hq => ?_⟩
      rcases splitLine_end s with hend | ⟨e, he, hend⟩
      · -- without a line end nothing comes behind
        have hnil : (paragraphLines containers fuel next).flatMap (·.1) = [] := by
          have hsub := flatMap_paragraphLines_sublist containers fuel next
          rw [hend, List.suffix_nil] at hsuffix
          rw [hsuffix, List.sublist_nil] at hsub
          rw [hsuffix, hsub]
        rw [hnil] at hq
        cases hq
      · obtain rfl : e = p := Option.some.inj (he.symm.trans hp)
        intro hne
        rw [hend] at hne
        cases hne

theorem behindChars_suffix {n : ℕ} {s : List (Place text)}
    {lines : List (List (Place text) × List (Place text))} (h : ∀ l ∈ lines, l.1 ++ l.2 <:+ s) :
    behindChars n lines <:+ s := by
  induction lines generalizing n with
  | nil => exact List.nil_suffix
  | cons l lines ih =>
    have hl := h l List.mem_cons_self
    rw [behindChars]
    split_ifs with hn
    · rw [← List.drop_append_of_le_length hn]
      exact (List.drop_suffix n _).trans hl
    · exact ih fun k hk => h k (List.mem_cons_of_mem l hk)

/-! ## Passages -/

/-- Whether a passage is in the order of the text, with nothing left out inside a line, and its
margin is a row of blanks, which only a line with a line end has. -/
structure Passage.IsOrdered (p : Passage text) : Prop where
  sublist : p.places <+ Markup.places text
  linked : p.places.IsChain Linked
  margin : p.margin.IsChain Next
  gaps : ∀ blank ∈ p.margin, isGap blank.char = true
  ended : p.margin ≠ [] → ∃ place ∈ Markup.places text, isLineEnd place.char = true

theorem headingMargin_spec {line : List (Place text)} (h : line.IsChain Next) :
    (headingMargin line).IsChain Next ∧ ∀ blank ∈ headingMargin line, isGap blank.char = true := by
  have hreverse := List.isChain_reverse.2 h
  rw [← @List.takeWhile_append_dropWhile _ (fun p => isGap p.char) line.reverse] at hreverse
  have htail := hreverse.left_of_append
  rw [headingMargin]
  split
  · exact ⟨.nil, fun _ hm => absurd hm List.not_mem_nil⟩
  · split_ifs
    · refine ⟨List.isChain_reverse.2 (htail.suffix (List.dropWhile_suffix _)), fun blank hm => ?_⟩
      have hmem := (List.dropWhile_suffix _).mem (List.mem_reverse.1 hm)
      exact List.mem_takeWhile_imp (p := fun p : Place text => isGap p.char) hmem
    · exact ⟨.nil, fun _ hm => absurd hm List.not_mem_nil⟩

theorem Passage.isOrdered_ofHeading {s rest : List (Place text)} (h : s <:+ Markup.places text)
    (level : ℕ) : (ofHeading ((splitLine s).1.drop level) rest).IsOrdered := by
  have hline := (isChain_splitLine h).drop level
  have hwithin : (splitLine s).1.drop level <+ s := by
    conv_rhs => rw [← splitLine_append s]
    exact (List.drop_sublist level _).trans (List.sublist_append_left _ _)
  obtain ⟨hmargin, hgaps⟩ := headingMargin_spec hline
  refine ⟨hwithin.trans h.sublist, hline.imp fun _ _ hnext _ => hnext, hmargin, hgaps,
    fun hne => ?_⟩
  have hend := mt headingMargin_eq_nil hne
  rw [Bool.not_eq_false, Option.any_eq_true] at hend
  obtain ⟨place, hlast, hend⟩ := hend
  exact ⟨place, (hwithin.trans h.sublist).mem (List.mem_of_getLast? hlast), hend⟩

namespace Outline

/-! ## The walk -/

/-- Whether all passages of an outline are in order. -/
def IsOrdered (o : Outline text) : Prop := ∀ p ∈ o.passages, p.IsOrdered

/-- Whether an outline with the rest of the document is reached in order. -/
def Goes (r : Outline text × List (Place text)) : Prop := r.1.IsOrdered ∧ r.2 <:+ places text

variable {o : Outline text} {s : List (Place text)}

theorem IsOrdered.add (h : o.IsOrdered) {p : Passage text} (hp : p.IsOrdered) :
    IsOrdered { o with passages := p :: o.passages } := by
  rintro q hq
  rcases List.mem_cons.1 hq with rfl | hq
  · exact hp
  · exact h q hq

theorem goes_readParagraph (h : o.IsOrdered) (hs : s <:+ places text) :
    Goes (o.readParagraph s) := by
  delta readParagraph
  extract_lets lines content below rest
  have hmem (l) (hl : l ∈ lines) : l.1 ++ l.2 <:+ s := suffix_of_mem_paragraphLines hl
  have hcontent : content <+ places text := (flatMap_paragraphLines_sublist _ _ s).trans hs.sublist
  have hlinked : content.IsChain Linked := isChain_paragraphLines _ _ hs
  have hbelow : below <:+ places text := by
    cases hlast : lines.getLast? with
    | none => simp [below, hlast]
    | some l =>
      simp only [below, hlast, Option.map_some, Option.getD_some]
      exact (List.suffix_append l.1 l.2).trans ((hmem l (List.mem_of_getLast? hlast)).trans hs)
  have hrest : rest <:+ places text := by
    cases hunder : behindUnderline? o.containers below with
    | none => simpa [rest, hunder] using hbelow
    | some behind =>
      simp only [rest, hunder, Option.getD_some]
      exact (behindUnderline?_suffix hunder).trans hbelow
  clear_value lines content rest
  split
  · exact ⟨h, (behindChars_suffix hmem).trans hs⟩
  · exact ⟨h.add ⟨hcontent, hlinked, .nil, fun _ hm => absurd hm List.not_mem_nil,
      fun hne => absurd rfl hne⟩, hrest⟩

theorem goes_readLeaf (h : o.IsOrdered) (indent : ℕ) (hs : s <:+ places text) :
    Goes (o.readLeaf indent s) := by
  have hline : (splitLine s).2 <:+ places text := (splitLine_suffix s).trans hs
  unfold readLeaf
  extract_lets line html other
  have goes_html (stop? : Option (List Char)) : Goes (html stop?) :=
    ⟨h, (behindHtml_suffix _ _ _ s).trans hs⟩
  have goes_other : Goes (other ()) := by
    simp only [other]
    split_ifs
    · exact ⟨h, hline⟩
    · split
      · exact ⟨h.add (Passage.isOrdered_ofHeading hs _), hline⟩
      · exact ⟨h, (behindFence_suffix _ _ _ _ _).trans ((behindFeed_suffix s).trans hs)⟩
      · exact goes_readParagraph h hs
  clear_value line html other
  split
  · split
    · exact goes_html _
    · split
      · exact goes_html none
      · exact goes_other
  · exact goes_other

/-- One step reads forward and adds passages that are in order. -/
theorem goes_step (h : o.IsOrdered) (hs : s <:+ places text) : Goes (o.step s) := by
  have hmatch := matchContainers_suffix ⟨s, 0, 0⟩ o.containers
  have hopen := (openContainers_suffix s.length
    (o.containers.take (matchContainers ⟨s, 0, 0⟩ o.containers).1)
    (matchContainers ⟨s, 0, 0⟩ o.containers).2).trans (hmatch.trans hs)
  simp only [step]
  split_ifs
  · exact ⟨h, (splitLine_suffix _).trans hopen⟩
  · exact ⟨h, (splitLine_suffix _).trans hopen⟩
  · exact ⟨h, (behindIndented_suffix _ _ _).trans
      ((behindFeed_suffix _).trans ((Cursor.skip_suffix _ _).trans hopen))⟩
  · apply goes_readLeaf
    · exact h
    · exact (Cursor.skip_suffix _ _).trans hopen

theorem isOrdered_readAll (fuel : ℕ) (h : o.IsOrdered) (hs : s <:+ places text) :
    (readAll fuel o s).IsOrdered := by
  induction fuel generalizing o s with
  | zero => exact h
  | succ fuel ih =>
    cases s with
    | nil => exact h
    | cons p s =>
      obtain ⟨ho, hrest⟩ := goes_step h hs
      exact ih ho hrest

end Outline

/-- Every passage of a document is in order. -/
theorem isOrdered_of_mem_passages {p : Passage text} (h : p ∈ (outline text).passages) :
    p.IsOrdered :=
  Outline.isOrdered_readAll _ (fun _ hm => absurd hm List.not_mem_nil) (List.suffix_refl _) p h

end Acceptance.Markup
