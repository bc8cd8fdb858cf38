import Mathlib.Data.List.Basic
import Acceptance.Proofs.Text.Lines
import Acceptance.Proofs.Text.Reader
import Acceptance.Text.Word

/-!
# Line ends with a carriage return

A text whose line ends get a carriage return has the same lines. A reader that looks for words, signs
and runs of characters cannot tell it from the text before, nor from one that gets a space there: the
added character is a blank before a blank.

Main results:

* `lines_withReturns`: the lines stay the same.
* `Widened.split`: a widened text is made of widened parts.
* `Beside.keyword?`, `Beside.blanks?`, `Beside.run?`: readers leave widened texts of widened ones.
-/

namespace Acceptance.Text

/-! ## Carriage returns -/

/-- A text with a carriage return before each line feed. -/
def withReturns (s : List Char) : List Char :=
  s.flatMap fun c => if c = '\n' then ['\r', '\n'] else [c]

@[simp] theorem withReturns_nil : withReturns [] = [] := rfl

@[simp] theorem withReturns_newline (s : List Char) :
    withReturns ('\n' :: s) = '\r' :: '\n' :: withReturns s := rfl

theorem withReturns_cons {c : Char} (h : c ≠ '\n') (s : List Char) :
    withReturns (c :: s) = c :: withReturns s := by
  simp [withReturns, h]

theorem withReturns_append (s t : List Char) :
    withReturns (s ++ t) = withReturns s ++ withReturns t := by
  simp [withReturns]

theorem withReturns_eq_self {s : List Char} (h : '\n' ∉ s) : withReturns s = s := by
  induction s with
  | nil => rfl
  | cons c s ih =>
    have hc : c ≠ '\n' := fun he => h (he ▸ List.mem_cons_self)
    rw [withReturns_cons hc, ih fun hm => h (List.mem_cons_of_mem _ hm)]

theorem count_withReturns (s : List Char) : (withReturns s).count '\n' = s.count '\n' := by
  induction s with
  | nil => rfl
  | cons c s ih =>
    by_cases hc : c = '\n'
    · subst hc
      rw [withReturns_newline, List.count_cons_of_ne (by decide), List.count_cons_self,
        List.count_cons_self, ih]
    · rw [withReturns_cons hc, List.count_cons_of_ne hc, List.count_cons_of_ne hc, ih]

/-- A line end with a carriage return is a line end. -/
theorem lines_withReturns {s : List Char} (h : '\r' ∉ s) : lines (withReturns s) = lines s := by
  induction s with
  | nil => rfl
  | cons c s ih =>
    have ih := ih fun hm => h (List.mem_cons_of_mem _ hm)
    by_cases hc : c = '\n'
    · subst hc
      rw [withReturns_newline, lines_return_newline, lines_newline, ih]
    · have hr : c ≠ '\r' := fun he => h (he ▸ List.mem_cons_self)
      rw [withReturns_cons hc, lines_cons hc fun he => absurd he hr,
        lines_cons hc fun he => absurd he hr, ih]

theorem skipBlanks_withReturns (s : List Char) :
    skipBlanks (withReturns s) = withReturns (skipBlanks s) := by
  induction s with
  | nil => rfl
  | cons c s ih =>
    by_cases hc : c = '\n'
    · subst hc
      exact ih
    · rw [withReturns_cons hc, skipBlanks, skipBlanks, List.dropWhile_cons, List.dropWhile_cons]
      split_ifs
      · exact ih
      · exact (withReturns_cons hc s).symm

theorem allBlank_withReturns (s : List Char) : allBlank (withReturns s) = allBlank s := by
  induction s with
  | nil => rfl
  | cons c s ih =>
    by_cases hc : c = '\n'
    · subst hc
      exact ih
    · rw [withReturns_cons hc, allBlank, allBlank, List.all_cons, List.all_cons]
      exact congrArg _ ih

/-! ## Widened texts -/

/-- The characters that widen a text. -/
def pads : List Char := ['\r', ' ']

/-- The characters at a widened line end are blanks, and none of them is a letter. -/
theorem pads_spec {c : Char} (h : c ∈ '\n' :: pads) :
    isBlank c = true ∧ foldLetter c = c ∧ isEdge (some c) = true := by
  have all : ('\n' :: pads).all (fun c =>
      isBlank c && foldLetter c == c && isEdge (some c)) = true := by decide
  simpa [and_assoc] using List.all_eq_true.1 all c h

theorem isBlank_of_mem_pads {pad : Char} (h : pad ∈ pads) : isBlank pad = true :=
  (pads_spec (List.mem_cons_of_mem _ h)).1

theorem ne_of_mem_pads {c k : Char} (h : c ∈ '\n' :: pads) (hk : isBlank k = false) : c ≠ k := by
  rintro rfl
  exact absurd ((pads_spec h).1.symm.trans hk) (by decide)

/-- `Widened s t`: the text `t` is `s` with a carriage return or a space before each line feed. -/
inductive Widened : List Char → List Char → Prop
  | nil : Widened [] []
  | char {c : Char} {s t : List Char} : c ≠ '\n' → Widened s t → Widened (c :: s) (c :: t)
  | feed {pad : Char} {s t : List Char} : pad ∈ pads → Widened s t →
      Widened ('\n' :: s) (pad :: '\n' :: t)

theorem widened_withReturns (s : List Char) : Widened s (withReturns s) := by
  induction s with
  | nil => exact .nil
  | cons c s ih =>
    by_cases hc : c = '\n'
    · subst hc
      exact .feed (by decide) ih
    · rw [withReturns_cons hc]
      exact .char hc ih

namespace Widened

variable {s t : List Char}

theorem length_eq (h : Widened s t) : t.length = s.length + s.count '\n' := by
  induction h with
  | nil => rfl
  | char hc h ih =>
    rw [List.length_cons, List.length_cons, List.count_cons_of_ne hc, ih]
    omega
  | feed hp h ih =>
    rw [List.length_cons, List.length_cons, List.length_cons, List.count_cons_self, ih]
    omega

theorem count_eq (h : Widened s t) : t.count '\n' = s.count '\n' := by
  induction h with
  | nil => rfl
  | char hc h ih => rw [List.count_cons_of_ne hc, List.count_cons_of_ne hc, ih]
  | @feed pad s t hp h ih =>
    have hne : pad ≠ '\n' := by
      rintro rfl
      exact absurd hp (by decide)
    rw [List.count_cons_of_ne hne, List.count_cons_self, List.count_cons_self, ih]

theorem getLast?_eq (h : Widened s t) : t.getLast? = s.getLast? := by
  induction h with
  | nil => rfl
  | char hc h ih => rw [List.getLast?_cons, List.getLast?_cons, ih]
  | feed hp h ih =>
    rw [List.getLast?_cons, List.getLast?_cons, List.getLast?_cons, ih]
    rfl

/-- A widened text of two parts. -/
theorem split {u r : List Char} (h : Widened (u ++ r) t) :
    ∃ u' r', t = u' ++ r' ∧ Widened u u' ∧ Widened r r' := by
  induction u generalizing t with
  | nil => exact ⟨[], t, rfl, .nil, h⟩
  | cons c u ih =>
    rw [List.cons_append] at h
    cases h with
    | char hc h =>
      obtain ⟨u', r', rfl, hu, hr⟩ := ih h
      exact ⟨c :: u', r', rfl, .char hc hu, hr⟩
    | feed hp h =>
      obtain ⟨u', r', rfl, hu, hr⟩ := ih h
      exact ⟨_ :: '\n' :: u', r', rfl, .feed hp hu, hr⟩

/-- Behind two widened ends stand widened starts. -/
theorem of_append {u u' r r' : List Char} (h : Widened (u ++ r) (u' ++ r')) (hr : Widened r r') :
    Widened u u' := by
  obtain ⟨v, w, he, hv, hw⟩ := h.split
  have hlen : r'.length = w.length := by rw [hr.length_eq, hw.length_eq]
  obtain ⟨rfl, -⟩ := List.append_inj' he hlen
  exact hv

theorem skipBlanks (h : Widened s t) : Widened (skipBlanks s) (Text.skipBlanks t) := by
  induction h with
  | nil => exact .nil
  | @char c s t hc h ih =>
    rw [Text.skipBlanks, Text.skipBlanks, List.dropWhile_cons, List.dropWhile_cons]
    split_ifs
    · exact ih
    · exact .char hc h
  | @feed pad s t hp h ih =>
    rw [Text.skipBlanks, Text.skipBlanks, List.dropWhile_cons, List.dropWhile_cons,
      List.dropWhile_cons, if_pos (by decide), if_pos (isBlank_of_mem_pads hp), if_pos (by decide)]
    exact ih

/-- A run of characters ends at a line feed, and at the character that is added before it. -/
theorem takeWhile_eq (h : Widened s t) {p : Char → Bool} (hp : ('\n' :: pads).any p = false) :
    t.takeWhile p = s.takeWhile p ∧ Widened (s.dropWhile p) (t.dropWhile p) := by
  induction h with
  | nil => exact ⟨rfl, .nil⟩
  | @char c s t hc h ih =>
    rw [List.takeWhile_cons, List.takeWhile_cons, List.dropWhile_cons, List.dropWhile_cons]
    split_ifs
    · exact ⟨congrArg _ ih.1, ih.2⟩
    · exact ⟨rfl, .char hc h⟩
  | @feed pad s t hpad h ih =>
    have h1 : ¬ p '\n' = true := List.any_eq_false.1 hp '\n' List.mem_cons_self
    have h2 : ¬ p pad = true := List.any_eq_false.1 hp pad (List.mem_cons_of_mem _ hpad)
    rw [List.takeWhile_cons_of_neg h1, List.takeWhile_cons_of_neg h2, List.dropWhile_cons_of_neg h1,
      List.dropWhile_cons_of_neg h2]
    exact ⟨rfl, .feed hpad h⟩

end Widened

/-! ## Readers side by side -/

/-- Ends of two texts, the second of them widened. -/
structure Beside (s t r u : List Char) : Prop where
  left : r <:+ s
  right : u <:+ t
  widened : Widened r u

/-- What two readers find side by side: the same, with ends left over side by side. -/
def FindsBeside {α : Type} (s t : List Char) (p q : α × List Char) : Prop :=
  p.1 = q.1 ∧ Beside s t p.2 q.2

theorem rel_bind {α β γ δ : Type} {R : α → β → Prop} {S : γ → δ → Prop} {x : Option α}
    {y : Option β} {f : α → Option γ} {g : β → Option δ} (h : Option.Rel R x y)
    (hf : ∀ a b, R a b → Option.Rel S (f a) (g b)) : Option.Rel S (x.bind f) (y.bind g) := by
  cases h with
  | none => exact .none
  | some h => exact hf _ _ h

theorem rel_orElse {α β : Type} {R : α → β → Prop} {x x' : Option α} {y y' : Option β}
    (h : Option.Rel R x y) (h' : Option.Rel R x' y') :
    Option.Rel R (x.orElse fun _ => x') (y.orElse fun _ => y') := by
  cases h with
  | none => exact h'
  | some h => exact .some h

theorem rel_isSome {α β : Type} {R : α → β → Prop} {x : Option α} {y : Option β}
    (h : Option.Rel R x y) : x.isSome = y.isSome := by
  cases h <;> rfl

theorem rel_guard (b : Bool) :
    Option.Rel (fun _ _ => True) (guard (b = true) : Option Unit) (guard (b = true)) := by
  cases b with
  | false => exact .none
  | true => exact .some trivial

/-- If every keyword is found side by side, the first one of a list is. -/
theorem rel_anyKeyword? {s t r u : List Char} {words : List (List Char)}
    (h : ∀ word ∈ words, Option.Rel (Beside s t) (keyword? word r) (keyword? word u)) :
    Option.Rel (FindsBeside s t) (anyKeyword? words r) (anyKeyword? words u) := by
  induction words with
  | nil => exact .none
  | cons word words ih =>
    have hword := h word List.mem_cons_self
    have ih := ih fun w hw => h w (List.mem_cons_of_mem _ hw)
    rw [anyKeyword?, anyKeyword?]
    generalize keyword? word r = x at hword
    generalize keyword? word u = y at hword
    cases hword with
    | none => exact ih
    | some hword => exact .some ⟨rfl, hword⟩

namespace Beside

variable {s t r u : List Char}

theorem refl (h : Widened s t) : Beside s t s t := ⟨List.suffix_refl _, List.suffix_refl _, h⟩

theorem skipBlanks (h : Beside s t r u) : Beside s t (skipBlanks r) (Text.skipBlanks u) :=
  ⟨(skipBlanks_suffix r).trans h.left, (skipBlanks_suffix u).trans h.right, h.widened.skipBlanks⟩

theorem tail {c : Char} {v w : List Char} (h : Beside s t (c :: v) (c :: w)) (hw : Widened v w) :
    Beside s t v w :=
  ⟨(List.suffix_cons c v).trans h.left, (List.suffix_cons c w).trans h.right, hw⟩

/-- A word boundary stands before both ends or before none. -/
theorem isEdge_eq (h : Beside s t r u) : isEdge u.head? = isEdge r.head? := by
  obtain ⟨-, -, hw⟩ := h
  cases hw with
  | nil => rfl
  | char hc hw => rfl
  | feed hp hw =>
    exact (pads_spec (List.mem_cons_of_mem _ hp)).2.2.trans
      (pads_spec List.mem_cons_self).2.2.symm

theorem keyword? (h : Beside s t r u) {word : List Char} (hw : word.any isBlank = false) :
    Option.Rel (Beside s t) (keyword? word r) (Text.keyword? word u) := by
  induction word generalizing r u with
  | nil => exact .some h
  | cons k word ih =>
    rw [List.any_cons, Bool.or_eq_false_iff] at hw
    have blank {c : Char} (hc : c ∈ '\n' :: pads) : ¬ (foldLetter c == k) = true := by
      rw [(pads_spec hc).2.1, beq_iff_eq]
      exact ne_of_mem_pads hc hw.1
    obtain ⟨hl, hr, hwide⟩ := h
    cases hwide with
    | nil => exact .none
    | char hc hwide =>
      rw [Text.keyword?, Text.keyword?]
      split_ifs
      · exact ih (tail ⟨hl, hr, .char hc hwide⟩ hwide) hw.2
      · exact .none
    | feed hp hwide =>
      rw [Text.keyword?, Text.keyword?, if_neg (blank List.mem_cons_self),
        if_neg (blank (List.mem_cons_of_mem _ hp))]
      exact .none

theorem char? (h : Beside s t r u) {k : Char} (hk : isBlank k = false) :
    Option.Rel (Beside s t) (char? k r) (Text.char? k u) := by
  have blank {c : Char} (hc : c ∈ '\n' :: pads) : ¬ (c == k) = true :=
    fun he => ne_of_mem_pads hc hk (beq_iff_eq.1 he)
  obtain ⟨hl, hr, hwide⟩ := h
  cases hwide with
  | nil => exact .none
  | char hc hwide =>
    rw [Text.char?, Text.char?]
    split_ifs
    · exact .some (tail ⟨hl, hr, .char hc hwide⟩ hwide)
    · exact .none
  | feed hp hwide =>
    rw [Text.char?, Text.char?, if_neg (blank List.mem_cons_self),
      if_neg (blank (List.mem_cons_of_mem _ hp))]
    exact .none

theorem blanks? (h : Beside s t r u) :
    Option.Rel (Beside s t) (blanks? r) (Text.blanks? u) := by
  obtain ⟨hl, hr, hwide⟩ := h
  cases hwide with
  | nil => exact .none
  | char hc hwide =>
    rw [Text.blanks?, Text.blanks?]
    split_ifs
    · exact .some (tail ⟨hl, hr, .char hc hwide⟩ hwide).skipBlanks
    · exact .none
  | @feed pad v w hp hwide =>
    rw [Text.blanks?, Text.blanks?, if_pos (by decide), if_pos (isBlank_of_mem_pads hp)]
    have hw : Text.skipBlanks ('\n' :: w) = Text.skipBlanks w := by
      rw [Text.skipBlanks, List.dropWhile_cons, if_pos (by decide), Text.skipBlanks]
    refine .some ⟨?_, ?_, ?_⟩
    · exact (skipBlanks_suffix v).trans ((List.suffix_cons _ v).trans hl)
    · rw [hw]
      exact (skipBlanks_suffix w).trans
        ((List.suffix_cons _ w).trans ((List.suffix_cons _ _).trans hr))
    · rw [hw]
      exact hwide.skipBlanks

theorem run? (h : Beside s t r u) {p : Char → Bool} (hp : ('\n' :: pads).any p = false) :
    Option.Rel (FindsBeside s t) (run? p r) (Text.run? p u) := by
  obtain ⟨htake, hdrop⟩ := h.widened.takeWhile_eq hp
  have hrest : Beside s t (r.dropWhile p) (u.dropWhile p) :=
    ⟨(List.dropWhile_suffix p).trans h.left, (List.dropWhile_suffix p).trans h.right, hdrop⟩
  rw [Text.run?, Text.run?, htake]
  cases r.takeWhile p with
  | nil => exact .none
  | cons c run => exact .some ⟨rfl, hrest⟩

theorem after? (h : Beside s t r u) {start : List Char} (hs : start.any isBlank = false) :
    Option.Rel (Beside s t) (after? start r) (Text.after? start u) := by
  induction start generalizing r u with
  | nil => exact .some h
  | cons k start ih =>
    rw [List.any_cons, Bool.or_eq_false_iff] at hs
    obtain ⟨hl, hr, hwide⟩ := h
    cases hwide with
    | nil => exact .none
    | char hc hwide =>
      rw [after?_cons, after?_cons]
      split_ifs
      · exact ih (tail ⟨hl, hr, .char hc hwide⟩ hwide) hs.2
      · exact .none
    | feed hp hwide =>
      rw [after?_cons, after?_cons, if_neg (ne_of_mem_pads List.mem_cons_self hs.1),
        if_neg (ne_of_mem_pads (List.mem_cons_of_mem _ hp) hs.1)]
      exact .none

end Beside

section Start

variable {c : Char} {s t : List Char} (h : Widened s t)

include h

/-- A keyword that is found leaves ends of the texts behind its first letter. -/
theorem rel_keyword?_cons {word : List Char} (hw : word ≠ [] ∧ word.any isBlank = false) :
    Option.Rel (Beside s t) (keyword? word (c :: s)) (keyword? word (c :: t)) := by
  obtain ⟨k, word, rfl⟩ := List.exists_cons_of_ne_nil hw.1
  have hword := hw.2
  rw [List.any_cons, Bool.or_eq_false_iff] at hword
  rw [keyword?, keyword?]
  split_ifs
  · exact (Beside.refl h).keyword? hword.2
  · exact .none

theorem rel_after?_cons {start : List Char} (hs : start ≠ [] ∧ start.any isBlank = false) :
    Option.Rel (Beside s t) (after? start (c :: s)) (after? start (c :: t)) := by
  obtain ⟨k, start, rfl⟩ := List.exists_cons_of_ne_nil hs.1
  have hstart := hs.2
  rw [List.any_cons, Bool.or_eq_false_iff] at hstart
  rw [after?_cons, after?_cons]
  split_ifs
  · exact (Beside.refl h).after? hstart.2
  · exact .none

end Start

end Acceptance.Text
