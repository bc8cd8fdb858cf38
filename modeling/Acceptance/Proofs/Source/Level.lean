import Mathlib.Data.List.Chain
import Acceptance.Proofs.Source.Keyword
import Acceptance.Proofs.Text.Reader

/-!
# The level of a line by its tokens

A line has words, closed quoted names and other signs. Its free words are those that do not stand
directly behind a dot, and the change of level should be the balance of the keywords among them. The
count takes the names out of the line first, and with a name goes the gap that it makes: words that a
name kept apart are read as one word, and a word behind a name is taken for a member where a dot
stands in front of the name. So the count is the balance but for the stretches between two signs that
hold a name.

Letters are compared by simple case folding, so the long s stands for `s` in a keyword.

Main results:

* `flatMap_text_lineTokens`, `isChain_lineTokens`: the tokens are the line, and no two words touch.
* `withoutNames_eq_flatMap`: what is left of a line.
* `blockDelta_sub_balance`: the count and the balance.
* `blockDelta_eq_balance_iff`: when they are the same.
* `blockDelta_eq_balance_of_names`: they are where no name touches a word.
-/

namespace Acceptance.Source

open Text

/-! ## Specification -/

/-- A piece of a line. -/
inductive LineToken where
  /-- Word characters up to the next other character. -/
  | word (letters : List Char)
  /-- A quoted name that is closed on the line. -/
  | name (content : List Char)
  | sign (c : Char)
  deriving Repr, DecidableEq

/-- Whether the character can stand in a quoted name. -/
def isInName (c : Char) : Bool := c != '"' && c != '\n'

/-- The content of the quoted name that the text starts with, and the text behind the name. -/
def closedName? : List Char → Option (List Char × List Char)
  | '"' :: s =>
    match s.dropWhile isInName with
    | '"' :: rest => some (s.takeWhile isInName, rest)
    | _ => none
  | _ => none

theorem isInName_iff {c : Char} : isInName c = true ↔ c ≠ '"' ∧ c ≠ '\n' := by
  simp [isInName]

theorem closedName?_eq_some {s content rest : List Char} (h : closedName? s = some (content, rest)) :
    s = '"' :: (content ++ '"' :: rest) ∧ ∀ c ∈ content, isInName c = true := by
  unfold closedName? at h
  split at h
  · next s =>
    split at h
    · next tail hd =>
      obtain ⟨rfl, rfl⟩ := Prod.mk.inj (Option.some.inj h)
      refine ⟨?_, fun c hc => List.mem_takeWhile_imp hc⟩
      rw [← hd, List.takeWhile_append_dropWhile]
    · cases h
  · cases h

/-- The tokens of a line. A quotation mark that nothing closes is a sign. -/
def lineTokens : List Char → List LineToken
  | [] => []
  | c :: s =>
    if isWordChar c then
      .word (c :: s.takeWhile isWordChar) :: lineTokens (s.dropWhile isWordChar)
    else
      match _h : closedName? (c :: s) with
      | some (content, rest) => .name content :: lineTokens rest
      | none => .sign c :: lineTokens s
termination_by s => s.length
decreasing_by
  · exact Nat.lt_succ_of_le (List.dropWhile_sublist _).length_le
  · rw [(closedName?_eq_some _h).1, List.length_cons, List.length_append, List.length_cons]
    omega
  · exact Nat.lt_succ_self _

/-- The words of a line but for those directly behind a dot, which name members. The flag tells
whether a dot stands directly in front of the tokens. -/
def freeWords (behindDot : Bool) : List LineToken → List (List Char)
  | [] => []
  | .word w :: tokens => if behindDot then freeWords false tokens else w :: freeWords false tokens
  | .name _ :: tokens => freeWords false tokens
  | .sign c :: tokens => freeWords (c == '.') tokens

/-- How many more keywords open a level than close one, in any case. -/
def balance (words : List (List Char)) : ℤ :=
  let words := words.map (List.map foldLetter)
  words.count "begin".toList + words.count "case".toList - words.count "end".toList

/-- The words and names between two signs that follow on each other. -/
structure Stretch where
  /-- Whether the sign in front is a dot. -/
  behindDot : Bool
  tokens : List LineToken
  deriving Repr, DecidableEq

namespace LineToken

/-- The token as it is written. -/
def text : LineToken → List Char
  | word w => w
  | name content => '"' :: (content ++ ['"'])
  | sign c => [c]

/-- What is left of the token where names are taken out. -/
def kept : LineToken → List Char
  | word w => w
  | name _ => []
  | sign c => [c]

/-- Whether the token is a name. -/
def isName : LineToken → Bool
  | name _ => true
  | _ => false

/-- Whether the token is a word. -/
def isWord : LineToken → Bool
  | word _ => true
  | _ => false

/-- Words hold word characters and signs are none. -/
def IsValid : LineToken → Prop
  | word w => ∀ c ∈ w, isWordChar c = true
  | name _ => True
  | sign c => isWordChar c = false

end LineToken

namespace Stretch

/-- Whether a name stands in the stretch. -/
def hasName (s : Stretch) : Bool := s.tokens.any LineToken.isName

/-- The balance of the keywords in the stretch. -/
def apart (s : Stretch) : ℤ := balance (freeWords s.behindDot s.tokens)

/-- The balance of the one word that the words of the stretch make without the names. -/
def together (s : Stretch) : ℤ :=
  balance (freeWords s.behindDot [.word (s.tokens.flatMap LineToken.kept)])

end Stretch

/-- The stretches of a line; `held` has the tokens of an open one in reverse. -/
def stretchesFrom (behindDot : Bool) (held : List LineToken) : List LineToken → List Stretch
  | [] => [⟨behindDot, held.reverse⟩]
  | .sign c :: tokens => ⟨behindDot, held.reverse⟩ :: stretchesFrom (c == '.') [] tokens
  | t :: tokens => stretchesFrom behindDot (t :: held) tokens

/-- The stretches of a line. -/
def stretches (line : List Char) : List Stretch := stretchesFrom false [] (lineTokens line)

/-! ## Tokens -/

theorem closedName?_eq_none {s : List Char} (h : closedName? ('"' :: s) = none) :
    ∃ content rest, s = content ++ rest ∧ (∀ c ∈ content, isInName c = true) ∧
      (rest = [] ∨ ∃ more, rest = '\n' :: more) := by
  refine ⟨s.takeWhile isInName, s.dropWhile isInName, List.takeWhile_append_dropWhile.symm,
    fun c hc => List.mem_takeWhile_imp hc, ?_⟩
  cases hd : s.dropWhile isInName with
  | nil => exact .inl rfl
  | cons c more =>
    have hc : isInName c = false := head?_dropWhile (by rw [hd]; rfl)
    have hquote : c ≠ '"' := by
      rintro rfl
      simp only [closedName?, hd] at h
      cases h
    obtain rfl : c = '\n' := by simpa [isInName, hquote] using hc
    exact .inr ⟨more, rfl⟩

/-- The tokens are the line. -/
theorem flatMap_text_lineTokens (s : List Char) : (lineTokens s).flatMap LineToken.text = s := by
  fun_induction lineTokens s with
  | case1 => rfl
  | case2 c s hc ih =>
    rw [List.flatMap_cons, ih, LineToken.text, List.cons_append, List.takeWhile_append_dropWhile]
  | case3 c s hc content rest h ih =>
    rw [List.flatMap_cons, ih, (closedName?_eq_some h).1, LineToken.text, List.cons_append,
      List.append_assoc]
    rfl
  | case4 c s hc h ih =>
    rw [List.flatMap_cons, ih]
    rfl

example : lineTokens "Rec.\"No.\"end\"".toList =
    [.word "Rec".toList, .sign '.', .name "No.".toList, .word "end".toList, .sign '"'] := by
  decide +kernel

theorem isValid_lineTokens (s : List Char) : ∀ t ∈ lineTokens s, t.IsValid := by
  fun_induction lineTokens s with
  | case1 => exact nofun
  | case2 c s hc ih =>
    have hw : (LineToken.word (c :: s.takeWhile isWordChar)).IsValid :=
      List.forall_mem_cons.2 ⟨hc, fun d hd => List.mem_takeWhile_imp hd⟩
    exact List.forall_mem_cons.2 ⟨hw, ih⟩
  | case3 c s hc content rest h ih => exact List.forall_mem_cons.2 ⟨trivial, ih⟩
  | case4 c s hc h ih =>
    have hsign : (LineToken.sign c).IsValid := by
      rw [LineToken.IsValid]
      exact Bool.eq_false_iff.2 hc
    exact List.forall_mem_cons.2 ⟨hsign, ih⟩

/-- A line that starts with another character starts with another token. -/
theorem isWord_head?_lineTokens {s : List Char} (h : ∀ c ∈ s.head?, isWordChar c = false) :
    ∀ t ∈ (lineTokens s).head?, t.isWord = false := by
  cases s with
  | nil => simp [lineTokens]
  | cons c s =>
    rw [lineTokens, if_neg (by simp [h c rfl])]
    split
    · rintro t ⟨⟩
      rfl
    · rintro t ⟨⟩
      rfl

/-- No two words touch. -/
theorem isChain_lineTokens (s : List Char) :
    (lineTokens s).IsChain fun t u => (t.isWord && u.isWord) = false := by
  fun_induction lineTokens s with
  | case1 => exact .nil
  | case2 c s hc ih =>
    refine List.isChain_cons.2 ⟨fun u hu => ?_, ih⟩
    exact isWord_head?_lineTokens (fun d hd => head?_dropWhile hd) u hu
  | case3 c s hc content rest h ih => exact List.isChain_cons.2 ⟨fun _ _ => rfl, ih⟩
  | case4 c s hc h ih => exact List.isChain_cons.2 ⟨fun _ _ => rfl, ih⟩

/-! ## Taking names out -/

theorem withoutNames_append {a : List Char} (h : ∀ c ∈ a, c ≠ '"') (s : List Char) :
    withoutNames (a ++ s) = a ++ withoutNames s := by
  induction a with
  | nil => rfl
  | cons c a ih =>
    have hc : ¬ (c == '"') = true := by simp [h c List.mem_cons_self]
    have := ih fun d hd => h d (List.mem_cons_of_mem c hd)
    rw [withoutNames] at this ⊢
    rw [List.cons_append, withoutNamesFrom, if_neg hc, this, List.cons_append]

/-- Characters of a name add to the open one. -/
theorem withoutNamesFrom_append {content : List Char} (h : ∀ c ∈ content, isInName c = true)
    (read s : List Char) :
    withoutNamesFrom (some read) (content ++ s) =
      withoutNamesFrom (some (content.reverse ++ read)) s := by
  induction content generalizing read with
  | nil => rfl
  | cons c content ih =>
    obtain ⟨hquote, hfeed⟩ := isInName_iff.1 (h c List.mem_cons_self)
    rw [List.cons_append, withoutNamesFrom, if_neg (by simp [hquote]), if_neg (by simp [hfeed]),
      ih fun d hd => h d (List.mem_cons_of_mem c hd), List.reverse_cons, List.append_assoc]
    rfl

theorem withoutNames_open {content : List Char} (h : ∀ c ∈ content, isInName c = true)
    (s : List Char) :
    withoutNames ('"' :: (content ++ s)) = withoutNamesFrom (some content.reverse) s := by
  have := withoutNamesFrom_append h [] s
  rwa [List.append_nil] at this

/-- A quotation mark that nothing closes is kept. -/
theorem withoutNames_of_closedName?_eq_none {s : List Char} (h : closedName? ('"' :: s) = none) :
    withoutNames ('"' :: s) = '"' :: withoutNames s := by
  obtain ⟨content, rest, rfl, hcontent, hrest⟩ := closedName?_eq_none h
  have hquote : ∀ c ∈ content, c ≠ '"' := fun c hc => (isInName_iff.1 (hcontent c hc)).1
  rw [withoutNames_open hcontent, withoutNames_append hquote]
  rcases hrest with rfl | ⟨more, rfl⟩
  · rw [withoutNamesFrom, List.reverse_reverse, withoutNames, withoutNamesFrom, List.append_nil]
  · rw [withoutNamesFrom, if_neg (by decide), if_pos (by decide), List.reverse_reverse]
    rfl

/-- What is left of a line is what is left of its tokens. -/
theorem withoutNames_eq_flatMap (s : List Char) :
    withoutNames s = (lineTokens s).flatMap LineToken.kept := by
  fun_induction lineTokens s with
  | case1 => rfl
  | case2 c s hc ih =>
    have hquote : ∀ d ∈ c :: s.takeWhile isWordChar, d ≠ '"' := by
      have hword : ∀ d ∈ c :: s.takeWhile isWordChar, isWordChar d = true :=
        List.forall_mem_cons.2 ⟨hc, fun d hd => List.mem_takeWhile_imp hd⟩
      rintro d hd rfl
      exact absurd (hword _ hd) (by decide)
    have := withoutNames_append hquote (s.dropWhile isWordChar)
    rw [List.cons_append, List.takeWhile_append_dropWhile] at this
    rw [this, ih]
    rfl
  | case3 c s hc content rest h ih =>
    obtain ⟨hs, hcontent⟩ := closedName?_eq_some h
    rw [hs, withoutNames_open hcontent, withoutNamesFrom, if_pos (by decide)]
    exact ih
  | case4 c s hc h ih =>
    have hkeep : withoutNames (c :: s) = c :: withoutNames s := by
      by_cases hquote : c = '"'
      · subst hquote
        exact withoutNames_of_closedName?_eq_none h
      · exact withoutNames_append (a := [c]) (by simpa using hquote) s
    rw [hkeep, ih]
    rfl

/-! ## Balances -/

theorem balance_append (u v : List (List Char)) : balance (u ++ v) = balance u + balance v := by
  simp only [balance, List.map_append, List.count_append, Nat.cast_add]
  omega

theorem balance_singleton (w : List Char) :
    balance [w] = if w.map foldLetter ∈ ["begin".toList, "case".toList] then 1
      else if w.map foldLetter = "end".toList then -1 else 0 := by
  rw [balance, List.map_singleton]
  generalize w.map foldLetter = k
  by_cases hbegin : k = "begin".toList
  · subst hbegin
    decide
  by_cases hcase : k = "case".toList
  · subst hcase
    decide
  by_cases hend : k = "end".toList
  · subst hend
    decide
  have other {l : List Char} (h : k ≠ l) : [k].count l = 0 :=
    List.count_eq_zero.2 fun hm => h (List.mem_singleton.1 hm).symm
  have hopen : k ∉ ["begin".toList, "case".toList] := by
    rw [List.mem_cons, List.mem_singleton]
    exact not_or.2 ⟨hbegin, hcase⟩
  rw [other hbegin, other hcase, other hend, if_neg hopen, if_neg hend]
  rfl

/-- The change of level by a word is the balance of the word behind the same character. -/
theorem getD_wordChange? (before : Option Char) (w : List Char) :
    (wordChange? before w).getD 0 = balance (freeWords (before == some '.') [.word w]) := by
  by_cases hdot : before = some '.'
  · subst hdot
    rw [wordChange?, if_pos rfl]
    rfl
  · have hfree : freeWords (before == some '.') [.word w] = [w] := by
      simp [freeWords, hdot]
    rw [hfree, balance_singleton, wordChange?, if_neg hdot]
    split_ifs <;> rfl

theorem freeWords_append_sign (behindDot : Bool) (tokens : List LineToken) (c : Char)
    (more : List LineToken) :
    freeWords behindDot (tokens ++ .sign c :: more) =
      freeWords behindDot tokens ++ freeWords (c == '.') more := by
  induction tokens generalizing behindDot with
  | nil => rfl
  | cons t tokens ih =>
    cases t with
    | word w => cases behindDot <;> simp [freeWords, ih]
    | name content => simp [freeWords, ih]
    | sign d => simp [freeWords, ih]

theorem freeWords_names {tokens : List LineToken} (h : ∀ t ∈ tokens, t.isName = true)
    (behindDot : Bool) : freeWords behindDot tokens = [] := by
  induction tokens generalizing behindDot with
  | nil => rfl
  | cons t tokens ih =>
    obtain ⟨ht, hmore⟩ := List.forall_mem_cons.1 h
    cases t with
    | name content => exact ih hmore false
    | word w => cases ht
    | sign c => cases ht

/-! ## Stretches -/

/-- The balance of a line is that of its stretches. -/
theorem sum_apart (behindDot : Bool) (held tokens : List LineToken) :
    ((stretchesFrom behindDot held tokens).map Stretch.apart).sum =
      balance (freeWords behindDot (held.reverse ++ tokens)) := by
  fun_induction stretchesFrom behindDot held tokens with
  | case1 behindDot held => simp [Stretch.apart]
  | case2 behindDot held c tokens ih =>
    rw [List.map_cons, List.sum_cons, ih, freeWords_append_sign, balance_append, Stretch.apart,
      List.reverse_nil, List.nil_append]
  | case3 behindDot held t tokens hsign ih =>
    rw [ih, List.reverse_cons, List.append_assoc, List.singleton_append]

/-- Signs end the open word. -/
theorem wordsFrom_sign (before : Option Char) (held : List Char) {c : Char}
    (hc : isWordChar c = false) (s : List Char) :
    wordsFrom before held (c :: s) = wordsFrom before held [] ++ wordsFrom (some c) [] s := by
  have hsign : ¬ isWordChar c = true := Bool.eq_false_iff.1 hc
  by_cases hheld : held = []
  · subst hheld
    have hskip : wordsFrom before [] (c :: s) = wordsFrom (some c) [] s :=
      (if_neg hsign).trans (if_pos rfl)
    rw [hskip]
    rfl
  · have hopen : wordsFrom before held [] = [(before, held.reverse)] := if_neg hheld
    rw [hopen, wordsFrom, if_neg hsign, if_neg hheld, List.singleton_append]

theorem wordChange?_nil (before : Option Char) : wordChange? before [] = none := by
  rw [wordChange?]
  split_ifs with hdot hopen hclose
  · rfl
  · exact absurd hopen (by decide)
  · exact absurd hclose (by decide)
  · rfl

theorem sum_wordsFrom_nil (before : Option Char) (held : List LineToken) :
    ((wordsFrom before (held.reverse.flatMap LineToken.kept).reverse []).filterMap
      fun p => wordChange? p.1 p.2).sum = Stretch.together ⟨before == some '.', held.reverse⟩ := by
  rw [Stretch.together, ← getD_wordChange?, wordsFrom, List.reverse_reverse]
  split_ifs with hempty
  · rw [List.reverse_eq_nil_iff.1 hempty, wordChange?_nil]
    rfl
  · cases hw : wordChange? before (held.reverse.flatMap LineToken.kept) with
    | none => simp [hw]
    | some change => simp [hw]

/-- What is left of a line is counted stretch by stretch. -/
theorem sum_wordsFrom (before : Option Char) (held : List LineToken) {tokens : List LineToken}
    (h : ∀ t ∈ tokens, t.IsValid) :
    ((wordsFrom before (held.reverse.flatMap LineToken.kept).reverse
        (tokens.flatMap LineToken.kept)).filterMap fun p => wordChange? p.1 p.2).sum =
      ((stretchesFrom (before == some '.') held tokens).map Stretch.together).sum := by
  -- the open word is what is left of the open stretch
  induction tokens generalizing before held with
  | nil =>
    rw [stretchesFrom, List.map_singleton, List.sum_singleton]
    exact sum_wordsFrom_nil before held
  | cons t tokens ih =>
    obtain ⟨ht, hmore⟩ := List.forall_mem_cons.1 h
    cases t with
    | word w =>
      have := ih before (.word w :: held) hmore
      rw [List.reverse_cons, List.flatMap_append, List.flatMap_singleton,
        List.reverse_append] at this
      rw [List.flatMap_cons, LineToken.kept, wordsFrom_append before _ ht, stretchesFrom]
      · exact this
      · exact nofun
    | name content =>
      have := ih before (.name content :: held) hmore
      rw [List.reverse_cons, List.flatMap_append, List.flatMap_singleton, LineToken.kept,
        List.append_nil] at this
      rw [List.flatMap_cons, LineToken.kept, List.nil_append, stretchesFrom]
      · exact this
      · exact nofun
    | sign c =>
      have := ih (some c) [] hmore
      rw [List.flatMap_cons, LineToken.kept, List.singleton_append, wordsFrom_sign _ _ ht,
        List.filterMap_append, List.sum_append, sum_wordsFrom_nil, stretchesFrom, List.map_cons,
        List.sum_cons]
      exact congrArg _ this

/-- A stretch is a part of the line. -/
theorem infix_of_mem_stretchesFrom {behindDot : Bool} {held tokens : List LineToken} {s : Stretch}
    (h : s ∈ stretchesFrom behindDot held tokens) : s.tokens <:+: held.reverse ++ tokens := by
  fun_induction stretchesFrom behindDot held tokens with
  | case1 behindDot held =>
    rw [List.mem_singleton.1 h, List.append_nil]
  | case2 behindDot held c tokens ih =>
    rcases List.mem_cons.1 h with rfl | h
    · exact (List.prefix_append _ _).isInfix
    · have hs : s.tokens <:+: tokens := ih h
      exact hs.trans ((List.suffix_cons _ _).trans (List.suffix_append _ _)).isInfix
  | case3 behindDot held t tokens hsign ih =>
    have := ih h
    rwa [List.reverse_cons, List.append_assoc] at this

/-- A stretch holds no signs. -/
theorem ne_sign_of_mem_stretchesFrom {behindDot : Bool} {held tokens : List LineToken}
    (hheld : ∀ t ∈ held, ∀ c, t ≠ .sign c) {s : Stretch}
    (h : s ∈ stretchesFrom behindDot held tokens) : ∀ t ∈ s.tokens, ∀ c, t ≠ .sign c := by
  fun_induction stretchesFrom behindDot held tokens with
  | case1 behindDot held =>
    rw [List.mem_singleton.1 h]
    exact fun t ht => hheld t (List.mem_reverse.1 ht)
  | case2 behindDot held c tokens ih =>
    rcases List.mem_cons.1 h with rfl | h
    · exact fun t ht => hheld t (List.mem_reverse.1 ht)
    · exact ih (List.forall_mem_nil _) h
  | case3 behindDot held t tokens hsign ih =>
    refine ih ?_ h
    exact List.forall_mem_cons.2 ⟨fun c hc => hsign c hc, hheld⟩

/-- A stretch without a name is one word at most, so nothing is joined in it. -/
theorem together_eq_apart {line : List Char} {s : Stretch} (h : s ∈ stretches line)
    (hname : s.hasName = false) : s.together = s.apart := by
  have hword : ∀ t ∈ s.tokens, t.isWord = true := by
    intro t ht
    have hsign := ne_sign_of_mem_stretchesFrom (List.forall_mem_nil _) h t ht
    have hn : t.isName = false := by
      simpa using List.any_eq_false.1 hname t ht
    cases t with
    | word w => rfl
    | name content => cases hn
    | sign c => exact absurd rfl (hsign c)
  have hpart : s.tokens <:+: lineTokens line := infix_of_mem_stretchesFrom h
  obtain ⟨before, behind, hparts⟩ := hpart
  have hchain := isChain_lineTokens line
  rw [← hparts] at hchain
  replace hchain := hchain.left_of_append.right_of_append
  obtain ⟨behindDot, tokens⟩ := s
  match tokens with
  | [] => cases behindDot <;> rfl
  | [.word w] =>
    rw [Stretch.together, List.flatMap_singleton]
    rfl
  | [.name content] => cases hname
  | [.sign c] => cases hword _ List.mem_cons_self
  | t :: u :: more =>
    have hpair := (List.isChain_cons_cons.1 hchain).1
    rw [hword t List.mem_cons_self, hword u (List.mem_cons_of_mem t List.mem_cons_self)] at hpair
    cases hpair

/-! ## The count and the balance -/

theorem sum_map_sub_sum_map {α : Type} {p : α → Bool} {f g : α → ℤ} {l : List α}
    (h : ∀ a ∈ l, p a = false → f a = g a) :
    (l.map f).sum - (l.map g).sum = ((l.filter p).map f).sum - ((l.filter p).map g).sum := by
  induction l with
  | nil => rfl
  | cons a l ih =>
    have hl := ih fun b hb => h b (List.mem_cons_of_mem a hb)
    cases hp : p a with
    | true =>
      rw [List.filter_cons_of_pos hp]
      simp only [List.map_cons, List.sum_cons]
      omega
    | false =>
      have ha := h a List.mem_cons_self hp
      rw [List.filter_cons_of_neg (by simp [hp])]
      simp only [List.map_cons, List.sum_cons]
      omega

/-- The count differs from the balance in the stretches that hold a name. -/
theorem blockDelta_sub_balance (line : List Char) :
    blockDelta line - balance (freeWords false (lineTokens line)) =
      (((stretches line).filter Stretch.hasName).map Stretch.together).sum -
        (((stretches line).filter Stretch.hasName).map Stretch.apart).sum := by
  have hcount : blockDelta line = ((stretches line).map Stretch.together).sum := by
    rw [blockDelta_eq_sum, levelChanges, withoutNames_eq_flatMap]
    exact sum_wordsFrom none [] (isValid_lineTokens line)
  have hbalance : balance (freeWords false (lineTokens line)) =
      ((stretches line).map Stretch.apart).sum := (sum_apart false [] (lineTokens line)).symm
  rw [hcount, hbalance]
  exact sum_map_sub_sum_map fun s hs => together_eq_apart hs

/-- The count is the balance exactly when joining the words of the stretches that hold a name does not
change the balance of these. -/
theorem blockDelta_eq_balance_iff (line : List Char) :
    blockDelta line = balance (freeWords false (lineTokens line)) ↔
      (((stretches line).filter Stretch.hasName).map Stretch.together).sum =
        (((stretches line).filter Stretch.hasName).map Stretch.apart).sum := by
  rw [← sub_eq_zero, blockDelta_sub_balance, sub_eq_zero]

/-- Behind a name that stands behind a dot, a closing keyword is taken for a member. -/
theorem blockDelta_ne_balance :
    blockDelta "X := Rec.\"Blocked\"end;".toList = 0 ∧
      balance (freeWords false (lineTokens "X := Rec.\"Blocked\"end;".toList)) = -1 := by
  decide +kernel

/-- Names that touch no word leave the balance as it is. -/
theorem blockDelta_eq_balance_of_names {line : List Char}
    (h : ∀ s ∈ stretches line, s.hasName = true → ∀ t ∈ s.tokens, t.isName = true) :
    blockDelta line = balance (freeWords false (lineTokens line)) := by
  have same : ∀ s ∈ (stretches line).filter Stretch.hasName, s.together = s.apart := by
    intro s hs
    obtain ⟨hs, hname⟩ := List.mem_filter.1 hs
    have hnames := h s hs hname
    have hkept : s.tokens.flatMap LineToken.kept = [] := by
      refine List.flatMap_eq_nil_iff.2 fun t ht => ?_
      have := hnames t ht
      cases t with
      | name content => rfl
      | word w => cases this
      | sign c => cases this
    rw [Stretch.together, Stretch.apart, hkept, freeWords_names hnames]
    cases s.behindDot <;> rfl
  rw [← sub_eq_zero, blockDelta_sub_balance, List.map_congr_left same, sub_self]

end Acceptance.Source
