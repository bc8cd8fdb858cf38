import Mathlib.Data.List.TakeWhile
import Acceptance.Proofs.Source.Keyword
import Acceptance.Proofs.Source.Return
import Acceptance.Proofs.Source.Step
import Acceptance.Proofs.Text.Padding
import Acceptance.Source.VarBlock

/-!
# Masked lines with a space behind them

The scans for routines and for blocks of variables look at one masked line at a time, and none of
what they look for reaches to a space behind the line. Only the header of a procedure needs a blank
behind its keyword; where the line ends with a space already, it has one.

Main results:

* `blockDelta_append_space`: the change of level by a line.
* `isProcedureHeader_append_space`: the header of a procedure on a line that ends with a space.
* `Line.IsPaddedAs.read_eq`: the scan for routines does the same.
* `routines_withReturns`, `varBlocks_withReturns`: what is found with other line ends.
-/

namespace Acceptance.Source

open Text

/-! ## Levels -/

theorem withoutNamesFrom_append_space (held : Option (List Char)) (s : List Char) :
    withoutNamesFrom held (s ++ [' ']) = withoutNamesFrom held s ++ [' '] := by
  induction s generalizing held with
  | nil =>
    cases held with
    | none => rfl
    | some read =>
      show '"' :: (' ' :: read).reverse = '"' :: read.reverse ++ [' ']
      rw [List.reverse_cons, List.cons_append]
  | cons c s ih =>
    cases held with
    | none =>
      rw [List.cons_append, withoutNamesFrom, withoutNamesFrom]
      split_ifs
      · exact ih _
      · rw [ih, List.cons_append]
    | some read =>
      rw [List.cons_append, withoutNamesFrom, withoutNamesFrom]
      split_ifs
      · exact ih _
      · rw [ih]
        exact (List.append_assoc ('"' :: read.reverse) ('\n' :: withoutNamesFrom none s) [' ']).symm
      · exact ih _

theorem wordsFrom_append_space (before : Option Char) (held s : List Char) :
    wordsFrom before held (s ++ [' ']) = wordsFrom before held s := by
  have hspace : ¬ isWordChar ' ' = true := by decide
  induction s generalizing before held with
  | nil =>
    have hs : wordsFrom before held [' '] = if held = [] then wordsFrom (some ' ') [] []
        else (before, held.reverse) :: wordsFrom (some ' ') [] [] := if_neg hspace
    rw [List.nil_append, hs, wordsFrom, wordsFrom, if_pos rfl]
  | cons c s ih =>
    rw [List.cons_append, wordsFrom, wordsFrom]
    simp only [ih]

theorem blockDelta_append_space (m : List Char) : blockDelta (m ++ [' ']) = blockDelta m := by
  rw [blockDelta_eq_sum, blockDelta_eq_sum, levelChanges, levelChanges, withoutNames,
    withoutNamesFrom_append_space, wordsFrom_append_space]
  rfl

/-! ## Headers -/

theorem EndsBlank.of_suffix {r m : List Char} (h : EndsBlank m) (hr : r <:+ m) : EndsBlank r := by
  obtain ⟨u, rfl⟩ := hr
  intro c hc
  refine h c ?_
  rw [List.getLast?_append, Option.mem_def.1 hc]
  rfl

/-- Where a text ends with a space, something stands behind a keyword. -/
theorem EndsBlank.ne_nil {word s rest : List Char} (h : EndsBlank s)
    (hw : word ≠ [] ∧ ' ' ∉ word ∧ '\n' ∉ word) (hk : keyword? word s = some rest) :
    rest ≠ [] := by
  obtain ⟨start, rfl, rfl⟩ := keyword?_eq_some_iff.1 hk
  rintro rfl
  obtain ⟨hne, hspace, hfeed⟩ := hw
  rw [List.append_nil] at h
  have hstart : start ≠ [] := fun he => hne (by rw [he, List.map_nil])
  have hmem : foldLetter (start.getLast hstart) ∈ start.map foldLetter :=
    List.mem_map_of_mem (List.getLast_mem hstart)
  rcases h _ (List.getLast?_eq_some_getLast hstart) with he | he
  · rw [he] at hmem
    exact hspace hmem
  · rw [he] at hmem
    exact hfeed hmem

theorem afterAccess?_suffix {s rest : List Char} (h : afterAccess? s = some rest) : rest <:+ s := by
  unfold afterAccess? at h
  split at h
  · next hany => exact (blanks?_suffix h).trans (keyword?_suffix (anyKeyword?_mem hany).2)
  · cases h

theorem afterAccess?_append_space {s : List Char} (h : EndsBlank s) :
    afterAccess? (s ++ [' ']) = (afterAccess? s).map (· ++ [' ']) ∨
      afterAccess? (s ++ [' ']) = some [] ∧ afterAccess? s = some [] := by
  have hwords : ∀ word ∈ ["local".toList, "internal".toList, "protected".toList],
      word ≠ [] ∧ ' ' ∉ word ∧ '\n' ∉ word := by decide
  rw [afterAccess?, afterAccess?, anyKeyword?_append_space fun word hw => (hwords word hw).2.1]
  cases hany : anyKeyword? ["local".toList, "internal".toList, "protected".toList] s with
  | none => exact .inl rfl
  | some p =>
    obtain ⟨hm, hk⟩ := anyKeyword?_mem hany
    obtain ⟨c, rest, hrest⟩ := List.exists_cons_of_ne_nil (h.ne_nil (hwords _ hm) hk)
    simp only [Option.map_some, hrest]
    rw [List.cons_append, blanks?, blanks?]
    split_ifs
    · rcases skipBlanks_append_space rest with he | ⟨he, hs⟩
      · exact .inl (congrArg some he)
      · exact .inr ⟨congrArg some he, congrArg some hs⟩
    · exact .inl rfl

theorem isProcedureHeader_append_space {m : List Char} (h : EndsBlank m) :
    isProcedureHeader (m ++ [' ']) = isProcedureHeader m := by
  -- whether the keyword and a blank stand at the start of a text
  let starts (s : List Char) : Bool := ((keyword? "procedure".toList s).bind blanks?).isSome
  have hstarts {s : List Char} (hs : EndsBlank s) : starts (s ++ [' ']) = starts s := by
    show ((keyword? _ (s ++ [' '])).bind blanks?).isSome = ((keyword? _ s).bind blanks?).isSome
    rw [keyword?_append_space (by decide)]
    cases hk : keyword? "procedure".toList s with
    | none => rfl
    | some rest =>
      obtain ⟨c, rest, rfl⟩ := List.exists_cons_of_ne_nil (hs.ne_nil (by decide) hk)
      simp only [Option.map_some, Option.bind_some]
      rw [List.cons_append, blanks?, blanks?]
      split_ifs <;> rfl
  have heq (m : List Char) : isProcedureHeader m =
      starts ((afterAccess? (skipBlanks m)).getD (skipBlanks m)) := rfl
  rw [heq, heq]
  rcases skipBlanks_append_space m with he | ⟨he, hs⟩
  · have hb : EndsBlank (skipBlanks m) := h.of_suffix (skipBlanks_suffix m)
    rw [he]
    rcases afterAccess?_append_space hb with ha | ⟨ha, ha'⟩
    · rw [ha]
      cases hr : afterAccess? (skipBlanks m) with
      | none => exact hstarts hb
      | some rest => exact hstarts (hb.of_suffix (afterAccess?_suffix hr))
    · rw [ha, ha']
      rfl
  · rw [he, hs]

theorem triggerName?_append_space (m : List Char) : triggerName? (m ++ [' ']) = triggerName? m := by
  let name? (s : List Char) : Option (List Char) :=
    (keyword? "trigger".toList s).bind fun rest => (blanks? rest).bind fun rest =>
      (run? isNameChar rest).bind fun p => some p.1
  refine apply_skipBlanks (f := name?) (fun u => ?_) m
  show (keyword? _ (u ++ [' '])).bind _ = (keyword? _ u).bind _
  rw [keyword?_append_space (by decide)]
  cases keyword? "trigger".toList u with
  | none => rfl
  | some rest =>
    refine blanks?_bind_append_space rfl (fun r => ?_) rest
    rw [run?_append_space (by decide)]
    cases run? isNameChar r <;> rfl

theorem isHeader_append_space {m : List Char} (h : EndsBlank m) :
    isHeader (m ++ [' ']) = isHeader m := by
  rw [isHeader, isHeader, isProcedureHeader_append_space h, triggerName?_append_space]

theorem header?_append_space {m : List Char} (h : EndsBlank m) (raw : List Char) :
    header? raw (m ++ [' ']) = header? raw m := by
  rw [header?, header?, isProcedureHeader_append_space h, triggerName?_append_space]

/-! ## Attributes -/

theorem afterAttribute?_eq (s : List Char) :
    afterAttribute? s = (char? '[' (skipBlanks s)).bind fun rest =>
      char? ']' (rest.dropWhile fun c => c != ']' && c != '\n') := by
  unfold afterAttribute?
  split
  · next rest hs =>
    rw [hs]
    show _ = char? ']' _
    split
    · next tail ht =>
      rw [ht]
      rfl
    · next hne =>
      cases hc : char? ']' (rest.dropWhile fun c => c != ']' && c != '\n') with
      | none => rfl
      | some tail => exact absurd (char?_eq_some_iff.1 hc) (hne tail)
  · next hne =>
    cases hc : char? '[' (skipBlanks s) with
    | none => rfl
    | some rest => exact absurd (char?_eq_some_iff.1 hc) (hne rest)

theorem afterAttribute?_append_space (s : List Char) :
    afterAttribute? (s ++ [' ']) = (afterAttribute? s).map (· ++ [' ']) := by
  rw [afterAttribute?_eq, afterAttribute?_eq,
    map_skipBlanks rfl (char?_append_space (by decide)) s]
  cases char? '[' (skipBlanks s) with
  | none => rfl
  | some rest =>
    show char? ']' ((rest ++ [' ']).dropWhile _) = (char? ']' (rest.dropWhile _)).map _
    rcases dropWhile_append_space (fun c => c != ']' && c != '\n') rest with he | ⟨he, hr⟩
    · rw [he, char?_append_space (by decide)]
    · rw [he, hr]
      rfl

theorem afterAttributes_append_space (s : List Char) :
    afterAttributes (s ++ [' ']) = afterAttributes s ++ [' '] := by
  fun_induction afterAttributes s with
  | case1 s rest h ih =>
    rw [afterAttributes, afterAttribute?_append_space, h]
    exact ih
  | case2 s h =>
    rw [afterAttributes, afterAttribute?_append_space, h]
    rfl

theorem afterAttributes_suffix (s : List Char) : afterAttributes s <:+ s := by
  fun_induction afterAttributes s with
  | case1 s rest h ih =>
    rw [afterAttribute?_eq, Option.bind_eq_some_iff] at h
    obtain ⟨inner, ho, hc⟩ := h
    exact ih.trans ((char?_suffix hc).trans ((List.dropWhile_suffix _).trans
      ((char?_suffix ho).trans (skipBlanks_suffix s))))
  | case2 s h => exact List.suffix_refl s

/-- A line is cut at the same place, unless it is all attributes. -/
theorem splitAttributes_append_space (m : List Char) :
    (∃ lists rest, splitAttributes m = (lists, rest) ∧
      splitAttributes (m ++ [' ']) = (lists, rest ++ [' ']) ∧ rest <:+ m) ∨
    splitAttributes m = (m, []) ∧ splitAttributes (m ++ [' ']) = (m ++ [' '], []) := by
  rw [splitAttributes, splitAttributes, afterAttribute?_append_space]
  cases afterAttribute? m with
  | none => exact .inr ⟨rfl, rfl⟩
  | some rest =>
    refine .inl ⟨_, _, rfl, ?_, afterAttributes_suffix m⟩
    have hlen : (m ++ [' ']).length - (afterAttributes m ++ [' ']).length =
        m.length - (afterAttributes m).length := by
      rw [List.length_append, List.length_append]
      omega
    simp only [Option.map_some, afterAttributes_append_space, hlen]
    rw [List.take_append_of_le_length (Nat.sub_le _ _)]

theorem attributeNames_append_space (s : List Char) :
    attributeNames (s ++ [' ']) = attributeNames s := by
  rw [attributeNames, attributeNames]
  refine congrArg _ (allMatches_append_space (fun _ => rfl) (fun _ s => ?_) s)
  show (char? '[' (s ++ [' '])).bind _ = ((char? '[' s).bind _).map _
  rw [char?_append_space (by decide)]
  cases char? '[' s with
  | none => rfl
  | some rest => exact map_skipBlanks rfl (run?_append_space (by decide)) rest

/-! ## The scan for routines -/

namespace Line

/-- A line with a space behind its masked view. -/
def padded (l : Line) : Line := { l with masked := l.masked ++ [' '] }

theorem IsPaddedAs.eq_or {l k : Line} (h : l.IsPaddedAs k) :
    k = l ∨ k = l.padded ∧ EndsBlank l.masked := by
  obtain ⟨number, raw, masked⟩ := l
  obtain ⟨number', raw', masked'⟩ := k
  obtain ⟨hn, hr, hm⟩ := h
  obtain rfl : number' = number := hn
  obtain rfl : raw' = raw := hr
  exact hm.imp (fun he => congrArg _ he) fun hm => ⟨congrArg _ hm.1, hm.2⟩

theorem opensBracket_padded (l : Line) : opensBracket l.padded.masked = opensBracket l.masked := by
  rw [opensBracket, opensBracket, padded, head?_skipBlanks]

/-- The space is behind the rest of the line, or behind the attributes where these are all. -/
theorem parts_padded (l : Line) :
    (l.padded.lists = l.lists ∧ l.padded.rest = l.rest ++ [' '] ∧ l.rest <:+ l.masked) ∨
    l.padded.lists = l.lists ++ [' '] ∧ l.padded.rest = [] ∧ l.rest = [] := by
  rw [lists, lists, rest, rest, opensBracket_padded]
  split_ifs
  · rcases splitAttributes_append_space l.masked with ⟨lists, rest, hl, hp, hr⟩ | ⟨hl, hp⟩
    · rw [padded, hl, hp]
      exact .inl ⟨rfl, rfl, hr⟩
    · rw [padded, hl, hp]
      exact .inr ⟨rfl, rfl, rfl⟩
  · exact .inl ⟨rfl, rfl, List.suffix_refl _⟩

theorem readsAs_padded {l : Line} (h : EndsBlank l.masked) : l.padded.ReadsAs l where
  number := rfl
  delta := blockDelta_append_space l.masked
  isHeader := isHeader_append_space h
  attributes := by
    rw [attributes, attributes]
    rcases l.parts_padded with ⟨hl, -, -⟩ | ⟨hl, -, -⟩
    · rw [hl]
    · rw [hl, attributeNames_append_space]
  isLead := by
    rw [isLead, isLead]
    rcases l.parts_padded with ⟨-, hr, -⟩ | ⟨-, hp, hr⟩
    · rw [hr, allBlank_append_space]
    · rw [hp, hr]

theorem header?_padded {l : Line} (h : EndsBlank l.masked) :
    header? l.padded.rawRest l.padded.rest = header? l.rawRest l.rest := by
  rcases l.parts_padded with ⟨hl, hr, hs⟩ | ⟨-, hp, hr⟩
  · have hraw : l.padded.rawRest = l.rawRest := by
      rw [rawRest, rawRest, opensBracket_padded, hl]
      rfl
    rw [hr, hraw, header?_append_space (h.of_suffix hs)]
  · rw [hp, hr]
    rfl

/-- The scan does the same on a line and on the one with another line end. -/
theorem IsPaddedAs.read_eq {l k : Line} (h : l.IsPaddedAs k) (s : ScanState) :
    s.read k = s.read l := by
  rcases h.eq_or with rfl | ⟨rfl, hb⟩
  · rfl
  · exact ScanState.read_congr (readsAs_padded hb) s fun _ _ => header?_padded hb

end Line

theorem ScanState.scan_padded {ls ks : List Line} (h : List.Forall₂ Line.IsPaddedAs ls ks)
    (s : ScanState) (last : ℕ) : s.scan last ks = s.scan last ls := by
  induction h generalizing s last with
  | nil => rfl
  | cons hl _ ih =>
    rw [scan, scan, hl.read_eq, hl.number]
    simp only [ih]

theorem routines_withReturns {s : List Char} (h : '\r' ∉ s) :
    (ofChars (withReturns s)).routines = (ofChars s).routines :=
  ScanState.scan_padded (lines_ofChars_withReturns h) _ _

/-! ## The scan for blocks of variables -/

theorem isVarLine_append_space (m : List Char) : isVarLine (m ++ [' ']) = isVarLine m := by
  refine apply_skipBlanks (f := fun s => ((keyword? "var".toList s).map allBlank).getD false)
    (fun u => ?_) m
  show ((keyword? "var".toList (u ++ [' '])).map allBlank).getD false = _
  rw [keyword?_append_space (by decide), Option.map_map]
  exact congrArg (Option.getD · false) (congrArg (Option.map · _) (funext allBlank_append_space))

theorem standsWord_append_space {word : List Char} (hw : ' ' ∉ word) (s : List Char) :
    standsWord word (s ++ [' ']) = standsWord word s := by
  rw [standsWord, standsWord, keyword?_append_space hw, Option.map_map]
  exact congrArg (Option.getD · false) (congrArg (Option.map · _) (funext isEdge_append_space))

theorem closesVarBlock_append_space (m : List Char) :
    closesVarBlock (m ++ [' ']) = closesVarBlock m := by
  have hwords : ∀ word ∈ ["begin".toList, "procedure".toList, "local".toList, "internal".toList,
      "protected".toList, "trigger".toList], ' ' ∉ word := by decide
  have hstands : ∀ word ∈ ["begin".toList, "procedure".toList, "local".toList, "internal".toList,
      "protected".toList, "trigger".toList],
      standsWord word (skipBlanks (m ++ [' '])) = standsWord word (skipBlanks m) :=
    fun word hw => apply_skipBlanks (standsWord_append_space (hwords word hw)) m
  rw [closesVarBlock, closesVarBlock]
  simp only [head?_skipBlanks]
  refine congrArg _ ?_
  rw [Bool.eq_iff_iff, List.any_eq_true, List.any_eq_true]
  exact exists_congr fun word => and_congr_right fun hw => by rw [hstands word hw]

theorem afterName?_append_space (s : List Char) :
    afterName? (s ++ [' ']) = (afterName? s).map (· ++ [' ']) := by
  cases s with
  | nil => rfl
  | cons c s =>
    by_cases hc : c = '"'
    · subst hc
      rw [List.cons_append, afterName?, afterName?]
      rcases dropWhile_append_space (· != '"') s with he | ⟨he, hs⟩
      · have hne : s.dropWhile (· != '"') ≠ [] := by
          -- the space alone would be dropped
          intro hs
          have hd : (' ' != '"') = false := by
            have hfirst := List.head?_dropWhile_not (· != '"') (s ++ [' '])
            rwa [he, hs] at hfirst
          exact absurd hd (by decide)
        obtain ⟨d, rest, hd⟩ := List.exists_cons_of_ne_nil hne
        rw [he, hd]
        rfl
      · rw [he, hs]
        rfl
    · have hplain (t : List Char) : afterName? (c :: t) =
          if isFoldedLetter c || c == '_' then some (t.dropWhile isWordChar) else none := by
        rw [afterName?]
        exact hc
      rw [List.cons_append, hplain, hplain, dropWhile_append_space_of_neg (by decide)]
      split_ifs <;> rfl

theorem afterNextName?_append_space (s : List Char) :
    afterNextName? (s ++ [' ']) = (afterNextName? s).map (· ++ [' ']) := by
  show (char? ',' (skipBlanks (s ++ [' ']))).bind _ = ((char? ',' (skipBlanks s)).bind _).map _
  rw [map_skipBlanks rfl (char?_append_space (by decide)) s]
  cases char? ',' (skipBlanks s) with
  | none => rfl
  | some rest => exact map_skipBlanks rfl afterName?_append_space rest

theorem afterNames_append_space (s : List Char) :
    afterNames (s ++ [' ']) = afterNames s ++ [' '] := by
  fun_induction afterNames s with
  | case1 s rest h ih =>
    rw [afterNames, afterNextName?_append_space, h]
    exact ih
  | case2 s h =>
    rw [afterNames, afterNextName?_append_space, h]
    rfl

theorem typeName?_append_space (s : List Char) : typeName? (s ++ [' ']) = typeName? s := by
  have hletters (u : List Char) :
      (run? isFoldedLetter (u ++ [' '])).map Prod.fst = (run? isFoldedLetter u).map Prod.fst := by
    rw [run?_append_space (by decide), Option.map_map]
    rfl
  have heq (u : List Char) : typeName? u =
      (((keyword? "temporary".toList u).bind blanks?).bind fun rest =>
        (run? isFoldedLetter rest).map Prod.fst).orElse fun _ =>
          (run? isFoldedLetter u).map Prod.fst := by
    rw [typeName?]
    cases (keyword? "temporary".toList u).bind blanks? <;> rfl
  rw [heq, heq, hletters, keyword?_append_space (by decide)]
  cases keyword? "temporary".toList s with
  | none => rfl
  | some rest =>
    have := blanks?_bind_append_space (f := fun rest => (run? isFoldedLetter rest).map Prod.fst) rfl
      hletters rest
    simp only [Option.map_some, Option.bind_some, this]

theorem declaration?_append_space (number : ℕ) (m : List Char) :
    declaration? number (m ++ [' ']) = declaration? number m := by
  let read? (s : List Char) : Option Declaration :=
    (afterName? s).bind fun rest =>
      (char? ':' (skipBlanks (afterNames rest))).bind fun later =>
        (typeName? (skipBlanks later)).map
          (Declaration.mk number (s.take (s.length - (afterNames rest).length)))
  have heq (m : List Char) : declaration? number m = read? (skipBlanks m) := by
    show (afterName? _).bind _ = (afterName? _).bind _
    refine congrArg _ (funext fun rest => ?_)
    show (char? ':' _).bind _ = (char? ':' _).bind _
    refine congrArg _ (funext fun later => ?_)
    cases typeName? (skipBlanks later) <;> rfl
  rw [heq, heq]
  refine apply_skipBlanks (fun u => ?_) m
  show (afterName? (u ++ [' '])).bind _ = (afterName? u).bind _
  rw [afterName?_append_space]
  cases afterName? u with
  | none => rfl
  | some rest =>
    have hlen : (u ++ [' ']).length - (afterNames rest ++ [' ']).length =
        u.length - (afterNames rest).length := by
      rw [List.length_append, List.length_append]
      omega
    simp only [Option.map_some, Option.bind_some, afterNames_append_space, hlen]
    rw [List.take_append_of_le_length (Nat.sub_le _ _),
      map_skipBlanks rfl (char?_append_space (by decide)) (afterNames rest)]
    cases char? ':' (skipBlanks (afterNames rest)) with
    | none => rfl
    | some later =>
      exact congrArg (Option.map _) (apply_skipBlanks typeName?_append_space later)

theorem varBlocksFrom_padded {ls ks : List Line} (h : List.Forall₂ Line.IsPaddedAs ls ks)
    (current : Option VarBlock) : varBlocksFrom current ks = varBlocksFrom current ls := by
  induction h generalizing current with
  | nil => rfl
  | @cons l k ls ks hl _ ih =>
    have hsame : isVarLine k.masked = isVarLine l.masked ∧
        closesVarBlock k.masked = closesVarBlock l.masked ∧
        ∀ number, declaration? number k.masked = declaration? number l.masked := by
      rcases hl.eq_or with rfl | ⟨rfl, -⟩
      · exact ⟨rfl, rfl, fun _ => rfl⟩
      · exact ⟨isVarLine_append_space _, closesVarBlock_append_space _,
          fun number => declaration?_append_space number _⟩
    obtain ⟨hvar, hcloses, hd⟩ := hsame
    rw [varBlocksFrom.eq_def, varBlocksFrom.eq_def current (l :: ls)]
    simp only [hvar, hcloses, hd, hl.number, ih]

theorem varBlocks_withReturns {s : List Char} (h : '\r' ∉ s) :
    (ofChars (withReturns s)).varBlocks = (ofChars s).varBlocks :=
  varBlocksFrom_padded (lines_ofChars_withReturns h) none

end Acceptance.Source
