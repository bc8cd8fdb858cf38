import Mathlib.Data.List.Basic
import Acceptance.Proofs.Source.Lines

/-!
# Bytes and offsets of a source

An ASCII character is one byte, and no byte of another character is one of those. So the bytes of a
text tell where its signs are, and where its lines start.

Main results:

* `decode?_utf8`: the bytes of a text give back the text.
* `head?_utf8`: a text starts with the byte of an ASCII character if it starts with the character.
* `lineAt_eq_startsUpTo`: the line of an offset is the number of lines that start up to it.
-/

namespace Acceptance

open Text

/-! ## Bytes -/

namespace Text

/-- Where a text can be cut, a part of what is behind the cut can be cut out. -/
theorem slice?_of_dropBytes? {first : ℕ} {text s rest : List Char}
    (h : dropBytes? first text = some (s ++ rest)) :
    slice? first (first + byteLength s) text = some s := by
  rw [slice?, if_pos (Nat.le_add_right _ _), h, Option.bind_some, Nat.add_sub_cancel_left]
  exact takeBytes?_append s rest

theorem decode?_utf8 (s : List Char) : decode? (utf8 s) = some s := by
  have hbytes : (utf8 s).toByteArray = (String.ofList s).toByteArray := by
    rw [String.toByteArray_ofList]
    rfl
  have hvalid : (utf8 s).toByteArray.IsValidUTF8 := hbytes ▸ (String.ofList s).isValidUTF8
  rw [decode?, String.fromUTF8?, dif_pos hvalid, Option.map_some]
  refine congrArg some ?_
  have hstring : String.fromUTF8 (utf8 s).toByteArray hvalid = String.ofList s :=
    String.toByteArray_inj.1 hbytes
  rw [hstring, String.toList_ofList]

/-- A character is one ASCII byte, or all its bytes are beyond ASCII. -/
theorem utf8EncodeChar_cases (c : Char) :
    c.toNat < 128 ∧ String.utf8EncodeChar c = [byte c] ∨
      128 ≤ c.toNat ∧ ∀ b ∈ String.utf8EncodeChar c, 128 ≤ b.toNat := by
  by_cases hc : c.val.toNat ≤ 127
  · refine .inl ⟨Nat.lt_succ_of_le hc, ?_⟩
    rw [String.utf8EncodeChar, if_pos hc]
    rfl
  · refine .inr ⟨Nat.lt_of_not_le hc, fun b hb => ?_⟩
    rw [String.utf8EncodeChar, if_neg hc] at hb
    split_ifs at hb <;> simp only [List.mem_cons, List.not_mem_nil, or_false] at hb <;>
      rcases hb with rfl | rfl | rfl | rfl <;> simp <;> omega

theorem toNat_byte {c : Char} (h : c.toNat < 128) : (byte c).toNat = c.toNat := by
  show c.toNat % 256 = c.toNat
  omega

theorem byte_inj {c k : Char} (hc : c.toNat < 128) (hk : k.toNat < 128) :
    byte c = byte k ↔ c = k := by
  constructor
  · intro h
    have hn := congrArg UInt8.toNat h
    rw [toNat_byte hc, toNat_byte hk] at hn
    exact Char.toNat_inj.1 hn
  · rintro rfl
    rfl

/-- A byte beyond ASCII is not the one of an ASCII character. -/
theorem ne_byte {b : UInt8} (hb : 128 ≤ b.toNat) {k : Char} (hk : k.toNat < 128) : b ≠ byte k := by
  rintro rfl
  rw [toNat_byte hk] at hb
  omega

/-- A text starts with the byte of an ASCII character if it starts with the character. -/
theorem head?_utf8 {k : Char} (hk : k.toNat < 128) (s : List Char) :
    (utf8 s).head? = some (byte k) ↔ s.head? = some k := by
  cases s with
  | nil => simp
  | cons c s =>
    rw [utf8_cons, List.head?_cons]
    obtain ⟨hc, henc⟩ | ⟨hc, hall⟩ := utf8EncodeChar_cases c
    · rw [henc]
      simp [byte_inj hc hk]
    · have hne : c ≠ k := by
        rintro rfl
        omega
      cases henc : String.utf8EncodeChar c with
      | nil =>
        have hlen := congrArg List.length henc
        rw [String.length_utf8EncodeChar] at hlen
        exact absurd hlen (Char.utf8Size_pos c).ne'
      | cons b bs =>
        have hb := hall b (henc ▸ List.mem_cons_self)
        simp [hne, ne_byte hb hk]

end Text

namespace Source

/-! ## Line starts -/

/-- The offsets at which lines start behind the line feeds of a text, which itself starts at
`offset`. -/
def startsBehind (offset : ℕ) : List Char → List ℕ
  | [] => []
  | c :: s => (if c = '\n' then [offset + 1] else []) ++ startsBehind (offset + c.utf8Size) s

/-- The offsets at which the lines of a text start. -/
def lineStarts (s : List Char) : List ℕ := 0 :: startsBehind 0 s

theorem startsBehind_append (offset : ℕ) (s t : List Char) :
    startsBehind offset (s ++ t) =
      startsBehind offset s ++ startsBehind (offset + byteLength s) t := by
  induction s generalizing offset with
  | nil => rfl
  | cons c s ih =>
    rw [List.cons_append, startsBehind, startsBehind, ih, byteLength_cons, List.append_assoc,
      Nat.add_assoc]

theorem lineStarts_append (s t : List Char) :
    lineStarts (s ++ t) = lineStarts s ++ startsBehind (byteLength s) t := by
  rw [lineStarts, startsBehind_append, Nat.zero_add]
  rfl

theorem length_startsBehind (offset : ℕ) (s : List Char) :
    (startsBehind offset s).length = lineFeeds s := by
  induction s generalizing offset with
  | nil => rfl
  | cons c s ih =>
    rw [startsBehind, List.length_append, ih, lineFeeds, lineFeeds, List.count_cons]
    by_cases hc : c = '\n'
    · simp [hc, Nat.add_comm]
    · simp [hc]

theorem length_lineStarts (s : List Char) : (lineStarts s).length = 1 + lineFeeds s := by
  rw [lineStarts, List.length_cons, length_startsBehind, Nat.add_comm]

theorem lt_of_mem_startsBehind {offset start : ℕ} {s : List Char}
    (h : start ∈ startsBehind offset s) : offset < start := by
  induction s generalizing offset with
  | nil => cases h
  | cons c s ih =>
    rcases List.mem_append.1 h with h | h
    · obtain ⟨-, rfl⟩ : c = '\n' ∧ start = offset + 1 := by
        by_cases hc : c = '\n' <;> simp [hc] at h ⊢
        exact h
      exact Nat.lt_succ_self _
    · exact Nat.lt_of_le_of_lt (Nat.le_add_right _ _) (ih h)

/-- Line starts are noted from left to right. -/
theorem pairwise_lineStarts (s : List Char) : (lineStarts s).Pairwise (· < ·) := by
  have key : ∀ offset, (startsBehind offset s).Pairwise (· < ·) := by
    induction s with
    | nil => exact fun _ => .nil
    | cons c s ih =>
      intro offset
      refine List.pairwise_append.2 ⟨?_, ih _, fun first hfirst later hlater => ?_⟩
      · by_cases hc : c = '\n' <;> simp [hc]
      · have hpos := lt_of_mem_startsBehind hlater
        have hsize := Char.utf8Size_pos c
        by_cases hc : c = '\n'
        · subst hc
          obtain rfl : first = offset + 1 := by simpa using hfirst
          exact hpos
        · simp [hc] at hfirst
  exact List.pairwise_cons.2 ⟨fun _ h => lt_of_mem_startsBehind h, key 0⟩

/-- The number of lines that start up to an offset; the line starts are in order, so those are the
first ones. -/
def startsUpTo (offset : ℕ) (starts : List ℕ) : ℕ :=
  (starts.takeWhile fun start => start ≤ offset).length

theorem startsUpTo_eq_zero {offset : ℕ} {starts : List ℕ} (h : ∀ start ∈ starts, offset < start) :
    startsUpTo offset starts = 0 := by
  cases starts with
  | nil => rfl
  | cons start starts =>
    have hlt := h start List.mem_cons_self
    rw [startsUpTo, List.takeWhile_cons_of_neg]
    · rfl
    · simp only [decide_eq_true_eq]
      omega

theorem startsUpTo_cons {offset start : ℕ} (h : start ≤ offset) (starts : List ℕ) :
    startsUpTo offset (start :: starts) = 1 + startsUpTo offset starts := by
  rw [startsUpTo, List.takeWhile_cons_of_pos (by simpa using h), List.length_cons, Nat.add_comm]
  rfl

/-- The line of an offset is the number of lines that start up to it. -/
theorem lineAt_eq_startsUpTo (offset : ℕ) (s : List Char) :
    lineAt offset s = startsUpTo offset (lineStarts s) := by
  have key : ∀ (s : List Char) (base offset : ℕ),
      lineAt offset s = 1 + startsUpTo (base + offset) (startsBehind base s) := by
    intro s
    induction s with
    | nil => exact fun _ _ => rfl
    | cons c s ih =>
      intro base offset
      have hsize := Char.utf8Size_pos c
      by_cases h0 : offset = 0
      · rw [h0, lineAt_zero, Nat.add_zero, startsUpTo_eq_zero fun _ h => lt_of_mem_startsBehind h]
      rw [lineAt, if_neg h0, startsBehind]
      by_cases hc : c = '\n'
      · subst hc
        have hone : '\n'.utf8Size = 1 := by decide
        have hbase : base + offset = base + 1 + (offset - 1) := by omega
        rw [if_pos (beq_self_eq_true _), if_pos rfl, hone, ih (base + 1), List.singleton_append,
          startsUpTo_cons (by omega), hbase]
      · rw [if_neg (by simpa using hc), if_neg hc, List.nil_append]
        by_cases hlt : offset < c.utf8Size
        · -- no line starts up to an offset inside of a character
          have hnone : ∀ start ∈ startsBehind (base + c.utf8Size) s, base + offset < start := by
            intro start h
            have := lt_of_mem_startsBehind h
            omega
          rw [Nat.sub_eq_zero_of_le hlt.le, lineAt_zero, startsUpTo_eq_zero hnone]
        · have hbase : base + offset = base + c.utf8Size + (offset - c.utf8Size) := by omega
          rw [ih (base + c.utf8Size), hbase]
  rw [key s 0 offset, Nat.zero_add, lineStarts, startsUpTo_cons (Nat.zero_le _)]

end Source

end Acceptance
