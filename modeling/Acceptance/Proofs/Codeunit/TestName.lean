import Mathlib.Data.List.Basic
import Acceptance.Proofs.Codeunit.Name

/-!
# Names of tests

The name of a test is `T`, the number of its scenario, a low line and what is kept of its title.
Neither the number nor the title holds a low line, so the two parts can be told from each other, and a
number can be read back, however many zeros stand in front. So a name gives both parts.

Main results:

* `decimal?_padded`: a padded number can be read.
* `Naming.procedureName_inj`: the parts of a name.
* `Naming.procedureName_eq_iff`: which names are equal.
-/

namespace Acceptance

open Text

namespace Text

/-- Zeros in front do not change a number. -/
theorem decimalFrom_replicate_append (k : ℕ) (s : List Char) :
    decimalFrom 0 (List.replicate k '0' ++ s) = decimalFrom 0 s := by
  induction k with
  | zero => rfl
  | succ k ih => exact ih

theorem decimal?_padded (width n : ℕ) : decimal? (padded width n) = some n := by
  refine decimal?_eq_some_iff.2 ⟨?_, fun c hc => isAsciiDigit_of_isDigit (mem_padded hc), ?_⟩
  · rw [padded]
    exact List.append_ne_nil_of_right_ne_nil _ Nat.toDigits_ne_nil
  · rw [← decimalFrom_eq, padded, decimalFrom_replicate_append, decimalFrom_eq,
      Nat.ofDigitChars_ten_toDigits]

theorem padded_inj {width m n : ℕ} : padded width m = padded width n ↔ m = n := by
  refine ⟨fun h => ?_, fun h => h ▸ rfl⟩
  have := decimal?_padded width m
  rw [h, decimal?_padded] at this
  exact (Option.some.inj this).symm

end Text

namespace Naming

/-! ## Specification -/

/-- The words of a text in pascal case. -/
def pascalForm (s : List Char) : List Char := (titleWords s).flatMap inCapitals

theorem pascalForm_eq (s : List Char) : pascalForm s = pascalTitle s := by
  have hwords : titleWords s = plainWords s := (words_eq_splitOnP _).symm
  rw [pascalForm, hwords, pascalTitle]
  exact List.flatMap_congr fun w hw =>
    (capitalize_eq_inCapitals (isAlphanum_of_mem_plainWords hw)).symm

/-! ## Parts of a name -/

theorem procedureName_eq (id : UInt32) (title : List Char) :
    procedureName id title = 'T' :: padded 4 id.toNat ++ '_' :: (pascalForm title).take maxTitle := by
  rw [procedureName, cut_eq_take (isPlain_pascalTitle title), pascalForm_eq]

theorem not_mem_padded (width n : ℕ) : '_' ∉ padded width n := fun h =>
  absurd (mem_padded h) (by decide)

theorem not_mem_pascalForm (s : List Char) : '_' ∉ pascalForm s := by
  rw [pascalForm_eq]
  intro h
  obtain ⟨w, hw, hc⟩ := List.mem_flatMap.1 h
  exact absurd (isAlphanum_of_mem_capitalize (isAlphanum_of_mem_plainWords hw) _ hc) (by decide)

/-- A name gives the number and what is kept of the title. -/
theorem procedureName_inj {a b : UInt32} {s t : List Char} :
    procedureName a s = procedureName b t ↔
      a = b ∧ (pascalForm s).take maxTitle = (pascalForm t).take maxTitle := by
  have htitle : '_' ∉ (pascalForm s).take maxTitle := fun h =>
    not_mem_pascalForm s (List.mem_of_mem_take h)
  rw [procedureName_eq, procedureName_eq, List.cons_append, List.cons_append, List.cons_inj_right,
    List.append_cons_inj_of_notMem (not_mem_padded 4 _) htitle, padded_inj, UInt32.toNat_inj,
    and_iff_right rfl]

theorem isIdentifier_procedureName (id : UInt32) (title : List Char) :
    isIdentifier (procedureName id title) = true := by
  have hplain : IsPlain (procedureName id title) := isPlain_procedureName
  rw [procedureName, List.cons_append] at hplain ⊢
  rw [isIdentifier_cons]
  exact List.all_eq_true.2 fun c hc => hplain c (List.mem_cons_of_mem _ hc)

/-! ## Which names are equal -/

/-- The name of a test is an identifier of at most 92 ASCII characters, and two names are equal exactly
if the numbers are and the titles in pascal case start with the same 80 characters. -/
theorem procedureName_eq_iff (a b : UInt32) (s t : List Char) :
    isIdentifier (procedureName a s) = true ∧ (procedureName a s).length ≤ 92 ∧
      (∀ c ∈ procedureName a s, c.toNat < 128) ∧
      (procedureName a s = procedureName b t ↔
        a = b ∧ (pascalForm s).take 80 = (pascalForm t).take 80) ∧
      (a ≠ b → procedureName a s ≠ procedureName b t) :=
  ⟨isIdentifier_procedureName a s, length_procedureName_le_ninetyTwo a s,
    fun c hc => toNat_lt_of_isPlainNameChar (isPlain_procedureName c hc), procedureName_inj,
    fun hne h => hne (procedureName_inj.1 h).1⟩

example : procedureName 10000 "Größe, prüfen".toList = "T10000_GrePrfen".toList := by decide

end Naming

end Acceptance
