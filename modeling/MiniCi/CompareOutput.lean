/-
# Comparing the output of a program (`compare_output`)

Both files are read a byte at a time, and white space is skipped in each of them wherever it
stands.  What `isspace` holds for is up to the locale, so it is a parameter; it does not hold for
`EOF`.

The answer is 1 iff the files are equal without their white space (`compare_output_eq`).  White
space does not separate anything then: `12 3` is `1 23` (`grade_AC_iff`).
-/
import MiniCi.WeekServer
import MiniCi.Words

namespace MiniCi

open CStr Words

/-! ## The two loops -/

/-- `do { c = fgetc(f); } while (isspace(c));`: the byte the loop ends with, `none` for `EOF`, and
what is left of the file. -/
def fgetcVisible (isspace : UInt8 → Bool) : Bytes → Option UInt8 × Bytes
  | [] => (none, [])
  | c :: f => if isspace c then fgetcVisible isspace f else (some c, f)

section Skip

variable {isspace : UInt8 → Bool} (f : Bytes)

theorem fgetcVisible_of_sep {c : UInt8} (hc : isspace c = true) :
    fgetcVisible isspace (c :: f) = fgetcVisible isspace f :=
  if_pos hc

theorem fgetcVisible_of_not_sep {c : UInt8} (hc : isspace c = false) :
    fgetcVisible isspace (c :: f) = (some c, f) :=
  if_neg (Bool.eq_false_iff.mp hc)

theorem fst_fgetcVisible : (fgetcVisible isspace f).1 = (visible isspace f).head? := by
  induction f with
  | nil => rfl
  | cons c f ih =>
    cases hc : isspace c with
    | true =>
      rw [fgetcVisible_of_sep f hc, visible_cons_of_sep hc]
      exact ih
    | false =>
      rw [fgetcVisible_of_not_sep f hc, visible_cons_of_not_sep hc]
      rfl

theorem visible_snd_fgetcVisible :
    visible isspace (fgetcVisible isspace f).2 = (visible isspace f).tail := by
  induction f with
  | nil => rfl
  | cons c f ih =>
    cases hc : isspace c with
    | true =>
      rw [fgetcVisible_of_sep f hc, visible_cons_of_sep hc]
      exact ih
    | false =>
      rw [fgetcVisible_of_not_sep f hc, visible_cons_of_not_sep hc]
      rfl

/-- A byte that is not `EOF` has been read. -/
theorem length_fgetcVisible_lt (h : (fgetcVisible isspace f).1 ≠ none) :
    (fgetcVisible isspace f).2.length < f.length := by
  induction f with
  | nil => exact absurd rfl h
  | cons c f ih =>
    unfold fgetcVisible at h ⊢
    split_ifs at h ⊢ with hc
    · exact (ih h).trans (Nat.lt_succ_self _)
    · exact Nat.lt_succ_self _

end Skip

/-- The loop around them.  A round that does not return has read a byte of each file. -/
def compareLoop (isspace : UInt8 → Bool) (f_act f_exp : Bytes) : ℤ :=
  if (fgetcVisible isspace f_act).1 = none ∧ (fgetcVisible isspace f_exp).1 = none then 1
  else if (fgetcVisible isspace f_act).1 ≠ (fgetcVisible isspace f_exp).1 then 0
  else compareLoop isspace (fgetcVisible isspace f_act).2 (fgetcVisible isspace f_exp).2
termination_by f_act.length
decreasing_by
  rename_i hend heq
  apply length_fgetcVisible_lt
  intro hnone
  exact hend ⟨hnone, (not_not.mp heq) ▸ hnone⟩

/-- `compare_output` on what `fopen` gives for the two files, `none` when it fails. -/
def compare_output (isspace : UInt8 → Bool) (actual_file expected_file : Option Bytes) : ℤ :=
  match actual_file, expected_file with
  | some f_act, some f_exp => compareLoop isspace f_act f_exp
  | _, _ => -1

/-! ## What the loops decide -/

section Decide

variable {isspace : UInt8 → Bool}

theorem compareLoop_eq (f_act f_exp : Bytes) :
    compareLoop isspace f_act f_exp =
      if visible isspace f_act = visible isspace f_exp then 1 else 0 := by
  -- both files have been read to where the same is left of them
  fun_induction compareLoop isspace f_act f_exp with
  | case1 f_act f_exp hend =>
    obtain ⟨hact, hexp⟩ := hend
    rw [fst_fgetcVisible, List.head?_eq_none_iff] at hact hexp
    rw [hact, hexp, if_pos rfl]
  | case2 f_act f_exp hend hne =>
    rw [fst_fgetcVisible, fst_fgetcVisible] at hne
    rw [if_neg fun h => hne (congrArg List.head? h)]
  | case3 f_act f_exp hend heq ih =>
    rw [ih, visible_snd_fgetcVisible, visible_snd_fgetcVisible]
    rw [fst_fgetcVisible, fst_fgetcVisible, not_not] at heq
    rw [fst_fgetcVisible, fst_fgetcVisible] at hend
    cases hact : visible isspace f_act with
    | nil =>
      rw [hact] at hend heq
      exact absurd ⟨rfl, heq.symm⟩ hend
    | cons c v =>
      rw [hact] at heq
      obtain ⟨v', hexp⟩ := List.head?_eq_some_iff.mp heq.symm
      rw [hexp]
      apply if_congr _ rfl rfl
      simp

theorem compare_output_some (f_act f_exp : Bytes) :
    compare_output isspace (some f_act) (some f_exp) =
      if visible isspace f_act = visible isspace f_exp then 1 else 0 :=
  compareLoop_eq f_act f_exp

theorem compare_output_one_iff {f_act f_exp : Bytes} :
    compare_output isspace (some f_act) (some f_exp) = 1 ↔
      visible isspace f_act = visible isspace f_exp := by
  rw [compare_output_some]
  split_ifs with h <;> simp [h]

/-- What `compare_output` promises of the comparison of two files that can be read. -/
structure ComparesVisible (isspace : UInt8 → Bool) (f_act f_exp : Bytes) : Prop where
  eq : compare_output isspace (some f_act) (some f_exp) =
    if visible isspace f_act = visible isspace f_exp then 1 else 0
  symm : compare_output isspace (some f_exp) (some f_act) =
    compare_output isspace (some f_act) (some f_exp)
  trans : ∀ f, compare_output isspace (some f_act) (some f) = 1 →
    compare_output isspace (some f) (some f_exp) = 1 →
    compare_output isspace (some f_act) (some f_exp) = 1
  respaced : ∀ f_act' f_exp', Respaced isspace f_act f_act' → Respaced isspace f_exp f_exp' →
    compare_output isspace (some f_act') (some f_exp') =
      compare_output isspace (some f_act) (some f_exp)

/-- **The comparison decides equality up to white space.** -/
theorem compare_output_comparesVisible (isspace : UInt8 → Bool) (f_act f_exp : Bytes) :
    ComparesVisible isspace f_act f_exp where
  eq := compare_output_some f_act f_exp
  symm := by
    rw [compare_output_some, compare_output_some]
    simp only [eq_comm]
  trans := by
    intro f hact hexp
    rw [compare_output_one_iff] at hact hexp ⊢
    exact hact.trans hexp
  respaced := by
    intro f_act' f_exp' hact hexp
    rw [compare_output_some, compare_output_some, respaced_iff.mp hact, respaced_iff.mp hexp]

/-! ## Words -/

/-- An output is accepted iff the words of the two files, set side by side, are the same. -/
theorem compare_output_one_iff_words {f_act f_exp : Bytes} :
    compare_output isspace (some f_act) (some f_exp) = 1 ↔
      (words isspace f_act).flatten = (words isspace f_exp).flatten := by
  rw [compare_output_one_iff, flatten_words, flatten_words]

theorem gradeOfDiff_compare {f_act f_exp : Bytes} :
    gradeOfDiff (compare_output isspace (some f_act) (some f_exp)) = GRADE_AC ↔
      compare_output isspace (some f_act) (some f_exp) = 1 := by
  rw [compare_output_some]
  split_ifs <;> decide

/-- What an accepted output has in common with the expected file. -/
structure AcceptedWords (isspace : UInt8 → Bool) (f_act f_exp : Bytes) : Prop where
  grade : gradeOfDiff (compare_output isspace (some f_act) (some f_exp)) = GRADE_AC ↔
    compare_output isspace (some f_act) (some f_exp) = 1
  flatten : compare_output isspace (some f_act) (some f_exp) = 1 ↔
    (words isspace f_act).flatten = (words isspace f_exp).flatten
  words : words isspace f_act = words isspace f_exp ↔
    compare_output isspace (some f_act) (some f_exp) = 1 ∧
      (words isspace f_act).map List.length = (words isspace f_exp).map List.length

/-- **An output is graded AC iff its words spell what the expected words spell**; they are the
expected words iff they are, besides, as long as these. -/
theorem accepted_words (isspace : UInt8 → Bool) (f_act f_exp : Bytes) :
    AcceptedWords isspace f_act f_exp where
  grade := gradeOfDiff_compare
  flatten := compare_output_one_iff_words
  words := by rw [words_eq_iff, compare_output_one_iff]

/-- Other numbers are accepted where the white space falls otherwise. -/
theorem accepted_other_numbers :
    compare_output (fun c => IsSpace c) (some (ascii "12 3")) (some (ascii "1 23")) = 1 ∧
      gradeOfDiff (compare_output (fun c => IsSpace c) (some (ascii "12 3"))
        (some (ascii "1 23"))) = GRADE_AC ∧
      words (fun c => IsSpace c) (ascii "12 3") ≠ words (fun c => IsSpace c) (ascii "1 23") := by
  have hone : compare_output (fun c => IsSpace c) (some (ascii "12 3")) (some (ascii "1 23")) = 1 :=
    compare_output_one_iff.mpr (by decide)
  exact ⟨hone, gradeOfDiff_compare.mpr hone, by decide⟩

end Decide

end MiniCi
