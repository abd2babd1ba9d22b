/-
# What `best_result` is

The field is meant for the best grade of a student within a week.  But an update that is not the
first accepted submission stores its grade without comparing it with the one that is there: the
record keeps the last grade, or `GRADE_AC` once that has come (`best_result_kept`).

So it is the best grade iff one of the grades is `GRADE_AC` or the last is as good as any
(`best_result_best_iff`).  Without either it gets worse, and depends on the order in which the
workers took `tracker_lock`.
-/
import MiniCi.Tracker
import Mathlib.Order.Bounds.Basic

/-! ## The last of a list, or the least -/

namespace Latest

variable {α : Type*} [LinearOrder α] [OrderBot α] {l : List α} {a m : α}

/-- The last element, unless the least of all is in the list. -/
def kept (l : List α) : Option α := if ⊥ ∈ l then some ⊥ else l.getLast?

/-- The least of all is in the list, or the last element is not above any other. -/
def EndsLeast (l : List α) : Prop := ⊥ ∈ l ∨ ∀ m ∈ l.getLast?, ∀ a ∈ l, m ≤ a

instance (l : List α) : Decidable (EndsLeast l) :=
  inferInstanceAs (Decidable (_ ∨ _))

theorem mem_of_kept (h : kept l = some m) : m ∈ l := by
  unfold kept at h
  split_ifs at h with hbot
  · rwa [← Option.some.inj h]
  · exact List.mem_of_getLast? h

/-- One element more. -/
theorem kept_concat (h : kept l = some m) (a : α) :
    kept (l ++ [a]) = some (if m = ⊥ then ⊥ else a) := by
  unfold kept
  by_cases hbot : ⊥ ∈ l
  · have hm : m = ⊥ := by
      rw [kept, if_pos hbot] at h
      exact (Option.some.inj h).symm
    rw [if_pos (List.mem_append_left _ hbot), if_pos hm]
  · have hm : m ≠ ⊥ := by
      rintro rfl
      exact hbot (mem_of_kept h)
    rw [if_neg hm, List.getLast?_concat]
    split_ifs with ha
    · rcases List.mem_append.mp ha with ha | ha
      · exact absurd ha hbot
      · rw [List.mem_singleton.mp ha]
    · rfl

theorem kept_singleton (a : α) : kept [a] = some a := by
  unfold kept
  split_ifs with ha
  · rw [List.mem_singleton.mp ha]
  · rfl

/-- **What is kept is the least element iff the list ends with it**, or the least of all is in
it. -/
theorem isLeast_kept_iff (h : kept l = some m) : IsLeast {a | a ∈ l} m ↔ EndsLeast l := by
  unfold kept at h
  split_ifs at h with hbot
  · obtain rfl := Option.some.inj h
    exact iff_of_true ⟨hbot, fun _ _ => bot_le⟩ (Or.inl hbot)
  · constructor
    · rintro ⟨-, hle⟩
      right
      rintro m' hm' a ha
      obtain rfl := Option.some.inj (h.symm.trans hm')
      exact hle ha
    · rintro (hmem | hle)
      · exact absurd hmem hbot
      · exact ⟨List.mem_of_getLast? h, fun a ha => hle m h a ha⟩

end Latest

namespace MiniCi

open CStr Latest

/-! ## Grades -/

/-- The grades in the order of `GradeResult`. -/
instance : LinearOrder GradeResult where
  le g h := g.code.toNat ≤ h.code.toNat
  le_refl _ := Nat.le_refl _
  le_trans _ _ _ := Nat.le_trans
  le_antisymm _ _ hle hge :=
    GradeResult.code_injective (UInt8.toNat_inj.mp (Nat.le_antisymm hle hge))
  le_total _ _ := Nat.le_total _ _
  toDecidableLE g h := inferInstanceAs (Decidable (g.code.toNat ≤ h.code.toNat))
  toDecidableEq := inferInstance

instance : OrderBot GradeResult where
  bot := GRADE_AC
  bot_le g := Nat.zero_le g.code.toNat

/-- The grades of a student, in the order in which they were recorded. -/
def gradesOf (subs : List Submission) (s : Bytes) : List GradeResult :=
  (subs.filter fun x => str x.student_id = s).map Submission.result

/-- The stored grade is the best of some grades. -/
def IsBest (best_result : UInt8) (grades : List GradeResult) : Prop :=
  ∃ g, best_result = g.code ∧ IsLeast {g' | g' ∈ grades} g

section Grades

variable {subs : List Submission} {x : Submission} {s : Bytes}

theorem gradesOf_concat_self (h : str x.student_id = s) :
    gradesOf (subs ++ [x]) s = gradesOf subs s ++ [x.result] := by
  simp [gradesOf, h]

theorem gradesOf_concat_of_ne (h : str x.student_id ≠ s) :
    gradesOf (subs ++ [x]) s = gradesOf subs s := by
  simp [gradesOf, h]

theorem gradesOf_eq_nil (h : s ∉ (submissionLog subs).map Prod.fst) : gradesOf subs s = [] := by
  rw [gradesOf, List.map_eq_nil_iff, List.filter_eq_nil_iff]
  intro y hy heq
  apply h
  rw [submissionLog, List.map_map]
  exact List.mem_map.mpr ⟨y, hy, by simpa using heq⟩

end Grades

/-! ## One record -/

/-- The record keeps the last of the grades, or `GRADE_AC`. -/
def Keeps (r : StudentRecord) (grades : List GradeResult) : Prop :=
  ∃ g, kept grades = some g ∧ r.best_result = g.code

section Record

variable {r : StudentRecord} {grades : List GradeResult} {result : GradeResult}

/-- What `enter` leaves in `best_result`. -/
theorem best_result_enter {attempts : ℕ} {solved : Prop} (h : RecordOf r attempts solved)
    {g : GradeResult} (hg : r.best_result = g.code) (result : GradeResult) (now : ℤ) :
    ((r.bump now).enter result).best_result =
      (if g = GRADE_AC then GRADE_AC else result).code := by
  have hcode : r.best_result = GRADE_AC.code ↔ g = GRADE_AC := by
    rw [hg]
    exact GradeResult.code_injective.eq_iff
  by_cases hnew : (r.bump now).NewlySolved result
  · rw [StudentRecord.enter, if_pos hnew, hnew.1, ite_self]
  · rw [StudentRecord.enter, if_neg hnew]
    by_cases hgac : g = GRADE_AC
    · have hbest : (r.bump now).best_result = GRADE_AC.code := hcode.mpr hgac
      rw [if_neg fun hnot => hnot.2 hbest, if_pos hgac]
      exact hbest
    · -- nothing has been accepted, so an accepted submission would have been the first
      have hresult : result ≠ GRADE_AC := by
        rintro rfl
        rcases h.flag with h0 | h1
        · exact hnew ⟨rfl, h0⟩
        · exact hgac (hcode.mp (h.best_iff.mpr (h.solved_iff.mp h1)))
      have hbest : (r.bump now).best_result ≠ GRADE_AC.code := mt hcode.mp hgac
      rw [if_pos ⟨hresult, hbest⟩, if_neg hgac]

theorem Keeps.enter_bump {attempts : ℕ} {solved : Prop} (h : RecordOf r attempts solved)
    (hk : Keeps r grades) (result : GradeResult) (now : ℤ) :
    Keeps ((r.bump now).enter result) (grades ++ [result]) := by
  obtain ⟨g, hkept, hg⟩ := hk
  exact ⟨_, kept_concat hkept result, best_result_enter h hg result now⟩

/-- The first grade of a student. -/
theorem keeps_claim (r : StudentRecord) (student_id : Bytes) (result : GradeResult) (now : ℤ) :
    Keeps (((r.claim student_id).bump now).enter result) [result] := by
  refine ⟨result, kept_singleton result, ?_⟩
  exact best_result_enter (recordOf_claim r student_id) (g := GRADE_WA) rfl result now

end Record

/-! ## Runs -/

/-- Every record in use keeps the last grade of its student, or `GRADE_AC`. -/
def TableKeeps (subs : List Submission) (t : TrackerState) : Prop :=
  ∀ r ∈ t.students.records, ¬ r.IsFree → Keeps r (gradesOf subs r.id)

section Runs

variable {t : TrackerState} {rows : List StudentRecord} {subs : List Submission} {x : Submission}

/-- **One submission.** -/
theorem TableKeeps.record (htable : TableKeeps subs t)
    (h : Represents t (.ofLog MAX_STUDENTS (submissionLog subs)) rows)
    (hid : UsableId x.student_id) :
    TableKeeps (subs ++ [x]) (ctx_record_submission t x.student_id x.result x.now).2 := by
  have hkeeps : ∀ r ∈ rows, Keeps r (gradesOf subs r.id) := by
    intro r hr
    obtain ⟨hmem, hused⟩ := (h.filled.mem_iff r).mp hr
    exact htable r hmem hused
  intro r hr hused
  rcases record_cases h.filled h.nodup hid x.result x.now with
    ⟨i, hi, hmatch, -, hrec, hfilled⟩ | ⟨r', hnew, hroom, -, hrec, hfilled⟩ | ⟨hnew, hfull, hrec⟩
  · -- a known student
    rw [hrec] at hr
    obtain ⟨j, hj, rfl⟩ := List.getElem_of_mem ((hfilled.mem_iff r).mpr ⟨hr, hused⟩)
    rw [List.length_set] at hj
    rw [List.getElem_set]
    split_ifs with hij
    · subst hij
      rw [id_enter_bump, gradesOf_concat_self hmatch.symm]
      exact (hkeeps _ (List.getElem_mem hi)).enter_bump (h.records _ (List.getElem_mem hi)) _ _
    · have hne := id_ne_of_ne h.nodup hi hj hij
      rw [gradesOf_concat_of_ne fun heq => hne (heq.symm.trans hmatch.symm)]
      exact hkeeps _ (List.getElem_mem hj)
  · -- a new student while there is room
    have hacc : (Ledger.ofLog MAX_STUDENTS (submissionLog subs)).Accepts MAX_STUDENTS
        (str x.student_id) := Or.inr (h.card_known ▸ hroom)
    have hfirst : gradesOf subs (str x.student_id) = [] :=
      gradesOf_eq_nil (Ledger.not_mem_log_of_accepts hacc (mt (h.mem_known_iff _).mp hnew))
    rw [hrec] at hr
    rcases List.mem_append.mp ((hfilled.mem_iff r).mpr ⟨hr, hused⟩) with hmem | hmem
    · have hne : str x.student_id ≠ r.id := fun heq => hnew (heq ▸ List.mem_map_of_mem hmem)
      rw [gradesOf_concat_of_ne hne]
      exact hkeeps r hmem
    · rw [List.mem_singleton.mp hmem, id_enter_bump, id_claim hid, gradesOf_concat_self rfl, hfirst]
      exact keeps_claim r' x.student_id x.result x.now
  · -- a new student and no room
    rw [hrec] at hr
    have hmem := (h.filled.mem_iff r).mpr ⟨hr, hused⟩
    rw [gradesOf_concat_of_ne fun heq => hnew (heq ▸ List.mem_map_of_mem hmem)]
    exact hkeeps r hmem

/-- **The record of a student holds the last of his grades, or `GRADE_AC`**, after any
interleaving of submissions. -/
theorem best_result_kept (t : TrackerState) (subs : List Submission)
    (hids : ∀ x ∈ subs, UsableId x.student_id) {r : StudentRecord}
    (hr : r ∈ (recordAll (ctx_set_hw_reset t) subs).students.records) (hused : ¬ r.IsFree) :
    Keeps r (gradesOf subs r.id) := by
  have htable : TableKeeps subs (recordAll (ctx_set_hw_reset t) subs) := by
    clear hr
    -- the last submission of the run is the last one recorded
    induction subs using List.reverseRecOn with
    | nil => exact fun r hr hused => absurd ((filled_zero.mem_iff r).mpr ⟨hr, hused⟩) (by simp)
    | append_singleton subs x ih =>
      have hbefore := fun y hy => hids y (List.mem_append_left _ hy)
      obtain ⟨rows, h⟩ := represents_recordAll t subs hbefore
      rw [recordAll, List.foldl_concat]
      exact (ih hbefore).record h (hids x (List.mem_append_right _ (List.mem_singleton_self x)))
  exact htable r hr hused

theorem Keeps.isBest_iff {r : StudentRecord} {grades : List GradeResult} (h : Keeps r grades) :
    IsBest r.best_result grades ↔ EndsLeast grades := by
  obtain ⟨g, hkept, hg⟩ := h
  rw [← isLeast_kept_iff hkept]
  constructor
  · rintro ⟨g', hg', hleast⟩
    obtain rfl := GradeResult.code_injective (hg.symm.trans hg')
    exact hleast
  · intro hleast
    exact ⟨g, hg, hleast⟩

/-- The best of some grades does not depend on their order. -/
theorem IsBest.unique {b b' : UInt8} {grades grades' : List GradeResult} (h : IsBest b grades)
    (h' : IsBest b' grades') (hperm : grades.Perm grades') : b = b' := by
  obtain ⟨g, rfl, hg⟩ := h
  obtain ⟨g', rfl, hg'⟩ := h'
  have hsame : {a | a ∈ grades} = {a | a ∈ grades'} := Set.ext fun a => hperm.mem_iff
  rw [hsame] at hg
  rw [hg.unique hg']

/-- The best of more grades is no worse. -/
theorem IsBest.le {b b' : UInt8} {grades grades' : List GradeResult} (h : IsBest b grades)
    (h' : IsBest b' grades') (hsub : grades ⊆ grades') : b' ≤ b := by
  obtain ⟨g, rfl, hg⟩ := h
  obtain ⟨g', rfl, hg'⟩ := h'
  exact UInt8.le_iff_toNat_le.mpr (hg'.2 (hsub hg.1))

/-- Whether `best_result` is the best result, after the submissions of a week. -/
structure BestResults (t : TrackerState) (subs : List Submission) : Prop where
  /-- it is, for a student whose grades end with a best one or have a `GRADE_AC` among them, and
  for no other -/
  best : ∀ r ∈ (recordAll (ctx_set_hw_reset t) subs).students.records, ¬ r.IsFree →
    (IsBest r.best_result (gradesOf subs r.id) ↔ EndsLeast (gradesOf subs r.id))
  /-- where that is so before and after some submissions, it has not become worse -/
  no_worse : ∀ (pre : List Submission) (r r' : StudentRecord), pre <+: subs →
    r ∈ (recordAll (ctx_set_hw_reset t) pre).students.records → ¬ r.IsFree →
    r' ∈ (recordAll (ctx_set_hw_reset t) subs).students.records → ¬ r'.IsFree → r.id = r'.id →
    EndsLeast (gradesOf pre r.id) → EndsLeast (gradesOf subs r.id) → r'.best_result ≤ r.best_result
  /-- where that is so in two orders, the order has made no difference -/
  any_order : ∀ (subs' : List Submission) (r r' : StudentRecord), subs.Perm subs' →
    r ∈ (recordAll (ctx_set_hw_reset t) subs).students.records → ¬ r.IsFree →
    r' ∈ (recordAll (ctx_set_hw_reset t) subs').students.records → ¬ r'.IsFree → r.id = r'.id →
    EndsLeast (gradesOf subs r.id) → EndsLeast (gradesOf subs' r.id) →
    r.best_result = r'.best_result

/-- **`best_result` is the best result iff a student's grades end with a best one**, or have a
`GRADE_AC` among them. -/
theorem best_result_best_iff (t : TrackerState) {subs : List Submission}
    (hids : ∀ x ∈ subs, UsableId x.student_id) : BestResults t subs where
  best := fun r hr hused => (best_result_kept t subs hids hr hused).isBest_iff
  no_worse := by
    rintro pre r r' hpre hr hused hr' hused' hid hbefore hafter
    have hsub : ∀ x ∈ pre, x ∈ subs := fun x hx => hpre.subset hx
    have hkept := best_result_kept t pre (fun x hx => hids x (hsub x hx)) hr hused
    have hkept' := best_result_kept t subs hids hr' hused'
    rw [← hid] at hkept'
    apply (hkept.isBest_iff.mpr hbefore).le (hkept'.isBest_iff.mpr hafter)
    exact List.map_subset _ (List.filter_subset _ hsub)
  any_order := by
    rintro subs' r r' hperm hr hused hr' hused' hid hends hends'
    have hkept := best_result_kept t subs hids hr hused
    have hids' : ∀ x ∈ subs', UsableId x.student_id := fun x hx => hids x (hperm.mem_iff.mpr hx)
    have hkept' := best_result_kept t subs' hids' hr' hused'
    rw [← hid] at hkept'
    apply (hkept.isBest_iff.mpr hends).unique (hkept'.isBest_iff.mpr hends')
    exact (hperm.filter _).map _

end Runs

/-! ## A grade that gets worse -/

/-- A student's wrong answer and his program that crashes. -/
def wrongAnswer : Submission := ⟨ascii "20240123", GRADE_WA, 10⟩

def crash : Submission := ⟨ascii "20240123", GRADE_RE, 20⟩

theorem best_result_best_iff_two : BestResults .initial [crash, wrongAnswer] := by
  apply best_result_best_iff
  intro x hx
  rcases List.mem_pair.mp hx with rfl | rfl
  · exact ClientId.usable (by decide)
  · exact ClientId.usable (by decide)

/-- The first record after a run. -/
theorem exists_first_record {t : TrackerState} {id : Bytes} {best : UInt8} (hne : id ≠ [])
    (h : t.students.records.head?.map (fun r => (r.id, r.best_result)) = some (id, best)) :
    ∃ r ∈ t.students.records, ¬ r.IsFree ∧ r.id = id ∧ r.best_result = best := by
  obtain ⟨r, hr, heq⟩ := Option.map_eq_some_iff.mp h
  obtain ⟨hid, hbest⟩ := Prod.mk.inj heq
  refine ⟨r, List.mem_of_head? hr, ?_, hid, hbest⟩
  rw [isFree_iff, hid]
  exact hne

/-- A wrong answer and then a crash leave the crash, which is not the best result, and in the other
order they leave the wrong answer. -/
theorem best_result_gets_worse :
    ClientId (ascii "20240123") ∧
    (∃ r ∈ (recordAll (ctx_set_hw_reset .initial) [wrongAnswer, crash]).students.records,
      ¬ r.IsFree ∧ r.id = ascii "20240123" ∧ r.best_result = GRADE_RE.code ∧
        ¬ IsBest r.best_result (gradesOf [wrongAnswer, crash] r.id)) ∧
    ∃ r ∈ (recordAll (ctx_set_hw_reset .initial) [crash, wrongAnswer]).students.records,
      ¬ r.IsFree ∧ r.id = ascii "20240123" ∧ r.best_result = GRADE_WA.code := by
  refine ⟨by decide, ?_, exists_first_record (by decide) (by decide +kernel)⟩
  have hfirst :
      (recordAll (ctx_set_hw_reset .initial) [wrongAnswer, crash]).students.records.head?.map
        (fun r => (r.id, r.best_result)) = some (ascii "20240123", GRADE_RE.code) := by
    decide +kernel
  obtain ⟨r, hr, hused, hid, hbest⟩ := exists_first_record (by decide) hfirst
  refine ⟨r, hr, hused, hid, hbest, ?_⟩
  rw [hid, hbest]
  have hgrades : gradesOf [wrongAnswer, crash] (ascii "20240123") = [GRADE_WA, GRADE_RE] := by
    decide
  rintro ⟨g, hg, -, hleast⟩
  obtain rfl := GradeResult.code_injective hg
  have hle : GRADE_RE ≤ GRADE_WA := hleast (by rw [hgrades]; simp)
  exact absurd hle (by decide)

end MiniCi
