/-
# Runs of submissions through the tracker

Between two week switches the tracker is a ledger with `MAX_STUDENTS` accounts:
`Represents t m` says that the student table `t` stores the ledger `m`, and
`represents_record` that `ctx_record_submission` enters a submission in both.  So for
ids that the client lets through the table is, after any interleaving of the workers,
the ledger of all submissions so far.
-/
import MiniCi.TrackerTable
import MiniCi.Ledger

namespace MiniCi

open CStr

/-! ## One record -/

/-- The record says that its student made `attempts` attempts and whether he has
`solved` the assignment. -/
structure RecordOf (r : StudentRecord) (attempts : ℕ) (solved : Prop) : Prop where
  count : r.submit_count.toNat = min attempts UINT32_MAX
  flag : r.submitted = 0 ∨ r.submitted = 1
  solved_iff : r.submitted = 1 ↔ solved
  best_iff : r.best_result = GRADE_AC.code ↔ solved

theorem recordOf_claim (r : StudentRecord) (student_id : Bytes) :
    RecordOf (r.claim student_id) 0 False :=
  ⟨rfl, Or.inl rfl, iff_of_false (by decide : ¬ (0 : UInt8) = 1) id,
    iff_of_false (by decide : ¬ GRADE_WA.code = GRADE_AC.code) id⟩

theorem toNat_submit_count_bump (r : StudentRecord) (now : ℤ) :
    (r.bump now).submit_count.toNat = min (r.submit_count.toNat + 1) UINT32_MAX := by
  have hlt := r.submit_count.toNat_lt
  have hmax : UINT32_MAX = 4294967295 := rfl
  show (if r.submit_count.toNat < UINT32_MAX then r.submit_count + 1 else r.submit_count).toNat = _
  by_cases h : r.submit_count.toNat < UINT32_MAX
  · rw [if_pos h, UInt32.toNat_add, UInt32.toNat_one]
    omega
  · -- at its maximum the counter stays
    rw [if_neg h]
    omega

/-- The answer to a submission is the number of attempts, saturating at `UINT16_MAX`. -/
theorem toNat_currentCount (r : StudentRecord) :
    r.currentCount.toNat = min r.submit_count.toNat UINT16_MAX := by
  have hmax : UINT16_MAX = 65535 := rfl
  by_cases h : r.submit_count.toNat > UINT16_MAX
  · rw [StudentRecord.currentCount, if_pos h, UInt16.toNat_ofNat']
    omega
  · rw [StudentRecord.currentCount, if_neg h, UInt32.toNat_toUInt16]
    omega

theorem RecordOf.currentCount_bump {r : StudentRecord} {attempts : ℕ} {solved : Prop}
    (h : RecordOf r attempts solved) (now : ℤ) :
    (r.bump now).currentCount.toNat = min (attempts + 1) UINT16_MAX := by
  have hle : UINT16_MAX ≤ UINT32_MAX := by decide
  rw [toNat_currentCount, toNat_submit_count_bump, h.count]
  omega

@[simp] theorem submit_count_enter (r : StudentRecord) (result : GradeResult) :
    (r.enter result).submit_count = r.submit_count := by
  unfold StudentRecord.enter
  split_ifs <;> rfl

/-- Another submission makes one more attempt, and solves the assignment if it is
accepted. -/
theorem RecordOf.enter_bump {r : StudentRecord} {attempts : ℕ} {solved : Prop}
    (h : RecordOf r attempts solved) (result : GradeResult) (now : ℤ) :
    RecordOf ((r.bump now).enter result) (attempts + 1) (solved ∨ result = GRADE_AC) := by
  have hcount : ((r.bump now).enter result).submit_count.toNat = min (attempts + 1) UINT32_MAX := by
    rw [submit_count_enter, toNat_submit_count_bump, h.count]
    omega
  have h10 : ¬ (0 : UInt8) = 1 := by decide
  by_cases hac : result = GRADE_AC
  · subst hac
    rcases h.flag with h0 | h1
    · -- the first accepted submission sets the flag and the best result
      have hnew : (r.bump now).NewlySolved GRADE_AC := ⟨rfl, h0⟩
      refine ⟨hcount, Or.inr ?_, iff_of_true ?_ (Or.inr rfl), iff_of_true ?_ (Or.inr rfl)⟩ <;>
        rw [StudentRecord.enter, if_pos hnew]
    · -- a later one changes neither
      have hsame : (r.bump now).enter GRADE_AC = r.bump now := by
        rw [StudentRecord.enter, if_neg fun hnew => h10 (hnew.2.symm.trans h1),
          if_neg fun hnot => hnot.1 rfl]
      have hsolved := h.solved_iff.mp h1
      rw [hsame] at hcount ⊢
      exact ⟨hcount, Or.inr h1, iff_of_true h1 (Or.inl hsolved),
        iff_of_true (h.best_iff.mpr hsolved) (Or.inl hsolved)⟩
  · -- any other grade is kept as the best one only while nothing was accepted
    rw [or_iff_left hac]
    have hnew : ¬ (r.bump now).NewlySolved result := fun hnew => hac hnew.1
    have hsub : ((r.bump now).enter result).submitted = r.submitted := by
      rw [StudentRecord.enter, if_neg hnew]
      split_ifs <;> rfl
    refine ⟨hcount, hsub ▸ h.flag, hsub ▸ h.solved_iff, ?_⟩
    rw [StudentRecord.enter, if_neg hnew]
    split_ifs with hbest
    · refine iff_of_false (fun hcode => hac (GradeResult.code_injective hcode)) fun hs => ?_
      exact hbest.2 (h.best_iff.mpr hs)
    · exact h.best_iff

/-! ## The table stores a ledger -/

/-- The rows of students who have solved the assignment. -/
abbrev solvedRows (rows : List StudentRecord) : ℕ := rows.countP fun r => r.submitted = 1

/-- The student table `t` stores the ledger `m`, in the records `rows`. -/
structure Represents (t : TrackerState) (m : Ledger Bytes) (rows : List StudentRecord) :
    Prop where
  filled : Filled t.students.records rows
  nodup : (ids rows).Nodup
  known : (ids rows).toFinset = m.known
  records : ∀ r ∈ rows, RecordOf r (m.attempts r.id) (m.solved r.id)
  count : t.submitted_count.toNat = solvedRows rows

theorem represents_reset (t : TrackerState) : Represents (ctx_set_hw_reset t) Ledger.empty [] :=
  ⟨filled_zero, List.nodup_nil, rfl, by simp, rfl⟩

section

variable {t : TrackerState} {m : Ledger Bytes} {rows : List StudentRecord} {student_id : Bytes}

theorem Represents.mem_known_iff (h : Represents t m rows) (s : Bytes) :
    s ∈ m.known ↔ s ∈ ids rows := by
  rw [← h.known, List.mem_toFinset]

theorem Represents.card_known (h : Represents t m rows) : m.known.card = rows.length := by
  rw [← h.known, List.toFinset_card_of_nodup h.nodup, List.length_map]

/-- The counter of solved students cannot wrap. -/
theorem Represents.count_lt (h : Represents t m rows) : t.submitted_count.toNat + 1 < 65536 := by
  have hle : solvedRows rows ≤ rows.length := List.countP_le_length
  have hlen := h.filled.length_le
  rw [t.students.length_records] at hlen
  have hcap : MAX_STUDENTS = 512 := rfl
  rw [h.count]
  omega

/-- Booking a submission in the slot of a row, the counter stays the number of solved
rows. -/
theorem count_book (hcount : t.submitted_count.toNat + 1 < 65536) {r : StudentRecord}
    {attempts : ℕ} {solved : Prop} (hr : RecordOf r attempts solved) (i : ℕ)
    (result : GradeResult) (now : ℤ) :
    (t.book i r result now).submitted_count.toNat + (if r.submitted = 1 then 1 else 0)
      = t.submitted_count.toNat
        + (if ((r.bump now).enter result).submitted = 1 then 1 else 0) := by
  have hafter := (hr.enter_bump result now).solved_iff
  have hbefore := hr.solved_iff
  -- the counter and the flag of the record change together
  by_cases hnew : r.NewlySolved result
  · have h1 : ¬ r.submitted = 1 := by rw [hnew.2]; decide
    have h1' := hafter.mpr (Or.inr hnew.1)
    rw [if_neg h1, if_pos h1', TrackerState.book, if_pos hnew, UInt16.toNat_add, UInt16.toNat_one]
    omega
  · have hsame : ((r.bump now).enter result).submitted = 1 ↔ r.submitted = 1 := by
      rw [hafter, hbefore, or_iff_left_iff_imp]
      intro hac
      rcases hr.flag with h0 | h1
      · exact absurd ⟨hac, h0⟩ hnew
      · exact hbefore.mp h1
    rw [TrackerState.book, if_neg hnew]
    simp only [hsame]

/-- Replacing an element changes a count by what the two elements contribute. -/
theorem countP_set_add {α : Type*} (p : α → Prop) [DecidablePred p] {l : List α} {i : ℕ}
    (hi : i < l.length) (a : α) :
    (l.set i a).countP (p ·) + (if p l[i] then 1 else 0)
      = l.countP (p ·) + (if p a then 1 else 0) := by
  rw [List.countP_set hi]
  by_cases hp : p l[i]
  · have hpos : 0 < l.countP (p ·) :=
      List.countP_pos_iff.mpr ⟨l[i], List.getElem_mem hi, by simpa using hp⟩
    simp only [hp, decide_true, if_true, decide_eq_true_eq]
    omega
  · simp [hp]

/-- A known student's submission updates his row. -/
theorem Represents.book_known (h : Represents t m rows) {i : ℕ} (hi : i < rows.length)
    (result : GradeResult) (now : ℤ)
    (hfilled : Filled (t.book i rows[i] result now).students.records
      (rows.set i ((rows[i].bump now).enter result))) :
    Represents (t.book i rows[i] result now) (m.enter rows[i].id (result = GRADE_AC))
      (rows.set i ((rows[i].bump now).enter result)) := by
  have hrow := h.records _ (List.getElem_mem hi)
  have hids : ids (rows.set i ((rows[i].bump now).enter result)) = ids rows :=
    ids_set hi (id_enter_bump _ _ _)
  refine ⟨hfilled, hids ▸ h.nodup, ?_, fun r hr => ?_, ?_⟩
  · have hmem : rows[i].id ∈ m.known :=
      (h.mem_known_iff _).mpr (List.mem_map_of_mem (List.getElem_mem hi))
    rw [hids, h.known, Ledger.known_enter, Finset.insert_eq_of_mem hmem]
  · obtain ⟨j, hj, rfl⟩ := List.getElem_of_mem hr
    rw [List.length_set] at hj
    rw [List.getElem_set]
    by_cases hij : i = j
    · subst hij
      rw [if_pos rfl, id_enter_bump, Ledger.attempts_enter_self, Ledger.solved_enter_self]
      exact hrow.enter_bump result now
    · have hne := id_ne_of_ne h.nodup hi hj hij
      rw [if_neg hij, m.attempts_enter_of_ne hne, m.solved_enter_of_ne hne]
      exact h.records _ (List.getElem_mem hj)
  · have hbook := count_book h.count_lt hrow i result now
    have hset := countP_set_add (fun r : StudentRecord => r.submitted = 1) hi
      ((rows[i].bump now).enter result)
    rw [h.count] at hbook
    exact Nat.add_right_cancel (hbook.trans hset.symm)

/-- A new student's submission adds a row. -/
theorem Represents.book_new (h : Represents t m rows) (hid : UsableId student_id)
    (hnew : str student_id ∉ ids rows) (hattempts : m.attempts (str student_id) = 0)
    (hsolved : ¬ m.solved (str student_id)) (r : StudentRecord) (result : GradeResult) (now : ℤ)
    (hfilled : Filled (t.book rows.length (r.claim student_id) result now).students.records
      (rows ++ [((r.claim student_id).bump now).enter result])) :
    Represents (t.book rows.length (r.claim student_id) result now)
      (m.enter (str student_id) (result = GRADE_AC))
      (rows ++ [((r.claim student_id).bump now).enter result]) := by
  have hclaim := recordOf_claim r student_id
  have hrid : (((r.claim student_id).bump now).enter result).id = str student_id := by
    rw [id_enter_bump, id_claim hid]
  have hids : ids (rows ++ [((r.claim student_id).bump now).enter result])
      = ids rows ++ [str student_id] := by
    rw [ids, List.map_append, List.map_singleton, hrid]
  refine ⟨hfilled, ?_, ?_, fun r' hr' => ?_, ?_⟩
  · rw [hids]
    exact List.nodup_append.mpr ⟨h.nodup, List.nodup_singleton _, fun a ha b hb hab =>
      hnew (List.mem_singleton.mp hb ▸ hab ▸ ha)⟩
  · rw [hids, List.toFinset_append, h.known, Ledger.known_enter, Finset.insert_eq,
      Finset.union_comm]
    rfl
  · rcases List.mem_append.mp hr' with hmem | hmem
    · have hne : r'.id ≠ str student_id := fun heq => hnew (heq ▸ List.mem_map_of_mem hmem)
      rw [m.attempts_enter_of_ne hne, m.solved_enter_of_ne hne]
      exact h.records r' hmem
    · rw [List.mem_singleton.mp hmem, hrid, Ledger.attempts_enter_self, Ledger.solved_enter_self,
        hattempts, or_iff_right hsolved]
      simpa only [false_or] using hclaim.enter_bump result now
  · have hbook := count_book h.count_lt hclaim rows.length result now
    have hfresh : ¬ (r.claim student_id).submitted = 1 := (by decide : ¬ (0 : UInt8) = 1)
    rw [h.count, if_neg hfresh] at hbook
    rw [solvedRows, List.countP_append, List.countP_singleton]
    simpa using hbook

/-- **One submission.**  `ctx_record_submission` enters a submission in the table as the
ledger takes it: the answer is the number of the attempt, saturating at `UINT16_MAX`, or
`0` with nothing changed when the ledger turns the student away. -/
theorem represents_record {log : List (Bytes × Prop)}
    (h : Represents t (.ofLog MAX_STUDENTS log) rows) (hid : UsableId student_id)
    (result : GradeResult) (now : ℤ) :
    (∃ rows', Represents (ctx_record_submission t student_id result now).2
        (.ofLog MAX_STUDENTS (log ++ [(str student_id, result = GRADE_AC)])) rows') ∧
    ((Ledger.ofLog MAX_STUDENTS log).Accepts MAX_STUDENTS (str student_id) →
      (ctx_record_submission t student_id result now).1.toNat
        = min ((Ledger.ofLog MAX_STUDENTS log).attempts (str student_id) + 1) UINT16_MAX) ∧
    (¬ (Ledger.ofLog MAX_STUDENTS log).Accepts MAX_STUDENTS (str student_id) →
      ctx_record_submission t student_id result now = (0, t)) := by
  rw [Ledger.ofLog_concat]
  rcases record_cases h.filled h.nodup hid result now with
    ⟨i, hi, hmatch, -, hrec, hfilled⟩ | ⟨r, hnew, hroom, -, hrec, hfilled⟩ | ⟨hnew, hfull, hrec⟩
  · -- a known student
    have hacc : (Ledger.ofLog MAX_STUDENTS log).Accepts MAX_STUDENTS (str student_id) :=
      Or.inl ((h.mem_known_iff _).mpr (hmatch ▸ List.mem_map_of_mem (List.getElem_mem hi)))
    rw [hrec, Ledger.submit_of_accepts hacc, ← hmatch]
    exact ⟨⟨_, h.book_known hi result now hfilled⟩,
      fun _ => (h.records _ (List.getElem_mem hi)).currentCount_bump now,
      fun hnot => absurd (hmatch ▸ hacc) hnot⟩
  · -- a new student while there is room
    have hacc : (Ledger.ofLog MAX_STUDENTS log).Accepts MAX_STUDENTS (str student_id) :=
      Or.inr (h.card_known ▸ hroom)
    have hunknown : str student_id ∉ (Ledger.ofLog MAX_STUDENTS log).known :=
      mt (h.mem_known_iff _).mp hnew
    have hattempts : (Ledger.ofLog MAX_STUDENTS log).attempts (str student_id) = 0 := by
      rw [Ledger.attempts_ofLog, if_neg hunknown]
    have hsolved : ¬ (Ledger.ofLog MAX_STUDENTS log).solved (str student_id) := fun hs =>
      hunknown ((Ledger.solved_ofLog _ _).mp hs).1
    rw [hrec, Ledger.submit_of_accepts hacc]
    refine ⟨⟨_, h.book_new hid hnew hattempts hsolved r result now hfilled⟩, fun _ => ?_,
      fun hnot => absurd hacc hnot⟩
    rw [hattempts]
    exact (recordOf_claim r student_id).currentCount_bump now
  · -- a new student and no room
    have hacc : ¬ (Ledger.ofLog MAX_STUDENTS log).Accepts MAX_STUDENTS (str student_id) := by
      rintro (hmem | hlt)
      · exact hnew ((h.mem_known_iff _).mp hmem)
      · rw [h.card_known] at hlt
        omega
    rw [hrec, Ledger.submit_of_not_accepts hacc]
    exact ⟨⟨rows, h⟩, fun hyes => absurd hyes hacc, fun _ => rfl⟩

end

/-! ## A week of submissions with ids the client lets through -/

/-- One call of `ctx_record_submission`. -/
structure Submission where
  student_id : Bytes
  result : GradeResult
  now : ℤ

/-- What `prompt_student_id` lets through: 7 to 15 decimal digits. -/
def ClientId (student_id : Bytes) : Prop :=
  7 ≤ (str student_id).length ∧ (str student_id).length ≤ 15 ∧ ∀ c ∈ str student_id, IsDigit c

instance (student_id : Bytes) : Decidable (ClientId student_id) :=
  have : Decidable (∀ c ∈ str student_id, IsDigit c) := List.decidableBAll _ _
  inferInstanceAs (Decidable (_ ∧ _))

theorem ClientId.usable {student_id : Bytes} (h : ClientId student_id) : UsableId student_id := by
  refine ⟨fun hnil => ?_, Nat.lt_succ_of_le h.2.1⟩
  have := h.1
  rw [hnil] at this
  cases this

/-- The tracker after the submissions, in the order in which they took `tracker_lock`. -/
def recordAll (t : TrackerState) (subs : List Submission) : TrackerState :=
  subs.foldl (fun t x => (ctx_record_submission t x.student_id x.result x.now).2) t

/-- The submissions as a log of attempts. -/
def submissionLog (subs : List Submission) : List (Bytes × Prop) :=
  subs.map fun x => (str x.student_id, x.result = GRADE_AC)

/-- The number of submissions of a student. -/
def attemptsOf (subs : List Submission) (s : Bytes) : ℕ := subs.countP fun x => str x.student_id = s

theorem countP_submissionLog (subs : List Submission) (s : Bytes) :
    (submissionLog subs).countP (fun x => x.1 = s) = attemptsOf subs s := by
  rw [submissionLog, List.countP_map]
  rfl

theorem exists_mem_submissionLog (subs : List Submission) (s : Bytes) :
    (∃ y ∈ submissionLog subs, y.1 = s ∧ y.2)
      ↔ ∃ x ∈ subs, str x.student_id = s ∧ x.result = GRADE_AC := by
  simp [submissionLog]

/-- The table after a week of submissions stores their ledger. -/
theorem represents_recordAll (t : TrackerState) (subs : List Submission)
    (hids : ∀ x ∈ subs, UsableId x.student_id) :
    ∃ rows, Represents (recordAll (ctx_set_hw_reset t) subs)
      (.ofLog MAX_STUDENTS (submissionLog subs)) rows := by
  -- the last submission of the run is the last one entered
  induction subs using List.reverseRecOn with
  | nil => exact ⟨[], represents_reset t⟩
  | append_singleton subs x ih =>
    obtain ⟨rows, h⟩ := ih fun y hy => hids y (List.mem_append_left _ hy)
    have hx := hids x (List.mem_append_right _ (List.mem_singleton_self x))
    have hstep := (represents_record h hx x.result x.now).1
    rw [recordAll, List.foldl_append, submissionLog, List.map_append]
    exact hstep

/-- **The tracker refines a finite map.**  After any interleaving of submissions with ids
that the client lets through, starting from a week switch, the table stores the ledger
of these submissions: the records in use are a front part of the array with pairwise
distinct ids; the record of a student counts his submissions and says whether one was
accepted; `submitted_count` is the number of students with an accepted one.  The next
submission of a student who has a record or finds a free one is answered with its
number, at most `UINT16_MAX`; a new student's submission to a full table is answered
with `0` and changes nothing. -/
theorem tracker_refines_map (t : TrackerState) (subs : List Submission)
    (hids : ∀ x ∈ subs, ClientId x.student_id) :
    ∃ rows,
      Represents (recordAll (ctx_set_hw_reset t) subs)
        (.ofLog MAX_STUDENTS (submissionLog subs)) rows ∧
      (∃ free, (recordAll (ctx_set_hw_reset t) subs).students.records = rows ++ free ∧
        (∀ r ∈ free, r.IsFree) ∧ (∀ r ∈ rows, ¬ r.IsFree) ∧ (ids rows).Nodup) ∧
      (∀ r ∈ rows,
        r.submit_count.toNat = min (attemptsOf subs r.id) UINT32_MAX ∧
        (r.submitted = 1 ↔ ∃ x ∈ subs, str x.student_id = r.id ∧ x.result = GRADE_AC) ∧
        (r.best_result = GRADE_AC.code
          ↔ ∃ x ∈ subs, str x.student_id = r.id ∧ x.result = GRADE_AC)) ∧
      (recordAll (ctx_set_hw_reset t) subs).submitted_count.toNat
        = rows.countP (fun r => r.submitted = 1 ∧ r.best_result = GRADE_AC.code) ∧
      (∀ student_id result now, ClientId student_id →
        (str student_id ∈ ids rows ∨ rows.length < MAX_STUDENTS →
          (ctx_record_submission (recordAll (ctx_set_hw_reset t) subs) student_id result now).1.toNat
            = min (attemptsOf subs (str student_id) + 1) 65535) ∧
        (str student_id ∉ ids rows → rows.length = MAX_STUDENTS →
          ctx_record_submission (recordAll (ctx_set_hw_reset t) subs) student_id result now
            = (0, recordAll (ctx_set_hw_reset t) subs))) := by
  obtain ⟨rows, h⟩ := represents_recordAll t subs fun x hx => (hids x hx).usable
  have hsolved : ∀ r ∈ rows, (Ledger.ofLog MAX_STUDENTS (submissionLog subs)).solved r.id
      ↔ ∃ x ∈ subs, str x.student_id = r.id ∧ x.result = GRADE_AC := by
    intro r hr
    have hknown := (h.mem_known_iff r.id).mpr (List.mem_map_of_mem hr)
    rw [Ledger.solved_ofLog, exists_mem_submissionLog, and_iff_right hknown]
  refine ⟨rows, h, ?_, fun r hr => ⟨?_, ?_, ?_⟩, ?_, fun student_id result now hid => ⟨?_, ?_⟩⟩
  · obtain ⟨free, hrec, hfree⟩ := h.filled.split
    exact ⟨free, hrec, hfree, fun r hr => mt (isFree_iff r).mp (h.filled.used r hr).1, h.nodup⟩
  · have hknown := (h.mem_known_iff r.id).mpr (List.mem_map_of_mem hr)
    rw [(h.records r hr).count, Ledger.attempts_ofLog, if_pos hknown, countP_submissionLog]
  · exact (h.records r hr).solved_iff.trans (hsolved r hr)
  · exact (h.records r hr).best_iff.trans (hsolved r hr)
  · rw [h.count]
    apply List.countP_congr
    intro r hr
    have hrow := h.records r hr
    simp [hrow.solved_iff, hrow.best_iff]
  · intro hacc
    have hacc' : (Ledger.ofLog MAX_STUDENTS (submissionLog subs)).Accepts MAX_STUDENTS
        (str student_id) :=
      hacc.imp (h.mem_known_iff _).mpr fun hroom => h.card_known ▸ hroom
    rw [(represents_record h hid.usable result now).2.1 hacc', Ledger.attempts_ofLog]
    split_ifs with hknown
    · rw [countP_submissionLog]
      rfl
    · rw [← countP_submissionLog, Ledger.countP_of_first hacc' hknown]
      rfl
  · intro hnew hfull
    refine (represents_record h hid.usable result now).2.2 ?_
    rintro (hmem | hlt)
    · exact hnew ((h.mem_known_iff _).mp hmem)
    · rw [h.card_known] at hlt
      omega

/-- A student with a wrong and then an accepted submission. -/
theorem tracker_refines_map_two :
    ∃ rows : List StudentRecord,
      (recordAll .initial
        [⟨ascii "20240123", GRADE_WA, 10⟩, ⟨ascii "20240123", GRADE_AC, 20⟩]).submitted_count.toNat
          = rows.countP (fun r => r.submitted = 1 ∧ r.best_result = GRADE_AC.code) := by
  obtain ⟨rows, -, -, -, hcount, -⟩ :=
    tracker_refines_map { students := .zero, total_students := 0, submitted_count := 0 }
      [⟨ascii "20240123", GRADE_WA, 10⟩, ⟨ascii "20240123", GRADE_AC, 20⟩]
      (by simp only [List.mem_cons, List.not_mem_nil, or_false, forall_eq_or_imp, forall_eq]
          decide)
  exact ⟨rows, hcount⟩

end MiniCi
