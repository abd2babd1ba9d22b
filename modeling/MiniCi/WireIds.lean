/-
# Ids as they arrive on the wire

`handle_client` passes the sixteen bytes of `SubmitHeader.student_id` to the tracker as
they came.  The first loop of `ctx_record_submission` compares sixteen bytes, the
second stores fifteen and a NUL, and a record whose id starts with a NUL counts as
unused; so an empty id and one without a NUL are entered anew by every submission.

Along a run of submissions and week resets in which no id is of these two kinds, no
record is full up and no student is turned away, every student is counted once.
-/
import MiniCi.Tracker
import MiniCi.Runs

namespace MiniCi

open CStr

/-! ## Submissions and resets -/

/-- One `tracker_lock` section that writes: a submission with the id field of a received
header, or the reset of a week switch. -/
inductive TrackerAction where
  | submit (student_id : Buf MAX_STUDENT_ID) (result : GradeResult) (now : ℤ)
  | reset

/-- The tracker after the section. -/
def trackerStep (t : TrackerState) : TrackerAction → Option TrackerState
  | .submit student_id result now => some (ctx_record_submission t student_id.bytes result now).2
  | .reset => some (ctx_set_hw_reset t)

/-- The index of the record a submission is accounted to. -/
def accountedTo (t : TrackerState) (student_id : Buf MAX_STUDENT_ID) : Option ℕ :=
  (locate t.students.records student_id.bytes).map Prod.fst

/-- The stored ids are distinct and `submitted_count` is the number of occupied records
with the `submitted` flag. -/
def CountedOnce (t : TrackerState) : Prop :=
  (ids (t.students.records.filter fun r => ¬ r.IsFree)).Nodup ∧
  t.submitted_count.toNat = t.students.records.countP fun r => ¬ r.IsFree ∧ r.submitted = 1

instance (t : TrackerState) : Decidable (CountedOnce t) := inferInstanceAs (Decidable (_ ∧ _))

/-- The id of the submission does not start with a NUL but holds one, the student has a
record or finds an unused one, and has made fewer than `UINT16_MAX` attempts. -/
def Accountable (t : TrackerState) : TrackerAction → Prop
  | .submit student_id _ _ =>
    student_id.bytes.headD 0 ≠ 0 ∧ Terminated student_id.bytes ∧
    ((∃ r ∈ t.students.records, r.id = student_id.str) ∨ ∃ r ∈ t.students.records, r.IsFree) ∧
    ∀ r ∈ t.students.records, r.id = student_id.str → r.submit_count.toNat < UINT16_MAX
  | .reset => True

theorem usable_of_headD_ne_zero {student_id : Buf MAX_STUDENT_ID}
    (hne : student_id.bytes.headD 0 ≠ 0) (hnul : Terminated student_id.bytes) :
    UsableId student_id.bytes := by
  refine ⟨?_, ?_⟩
  · rw [str_of_headD_ne_zero hne]
    exact List.cons_ne_nil _ _
  · have := length_str_lt hnul
    rwa [student_id.length_bytes] at this

/-! ## Every state on the way -/

/-- The occupied records of a filled table are its rows. -/
theorem Filled.filter_eq {records rows : List StudentRecord} (h : Filled records rows) :
    records.filter (fun r => ¬ r.IsFree) = rows := by
  obtain ⟨free, rfl, hfree⟩ := h.split
  have hrows : rows.filter (fun r => ¬ r.IsFree) = rows := by
    rw [List.filter_eq_self]
    intro r hr
    simpa using mt (isFree_iff r).mp (h.used r hr).1
  have hnil : free.filter (fun r => ¬ r.IsFree) = [] := by
    rw [List.filter_eq_nil_iff]
    intro r hr
    simpa using hfree r hr
  rw [List.filter_append, hrows, hnil, List.append_nil]

/-- Two descriptions of one table have the same rows. -/
theorem Filled.unique {records rows rows' : List StudentRecord} (h : Filled records rows)
    (h' : Filled records rows') : rows = rows' :=
  h.filter_eq.symm.trans h'.filter_eq

theorem id_mem_ids {rows : List StudentRecord} {i : ℕ} (hi : i < rows.length) :
    rows[i].id ∈ ids rows := List.mem_map_of_mem (List.getElem_mem hi)

theorem Represents.countedOnce {t : TrackerState} {m : Ledger Bytes} {rows : List StudentRecord}
    (h : Represents t m rows) : CountedOnce t := by
  refine ⟨h.filled.filter_eq.symm ▸ h.nodup, ?_⟩
  rw [h.count, ← h.filled.filter_eq, solvedRows, List.countP_filter]
  congr 1
  funext r
  simp [and_comm]

/-- The tracker stores the ledger of some log. -/
def Sound (t : TrackerState) : Prop := ∃ log rows, Represents t (.ofLog MAX_STUDENTS log) rows

theorem sound_reset (t : TrackerState) : Sound (ctx_set_hw_reset t) := ⟨[], [], represents_reset t⟩

theorem sound_step (t : TrackerState) (a : TrackerAction) (t' : TrackerState) (h : Sound t)
    (ha : Accountable t a) (hstep : trackerStep t a = some t') : Sound t' := by
  cases a with
  | submit student_id result now =>
    obtain ⟨log, rows, hrep⟩ := h
    simp only [trackerStep, Option.some.injEq] at hstep
    subst hstep
    obtain ⟨rows', hrep'⟩ :=
      (represents_record hrep (usable_of_headD_ne_zero ha.1 ha.2.1) result now).1
    exact ⟨_, rows', hrep'⟩
  | reset =>
    simp only [trackerStep, Option.some.injEq] at hstep
    subst hstep
    exact sound_reset t

/-! ## Two submissions of one student -/

/-- Record `i` belongs to the student `s`, who has made `attempts` attempts. -/
def HasRecord (t : TrackerState) (i : ℕ) (s : Bytes) (attempts : ℕ) : Prop :=
  ∃ log rows, Represents t (.ofLog MAX_STUDENTS log) rows ∧
    ∃ hi : i < rows.length, rows[i].id = s ∧ rows[i].submit_count.toNat = attempts

/-- A student with a record is accounted to it, and answered with one attempt more. -/
theorem HasRecord.accounted {t : TrackerState} {i attempts : ℕ}
    {student_id : Buf MAX_STUDENT_ID} (h : HasRecord t i student_id.str attempts)
    (hid : UsableId student_id.bytes) (hlt : attempts < UINT16_MAX) (result : GradeResult)
    (now : ℤ) :
    accountedTo t student_id = some i ∧
      (ctx_record_submission t student_id.bytes result now).1.toNat = attempts + 1 := by
  obtain ⟨log, rows, hrep, hi, hmatch, hcount⟩ := h
  have hloc := locate_of_known hrep.filled hrep.nodup hid hi hmatch
  have hle : UINT16_MAX ≤ UINT32_MAX := by decide
  refine ⟨by rw [accountedTo, hloc]; rfl, ?_⟩
  rw [ctx_record_submission_eq hloc, toNat_currentCount, toNat_submit_count_bump, hcount]
  omega

/-- The submission is by the student `s`. -/
def TrackerAction.By (s : Bytes) : TrackerAction → Prop
  | .submit student_id _ _ => student_id.str = s
  | .reset => False

instance (s : Bytes) (a : TrackerAction) : Decidable (a.By s) := by
  cases a <;> dsimp only [TrackerAction.By] <;> infer_instance

@[simp] theorem by_submit (s : Bytes) (student_id : Buf MAX_STUDENT_ID) (result : GradeResult)
    (now : ℤ) : (TrackerAction.submit student_id result now).By s ↔ student_id.str = s := Iff.rfl

/-- An accountable submission leaves the records of other students alone, and keeps the
student's own record in its place with one attempt more. -/
theorem HasRecord.submit {t : TrackerState} {i attempts : ℕ} {s : Bytes}
    {student_id : Buf MAX_STUDENT_ID} {result : GradeResult} {now : ℤ}
    (h : HasRecord t i s attempts) (ha : Accountable t (.submit student_id result now)) :
    HasRecord (ctx_record_submission t student_id.bytes result now).2 i s
      (attempts + if student_id.str = s then 1 else 0) := by
  have hid := usable_of_headD_ne_zero ha.1 ha.2.1
  obtain ⟨log, rows, hrep, hi, rfl, rfl⟩ := h
  obtain ⟨⟨rows', hrep'⟩, -⟩ := represents_record hrep hid result now
  refine ⟨_, rows', hrep', ?_⟩
  rw [Buf.str]
  rcases record_cases hrep.filled hrep.nodup hid result now with
    ⟨j, hj, hmatch, -, hrec, hfilled⟩ | ⟨r, hnew, -, -, hrec, hfilled⟩ | ⟨hnew, -, hrec⟩
  · have hrows : rows' = rows.set j ((rows[j].bump now).enter result) :=
      hrep'.filled.unique (by rw [hrec]; exact hfilled)
    subst hrows
    refine ⟨by rwa [List.length_set], ?_⟩
    by_cases hij : j = i
    · subst hij
      have hlt := ha.2.2.2 _ ((hrep.filled.mem_iff _).mp (List.getElem_mem hi)).1 hmatch
      have hle : UINT16_MAX ≤ UINT32_MAX := by decide
      rw [List.getElem_set_self, id_enter_bump, submit_count_enter, toNat_submit_count_bump,
        if_pos hmatch.symm]
      exact ⟨rfl, by omega⟩
    · have hne : str student_id.bytes ≠ rows[i].id := fun heq =>
        id_ne_of_ne hrep.nodup hj hi hij (heq.symm.trans hmatch.symm)
      rw [List.getElem_set_ne hij, if_neg hne]
      exact ⟨rfl, rfl⟩
  · have hrows : rows' = rows ++ [((r.claim student_id.bytes).bump now).enter result] :=
      hrep'.filled.unique (by rw [hrec]; exact hfilled)
    subst hrows
    have hne : str student_id.bytes ≠ rows[i].id := fun heq => hnew (heq ▸ id_mem_ids hi)
    refine ⟨by rw [List.length_append]; omega, ?_⟩
    rw [List.getElem_append_left hi, if_neg hne]
    exact ⟨rfl, rfl⟩
  · have hrows : rows' = rows := hrep'.filled.unique (by rw [hrec]; exact hrep.filled)
    subst hrows
    have hne : str student_id.bytes ≠ rows'[i].id := fun heq => hnew (heq ▸ id_mem_ids hi)
    rw [if_neg hne]
    exact ⟨hi, rfl, rfl⟩

/-- After an accountable submission its student has a record, with the attempts the
submission was answered with. -/
theorem hasRecord_of_submit {t : TrackerState} {student_id : Buf MAX_STUDENT_ID}
    {result : GradeResult} {now : ℤ} (h : Sound t)
    (ha : Accountable t (.submit student_id result now)) :
    ∃ i, accountedTo t student_id = some i ∧
      HasRecord (ctx_record_submission t student_id.bytes result now).2 i student_id.str
        (ctx_record_submission t student_id.bytes result now).1.toNat := by
  have hid := usable_of_headD_ne_zero ha.1 ha.2.1
  obtain ⟨log, rows, hrep⟩ := h
  obtain ⟨⟨rows', hrep'⟩, -⟩ := represents_record hrep hid result now
  rcases record_cases hrep.filled hrep.nodup hid result now with
    ⟨i, hi, hmatch, -, -, -⟩ | ⟨r, hnew, -, hloc, hrec, hfilled⟩ | ⟨hnew, hfull, -⟩
  · have hlt := ha.2.2.2 _ ((hrep.filled.mem_iff _).mp (List.getElem_mem hi)).1 hmatch
    have hr : HasRecord t i student_id.str rows[i].submit_count.toNat :=
      ⟨log, rows, hrep, hi, hmatch, rfl⟩
    obtain ⟨hacc, hcount⟩ := hr.accounted hid hlt result now
    refine ⟨i, hacc, ?_⟩
    rw [hcount]
    simpa using hr.submit ha
  · have hrows : rows' = rows ++ [((r.claim student_id.bytes).bump now).enter result] :=
      hrep'.filled.unique (by rw [hrec]; exact hfilled)
    subst hrows
    refine ⟨rows.length, by rw [accountedTo, hloc]; rfl, _, _, hrep', by simp, ?_⟩
    rw [List.getElem_concat_length rfl, id_enter_bump, id_claim hid, submit_count_enter, hrec]
    exact ⟨rfl, rfl⟩
  · -- a full table without the student leaves nothing accountable
    exfalso
    have hlen := t.students.length_records
    obtain ⟨free, hsplit, -⟩ := id hrep.filled.split
    have hnil : free = [] := by
      rw [hsplit, List.length_append] at hlen
      exact List.length_eq_zero_iff.mp (by omega)
    rw [hnil, List.append_nil] at hsplit
    rcases ha.2.2.1 with ⟨r, hr, hmatch⟩ | ⟨r, hr, hfree⟩
    · rw [Buf.str] at hmatch
      exact hnew (hmatch ▸ List.mem_map_of_mem (hsplit ▸ hr))
    · exact ((hrep.filled.mem_iff r).mp (hsplit ▸ hr)).2 hfree

/-- Between two week switches a student's record stays his, and counts his accountable
submissions. -/
theorem HasRecord.run {i attempts : ℕ} {s : Bytes} {mid : List TrackerAction}
    {t t' : TrackerState} (h : HasRecord t i s attempts)
    (halong : Runs.Along trackerStep Accountable t mid) (hreset : TrackerAction.reset ∉ mid)
    (hrun : Runs.exec trackerStep t mid = some t') :
    HasRecord t' i s (attempts + mid.countP fun a => a.By s) := by
  induction mid generalizing t attempts with
  | nil =>
    simp only [Runs.exec_nil, Option.some.injEq] at hrun
    exact hrun ▸ h
  | cons a mid ih =>
    obtain ⟨t₁, hstep, hrun'⟩ := (Runs.exec_cons_eq_some trackerStep).mp hrun
    cases a with
    | submit student_id result now =>
      have hnext := h.submit halong.1
      simp only [trackerStep, Option.some.injEq] at hstep
      rw [hstep] at hnext
      have hend := ih hnext (halong.2 t₁ (by rw [trackerStep, hstep]))
        (fun hmem => hreset (List.mem_cons_of_mem _ hmem)) hrun'
      rw [List.countP_cons, Nat.add_comm (List.countP _ _), ← Nat.add_assoc]
      simpa only [by_submit, decide_eq_true_eq] using hend
    | reset => exact absurd List.mem_cons_self hreset

/-- **No student is counted twice as long as every submission is accountable.**  Along
any run of submissions and week resets whose submissions are accountable, the stored ids
are distinct and `submitted_count` counts the occupied records with the `submitted` flag,
in every state; and two submissions of one student in the same week are accounted to the
same record, the later one answered with one attempt more than the earlier one and those
of the student in between. -/
theorem wire_ids_counted_once (t : TrackerState) (as : List TrackerAction)
    (h : Runs.Along trackerStep Accountable (ctx_set_hw_reset t) as) :
    Runs.Always trackerStep CountedOnce (ctx_set_hw_reset t) as ∧
    ∀ pre student_id result now mid result' now' post,
      as = pre ++ .submit student_id result now ::
        (mid ++ .submit student_id result' now' :: post) →
      TrackerAction.reset ∉ mid →
      ∀ t₁ t₂, Runs.exec trackerStep (ctx_set_hw_reset t) pre = some t₁ →
        Runs.exec trackerStep t₁ (.submit student_id result now :: mid) = some t₂ →
        (∃ i, accountedTo t₁ student_id = some i ∧ accountedTo t₂ student_id = some i) ∧
        (ctx_record_submission t₂ student_id.bytes result' now').1.toNat
          = (ctx_record_submission t₁ student_id.bytes result now).1.toNat
            + (mid.countP fun a => a.By student_id.str) + 1 := by
  have hsound : Runs.Always trackerStep Sound (ctx_set_hw_reset t) as :=
    Runs.always_of_invariant (sound_reset t) sound_step h
  refine ⟨hsound.imp fun t' ⟨_, _, hrep⟩ => hrep.countedOnce, ?_⟩
  intro pre student_id result now mid result' now' post heq hreset t₁ t₂ ht₁ ht₂
  subst heq
  have hfrom₁ := (Runs.along_append.mp h).2 t₁ ht₁
  obtain ⟨i, hacc₁, hrec₁⟩ :=
    hasRecord_of_submit (hsound pre (List.prefix_append _ _) t₁ ht₁) hfrom₁.1
  obtain ⟨t', hstep, hmid⟩ := (Runs.exec_cons_eq_some trackerStep).mp ht₂
  obtain ⟨hbetween, hrest⟩ := Runs.along_append.mp (hfrom₁.2 t' hstep)
  simp only [trackerStep, Option.some.injEq] at hstep
  rw [hstep] at hrec₁
  have hrec₂ := hrec₁.run hbetween hreset hmid
  have ha₂ := (hrest t₂ hmid).1
  obtain ⟨log, rows, hrep, hi, hmatch, hcount⟩ := id hrec₂
  have hlt := ha₂.2.2.2 _ ((hrep.filled.mem_iff _).mp (List.getElem_mem hi)).1 hmatch
  rw [hcount] at hlt
  obtain ⟨hacc₂, hcount₂⟩ := hrec₂.accounted (usable_of_headD_ne_zero ha₂.1 ha₂.2.1) hlt
    result' now'
  exact ⟨⟨i, hacc₁, hacc₂⟩, hcount₂⟩

/-- The student id `20240123` as the client sends it. -/
def someId : Buf MAX_STUDENT_ID := .ofStr 15 (ascii "20240123")

instance (t : TrackerState) (a : TrackerAction) : Decidable (Accountable t a) := by
  cases a <;> dsimp only [Accountable] <;> infer_instance

/-- A wrong and then an accepted submission of one student. -/
theorem wire_ids_counted_once_two :
    Runs.Always trackerStep CountedOnce (ctx_set_hw_reset .initial)
      [.submit someId GRADE_WA 10, .submit someId GRADE_AC 20] :=
  (wire_ids_counted_once .initial _ (by decide +kernel)).1

/-- Two accepted submissions with an id of sixteen bytes and no NUL make two records of
one student, and one with an empty id is counted with no record in use. -/
theorem wire_ids_counted_twice :
    ¬ Runs.Always trackerStep CountedOnce .initial
      [.submit ⟨ascii "2024012320240123", by decide⟩ GRADE_AC 10,
        .submit ⟨ascii "2024012320240123", by decide⟩ GRADE_AC 20] ∧
    ¬ Runs.Always trackerStep CountedOnce .initial [.submit (.zero _) GRADE_AC 10] := by
  constructor
  · intro h
    exact absurd (h _ (List.prefix_refl _) _ rfl) (by decide +kernel)
  · intro h
    exact absurd (h _ (List.prefix_refl _) _ rfl) (by decide +kernel)

end MiniCi
