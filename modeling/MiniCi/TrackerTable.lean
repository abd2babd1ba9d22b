/-
# What a submission does to the student table

`ctx_record_submission` scans the array `students` twice.  As long as the records in
use fill a front part `rows` of the array (`Filled`), the scans are a lookup by id in
`rows` and, for a new id, the position behind `rows`.  `record_cases` says once what
the function can do: update the record of a known student, claim the next record for
a new one, or nothing at all when the table is full.  Everything proved about runs of
submissions is derived from it.
-/
import MiniCi.ServerCtx
import Mathlib.Data.List.Nodup

namespace MiniCi

open CStr

/-! ## Ids -/

/-- An id the scans can work with: its first byte is no NUL and there is one among the
sixteen the field has. -/
def UsableId (student_id : Bytes) : Prop :=
  str student_id ≠ [] ∧ (str student_id).length < MAX_STUDENT_ID

/-- The student a record belongs to. -/
def StudentRecord.id (r : StudentRecord) : Bytes := r.student_id.str

/-- The ids of some records, in order. -/
abbrev ids (rows : List StudentRecord) : List Bytes := rows.map StudentRecord.id

theorem isFree_iff (r : StudentRecord) : r.IsFree ↔ r.id = [] := by
  constructor
  · exact str_of_headD_eq_zero
  · intro h
    by_contra hne
    rw [StudentRecord.id, Buf.str, str_of_headD_ne_zero hne] at h
    cases h

/-- Comparing a stored id with a usable one is comparing strings. -/
theorem strncmp_id_eq_zero_iff {r : StudentRecord} {student_id : Bytes}
    (hr : r.id.length < MAX_STUDENT_ID) (hid : UsableId student_id) :
    strncmp r.student_id.bytes student_id MAX_STUDENT_ID = 0 ↔ r.id = str student_id := by
  rw [strncmp_eq_zero_iff]
  show r.id.take MAX_STUDENT_ID = _ ↔ _
  rw [List.take_of_length_le hr.le, List.take_of_length_le hid.2.le]

/-- A usable id is stored in full. -/
theorem id_claim {student_id : Bytes} (hid : UsableId student_id) (r : StudentRecord) :
    (r.claim student_id).id = str student_id := by
  have hlen := hid.2
  show (Buf.ofStr (MAX_STUDENT_ID - 1) student_id).str = _
  rw [Buf.str_ofStr, List.take_of_length_le (by omega)]

@[simp] theorem id_enter_bump (r : StudentRecord) (result : GradeResult) (now : ℤ) :
    ((r.bump now).enter result).id = r.id := by
  unfold StudentRecord.enter
  split_ifs <;> rfl

/-- Updating a record leaves the ids as they are. -/
theorem ids_set {rows : List StudentRecord} {i : ℕ} (hi : i < rows.length) {r : StudentRecord}
    (hr : r.id = rows[i].id) : ids (rows.set i r) = ids rows := by
  have hi' : i < (ids rows).length := by simpa using hi
  have hget : (ids rows)[i] = rows[i].id := List.getElem_map _
  rw [ids, List.map_set, hr, ← hget, List.set_getElem_self]

/-- Distinct rows belong to distinct students. -/
theorem id_ne_of_ne {rows : List StudentRecord} (hnodup : (ids rows).Nodup) {i j : ℕ}
    (hi : i < rows.length) (hj : j < rows.length) (hij : i ≠ j) : rows[j].id ≠ rows[i].id := by
  intro h
  have hi' : i < (ids rows).length := by simpa using hi
  have hj' : j < (ids rows).length := by simpa using hj
  have hget : (ids rows)[j] = (ids rows)[i] := by
    simpa only [ids, List.getElem_map] using h
  exact hij (hnodup.getElem_inj_iff.mp hget).symm

/-! ## The table -/

/-- The records in use are the front part `rows` of the array, and each carries a
usable id. -/
structure Filled (records rows : List StudentRecord) : Prop where
  split : ∃ free, records = rows ++ free ∧ ∀ r ∈ free, r.IsFree
  used : ∀ r ∈ rows, r.id ≠ [] ∧ r.id.length < MAX_STUDENT_ID

theorem filled_zero : Filled StudentTable.zero.records [] :=
  ⟨⟨List.replicate MAX_STUDENTS .zero, rfl, fun _ hr => (List.mem_replicate.mp hr).2 ▸ rfl⟩,
    by simp⟩

theorem Filled.length_le {records rows : List StudentRecord} (h : Filled records rows) :
    rows.length ≤ records.length := by
  obtain ⟨free, rfl, -⟩ := h.split
  simp

/-- Updating a record in use changes that row. -/
theorem Filled.set {records rows : List StudentRecord} (h : Filled records rows) {i : ℕ}
    (hi : i < rows.length) {r : StudentRecord} (hr : r.id = rows[i].id) :
    Filled (records.set i r) (rows.set i r) := by
  obtain ⟨free, rfl, hfree⟩ := h.split
  refine ⟨⟨free, List.set_append_left i r hi, hfree⟩, fun r' hr' => ?_⟩
  rcases List.mem_or_eq_of_mem_set hr' with hmem | rfl
  · exact h.used r' hmem
  · rw [hr]
    exact h.used _ (List.getElem_mem hi)

/-- Writing a used record behind the rows adds a row. -/
theorem Filled.concat {records rows : List StudentRecord} (h : Filled records rows)
    (hroom : rows.length < records.length) {r : StudentRecord} (hne : r.id ≠ [])
    (hlen : r.id.length < MAX_STUDENT_ID) : Filled (records.set rows.length r) (rows ++ [r]) := by
  obtain ⟨free, rfl, hfree⟩ := h.split
  cases free with
  | nil => simp at hroom
  | cons f free =>
    -- the first unused record becomes the new row
    refine ⟨⟨free, ?_, fun r' hr' => hfree r' (List.mem_cons_of_mem _ hr')⟩, fun r' hr' => ?_⟩
    · simp
    · rcases List.mem_append.mp hr' with hmem | hmem
      · exact h.used r' hmem
      · rw [List.mem_singleton.mp hmem]
        exact ⟨hne, hlen⟩

/-- The rows are determined by the array. -/
theorem Filled.mem_iff {records rows : List StudentRecord} (h : Filled records rows)
    (r : StudentRecord) : r ∈ rows ↔ r ∈ records ∧ ¬ r.IsFree := by
  obtain ⟨free, rfl, hfree⟩ := h.split
  constructor
  · intro hr
    exact ⟨List.mem_append_left _ hr, fun hf => (h.used r hr).1 ((isFree_iff r).mp hf)⟩
  · rintro ⟨hr, hnf⟩
    exact (List.mem_append.mp hr).resolve_right fun hmem => hnf (hfree r hmem)

/-! ## The scans -/

/-- The first loop over rows none of which belongs to the student stops behind them. -/
theorem find_student_eq_none {rows free : List StudentRecord} {student_id : Bytes}
    (hid : UsableId student_id) (hused : ∀ r ∈ rows, r.id ≠ [] ∧ r.id.length < MAX_STUDENT_ID)
    (hfree : ∀ r ∈ free, r.IsFree) (hnew : str student_id ∉ ids rows) :
    find_student student_id (rows ++ free) = none := by
  -- along the loop; the first unused record ends it
  induction rows with
  | nil =>
    cases free with
    | nil => rfl
    | cons f free => exact if_pos (hfree f List.mem_cons_self)
  | cons r rows ih =>
    obtain ⟨hne, hlen⟩ := hused r List.mem_cons_self
    simp only [ids, List.map_cons, List.mem_cons, not_or] at hnew
    rw [List.cons_append, find_student, if_neg (mt (isFree_iff r).mp hne),
      if_neg (mt (strncmp_id_eq_zero_iff hlen hid).mp (Ne.symm hnew.1)),
      ih (fun r' hr' => hused r' (List.mem_cons_of_mem _ hr')) hnew.2]
    rfl

/-- The first loop finds the row of a known student. -/
theorem find_student_eq_some {rows free : List StudentRecord} {student_id : Bytes}
    (hid : UsableId student_id) (hused : ∀ r ∈ rows, r.id ≠ [] ∧ r.id.length < MAX_STUDENT_ID)
    (hnodup : (ids rows).Nodup) {i : ℕ} (hi : i < rows.length)
    (hmatch : rows[i].id = str student_id) :
    find_student student_id (rows ++ free) = some i := by
  induction rows generalizing i with
  | nil => cases hi
  | cons r rows ih =>
    obtain ⟨hne, hlen⟩ := hused r List.mem_cons_self
    simp only [ids, List.map_cons, List.nodup_cons] at hnodup
    rw [List.cons_append, find_student, if_neg (mt (isFree_iff r).mp hne)]
    cases i with
    | zero => exact if_pos ((strncmp_id_eq_zero_iff hlen hid).mpr hmatch)
    | succ i =>
      have hi' : i < rows.length := by simpa using hi
      -- the ids are distinct, so no earlier row stops the loop
      have hother : r.id ≠ str student_id := fun h =>
        hnodup.1 (List.mem_map.mpr ⟨rows[i], List.getElem_mem hi', by rw [h]; exact hmatch⟩)
      rw [if_neg (mt (strncmp_id_eq_zero_iff hlen hid).mp hother),
        ih (fun r' hr' => hused r' (List.mem_cons_of_mem _ hr')) hnodup.2 hi' hmatch]
      rfl

/-- The second loop stops at the first record behind the rows. -/
theorem find_free_append {rows free : List StudentRecord}
    (hused : ∀ r ∈ rows, r.id ≠ [] ∧ r.id.length < MAX_STUDENT_ID)
    (hfree : ∀ r ∈ free, r.IsFree) :
    find_free (rows ++ free) = if free = [] then none else some rows.length := by
  induction rows with
  | nil =>
    cases free with
    | nil => rfl
    | cons f free => exact if_pos (hfree f List.mem_cons_self)
  | cons r rows ih =>
    rw [List.cons_append, find_free,
      if_neg (mt (isFree_iff r).mp (hused r List.mem_cons_self).1),
      ih fun r' hr' => hused r' (List.mem_cons_of_mem _ hr')]
    split <;> rfl

/-! ## The cases of a submission -/

section

variable {t : TrackerState} {rows : List StudentRecord} {student_id : Bytes}

/-- The slot of a known student. -/
theorem locate_of_known (h : Filled t.students.records rows) (hnodup : (ids rows).Nodup)
    (hid : UsableId student_id) {i : ℕ} (hi : i < rows.length)
    (hmatch : rows[i].id = str student_id) :
    locate t.students.records student_id = some (i, rows[i]) := by
  obtain ⟨free, hrec, -⟩ := h.split
  rw [locate, hrec, find_student_eq_some hid h.used hnodup hi hmatch]
  simp [List.getElem?_append_left hi]

/-- The slot claimed for a new student while there is room. -/
theorem locate_of_room (h : Filled t.students.records rows) (hid : UsableId student_id)
    (hnew : str student_id ∉ ids rows) (hroom : rows.length < MAX_STUDENTS) :
    ∃ r : StudentRecord,
      locate t.students.records student_id = some (rows.length, r.claim student_id) := by
  obtain ⟨free, hrec, hfree⟩ := h.split
  have hlen := t.students.length_records
  rw [hrec, List.length_append] at hlen
  cases free with
  | nil => simp only [List.length_nil] at hlen; omega
  | cons f free =>
    refine ⟨f, ?_⟩
    rw [locate, hrec, find_student_eq_none hid h.used hfree hnew, find_free_append h.used hfree]
    simp

/-- A new student finds no slot in a full table. -/
theorem locate_of_full (h : Filled t.students.records rows) (hid : UsableId student_id)
    (hnew : str student_id ∉ ids rows) (hfull : rows.length = MAX_STUDENTS) :
    locate t.students.records student_id = none := by
  obtain ⟨free, hrec, hfree⟩ := h.split
  have hlen := t.students.length_records
  rw [hrec, List.length_append] at hlen
  have hnil : free = [] := List.length_eq_zero_iff.mp (by omega)
  rw [locate, hrec, find_student_eq_none hid h.used hfree hnew, find_free_append h.used hfree,
    if_pos hnil]

/-- The state after the record `r` in slot `i` has been updated with a submission. -/
def TrackerState.book (t : TrackerState) (i : ℕ) (r : StudentRecord) (result : GradeResult)
    (now : ℤ) : TrackerState :=
  { t with
    students := t.students.set i ((r.bump now).enter result)
    submitted_count := if r.NewlySolved result then t.submitted_count + 1 else t.submitted_count }

theorem ctx_record_submission_eq {i : ℕ} {r : StudentRecord}
    (h : locate t.students.records student_id = some (i, r)) (result : GradeResult) (now : ℤ) :
    ctx_record_submission t student_id result now
      = ((r.bump now).currentCount, t.book i r result now) := by
  rw [ctx_record_submission, h]
  rfl

/-- **The cases of a submission.**  With a usable id, a submission updates the row of
its student, or adds a row for a new student, or is turned away by a full table. -/
theorem record_cases (h : Filled t.students.records rows) (hnodup : (ids rows).Nodup)
    (hid : UsableId student_id) (result : GradeResult) (now : ℤ) :
    (∃ (i : ℕ) (hi : i < rows.length), rows[i].id = str student_id ∧
      locate t.students.records student_id = some (i, rows[i]) ∧
      ctx_record_submission t student_id result now
        = ((rows[i].bump now).currentCount, t.book i rows[i] result now) ∧
      Filled (t.book i rows[i] result now).students.records
        (rows.set i ((rows[i].bump now).enter result))) ∨
    (∃ r : StudentRecord, str student_id ∉ ids rows ∧ rows.length < MAX_STUDENTS ∧
      locate t.students.records student_id = some (rows.length, r.claim student_id) ∧
      ctx_record_submission t student_id result now
        = (((r.claim student_id).bump now).currentCount,
            t.book rows.length (r.claim student_id) result now) ∧
      Filled (t.book rows.length (r.claim student_id) result now).students.records
        (rows ++ [((r.claim student_id).bump now).enter result])) ∨
    (str student_id ∉ ids rows ∧ rows.length = MAX_STUDENTS ∧
      ctx_record_submission t student_id result now = (0, t)) := by
  have hlen := t.students.length_records
  by_cases hknown : str student_id ∈ ids rows
  · -- the first loop finds the row of the student
    obtain ⟨i, hi, hmatch⟩ := List.mem_iff_getElem.mp hknown
    rw [List.length_map] at hi
    rw [List.getElem_map] at hmatch
    have hloc := locate_of_known h hnodup hid hi hmatch
    exact Or.inl ⟨i, hi, hmatch, hloc, ctx_record_submission_eq hloc result now,
      h.set hi (id_enter_bump _ _ _)⟩
  · right
    rcases Nat.lt_or_ge rows.length MAX_STUDENTS with hroom | hfull
    · -- the second loop finds an unused record
      obtain ⟨r, hloc⟩ := locate_of_room h hid hknown hroom
      refine Or.inl ⟨r, hknown, hroom, hloc, ctx_record_submission_eq hloc result now,
        h.concat (hlen ▸ hroom) ?_ ?_⟩
      · rw [id_enter_bump, id_claim hid]
        exact hid.1
      · rw [id_enter_bump, id_claim hid]
        exact hid.2
    · -- neither loop finds anything
      have hle := h.length_le
      have heq : rows.length = MAX_STUDENTS := by omega
      refine Or.inr ⟨hknown, heq, ?_⟩
      rw [ctx_record_submission, locate_of_full h hid hknown heq]

end

end MiniCi
