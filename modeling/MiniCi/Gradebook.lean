/-
# Rows of the gradebook

`ctx_write_csv` formats a row with `%s` from the `student_id` of a received header, which
is followed in the packed struct by `filename`.  The id is booked under what
`ctx_record_submission` makes of the same sixteen bytes.

A row has the six fields of the header line, and the booked id as its second, exactly for
ids that end inside their field and contain no comma and no line break.
-/
import MiniCi.TrackerTable
import Mathlib.Data.Nat.Digits.Defs

namespace MiniCi

open CStr

/-! ## Fields of a line -/

/-- The separator of the fields of a row. -/
def comma : UInt8 := 44

/-- The end of a line. -/
def newline : UInt8 := 10

/-- A text that can stand in a field. -/
def Plain (p : Bytes) : Prop := ∀ c ∈ p, c ≠ comma ∧ c ≠ newline

instance (p : Bytes) : Decidable (Plain p) := List.decidableBAll _ p

theorem plain_append {p q : Bytes} : Plain (p ++ q) ↔ Plain p ∧ Plain q := List.forall_mem_append

theorem plain_decimal (n : ℕ) : Plain (decimal n) := by
  intro c hc
  obtain ⟨h48, -⟩ := isDigit_of_mem_decimal hc
  constructor <;>
  · rintro rfl
    exact absurd h48 (by decide)

theorem plain_twoDigits (n : ℕ) : Plain (twoDigits n) := by
  unfold twoDigits
  split_ifs
  · exact plain_append.mpr ⟨by decide, plain_decimal n⟩
  · exact plain_decimal n

theorem plain_timestamp (tm : Tm) : Plain (timestamp tm) := by
  have hd : Plain (ascii "-") ∧ Plain (ascii "T") ∧ Plain (ascii ":") := by decide
  simp only [timestamp, plain_append]
  simp only [plain_decimal, plain_twoDigits, hd, and_self]

theorem plain_grade_str (result : GradeResult) : Plain (grade_str result) := by
  cases result <;> decide

theorem length_decimal_le {n k : ℕ} (hk : 0 < k) (h : n < 10 ^ k) : (decimal n).length ≤ k := by
  rw [decimal, List.length_map]
  exact Nat.toDigits_length 10 n k hk h

theorem length_twoDigits_le {n : ℕ} (h : n < 100) : (twoDigits n).length ≤ 2 := by
  unfold twoDigits
  split_ifs with h10
  · have := length_decimal_le one_pos (show n < 10 ^ 1 by omega)
    rw [List.length_append]
    show 1 + _ ≤ 2
    omega
  · exact length_decimal_le two_pos (show n < 10 ^ 2 by omega)

theorem length_timestamp_le (tm : Tm) : (timestamp tm).length ≤ 25 := by
  have hyear := length_decimal_le (by decide) (show tm.year < 10 ^ 10 from tm.year_lt)
  have hmonth := length_twoDigits_le tm.month_lt
  have hday := length_twoDigits_le tm.day_lt
  have hhour := length_twoDigits_le tm.hour_lt
  have hminute := length_twoDigits_le tm.minute_lt
  have hsecond := length_twoDigits_le tm.second_lt
  have hone : (ascii "-").length = 1 ∧ (ascii "T").length = 1 ∧ (ascii ":").length = 1 := by decide
  simp only [timestamp, List.length_append, hone]
  omega

/-! ## The row -/

/-- The fields of a row. -/
def rowFields (tm : Tm) (student_id week_name : Bytes) (result : GradeResult)
    (exec_ms mem_kb : UInt32) : List Bytes :=
  [timestamp tm, str student_id, str week_name, grade_str result, decimal exec_ms.toNat,
    decimal mem_kb.toNat]

/-- The row without its line break. -/
def rowLine (tm : Tm) (student_id week_name : Bytes) (result : GradeResult)
    (exec_ms mem_kb : UInt32) : Bytes :=
  [comma].intercalate (rowFields tm student_id week_name result exec_ms mem_kb)

theorem csvRow_eq (tm : Tm) (student_id week_name : Bytes) (result : GradeResult)
    (exec_ms mem_kb : UInt32) :
    csvRow tm student_id week_name result exec_ms mem_kb
      = rowLine tm student_id week_name result exec_ms mem_kb ++ [newline] := by
  have hcomma : ascii "," = [comma] := by decide
  have hnewline : ascii "\n" = [newline] := by decide
  simp [csvRow, rowLine, rowFields, List.intercalate, hcomma, hnewline]

section

variable {tm : Tm} {student_id week_name : Bytes} {result : GradeResult} {exec_ms mem_kb : UInt32}

/-- A row whose id and week fit their fields fits the buffer. -/
theorem length_csvRow_lt (hid : (str student_id).length ≤ 152)
    (hweek : (str week_name).length < MAX_WEEK_NAME) :
    (csvRow tm student_id week_name result exec_ms mem_kb).length < 512 := by
  have htime := length_timestamp_le tm
  have hgrade : (grade_str result).length ≤ 3 := by cases result <;> decide
  have hexec : (decimal exec_ms.toNat).length ≤ 10 :=
    length_decimal_le (by decide) (lt_of_lt_of_le exec_ms.toNat_lt (by decide))
  have hmem : (decimal mem_kb.toNat).length ≤ 10 :=
    length_decimal_le (by decide) (lt_of_lt_of_le mem_kb.toNat_lt (by decide))
  have hone : (ascii ",").length = 1 ∧ (ascii "\n").length = 1 := by decide
  have h32 : MAX_WEEK_NAME = 32 := rfl
  simp only [csvRow, List.length_append, hone]
  omega

/-- A line splits into one field more than it has commas. -/
theorem length_splitOn (p : Bytes) : (p.splitOn comma).length = p.count comma + 1 := by
  induction p with
  | nil => rfl
  | cons c p ih =>
    rw [List.splitOn] at ih ⊢
    rw [List.splitOnP_cons_eq_if_modifyHead]
    by_cases hc : c = comma
    · subst hc
      simp [ih]
    · simp [hc, ih]

/-- The commas of a row are those between its fields and those of the id. -/
theorem count_rowLine (hweek : Plain (str week_name)) :
    (rowLine tm student_id week_name result exec_ms mem_kb).count comma
      = 5 + (str student_id).count comma := by
  have hzero : ∀ p, Plain p → p.count comma = 0 := fun p hp =>
    List.count_eq_zero.mpr fun hmem => (hp _ hmem).1 rfl
  simp only [rowLine, rowFields, List.intercalate, List.intersperse, List.flatten_cons,
    List.flatten_nil, List.append_nil, List.count_append, hzero _ (plain_timestamp tm),
    hzero _ hweek, hzero _ (plain_grade_str result), hzero _ (plain_decimal _)]
  have hone : [comma].count comma = 1 := by decide
  omega

/-- With a plain id the row splits into its fields. -/
theorem splitOn_rowLine (hid : comma ∉ str student_id) (hweek : Plain (str week_name)) :
    (rowLine tm student_id week_name result exec_ms mem_kb).splitOn comma
      = rowFields tm student_id week_name result exec_ms mem_kb := by
  refine List.splitOn_intercalate comma ?_ (List.cons_ne_nil _ _)
  have hplain : ∀ p, Plain p → comma ∉ p := fun p hp hmem => (hp _ hmem).1 rfl
  simp only [rowFields, List.mem_cons, List.not_mem_nil, or_false, forall_eq_or_imp, forall_eq]
  exact ⟨hplain _ (plain_timestamp tm), hid, hplain _ hweek, hplain _ (plain_grade_str result),
    hplain _ (plain_decimal _), hplain _ (plain_decimal _)⟩

/-- The row is one line iff the id has no line break. -/
theorem newline_not_mem_rowLine (hweek : Plain (str week_name)) :
    newline ∉ rowLine tm student_id week_name result exec_ms mem_kb ↔ newline ∉ str student_id := by
  have hplain : ∀ p, Plain p → newline ∉ p := fun p hp hmem => (hp _ hmem).2 rfl
  have hne : newline ≠ comma := by decide
  simp [rowLine, rowFields, List.intercalate, hplain _ (plain_timestamp tm), hplain _ hweek,
    hplain _ (plain_grade_str result), hplain _ (plain_decimal _), hne]

end

/-! ## The booked id -/

/-- The first loop finds a record with the id. -/
theorem find_student_spec {student_id : Bytes} {records : List StudentRecord} {i : ℕ}
    (h : find_student student_id records = some i) :
    ∃ r, records[i]? = some r ∧ strncmp r.student_id.bytes student_id MAX_STUDENT_ID = 0 := by
  induction records generalizing i with
  | nil => cases h
  | cons r records ih =>
    rw [find_student] at h
    split_ifs at h with hfree hmatch
    · obtain rfl := Option.some.inj h
      exact ⟨r, rfl, hmatch⟩
    · obtain ⟨j, hj, rfl⟩ := Option.map_eq_some_iff.mp h
      exact ih hj

/-- An id that ends inside its field is booked as it is. -/
theorem id_of_locate {records : List StudentRecord} {student_id : Buf MAX_STUDENT_ID}
    (hend : Terminated student_id.bytes) {i : ℕ} {r : StudentRecord}
    (h : locate records student_id.bytes = some (i, r)) : r.id = student_id.str := by
  rw [locate] at h
  split at h
  · -- a record that compares equal
    obtain ⟨r', hr', hmatch⟩ := find_student_spec ‹_›
    rw [hr'] at h
    obtain ⟨-, rfl⟩ := Prod.mk.inj (Option.some.inj h)
    exact (Buf.strncmp_eq_zero_iff _ _).mp hmatch
  · -- a record claimed for the id
    split at h
    · obtain ⟨r', -, hclaim⟩ := Option.map_eq_some_iff.mp h
      obtain ⟨-, rfl⟩ := Prod.mk.inj hclaim
      have hlt := length_str_lt hend
      rw [student_id.length_bytes] at hlt
      show (Buf.ofStr (MAX_STUDENT_ID - 1) student_id.bytes).str = _
      rw [Buf.str_ofStr]
      exact List.take_of_length_le (by omega)
    · cases h

/-- The first submission is booked under the first fifteen bytes of its id. -/
theorem locate_initial (student_id : Bytes) :
    locate TrackerState.initial.students.records student_id
      = some (0, StudentRecord.zero.claim student_id) := rfl

/-! ## A row of its own -/

/-- Whatever the tracker, the gradebook, the grade and a week whose name is plain, if `write`
takes the row whole, `ctx_write_csv` appends one line, which splits into the six fields of the
header line, with the id that the submission is booked under as the second. -/
def ProducesOwnRow (hdr : SubmitHeader) : Prop :=
  ∀ (t : TrackerState) (csv : CsvState) (file : Bytes) (disk : Disk) (result : GradeResult)
    (exec_ms mem_kb : UInt32) (week_name : Bytes) (now : ℤ) (tm : Tm) (written : Option ℕ),
    csv.csv_fd = some file → ValidWeekName week_name → Plain (str week_name) →
    ByteStream.TakesAll 511 written →
    ∃ csv' line booked,
      ctx_write_csv csv disk hdr.fromStudentId result exec_ms mem_kb week_name now tm written
        = some (csv', disk.append file (line ++ [newline])) ∧
      newline ∉ line ∧
      line.splitOn comma = [timestamp tm, booked, str week_name, grade_str result,
        decimal exec_ms.toNat, decimal mem_kb.toNat] ∧
      ∀ i r, locate t.students.records hdr.student_id.bytes = some (i, r) → r.id = booked

/-- What `%s` prints of an id that ends inside its field. -/
theorem str_fromStudentId {hdr : SubmitHeader} (h : Terminated hdr.student_id.bytes) :
    str hdr.fromStudentId = hdr.student_id.str := by
  rw [SubmitHeader.fromStudentId, List.append_assoc, List.append_assoc]
  exact str_append_of_terminated h _

/-- What `%s` prints of an id that does not: the whole field and more. -/
theorem length_str_fromStudentId {hdr : SubmitHeader} (h : ¬ Terminated hdr.student_id.bytes) :
    MAX_STUDENT_ID ≤ (str hdr.fromStudentId).length := by
  rw [SubmitHeader.fromStudentId, List.append_assoc, List.append_assoc,
    str_append_of_not_terminated h, List.length_append, hdr.student_id.length_bytes]
  exact Nat.le_add_right _ _

theorem ownRow_of_id {hdr : SubmitHeader} (hend : Terminated hdr.student_id.bytes)
    (hcomma : comma ∉ hdr.student_id.str) (hnewline : newline ∉ hdr.student_id.str) :
    ProducesOwnRow hdr := by
  intro t csv file disk result exec_ms mem_kb week_name now tm written hfd hvalid hweek hwhole
  have hstr := str_fromStudentId hend
  have hterm : Terminated hdr.fromStudentId := by
    simp only [SubmitHeader.fromStudentId, List.append_assoc]
    exact List.mem_append_left _ hend
  have hlt := length_str_lt hend
  rw [hdr.student_id.length_bytes] at hlt
  have h16 : MAX_STUDENT_ID = 16 := rfl
  have hfits : (csvRow tm hdr.fromStudentId week_name result exec_ms mem_kb).length < 512 := by
    refine length_csvRow_lt ?_ hvalid.2
    rw [hstr]
    exact le_trans (le_of_lt hlt) (by omega)
  rw [← hstr] at hcomma hnewline
  refine ⟨{ csv with total_records := csv.total_records + 1, last_write_ts := now },
    rowLine tm hdr.fromStudentId week_name result exec_ms mem_kb, hdr.student_id.str, ?_,
    (newline_not_mem_rowLine hweek).mpr hnewline, ?_, fun i r hloc => id_of_locate hend hloc⟩
  · rw [ctx_write_csv, hfd]
    obtain ⟨more, hmore, hle⟩ := hwhole
    obtain rfl := Option.mem_def.mp hmore
    simp only [if_pos (And.intro hterm hfits)]
    rw [List.take_of_length_le (by omega), csvRow_eq]
  · rw [splitOn_rowLine hcomma hweek, rowFields, hstr]

theorem id_of_ownRow {hdr : SubmitHeader} (h : ProducesOwnRow hdr) :
    Terminated hdr.student_id.bytes ∧ comma ∉ hdr.student_id.str ∧
      newline ∉ hdr.student_id.str := by
  have hplain : Plain (str (ascii "week_1")) := by decide
  obtain ⟨csv', line, booked, hwrite, hline, hsplit, hbooked⟩ :=
    h .initial ⟨0, 0, some [], []⟩ [] (fun _ => none) GRADE_AC 0 0 (ascii "week_1") 0
      someTm (some 511) rfl (by decide) hplain (by decide)
  -- the line written is the formatted row
  have hrow : rowLine someTm hdr.fromStudentId (ascii "week_1") GRADE_AC 0 0 = line := by
    rw [ctx_write_csv] at hwrite
    simp only at hwrite
    split_ifs at hwrite with hfits
    have hdisk := congrFun (Prod.mk.inj (Option.some.inj hwrite)).2 []
    simp only [Disk.append, Function.update_self, Option.some.injEq] at hdisk
    rw [List.take_of_length_le (le_of_lt hfits.2), csvRow_eq] at hdisk
    exact List.append_cancel_right (List.append_cancel_left hdisk)
  -- six fields leave no comma to the id, and the second field is the id
  have hcount := congrArg List.length hsplit
  rw [length_splitOn, ← hrow, count_rowLine hplain] at hcount
  have hcomma : comma ∉ str hdr.fromStudentId := by
    rw [← List.count_eq_zero]
    simpa using hcount
  rw [← hrow, splitOn_rowLine hcomma hplain, rowFields] at hsplit
  have hid : str hdr.fromStudentId = booked := by simpa using hsplit
  have hnewline : newline ∉ str hdr.fromStudentId :=
    (newline_not_mem_rowLine hplain).mp (hrow ▸ hline)
  -- it is booked under at most fifteen bytes
  have hend : Terminated hdr.student_id.bytes := by
    by_contra hnot
    have hlong := length_str_fromStudentId hnot
    have hstored := hbooked 0 _ (locate_initial _)
    have hshort : ((StudentRecord.zero.claim hdr.student_id.bytes).id).length
        ≤ MAX_STUDENT_ID - 1 := by
      show (Buf.ofStr (MAX_STUDENT_ID - 1) hdr.student_id.bytes).str.length ≤ _
      rw [Buf.str_ofStr, List.length_take]
      exact Nat.min_le_left _ _
    rw [hstored, ← hid] at hshort
    have h16 : MAX_STUDENT_ID = 16 := rfl
    omega
  rw [str_fromStudentId hend] at hcomma hnewline
  exact ⟨hend, hcomma, hnewline⟩

/-- **A submission produces its own row iff its id ends inside its field and is plain.**  For
every received header, the row of the submission is one line with the six fields of the
header line and the booked id as the second, for every grade, time, week and tracker, if and
only if there is a NUL in the sixteen bytes of `student_id` and neither a comma nor a line
break before it. -/
theorem produces_own_row_iff (hdr : SubmitHeader) :
    ProducesOwnRow hdr ↔
      Terminated hdr.student_id.bytes ∧ comma ∉ hdr.student_id.str ∧
        newline ∉ hdr.student_id.str := by
  constructor
  · exact id_of_ownRow
  · rintro ⟨hend, hcomma, hnewline⟩
    exact ownRow_of_id hend hcomma hnewline

/-- An id with a comma in it, and one that runs on into the file name. -/
theorem not_produces_own_row :
    ¬ ProducesOwnRow { someHeader with student_id := .ofStr 15 (ascii "1,AC") } ∧
    ¬ ProducesOwnRow { someHeader with student_id := .strncpy 16 (ascii "2024012320240123") } := by
  constructor <;>
  · intro h
    exact absurd (id_of_ownRow h) (by decide)

end MiniCi
