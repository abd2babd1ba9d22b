/-
# The server context (`server_ctx.h`, `server/server_ctx.c`)

The global `ServerContext` is grouped by the lock that protects it: `HwState` by
`hw_lock`, `TrackerState` by `tracker_lock`, `CsvState` by `csv_lock`.  Each function
below is one critical section of the source; `ctx_set_hw` is three of them.

The paths, which always hold a terminated string, are given by that string; `current_hw`
and the `student_id` of a record or a packet are character arrays.
-/
import MiniCi.ByteStream
import MiniCi.Protocol

namespace MiniCi

open CStr Wire

/-! ## Constants and helpers -/

def MAX_STUDENTS : ℕ := 512
def UINT16_MAX : ℕ := 65535
def UINT32_MAX : ℕ := 4294967295

/-- `grade_str`. -/
def grade_str : GradeResult → Bytes
  | GRADE_AC => ascii "AC"
  | GRADE_WA => ascii "WA"
  | GRADE_TLE => ascii "TLE"
  | GRADE_RE => ascii "RE"
  | GRADE_CE => ascii "CE"

/-! ## State -/

/-- `StudentRecord`. -/
structure StudentRecord where
  student_id : Buf MAX_STUDENT_ID
  submitted : UInt8
  best_result : UInt8
  submit_count : UInt32
  last_submit_ts : ℤ
  deriving DecidableEq

/-- A record as `memset` leaves it. -/
def StudentRecord.zero : StudentRecord := ⟨Buf.zero MAX_STUDENT_ID, 0, 0, 0, 0⟩

/-- The array `students`. -/
structure StudentTable where
  records : List StudentRecord
  length_records : records.length = MAX_STUDENTS

/-- The array as `memset` leaves it. -/
def StudentTable.zero : StudentTable :=
  ⟨List.replicate MAX_STUDENTS .zero, List.length_replicate⟩

/-- `students[i] = r`. -/
def StudentTable.set (s : StudentTable) (i : ℕ) (r : StudentRecord) : StudentTable :=
  ⟨s.records.set i r, by rw [List.length_set, s.length_records]⟩

/-- What `tracker_lock` protects. -/
structure TrackerState where
  students : StudentTable
  total_students : UInt16
  submitted_count : UInt16

/-- What `hw_lock` protects. -/
structure HwState where
  current_hw : Buf MAX_WEEK_NAME
  ans_path : Bytes
  submit_dir : Bytes
  deriving DecidableEq

/-- `CsvState`.  `csv_fd` is the file the descriptor is open on, `none` for `-1`. -/
structure CsvState where
  total_records : UInt32
  last_write_ts : ℤ
  csv_fd : Option Bytes
  csv_path : Bytes
  deriving DecidableEq

/-- The contents of the regular files the server writes to, by path. -/
abbrev Disk := Bytes → Option Bytes

/-- Append to a file, creating it when it is missing (`O_CREAT | O_APPEND`). -/
def Disk.append (d : Disk) (path text : Bytes) : Disk :=
  Function.update d path (some ((d path).getD [] ++ text))

/-! ## `ctx_set_hw` -/

/-- The check at the top of `ctx_set_hw`. -/
def ValidWeekName (week_name : Bytes) : Prop :=
  (str week_name).length ≠ 0 ∧ (str week_name).length < MAX_WEEK_NAME

instance (week_name : Bytes) : Decidable (ValidWeekName week_name) :=
  inferInstanceAs (Decidable (_ ∧ _))

/-- `snprintf(ans_path, 256, "%s_ans.txt", week_name)`. -/
def ansPath (week_name : Bytes) : Bytes := snprintf 256 (str week_name ++ ascii "_ans.txt")

/-- `snprintf(submit_dir, 256, "%s/%s", SUBMISSIONS_DIR, week_name)`. -/
def submitDir (week_name : Bytes) : Bytes :=
  snprintf 256 (ascii "submissions" ++ ascii "/" ++ str week_name)

/-- `snprintf(csv_path, 256, "%s_results.csv", week_name)`. -/
def csvPath (week_name : Bytes) : Bytes := snprintf 256 (str week_name ++ ascii "_results.csv")

/-- A name that fits into `MAX_WEEK_NAME` fits into the paths made of it. -/
theorem csvPath_eq {week_name : Bytes} (h : (str week_name).length < MAX_WEEK_NAME) :
    csvPath week_name = str week_name ++ ascii "_results.csv" := by
  apply snprintf_eq_self
  have hmax : MAX_WEEK_NAME = 32 := rfl
  have htext : (ascii "_results.csv").length = 12 := by decide
  rw [List.length_append]
  omega

theorem ansPath_eq {week_name : Bytes} (h : (str week_name).length < MAX_WEEK_NAME) :
    ansPath week_name = str week_name ++ ascii "_ans.txt" := by
  apply snprintf_eq_self
  have hmax : MAX_WEEK_NAME = 32 := rfl
  have htext : (ascii "_ans.txt").length = 8 := by decide
  rw [List.length_append]
  omega

theorem submitDir_eq {week_name : Bytes} (h : (str week_name).length < MAX_WEEK_NAME) :
    submitDir week_name = ascii "submissions/" ++ str week_name := by
  have hdir : ascii "submissions" ++ ascii "/" = ascii "submissions/" := by decide
  unfold submitDir
  rw [hdir]
  apply snprintf_eq_self
  have hmax : MAX_WEEK_NAME = 32 := rfl
  have htext : (ascii "submissions/").length = 12 := by decide
  rw [List.length_append]
  omega

/-- The header row of a gradebook file. -/
def csvHeader : Bytes :=
  ascii "Timestamp,Student_ID,Assignment_Week,Result,ExecTime_ms,Memory_KB\n"

/-- What `write` takes of a text: all or only a part, or nothing if it fails. -/
def takenBy (written : Option ℕ) (text : Bytes) : Bytes :=
  match written with
  | none => []
  | some more => text.take (more + 1)

/-- `ctx_set_hw`, step 1: the `hw_lock` section replaces the week and its paths. -/
def ctx_set_hw_paths (week_name : Bytes) : HwState :=
  { current_hw := Buf.ofStr (MAX_WEEK_NAME - 1) week_name
    ans_path := ansPath week_name
    submit_dir := submitDir week_name }

/-- `ctx_set_hw`, step 3: the `tracker_lock` section forgets the submissions; the
number of registered students stays. -/
def ctx_set_hw_reset (t : TrackerState) : TrackerState :=
  { t with students := .zero, submitted_count := 0 }

/-- `ctx_set_hw`, step 4: the `csv_lock` section closes the old gradebook file and opens
the one of the new week.  `exists_`, `opened` and `written` are the answers of
`access`, `open` and `write`, which is not looked at. -/
def ctx_set_hw_csv (week_name : Bytes) (exists_ opened : Bool) (written : Option ℕ)
    (csv : CsvState) (disk : Disk) : CsvState × Disk :=
  let path := csvPath week_name
  if opened then
    ({ total_records := 0, last_write_ts := 0, csv_fd := some path, csv_path := path },
      disk.append path (if exists_ then [] else takenBy written csvHeader))
  else
    ({ csv with csv_fd := none, csv_path := path }, disk)

/-! ## `ctx_record_submission` -/

/-- The loops take a record for unused when its id starts with a NUL. -/
def StudentRecord.IsFree (r : StudentRecord) : Prop := r.student_id.bytes.headD 0 = 0

instance (r : StudentRecord) : Decidable r.IsFree := inferInstanceAs (Decidable (_ = _))

/-- The first loop: the index of the student's record, looked for up to the first unused
one. -/
def find_student (student_id : Bytes) : List StudentRecord → Option ℕ
  | [] => none
  | r :: rs =>
    if r.IsFree then none
    else if strncmp r.student_id.bytes student_id MAX_STUDENT_ID = 0 then some 0
    else (find_student student_id rs).map (· + 1)

/-- The second loop: the index of the first unused record. -/
def find_free : List StudentRecord → Option ℕ
  | [] => none
  | r :: rs => if r.IsFree then some 0 else (find_free rs).map (· + 1)

/-- What the second loop makes of an unused record. -/
def StudentRecord.claim (r : StudentRecord) (student_id : Bytes) : StudentRecord :=
  { r with
    student_id := Buf.ofStr (MAX_STUDENT_ID - 1) student_id
    submitted := 0
    best_result := GRADE_WA.code
    submit_count := 0 }

/-- The record `found` points to before it is updated, and its index. -/
def locate (records : List StudentRecord) (student_id : Bytes) : Option (ℕ × StudentRecord) :=
  match find_student student_id records with
  | some i => records[i]?.map fun r => (i, r)
  | none =>
    match find_free records with
    | some i => records[i]?.map fun r => (i, r.claim student_id)
    | none => none

/-- Count the attempt, saturating at `UINT32_MAX`. -/
def StudentRecord.bump (r : StudentRecord) (now : ℤ) : StudentRecord :=
  { r with
    submit_count :=
      if r.submit_count.toNat < UINT32_MAX then r.submit_count + 1 else r.submit_count
    last_submit_ts := now }

/-- Whether this submission is the student's first accepted one. -/
def StudentRecord.NewlySolved (r : StudentRecord) (result : GradeResult) : Prop :=
  result = GRADE_AC ∧ r.submitted = 0

instance (r : StudentRecord) (result : GradeResult) : Decidable (r.NewlySolved result) :=
  inferInstanceAs (Decidable (_ ∧ _))

/-- Enter the grade of this submission. -/
def StudentRecord.enter (r : StudentRecord) (result : GradeResult) : StudentRecord :=
  if r.NewlySolved result then
    { r with submitted := 1, best_result := GRADE_AC.code }
  else if result ≠ GRADE_AC ∧ r.best_result ≠ GRADE_AC.code then
    { r with best_result := result.code }
  else r

/-- `current_count`: the attempts of a record as a `uint16_t`. -/
def StudentRecord.currentCount (r : StudentRecord) : UInt16 :=
  if r.submit_count.toNat > UINT16_MAX then UInt16.ofNat UINT16_MAX else r.submit_count.toUInt16

/-- `ctx_record_submission`: the `tracker_lock` section.  The answer is `0` when the
student is new and the table is full. -/
def ctx_record_submission (t : TrackerState) (student_id : Bytes) (result : GradeResult)
    (now : ℤ) : UInt16 × TrackerState :=
  match locate t.students.records student_id with
  | none => (0, t)
  | some (i, r) =>
    ((r.bump now).currentCount,
      { t with
        students := t.students.set i ((r.bump now).enter result)
        submitted_count :=
          if r.NewlySolved result then t.submitted_count + 1 else t.submitted_count })

/-! ## `ctx_write_csv` -/

/-- The fields of a `struct tm` that the row shows, in the ranges `localtime` keeps.
`year` is the calendar year and `month` runs from 1. -/
structure Tm where
  year : ℕ
  month : ℕ
  day : ℕ
  hour : ℕ
  minute : ℕ
  second : ℕ
  year_lt : year < 10000000000
  month_lt : month < 100
  day_lt : day < 100
  hour_lt : hour < 100
  minute_lt : minute < 100
  second_lt : second < 100

/-- A conversion of `strftime` to two digits. -/
def twoDigits (n : ℕ) : Bytes := if n < 10 then ascii "0" ++ decimal n else decimal n

/-- `strftime` with `"%Y-%m-%dT%H:%M:%S"`. -/
def timestamp (tm : Tm) : Bytes :=
  decimal tm.year ++ ascii "-" ++ twoDigits tm.month ++ ascii "-" ++ twoDigits tm.day ++ ascii "T"
    ++ twoDigits tm.hour ++ ascii ":" ++ twoDigits tm.minute ++ ascii ":" ++ twoDigits tm.second

/-- The text `"%s,%s,%s,%s,%u,%u\n"` of a row. -/
def csvRow (tm : Tm) (student_id week_name : Bytes) (result : GradeResult)
    (exec_ms mem_kb : UInt32) : Bytes :=
  timestamp tm ++ ascii "," ++ str student_id ++ ascii "," ++ str week_name ++ ascii ","
    ++ grade_str result ++ ascii "," ++ decimal exec_ms.toNat ++ ascii "," ++ decimal mem_kb.toNat
    ++ ascii "\n"

/-- `ctx_write_csv`: format the row and append it in the `csv_lock` section.  `written`
is the answer of `write`; a row is counted also if only a part is taken.  `none` is undefined
behaviour: an id that runs past the end of the object it stands in, or a row that does not fit
the `line[512]` that `write` then reads `len` bytes of. -/
def ctx_write_csv (csv : CsvState) (disk : Disk) (student_id : Bytes) (result : GradeResult)
    (exec_ms mem_kb : UInt32) (week_name : Bytes) (now : ℤ) (tm : Tm)
    (written : Option ℕ) : Option (CsvState × Disk) :=
  match csv.csv_fd with
  | none => some (csv, disk)
  | some file =>
    if Terminated student_id ∧
        (csvRow tm student_id week_name result exec_ms mem_kb).length < 512 then
      match written with
      | none => some (csv, disk)
      | some more =>
        some ({ csv with total_records := csv.total_records + 1, last_write_ts := now },
          disk.append file
            ((csvRow tm student_id week_name result exec_ms mem_kb).take (more + 1)))
    else none

/-! ## Starting up -/

/-- `ctx_init`: everything zeroed, then switched to `week_1`. -/
def TrackerState.initial : TrackerState :=
  ctx_set_hw_reset { students := .zero, total_students := 0, submitted_count := 0 }

def HwState.initial : HwState := ctx_set_hw_paths (ascii "week_1")

/-! ## Sample values -/

/-- A header with the id and the file name of a submission and nothing in it to check. -/
def someHeader : SubmitHeader :=
  { magic := MAGIC_NUMBER, version := PROTO_VERSION, pkt_type := PKT_SUBMIT, header_size := 160
    student_id := .ofStr 15 (ascii "20240123"), filename := .ofStr 127 (ascii "hello.c")
    file_size := 60, checksum := 0 }

/-- A context without a gradebook file. -/
def noCsv : CsvState := { total_records := 0, last_write_ts := 0, csv_fd := none, csv_path := [] }

/-- A moment in the first week. -/
def someTm : Tm := ⟨2024, 3, 4, 10, 0, 0, by decide, by decide, by decide, by decide, by decide,
  by decide⟩

end MiniCi
