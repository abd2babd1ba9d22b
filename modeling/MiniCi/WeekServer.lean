/-
# The main thread and the workers around a week switch

`ctx_set_hw` and the code of `handle_client` and `build_and_send_result` that depends on
the week are a handful of critical sections.  A `WeekServer` is the state these sections
share, with the position of every thread between two of them; a `WeekAction` is one
section, together with what its environment answered (`compare_output`, the clock, the
file system, the compiled program).  An interleaving is a list of `WeekAction`s.

While a worker is between `check` and `write_csv` it holds `hw_lock` for reading, so the
write section `set_hw` has to wait for it.
-/
import MiniCi.ServerCtx
import MiniCi.Runs

namespace MiniCi

open CStr

/-! ## Results -/

/-- What `handle_client` passes to `build_and_send_result`.  `expected_path` records which
file `compare_output` was given, when the grade came from it. -/
structure Graded where
  hdr : SubmitHeader
  grade : GradeResult
  exec_ms : UInt32
  mem_kb : UInt32
  expected_path : Option Bytes
  deriving DecidableEq

/-- The `ResultHeader` that `build_and_send_result` sends, with the counters of `t`. -/
def resultHeader (task_hw : Buf MAX_WEEK_NAME) (g : Graded) (my_submit_count : UInt16)
    (t : TrackerState) : ResultHeader :=
  { magic := MAGIC_NUMBER
    version := PROTO_VERSION
    pkt_type := RES_RESULT
    header_size := UInt16.ofNat sizeofResultHeader
    student_id := .strncpy MAX_STUDENT_ID g.hdr.student_id.bytes
    filename := .strncpy MAX_FILENAME g.hdr.filename.bytes
    result := g.grade.code
    exec_time_ms := g.exec_ms
    memory_kb := g.mem_kb
    submitted_count := t.submitted_count
    total_students := t.total_students
    student_submit_count := my_submit_count
    week_name := .strncpy MAX_WEEK_NAME task_hw.bytes }

/-- The grade `handle_client` makes of the answer of `compare_output`. -/
def gradeOfDiff (diff_res : ℤ) : GradeResult :=
  if diff_res = 1 then GRADE_AC
  else if diff_res = 0 then GRADE_WA
  else GRADE_AC

/-! ## State -/

/-- How far `ctx_set_hw` is: `written` after its `hw_lock` section, `cleared` after its
`tracker_lock` section. -/
inductive Switching where
  | idle
  | written (week_name : Bytes)
  | cleared (week_name : Bytes)
  deriving DecidableEq

/-- Where a worker is.  `matched` and `recorded` hold `hw_lock` for reading.  `checked`
remembers whether the submission was recorded, and how many weeks had been reset by
then. -/
inductive Worker where
  | idle
  | started (task_hw : Buf MAX_WEEK_NAME)
  | comparing (task_hw : Buf MAX_WEEK_NAME) (hdr : SubmitHeader) (exec_ms mem_kb : UInt32)
      (expected_path : Bytes)
  | graded (task_hw : Buf MAX_WEEK_NAME) (g : Graded)
  | matched (task_hw : Buf MAX_WEEK_NAME) (g : Graded)
  | recorded (task_hw : Buf MAX_WEEK_NAME) (g : Graded) (my_submit_count : UInt16)
  | checked (task_hw : Buf MAX_WEEK_NAME) (g : Graded) (my_submit_count : UInt16)
      (isRecorded : Bool) (resets : ℕ)
  deriving DecidableEq

/-- The week a worker holds `hw_lock` for reading in. -/
def Worker.holding : Worker → Option (Buf MAX_WEEK_NAME)
  | .matched task_hw _ => some task_hw
  | .recorded task_hw _ _ => some task_hw
  | _ => none

/-- The week of a worker that has not graded its submission yet. -/
def Worker.starting : Worker → Option (Buf MAX_WEEK_NAME)
  | .started task_hw => some task_hw
  | _ => none

/-- The week of a worker that is about to answer, whether its submission was recorded, and
how many weeks had been reset when it was checked. -/
def Worker.answering : Worker → Option (Buf MAX_WEEK_NAME × Bool × ℕ)
  | .checked task_hw _ _ isRecorded resets => some (task_hw, isRecorded, resets)
  | _ => none

/-- A reply on its way to a client, and the expected file its grade came from. -/
structure Reply where
  header : ResultHeader
  expected_path : Option Bytes
  deriving DecidableEq

/-- The context and `n` workers.  The last five fields are a history that no code reads:
the week the tracker was last reset for, the weeks it has been reset for, the replies
sent, and the submissions passed to `ctx_record_submission` and to `ctx_write_csv`, with
their week. -/
structure WeekServer (n : ℕ) where
  hw : HwState
  tracker : TrackerState
  csv : CsvState
  disk : Disk
  switching : Switching
  workers : Fin n → Worker
  tracker_week : Buf MAX_WEEK_NAME
  switched : List (Buf MAX_WEEK_NAME)
  replies : List Reply
  booked : List (Buf MAX_WEEK_NAME × Graded)
  rows : List (Buf MAX_WEEK_NAME × Graded)

/-- The server after `ctx_init`. -/
def WeekServer.initial (n : ℕ) (csv : CsvState) (disk : Disk) : WeekServer n :=
  { hw := .initial, tracker := .initial, csv, disk, switching := .idle
    workers := fun _ => .idle
    tracker_week := HwState.initial.current_hw
    switched := [], replies := [], booked := [], rows := [] }

variable {n : ℕ}

/-- Nobody holds `hw_lock` for reading. -/
def WeekServer.Unheld (s : WeekServer n) : Prop := ∀ i, (s.workers i).holding = none

instance (s : WeekServer n) : Decidable s.Unheld := inferInstanceAs (Decidable (∀ _, _))

/-- Worker `i` gets to `w`. -/
def WeekServer.move (s : WeekServer n) (i : Fin n) (w : Worker) : WeekServer n :=
  { s with workers := Function.update s.workers i w }

/-! ## Steps -/

/-- One critical section, or one step of a worker between two of them. -/
inductive WeekAction (n : ℕ) where
  /-- `ctx_set_hw`, the `hw_lock` section -/
  | set_hw (week_name : Bytes)
  /-- `ctx_set_hw`, the `tracker_lock` section -/
  | reset
  /-- `ctx_set_hw`, the `csv_lock` section -/
  | open_csv (exists_ opened : Bool) (written : Option ℕ)
  /-- `CMD_SET_STUDENTS`, the `tracker_lock` section -/
  | set_students (count : UInt16)
  /-- `handle_client` copies `current_hw` to `task_hw` -/
  | snapshot (i : Fin n)
  /-- `handle_client` returns without a result -/
  | leave (i : Fin n)
  /-- the program ran; `handle_client` copies `ans_path` to `expected_path` -/
  | expect (i : Fin n) (hdr : SubmitHeader) (exec_ms mem_kb : UInt32)
  /-- `compare_output` returns -/
  | compare (i : Fin n) (diff_res : ℤ)
  /-- a grade without a comparison -/
  | fail (i : Fin n) (hdr : SubmitHeader) (grade : GradeResult) (exec_ms mem_kb : UInt32)
  /-- `build_and_send_result` takes `hw_lock` and compares the weeks -/
  | check (i : Fin n)
  /-- `ctx_record_submission` -/
  | record (i : Fin n) (now : ℤ)
  /-- `ctx_write_csv`, and `hw_lock` is released -/
  | write_csv (i : Fin n) (now : ℤ) (tm : Tm) (written : Option ℕ)
  /-- `build_and_send_result` reads the counters and sends -/
  | reply (i : Fin n)

/-- One step of the server.  A row whose formatting is undefined behaviour ends the run. -/
def weekStep (s : WeekServer n) : WeekAction n → Option (WeekServer n)
  | .set_hw week_name =>
    if s.switching = .idle then
      if ValidWeekName week_name then
        -- the write lock waits for the workers that hold the read lock
        if s.Unheld then
          some { s with hw := ctx_set_hw_paths week_name, switching := .written week_name }
        else none
      -- an invalid name returns before any lock is taken
      else some s
    else none
  | .reset =>
    match s.switching with
    | .written week_name =>
      some { s with
        tracker := ctx_set_hw_reset s.tracker
        switching := .cleared week_name
        tracker_week := s.hw.current_hw
        switched := s.switched ++ [s.hw.current_hw] }
    | _ => none
  | .open_csv exists_ opened written =>
    match s.switching with
    | .cleared week_name =>
      let (csv, disk) := ctx_set_hw_csv week_name exists_ opened written s.csv s.disk
      some { s with csv, disk, switching := .idle }
    | _ => none
  | .set_students count =>
    if s.switching = .idle then
      some { s with tracker := { s.tracker with total_students := count } }
    else none
  | .snapshot i =>
    match s.workers i with
    | .idle => some (s.move i (.started (.strncpy MAX_WEEK_NAME s.hw.current_hw.bytes)))
    | _ => none
  | .leave i =>
    match s.workers i with
    | .started _ => some (s.move i .idle)
    | _ => none
  | .expect i hdr exec_ms mem_kb =>
    match s.workers i with
    | .started task_hw => some (s.move i (.comparing task_hw hdr exec_ms mem_kb s.hw.ans_path))
    | _ => none
  | .compare i diff_res =>
    match s.workers i with
    | .comparing task_hw hdr exec_ms mem_kb expected_path =>
      some (s.move i (.graded task_hw
        ⟨hdr, gradeOfDiff diff_res, exec_ms, mem_kb, some expected_path⟩))
    | _ => none
  | .fail i hdr grade exec_ms mem_kb =>
    match s.workers i with
    | .started task_hw =>
      if grade = GRADE_CE ∨ grade = GRADE_TLE ∨ grade = GRADE_RE then
        some (s.move i (.graded task_hw ⟨hdr, grade, exec_ms, mem_kb, none⟩))
      else none
    | _ => none
  | .check i =>
    match s.workers i with
    | .graded task_hw g =>
      -- on a match `hw_lock` is kept until the row is written
      if strncmp s.hw.current_hw.bytes task_hw.bytes MAX_WEEK_NAME = 0 then
        some (s.move i (.matched task_hw g))
      else some (s.move i (.checked task_hw g 0 false s.switched.length))
    | _ => none
  | .record i now =>
    match s.workers i with
    | .matched task_hw g =>
      let (my_submit_count, tracker) :=
        ctx_record_submission s.tracker g.hdr.student_id.bytes g.grade now
      some { s.move i (.recorded task_hw g my_submit_count) with
        tracker, booked := s.booked ++ [(task_hw, g)] }
    | _ => none
  | .write_csv i now tm written =>
    match s.workers i with
    | .recorded task_hw g my_submit_count =>
      (ctx_write_csv s.csv s.disk g.hdr.fromStudentId g.grade g.exec_ms g.mem_kb task_hw.bytes now
          tm written).map fun (csv, disk) =>
        { s.move i (.checked task_hw g my_submit_count true s.switched.length) with
          csv, disk, rows := s.rows ++ [(task_hw, g)] }
    | _ => none
  | .reply i =>
    match s.workers i with
    | .checked task_hw g my_submit_count _ _ =>
      some { s.move i .idle with
        replies := s.replies ++
          [⟨resultHeader task_hw g my_submit_count s.tracker, g.expected_path⟩] }
    | _ => none

/-! ## What a step can do -/

section Cases

variable {s s' : WeekServer n} {i : Fin n}

theorem set_hw_cases {week_name : Bytes} (h : weekStep s (.set_hw week_name) = some s') :
    s.switching = .idle ∧
      (s' = s ∨ ValidWeekName week_name ∧ s.Unheld ∧
        s' = { s with hw := ctx_set_hw_paths week_name, switching := .written week_name }) := by
  simp only [weekStep] at h
  split_ifs at h with hidle hvalid hunheld
  · exact ⟨hidle, Or.inr ⟨hvalid, hunheld, (Option.some.inj h).symm⟩⟩
  · exact ⟨hidle, Or.inl (Option.some.inj h).symm⟩

theorem reset_cases (h : weekStep s .reset = some s') :
    ∃ week_name, s.switching = .written week_name ∧
      s' = { s with
        tracker := ctx_set_hw_reset s.tracker
        switching := .cleared week_name
        tracker_week := s.hw.current_hw
        switched := s.switched ++ [s.hw.current_hw] } := by
  simp only [weekStep] at h
  split at h
  · exact ⟨_, ‹_›, (Option.some.inj h).symm⟩
  · cases h

theorem open_csv_cases {exists_ opened : Bool} {written : Option ℕ}
    (h : weekStep s (.open_csv exists_ opened written) = some s') :
    ∃ week_name, s.switching = .cleared week_name ∧
      s' = { s with
        csv := (ctx_set_hw_csv week_name exists_ opened written s.csv s.disk).1
        disk := (ctx_set_hw_csv week_name exists_ opened written s.csv s.disk).2
        switching := .idle } := by
  simp only [weekStep] at h
  split at h
  · exact ⟨_, ‹_›, (Option.some.inj h).symm⟩
  · cases h

theorem set_students_cases {count : UInt16} (h : weekStep s (.set_students count) = some s') :
    s.switching = .idle ∧
      s' = { s with tracker := { s.tracker with total_students := count } } := by
  simp only [weekStep] at h
  split_ifs at h with hidle
  exact ⟨hidle, (Option.some.inj h).symm⟩

theorem snapshot_cases (h : weekStep s (.snapshot i) = some s') :
    s.workers i = .idle ∧
      s' = s.move i (.started (.strncpy MAX_WEEK_NAME s.hw.current_hw.bytes)) := by
  simp only [weekStep] at h
  split at h
  · exact ⟨‹_›, (Option.some.inj h).symm⟩
  · cases h

theorem leave_cases (h : weekStep s (.leave i) = some s') :
    ∃ task_hw, s.workers i = .started task_hw ∧ s' = s.move i .idle := by
  simp only [weekStep] at h
  split at h
  · exact ⟨_, ‹_›, (Option.some.inj h).symm⟩
  · cases h

theorem expect_cases {hdr : SubmitHeader} {exec_ms mem_kb : UInt32}
    (h : weekStep s (.expect i hdr exec_ms mem_kb) = some s') :
    ∃ task_hw, s.workers i = .started task_hw ∧
      s' = s.move i (.comparing task_hw hdr exec_ms mem_kb s.hw.ans_path) := by
  simp only [weekStep] at h
  split at h
  · exact ⟨_, ‹_›, (Option.some.inj h).symm⟩
  · cases h

theorem compare_cases {diff_res : ℤ} (h : weekStep s (.compare i diff_res) = some s') :
    ∃ task_hw hdr exec_ms mem_kb expected_path,
      s.workers i = .comparing task_hw hdr exec_ms mem_kb expected_path ∧
      s' = s.move i (.graded task_hw
        ⟨hdr, gradeOfDiff diff_res, exec_ms, mem_kb, some expected_path⟩) := by
  simp only [weekStep] at h
  split at h
  · exact ⟨_, _, _, _, _, ‹_›, (Option.some.inj h).symm⟩
  · cases h

theorem fail_cases {hdr : SubmitHeader} {grade : GradeResult} {exec_ms mem_kb : UInt32}
    (h : weekStep s (.fail i hdr grade exec_ms mem_kb) = some s') :
    ∃ task_hw, s.workers i = .started task_hw ∧
      s' = s.move i (.graded task_hw ⟨hdr, grade, exec_ms, mem_kb, none⟩) := by
  simp only [weekStep] at h
  split at h
  · split_ifs at h
    exact ⟨_, ‹_›, (Option.some.inj h).symm⟩
  · cases h

theorem check_cases (h : weekStep s (.check i) = some s') :
    ∃ task_hw g, s.workers i = .graded task_hw g ∧
      (s.hw.current_hw.str = task_hw.str ∧ s' = s.move i (.matched task_hw g) ∨
        s.hw.current_hw.str ≠ task_hw.str ∧
          s' = s.move i (.checked task_hw g 0 false s.switched.length)) := by
  simp only [weekStep] at h
  split at h
  · rename_i task_hw g hworker
    refine ⟨task_hw, g, hworker, ?_⟩
    split_ifs at h with hsame
    · exact Or.inl ⟨(Buf.strncmp_eq_zero_iff _ _).mp hsame, (Option.some.inj h).symm⟩
    · exact Or.inr ⟨mt (Buf.strncmp_eq_zero_iff _ _).mpr hsame, (Option.some.inj h).symm⟩
  · cases h

theorem record_cases_week {now : ℤ} (h : weekStep s (.record i now) = some s') :
    ∃ task_hw g, s.workers i = .matched task_hw g ∧
      s' = { s.move i (.recorded task_hw g
          (ctx_record_submission s.tracker g.hdr.student_id.bytes g.grade now).1) with
        tracker := (ctx_record_submission s.tracker g.hdr.student_id.bytes g.grade now).2
        booked := s.booked ++ [(task_hw, g)] } := by
  simp only [weekStep] at h
  split at h
  · exact ⟨_, _, ‹_›, (Option.some.inj h).symm⟩
  · cases h

theorem write_csv_cases {now : ℤ} {tm : Tm} {written : Option ℕ}
    (h : weekStep s (.write_csv i now tm written) = some s') :
    ∃ task_hw g my_submit_count csv disk, s.workers i = .recorded task_hw g my_submit_count ∧
      ctx_write_csv s.csv s.disk g.hdr.fromStudentId g.grade g.exec_ms g.mem_kb task_hw.bytes now tm
        written = some (csv, disk) ∧
      s' = { s.move i (.checked task_hw g my_submit_count true s.switched.length) with
        csv, disk, rows := s.rows ++ [(task_hw, g)] } := by
  simp only [weekStep] at h
  split at h
  · obtain ⟨⟨csv, disk⟩, hcsv, rfl⟩ := Option.map_eq_some_iff.mp h
    exact ⟨_, _, _, csv, disk, ‹_›, hcsv, rfl⟩
  · cases h

theorem reply_cases (h : weekStep s (.reply i) = some s') :
    ∃ task_hw g my_submit_count isRecorded resets,
      s.workers i = .checked task_hw g my_submit_count isRecorded resets ∧
      s' = { s.move i .idle with
        replies := s.replies ++
          [⟨resultHeader task_hw g my_submit_count s.tracker, g.expected_path⟩] } := by
  simp only [weekStep] at h
  split at h
  · exact ⟨_, _, _, _, _, ‹_›, (Option.some.inj h).symm⟩
  · cases h

end Cases

end MiniCi
