/-
# The gradebook files over the lives of the server

A gradebook file outlives the server that has opened it: `ctx_set_hw` of `server/server_ctx.c`
opens it again after every switch back to its week and every restart, writes the header line if
there is no file yet, and `ctx_write_csv` appends.  The server may be killed at any time and
started again, with any number of submissions under way.  Of a row only a part may be written, which
`ctx_write_csv` does not look at; and a program that has been run may write to the file, whose
descriptor it has inherited.

As long as the header line goes out where a file is new, the file of a week is the header line and
all that has been written to it, in all those lives, in order.  If these are whole rows and no
program has written, it is the header line and the rows; and with ids and week names that can stand
in a field the table read off the file is just that.
-/
import MiniCi.Gradebook
import MiniCi.JobQueue
import MiniCi.TextTable
import MiniCi.WeekGradebook

namespace MiniCi

open ByteStream CStr Runs

/-! ## Lives of the server -/

/-- What a row is made of. -/
structure FiledRow where
  tm : Tm
  student_id : Bytes
  week_name : Bytes
  result : GradeResult
  exec_ms : UInt32
  mem_kb : UInt32

/-- The fields of the row. -/
def FiledRow.fields (r : FiledRow) : List Bytes :=
  rowFields r.tm r.student_id r.week_name r.result r.exec_ms r.mem_kb

/-- The id and the week can stand in a field. -/
def FiledRow.IsPlain (r : FiledRow) : Prop := Plain (str r.student_id) ∧ Plain (str r.week_name)

instance (r : FiledRow) : Decidable r.IsPlain := inferInstanceAs (Decidable (_ ∧ _))

/-- The text of the row. -/
def FiledRow.text (r : FiledRow) : Bytes :=
  csvRow r.tm r.student_id r.week_name r.result r.exec_ms r.mem_kb

/-- What has been written to a file: what a `write` has taken of a row, or the text of a program. -/
inductive Filed where
  | row (r : FiledRow) (taken : ℕ)
  | stray (text : Bytes)

def Filed.text : Filed → Bytes
  | .row r taken => r.text.take taken
  | .stray text => text

/-- A row that has been written to its end. -/
def Filed.IsWhole : Filed → Prop
  | .row r taken => r.text.length ≤ taken
  | .stray _ => False

instance : ∀ x : Filed, Decidable x.IsWhole
  | .row _ _ => inferInstanceAs (Decidable (_ ≤ _))
  | .stray _ => .isFalse not_false

/-- The row, if it is one. -/
def Filed.row? : Filed → Option FiledRow
  | .row r _ => some r
  | .stray _ => none

/-- A server, and a history that no code reads: what has been written, with the file. -/
structure Lives (n : ℕ) where
  server : WeekServer n
  filed : List (Bytes × Filed)

/-- The server runs, or it is killed, if it runs, and started; or a program that it has run writes
to a gradebook file. -/
inductive LifeAction (n : ℕ) where
  | run (a : WeekAction n)
  | start (exists_ opened : Bool) (written : Option ℕ)
  | program (file text : Bytes)

variable {n : ℕ}

/-- Before the server is started for the first time. -/
def Lives.initial (n : ℕ) (disk : Disk) : Lives n := ⟨.initial n noCsv disk, []⟩

/-- The row that `ctx_write_csv` appends, how much of it, and the file. -/
def WeekServer.files (s : WeekServer n) : WeekAction n → List (Bytes × Filed)
  | .write_csv i _ tm written =>
    match s.workers i, s.csv.csv_fd, written with
    | .recorded task_hw g _, some file, some more =>
      [(file, .row ⟨tm, g.hdr.fromStudentId, task_hw.bytes, g.grade, g.exec_ms, g.mem_kb⟩
        (more + 1))]
    | _, _, _ => []
  | _ => []

/-- A step of the server, or its start, or a `write` of a program.  What is on the disk stays. -/
def lifeStep (s : Lives n) : LifeAction n → Option (Lives n)
  | .run a => (weekStep s.server a).map fun server => ⟨server, s.filed ++ s.server.files a⟩
  | .start exists_ opened written =>
    some ⟨.booted n exists_ opened written s.server.disk, s.filed⟩
  | .program file text =>
    if s.server.disk file ≠ none then
      some ⟨{ s.server with disk := s.server.disk.append file text },
        s.filed ++ [(file, .stray text)]⟩
    else none

/-- The answer of `access` is right, and the header line goes out if the file is new. -/
def HeaderGoesOut (disk : Disk) (week_name : Bytes) (exists_ opened : Bool) (written : Option ℕ) :
    Prop :=
  opened = true → (exists_ = true ↔ disk (csvPath week_name) ≠ none) ∧
    (exists_ = false → TakesAll csvHeader.length written)

instance (disk : Disk) (week_name : Bytes) (exists_ opened : Bool) (written : Option ℕ) :
    Decidable (HeaderGoesOut disk week_name exists_ opened written) :=
  inferInstanceAs (Decidable (opened = true → (exists_ = true ↔ disk (csvPath week_name) ≠ none) ∧
    (exists_ = false → TakesAll csvHeader.length written)))

/-- Wherever a gradebook file is opened the header line goes out. -/
def HeadersGoOut (s : Lives n) : LifeAction n → Prop
  | .run (.open_csv exists_ opened written) =>
    ∀ week_name ∈ s.server.switching.target,
      HeaderGoesOut s.server.disk week_name exists_ opened written
  | .start exists_ opened written =>
    HeaderGoesOut s.server.disk (ascii "week_1") exists_ opened written
  | _ => True

/-! ## The files -/

/-- What has been written to a file. -/
def filedText (filed : List (Bytes × Filed)) (file : Bytes) : Bytes :=
  (filed.filter fun x => x.1 = file).flatMap fun x => x.2.text

/-- The rows that have been written to a file. -/
def rowsOf (file : Bytes) (filed : List (Bytes × Filed)) : List (List Bytes) :=
  ((filed.filter fun x => x.1 = file).filterMap fun x => x.2.row?).map FiledRow.fields

/-- The rows as text. -/
def rowsText (rows : List (List Bytes)) : Bytes := TextTable.render comma newline rows

/-- The table read off a gradebook file. -/
def gradebookTable (content : Bytes) : List (List Bytes) := TextTable.table comma newline content

/-- The fields of the header line. -/
def headerFields : List Bytes :=
  [ascii "Timestamp", ascii "Student_ID", ascii "Assignment_Week", ascii "Result",
    ascii "ExecTime_ms", ascii "Memory_KB"]

/-- What is in the gradebook files, which the server has found as `before`, with `text` of each
written since: in one that has been there, and in one that has not. -/
structure FilesHold (before disk : Disk) (text : Bytes → Bytes) : Prop where
  old : ∀ file content, before file = some content → disk file = some (content ++ text file)
  new : ∀ file, before file = none →
    disk file = none ∧ text file = [] ∨ disk file = some (csvHeader ++ text file)

/-- What is read off the gradebook files, if the rows in them are plain. -/
structure FilesReadBack (before disk : Disk) (filed : List (Bytes × Filed)) : Prop where
  old : ∀ file content content', before file = some content → TextTable.Closed newline content →
    disk file = some content' →
    gradebookTable content' = gradebookTable content ++ rowsOf file filed
  new : ∀ file content, before file = none → disk file = some content →
    gradebookTable content = headerFields :: rowsOf file filed

/-- The gradebook files hold what has been written to them; rows, if these are written to their end
and no program writes; and these rows are read back if they are plain. -/
structure Survive (before disk : Disk) (filed : List (Bytes × Filed)) : Prop where
  holds : FilesHold before disk (filedText filed)
  rows : (∀ x ∈ filed, x.2.IsWhole) →
    FilesHold before disk fun file => rowsText (rowsOf file filed)
  readBack : (∀ x ∈ filed, x.2.IsWhole ∧ ∀ r ∈ x.2.row?, r.IsPlain) →
    FilesReadBack before disk filed

/-! ## Reading back -/

section ReadingBack

variable {before disk : Disk} {filed : List (Bytes × Filed)} {file : Bytes}

theorem text_eq_row (r : FiledRow) : r.text = TextTable.row comma newline r.fields := csvRow_eq ..

theorem csvHeader_eq_row : csvHeader = TextTable.row comma newline headerFields := by
  decide +kernel

theorem FiledRow.fields_ne_nil (r : FiledRow) : r.fields ≠ [] := List.cons_ne_nil _ _

theorem FiledRow.IsPlain.fields {r : FiledRow} (h : r.IsPlain) :
    ∀ field ∈ r.fields, comma ∉ field ∧ newline ∉ field := by
  have hfields : ∀ field ∈ r.fields, Plain field := by
    simp only [FiledRow.fields, rowFields, List.forall_mem_cons, List.not_mem_nil, false_implies,
      implies_true, and_true]
    exact ⟨plain_timestamp _, h.1, h.2, plain_grade_str _, plain_decimal _, plain_decimal _⟩
  exact fun field hmem => ⟨fun hc => (hfields field hmem _ hc).1 rfl,
    fun hc => (hfields field hmem _ hc).2 rfl⟩

/-- Whole rows are the text of their table. -/
theorem filedText_of_whole (hwhole : ∀ x ∈ filed, x.2.IsWhole) (file : Bytes) :
    filedText filed file = rowsText (rowsOf file filed) := by
  have hpart : ∀ l : List (Bytes × Filed), (∀ x ∈ l, x.2.IsWhole) →
      (l.flatMap fun x => x.2.text) =
        rowsText ((l.filterMap fun x => x.2.row?).map FiledRow.fields) := by
    intro l hl
    induction l with
    | nil => rfl
    | cons x l ih =>
      obtain ⟨hx, hrest⟩ := List.forall_mem_cons.mp hl
      obtain ⟨_, ⟨r, taken⟩ | ⟨text⟩⟩ := x
      · have htext : (Filed.row r taken).text = r.text := List.take_of_length_le hx
        rw [List.flatMap_cons, htext, ih hrest, text_eq_row]
        rfl
      · exact hx.elim
  exact hpart _ fun x hx => hwhole x (List.mem_of_mem_filter hx)

/-- **The rows are read back** behind whatever is closed. -/
theorem gradebookTable_append (hplain : ∀ x ∈ filed, ∀ r ∈ x.2.row?, r.IsPlain) {content : Bytes}
    (hclosed : TextTable.Closed newline content) :
    gradebookTable (content ++ rowsText (rowsOf file filed))
      = gradebookTable content ++ rowsOf file filed := by
  have hmem : ∀ fields ∈ rowsOf file filed, ∃ r : FiledRow, r.IsPlain ∧ r.fields = fields := by
    intro fields hfields
    obtain ⟨r, hr, rfl⟩ := List.mem_map.mp hfields
    obtain ⟨x, hx, hrow⟩ := List.mem_filterMap.mp hr
    exact ⟨r, hplain x (List.mem_of_mem_filter hx) r hrow, rfl⟩
  apply TextTable.table_append_render (by decide) hclosed
  · intro fields hfields
    obtain ⟨r, -, rfl⟩ := hmem fields hfields
    exact r.fields_ne_nil
  · intro fields hfields
    obtain ⟨r, hr, rfl⟩ := hmem fields hfields
    exact hr.fields

theorem FilesHold.readBack (h : FilesHold before disk fun file => rowsText (rowsOf file filed))
    (hplain : ∀ x ∈ filed, ∀ r ∈ x.2.row?, r.IsPlain) : FilesReadBack before disk filed := by
  constructor
  · intro file content content' hbefore hclosed hdisk
    obtain rfl := Option.some.inj (hdisk.symm.trans (h.old file content hbefore))
    exact gradebookTable_append hplain hclosed
  · intro file content hbefore hdisk
    rcases h.new file hbefore with ⟨hnone, -⟩ | hsome
    · rw [hnone] at hdisk
      cases hdisk
    · obtain rfl := Option.some.inj (hdisk.symm.trans hsome)
      have hclosed : TextTable.Closed newline csvHeader := by
        rw [csvHeader_eq_row]
        exact TextTable.closed_append_row [] headerFields
      have hheader : gradebookTable csvHeader = [headerFields] := by
        decide +kernel
      rw [gradebookTable_append hplain hclosed, hheader]
      rfl

/-- What holds of the text of the files holds of their rows. -/
theorem FilesHold.survive (h : FilesHold before disk (filedText filed)) :
    Survive before disk filed := by
  have hrows : (∀ x ∈ filed, x.2.IsWhole) →
      FilesHold before disk fun file => rowsText (rowsOf file filed) := by
    intro hwhole
    rw [← funext (filedText_of_whole hwhole)]
    exact h
  exact ⟨h, hrows, fun hall =>
    (hrows fun x hx => (hall x hx).1).readBack fun x hx => (hall x hx).2⟩

end ReadingBack

/-! ## What a step does to the files -/

section Steps

variable {before disk : Disk} {filed : List (Bytes × Filed)} {file : Bytes}

theorem filedText_concat_self (filed : List (Bytes × Filed)) (file : Bytes) (x : Filed) :
    filedText (filed ++ [(file, x)]) file = filedText filed file ++ x.text := by
  simp [filedText]

theorem filedText_concat_of_ne {file' : Bytes} (hne : file' ≠ file) (x : Filed) :
    filedText (filed ++ [(file, x)]) file' = filedText filed file' := by
  simp [filedText, Ne.symm hne]

/-- Something is written to a file that is there. -/
theorem FilesHold.append (h : FilesHold before disk (filedText filed)) (hopen : disk file ≠ none)
    (x : Filed) :
    FilesHold before (disk.append file x.text) (filedText (filed ++ [(file, x)])) := by
  constructor
  · intro file' content hbefore
    have hdisk := h.old file' content hbefore
    by_cases heq : file' = file
    · subst heq
      rw [Disk.append, Function.update_self, hdisk, filedText_concat_self, Option.getD_some,
        List.append_assoc]
    · rw [Disk.append, Function.update_of_ne heq, filedText_concat_of_ne heq, hdisk]
  · intro file' hbefore
    have hdisk := h.new file' hbefore
    by_cases heq : file' = file
    · subst heq
      rcases hdisk with ⟨hnone, -⟩ | hsome
      · exact absurd hnone hopen
      · right
        rw [Disk.append, Function.update_self, hsome, filedText_concat_self, Option.getD_some,
          List.append_assoc]
    · rw [Disk.append, Function.update_of_ne heq, filedText_concat_of_ne heq]
      exact hdisk

/-- No file goes away. -/
theorem append_ne_none {file' : Bytes} (h : disk file' ≠ none) (text : Bytes) :
    disk.append file text file' ≠ none := by
  by_cases heq : file' = file
  · subst heq
    rw [Disk.append, Function.update_self]
    exact Option.some_ne_none _
  · rwa [Disk.append, Function.update_of_ne heq]

/-- The file of a week is opened. -/
theorem FilesHold.open_csv {text : Bytes → Bytes} (h : FilesHold before disk text)
    {week_name : Bytes} {exists_ opened : Bool} {written : Option ℕ}
    (hgo : HeaderGoesOut disk week_name exists_ opened written) (csv : CsvState) :
    FilesHold before (ctx_set_hw_csv week_name exists_ opened written csv disk).2 text ∧
      ∀ file ∈ (ctx_set_hw_csv week_name exists_ opened written csv disk).1.csv_fd,
        (ctx_set_hw_csv week_name exists_ opened written csv disk).2 file ≠ none := by
  cases opened with
  | false => exact ⟨h, fun _ hfile => nomatch hfile⟩
  | true =>
    obtain ⟨haccess, hheader⟩ := hgo rfl
    have hopen : ∀ file ∈ some (csvPath week_name), ∀ text,
        disk.append (csvPath week_name) text file ≠ none := by
      rintro _ ⟨rfl⟩ text
      rw [Disk.append, Function.update_self]
      exact Option.some_ne_none _
    cases exists_ with
    | true =>
      -- the file has been there, and nothing is added
      have hsame : disk.append (csvPath week_name) [] = disk := by
        obtain ⟨content, hcontent⟩ := Option.ne_none_iff_exists'.mp (haccess.mp rfl)
        rw [Disk.append, hcontent, Option.getD_some, List.append_nil, ← hcontent]
        exact Function.update_eq_self _ _
      refine ⟨?_, fun file hfile => hopen file hfile _⟩
      show FilesHold before (disk.append (csvPath week_name) []) text
      rwa [hsame]
    | false =>
      obtain ⟨more, hmore, hle⟩ := hheader rfl
      obtain rfl := Option.mem_def.mp hmore
      have hwhole : takenBy (some more) csvHeader = csvHeader := List.take_of_length_le hle
      have hnone : disk (csvPath week_name) = none := by
        by_contra hne
        exact Bool.false_ne_true (haccess.mpr hne)
      refine ⟨?_, fun file hfile => hopen file hfile _⟩
      show FilesHold before (disk.append (csvPath week_name) (takenBy (some more) csvHeader)) text
      rw [hwhole]
      constructor
      · intro file content hbefore
        have hdisk := h.old file content hbefore
        have hne : file ≠ csvPath week_name := by
          rintro rfl
          rw [hnone] at hdisk
          cases hdisk
        rw [Disk.append, Function.update_of_ne hne, hdisk]
      · intro file hbefore
        by_cases heq : file = csvPath week_name
        · subst heq
          right
          rcases h.new _ hbefore with ⟨-, htext⟩ | hsome
          · rw [Disk.append, Function.update_self, hnone, htext]
            rfl
          · rw [hnone] at hsome
            cases hsome
        · rw [Disk.append, Function.update_of_ne heq]
          exact h.new file hbefore

/-- The files hold what they should, and what is open is there. -/
structure FilesInv (before : Disk) (s : Lives n) : Prop where
  holds : FilesHold before s.server.disk (filedText s.filed)
  opened : ∀ file ∈ s.server.csv.csv_fd, s.server.disk file ≠ none

theorem filesInv_initial (before : Disk) : FilesInv before (Lives.initial n before) := by
  refine ⟨⟨fun file content hbefore => ?_, fun file hbefore => Or.inl ⟨hbefore, rfl⟩⟩,
    fun _ hfile => nomatch hfile⟩
  show before file = some (content ++ [])
  rw [List.append_nil, hbefore]

/-- A step of the server that has nothing to do with the gradebook. -/
theorem FilesInv.frame {s : Lives n} (h : FilesInv before s) {server : WeekServer n}
    (hcsv : server.csv = s.server.csv) (hdisk : server.disk = s.server.disk) :
    FilesInv before ⟨server, s.filed ++ []⟩ := by
  rw [List.append_nil]
  refine ⟨?_, ?_⟩
  · show FilesHold before server.disk (filedText s.filed)
    rw [hdisk]
    exact h.holds
  · show ∀ file ∈ server.csv.csv_fd, server.disk file ≠ none
    rw [hcsv, hdisk]
    exact h.opened

theorem FilesInv.run {s : Lives n} (h : FilesInv before s) {a : WeekAction n}
    (hgo : HeadersGoOut s (.run a)) {server : WeekServer n}
    (hstep : weekStep s.server a = some server) :
    FilesInv before ⟨server, s.filed ++ s.server.files a⟩ := by
  cases a with
  | set_hw week_name =>
    obtain ⟨-, rfl | ⟨-, -, rfl⟩⟩ := set_hw_cases hstep
    · exact h.frame rfl rfl
    · exact h.frame rfl rfl
  | reset =>
    obtain ⟨week_name, -, rfl⟩ := reset_cases hstep
    exact h.frame rfl rfl
  | open_csv exists_ opened written =>
    obtain ⟨week_name, hcleared, rfl⟩ := open_csv_cases hstep
    have htarget := hgo week_name (by rw [hcleared]; rfl)
    obtain ⟨hholds, hopen⟩ := h.holds.open_csv htarget s.server.csv
    exact ⟨(List.append_nil s.filed).symm ▸ hholds, hopen⟩
  | set_students count =>
    obtain ⟨-, rfl⟩ := set_students_cases hstep
    exact h.frame rfl rfl
  | snapshot i =>
    obtain ⟨-, rfl⟩ := snapshot_cases hstep
    exact h.frame rfl rfl
  | leave i =>
    obtain ⟨task_hw, -, rfl⟩ := leave_cases hstep
    exact h.frame rfl rfl
  | expect i hdr exec_ms mem_kb =>
    obtain ⟨task_hw, -, rfl⟩ := expect_cases hstep
    exact h.frame rfl rfl
  | compare i diff_res =>
    obtain ⟨task_hw, hdr, exec_ms, mem_kb, expected_path, -, rfl⟩ := compare_cases hstep
    exact h.frame rfl rfl
  | fail i hdr grade exec_ms mem_kb =>
    obtain ⟨task_hw, -, rfl⟩ := fail_cases hstep
    exact h.frame rfl rfl
  | check i =>
    obtain ⟨task_hw, g, -, ⟨-, rfl⟩ | ⟨-, rfl⟩⟩ := check_cases hstep
    · exact h.frame rfl rfl
    · exact h.frame rfl rfl
  | record i now =>
    obtain ⟨task_hw, g, -, rfl⟩ := record_cases_week hstep
    exact h.frame rfl rfl
  | write_csv i now tm written =>
    obtain ⟨task_hw, g, count, csv, disk, hworker, hcsv, rfl⟩ := write_csv_cases hstep
    obtain ⟨hfd, ⟨hnothing, rfl⟩ | ⟨file, more, hfile, rfl, rfl⟩⟩ := ctx_write_csv_cases hcsv
    · -- no file is open, or nothing is written
      have hnone : s.server.files (.write_csv i now tm written) = [] := by
        rcases hnothing with hclosed | rfl
        · simp only [WeekServer.files, hworker, hclosed]
        · cases hfile : s.server.csv.csv_fd <;> simp only [WeekServer.files, hworker, hfile]
      rw [hnone, List.append_nil]
      exact ⟨h.holds, fun file hfile => h.opened file (hfd ▸ hfile)⟩
    · obtain ⟨r, hr⟩ : ∃ r : FiledRow, r = ⟨tm, g.hdr.fromStudentId, task_hw.bytes, g.grade,
        g.exec_ms, g.mem_kb⟩ := ⟨_, rfl⟩
      have hone : s.server.files (.write_csv i now tm (some more)) =
          [(file, .row r (more + 1))] := by
        simp only [WeekServer.files, hworker, hfile, hr]
      have htext : (Filed.row r (more + 1)).text = (csvRow tm g.hdr.fromStudentId task_hw.bytes
          g.grade g.exec_ms g.mem_kb).take (more + 1) := by
        rw [hr]
        rfl
      have hhold := h.holds.append (h.opened file hfile) (.row r (more + 1))
      rw [htext] at hhold
      rw [hone]
      exact ⟨hhold, fun file' hfile' => append_ne_none (h.opened file' (hfd ▸ hfile')) _⟩
  | reply i =>
    obtain ⟨task_hw, g, count, isRecorded, resets, -, rfl⟩ := reply_cases hstep
    exact h.frame rfl rfl

theorem filesInv_step (before : Disk) (s : Lives n) (a : LifeAction n) (s' : Lives n)
    (h : FilesInv before s) (hgo : HeadersGoOut s a) (hstep : lifeStep s a = some s') :
    FilesInv before s' := by
  cases a with
  | run a =>
    obtain ⟨server, hserver, rfl⟩ := Option.map_eq_some_iff.mp hstep
    exact h.run hgo hserver
  | start exists_ opened written =>
    obtain rfl := Option.some.inj hstep
    obtain ⟨hholds, hopen⟩ := h.holds.open_csv hgo noCsv
    exact ⟨hholds, hopen⟩
  | program file text =>
    simp only [lifeStep] at hstep
    split_ifs at hstep with hthere
    obtain rfl := Option.some.inj hstep
    exact ⟨h.holds.append hthere (.stray text),
      fun file' hfile' => append_ne_none (h.opened file' hfile') _⟩

end Steps

/-- **The gradebook files survive the server.**  Over any number of lives of the server, with any
switches and any number of workers in each of them, and however they end: as long as the header
line goes out where a file is new, a file has what has been written to it, in order, on top of what
has been there, or of the header line.  This is a table of rows if every row has been written to its
end and no program has written to the file; and if their ids and weeks can stand in a field the
table read off the file says so. -/
theorem gradebooks_survive (before : Disk) (as : List (LifeAction n))
    (hgo : Along lifeStep HeadersGoOut (.initial n before) as) :
    Always lifeStep (fun s => Survive before s.server.disk s.filed) (.initial n before) as :=
  (always_of_invariant (filesInv_initial before) (filesInv_step before) hgo).imp
    fun _ h => h.holds.survive

instance (s : Lives n) (a : LifeAction n) : Decidable (HeadersGoOut s a) :=
  match a with
  | .run (.open_csv exists_ opened written) =>
    inferInstanceAs (Decidable (∀ week_name ∈ s.server.switching.target,
      HeaderGoesOut s.server.disk week_name exists_ opened written))
  | .start exists_ opened written =>
    inferInstanceAs (Decidable
      (HeaderGoesOut s.server.disk (ascii "week_1") exists_ opened written))
  | .run (.set_hw _) | .run .reset | .run (.set_students _) | .run (.snapshot _) | .run (.leave _)
  | .run (.expect ..) | .run (.compare ..) | .run (.fail ..) | .run (.check _) | .run (.record ..)
  | .run (.write_csv ..) | .run (.reply _) | .program .. => isTrue trivial

/-- The server is killed with a submission under way, and files the next one in the same file. -/
def twoLives : List (LifeAction NUM_THREADS) :=
  [.start false true (some 511), .run (.snapshot 0), .run (.fail 0 someHeader GRADE_CE 0 0),
    .run (.check 0), .run (.record 0 20), .run (.write_csv 0 20 someTm (some 511)),
    .start true true (some 511), .run (.snapshot 0), .run (.fail 0 someHeader GRADE_RE 30 40),
    .run (.check 0), .run (.record 0 50), .run (.write_csv 0 50 someTm (some 511))]

theorem gradebooks_survive_twoLives :
    ∃ s, exec lifeStep (.initial NUM_THREADS fun _ => none) twoLives = some s ∧
      FilesReadBack (fun _ => none) s.server.disk s.filed ∧
      (rowsOf (ascii "week_1_results.csv") s.filed).length = 2 := by
  have hgo : Along lifeStep HeadersGoOut (.initial NUM_THREADS fun _ => none) twoLives := by
    decide +kernel
  obtain ⟨s, hs, hobs⟩ := Option.map_eq_some_iff.mp (by decide +kernel :
    (exec lifeStep (.initial NUM_THREADS fun _ => none) twoLives).map (fun s =>
      (decide (∀ x ∈ s.filed, x.2.IsWhole ∧ ∀ r ∈ x.2.row?, r.IsPlain),
        (rowsOf (ascii "week_1_results.csv") s.filed).length)) = some (true, 2))
  obtain ⟨hplain, hrows⟩ := Prod.mk.inj hobs
  have halways := gradebooks_survive (fun _ => none) twoLives hgo
  exact ⟨s, hs, (halways.at_end s hs).readBack (of_decide_eq_true hplain), hrows⟩

end MiniCi
