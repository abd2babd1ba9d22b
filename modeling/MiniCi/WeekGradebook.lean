/-
# Which gradebook file a row goes to

`ctx_set_hw` replaces `current_hw` in its first section and the open gradebook file in its last
one.  A worker holds `hw_lock` from the comparison of the weeks to the end of `ctx_write_csv`, so
the week of its row still is `current_hw` when the row is written; but the file is the one that
happens to be open.

Between two switches that is the file of `current_hw`.  During a switch it still is that of the
week before.
-/
import MiniCi.WeekServer

namespace MiniCi

open CStr

variable {n : ℕ}

/-! ## The property and the condition -/

/-- `"<week>_results.csv"`. -/
def gradebookOf (week : Buf MAX_WEEK_NAME) : Bytes := week.str ++ ascii "_results.csv"

/-- What the step writes of a row, if it writes one, is appended to the gradebook of the week of the
row, and no other file changes.  The week of a row is the `week_name` that it is printed with; this
is the third field of the line in the file as well if there is a NUL in the id, neither a comma nor
a line break before it, and the row is written whole. -/
def FiledInItsWeek (s : WeekServer n) (a : WeekAction n) : Prop :=
  ∀ s', weekStep s a = some s' →
    match a with
    | .write_csv i _ tm written => ∀ task_hw g my_submit_count,
      s.workers i = .recorded task_hw g my_submit_count →
        s'.disk = s.disk ∨
        ∃ more ∈ written, s'.disk = s.disk.append (gradebookOf task_hw)
          ((csvRow tm g.hdr.fromStudentId task_hw.bytes g.grade g.exec_ms g.mem_kb).take (more + 1))
    | _ => True

/-- A row that is written during a switch finds the gradebook of the new week open already, as
when the week is set once more, or none. -/
def RowAtHome (s : WeekServer n) (a : WeekAction n) : Prop :=
  ∀ s', weekStep s a = some s' →
    match a with
    | .write_csv _ _ _ written => written ≠ none → s.switching ≠ .idle →
      ∀ file ∈ s.csv.csv_fd, file = gradebookOf s.hw.current_hw
    | _ => True

/-! ## `ctx_write_csv` -/

/-- `ctx_write_csv` appends the row, or a part of it, to the file that is open. -/
theorem ctx_write_csv_cases {csv csv' : CsvState} {disk disk' : Disk} {student_id : Bytes}
    {result : GradeResult} {exec_ms mem_kb : UInt32} {week_name : Bytes} {now : ℤ} {tm : Tm}
    {written : Option ℕ}
    (h : ctx_write_csv csv disk student_id result exec_ms mem_kb week_name now tm written =
      some (csv', disk')) :
    csv'.csv_fd = csv.csv_fd ∧
      ((csv.csv_fd = none ∨ written = none) ∧ disk' = disk ∨
        ∃ file more, csv.csv_fd = some file ∧ written = some more ∧
          disk' = disk.append file
            ((csvRow tm student_id week_name result exec_ms mem_kb).take (more + 1))) := by
  unfold ctx_write_csv at h
  split at h
  · rename_i hnone
    obtain ⟨rfl, rfl⟩ := Prod.mk.inj (Option.some.inj h)
    exact ⟨rfl, Or.inl ⟨Or.inl hnone, rfl⟩⟩
  · rename_i file hfile
    split_ifs at h
    cases written with
    | none =>
      obtain ⟨rfl, rfl⟩ := Prod.mk.inj (Option.some.inj h)
      exact ⟨rfl, Or.inl ⟨Or.inr rfl, rfl⟩⟩
    | some more =>
      obtain ⟨rfl, rfl⟩ := Prod.mk.inj (Option.some.inj h)
      exact ⟨rfl, Or.inr ⟨file, more, hfile, rfl, rfl⟩⟩

/-- What is taken of a row is never empty. -/
theorem take_csvRow_ne_nil (tm : Tm) (student_id week_name : Bytes) (result : GradeResult)
    (exec_ms mem_kb : UInt32) (more : ℕ) :
    (csvRow tm student_id week_name result exec_ms mem_kb).take (more + 1) ≠ [] := by
  have hrow : csvRow tm student_id week_name result exec_ms mem_kb ≠ [] := by
    unfold csvRow
    exact List.append_ne_nil_of_right_ne_nil _ (by decide)
  rw [Ne, List.take_eq_nil_iff, not_or]
  exact ⟨Nat.succ_ne_zero more, hrow⟩

/-! ## Appending -/

/-- A file that is appended to grows. -/
theorem Disk.length_append (d : Disk) (path text : Bytes) :
    ((d.append path text path).getD []).length = ((d path).getD []).length + text.length := by
  rw [Disk.append, Function.update_self, Option.getD_some, List.length_append]

/-- Appending something changes the files. -/
theorem Disk.append_ne_self (d : Disk) (path : Bytes) {text : Bytes} (h : text ≠ []) :
    d.append path text ≠ d := by
  intro heq
  have hlen := d.length_append path text
  have hpos := List.length_pos_iff.mpr h
  rw [heq] at hlen
  omega

/-- The same text appended to two files makes a difference. -/
theorem Disk.append_inj (d : Disk) {path path' text : Bytes} (h : text ≠ [])
    (heq : d.append path text = d.append path' text) : path = path' := by
  by_contra hne
  have hlen := d.length_append path text
  have hpos := List.length_pos_iff.mpr h
  rw [heq, Disk.append, Function.update_of_ne hne] at hlen
  omega

/-! ## The invariant -/

/-- The week that is being switched to. -/
def Switching.target : Switching → Option Bytes
  | .idle => none
  | .written week_name => some week_name
  | .cleared week_name => some week_name

/-- Between two switches the gradebook of `current_hw` is open, or none; during a switch the week
is that of the switch; and what holds `hw_lock` is of the week `current_hw`. -/
structure GradebookInv (s : WeekServer n) : Prop where
  settled : s.switching = .idle → ∀ file ∈ s.csv.csv_fd, file = gradebookOf s.hw.current_hw
  pending : ∀ week_name ∈ s.switching.target,
    ValidWeekName week_name ∧ s.hw = ctx_set_hw_paths week_name
  held : ∀ i, ∀ task_hw ∈ (s.workers i).holding, s.hw.current_hw.str = task_hw.str

/-- The gradebook file that `ctx_set_hw` opens is that of the week it sets. -/
theorem csvPath_eq_gradebookOf {week_name : Bytes} (h : ValidWeekName week_name) :
    csvPath week_name = gradebookOf (ctx_set_hw_paths week_name).current_hw := by
  have hlen : (str week_name).length ≤ MAX_WEEK_NAME - 1 := Nat.le_sub_one_of_lt h.2
  have hweek : (ctx_set_hw_paths week_name).current_hw.str = str week_name :=
    (Buf.str_ofStr _ _).trans (List.take_of_length_le hlen)
  rw [csvPath_eq h.2, gradebookOf, hweek]

/-- What is open after the last section of `ctx_set_hw`. -/
theorem ctx_set_hw_csv_fd_eq {week_name : Bytes} {exists_ opened : Bool} {written : Option ℕ}
    {csv : CsvState} {disk : Disk} (h : ValidWeekName week_name) :
    ∀ file ∈ (ctx_set_hw_csv week_name exists_ opened written csv disk).1.csv_fd,
      file = gradebookOf (ctx_set_hw_paths week_name).current_hw := by
  intro file hfile
  cases opened with
  | true => exact (Option.some.inj hfile).symm.trans (csvPath_eq_gradebookOf h)
  | false => cases hfile

/-- Moving a worker keeps the invariant if the worker does not take the lock in another week. -/
theorem GradebookInv.move {s : WeekServer n} (h : GradebookInv s) (i : Fin n) {w : Worker}
    (hw : ∀ task_hw ∈ w.holding, s.hw.current_hw.str = task_hw.str) :
    GradebookInv (s.move i w) := by
  refine ⟨h.settled, h.pending, ?_⟩
  intro j
  by_cases hj : j = i
  · subst hj
    simpa [WeekServer.move] using hw
  · simpa [WeekServer.move, hj] using h.held j

/-- The invariant is kept by every step. -/
theorem gradebookInv_step (s : WeekServer n) (a : WeekAction n) (s' : WeekServer n)
    (h : GradebookInv s) (hstep : weekStep s a = some s') : GradebookInv s' := by
  have hnone : ∀ {task_hw : Buf MAX_WEEK_NAME}, task_hw ∈ (none : Option (Buf MAX_WEEK_NAME)) →
      s.hw.current_hw.str = task_hw.str := fun hmem => nomatch hmem
  cases a with
  | set_hw week_name =>
    obtain ⟨-, rfl | ⟨hvalid, hunheld, rfl⟩⟩ := set_hw_cases hstep
    · exact h
    · -- nobody holds the lock, so no worker is left in the old week
      refine ⟨fun hidle => (nomatch hidle), ?_, ?_⟩
      · rintro _ ⟨rfl⟩
        exact ⟨hvalid, rfl⟩
      · intro i task_hw htask
        rw [hunheld i] at htask
        cases htask
  | reset =>
    obtain ⟨week_name, hswitching, rfl⟩ := reset_cases hstep
    have hpending := h.pending week_name (by rw [hswitching]; rfl)
    refine ⟨fun hidle => (nomatch hidle), ?_, h.held⟩
    rintro _ ⟨rfl⟩
    exact hpending
  | open_csv exists_ opened written =>
    obtain ⟨week_name, hswitching, rfl⟩ := open_csv_cases hstep
    obtain ⟨hvalid, hhw⟩ := h.pending week_name (by rw [hswitching]; rfl)
    refine ⟨fun _ => ?_, fun _ hmem => (nomatch hmem), h.held⟩
    show ∀ file ∈ (ctx_set_hw_csv week_name exists_ opened written s.csv s.disk).1.csv_fd,
      file = gradebookOf s.hw.current_hw
    rw [hhw]
    exact ctx_set_hw_csv_fd_eq hvalid
  | set_students _ =>
    obtain ⟨-, rfl⟩ := set_students_cases hstep
    exact ⟨h.settled, h.pending, h.held⟩
  | snapshot i =>
    obtain ⟨-, rfl⟩ := snapshot_cases hstep
    exact h.move i fun _ => hnone
  | leave i =>
    obtain ⟨_, -, rfl⟩ := leave_cases hstep
    exact h.move i fun _ => hnone
  | expect i _ _ _ =>
    obtain ⟨_, -, rfl⟩ := expect_cases hstep
    exact h.move i fun _ => hnone
  | compare i _ =>
    obtain ⟨_, _, _, _, _, -, rfl⟩ := compare_cases hstep
    exact h.move i fun _ => hnone
  | fail i _ _ _ _ =>
    obtain ⟨_, -, rfl⟩ := fail_cases hstep
    exact h.move i fun _ => hnone
  | check i =>
    obtain ⟨task_hw, _, -, ⟨hsame, rfl⟩ | ⟨-, rfl⟩⟩ := check_cases hstep
    · apply h.move i
      rintro _ ⟨rfl⟩
      exact hsame
    · exact h.move i fun _ => hnone
  | record i now =>
    obtain ⟨task_hw, g, hworker, rfl⟩ := record_cases_week hstep
    have hmove := h.move i (w := .recorded task_hw g
      (ctx_record_submission s.tracker g.hdr.student_id.bytes g.grade now).1) (by
        rintro _ ⟨rfl⟩
        exact h.held i task_hw (by rw [hworker]; rfl))
    exact ⟨hmove.settled, hmove.pending, hmove.held⟩
  | write_csv i _ _ _ =>
    obtain ⟨task_hw, g, count, csv, _, -, hcsv, rfl⟩ := write_csv_cases hstep
    have hmove := h.move i (w := .checked task_hw g count true s.switched.length) fun _ => hnone
    refine ⟨fun hidle => ?_, hmove.pending, hmove.held⟩
    show ∀ file ∈ csv.csv_fd, file = gradebookOf s.hw.current_hw
    rw [(ctx_write_csv_cases hcsv).1]
    exact h.settled hidle
  | reply i =>
    obtain ⟨_, _, _, _, _, -, rfl⟩ := reply_cases hstep
    have hmove := h.move i (w := .idle) fun _ => hnone
    exact ⟨hmove.settled, hmove.pending, hmove.held⟩

/-! ## Rows and files -/

/-- A row is filed in its week iff it is written while the gradebook of its week is open. -/
theorem filedInItsWeek_iff {s : WeekServer n} (h : GradebookInv s) (a : WeekAction n) :
    FiledInItsWeek s a ↔ RowAtHome s a := by
  refine forall₂_congr fun s' hstep => ?_
  cases a with
  | write_csv i now tm written =>
    obtain ⟨task_hw, g, count, csv, disk, hworker, hcsv, rfl⟩ := write_csv_cases hstep
    have hweek := h.held i task_hw (by rw [hworker]; rfl)
    have hbook : gradebookOf task_hw = gradebookOf s.hw.current_hw :=
      congrArg (· ++ ascii "_results.csv") hweek.symm
    have hrow := take_csvRow_ne_nil tm g.hdr.fromStudentId task_hw.bytes g.grade g.exec_ms g.mem_kb
    obtain ⟨-, hdisk⟩ := ctx_write_csv_cases hcsv
    constructor
    · intro hfiled hwritten _ file hfile
      rcases hdisk with ⟨hnone | hnot, -⟩ | ⟨file', more, hfile', rfl, rfl⟩
      · rw [hnone] at hfile
        cases hfile
      · exact absurd hnot hwritten
      · obtain rfl := Option.some.inj (hfile'.symm.trans hfile)
        rcases hfiled task_hw g count hworker with hsame | ⟨more', hmore', happend⟩
        · exact absurd hsame (s.disk.append_ne_self file' (hrow more))
        · obtain rfl := Option.some.inj hmore'
          exact (s.disk.append_inj (hrow more) happend).trans hbook
    · intro hhome task_hw' g' count' hworker'
      obtain ⟨rfl, rfl, rfl⟩ := Worker.recorded.inj (hworker.symm.trans hworker')
      rcases hdisk with ⟨-, rfl⟩ | ⟨file, more, hfile, rfl, rfl⟩
      · exact Or.inl rfl
      · right
        have hopen : file = gradebookOf s.hw.current_hw := by
          by_cases hidle : s.switching = .idle
          · exact h.settled hidle file hfile
          · exact hhome (Option.some_ne_none more) hidle file hfile
        refine ⟨more, rfl, ?_⟩
        rw [hbook, ← hopen]
  | _ => exact Iff.rfl

/-- The server after `ctx_init`, whose `ctx_set_hw` has met with these answers. -/
def WeekServer.booted (n : ℕ) (exists_ opened : Bool) (written : Option ℕ) (disk : Disk) :
    WeekServer n :=
  let (csv, disk) := ctx_set_hw_csv (ascii "week_1") exists_ opened written noCsv disk
  .initial n csv disk

theorem gradebookInv_booted (exists_ opened : Bool) (written : Option ℕ) (disk : Disk) :
    GradebookInv (WeekServer.booted n exists_ opened written disk) :=
  ⟨fun _ => ctx_set_hw_csv_fd_eq (by decide), fun _ hmem => (nomatch hmem),
    fun _ _ hmem => (nomatch hmem)⟩

/-- **Gradebooks are not mixed** iff no row is written during a switch to another week.  In every
interleaving of week switches with any number of workers, all rows are filed in their week iff
each of them that is written between the first and the last section of a `ctx_set_hw` finds the
gradebook of the new week open already, or none. -/
theorem filed_in_its_week_iff (exists_ opened : Bool) (written : Option ℕ) (disk : Disk)
    (as : List (WeekAction n)) :
    Runs.Along weekStep FiledInItsWeek (.booted n exists_ opened written disk) as ↔
      Runs.Along weekStep RowAtHome (.booted n exists_ opened written disk) as :=
  Runs.along_iff_along (gradebookInv_booted exists_ opened written disk) gradebookInv_step
    fun _ a h => filedInItsWeek_iff h a

/-- A run that breaks the condition in its last step files a row in the wrong week. -/
theorem not_filed_of_open {s t : WeekServer n} (as : List (WeekAction n)) {i : Fin n} {now : ℤ}
    {tm : Tm} (file : Bytes) (hs : GradebookInv s)
    (hrun : Runs.exec weekStep s (as ++ [.write_csv i now tm (some 511)]) = some t)
    (hobs : (Runs.exec weekStep s as).map (fun s' =>
      (decide (s'.switching = .idle), s'.csv.csv_fd, gradebookOf s'.hw.current_hw)) =
        some (false, some file, gradebookOf t.hw.current_hw))
    (hne : file ≠ gradebookOf t.hw.current_hw) :
    ¬ Runs.Along weekStep FiledInItsWeek s (as ++ [.write_csv i now tm (some 511)]) := by
  intro h
  obtain ⟨s', hpre, hstep⟩ := (Runs.exec_concat_eq_some weekStep).mp hrun
  rw [hpre] at hobs
  obtain ⟨hswitching, hrest⟩ := Prod.mk.inj (Option.some.inj hobs)
  obtain ⟨hfile, hbook⟩ := Prod.mk.inj hrest
  have hfiled := Runs.along_iff_forall.mp h as _ [] s' rfl hpre
  have hhome := (filedInItsWeek_iff (Runs.invariant_of_step hs gradebookInv_step hpre) _).mp hfiled
  have hwrites := hhome t hstep (Option.some_ne_none 511) (of_decide_eq_false hswitching) file hfile
  exact hne (hwrites.trans hbook)

/-- A submission for `week_2` is graded between the first and the last section of the switch to
`week_2`, and its row is appended to `week_1_results.csv`. -/
theorem row_in_last_weeks_gradebook :
    ¬ Runs.Along weekStep FiledInItsWeek (.booted 1 false true (some 511) fun _ => none)
      [.set_hw (ascii "week_2"), .snapshot 0, .fail 0 someHeader GRADE_CE 0 0, .check 0,
        .record 0 20, .write_csv 0 20 someTm (some 511)] := by
  intro h
  obtain ⟨s, hs, hobs⟩ := Option.map_eq_some_iff.mp (by decide +kernel :
    (Runs.exec weekStep (.booted 1 false true (some 511) fun _ => none)
      [.set_hw (ascii "week_2"), .snapshot 0, .fail 0 someHeader GRADE_CE 0 0, .check 0,
        .record 0 20, .write_csv 0 20 someTm (some 511)]).map
      (fun s => gradebookOf s.hw.current_hw) = some (ascii "week_2_results.csv"))
  refine not_filed_of_open
    [.set_hw (ascii "week_2"), .snapshot 0, .fail 0 someHeader GRADE_CE 0 0, .check 0,
      .record 0 20] (ascii "week_1_results.csv")
    (gradebookInv_booted false true (some 511) fun _ => none) hs ?_ ?_ h
  · rw [hobs]
    decide +kernel
  · rw [hobs]
    decide

end MiniCi
