/-
# Tracker and gradebook within one week

`build_and_send_result` enters a submission twice: `ctx_record_submission` in the tracker and
`ctx_write_csv` in the gradebook, each under a lock of its own.  A worker between the two has
been counted by the first and not by the second.

So within one week the submissions entered in the tracker are, as a multiset, the rows
appended and those in flight (`StoresInv.books`); the sum of the attempts is their number,
and `total_records` the number of the rows.  A student who is turned away by a full table, a
row that is not written whole and a counter at its limit would each break this, which is what
`WithinWeek` excludes.
-/
import MiniCi.WeekServer
import MiniCi.WireIds
import MiniCi.Gradebook
import Mathlib.Algebra.BigOperators.Fin
import Mathlib.Algebra.Order.BigOperators.Group.Multiset
import Mathlib.Tactic.Abel

namespace MiniCi

open ByteStream CStr Runs

variable {n : ℕ}

/-! ## Sums -/

/-- Changing one value of a function changes a sum over it by that value. -/
theorem sum_update_add {ι α M : Type*} [Fintype ι] [DecidableEq ι] [AddCommMonoid M] (F : α → M)
    (f : ι → α) (i : ι) (a : α) :
    (∑ j, F (Function.update f i a j)) + F (f i) = (∑ j, F (f j)) + F a := by
  have hrest : ∑ j ∈ Finset.univ.erase i, F (Function.update f i a j)
      = ∑ j ∈ Finset.univ.erase i, F (f j) := by
    apply Finset.sum_congr rfl
    intro j hj
    rw [Function.update_of_ne (Finset.ne_of_mem_erase hj)]
  rw [← Finset.add_sum_erase _ _ (Finset.mem_univ i), Function.update_self, hrest,
    ← Finset.add_sum_erase Finset.univ (fun j => F (f j)) (Finset.mem_univ i)]
  abel

/-- Counting the entries of a list by their key, over distinct keys that include them all,
counts them all. -/
theorem sum_countP_eq_length {α κ : Type*} [DecidableEq κ] (key : α → κ) {l : List α}
    {keys : List κ} (hnodup : keys.Nodup) (hall : ∀ a ∈ l, key a ∈ keys) :
    (keys.map fun k => l.countP fun a => key a = k).sum = l.length := by
  have hcount : ∀ k, (l.countP fun a => key a = k) = Multiset.count k (l.map key : List κ) := by
    intro k
    rw [Multiset.coe_count, List.count, List.countP_map]
    congr 1
  have hmem : ∀ k ∈ (l.map key : Multiset κ), k ∈ keys.toFinset := by
    intro k hk
    obtain ⟨a, ha, rfl⟩ := List.mem_map.mp (Multiset.mem_coe.mp hk)
    exact List.mem_toFinset.mpr (hall a ha)
  calc (keys.map fun k => l.countP fun a => key a = k).sum
      = ∑ k ∈ keys.toFinset, Multiset.count k (l.map key : List κ) := by
        rw [List.sum_toFinset _ hnodup]
        simp only [hcount]
    _ = Multiset.card (l.map key : Multiset κ) := Multiset.sum_count_eq_card hmem
    _ = l.length := by simp

/-! ## Submissions of the week -/

/-- The student of a submission. -/
def studentOf (x : Buf MAX_WEEK_NAME × Graded) : Bytes := x.2.hdr.student_id.str

/-- The submissions as a log of attempts. -/
def bookedLog (booked : List (Buf MAX_WEEK_NAME × Graded)) : List (Bytes × Prop) :=
  booked.map fun x => (studentOf x, x.2.grade = GRADE_AC)

theorem countP_bookedLog (booked : List (Buf MAX_WEEK_NAME × Graded)) (s : Bytes) :
    (bookedLog booked).countP (fun x => x.1 = s) = booked.countP fun x => studentOf x = s := by
  rw [bookedLog, List.countP_map]
  rfl

/-- The submission that a worker has entered in the tracker and not yet in the gradebook. -/
def Worker.inFlight : Worker → Multiset (Buf MAX_WEEK_NAME × Graded)
  | .recorded task_hw g _ => {(task_hw, g)}
  | _ => 0

/-- The submissions that are in the tracker and not yet in the gradebook. -/
def WeekServer.inFlight (s : WeekServer n) : Multiset (Buf MAX_WEEK_NAME × Graded) :=
  ∑ i, (s.workers i).inFlight

theorem inFlight_move (s : WeekServer n) (i : Fin n) (w : Worker) :
    (s.move i w).inFlight + (s.workers i).inFlight = s.inFlight + w.inFlight :=
  sum_update_add Worker.inFlight s.workers i w

/-- The workers between `ctx_record_submission` and the lock section of `ctx_write_csv`. -/
def WeekServer.between (s : WeekServer n) : Finset (Fin n) :=
  Finset.univ.filter fun i => (s.workers i).inFlight ≠ 0

/-- Each of them has one submission in flight. -/
theorem card_inFlight (s : WeekServer n) : Multiset.card s.inFlight = s.between.card := by
  have hone : ∀ w : Worker, Multiset.card w.inFlight = if w.inFlight ≠ 0 then 1 else 0 := by
    intro w
    cases w <;> simp [Worker.inFlight]
  rw [WeekServer.inFlight, WeekServer.between, Multiset.card_sum, Finset.card_filter]
  exact Finset.sum_congr rfl fun i _ => hone _

/-- The sum of `submit_count` over all students. -/
def submitSum (t : TrackerState) : ℕ :=
  ((t.students.records.filter fun r => ¬ r.IsFree).map fun r => r.submit_count.toNat).sum

/-! ## The tracker -/

/-- The tracker has the submissions `booked`, and the students are among `students`. -/
structure Enrolled (students : Finset Bytes) (booked : List (Buf MAX_WEEK_NAME × Graded))
    (t : TrackerState) (table : List StudentRecord) : Prop where
  represents : Represents t (.ofLog MAX_STUDENTS (bookedLog booked)) table
  among : ∀ s ∈ ids table, s ∈ students
  complete : ∀ x ∈ booked, studentOf x ∈ ids table

/-- And no counter of attempts has reached its limit. -/
structure Books (students : Finset Bytes) (booked : List (Buf MAX_WEEK_NAME × Graded))
    (t : TrackerState) (table : List StudentRecord) : Prop
    extends Enrolled students booked t table where
  bounded : ∀ s, (booked.countP fun x => studentOf x = s) ≤ UINT32_MAX

section

variable {students : Finset Bytes} {booked : List (Buf MAX_WEEK_NAME × Graded)} {t : TrackerState}
  {table : List StudentRecord}

/-- The record of a student counts his submissions. -/
theorem Books.submit_count (h : Books students booked t table) {r : StudentRecord}
    (hr : r ∈ table) : r.submit_count.toNat = booked.countP fun x => studentOf x = r.id := by
  have hknown := (h.represents.mem_known_iff r.id).mpr (List.mem_map_of_mem hr)
  have hbound := h.bounded r.id
  rw [(h.represents.records r hr).count, Ledger.attempts_ofLog, if_pos hknown, countP_bookedLog]
  omega

/-- The attempts of all students are the submissions. -/
theorem Books.submitSum_eq (h : Books students booked t table) : submitSum t = booked.length := by
  rw [submitSum, h.represents.filled.filter_eq]
  have hcounts : (table.map fun r => r.submit_count.toNat)
      = (ids table).map fun s => booked.countP fun x => studentOf x = s := by
    rw [List.map_map]
    exact List.map_congr_left fun r hr => h.submit_count hr
  rw [hcounts]
  exact sum_countP_eq_length studentOf h.represents.nodup h.complete

/-- While the students are at most `MAX_STUDENTS` nobody is turned away. -/
theorem Enrolled.accepts (h : Enrolled students booked t table)
    (hcard : students.card ≤ MAX_STUDENTS) {s : Bytes} (hs : s ∈ students) :
    (Ledger.ofLog MAX_STUDENTS (bookedLog booked)).Accepts MAX_STUDENTS s := by
  by_cases hknown : s ∈ (Ledger.ofLog MAX_STUDENTS (bookedLog booked)).known
  · exact Or.inl hknown
  · right
    rw [← h.represents.known] at hknown ⊢
    have hsub : insert s (ids table).toFinset ⊆ students := by
      intro s' hs'
      rcases Finset.mem_insert.mp hs' with rfl | hmem
      · exact hs
      · exact h.among s' (List.mem_toFinset.mp hmem)
    have hle := Finset.card_le_card hsub
    rw [Finset.card_insert_of_notMem hknown] at hle
    omega

/-- As long as the counter of the record has room, so have the submissions of its student. -/
theorem Books.room (h : Books students booked t table) {student_id : Buf MAX_STUDENT_ID}
    (hid : ClientId student_id.bytes)
    (hcount : ∀ j r, locate t.students.records student_id.bytes = some (j, r) →
      r.submit_count.toNat < UINT32_MAX) :
    (booked.countP fun x => studentOf x = student_id.str) < UINT32_MAX := by
  by_cases hknown : student_id.str ∈ ids table
  · obtain ⟨j, hj, hmatch⟩ := List.mem_iff_getElem.mp hknown
    rw [List.length_map] at hj
    rw [List.getElem_map] at hmatch
    rw [← hmatch, ← h.submit_count (List.getElem_mem hj)]
    exact hcount j _ (locate_of_known h.represents.filled h.represents.nodup hid.usable hj hmatch)
  · have hzero : (booked.countP fun x => studentOf x = student_id.str) = 0 := by
      rw [List.countP_eq_zero]
      intro x hx hsame
      exact hknown (of_decide_eq_true hsame ▸ h.complete x hx)
    rw [hzero]
    decide

/-- **One more submission.**  The tracker has it too, while there is room for its student. -/
theorem Enrolled.record (h : Enrolled students booked t table)
    (hcard : students.card ≤ MAX_STUDENTS) (task_hw : Buf MAX_WEEK_NAME) {g : Graded}
    (hid : ClientId g.hdr.student_id.bytes) (hmem : g.hdr.student_id.str ∈ students) (now : ℤ) :
    ∃ table', Enrolled students (booked ++ [(task_hw, g)])
      (ctx_record_submission t g.hdr.student_id.bytes g.grade now).2 table' := by
  obtain ⟨⟨table', hrep⟩, -⟩ := represents_record h.represents hid.usable g.grade now
  have hlog : bookedLog booked ++ [(str g.hdr.student_id.bytes, g.grade = GRADE_AC)]
      = bookedLog (booked ++ [(task_hw, g)]) := by simp [bookedLog, studentOf, Buf.str]
  have hlast : Ledger.ofLog MAX_STUDENTS
      (bookedLog booked ++ [(str g.hdr.student_id.bytes, g.grade = GRADE_AC)])
        = (Ledger.ofLog MAX_STUDENTS (bookedLog booked)).enter g.hdr.student_id.str
          (g.grade = GRADE_AC) := by
    rw [Ledger.ofLog_concat]
    exact Ledger.submit_of_accepts (h.accepts hcard hmem) _
  have hids : ∀ s, s ∈ ids table' ↔ s = g.hdr.student_id.str ∨ s ∈ ids table := by
    intro s
    rw [← hrep.mem_known_iff, ← h.represents.mem_known_iff, hlast, Ledger.known_enter,
      Finset.mem_insert]
  rw [hlog] at hrep
  refine ⟨table', hrep, ?_, ?_⟩
  · intro s hs
    rcases (hids s).mp hs with rfl | hold
    · exact hmem
    · exact h.among s hold
  · intro x hx
    rcases List.mem_append.mp hx with hold | hnew
    · exact (hids _).mpr (Or.inr (h.complete x hold))
    · rw [List.mem_singleton.mp hnew]
      exact (hids _).mpr (Or.inl rfl)

/-- And its count is right while the counter of the student is not at its limit. -/
theorem Books.record (h : Books students booked t table) (hcard : students.card ≤ MAX_STUDENTS)
    (task_hw : Buf MAX_WEEK_NAME) {g : Graded} (hid : ClientId g.hdr.student_id.bytes)
    (hmem : g.hdr.student_id.str ∈ students)
    (hcount : ∀ j r, locate t.students.records g.hdr.student_id.bytes = some (j, r) →
      r.submit_count.toNat < UINT32_MAX) (now : ℤ) :
    ∃ table', Books students (booked ++ [(task_hw, g)])
      (ctx_record_submission t g.hdr.student_id.bytes g.grade now).2 table' := by
  obtain ⟨table', henrolled⟩ := h.toEnrolled.record hcard task_hw hid hmem now
  refine ⟨table', henrolled, ?_⟩
  intro s
  rw [List.countP_append, List.countP_singleton]
  have hold := h.bounded s
  by_cases hs : studentOf (task_hw, g) = s
  · -- the student of this submission
    have hlt : (booked.countP fun x => studentOf x = s) < UINT32_MAX := hs ▸ h.room hid hcount
    simp only [hs, decide_true, if_true]
    omega
  · simp only [hs, decide_false, Bool.false_eq_true, if_false]
    omega

/-- The size of the class is not among the submissions. -/
theorem Enrolled.set_students (h : Enrolled students booked t table) (count : UInt16) :
    Enrolled students booked { t with total_students := count } table :=
  ⟨⟨h.represents.filled, h.represents.nodup, h.represents.known, h.represents.records,
    h.represents.count⟩, h.among, h.complete⟩

/-- An empty tracker has no submissions. -/
theorem enrolled_reset (students : Finset Bytes) (t : TrackerState) :
    Enrolled students [] (ctx_set_hw_reset t) [] :=
  ⟨represents_reset t, nofun, nofun⟩

end

/-! ## The gradebook -/

/-- With an open file a row that is written whole is counted and appended. -/
theorem ctx_write_csv_of_open {csv csv' : CsvState} {disk disk' : Disk} {file student_id : Bytes}
    {result : GradeResult} {exec_ms mem_kb : UInt32} {week_name : Bytes} {now : ℤ} {tm : Tm}
    {written : Option ℕ} (hfd : csv.csv_fd = some file) (hwhole : TakesAll 511 written)
    (h : ctx_write_csv csv disk student_id result exec_ms mem_kb week_name now tm written =
      some (csv', disk')) :
    csv' = { csv with total_records := csv.total_records + 1, last_write_ts := now } ∧
      disk' = disk.append file (csvRow tm student_id week_name result exec_ms mem_kb) := by
  obtain ⟨more, hmore, hle⟩ := hwhole
  obtain rfl := Option.mem_def.mp hmore
  simp only [ctx_write_csv, hfd] at h
  split_ifs at h with hfits
  obtain ⟨rfl, rfl⟩ := Prod.mk.inj (Option.some.inj h)
  refine ⟨by rw [hfd], ?_⟩
  rw [List.take_of_length_le (by omega)]

/-- The text is the row of the submission, at some time. -/
def RowText (x : Buf MAX_WEEK_NAME × Graded) (text : Bytes) : Prop :=
  ∃ tm, text = csvRow tm x.2.hdr.fromStudentId x.1.bytes x.2.grade x.2.exec_ms x.2.mem_kb

/-- The file has got the rows, in this order, and nothing else. -/
def Appended (file : Bytes) (before after : Disk) (rows : List (Buf MAX_WEEK_NAME × Graded)) :
    Prop :=
  ∃ texts, List.Forall₂ RowText rows texts ∧
    (after file).getD [] = (before file).getD [] ++ texts.flatten

/-- One more row. -/
theorem Appended.concat {file : Bytes} {before after : Disk}
    {rows : List (Buf MAX_WEEK_NAME × Graded)} (h : Appended file before after rows)
    {x : Buf MAX_WEEK_NAME × Graded} {text : Bytes} (htext : RowText x text) :
    Appended file before (after.append file text) (rows ++ [x]) := by
  obtain ⟨texts, hrows, hfile⟩ := h
  refine ⟨texts ++ [text], List.rel_append hrows (.cons htext .nil), ?_⟩
  rw [Disk.append, Function.update_self, Option.getD_some, hfile, List.flatten_append,
    List.append_assoc]
  simp

/-! ## The week -/

/-- The header of the submission that a worker is grading or entering. -/
def Worker.header : Worker → Option SubmitHeader
  | .comparing _ hdr _ _ _ => some hdr
  | .graded _ g => some g.hdr
  | .matched _ g => some g.hdr
  | .recorded _ g _ => some g.hdr
  | _ => none

/-- A header from the client, of one of the students. -/
def FromClient (students : Finset Bytes) (hdr : SubmitHeader) : Prop :=
  ClientId hdr.student_id.bytes ∧ hdr.student_id.str ∈ students

/-- An id from the client ends inside its field. -/
theorem FromClient.terminated {students : Finset Bytes} {hdr : SubmitHeader}
    (h : FromClient students hdr) : Terminated hdr.student_id.bytes := by
  by_contra hnot
  have hlen := h.1.2.1
  have hall := str_append_of_not_terminated hnot []
  rw [List.append_nil, str_nil, List.append_nil] at hall
  rw [hall, hdr.student_id.length_bytes] at hlen
  exact absurd hlen (by decide)

/-- The server after `ctx_set_hw`, with the gradebook `file` open.  Workers may be anywhere but
between the two stores. -/
structure AfterSwitch (students : Finset Bytes) (file : Bytes) (s : WeekServer n) : Prop where
  week : ∃ week_name, ValidWeekName week_name ∧ s.hw = ctx_set_hw_paths week_name
  tracker : ∃ t, s.tracker = ctx_set_hw_reset t
  records : s.csv.total_records = 0
  opened : s.csv.csv_fd = some file
  history : s.booked = [] ∧ s.rows = []
  headers : ∀ i, ∀ hdr ∈ (s.workers i).header, FromClient students hdr
  held : ∀ i, ∀ task_hw ∈ (s.workers i).holding, s.hw.current_hw.str = task_hw.str
  outside : ∀ i, (s.workers i).inFlight = 0

/-- Within the week: no switch, submissions from the client by these students, rows that are
written whole, and no counter at its limit. -/
def WithinWeek (students : Finset Bytes) (s : WeekServer n) : WeekAction n → Prop
  | .set_hw _ => False
  | .reset => False
  | .open_csv _ _ _ => False
  | .expect _ hdr _ _ => FromClient students hdr
  | .fail _ hdr _ _ _ => FromClient students hdr
  | .record i _ => ∀ task_hw g, s.workers i = .matched task_hw g →
      ∀ j r, locate s.tracker.students.records g.hdr.student_id.bytes = some (j, r) →
        r.submit_count.toNat < UINT32_MAX
  | .write_csv _ _ _ written => TakesAll 511 written ∧ s.csv.total_records.toNat < UINT32_MAX
  | _ => True

/-- What holds of the stores and of the workers throughout the week. -/
structure StoresInv (students : Finset Bytes) (file : Bytes) (before : Disk) (s : WeekServer n) :
    Prop where
  week : s.hw.current_hw.str.length < MAX_WEEK_NAME
  opened : s.csv.csv_fd = some file
  headers : ∀ i, ∀ hdr ∈ (s.workers i).header, FromClient students hdr
  held : ∀ i, ∀ task_hw ∈ (s.workers i).holding, s.hw.current_hw.str = task_hw.str
  tracker : ∃ table, Books students s.booked s.tracker table
  records : s.csv.total_records.toNat = s.rows.length
  appended : Appended file before s.disk s.rows
  books : (s.booked : Multiset (Buf MAX_WEEK_NAME × Graded)) = s.rows + s.inFlight

section

variable {students : Finset Bytes} {file : Bytes} {before : Disk} {s s' : WeekServer n}

theorem AfterSwitch.storesInv (h : AfterSwitch students file s) :
    StoresInv students file s.disk s := by
  obtain ⟨week_name, hvalid, hhw⟩ := h.week
  obtain ⟨t, ht⟩ := h.tracker
  obtain ⟨hbooked, hrows⟩ := h.history
  have hflight : s.inFlight = 0 := Finset.sum_eq_zero fun i _ => h.outside i
  refine ⟨?_, h.opened, h.headers, h.held, ⟨[], ?_⟩, ?_, ⟨[], ?_, by simp⟩, ?_⟩
  · rw [hhw]
    show (Buf.ofStr (MAX_WEEK_NAME - 1) week_name).str.length < _
    rw [Buf.str_ofStr, List.length_take]
    exact lt_of_le_of_lt (Nat.min_le_right _ _) hvalid.2
  · rw [hbooked, ht]
    exact ⟨enrolled_reset students t, by simp⟩
  · rw [h.records, hrows]
    rfl
  · rw [hrows]
    exact .nil
  · rw [hbooked, hrows, hflight]
    rfl

/-- Moving a worker outside the two stores keeps the invariant, if he carries a header from the
client and takes `hw_lock` in the week only. -/
theorem StoresInv.move (h : StoresInv students file before s) (i : Fin n) {w : Worker}
    (hflight : w.inFlight = (s.workers i).inFlight)
    (hheader : ∀ hdr ∈ w.header, FromClient students hdr)
    (hheld : ∀ task_hw ∈ w.holding, s.hw.current_hw.str = task_hw.str) :
    StoresInv students file before (s.move i w) := by
  have hsame := inFlight_move s i w
  rw [hflight] at hsame
  refine ⟨h.week, h.opened, ?_, ?_, h.tracker, h.records, h.appended, ?_⟩
  · intro j
    by_cases hj : j = i
    · subst hj
      simpa [WeekServer.move] using hheader
    · simpa [WeekServer.move, hj] using h.headers j
  · intro j
    by_cases hj : j = i
    · subst hj
      simpa [WeekServer.move] using hheld
    · simpa [WeekServer.move, hj] using h.held j
  · rw [add_right_cancel hsame]
    exact h.books

/-- The worker enters his submission in the tracker, and has it in flight. -/
theorem StoresInv.record (h : StoresInv students file before s)
    (hcard : students.card ≤ MAX_STUDENTS) {i : Fin n} {now : ℤ}
    (hweek : WithinWeek students s (.record i now))
    (hstep : weekStep s (.record i now) = some s') : StoresInv students file before s' := by
  obtain ⟨task_hw, g, hworker, rfl⟩ := record_cases_week hstep
  obtain ⟨table, hbooks⟩ := h.tracker
  have hclient := h.headers i g.hdr (by rw [hworker]; rfl)
  have hheld := h.held i task_hw (by rw [hworker]; rfl)
  obtain ⟨table', hbooks'⟩ := hbooks.record hcard task_hw hclient.1 hclient.2
    (hweek task_hw g hworker) now
  have hflight := inFlight_move s i (.recorded task_hw g
    (ctx_record_submission s.tracker g.hdr.student_id.bytes g.grade now).1)
  simp only [hworker, Worker.inFlight, add_zero] at hflight
  refine ⟨h.week, h.opened, ?_, ?_, ⟨table', hbooks'⟩, h.records, h.appended, ?_⟩
  · intro j hdr hhdr
    by_cases hj : j = i
    · subst hj
      simp only [WeekServer.move, Function.update_self] at hhdr
      obtain rfl := Option.some.inj hhdr
      exact hclient
    · simp only [WeekServer.move, Function.update_of_ne hj] at hhdr
      exact h.headers j hdr hhdr
  · intro j task_hw' htask
    by_cases hj : j = i
    · subst hj
      simp only [WeekServer.move, Function.update_self] at htask
      obtain rfl := Option.some.inj htask
      exact hheld
    · simp only [WeekServer.move, Function.update_of_ne hj] at htask
      exact h.held j task_hw' htask
  · show (↑(s.booked ++ [(task_hw, g)]) : Multiset (Buf MAX_WEEK_NAME × Graded))
      = ↑s.rows + (s.move i _).inFlight
    rw [hflight, ← Multiset.coe_add, h.books, Multiset.coe_singleton, add_assoc]

/-- The worker writes the row of his submission, which is not in flight any longer. -/
theorem StoresInv.write_csv (h : StoresInv students file before s) {i : Fin n} {now : ℤ} {tm : Tm}
    {written : Option ℕ} (hweek : WithinWeek students s (.write_csv i now tm written))
    (hstep : weekStep s (.write_csv i now tm written) = some s') :
    StoresInv students file before s' := by
  obtain ⟨hwhole, hroom⟩ := hweek
  obtain ⟨task_hw, g, count, csv, disk, hworker, hcsv, rfl⟩ := write_csv_cases hstep
  obtain ⟨rfl, rfl⟩ := ctx_write_csv_of_open h.opened hwhole hcsv
  have hflight := inFlight_move s i (.checked task_hw g count true s.switched.length)
  simp only [hworker, Worker.inFlight, add_zero] at hflight
  refine ⟨h.week, h.opened, ?_, ?_, h.tracker, ?_, h.appended.concat ⟨tm, rfl⟩, ?_⟩
  · intro j hdr hhdr
    by_cases hj : j = i
    · subst hj
      simp [WeekServer.move, Worker.header] at hhdr
    · simp only [WeekServer.move, Function.update_of_ne hj] at hhdr
      exact h.headers j hdr hhdr
  · intro j task_hw' htask
    by_cases hj : j = i
    · subst hj
      simp [WeekServer.move, Worker.holding] at htask
    · simp only [WeekServer.move, Function.update_of_ne hj] at htask
      exact h.held j task_hw' htask
  · show (s.csv.total_records + 1).toNat = (s.rows ++ [(task_hw, g)]).length
    have hmax : UINT32_MAX = 4294967295 := rfl
    rw [UInt32.toNat_add, UInt32.toNat_one, h.records, List.length_append, List.length_singleton]
    rw [h.records] at hroom
    omega
  · show (↑s.booked : Multiset (Buf MAX_WEEK_NAME × Graded))
      = ↑(s.rows ++ [(task_hw, g)]) + (s.move i _).inFlight
    rw [h.books, ← hflight, ← Multiset.coe_add, Multiset.coe_singleton, add_assoc,
      add_comm {(task_hw, g)}]

/-- Every step of the week keeps the invariant. -/
theorem StoresInv.step (hcard : students.card ≤ MAX_STUDENTS) {a : WeekAction n}
    (h : StoresInv students file before s) (hweek : WithinWeek students s a)
    (hstep : weekStep s a = some s') : StoresInv students file before s' := by
  have hnone : ∀ {task_hw : Buf MAX_WEEK_NAME}, task_hw ∈ (none : Option (Buf MAX_WEEK_NAME)) →
      s.hw.current_hw.str = task_hw.str := fun hmem => nomatch hmem
  have hno : ∀ {hdr : SubmitHeader}, hdr ∈ (none : Option SubmitHeader) →
      FromClient students hdr := fun hmem => nomatch hmem
  cases a with
  | set_hw _ => exact hweek.elim
  | reset => exact hweek.elim
  | open_csv _ _ _ => exact hweek.elim
  | set_students count =>
    obtain ⟨-, rfl⟩ := set_students_cases hstep
    obtain ⟨table, hbooks⟩ := h.tracker
    exact ⟨h.week, h.opened, h.headers, h.held,
      ⟨table, hbooks.toEnrolled.set_students count, hbooks.bounded⟩, h.records, h.appended, h.books⟩
  | snapshot i =>
    obtain ⟨hworker, rfl⟩ := snapshot_cases hstep
    exact h.move i (by rw [hworker]; rfl) (fun _ => hno) (fun _ => hnone)
  | leave i =>
    obtain ⟨_, hworker, rfl⟩ := leave_cases hstep
    exact h.move i (by rw [hworker]; rfl) (fun _ => hno) (fun _ => hnone)
  | expect i hdr _ _ =>
    obtain ⟨_, hworker, rfl⟩ := expect_cases hstep
    refine h.move i (by rw [hworker]; rfl) ?_ (fun _ => hnone)
    rintro _ ⟨rfl⟩
    exact hweek
  | compare i _ =>
    obtain ⟨_, hdr, _, _, _, hworker, rfl⟩ := compare_cases hstep
    refine h.move i (by rw [hworker]; rfl) ?_ (fun _ => hnone)
    rintro _ ⟨rfl⟩
    exact h.headers i hdr (by rw [hworker]; rfl)
  | fail i hdr _ _ _ =>
    obtain ⟨_, hworker, rfl⟩ := fail_cases hstep
    refine h.move i (by rw [hworker]; rfl) ?_ (fun _ => hnone)
    rintro _ ⟨rfl⟩
    exact hweek
  | check i =>
    obtain ⟨task_hw, g, hworker, ⟨hsame, rfl⟩ | ⟨-, rfl⟩⟩ := check_cases hstep
    · refine h.move i (by rw [hworker]; rfl) ?_ ?_
      · rintro _ ⟨rfl⟩
        exact h.headers i g.hdr (by rw [hworker]; rfl)
      · rintro _ ⟨rfl⟩
        exact hsame
    · exact h.move i (by rw [hworker]; rfl) (fun _ => hno) (fun _ => hnone)
  | record i now => exact h.record hcard hweek hstep
  | write_csv i now tm written => exact h.write_csv hweek hstep
  | reply i =>
    obtain ⟨_, _, _, _, _, hworker, rfl⟩ := reply_cases hstep
    have hmove := h.move i (w := .idle) (by rw [hworker]; rfl) (fun _ => hno) (fun _ => hnone)
    exact ⟨hmove.week, hmove.opened, hmove.headers, hmove.held, hmove.tracker, hmove.records,
      hmove.appended, hmove.books⟩

/-- The row of a submission in flight is well defined, so the worker can write it. -/
theorem StoresInv.writable (h : StoresInv students file before s) {i : Fin n}
    (hi : i ∈ s.between) (now : ℤ) (tm : Tm) (written : Option ℕ) :
    (weekStep s (.write_csv i now tm written)).isSome := by
  rw [WeekServer.between, Finset.mem_filter] at hi
  obtain ⟨task_hw, g, count, hworker⟩ : ∃ task_hw g count,
      s.workers i = .recorded task_hw g count := by
    rcases hworker : s.workers i with _ | _ | _ | _ | _ | ⟨task_hw, g, count⟩ | _ <;>
      first
      | exact ⟨_, _, _, rfl⟩
      | simp [hworker, Worker.inFlight] at hi
  have hclient := h.headers i g.hdr (by rw [hworker]; rfl)
  have hheld := h.held i task_hw (by rw [hworker]; rfl)
  have hstr := str_fromStudentId hclient.terminated
  have hterm : Terminated g.hdr.fromStudentId := by
    simp only [SubmitHeader.fromStudentId, List.append_assoc]
    exact List.mem_append_left _ hclient.terminated
  have hfits : (csvRow tm g.hdr.fromStudentId task_hw.bytes g.grade g.exec_ms g.mem_kb).length
      < 512 := by
    refine length_csvRow_lt ?_ ?_
    · rw [hstr]
      exact le_trans hclient.1.2.1 (by decide)
    · have hweek := h.week
      rw [hheld] at hweek
      exact hweek
  simp only [weekStep, hworker, ctx_write_csv, h.opened, if_pos (And.intro hterm hfits)]
  cases written <;> rfl

end

/-! ## The two stores -/

/-- Tracker and gradebook agree but for the submissions in flight. -/
structure InStep (file : Bytes) (before : Disk) (s : WeekServer n) : Prop where
  records : s.csv.total_records.toNat = s.rows.length
  appended : Appended file before s.disk s.rows
  attempts : submitSum s.tracker = s.csv.total_records.toNat + s.between.card
  books : (s.booked : Multiset (Buf MAX_WEEK_NAME × Graded)) = s.rows + s.inFlight
  counted : ∀ r ∈ s.tracker.students.records, ¬ r.IsFree →
    r.submit_count.toNat = s.booked.countP fun x => studentOf x = r.id
  known : ∀ x ∈ s.booked, ∃ r ∈ s.tracker.students.records, r.id = studentOf x
  settled : s.between = ∅ →
    submitSum s.tracker = s.csv.total_records.toNat ∧ s.booked.Perm s.rows
  writable : ∀ i ∈ s.between, ∀ now tm written,
    (weekStep s (.write_csv i now tm written)).isSome

theorem StoresInv.inStep {students : Finset Bytes} {file : Bytes} {before : Disk}
    {s : WeekServer n} (h : StoresInv students file before s) : InStep file before s := by
  obtain ⟨table, hbooks⟩ := h.tracker
  have hfilled := hbooks.represents.filled
  have hlen : s.booked.length = s.rows.length + s.between.card := by
    rw [← card_inFlight, ← Multiset.coe_card s.booked, h.books, Multiset.card_add,
      Multiset.coe_card]
  have hattempts : submitSum s.tracker = s.csv.total_records.toNat + s.between.card := by
    rw [hbooks.submitSum_eq, hlen, h.records]
  refine ⟨h.records, h.appended, hattempts, h.books, ?_, ?_, ?_, fun i hi => h.writable hi⟩
  · intro r hr hused
    exact hbooks.submit_count ((hfilled.mem_iff r).mpr ⟨hr, hused⟩)
  · intro x hx
    obtain ⟨r, hr, hid⟩ := List.mem_map.mp (hbooks.complete x hx)
    exact ⟨r, ((hfilled.mem_iff r).mp hr).1, hid⟩
  · intro hnone
    refine ⟨by rw [hattempts, hnone, Finset.card_empty, add_zero], ?_⟩
    have hzero : s.inFlight = 0 := by
      rw [← Multiset.card_eq_zero, card_inFlight, hnone, Finset.card_empty]
    have hbooks := h.books
    rw [hzero, add_zero] at hbooks
    exact Multiset.coe_eq_coe.mp hbooks

/-- **Tracker and gradebook do not drift apart.**  In every interleaving of submissions within
one week, from the client and by at most `MAX_STUDENTS` students, with rows that are written whole
and counters below their limits, in every state `total_records` is the number of rows appended, the
attempts of all students exceed it by the number of workers between the two stores, and the
submissions in the tracker are those in the gradebook and in flight.  With no worker between the
stores both have the same submissions. -/
theorem stores_in_step (students : Finset Bytes) (hcard : students.card ≤ MAX_STUDENTS)
    (file : Bytes) (s : WeekServer n) (hstart : AfterSwitch students file s)
    (as : List (WeekAction n)) (hweek : Along weekStep (WithinWeek students) s as) :
    Always weekStep (InStep file s.disk) s as :=
  (always_of_invariant hstart.storesInv (fun _ _ _ h hP hstep => h.step hcard hP hstep)
    hweek).imp fun _ h => h.inStep

/-! ## Two workers -/

/-- The submission a worker is about to enter. -/
def Worker.toEnter : Worker → Option (Buf MAX_WEEK_NAME × Graded)
  | .matched task_hw g => some (task_hw, g)
  | _ => none

theorem toEnter_eq_some {w : Worker} {task_hw : Buf MAX_WEEK_NAME} {g : Graded} :
    w.toEnter = some (task_hw, g) ↔ w = .matched task_hw g := by
  cases w <;> simp [Worker.toEnter]

instance (students : Finset Bytes) (hdr : SubmitHeader) : Decidable (FromClient students hdr) :=
  inferInstanceAs (Decidable (_ ∧ _))

/-- Whether a section is one of the week can be computed. -/
instance (students : Finset Bytes) (s : WeekServer n) : ∀ a, Decidable (WithinWeek students s a)
  | .set_hw _ | .reset | .open_csv _ _ _ => .isFalse not_false
  | .set_students _ | .snapshot _ | .leave _ | .compare _ _ | .check _ | .reply _ => .isTrue trivial
  | .expect _ hdr _ _ | .fail _ hdr _ _ _ => inferInstanceAs (Decidable (FromClient students hdr))
  | .write_csv _ _ _ _ => inferInstanceAs (Decidable (_ ∧ _))
  | .record i _ =>
    decidable_of_iff (∀ x ∈ (s.workers i).toEnter,
        ∀ y ∈ locate s.tracker.students.records x.2.hdr.student_id.bytes,
          y.2.submit_count.toNat < UINT32_MAX) <| by
      constructor
      · intro h task_hw g hworker j r hloc
        exact h (task_hw, g) (toEnter_eq_some.mpr hworker) (j, r) hloc
      · rintro h ⟨task_hw, g⟩ hx ⟨j, r⟩ hloc
        exact h task_hw g (toEnter_eq_some.mp hx) j r hloc

/-- The server after `ctx_init`, with an empty gradebook for `week_1`. -/
def weekOne : WeekServer 2 :=
  .initial 2
    { total_records := 0, last_write_ts := 0, csv_fd := some (ascii "week_1_results.csv")
      csv_path := ascii "week_1_results.csv" } fun _ => none

/-- Two submissions that do not compile: both workers are between the stores, and the second one
writes its row first. -/
theorem stores_in_step_two :
    Always weekStep (InStep (ascii "week_1_results.csv") fun _ => none) weekOne
      [.snapshot 0, .fail 0 someHeader GRADE_CE 0 0, .check 0, .snapshot 1,
        .fail 1 { someHeader with student_id := .ofStr 15 (ascii "20240456") } GRADE_CE 0 0,
        .check 1, .record 0 20, .record 1 21, .write_csv 1 22 someTm (some 511),
        .write_csv 0 22 someTm (some 511), .reply 0, .reply 1] := by
  have hstart : AfterSwitch {ascii "20240123", ascii "20240456"} (ascii "week_1_results.csv")
      weekOne := by
    refine ⟨⟨ascii "week_1", by decide, rfl⟩, ⟨_, rfl⟩, rfl, rfl, ⟨rfl, rfl⟩, ?_, ?_, fun _ => rfl⟩
    · rintro i hdr ⟨⟩
    · rintro i task_hw ⟨⟩
  exact stores_in_step _ (by decide) _ weekOne hstart _ (by decide +kernel)

end MiniCi
