/-
# What the status bars of a class say

Within one week a client whose submission has been entered is told which attempt of its student it
was, and how many students have solved the assignment.  The first is read when the submission is
entered, the second when the reply is made, so other submissions may have been entered in between
(`Told`); both are right, for at most `MAX_STUDENTS` students with ids from the client
(`status_bars_right`).  The gradebook has no part in this: it may be closed, or its rows be lost.
-/
import MiniCi.Classroom

namespace MiniCi

open CStr Runs

/-! ## What has been entered -/

/-- A submission in the tracker, with its week. -/
abbrev Entry := Buf MAX_WEEK_NAME × Graded

/-- The students with an accepted submission. -/
def solvers (booked : List Entry) : Finset Bytes :=
  ((booked.filter fun x => x.2.grade = GRADE_AC).map studentOf).toFinset

/-- Which attempt of its student a submission is, with `before` entered before it. -/
def attemptNumber (before : List Entry) (x : Entry) : ℕ :=
  (before.countP fun y => studentOf y = studentOf x) + 1

theorem mem_solvers (booked : List Entry) (s : Bytes) :
    s ∈ solvers booked ↔ ∃ x ∈ booked, studentOf x = s ∧ x.2.grade = GRADE_AC := by
  unfold solvers
  rw [List.mem_toFinset, List.mem_map]
  constructor
  · rintro ⟨x, hx, rfl⟩
    obtain ⟨hmem, hgrade⟩ := List.mem_filter.mp hx
    exact ⟨x, hmem, rfl, of_decide_eq_true hgrade⟩
  · rintro ⟨x, hx, rfl, hgrade⟩
    exact ⟨x, List.mem_filter.mpr ⟨hx, decide_eq_true hgrade⟩, rfl⟩

section Enrolled

variable {students : Finset Bytes} {booked : List Entry} {t : TrackerState}
  {table : List StudentRecord}

theorem Enrolled.solved_iff (h : Enrolled students booked t table) {r : StudentRecord}
    (hr : r ∈ table) : r.submitted = 1 ↔ r.id ∈ solvers booked := by
  have hknown := (h.represents.mem_known_iff r.id).mpr (List.mem_map_of_mem hr)
  rw [(h.represents.records r hr).solved_iff, Ledger.solved_ofLog, and_iff_right hknown,
    mem_solvers]
  unfold bookedLog
  constructor
  · rintro ⟨y, hy, hid, hgrade⟩
    obtain ⟨x, hx, rfl⟩ := List.mem_map.mp hy
    exact ⟨x, hx, hid, hgrade⟩
  · rintro ⟨x, hx, hid, hgrade⟩
    exact ⟨_, List.mem_map_of_mem hx, hid, hgrade⟩

/-- `submitted_count` is the number of students who have solved the assignment. -/
theorem Enrolled.submitted_count (h : Enrolled students booked t table) :
    t.submitted_count.toNat = (solvers booked).card := by
  have hids : (solvers booked) = ((table.filter fun r => r.submitted = 1).map (·.id)).toFinset := by
    ext s
    rw [List.mem_toFinset, List.mem_map]
    constructor
    · intro hs
      obtain ⟨x, hx, hstudent, -⟩ := (mem_solvers _ _).mp hs
      obtain ⟨r, hr, hid⟩ := List.mem_map.mp (h.complete x hx)
      have hrs : r.id = s := hid.trans hstudent
      exact ⟨r, List.mem_filter.mpr ⟨hr, decide_eq_true ((h.solved_iff hr).mpr (hrs ▸ hs))⟩, hrs⟩
    · rintro ⟨r, hr, rfl⟩
      obtain ⟨hmem, hsolved⟩ := List.mem_filter.mp hr
      exact (h.solved_iff hmem).mp (of_decide_eq_true hsolved)
  have hnodup : ((table.filter fun r => r.submitted = 1).map (·.id)).Nodup :=
    h.represents.nodup.sublist (List.filter_sublist.map _)
  rw [hids, List.toFinset_card_of_nodup hnodup, List.length_map, h.represents.count, solvedRows,
    List.countP_eq_length_filter]

/-- `ctx_record_submission` answers with the number of the attempt. -/
theorem Enrolled.count_record (h : Enrolled students booked t table)
    (hcard : students.card ≤ MAX_STUDENTS) (task_hw : Buf MAX_WEEK_NAME) {g : Graded}
    (hid : ClientId g.hdr.student_id.bytes) (hmem : g.hdr.student_id.str ∈ students) (now : ℤ) :
    (ctx_record_submission t g.hdr.student_id.bytes g.grade now).1.toNat =
      min (attemptNumber booked (task_hw, g)) UINT16_MAX := by
  have haccepts := h.accepts hcard hmem
  have hcount := (represents_record h.represents hid.usable g.grade now).2.1 haccepts
  rw [hcount, Ledger.attempts_ofLog]
  have hlog : (bookedLog booked).countP (fun x => x.1 = str g.hdr.student_id.bytes) =
      booked.countP fun x => studentOf x = studentOf (task_hw, g) := countP_bookedLog booked _
  split_ifs with hknown
  · rw [hlog]
    rfl
  · have hzero : (bookedLog booked).countP (fun x => x.1 = str g.hdr.student_id.bytes) = 0 :=
      Ledger.countP_of_first haccepts hknown
    rw [attemptNumber, ← hlog, hzero]

end Enrolled

/-! ## What a client is told -/

/-- The number of the attempt, as it was when the submission was entered. -/
def Numbered (booked : List Entry) (x : Entry) (my_submit_count : UInt16) : Prop :=
  ∃ before, before ++ [x] <+: booked ∧
    my_submit_count.toNat = min (attemptNumber before x) UINT16_MAX

/-- The status bar says which attempt it was, and how many students had solved the assignment when
the reply was made. -/
def Told (booked : List Entry) (x : Entry) (status : ClientStatus) : Prop :=
  ∃ before seen, before ++ [x] <+: seen ∧ seen <+: booked ∧
    status.my_submit_count.toNat = min (attemptNumber before x) UINT16_MAX ∧
    status.submitted.toNat = (solvers seen).card

theorem Numbered.mono {booked booked' : List Entry} {x : Entry} {my_submit_count : UInt16}
    (h : Numbered booked x my_submit_count) (hle : booked <+: booked') :
    Numbered booked' x my_submit_count := by
  obtain ⟨before, hbefore, hcount⟩ := h
  exact ⟨before, hbefore.trans hle, hcount⟩

theorem Told.mono {booked booked' : List Entry} {x : Entry} {status : ClientStatus}
    (h : Told booked x status) (hle : booked <+: booked') : Told booked' x status := by
  obtain ⟨before, seen, hbefore, hseen, hrest⟩ := h
  exact ⟨before, seen, hbefore, hseen.trans hle, hrest⟩

/-- The submission a worker has entered, with the number it was given. -/
def Worker.enteredAs : Worker → Option (Entry × UInt16)
  | .recorded task_hw g my_submit_count => some ((task_hw, g), my_submit_count)
  | .checked task_hw g my_submit_count true _ => some ((task_hw, g), my_submit_count)
  | _ => none

/-! ## Within a week -/

/-- Until the tracker is emptied, with submissions from the client by these students. -/
def InWeek (students : Finset Bytes) {n : ℕ} : WeekAction n → Prop
  | .reset => False
  | .expect _ hdr _ _ => FromClient students hdr
  | .fail _ hdr _ _ _ => FromClient students hdr
  | _ => True

/-- What the tracker and the workers have of the submissions `since` the week began. -/
structure Counts (students : Finset Bytes) (since : List Entry) {n : ℕ} (s : WeekServer n) :
    Prop where
  headers : ∀ i, ∀ hdr ∈ (s.workers i).header, FromClient students hdr
  tracker : ∃ table, Enrolled students since s.tracker table
  numbered : ∀ i x my_submit_count, (s.workers i).enteredAs = some (x, my_submit_count) →
    Numbered since x my_submit_count

section Counts

variable {students : Finset Bytes} {since since' : List Entry} {n : ℕ} {s s' : WeekServer n}

/-- One worker moves on, and the tracker may get ahead. -/
theorem Counts.ahead (h : Counts students since s) (hle : since <+: since') {i : Fin n} {w : Worker}
    (hworkers : s'.workers = Function.update s.workers i w)
    (htracker : ∃ table, Enrolled students since' s'.tracker table)
    (hheader : ∀ hdr ∈ w.header, FromClient students hdr)
    (hentered : ∀ x my_submit_count, w.enteredAs = some (x, my_submit_count) →
      Numbered since' x my_submit_count) : Counts students since' s' := by
  refine ⟨?_, htracker, ?_⟩
  · intro j hdr hj
    rw [hworkers] at hj
    by_cases hij : j = i
    · subst hij
      rw [Function.update_self] at hj
      exact hheader hdr hj
    · rw [Function.update_of_ne hij] at hj
      exact h.headers j hdr hj
  · intro j x my_submit_count hj
    rw [hworkers] at hj
    by_cases hij : j = i
    · subst hij
      rw [Function.update_self] at hj
      exact hentered x my_submit_count hj
    · rw [Function.update_of_ne hij] at hj
      exact (h.numbered j x my_submit_count hj).mono hle

/-- One worker moves on, and nothing is entered. -/
theorem Counts.move (h : Counts students since s) {i : Fin n} {w : Worker}
    (hworkers : s'.workers = Function.update s.workers i w) (htracker : s'.tracker = s.tracker)
    (hheader : ∀ hdr ∈ w.header, FromClient students hdr)
    (hentered : ∀ x my_submit_count, w.enteredAs = some (x, my_submit_count) →
      (s.workers i).enteredAs = some (x, my_submit_count)) : Counts students since s' :=
  h.ahead (List.prefix_refl since) hworkers (htracker ▸ h.tracker) hheader
    fun x my_submit_count hx => h.numbered i x my_submit_count (hentered x my_submit_count hx)

/-- **One section of the server**: at most one submission is entered, and a worker that has entered
one has the number of its attempt. -/
theorem Counts.step (hcard : students.card ≤ MAX_STUDENTS) (h : Counts students since s)
    {a : WeekAction n} (hweek : InWeek students a) (hstep : weekStep s a = some s') :
    ∃ more, s'.booked = s.booked ++ more ∧ Counts students (since ++ more) s' := by
  have hsame : ∀ {server : WeekServer n}, server.booked = s.booked → Counts students since server →
      ∃ more, server.booked = s.booked ++ more ∧ Counts students (since ++ more) server := by
    intro server hbooked hcounts
    refine ⟨[], by rw [hbooked, List.append_nil], ?_⟩
    rw [List.append_nil]
    exact hcounts
  cases a with
  | set_hw week_name =>
    obtain ⟨-, rfl | ⟨-, -, rfl⟩⟩ := set_hw_cases hstep
    · exact hsame rfl h
    · exact hsame rfl ⟨h.headers, h.tracker, h.numbered⟩
  | reset => exact hweek.elim
  | open_csv _ _ _ =>
    obtain ⟨_, -, rfl⟩ := open_csv_cases hstep
    exact hsame rfl ⟨h.headers, h.tracker, h.numbered⟩
  | set_students count =>
    obtain ⟨-, rfl⟩ := set_students_cases hstep
    obtain ⟨table, htable⟩ := h.tracker
    exact hsame rfl ⟨h.headers, ⟨table, htable.set_students count⟩, h.numbered⟩
  | snapshot i =>
    obtain ⟨-, rfl⟩ := snapshot_cases hstep
    exact hsame rfl (h.move rfl rfl nofun nofun)
  | leave i =>
    obtain ⟨_, -, rfl⟩ := leave_cases hstep
    exact hsame rfl (h.move rfl rfl nofun nofun)
  | expect i hdr _ _ =>
    obtain ⟨_, -, rfl⟩ := expect_cases hstep
    refine hsame rfl (h.move rfl rfl ?_ nofun)
    rintro _ ⟨rfl⟩
    exact hweek
  | compare i _ =>
    obtain ⟨_, hdr, _, _, _, hworker, rfl⟩ := compare_cases hstep
    refine hsame rfl (h.move rfl rfl ?_ nofun)
    rintro _ ⟨rfl⟩
    exact h.headers i hdr (by rw [hworker]; rfl)
  | fail i hdr _ _ _ =>
    obtain ⟨_, -, rfl⟩ := fail_cases hstep
    refine hsame rfl (h.move rfl rfl ?_ nofun)
    rintro _ ⟨rfl⟩
    exact hweek
  | check i =>
    obtain ⟨_, g, hworker, ⟨-, rfl⟩ | ⟨-, rfl⟩⟩ := check_cases hstep
    · refine hsame rfl (h.move rfl rfl ?_ nofun)
      rintro _ ⟨rfl⟩
      exact h.headers i g.hdr (by rw [hworker]; rfl)
    · exact hsame rfl (h.move rfl rfl nofun nofun)
  | record i now =>
    obtain ⟨task_hw, g, hworker, rfl⟩ := record_cases_week hstep
    obtain ⟨table, htable⟩ := h.tracker
    have hclient := h.headers i g.hdr (by rw [hworker]; rfl)
    refine ⟨[(task_hw, g)], rfl, h.ahead (List.prefix_append _ _) rfl
      (htable.record hcard task_hw hclient.1 hclient.2 now) ?_ ?_⟩
    · rintro _ ⟨rfl⟩
      exact hclient
    · rintro x my_submit_count ⟨rfl⟩
      exact ⟨since, List.prefix_refl _, htable.count_record hcard task_hw hclient.1 hclient.2 now⟩
  | write_csv i _ _ _ =>
    obtain ⟨_, _, _, _, _, hworker, -, rfl⟩ := write_csv_cases hstep
    refine hsame rfl (h.move rfl rfl nofun fun x my_submit_count hx => ?_)
    rw [hworker]
    exact hx
  | reply i =>
    obtain ⟨_, _, _, _, _, -, rfl⟩ := reply_cases hstep
    exact hsame rfl (h.move rfl rfl nofun nofun)

/-- A worker that answers tells what it knows and what the tracker says. -/
theorem Counts.told (h : Counts students since s) {i : Fin n} {task_hw : Buf MAX_WEEK_NAME}
    {g : Graded} {my_submit_count : UInt16} {resets : ℕ}
    (hworker : s.workers i = .checked task_hw g my_submit_count true resets) :
    Told since (task_hw, g)
      (on_result_received (resultHeader task_hw g my_submit_count s.tracker)) := by
  obtain ⟨table, htable⟩ := h.tracker
  obtain ⟨before, hbefore, hcount⟩ := h.numbered i (task_hw, g) my_submit_count
    (by rw [hworker]; rfl)
  exact ⟨before, since, hbefore, List.prefix_refl _, hcount, htable.submitted_count⟩

end Counts

/-! ## A class within a week -/

/-- `InWeek` for the steps of a class. -/
def ClassWithinWeek (students : Finset Bytes) (_ : Classroom) : ClassAction → Prop
  | .week a => InWeek students a
  | _ => True

/-- What holds throughout the week, with the replies `old` and the entries `gone` from before it. -/
def CountsInv (students : Finset Bytes) (gone : List Entry) (old : List Answer) (s : Classroom) :
    Prop :=
  ∃ since new, s.server.booked = gone ++ since ∧ s.answers = old ++ new ∧
    Counts students since s.server ∧ ∀ a ∈ new, a.isRecorded = true →
      ∃ task_hw, Told since (task_hw, a.g) (on_result_received a.header)

section Week

variable {students : Finset Bytes} {gone : List Entry} {old : List Answer} {s s' : Classroom}

/-- A step of the class is a section of the server, or the server stands still. -/
theorem server_classStep {a : ClassAction} (hweek : ClassWithinWeek students s a)
    (hstep : classStep s a = some s') :
    s'.server = s.server ∨ ∃ b, weekStep s.server b = some s'.server ∧ InWeek students b := by
  cases a with
  | connect wire =>
    obtain rfl := connect_cases hstep
    exact .inl rfl
  | take i =>
    obtain ⟨-, _, _, -, rfl⟩ := take_cases hstep
    exact .inl rfl
  | receive i _ _ _ _ =>
    obtain ⟨_, _, -, -, rfl⟩ := receive_cases hstep
    exact .inl rfl
  | leave i =>
    obtain ⟨_, _, server, -, -, -, hserver, rfl⟩ := leave_cases_class hstep
    exact .inr ⟨_, hserver, trivial⟩
  | record i now =>
    obtain ⟨_, server, -, hserver, rfl⟩ := record_cases_class hstep
    exact .inr ⟨_, hserver, trivial⟩
  | reply i =>
    obtain ⟨_, _, _, _, _, _, _, server, -, -, -, hserver, rfl⟩ := reply_cases_class hstep
    exact .inr ⟨_, hserver, trivial⟩
  | week a =>
    obtain ⟨-, server, hserver, rfl⟩ := week_cases hstep
    exact .inr ⟨_, hserver, hweek⟩

/-- A step adds a reply, or none. -/
theorem answers_classStep {a : ClassAction} (hstep : classStep s a = some s') :
    s'.answers = s.answers ∨
      ∃ i task_hw g my_submit_count isRecorded resets sock opened writes source,
      s.server.workers i = .checked task_hw g my_submit_count isRecorded resets ∧
      s'.answers = s.answers ++ [⟨sock, opened, writes, source, g, isRecorded,
        resultHeader task_hw g my_submit_count s.server.tracker⟩] := by
  cases a with
  | connect wire =>
    obtain rfl := connect_cases hstep
    exact .inl rfl
  | take i =>
    obtain ⟨-, _, _, -, rfl⟩ := take_cases hstep
    exact .inl rfl
  | receive i _ _ _ _ =>
    obtain ⟨_, _, -, -, rfl⟩ := receive_cases hstep
    exact .inl rfl
  | leave i =>
    obtain ⟨_, _, _, -, -, -, -, rfl⟩ := leave_cases_class hstep
    exact .inl rfl
  | record i now =>
    obtain ⟨_, _, -, -, rfl⟩ := record_cases_class hstep
    exact .inl rfl
  | reply i =>
    obtain ⟨_, _, _, _, _, _, _, _, -, -, hworker, -, rfl⟩ := reply_cases_class hstep
    exact .inr ⟨i, _, _, _, _, _, _, _, _, _, hworker, rfl⟩
  | week a =>
    obtain ⟨-, _, -, rfl⟩ := week_cases hstep
    exact .inl rfl

/-- **One step of the class**, within the week. -/
theorem CountsInv.step (hcard : students.card ≤ MAX_STUDENTS) (h : CountsInv students gone old s)
    {a : ClassAction} (hweek : ClassWithinWeek students s a) (hstep : classStep s a = some s') :
    CountsInv students gone old s' := by
  obtain ⟨since, new, hbooked, hnew, hcounts, htold⟩ := h
  obtain ⟨more, hbooked', hcounts'⟩ : ∃ more, s'.server.booked = s.server.booked ++ more ∧
      Counts students (since ++ more) s'.server := by
    rcases server_classStep hweek hstep with hsame | ⟨b, hb, hwithin⟩
    · refine ⟨[], by rw [hsame, List.append_nil], ?_⟩
      rw [hsame, List.append_nil]
      exact hcounts
    · exact hcounts.step hcard hwithin hb
  have hle : since <+: since ++ more := List.prefix_append _ _
  have hkept : ∀ a ∈ new, a.isRecorded = true →
      ∃ task_hw, Told (since ++ more) (task_hw, a.g) (on_result_received a.header) := by
    intro a ha hrecorded
    obtain ⟨task_hw, h⟩ := htold a ha hrecorded
    exact ⟨task_hw, h.mono hle⟩
  have hgone : s'.server.booked = gone ++ (since ++ more) := by
    rw [hbooked', hbooked, List.append_assoc]
  rcases answers_classStep hstep with hsame | ⟨i, task_hw, g, my_submit_count, isRecorded, resets,
    sock, opened, writes, source, hworker, hanswer⟩
  · exact ⟨since ++ more, new, hgone, hsame.trans hnew, hcounts', hkept⟩
  · refine ⟨since ++ more, new ++ [_], hgone, by rw [hanswer, hnew, List.append_assoc], hcounts',
      ?_⟩
    intro a ha hrecorded
    rcases List.mem_append.mp ha with hold | hlast
    · exact hkept a hold hrecorded
    · obtain rfl := List.mem_singleton.mp hlast
      obtain rfl : isRecorded = true := hrecorded
      exact ⟨task_hw, (hcounts.told hworker).mono hle⟩

end Week

instance (students : Finset Bytes) {n : ℕ} : ∀ a : WeekAction n, Decidable (InWeek students a)
  | .reset => .isFalse not_false
  | .expect _ hdr _ _ | .fail _ hdr _ _ _ => inferInstanceAs (Decidable (FromClient students hdr))
  | .set_hw _ | .open_csv _ _ _ | .set_students _ | .snapshot _ | .leave _ | .compare _ _
  | .check _ | .record _ _ | .write_csv _ _ _ _ | .reply _ => .isTrue trivial

instance (students : Finset Bytes) (s : Classroom) : ∀ a, Decidable (ClassWithinWeek students s a)
  | .week a => inferInstanceAs (Decidable (InWeek students a))
  | .connect _ | .take _ | .receive _ _ _ _ _ | .leave _ | .record _ _ | .reply _ => .isTrue trivial

end MiniCi
