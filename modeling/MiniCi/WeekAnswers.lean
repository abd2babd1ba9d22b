/-
# Which answers a grade is judged against

`handle_client` copies the week to `task_hw` when it starts and `ans_path` to
`expected_path` when the program has run, in two `hw_lock` sections.  `ans_path` always is
the path that `ctx_set_hw` derives from `current_hw`; so a grade is judged against the
answers of the week it is labelled with as long as the second section finds `current_hw`
as the first one did.
-/
import MiniCi.WeekServer

namespace MiniCi

open CStr

variable {n : ℕ}

/-! ## The property and the condition -/

/-- A path that a comparison used is the one derived from the week. -/
def FromWeek (week : Buf MAX_WEEK_NAME) (expected_path : Option Bytes) : Prop :=
  ∀ path, expected_path = some path → path = ansPath week.str

/-- Every reply, and every submission passed to the tracker or the gradebook, that was
graded by `compare_output` was compared with the answers of its own week. -/
structure JudgedByItsWeek (s : WeekServer n) : Prop where
  replies : ∀ r ∈ s.replies, FromWeek r.header.week_name r.expected_path
  booked : ∀ b ∈ s.booked, FromWeek b.1 b.2.expected_path
  rows : ∀ b ∈ s.rows, FromWeek b.1 b.2.expected_path

/-- A worker that copies `ans_path` finds the week it started with. -/
def SameWeekAnswers (s : WeekServer n) : WeekAction n → Prop
  | .expect i _ _ _ => ∀ task_hw ∈ (s.workers i).starting, s.hw.current_hw.str = task_hw.str
  | _ => True

instance (s : WeekServer n) (a : WeekAction n) : Decidable (SameWeekAnswers s a) :=
  match a with
  | .expect _ _ _ _ => inferInstanceAs (Decidable (∀ _ ∈ _, _))
  | .set_hw _ | .reset | .open_csv _ _ _ | .set_students _ | .snapshot _ | .leave _
  | .compare _ _ | .fail _ _ _ _ _ | .check _ | .record _ _ | .write_csv _ _ _ _ | .reply _ =>
    isTrue trivial

/-! ## The invariant -/

/-- The paths a worker carries with it are derived from its `task_hw`. -/
def Worker.Judged : Worker → Prop
  | .idle => True
  | .started _ => True
  | .comparing task_hw _ _ _ expected_path => FromWeek task_hw (some expected_path)
  | .graded task_hw g => FromWeek task_hw g.expected_path
  | .matched task_hw g => FromWeek task_hw g.expected_path
  | .recorded task_hw g _ => FromWeek task_hw g.expected_path
  | .checked task_hw g _ _ _ => FromWeek task_hw g.expected_path

/-- The replies and entries so far are judged by their week, so is what the workers carry,
and `ans_path` belongs to `current_hw`. -/
structure AnswersInv (s : WeekServer n) : Prop where
  path : s.hw.ans_path = ansPath s.hw.current_hw.str
  workers : ∀ i, (s.workers i).Judged
  judged : JudgedByItsWeek s

/-- `ctx_set_hw` keeps `ans_path` and `current_hw` in step. -/
theorem ans_path_ctx_set_hw_paths {week_name : Bytes} (h : ValidWeekName week_name) :
    (ctx_set_hw_paths week_name).ans_path =
      ansPath (ctx_set_hw_paths week_name).current_hw.str := by
  have hlen : (str week_name).length ≤ MAX_WEEK_NAME - 1 := Nat.le_sub_one_of_lt h.2
  show ansPath week_name = ansPath (Buf.ofStr (MAX_WEEK_NAME - 1) week_name).str
  rw [Buf.str_ofStr, List.take_of_length_le hlen, ansPath, ansPath, str_str]

theorem answersInv_initial (csv : CsvState) (disk : Disk) :
    AnswersInv (WeekServer.initial n csv disk) :=
  ⟨ans_path_ctx_set_hw_paths (by decide), fun _ => trivial, by simp [WeekServer.initial],
    by simp [WeekServer.initial], by simp [WeekServer.initial]⟩

/-- Moving one worker keeps the invariant if the worker carries a path of its week. -/
theorem AnswersInv.move {s : WeekServer n} (h : AnswersInv s) (i : Fin n) {w : Worker}
    (hw : w.Judged) : AnswersInv (s.move i w) := by
  refine ⟨h.path, fun j => ?_, h.judged.replies, h.judged.booked, h.judged.rows⟩
  by_cases hj : j = i
  · subst hj
    simpa [WeekServer.move] using hw
  · simpa [WeekServer.move, hj] using h.workers j

/-- The invariant is kept by every step, if those that copy `ans_path` find the week of
their submission. -/
theorem answersInv_step (s : WeekServer n) (a : WeekAction n) (s' : WeekServer n)
    (h : AnswersInv s) (hsame : SameWeekAnswers s a) (hstep : weekStep s a = some s') :
    AnswersInv s' := by
  cases a with
  | set_hw week_name =>
    obtain ⟨-, rfl | ⟨hvalid, -, rfl⟩⟩ := set_hw_cases hstep
    · exact h
    · exact ⟨ans_path_ctx_set_hw_paths hvalid, h.workers, h.judged.replies, h.judged.booked,
        h.judged.rows⟩
  | reset =>
    obtain ⟨_, -, rfl⟩ := reset_cases hstep
    exact ⟨h.path, h.workers, h.judged.replies, h.judged.booked, h.judged.rows⟩
  | open_csv _ _ _ =>
    obtain ⟨_, -, rfl⟩ := open_csv_cases hstep
    exact ⟨h.path, h.workers, h.judged.replies, h.judged.booked, h.judged.rows⟩
  | set_students _ =>
    obtain ⟨-, rfl⟩ := set_students_cases hstep
    exact ⟨h.path, h.workers, h.judged.replies, h.judged.booked, h.judged.rows⟩
  | snapshot i =>
    obtain ⟨-, rfl⟩ := snapshot_cases hstep
    exact h.move i trivial
  | leave i =>
    obtain ⟨_, -, rfl⟩ := leave_cases hstep
    exact h.move i trivial
  | expect i _ _ _ =>
    obtain ⟨task_hw, hworker, rfl⟩ := expect_cases hstep
    refine h.move i fun path hpath => ?_
    rw [← Option.some.inj hpath, h.path, hsame task_hw (by rw [hworker]; rfl)]
  | compare i _ =>
    obtain ⟨_, _, _, _, _, hworker, rfl⟩ := compare_cases hstep
    have hjudged := h.workers i
    rw [hworker] at hjudged
    exact h.move i hjudged
  | fail i _ _ _ _ =>
    obtain ⟨_, -, rfl⟩ := fail_cases hstep
    exact h.move i fun _ hnone => nomatch hnone
  | check i =>
    obtain ⟨_, _, hworker, ⟨-, rfl⟩ | ⟨-, rfl⟩⟩ := check_cases hstep <;>
    · have hjudged := h.workers i
      rw [hworker] at hjudged
      exact h.move i hjudged
  | record i now =>
    obtain ⟨task_hw, g, hworker, rfl⟩ := record_cases_week hstep
    have hjudged := h.workers i
    rw [hworker] at hjudged
    have hmove := h.move i (w := .recorded task_hw g
      (ctx_record_submission s.tracker g.hdr.student_id.bytes g.grade now).1) hjudged
    refine ⟨h.path, hmove.workers, h.judged.replies, fun b hb => ?_, h.judged.rows⟩
    rcases List.mem_append.mp hb with hb | hb
    · exact h.judged.booked b hb
    · exact List.mem_singleton.mp hb ▸ hjudged
  | write_csv i _ _ _ =>
    obtain ⟨task_hw, g, count, _, _, hworker, -, rfl⟩ := write_csv_cases hstep
    have hjudged := h.workers i
    rw [hworker] at hjudged
    have hmove := h.move i (w := .checked task_hw g count true s.switched.length) hjudged
    refine ⟨h.path, hmove.workers, h.judged.replies, h.judged.booked, fun b hb => ?_⟩
    rcases List.mem_append.mp hb with hb | hb
    · exact h.judged.rows b hb
    · exact List.mem_singleton.mp hb ▸ hjudged
  | reply i =>
    obtain ⟨task_hw, g, count, _, _, hworker, rfl⟩ := reply_cases hstep
    have hjudged := h.workers i
    rw [hworker] at hjudged
    have hmove := h.move i (w := .idle) trivial
    refine ⟨h.path, hmove.workers, fun r hr => ?_, h.judged.booked, h.judged.rows⟩
    rcases List.mem_append.mp hr with hr | hr
    · exact h.judged.replies r hr
    · rw [List.mem_singleton.mp hr]
      intro path hpath
      rw [hjudged path hpath]
      exact congrArg ansPath (Buf.str_strncpy_bytes task_hw).symm

/-- **A grade is judged against the answers of its week as long as the week did not
change before the comparison.**  In every interleaving of week switches with any number
of workers in which each worker that copies `ans_path` finds `current_hw` as it was when
it started, every reply and every entry in the tracker or a gradebook that was graded by
`compare_output` was compared with the answers of the week it is labelled with. -/
theorem judged_by_its_week (csv : CsvState) (disk : Disk) (as : List (WeekAction n))
    (h : Runs.Along weekStep SameWeekAnswers (.initial n csv disk) as) :
    Runs.Always weekStep JudgedByItsWeek (.initial n csv disk) as :=
  (Runs.always_of_invariant (answersInv_initial csv disk) answersInv_step h).imp
    fun _ => AnswersInv.judged

/-- One submission graded while the week stays `week_1`. -/
theorem judged_by_its_week_one :
    Runs.Always weekStep JudgedByItsWeek (.initial 1 noCsv fun _ => none)
      [.snapshot 0, .expect 0 someHeader 12 1024, .compare 0 1, .check 0, .record 0 20,
        .write_csv 0 20 someTm (some 511), .reply 0] :=
  judged_by_its_week noCsv _ _ (by decide +kernel)

/-- The switch to `week_2` comes before the comparison and the switch back to `week_1`
after it: the submission is recorded for `week_1` with a grade from `week_2_ans.txt`. -/
theorem judged_by_other_week :
    ¬ Runs.Always weekStep JudgedByItsWeek (.initial 1 noCsv fun _ => none)
      [.snapshot 0,
        .set_hw (ascii "week_2"), .reset, .open_csv false false none,
        .expect 0 someHeader 12 1024, .compare 0 1,
        .set_hw (ascii "week_1"), .reset, .open_csv false false none,
        .check 0, .record 0 20] := by
  intro h
  have hrun : (Runs.exec weekStep (.initial 1 noCsv fun _ => none)
        [.snapshot 0,
          .set_hw (ascii "week_2"), .reset, .open_csv false false none,
          .expect 0 someHeader 12 1024, .compare 0 1,
          .set_hw (ascii "week_1"), .reset, .open_csv false false none,
          .check 0, .record 0 20]).map
      (fun s => s.booked.map fun b => (b.1.str, b.2.expected_path))
        = some [(ascii "week_1", some (ascii "week_2_ans.txt"))] := by
    decide +kernel
  obtain ⟨s, hs, hobs⟩ := Option.map_eq_some_iff.mp hrun
  obtain ⟨b, hb, hbobs⟩ := List.mem_map.mp (hobs ▸ List.mem_singleton_self _ :
    (ascii "week_1", some (ascii "week_2_ans.txt"))
      ∈ s.booked.map fun b => (b.1.str, b.2.expected_path))
  obtain ⟨hweek, hpath⟩ := Prod.mk.inj hbobs
  have hjudged := (h _ (List.prefix_refl _) s hs).booked b hb _ hpath
  rw [hweek] at hjudged
  exact absurd hjudged (by decide)

end MiniCi
