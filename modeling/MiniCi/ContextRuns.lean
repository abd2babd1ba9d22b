/-
# Runs of the server

The global context while the workers record submissions and the main thread carries out
requests.  An action is one lock section of a worker, or one request: the main thread takes
one after the other, and a section of a worker that falls into a week switch comes to the
same as one before it or behind it.

No check stands between the wire and the table.  For any sixteen bytes the records in use
stay the front part of the array (`filled_record`), so the reply to `CMD_GET_TRACKER` is the
text of `reply_text` in every context a run reaches (`reports_of_run`).
-/
import MiniCi.ControlRequests
import MiniCi.TrackerReply
import MiniCi.WireIds

namespace MiniCi

open CStr Runs

/-! ## The system -/

/-- `ctx_init`: everything zeroed and no gradebook file, then switched to `week_1`. -/
def ctx_init (env : SetHwEnv) (disk : Disk) (dirs : Dirs) : ControlContext :=
  ctx_set_hw
    { hw := { current_hw := Buf.zero MAX_WEEK_NAME, ans_path := [], submit_dir := [] }
      tracker := { students := .zero, total_students := 0, submitted_count := 0 }
      csv := noCsv, disk, dist_paused := 0, dirs }
    (ascii "week_1") env

/-- A lock section of `build_and_send_result`, or a control request. -/
inductive ContextAction where
  | record (student_id : Buf MAX_STUDENT_ID) (result : GradeResult) (now : ℤ)
  | append (hdr : SubmitHeader) (result : GradeResult) (exec_ms mem_kb : UInt32)
    (week_name : Bytes) (now : ℤ) (tm : Tm) (written : Option ℕ)
  | request (env : CtlEnv) (req : IpcRequest)

/-- The context behind it; `none` as in `ctx_write_csv`. -/
def contextStep (ctx : ControlContext) : ContextAction → Option ControlContext
  | .record student_id result now =>
    some { ctx with
      tracker := (ctx_record_submission ctx.tracker student_id.bytes result now).2 }
  | .append hdr result exec_ms mem_kb week_name now tm written =>
    (ctx_write_csv ctx.csv ctx.disk hdr.fromStudentId result exec_ms mem_kb week_name now tm
      written).map fun (csv, disk) => { ctx with csv, disk }
  | .request env req => some (ctlSwitch ctx env req).1

/-- The students there are, in table order. -/
def recorded (ctx : ControlContext) : List StudentRecord :=
  ctx.tracker.students.records.filter fun r => ¬ r.IsFree

/-! ## A submission with any id -/

section

variable {t : TrackerState} {rows : List StudentRecord}

/-- The first loop finds a record in use. -/
theorem find_student_used {student_id : Bytes} {records : List StudentRecord} {i : ℕ}
    (h : find_student student_id records = some i) :
    ∃ r, records[i]? = some r ∧ ¬ r.IsFree := by
  induction records generalizing i with
  | nil => cases h
  | cons r records ih =>
    rw [find_student] at h
    split_ifs at h with hfree hmatch
    · obtain rfl := Option.some.inj h
      exact ⟨r, rfl, hfree⟩
    · obtain ⟨j, hj, rfl⟩ := Option.map_eq_some_iff.mp h
      exact ih hj

/-- The id under which a new record is entered. -/
theorem id_claim_eq (r : StudentRecord) (student_id : Bytes) :
    (r.claim student_id).id = (str student_id).take (MAX_STUDENT_ID - 1) := Buf.str_ofStr _ _

/-- A record in use that the first loop can find stands in the rows. -/
theorem Filled.getElem_of_used {records : List StudentRecord} (h : Filled records rows) {i : ℕ}
    {r : StudentRecord} (hr : records[i]? = some r) (hused : ¬ r.IsFree) :
    ∃ hi : i < rows.length, rows[i] = r := by
  obtain ⟨free, rfl, hfree⟩ := h.split
  rcases Nat.lt_or_ge i rows.length with hi | hi
  · rw [List.getElem?_append_left hi] at hr
    exact ⟨hi, (List.getElem?_eq_some_iff.mp hr).2⟩
  · rw [List.getElem?_append_right hi] at hr
    exact absurd (hfree r (List.mem_of_getElem? hr)) hused

/-- A submission that is entered in the first unused record. -/
theorem filled_enter_free {records : List StudentRecord} (h : Filled records rows)
    {f : StudentRecord} {free : List StudentRecord} (hrec : records = rows ++ f :: free)
    (hfree : ∀ r ∈ free, r.IsFree) (student_id : Bytes) (result : GradeResult) (now : ℤ) :
    ∃ rows', Filled (records.set rows.length (((f.claim student_id).bump now).enter result)) rows' ∧
      ∀ r' ∈ rows', r' ∈ rows ∨ r' = ((f.claim student_id).bump now).enter result := by
  have hid : (((f.claim student_id).bump now).enter result).id
      = (str student_id).take (MAX_STUDENT_ID - 1) :=
    (id_enter_bump _ _ _).trans (id_claim_eq f student_id)
  have hlen : (((f.claim student_id).bump now).enter result).id.length < MAX_STUDENT_ID := by
    rw [hid]
    exact (List.length_take_le _ _).trans_lt (by decide)
  by_cases hnil : (((f.claim student_id).bump now).enter result).id = []
  · -- an empty id leaves the record unused
    refine ⟨rows, ⟨⟨((f.claim student_id).bump now).enter result :: free, ?_, ?_⟩, h.used⟩,
      fun r' hr' => Or.inl hr'⟩
    · rw [hrec]
      simp
    · intro r hr
      rcases List.mem_cons.mp hr with rfl | hr
      · exact (isFree_iff _).mpr hnil
      · exact hfree r hr
  · have hroom : rows.length < records.length := by
      rw [hrec]
      simp
    refine ⟨_, h.concat hroom hnil hlen, ?_⟩
    intro r' hr'
    rcases List.mem_append.mp hr' with hr' | hr'
    · exact Or.inl hr'
    · exact Or.inr (List.mem_singleton.mp hr')

/-- **A submission with any id** leaves the records in use in front, and they are the ones
from before, but for the one that the submission is entered in. -/
theorem filled_record (h : Filled t.students.records rows) (student_id : Bytes)
    (result : GradeResult) (now : ℤ) :
    ∃ rows', Filled (ctx_record_submission t student_id result now).2.students.records rows' ∧
      ∀ r' ∈ rows', r' ∈ rows ∨ ∃ r, (r ∈ rows ∨ ∃ r₀ : StudentRecord, r = r₀.claim student_id) ∧
        r' = (r.bump now).enter result := by
  rcases hfind : find_student student_id t.students.records with _ | i
  · obtain ⟨free, hrec, hfree⟩ := h.split
    have hslot : find_free t.students.records = if free = [] then none else some rows.length := by
      rw [hrec]
      exact find_free_append h.used hfree
    cases free with
    | nil =>
      -- the table is full
      have hloc : locate t.students.records student_id = none := by
        rw [locate, hfind, hslot, if_pos rfl]
      rw [ctx_record_submission, hloc]
      exact ⟨rows, h, fun r' hr' => Or.inl hr'⟩
    | cons f free =>
      have hloc : locate t.students.records student_id
          = some (rows.length, f.claim student_id) := by
        rw [locate, hfind, hslot, if_neg (List.cons_ne_nil f free), hrec]
        simp
      obtain ⟨rows', hfilled, hrows⟩ := filled_enter_free h hrec
        (fun r hr => hfree r (List.mem_cons_of_mem _ hr)) student_id result now
      rw [ctx_record_submission_eq hloc]
      refine ⟨rows', hfilled, ?_⟩
      intro r' hr'
      rcases hrows r' hr' with hold | hnew
      · exact Or.inl hold
      · exact Or.inr ⟨_, Or.inr ⟨f, rfl⟩, hnew⟩
  · obtain ⟨r, hr, hused⟩ := find_student_used hfind
    obtain ⟨hi, hrow⟩ := h.getElem_of_used hr hused
    have hloc : locate t.students.records student_id = some (i, r) := by
      simp only [locate, hfind, hr, Option.map_some]
    rw [ctx_record_submission_eq hloc]
    refine ⟨rows.set i ((r.bump now).enter result), h.set hi ?_, fun r' hr' => ?_⟩
    · rw [id_enter_bump, hrow]
    · rcases List.mem_or_eq_of_mem_set hr' with hmem | rfl
      · exact Or.inl hmem
      · exact Or.inr ⟨r, Or.inl (hrow ▸ List.getElem_mem hi), rfl⟩

/-- The grade that is entered is one of the five. -/
theorem graded_enter {r : StudentRecord} (h : r.Graded) (result : GradeResult) (now : ℤ) :
    ((r.bump now).enter result).Graded := by
  have hcode : ∀ g : GradeResult, g.code.toNat < 5 := by
    intro g
    cases g <;> decide
  unfold StudentRecord.enter StudentRecord.Graded
  split_ifs
  · exact hcode GRADE_AC
  · exact hcode result
  · exact h

theorem graded_claim (r : StudentRecord) (student_id : Bytes) : (r.claim student_id).Graded := by
  show GRADE_WA.code.toNat < 5
  decide

end

/-! ## A request -/

/-- Only `CMD_SET_HW` with a name changes the week, or the table. -/
theorem ctlSwitch_cases (ctx : ControlContext) (env : CtlEnv) (req : IpcRequest) :
    (req.cmd = CMD_SET_HW ∧ weekOfPayload req.payload.bytes ≠ [] ∧
      (ctlSwitch ctx env req).1 = ctx_set_hw ctx (weekOfPayload req.payload.bytes) env.set_hw) ∨
    ((ctlSwitch ctx env req).1.hw = ctx.hw ∧
      (ctlSwitch ctx env req).1.tracker.students = ctx.tracker.students ∧
      (ctlSwitch ctx env req).1.tracker.submitted_count = ctx.tracker.submitted_count) := by
  by_cases hset : req.cmd = CMD_SET_HW
  · rw [ctlSwitch_of_set_hw hset]
    by_cases hweek : weekOfPayload req.payload.bytes = []
    · rw [cmdSetHw_of_nil hweek]
      exact Or.inr ⟨rfl, rfl, rfl⟩
    · exact Or.inl ⟨hset, hweek, (cmdSetHw_of_ne_nil ctx env.set_hw hweek).1⟩
  · right
    by_cases hstudents : req.cmd = CMD_SET_STUDENTS
    · rw [ctlSwitch_of_set_students hstudents, cmdSetStudents]
      split_ifs <;> exact ⟨rfl, rfl, rfl⟩
    · by_cases htoggle : req.cmd = CMD_TOGGLE_DIST
      · rw [ctlSwitch_of_toggle_dist htoggle]
        exact ⟨rfl, rfl, rfl⟩
      · rw [ctlSwitch_of_other hset hstudents htoggle]
        exact ⟨rfl, rfl, rfl⟩

/-- The name of the week after a switch. -/
theorem str_current_hw_ctx_set_hw (ctx : ControlContext) {week_name : Bytes} (env : SetHwEnv)
    (h : ValidWeekName week_name) :
    (ctx_set_hw ctx week_name env).hw.current_hw.str = str week_name := by
  rw [(ctx_set_hw_of_valid ctx env h).1]
  exact (Buf.str_ofStr _ _).trans (List.take_of_length_le (Nat.le_sub_one_of_lt h.2))

/-! ## What a run keeps -/

section

variable {Id Week : Bytes → Prop}

/-- The records in use stand in front; they have grades and ids of the kind `Id`, and the week
is of the kind `Week`. -/
structure Carries (Id Week : Bytes → Prop) (ctx : ControlContext) : Prop where
  filled : Filled ctx.tracker.students.records (recorded ctx)
  rows : ∀ r ∈ recorded ctx, r.Graded ∧ Id r.id
  week : Week ctx.hw.current_hw.str

/-- An action that brings only ids and weeks of these kinds. -/
def ContextAction.Brings (Id Week : Bytes → Prop) : ContextAction → Prop
  | .record student_id _ _ =>
    student_id.str ≠ [] → Id (student_id.str.take (MAX_STUDENT_ID - 1))
  | .append .. => True
  | .request _ req =>
    req.cmd = CMD_SET_HW → weekOfPayload req.payload.bytes ≠ [] →
      Week (weekOfPayload req.payload.bytes)

theorem carries_of_rows {ctx : ControlContext} {rows : List StudentRecord}
    (h : Filled ctx.tracker.students.records rows) (hrows : ∀ r ∈ rows, r.Graded ∧ Id r.id)
    (hweek : Week ctx.hw.current_hw.str) : Carries Id Week ctx := by
  have heq : recorded ctx = rows := h.filter_eq
  rw [← heq] at h hrows
  exact ⟨h, hrows, hweek⟩

theorem carries_ctx_set_hw (ctx : ControlContext) {week_name : Bytes} (env : SetHwEnv)
    (h : ValidWeekName week_name) (hweek : Week (str week_name)) :
    Carries Id Week (ctx_set_hw ctx week_name env) := by
  have htable : Filled (ctx_set_hw ctx week_name env).tracker.students.records [] := by
    rw [(ctx_set_hw_of_valid ctx env h).2.1]
    exact filled_zero
  refine carries_of_rows htable (by simp) ?_
  rwa [str_current_hw_ctx_set_hw ctx env h]

theorem carries_step (ctx : ControlContext) (a : ContextAction) (ctx' : ControlContext)
    (h : Carries Id Week ctx) (ha : a.Brings Id Week) (hstep : contextStep ctx a = some ctx') :
    Carries Id Week ctx' := by
  cases a with
  | record student_id result now =>
    obtain rfl := Option.some.inj hstep
    obtain ⟨rows', hfilled, hrows'⟩ := filled_record h.filled student_id.bytes result now
    refine carries_of_rows hfilled (fun r' hr' => ?_) h.week
    rcases hrows' r' hr' with hold | ⟨r, hr | ⟨r₀, rfl⟩, rfl⟩
    · exact h.rows r' hold
    · rw [id_enter_bump]
      exact ⟨graded_enter (h.rows r hr).1 result now, (h.rows r hr).2⟩
    · refine ⟨graded_enter (graded_claim r₀ _) result now, ?_⟩
      -- a record in use has an id
      have hne := (hfilled.used _ hr').1
      rw [id_enter_bump, id_claim_eq] at hne ⊢
      exact ha fun hnil => hne (by rw [← Buf.str, hnil, List.take_nil])
  | append hdr result exec_ms mem_kb week_name now tm written =>
    obtain ⟨⟨csv, disk⟩, -, rfl⟩ := Option.map_eq_some_iff.mp hstep
    exact ⟨h.filled, h.rows, h.week⟩
  | request env req =>
    obtain rfl := Option.some.inj hstep
    rcases ctlSwitch_cases ctx env req with ⟨hset, hne, hctx⟩ | ⟨hhw, hstudents, -⟩
    · rw [hctx]
      refine carries_ctx_set_hw ctx env.set_hw (validWeekName_weekOfPayload hne) ?_
      rw [str_weekOfPayload]
      exact ha hset hne
    · have hfilled := h.filled
      rw [← hstudents] at hfilled
      exact carries_of_rows hfilled h.rows (hhw ▸ h.week)

/-- **What a run keeps.** -/
theorem carries_of_run {env : SetHwEnv} {disk : Disk} {dirs : Dirs} {run : List ContextAction}
    {ctx : ControlContext} (hinit : Week (ascii "week_1")) (hrun : ∀ a ∈ run, a.Brings Id Week)
    (h : exec contextStep (ctx_init env disk dirs) run = some ctx) : Carries Id Week ctx := by
  have hstart : Carries Id Week (ctx_init env disk dirs) :=
    carries_ctx_set_hw _ env (by decide) hinit
  refine invariant (P := fun _ a => a.Brings Id Week) hstart carries_step ?_ h
  rw [along_iff_forall]
  rintro pre a post - rfl -
  exact hrun a (by simp)

end

/-! ## Weeks that the server accepts -/

/-- A name that `CMD_SET_HW` takes from a payload. -/
def AcceptedWeek (week : Bytes) : Prop := week.length < MAX_WEEK_NAME ∧ newline ∉ week

theorem acceptedWeek_weekOfPayload (payload : Bytes) : AcceptedWeek (weekOfPayload payload) := by
  refine ⟨(length_weekOfPayload_le payload).trans_lt (by decide), fun hmem => ?_⟩
  have hstop : newline ∉ ascii " \r\n" := by
    simpa using List.mem_takeWhile_imp hmem
  exact hstop (by decide)

theorem brings_any (a : ContextAction) : a.Brings (fun _ => True) AcceptedWeek := by
  cases a with
  | record => exact fun _ => trivial
  | append => trivial
  | request env req => exact fun _ _ => acceptedWeek_weekOfPayload _

theorem Carries.reports {Id : Bytes → Prop} {ctx : ControlContext}
    (h : Carries Id AcceptedWeek ctx) : Reports ctx (recorded ctx) :=
  ⟨h.filled, fun r hr => (h.rows r hr).1, h.week.1, h.week.2⟩

/-- **In every context that a run reaches the reply is the text of the table.** -/
theorem reports_of_run {env : SetHwEnv} {disk : Disk} {dirs : Dirs} {run : List ContextAction}
    {ctx : ControlContext} (h : exec contextStep (ctx_init env disk dirs) run = some ctx) :
    Reports ctx (recorded ctx) :=
  (carries_of_run ⟨by decide, by decide⟩ (fun a _ => brings_any a) h).reports

end MiniCi
