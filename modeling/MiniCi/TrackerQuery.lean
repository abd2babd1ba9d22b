/-
# A tracker query while submissions come in

`CMD_GET_TRACKER` takes four locks, one after the other: `tracker_lock` for the two counters,
`hw_lock` for the week, `csv_lock` for the number of records, and `tracker_lock` again for the
students.  The workers go on recording in between.

For ids that the client lets through, and a list that is not cut, the reply counts as many
accepted students as it lists exactly if no student solved the assignment between the first
section and the last (`consistent_iff`).  The next student's first accepted submission there
is counted in the list and not in the number.
-/
import MiniCi.TrackerView
import MiniCi.History

namespace MiniCi

open CStr Runs

/-! ## The system -/

/-- Where `CMD_GET_TRACKER` stands: the section it comes to next, and its local variables. -/
inductive QueryPhase where
  | counters
  | week (snap_submitted snap_total : UInt16)
  | records (snap_submitted snap_total : UInt16) (snap_week : Buf MAX_WEEK_NAME)
  | students (snap_submitted snap_total : UInt16) (snap_week : Buf MAX_WEEK_NAME)
    (snap_records : UInt32)
  | replied (resp : IpcResponse)

/-- The next section of a worker or of the handler. -/
inductive QueryAction where
  | worker (a : ContextAction)
  | handler

/-- The last section: the reply, from the local variables and the table. -/
def trackerReply (snap_submitted snap_total : UInt16) (snap_week : Buf MAX_WEEK_NAME)
    (snap_records : UInt32) (students : StudentTable) : IpcResponse :=
  let line := trackerLine snap_submitted snap_total snap_week.str snap_records
  { status := IPC_OK
    data := trackerEntries students.records line.length (snprintf IPC_MAX_PAYLOAD line) }

/-- A section of `CMD_GET_TRACKER`. -/
def handlerSection (ctx : ControlContext) : QueryPhase → Option QueryPhase
  | .counters => some (.week ctx.tracker.submitted_count ctx.tracker.total_students)
  | .week submitted total =>
    some (.records submitted total (Buf.ofStr (MAX_WEEK_NAME - 1) ctx.hw.current_hw.bytes))
  | .records submitted total week => some (.students submitted total week ctx.csv.total_records)
  | .students submitted total week records =>
    some (.replied (trackerReply submitted total week records ctx.tracker.students))
  | .replied _ => none

/-- The main thread is in the handler, so that no other request is carried out. -/
def queryStep : ControlContext × QueryPhase → QueryAction → Option (ControlContext × QueryPhase)
  | (ctx, phase), .worker (.record student_id result now) =>
    (contextStep ctx (.record student_id result now)).map fun ctx => (ctx, phase)
  | (ctx, phase), .worker (.append hdr result exec_ms mem_kb week_name now tm written) =>
    (contextStep ctx (.append hdr result exec_ms mem_kb week_name now tm written)).map
      fun ctx => (ctx, phase)
  | _, .worker (.request _ _) => none
  | (ctx, phase), .handler => (handlerSection ctx phase).map fun phase => (ctx, phase)

/-- Undisturbed, the handler replies from one state. -/
theorem query_undisturbed (ctx : ControlContext) :
    exec queryStep (ctx, .counters) [.handler, .handler, .handler, .handler]
      = some (ctx, .replied (cmdGetTracker ctx)) := rfl

/-! ## What the reply should say -/

/-- The reply counts as many accepted students as it lists. -/
def Consistent (resp : IpcResponse) : Prop :=
  (fieldOf (ascii "submitted") resp.data).map digitsValue
    = some ((parse_snap resp.data).entries.countP fun e => e.result = GRADE_AC.code)

instance (resp : IpcResponse) : Decidable (Consistent resp) := inferInstanceAs (Decidable (_ = _))

/-- The submission is accepted, and is the first one of its student that is. -/
def FirstAccepted (t : TrackerState) (student_id : Buf MAX_STUDENT_ID) (result : GradeResult) :
    Prop :=
  ∃ i r, locate t.students.records student_id.bytes = some (i, r) ∧ r.NewlySolved result

/-- Between the counters and the students nobody solves the assignment. -/
def NobodySolves : ControlContext × QueryPhase → QueryAction → Prop
  | (_, .counters), _ => True
  | (ctx, _), .worker (.record student_id result _) => ¬ FirstAccepted ctx.tracker student_id result
  | _, _ => True

/-- A submission has an id that the client lets through. -/
def ContextAction.ByClient : ContextAction → Prop
  | .record student_id _ _ => ClientId student_id.bytes
  | _ => True

/-- The action is one of the handler, or such a submission. -/
def QueryAction.ByClient : QueryAction → Prop
  | .worker a => a.ByClient
  | .handler => True

/-- The context that the local variables of the handler were read off, if it was one. -/
def sampled (ctx : ControlContext) (submitted total : UInt16) (records : UInt32) :
    ControlContext :=
  { ctx with
    tracker := { ctx.tracker with submitted_count := submitted, total_students := total }
    csv := { ctx.csv with total_records := records } }

/-! ## The number of accepted students -/

theorem Sound.of_eq {t t' : TrackerState} (h : Sound t) (hstudents : t'.students = t.students)
    (hcount : t'.submitted_count = t.submitted_count) : Sound t' := by
  obtain ⟨log, rows, hrep⟩ := h
  obtain ⟨hfilled, hnodup, hknown, hrecords, hsolved⟩ := hrep
  rw [← hstudents] at hfilled
  rw [← hcount] at hsolved
  exact ⟨log, rows, hfilled, hnodup, hknown, hrecords, hsolved⟩

/-- The tracker stores a ledger behind every action, if it did so before. -/
theorem sound_contextStep (ctx : ControlContext) (a : ContextAction) (ctx' : ControlContext)
    (h : Sound ctx.tracker) (ha : a.ByClient) (hstep : contextStep ctx a = some ctx') :
    Sound ctx'.tracker := by
  cases a with
  | record student_id result now =>
    obtain rfl := Option.some.inj hstep
    obtain ⟨log, rows, hrep⟩ := h
    obtain ⟨rows', hrep'⟩ := (represents_record hrep (ClientId.usable ha) result now).1
    exact ⟨_, rows', hrep'⟩
  | append hdr result exec_ms mem_kb week_name now tm written =>
    obtain ⟨⟨csv, disk⟩, -, rfl⟩ := Option.map_eq_some_iff.mp hstep
    exact h
  | request env req =>
    obtain rfl := Option.some.inj hstep
    rcases ctlSwitch_cases ctx env req with ⟨-, hne, hctx⟩ | ⟨-, hstudents, hcount⟩
    · rw [hctx, (ctx_set_hw_of_valid ctx env.set_hw (validWeekName_weekOfPayload hne)).2.1]
      exact sound_reset _
    · exact h.of_eq hstudents hcount

/-- `submitted_count` is the number of students whose grade is `AC`. -/
theorem Sound.count_eq {ctx : ControlContext} (h : Sound ctx.tracker) :
    ctx.tracker.submitted_count.toNat
      = (recorded ctx).countP fun r => r.best_result = GRADE_AC.code := by
  obtain ⟨log, rows, hrep⟩ := h
  have heq : recorded ctx = rows := hrep.filled.filter_eq
  rw [hrep.count, heq]
  apply List.countP_congr
  intro r hr
  have hrow := hrep.records r hr
  simp only [decide_eq_true_eq]
  exact hrow.solved_iff.trans hrow.best_iff.symm

/-- A student's first accepted submission is counted, and no other one. -/
theorem Sound.count_record {t : TrackerState} (h : Sound t) (student_id : Buf MAX_STUDENT_ID)
    (result : GradeResult) (now : ℤ) :
    (FirstAccepted t student_id result →
      (ctx_record_submission t student_id.bytes result now).2.submitted_count.toNat
        = t.submitted_count.toNat + 1) ∧
    (¬ FirstAccepted t student_id result →
      (ctx_record_submission t student_id.bytes result now).2.submitted_count
        = t.submitted_count) := by
  obtain ⟨log, rows, hrep⟩ := h
  have hlt := hrep.count_lt
  constructor
  · rintro ⟨i, r, hloc, hnew⟩
    rw [ctx_record_submission_eq hloc]
    show (if r.NewlySolved result then t.submitted_count + 1 else t.submitted_count).toNat = _
    rw [if_pos hnew, UInt16.toNat_add, UInt16.toNat_one]
    omega
  · intro hnot
    rcases hloc : locate t.students.records student_id.bytes with _ | ⟨i, r⟩
    · rw [ctx_record_submission, hloc]
    · rw [ctx_record_submission_eq hloc]
      exact if_neg fun hnew => hnot ⟨i, r, hloc, hnew⟩

/-! ## The run of a query -/

/-- The number that the handler has read. -/
def QueryPhase.snapSubmitted : QueryPhase → Option UInt16
  | .counters => none
  | .week submitted _ => some submitted
  | .records submitted _ _ => some submitted
  | .students submitted _ _ _ => some submitted
  | .replied _ => none

/-- The week that the handler has read is this one. -/
def QueryPhase.ReadsWeek (hw : HwState) : QueryPhase → Prop
  | .records _ _ snap_week => snap_week = Buf.ofStr (MAX_WEEK_NAME - 1) hw.current_hw.bytes
  | .students _ _ snap_week _ => snap_week = Buf.ofStr (MAX_WEEK_NAME - 1) hw.current_hw.bytes
  | _ => True

/-- What holds on the way to the last section: the table is sound, the week stays, and the number
that the handler has read is the count exactly if nobody has solved the assignment since. -/
structure Underway (start : ControlContext) (run : List QueryAction) (ctx : ControlContext)
    (phase : QueryPhase) : Prop where
  sound : Sound ctx.tracker
  hw : ctx.hw = start.hw
  week : phase.ReadsWeek start.hw
  quiet : phase = .counters → Along queryStep NobodySolves (start, .counters) run
  le : ∀ s ∈ phase.snapSubmitted, s.toNat ≤ ctx.tracker.submitted_count.toNat
  eq_iff : ∀ s ∈ phase.snapSubmitted, s = ctx.tracker.submitted_count ↔
    Along queryStep NobodySolves (start, .counters) run

theorem nobodySolves_record {ctx : ControlContext} {phase : QueryPhase} (h : phase ≠ .counters)
    (student_id : Buf MAX_STUDENT_ID) (result : GradeResult) (now : ℤ) :
    NobodySolves (ctx, phase) (.worker (.record student_id result now)) ↔
      ¬ FirstAccepted ctx.tracker student_id result := by
  cases phase with
  | counters => exact absurd rfl h
  | _ => exact Iff.rfl

theorem ne_counters_of_mem {phase : QueryPhase} {s : UInt16} (h : s ∈ phase.snapSubmitted) :
    phase ≠ .counters := by
  rintro rfl
  cases h

section

variable {start ctx : ControlContext} {run : List QueryAction} {phase : QueryPhase}

/-- A submission is missed by the handler iff it is a first accepted one. -/
theorem Underway.record (h : Underway start run ctx phase)
    (hrun : exec queryStep (start, .counters) run = some (ctx, phase))
    {student_id : Buf MAX_STUDENT_ID} (hid : ClientId student_id.bytes) (result : GradeResult)
    (now : ℤ) :
    Underway start (run ++ [.worker (.record student_id result now)])
      { ctx with tracker := (ctx_record_submission ctx.tracker student_id.bytes result now).2 }
      phase := by
  obtain ⟨hyes, hno⟩ := h.sound.count_record student_id result now
  have hsound : Sound (ctx_record_submission ctx.tracker student_id.bytes result now).2 :=
    sound_contextStep ctx (.record student_id result now) _ h.sound hid rfl
  refine ⟨hsound, h.hw, h.week, fun hphase => ?_, fun s hs => ?_, fun s hs => ?_⟩
  · subst hphase
    exact (along_concat hrun).mpr ⟨h.quiet rfl, trivial⟩
  · have hle := h.le s hs
    show s.toNat
      ≤ (ctx_record_submission ctx.tracker student_id.bytes result now).2.submitted_count.toNat
    by_cases hfirst : FirstAccepted ctx.tracker student_id result
    · rw [hyes hfirst]
      omega
    · rwa [hno hfirst]
  · rw [along_concat hrun, nobodySolves_record (ne_counters_of_mem hs), ← h.eq_iff s hs]
    show s = (ctx_record_submission ctx.tracker student_id.bytes result now).2.submitted_count ↔ _
    by_cases hfirst : FirstAccepted ctx.tracker student_id result
    · -- the count goes past the number that was read
      refine iff_of_false (fun heq => ?_) fun hand => hand.2 hfirst
      have hle := h.le s hs
      have hcount := hyes hfirst
      rw [← heq] at hcount
      omega
    · rw [hno hfirst]
      exact (and_iff_left hfirst).symm

/-- A section of the handler leaves the table alone. -/
theorem Underway.handler (h : Underway start run ctx phase)
    (hrun : exec queryStep (start, .counters) run = some (ctx, phase)) {phase' : QueryPhase}
    (hsection : handlerSection ctx phase = some phase') :
    Underway start (run ++ [.handler]) ctx phase' := by
  have halong : Along queryStep NobodySolves (start, .counters) (run ++ [.handler]) ↔
      Along queryStep NobodySolves (start, .counters) run := by
    rw [along_concat hrun]
    refine and_iff_left ?_
    cases phase <;> trivial
  cases phase with
  | counters =>
    obtain rfl := Option.some.inj hsection
    refine ⟨h.sound, h.hw, trivial, fun hphase => ?_, fun s hs => ?_, fun s hs => ?_⟩
    · cases hphase
    · obtain rfl := Option.some.inj hs
      exact le_refl _
    · obtain rfl := Option.some.inj hs
      exact iff_of_true rfl (halong.mpr (h.quiet rfl))
  | week submitted total =>
    obtain rfl := Option.some.inj hsection
    refine ⟨h.sound, h.hw, ?_, fun hphase => (by cases hphase), h.le, fun s hs => ?_⟩
    · show Buf.ofStr _ ctx.hw.current_hw.bytes = Buf.ofStr _ start.hw.current_hw.bytes
      rw [h.hw]
    · exact (h.eq_iff s hs).trans halong.symm
  | records submitted total week =>
    obtain rfl := Option.some.inj hsection
    exact ⟨h.sound, h.hw, h.week, fun hphase => (by cases hphase), h.le,
      fun s hs => (h.eq_iff s hs).trans halong.symm⟩
  | students submitted total week records =>
    obtain rfl := Option.some.inj hsection
    exact ⟨h.sound, h.hw, trivial, fun hphase => (by cases hphase), fun s hs => (by cases hs),
      fun s hs => (by cases hs)⟩
  | replied resp => cases hsection

/-- **The run lemma.** -/
theorem underway (hsound : Sound start.tracker) (hids : ∀ a ∈ run, a.ByClient)
    (hrun : exec queryStep (start, .counters) run = some (ctx, phase)) :
    Underway start run ctx phase := by
  -- the last action of the run is the last one to be accounted for
  refine invariant_of_history (Q := fun run (s : ControlContext × QueryPhase) =>
    (∀ a ∈ run, a.ByClient) → Underway start run s.1 s.2) ?_ ?_ hrun hids
  · intro _
    exact ⟨hsound, rfl, trivial, fun _ => trivial, fun s hs => (by cases hs),
      fun s hs => (by cases hs)⟩
  · rintro run ⟨ctx₀, phase₀⟩ a ⟨ctx, phase⟩ hrun₀ ih hstep hids
    have h := ih fun b hb => hids b (List.mem_append_left _ hb)
    have ha := hids a (List.mem_append_right _ (List.mem_singleton_self a))
    cases a with
    | handler =>
      obtain ⟨phase', hsection, heq⟩ := Option.map_eq_some_iff.mp hstep
      obtain ⟨rfl, rfl⟩ := Prod.mk.inj heq
      exact h.handler hrun₀ hsection
    | worker a =>
      cases a with
      | record student_id result now =>
        obtain ⟨rfl, rfl⟩ := Prod.mk.inj (Option.some.inj hstep)
        exact h.record hrun₀ ha result now
      | append hdr result exec_ms mem_kb week_name now tm written =>
        obtain ⟨ctx', hctx', heq⟩ := Option.map_eq_some_iff.mp hstep
        obtain ⟨rfl, rfl⟩ := Prod.mk.inj heq
        obtain ⟨⟨csv, disk⟩, -, rfl⟩ := Option.map_eq_some_iff.mp hctx'
        have halong : Along queryStep NobodySolves (start, .counters) (run ++ [.worker (.append
            hdr result exec_ms mem_kb week_name now tm written)]) ↔
              Along queryStep NobodySolves (start, .counters) run := by
          rw [along_concat hrun₀]
          refine and_iff_left ?_
          cases phase₀ <;> trivial
        exact ⟨h.sound, h.hw, h.week, fun hphase => halong.mpr (h.quiet hphase), h.le,
          fun s hs => (h.eq_iff s hs).trans halong.symm⟩
      | request env req => cases hstep

end

/-! ## The reply -/

/-- The reply is the one of the context that the handler has put together from its samples. -/
theorem trackerReply_eq (ctx : ControlContext) (submitted total : UInt16) (records : UInt32) :
    trackerReply submitted total (Buf.ofStr (MAX_WEEK_NAME - 1) ctx.hw.current_hw.bytes) records
      ctx.tracker.students = cmdGetTracker (sampled ctx submitted total records) := rfl

/-- In a reply that is not cut, the number is the one that was read, and the list is the table. -/
theorem consistent_trackerReply {ctx : ControlContext} (h : Reports ctx (recorded ctx))
    (hids : ∀ r ∈ recorded ctx, comma ∉ r.id ∧ colon ∉ r.id) (submitted total : UInt16)
    (records : UInt32) (hfit : AllFit (sampled ctx submitted total records) (recorded ctx)) :
    Consistent (cmdGetTracker (sampled ctx submitted total records)) ↔
      submitted.toNat = (recorded ctx).countP fun r => r.best_result = GRADE_AC.code := by
  have hsampled : Reports (sampled ctx submitted total records)
      (recorded (sampled ctx submitted total records)) :=
    ⟨h.filled, h.graded, h.short, h.oneLine⟩
  have hnumber : fieldOf (ascii "submitted") (cmdGetTracker (sampled ctx submitted total
      records)).data = some (decimal submitted.toNat) := by
    rw [hsampled.data, replyLine, trackerLine_append, fieldOf_append_bar (by decide)]
    exact fieldOf_number (by decide) (by decide) (by decide)
      ((length_decimal16_le submitted).trans (by decide))
  have hlist : (parse_snap (cmdGetTracker (sampled ctx submitted total records)).data).entries
      = (recorded ctx).map entryOf := by
    have hall : inReply (sampled ctx submitted total records)
        (recorded (sampled ctx submitted total records)) = recorded ctx := fitting_eq_iff.mpr hfit
    rw [hsampled.entries_of_plain hids, hall]
  rw [Consistent, hnumber, hlist, Option.map_some, digitsValue_decimal, List.countP_map,
    Option.some_inj]
  rfl

/-- The sections of the workers in a run. -/
def workerSections : List QueryAction → List ContextAction
  | [] => []
  | .worker a :: run => a :: workerSections run
  | .handler :: run => workerSections run

theorem mem_of_mem_workerSections {run : List QueryAction} {a : ContextAction}
    (h : a ∈ workerSections run) : .worker a ∈ run := by
  induction run with
  | nil => cases h
  | cons b run ih =>
    cases b with
    | worker b =>
      rcases List.mem_cons.mp h with rfl | h
      · exact List.mem_cons_self
      · exact List.mem_cons_of_mem _ (ih h)
    | handler => exact List.mem_cons_of_mem _ (ih h)

/-- The context comes from the workers alone. -/
theorem exec_workerSections {start ctx : ControlContext} {phase phase' : QueryPhase}
    {run : List QueryAction} (h : exec queryStep (start, phase) run = some (ctx, phase')) :
    exec contextStep start (workerSections run) = some ctx := by
  induction run generalizing start phase with
  | nil =>
    obtain ⟨rfl, -⟩ := Prod.mk.inj (Option.some.inj h)
    rfl
  | cons a run ih =>
    obtain ⟨⟨ctx', phase''⟩, hstep, hrest⟩ := (exec_cons_eq_some queryStep).mp h
    cases a with
    | handler =>
      obtain ⟨_, -, heq⟩ := Option.map_eq_some_iff.mp hstep
      obtain ⟨rfl, -⟩ := Prod.mk.inj heq
      exact ih hrest
    | worker a =>
      rw [workerSections, exec_cons_eq_some]
      cases a with
      | record student_id result now =>
        obtain ⟨rfl, -⟩ := Prod.mk.inj (Option.some.inj hstep)
        exact ⟨_, rfl, ih hrest⟩
      | append hdr result exec_ms mem_kb week_name now tm written =>
        obtain ⟨ctx'', hctx, heq⟩ := Option.map_eq_some_iff.mp hstep
        obtain ⟨rfl, -⟩ := Prod.mk.inj heq
        exact ⟨_, hctx, ih hrest⟩
      | request env req => cases hstep

theorem ContextAction.ByClient.brings {a : ContextAction} (h : a.ByClient) :
    a.Brings (fun id => ∀ c ∈ id, IsDigit c) AcceptedWeek := by
  cases a with
  | record student_id result now => exact fun _ c hc => h.2.2 c (List.mem_of_mem_take hc)
  | append => trivial
  | request env req => exact fun _ _ => acceptedWeek_weekOfPayload _

/-- **A snapshot is a state the tracker was in** iff nobody solved the assignment while it was
taken.  Whatever happened before the query, for submissions with ids that the client lets
through in any order with the sections of the handler, and a list that is not cut. -/
theorem consistent_iff {env : SetHwEnv} {disk : Disk} {dirs : Dirs} {before : List ContextAction}
    {start ctx : ControlContext} {run : List QueryAction} {submitted total : UInt16}
    {week : Buf MAX_WEEK_NAME} {records : UInt32} {resp : IpcResponse}
    (hbefore : exec contextStep (ctx_init env disk dirs) before = some start)
    (hclients : ∀ a ∈ before, a.ByClient) (hworkers : ∀ a ∈ run, a.ByClient)
    (hrun : exec queryStep (start, .counters) run
      = some (ctx, .students submitted total week records))
    (hreply : queryStep (ctx, .students submitted total week records) .handler
      = some (ctx, .replied resp))
    (hfit : AllFit (sampled ctx submitted total records) (recorded ctx)) :
    Consistent resp ↔ Along queryStep NobodySolves (start, .counters) run := by
  have hsound : Sound start.tracker := by
    have hstart : Sound (ctx_init env disk dirs).tracker := sound_reset _
    refine invariant (Q := fun ctx => Sound ctx.tracker) (P := fun _ a => a.ByClient) hstart
      sound_contextStep ?_ hbefore
    rw [along_iff_forall]
    rintro pre a post - rfl -
    exact hclients a (by simp)
  have h := underway hsound hworkers hrun
  have hreached : exec contextStep (ctx_init env disk dirs) (before ++ workerSections run)
      = some ctx := (exec_append_eq_some _).mpr ⟨start, hbefore, exec_workerSections hrun⟩
  have hcarries : Carries (fun id => ∀ c ∈ id, IsDigit c) AcceptedWeek ctx := by
    refine carries_of_run ⟨by decide, by decide⟩ (fun a ha => ?_) hreached
    rcases List.mem_append.mp ha with ha | ha
    · exact (hclients a ha).brings
    · exact (hworkers _ (mem_of_mem_workerSections ha)).brings
  have hids : ∀ r ∈ recorded ctx, comma ∉ r.id ∧ colon ∉ r.id := by
    intro r hr
    have hdigits := (hcarries.rows r hr).2
    exact ⟨fun hmem => absurd (hdigits _ hmem) (by decide),
      fun hmem => absurd (hdigits _ hmem) (by decide)⟩
  obtain ⟨-, hresp⟩ := Prod.mk.inj (Option.some.inj hreply)
  obtain rfl := QueryPhase.replied.inj hresp
  have hweek : week = Buf.ofStr (MAX_WEEK_NAME - 1) ctx.hw.current_hw.bytes := by
    rw [h.hw]
    exact h.week
  rw [← h.eq_iff submitted rfl, hweek, trackerReply_eq,
    consistent_trackerReply hcarries.reports hids submitted total records hfit,
    ← h.sound.count_eq, UInt16.toNat_inj]

/-- A submission with an id of digits. -/
def someSubmission : ContextAction := .record (.ofStr 15 (ascii "20240123")) GRADE_AC 20

theorem byClient_someSubmission : someSubmission.ByClient := by
  show ClientId _
  decide

/-- The first accepted submission comes in between, and is listed and not counted. -/
theorem not_consistent :
    ∃ ctx submitted total week records resp,
      exec queryStep (ctx_init cannotOpen.set_hw (fun _ => none) fun _ => false, .counters)
        [.handler, .handler, .handler, .worker someSubmission]
          = some (ctx, .students submitted total week records) ∧
      queryStep (ctx, .students submitted total week records) .handler
        = some (ctx, .replied resp) ∧
      AllFit (sampled ctx submitted total records) (recorded ctx) ∧ ¬ Consistent resp := by
  refine ⟨_, _, _, _, _, _, rfl, rfl, fitting_eq_iff.mp ?_, ?_⟩ <;> decide +kernel

/-- Here it comes in before the query. -/
theorem consistent_after_submission :
    ∃ ctx submitted total week records resp,
      exec queryStep (ctx_init cannotOpen.set_hw (fun _ => none) fun _ => false, .counters)
        [.worker someSubmission, .handler, .handler, .handler]
          = some (ctx, .students submitted total week records) ∧
      queryStep (ctx, .students submitted total week records) .handler
        = some (ctx, .replied resp) ∧
      (Consistent resp ↔ Along queryStep NobodySolves
        (ctx_init cannotOpen.set_hw (fun _ => none) fun _ => false, .counters)
        [.worker someSubmission, .handler, .handler, .handler]) := by
  have hclients : ∀ a ∈ ([.worker someSubmission, .handler, .handler, .handler]
      : List QueryAction), a.ByClient := by
    simp only [List.mem_cons, List.not_mem_nil, or_false, forall_eq_or_imp, forall_eq]
    exact ⟨byClient_someSubmission, trivial, trivial, trivial⟩
  have hbefore : exec contextStep (ctx_init cannotOpen.set_hw (fun _ => none) fun _ => false) []
      = some (ctx_init cannotOpen.set_hw (fun _ => none) fun _ => false) := rfl
  refine ⟨_, _, _, _, _, _, rfl, rfl, ?_⟩
  refine consistent_iff hbefore (by simp) hclients rfl rfl (fitting_eq_iff.mp ?_)
  decide +kernel

end MiniCi
