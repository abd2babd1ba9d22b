/-
# Week switches against the sequential server

`ctx_set_hw` replaces the week in one critical section and resets the tracker in a later
one.  The server is simulated by the `WeekSpec` that switches at the reset.  While a reset
is outstanding the two differ: the server has the new week already, the specification the
old one, so a worker that took its snapshot of the week or was turned away by the check in
between is ahead of its counterpart (`Ahead`).  `catch_up` brings all counterparts to
where their workers are, right after the reset.

What breaks the simulation is recording a submission while a reset is outstanding, and
reading the counters while they are not those of the submission's week.
-/
import MiniCi.WeekSpec

namespace MiniCi

open CStr

variable {n : ℕ}

/-! ## The condition -/

/-- The week is replaced and the tracker not reset yet. -/
def Switching.Pending : Switching → Prop
  | .written _ => True
  | _ => False

instance (w : Switching) : Decidable w.Pending := by
  cases w <;> dsimp only [Switching.Pending] <;> infer_instance

/-- No submission is recorded while a reset is outstanding.  The counters of a reply are
read while the tracker is that of its week; and if the submission was not recorded, after
a reset that came later than its check. -/
def Isolated (s : WeekServer n) : WeekAction n → Prop
  | .record _ _ => ¬ s.switching.Pending
  | .reply i => ∀ c ∈ (s.workers i).answering,
    s.tracker_week.str = c.1.str ∧ (c.2.1 = true ∨ c.2.2 < s.switched.length)
  | _ => True

instance (s : WeekServer n) (a : WeekAction n) : Decidable (Isolated s a) :=
  match a with
  | .record _ _ => inferInstanceAs (Decidable (¬ _))
  | .reply _ => inferInstanceAs (Decidable (∀ _ ∈ _, _ ∧ _))
  | .set_hw _ | .reset | .open_csv _ _ _ | .set_students _ | .snapshot _ | .leave _
  | .expect _ _ _ _ | .compare _ _ | .fail _ _ _ _ _ | .check _ | .write_csv _ _ _ _ =>
    isTrue trivial

/-! ## The relation -/

/-- The position of a worker in the sequential server. -/
def Worker.spec : Worker → SpecWorker
  | .idle => .idle
  | .started task_hw => .started task_hw
  | .comparing task_hw _ _ _ _ => .started task_hw
  | .graded task_hw g => .graded task_hw g
  | .matched task_hw g => .graded task_hw g
  | .recorded task_hw g my_submit_count => .recorded task_hw g my_submit_count
  | .checked task_hw g my_submit_count _ _ => .recorded task_hw g my_submit_count

/-- While the reset for `week` is outstanding, the worker `w` is ahead of its counterpart
`v`: it took its snapshot of the week, or the check turned it away. -/
inductive Ahead (week : Buf MAX_WEEK_NAME) (resets : ℕ) : Worker → SpecWorker → Prop where
  | started {w : Worker} (h : w.spec = .started (.strncpy MAX_WEEK_NAME week.bytes)) :
      Ahead week resets w .idle
  | graded {w : Worker} (g : Graded)
      (h : w.spec = .graded (.strncpy MAX_WEEK_NAME week.bytes) g) : Ahead week resets w .idle
  | skipped (task_hw : Buf MAX_WEEK_NAME) (g : Graded) (h : week.str ≠ task_hw.str) :
      Ahead week resets (.checked task_hw g 0 false resets) (.graded task_hw g)

/-- A worker and its counterpart: in the same position, unless a reset is outstanding. -/
def Follows (switching : Switching) (week : Buf MAX_WEEK_NAME) (resets : ℕ) (w : Worker)
    (v : SpecWorker) : Prop :=
  v = w.spec ∨ switching.Pending ∧ Ahead week resets w v

/-- The simulation relation.  The week of the specification is that of the last reset. -/
structure SwitchRel (s : WeekServer n) (t : WeekSpec n) : Prop where
  same : Linearized s t
  week : t.week = s.tracker_week
  settled : ¬ s.switching.Pending → s.hw.current_hw = s.tracker_week
  pending : ∀ week_name, s.switching = .written week_name →
    ValidWeekName week_name ∧ s.hw = ctx_set_hw_paths week_name
  held : ∀ i, ∀ task_hw ∈ (s.workers i).holding, s.hw.current_hw.str = task_hw.str
  follows : ∀ i,
    Follows s.switching s.hw.current_hw s.switched.length (s.workers i) (t.workers i)

theorem switchRel_initial (csv : CsvState) (disk : Disk) :
    SwitchRel (WeekServer.initial n csv disk) (.initial n) :=
  ⟨⟨rfl, rfl, rfl, rfl⟩, rfl, fun _ => rfl, fun _ h => (nomatch h), fun _ _ h => (nomatch h),
    fun _ => Or.inl rfl⟩

/-! ## Catching up -/

/-- After the switch to its week, a counterpart catches up with its worker. -/
theorem catch_up_one {t : WeekSpec n} {i : Fin n} {w : Worker} {resets : ℕ}
    (h : t.workers i = w.spec ∨ Ahead t.week resets w (t.workers i)) :
    ∃ bs, Runs.exec specStep t bs = some (t.move i w.spec) := by
  rcases h with hsame | hahead
  · exact ⟨[], by rw [WeekSpec.move, ← hsame, Function.update_eq_self]; rfl⟩
  · generalize hv : t.workers i = v at hahead
    cases hahead with
    | started h => exact ⟨[.snapshot i], by simp [specStep, hv, h]⟩
    | graded g h =>
      exact ⟨[.snapshot i, .grade i g], by simp [Runs.exec, specStep, hv, h, WeekSpec.move]⟩
    | skipped task_hw g h => exact ⟨[.record i 0], by simp [specStep, hv, h, Worker.spec]⟩

/-- All counterparts catch up with their workers, one after the other. -/
theorem catch_up (t : WeekSpec n) (workers : Fin n → Worker) (resets : ℕ)
    (h : ∀ i, t.workers i = (workers i).spec ∨ Ahead t.week resets (workers i) (t.workers i)) :
    ∃ bs, Runs.exec specStep t bs = some { t with workers := fun i => (workers i).spec } := by
  -- induction on the workers that have caught up already
  have hpart : ∀ l : List (Fin n), ∃ bs, Runs.exec specStep t bs =
      some { t with workers := fun i => if i ∈ l then (workers i).spec else t.workers i } := by
    intro l
    induction l with
    | nil => exact ⟨[], by simp⟩
    | cons i l ih =>
      obtain ⟨bs, hbs⟩ := ih
      have hi : (if i ∈ l then (workers i).spec else t.workers i) = (workers i).spec ∨
          Ahead t.week resets (workers i)
            (if i ∈ l then (workers i).spec else t.workers i) := by
        by_cases hmem : i ∈ l
        · exact Or.inl (if_pos hmem)
        · rw [if_neg hmem]
          exact h i
      obtain ⟨cs, hcs⟩ := catch_up_one (t := { t with
        workers := fun i => if i ∈ l then (workers i).spec else t.workers i }) hi
      refine ⟨bs ++ cs, ?_⟩
      rw [Runs.exec_append, hbs, Option.bind_some, hcs, WeekSpec.move]
      congr 2
      funext j
      by_cases hj : j = i
      · subst hj
        simp
      · simp [hj]
  obtain ⟨bs, hbs⟩ := hpart (List.finRange n)
  exact ⟨bs, by simpa using hbs⟩

/-! ## The simulation, step by step -/

/-- What a step of the server has to be answered with. -/
def Answered (s' : WeekServer n) (t : WeekSpec n) : Prop :=
  ∃ bs t', Runs.exec specStep t bs = some t' ∧ SwitchRel s' t'

section Steps

variable {s s' : WeekServer n} {t : WeekSpec n} {i : Fin n}

/-- No counterpart differs from its worker while no reset is outstanding. -/
theorem SwitchRel.eq_spec (h : SwitchRel s t) (hpending : ¬ s.switching.Pending) (i : Fin n) :
    t.workers i = (s.workers i).spec :=
  (h.follows i).resolve_right fun hahead => hpending hahead.1

/-- A worker and its counterpart move. -/
theorem SwitchRel.move (h : SwitchRel s t) {w : Worker} {v : SpecWorker}
    (hheld : ∀ task_hw ∈ w.holding, s.hw.current_hw.str = task_hw.str)
    (hfollows : Follows s.switching s.hw.current_hw s.switched.length w v) :
    SwitchRel (s.move i w) (t.move i v) := by
  refine ⟨⟨h.same.tracker, h.same.switched, h.same.booked, h.same.replies⟩, h.week, h.settled,
    h.pending, fun j => ?_, fun j => ?_⟩
  · by_cases hj : j = i
    · subst hj
      simpa [WeekServer.move] using hheld
    · simpa [WeekServer.move, hj] using h.held j
  · by_cases hj : j = i
    · subst hj
      simpa [WeekServer.move, WeekSpec.move] using hfollows
    · simpa [WeekServer.move, WeekSpec.move, hj] using h.follows j

/-- A worker moves and its counterpart stays. -/
theorem SwitchRel.stay (h : SwitchRel s t) {w : Worker}
    (hheld : ∀ task_hw ∈ w.holding, s.hw.current_hw.str = task_hw.str)
    (hfollows : Follows s.switching s.hw.current_hw s.switched.length w (t.workers i)) :
    Answered (s.move i w) t := by
  refine ⟨[], t, rfl, ?_⟩
  have hmove := h.move (i := i) hheld hfollows
  rwa [WeekSpec.move, Function.update_eq_self] at hmove

/-- Being ahead is a matter of the position in the sequential server. -/
theorem Ahead.of_spec_eq {week : Buf MAX_WEEK_NAME} {resets : ℕ} {w w' : Worker} {v : SpecWorker}
    (h : Ahead week resets w v) (hspec : w'.spec = w.spec)
    (hw : ∀ task_hw g, w ≠ .checked task_hw g 0 false resets) : Ahead week resets w' v := by
  cases h with
  | started h => exact .started (hspec.trans h)
  | graded g h => exact .graded g (hspec.trans h)
  | skipped task_hw g h => exact absurd rfl (hw task_hw g)

/-- A step between two places that are one in the sequential server. -/
theorem SwitchRel.stutter (h : SwitchRel s t) {w : Worker} (hspec : w.spec = (s.workers i).spec)
    (hw : ∀ task_hw g, s.workers i ≠ .checked task_hw g 0 false s.switched.length)
    (hheld : ∀ task_hw ∈ w.holding, s.hw.current_hw.str = task_hw.str) :
    Answered (s.move i w) t := by
  refine h.stay hheld ((h.follows i).imp (fun hv => hv.trans hspec.symm) ?_)
  exact fun ⟨hp, ha⟩ => ⟨hp, ha.of_spec_eq hspec hw⟩

/-- The start of a submission: in the sequential server after the outstanding reset. -/
theorem SwitchRel.snapshot (h : SwitchRel s t) (hworker : s.workers i = .idle) :
    Answered (s.move i (.started (.strncpy MAX_WEEK_NAME s.hw.current_hw.bytes))) t := by
  by_cases hp : s.switching.Pending
  · have hv : t.workers i = .idle := by
      rcases h.follows i with hv | ⟨-, ha⟩
      · rw [hv, hworker, Worker.spec]
      · rw [hworker] at ha
        generalize t.workers i = v at ha
        cases ha with
        | started h => cases h
        | graded g h => cases h
    refine h.stay (fun _ hnone => (nomatch hnone)) (Or.inr ⟨hp, ?_⟩)
    rw [hv]
    exact .started rfl
  · have hv := h.eq_spec hp i
    rw [hworker, Worker.spec] at hv
    refine ⟨[.snapshot i], t.move i (.started (.strncpy MAX_WEEK_NAME t.week.bytes)),
      by simp [specStep, hv], h.move (fun _ hnone => (nomatch hnone)) (Or.inl ?_)⟩
    rw [h.week, ← h.settled hp, Worker.spec]

/-- A submission that is given up before it is graded. -/
theorem SwitchRel.leave (h : SwitchRel s t) {task_hw : Buf MAX_WEEK_NAME}
    (hworker : s.workers i = .started task_hw) : Answered (s.move i .idle) t := by
  rcases h.follows i with hv | ⟨hp, ha⟩
  · rw [hworker, Worker.spec] at hv
    exact ⟨[.leave i], t.move i .idle, by simp [specStep, hv],
      h.move (fun _ hnone => (nomatch hnone)) (Or.inl rfl)⟩
  · refine h.stay (fun _ hnone => (nomatch hnone)) (Or.inl ?_)
    rw [hworker] at ha
    generalize hv : t.workers i = v at ha
    cases ha with
    | started h => rfl
    | graded g h => cases h

/-- A grade, with or without a comparison. -/
theorem SwitchRel.grade (h : SwitchRel s t) {task_hw : Buf MAX_WEEK_NAME} (g : Graded)
    (hspec : (s.workers i).spec = .started task_hw) :
    Answered (s.move i (.graded task_hw g)) t := by
  rcases h.follows i with hv | ⟨hp, ha⟩
  · rw [hspec] at hv
    exact ⟨[.grade i g], t.move i (.graded task_hw g), by simp [specStep, hv],
      h.move (fun _ hnone => (nomatch hnone)) (Or.inl rfl)⟩
  · refine h.stay (fun _ hnone => (nomatch hnone)) (Or.inr ⟨hp, ?_⟩)
    generalize t.workers i = v at ha
    generalize s.workers i = w at ha hspec
    cases ha with
    | started h =>
      obtain rfl := SpecWorker.started.inj (hspec.symm.trans h)
      exact .graded g rfl
    | graded g h => cases hspec.symm.trans h
    | skipped task_hw g h => cases hspec

/-- A submission that the check turns away: in the sequential server after the
outstanding reset. -/
theorem SwitchRel.skip (h : SwitchRel s t) {task_hw : Buf MAX_WEEK_NAME} {g : Graded}
    (hworker : s.workers i = .graded task_hw g) (hne : s.hw.current_hw.str ≠ task_hw.str) :
    Answered (s.move i (.checked task_hw g 0 false s.switched.length)) t := by
  have hv : t.workers i = .graded task_hw g := by
    rcases h.follows i with hv | ⟨-, ha⟩
    · rw [hv, hworker, Worker.spec]
    · rw [hworker] at ha
      generalize t.workers i = v at ha
      cases ha with
      | started h => cases h
      | graded g' h =>
        obtain ⟨rfl, rfl⟩ := SpecWorker.graded.inj h
        exact absurd (Buf.str_strncpy_bytes s.hw.current_hw).symm hne
  by_cases hp : s.switching.Pending
  · refine h.stay (fun _ hnone => (nomatch hnone)) (Or.inr ⟨hp, ?_⟩)
    rw [hv]
    exact .skipped task_hw g hne
  · have hweek : t.week.str ≠ task_hw.str := by rwa [h.week, ← h.settled hp]
    exact ⟨[.record i 0], t.move i (.recorded task_hw g 0), by simp [specStep, hv, hweek],
      h.move (fun _ hnone => (nomatch hnone)) (Or.inl rfl)⟩

/-- A submission is recorded while no reset is outstanding. -/
theorem SwitchRel.record (h : SwitchRel s t) {task_hw : Buf MAX_WEEK_NAME} {g : Graded}
    (hworker : s.workers i = .matched task_hw g) (hpending : ¬ s.switching.Pending) (now : ℤ) :
    Answered { s.move i (.recorded task_hw g
        (ctx_record_submission s.tracker g.hdr.student_id.bytes g.grade now).1) with
      tracker := (ctx_record_submission s.tracker g.hdr.student_id.bytes g.grade now).2
      booked := s.booked ++ [(task_hw, g)] } t := by
  have hv := h.eq_spec hpending i
  rw [hworker, Worker.spec] at hv
  have hheld := h.held i task_hw (by rw [hworker]; rfl)
  have hweek : t.week.str = task_hw.str := by rwa [h.week, ← h.settled hpending]
  have hmove := h.move (i := i) (w := .recorded task_hw g
    (ctx_record_submission s.tracker g.hdr.student_id.bytes g.grade now).1)
    (fun task_hw' hsome => Option.some.inj hsome ▸ hheld) (Or.inl rfl)
  refine ⟨[.record i now], _,
    by simp only [Runs.exec_singleton, specStep, hv, if_pos hweek]; rfl, ?_⟩
  rw [h.same.tracker, h.same.booked]
  exact ⟨⟨rfl, h.same.switched, rfl, h.same.replies⟩, hmove.week, hmove.settled, hmove.pending,
    hmove.held, hmove.follows⟩

/-- A reply is sent with the counters of its week. -/
theorem SwitchRel.reply (h : SwitchRel s t) {task_hw : Buf MAX_WEEK_NAME} {g : Graded}
    {my_submit_count : UInt16} {isRecorded : Bool} {resets : ℕ}
    (hworker : s.workers i = .checked task_hw g my_submit_count isRecorded resets)
    (hweek : s.tracker_week.str = task_hw.str)
    (hlate : isRecorded = true ∨ resets < s.switched.length) :
    Answered { s.move i .idle with
      replies := s.replies ++
        [⟨resultHeader task_hw g my_submit_count s.tracker, g.expected_path⟩] } t := by
  have hv : t.workers i = .recorded task_hw g my_submit_count := by
    rcases h.follows i with hv | ⟨-, ha⟩
    · rw [hv, hworker, Worker.spec]
    · -- a submission that was turned away during this switch does not reply yet
      rw [hworker] at ha
      generalize t.workers i = v at ha
      cases ha with
      | started h => cases h
      | graded g' h => cases h
      | skipped _ _ h => exact absurd hlate (by simp)
  have hmove := h.move (i := i) (w := .idle) (v := .idle) (fun _ hnone => (nomatch hnone))
    (Or.inl rfl)
  refine ⟨[.reply i], _,
    by simp only [Runs.exec_singleton, specStep, hv, h.week, if_pos hweek]; rfl, ?_⟩
  rw [h.same.tracker, h.same.replies]
  exact ⟨⟨h.same.tracker, h.same.switched, h.same.booked, rfl⟩, hmove.week, hmove.settled,
    hmove.pending, hmove.held, hmove.follows⟩

/-- The `hw_lock` section of `ctx_set_hw`: nothing happens in the sequential server yet. -/
theorem SwitchRel.set_hw (h : SwitchRel s t) {week_name : Bytes} (hidle : s.switching = .idle)
    (hvalid : ValidWeekName week_name) (hunheld : s.Unheld) :
    Answered { s with hw := ctx_set_hw_paths week_name, switching := .written week_name } t := by
  have hpending : ¬ s.switching.Pending := by simp [hidle, Switching.Pending]
  refine ⟨[], t, rfl, ⟨h.same.tracker, h.same.switched, h.same.booked, h.same.replies⟩, h.week,
    fun hnot => absurd trivial hnot, fun week_name' heq => ?_, fun i task_hw hsome => ?_,
    fun i => Or.inl (h.eq_spec hpending i)⟩
  · obtain rfl := Switching.written.inj heq
    exact ⟨hvalid, rfl⟩
  · rw [hunheld i] at hsome
    cases hsome

/-- The `tracker_lock` section of `ctx_set_hw`: the sequential server switches the week and
resets the tracker, and then the counterparts catch up. -/
theorem SwitchRel.reset (h : SwitchRel s t) {week_name : Bytes}
    (hwritten : s.switching = .written week_name) :
    Answered { s with
      tracker := ctx_set_hw_reset s.tracker
      switching := .cleared week_name
      tracker_week := s.hw.current_hw
      switched := s.switched ++ [s.hw.current_hw] } t := by
  obtain ⟨hvalid, hhw⟩ := h.pending week_name hwritten
  obtain ⟨bs, hbs⟩ := catch_up { t with
      week := s.hw.current_hw
      tracker := ctx_set_hw_reset t.tracker
      switched := t.switched ++ [s.hw.current_hw] } s.workers s.switched.length
    fun i => (h.follows i).imp_right And.right
  -- the atomic switch comes first, then what the workers did during it
  have hset : specStep t (.set_hw week_name) = some { t with
      week := s.hw.current_hw
      tracker := ctx_set_hw_reset t.tracker
      switched := t.switched ++ [s.hw.current_hw] } := by
    rw [hhw]
    exact if_pos hvalid
  refine ⟨.set_hw week_name :: bs, _, (Runs.exec_cons_eq_some specStep).mpr ⟨_, hset, hbs⟩, ?_⟩
  refine ⟨⟨?_, ?_, h.same.booked, h.same.replies⟩, rfl, fun _ => rfl, fun _ heq => (nomatch heq),
    h.held, fun i => Or.inl rfl⟩
  · rw [h.same.tracker]
  · rw [h.same.switched]

/-- The `csv_lock` section of `ctx_set_hw`: the switch is over. -/
theorem SwitchRel.open_csv (h : SwitchRel s t) {week_name : Bytes}
    (hcleared : s.switching = .cleared week_name) (csv : CsvState) (disk : Disk) :
    SwitchRel { s with csv, disk, switching := .idle } t := by
  have hpending : ¬ s.switching.Pending := by simp [hcleared, Switching.Pending]
  exact ⟨⟨h.same.tracker, h.same.switched, h.same.booked, h.same.replies⟩, h.week,
    fun _ => h.settled hpending, fun _ heq => (nomatch heq), h.held,
    fun i => Or.inl (h.eq_spec hpending i)⟩

end Steps

/-- **One step.**  The sequential server answers every step taken under the condition. -/
theorem simulates : Runs.Simulates weekStep specStep Isolated (SwitchRel (n := n)) := by
  intro s t a s' h hisolated hstep
  cases a with
  | set_hw week_name =>
    obtain ⟨hidle, rfl | ⟨hvalid, hunheld, rfl⟩⟩ := set_hw_cases hstep
    · exact ⟨[], t, rfl, h⟩
    · exact h.set_hw hidle hvalid hunheld
  | reset =>
    obtain ⟨_, hwritten, rfl⟩ := reset_cases hstep
    exact h.reset hwritten
  | open_csv _ _ _ =>
    obtain ⟨_, hcleared, rfl⟩ := open_csv_cases hstep
    exact ⟨[], t, rfl, h.open_csv hcleared _ _⟩
  | set_students count =>
    obtain ⟨-, rfl⟩ := set_students_cases hstep
    refine ⟨[.set_students count], _, rfl, ?_⟩
    rw [h.same.tracker]
    exact ⟨⟨rfl, h.same.switched, h.same.booked, h.same.replies⟩, h.week, h.settled, h.pending,
      h.held, h.follows⟩
  | snapshot i =>
    obtain ⟨hworker, rfl⟩ := snapshot_cases hstep
    exact h.snapshot hworker
  | leave i =>
    obtain ⟨_, hworker, rfl⟩ := leave_cases hstep
    exact h.leave hworker
  | expect i _ _ _ =>
    obtain ⟨_, hworker, rfl⟩ := expect_cases hstep
    exact h.stutter (by rw [hworker]; rfl) (by simp [hworker]) fun _ hnone => (nomatch hnone)
  | compare i _ =>
    obtain ⟨_, _, _, _, _, hworker, rfl⟩ := compare_cases hstep
    exact h.grade _ (by rw [hworker]; rfl)
  | fail i _ _ _ _ =>
    obtain ⟨_, hworker, rfl⟩ := fail_cases hstep
    exact h.grade _ (by rw [hworker]; rfl)
  | check i =>
    obtain ⟨task_hw, g, hworker, ⟨heq, rfl⟩ | ⟨hne, rfl⟩⟩ := check_cases hstep
    · exact h.stutter (by rw [hworker]; rfl) (by simp [hworker])
        fun task_hw' hsome => Option.some.inj hsome ▸ heq
    · exact h.skip hworker hne
  | record i now =>
    obtain ⟨_, _, hworker, rfl⟩ := record_cases_week hstep
    exact h.record hworker hisolated now
  | write_csv i _ _ _ =>
    obtain ⟨_, _, _, _, _, hworker, -, rfl⟩ := write_csv_cases hstep
    obtain ⟨bs, t', hbs, h'⟩ := h.stutter (i := i) (w := .checked _ _ _ true s.switched.length)
      (by rw [hworker]; rfl) (by simp [hworker]) fun _ hnone => (nomatch hnone)
    exact ⟨bs, t', hbs, ⟨h'.same.tracker, h'.same.switched, h'.same.booked, h'.same.replies⟩,
      h'.week, h'.settled, h'.pending, h'.held, h'.follows⟩
  | reply i =>
    obtain ⟨_, _, _, _, _, hworker, rfl⟩ := reply_cases hstep
    obtain ⟨hweek, hlate⟩ := hisolated _ (by rw [hworker]; rfl)
    exact h.reply hworker hweek hlate

/-- **Week switches are linearizable as long as no submission falls into one.**  In every
interleaving of the critical sections of `ctx_set_hw` with those of any number of workers
in which no submission is recorded while a reset is outstanding and every reply reads the
counters of its own week, every state on the way is one of a sequential execution: with
the same tracker after the same switches, the same submissions recorded in the same order
and the same replies. -/
theorem switch_linearizable (csv : CsvState) (disk : Disk) (as : List (WeekAction n))
    (h : Runs.Along weekStep Isolated (.initial n csv disk) as) :
    Runs.Always weekStep Linearizable (.initial n csv disk) as := by
  intro pre hpre s hs
  obtain ⟨bs, t, hbs, hrel⟩ := simulates.exec (switchRel_initial csv disk) (h.of_prefix hpre) hs
  exact ⟨bs, t, hbs, hrel.same⟩

/-- A submission to `week_2` after the switch, and one to `week_1` before it. -/
theorem switch_linearizable_two :
    Runs.Always weekStep Linearizable (.initial 2 noCsv fun _ => none)
      [.snapshot 0, .expect 0 someHeader 12 1024, .compare 0 1, .check 0, .record 0 20,
        .write_csv 0 20 someTm (some 511), .reply 0,
        .set_hw (ascii "week_2"), .snapshot 1, .fail 1 someHeader GRADE_CE 0 0, .check 1,
        .reset, .record 1 30, .open_csv false false none, .write_csv 1 30 someTm (some 511),
        .reply 1] :=
  switch_linearizable noCsv _ _ (by decide +kernel)

/-! ## A submission that the reset erases -/

/-- In the sequential server, an accepted submission recorded after the only switch so far
is counted. -/
structure FirstCounted (t : WeekSpec n) : Prop where
  fresh : t.booked = [] → t.tracker.students = .zero ∧ t.tracker.submitted_count = 0
  unswitched : t.switched = [] → t.week = HwState.initial.current_hw ∧
    ∀ b ∈ t.booked, b.1.str = HwState.initial.current_hw.str
  counted : ∀ week b, t.switched = [week] → t.booked = [b] →
    b.1.str ≠ HwState.initial.current_hw.str → b.2.grade = GRADE_AC →
    t.tracker.submitted_count = 1

/-- The first accepted submission to an empty table is counted. -/
theorem submitted_count_first {t : TrackerState} (hzero : t.students = .zero)
    (hcount : t.submitted_count = 0) (student_id : Bytes) (now : ℤ) :
    (ctx_record_submission t student_id GRADE_AC now).2.submitted_count = 1 := by
  have hloc : locate t.students.records student_id
      = some (0, StudentRecord.zero.claim student_id) := by
    rw [hzero]
    rfl
  rw [ctx_record_submission, hloc, hcount]
  rfl

theorem firstCounted_step (t : WeekSpec n) (a : SpecAction n) (t' : WeekSpec n)
    (h : FirstCounted t) (hstep : specStep t a = some t') : FirstCounted t' := by
  cases a with
  | set_hw week_name =>
    simp only [specStep] at hstep
    split_ifs at hstep
    · obtain rfl := Option.some.inj hstep
      refine ⟨fun _ => ⟨rfl, rfl⟩, fun hnil => by simp at hnil, ?_⟩
      intro week b hone (hbooked : t.booked = [b]) hweek
      have hnil : t.switched = [] := by simpa using congrArg List.length hone
      exact absurd ((h.unswitched hnil).2 b (by simp [hbooked])) hweek
    · exact Option.some.inj hstep ▸ h
  | set_students count =>
    obtain rfl := Option.some.inj hstep
    exact ⟨h.fresh, h.unswitched, h.counted⟩
  | snapshot i =>
    simp only [specStep] at hstep
    split at hstep
    · obtain rfl := Option.some.inj hstep
      exact ⟨h.fresh, h.unswitched, h.counted⟩
    · cases hstep
  | leave i =>
    simp only [specStep] at hstep
    split at hstep
    · obtain rfl := Option.some.inj hstep
      exact ⟨h.fresh, h.unswitched, h.counted⟩
    · cases hstep
  | grade i g =>
    simp only [specStep] at hstep
    split at hstep
    · obtain rfl := Option.some.inj hstep
      exact ⟨h.fresh, h.unswitched, h.counted⟩
    · cases hstep
  | record i now =>
    simp only [specStep] at hstep
    split at hstep
    · split_ifs at hstep with hweek
      · obtain rfl := Option.some.inj hstep
        refine ⟨fun hnil => by simp at hnil, fun hnil => ?_, ?_⟩
        · obtain ⟨hinit, hbooked⟩ := h.unswitched hnil
          refine ⟨hinit, fun b hb => ?_⟩
          rcases List.mem_append.mp hb with hb | hb
          · exact hbooked b hb
          · rw [List.mem_singleton.mp hb, ← hweek, hinit]
        · intro week b _ hone _ hac
          have hnil : t.booked = [] := by simpa using congrArg List.length hone
          obtain ⟨hzero, hcount⟩ := h.fresh hnil
          obtain rfl : _ = b := by simpa [hnil] using hone
          simp only at hac ⊢
          rw [hac]
          exact submitted_count_first hzero hcount _ _
      · obtain rfl := Option.some.inj hstep
        exact ⟨h.fresh, h.unswitched, h.counted⟩
    · cases hstep
  | reply i =>
    simp only [specStep] at hstep
    split at hstep
    · split_ifs at hstep
      obtain rfl := Option.some.inj hstep
      exact ⟨h.fresh, h.unswitched, h.counted⟩
    · cases hstep

/-- A submission to `week_2` passes the check between the two sections of the switch to
`week_2`; the reset erases it. -/
theorem switch_erases_submission :
    ¬ Runs.Always weekStep Linearizable (.initial 1 noCsv fun _ => none)
      [.set_hw (ascii "week_2"), .snapshot 0, .expect 0 someHeader 12 1024, .compare 0 1,
        .check 0, .record 0 20, .reset] := by
  intro h
  have hrun : (Runs.exec weekStep (.initial 1 noCsv fun _ => none)
        [.set_hw (ascii "week_2"), .snapshot 0, .expect 0 someHeader 12 1024, .compare 0 1,
          .check 0, .record 0 20, .reset]).map
      (fun s => (s.switched.map Buf.str, s.booked.map fun b => (b.1.str, b.2.grade),
        s.tracker.submitted_count))
        = some ([ascii "week_2"], [(ascii "week_2", GRADE_AC)], 0) := by
    decide +kernel
  obtain ⟨s, hs, hobs⟩ := Option.map_eq_some_iff.mp hrun
  obtain ⟨hswitched, hrest⟩ := Prod.mk.inj hobs
  obtain ⟨hbooked, hcount⟩ := Prod.mk.inj hrest
  obtain ⟨bs, t, hbs, hlin⟩ := h _ (List.prefix_refl _) s hs
  have hcounted := Runs.invariant_of_step (Q := FirstCounted)
    ⟨fun _ => ⟨rfl, rfl⟩, fun _ => ⟨rfl, by simp [WeekSpec.initial]⟩,
      by simp [WeekSpec.initial]⟩
    firstCounted_step hbs
  obtain ⟨week, hone, -⟩ := List.map_eq_singleton_iff.mp hswitched
  obtain ⟨b, hb, hbobs⟩ := List.map_eq_singleton_iff.mp hbooked
  obtain ⟨hweek, hac⟩ := Prod.mk.inj hbobs
  have hfirst := hcounted.counted week b (hlin.switched.trans hone) (hlin.booked.trans hb)
    (by rw [hweek]; decide) hac
  rw [hlin.tracker, hcount] at hfirst
  exact absurd hfirst (by decide)

end MiniCi
