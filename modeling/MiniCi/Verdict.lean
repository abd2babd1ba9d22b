/-
# The grade of a submission

`handle_client` of `server/server.c` compiles a submission, runs the program under the CPU limit
and the monitor, relays its status through the wrapper and compares its output, and each of these
may decide the grade.  While the program runs, ticks and system calls come as they come, and the
first of them at which the limit is reached or a blocked call is seen ends it.

`graded_by` says of each grade what it takes, for every program, monitor and pair of files.
-/
import MiniCi.CompareOutput
import MiniCi.MonitorPolicy

namespace MiniCi

open CStr Words

/-! ## The source -/

/-- A moment of a run at which it may end: a tick of the clock, with the CPU time consumed, or a
system call that gets as far as the monitor. -/
inductive Moment where
  | tick (consumed : ℕ)
  | call (c : SysCall)

/-- The inner process from `execv` on: it ends as it would by itself, unless it is killed first. -/
def runInner (rl : RLimit) (m : Monitor) (task : Task) :
    List Moment → WaitStatus → Monitor × WaitStatus
  | [], fate => (m, fate)
  | .tick consumed :: moments, fate =>
    match cpuTick rl consumed with
    | some sig => (m, .signaled sig)
    | none => runInner rl m task moments fate
  | .call c :: moments, fate =>
    let m' := handle_sys_enter m task c.syscall_nr c.timestamp_ns
    if m'.signals.contains (task.tgid, SIGKILL) then (m', .signaled SIGKILL)
    else runInner rl m' task moments fate

/-- What `wait4` says of the resources: the user time and `ru_maxrss`. -/
structure Rusage where
  tv_sec : ℕ
  tv_usec : ℕ
  ru_maxrss : ℕ

/-- `user_ms`. -/
def Rusage.user_ms (usage : Rusage) : ℕ := usage.tv_sec * 1000 + usage.tv_usec / 1000

/-- What becomes of a submission: the status of `gcc`, the run, with the monitor the program has
been registered with, and the files that are compared, `none` where `fopen` fails. -/
structure Trial where
  gcc : WaitStatus
  timeout_seconds : Int32
  monitor : Monitor
  task : Task
  moments : List Moment
  fate : WaitStatus
  usage : Rusage
  actual_file : Option Bytes
  expected_file : Option Bytes

/-- `final_res`, `final_exec` and `final_mem`. -/
def Trial.final (isspace : UInt8 → Bool) (t : Trial) : GradeResult × UInt32 × UInt32 :=
  if t.gcc ≠ .exited 0 then (GRADE_CE, 0, 0)
  else
    (gradeOfStatus
        (wrapperStatus (runInner (cpuLimit t.timeout_seconds) t.monitor t.task t.moments t.fate).2)
        (compare_output isspace t.actual_file t.expected_file),
      .ofNat t.usage.user_ms, .ofNat t.usage.ru_maxrss)

/-! ## What it takes -/

/-- The limit is reached, or the monitor sees a blocked call of a program that it finds. -/
def Moment.Stops (rl : RLimit) (m : Monitor) (task : Task) : Moment → Prop
  | tick consumed => Reached rl.rlim_max consumed
  | call c => (lookup_tracked m task).isSome ∧ c.Blocked m

/-- The program is stopped. -/
def Trial.Stopped (t : Trial) : Prop :=
  ∃ moment ∈ t.moments, moment.Stops (cpuLimit t.timeout_seconds) t.monitor t.task

/-- The wrapper exits with `0`, also on the signals whose handler does so. -/
def WaitStatus.Passes (status : WaitStatus) : Prop :=
  status = .exited 0 ∨ status = .signaled SIGINT ∨ status = .signaled SIGTERM

/-- The signals that are taken for the limit. -/
def WaitStatus.TimesOut (status : WaitStatus) : Prop :=
  status = .signaled SIGALRM ∨ status = .signaled SIGXCPU

/-- The files agree, but for white space, if both can be read. -/
def Agree (isspace : UInt8 → Bool) (actual_file expected_file : Option Bytes) : Prop :=
  ∀ actual ∈ actual_file, ∀ expected ∈ expected_file,
    visible isspace actual = visible isspace expected

/-- What each grade takes.  Without one of the two files any output is accepted. -/
structure GradedBy (isspace : UInt8 → Bool) (t : Trial) : Prop where
  ce : (t.final isspace).1 = GRADE_CE ↔ t.gcc ≠ .exited 0
  tle : (t.final isspace).1 = GRADE_TLE ↔ t.gcc = .exited 0 ∧ ¬ t.Stopped ∧ t.fate.TimesOut
  re : (t.final isspace).1 = GRADE_RE ↔
    t.gcc = .exited 0 ∧ (t.Stopped ∨ ¬ t.fate.Passes ∧ ¬ t.fate.TimesOut)
  ac : (t.final isspace).1 = GRADE_AC ↔ t.gcc = .exited 0 ∧ ¬ t.Stopped ∧ t.fate.Passes ∧
    Agree isspace t.actual_file t.expected_file
  wa : (t.final isspace).1 = GRADE_WA ↔ t.gcc = .exited 0 ∧ ¬ t.Stopped ∧ t.fate.Passes ∧
    ¬ Agree isspace t.actual_file t.expected_file
  usage : (t.final isspace).2 = if t.gcc = .exited 0 then
    (.ofNat t.usage.user_ms, .ofNat t.usage.ru_maxrss) else (0, 0)

/-! ## The run -/

theorem cpuTick_cpuLimit (timeout_seconds : Int32) (consumed : ℕ) :
    cpuTick (cpuLimit timeout_seconds) consumed =
      if Reached (cpuLimit timeout_seconds).rlim_max consumed then some SIGKILL else none := by
  unfold cpuTick
  split_ifs with hmax hcur
  · rfl
  · exact absurd hcur hmax
  · rfl

section Run

variable {timeout_seconds : Int32} {m : Monitor} {task : Task} {moments : List Moment}
  {fate : WaitStatus}

/-- A call that does not stop the program does nothing. -/
theorem handle_sys_enter_of_not_stops {rl : RLimit} {c : SysCall}
    (h : ¬ (Moment.call c).Stops rl m task) :
    handle_sys_enter m task c.syscall_nr c.timestamp_ns = m := by
  by_cases hblocked : c.Blocked m
  · have hnone : lookup_tracked m task = none :=
      Option.not_isSome_iff_eq_none.mp fun htracked => h ⟨htracked, hblocked⟩
    simp only [handle_sys_enter, hnone]
  · exact handle_sys_enter_of_not_blocked hblocked task

theorem runInner_of_not_stops (halive : (task.tgid, SIGKILL) ∉ m.signals)
    (h : ∀ moment ∈ moments, ¬ moment.Stops (cpuLimit timeout_seconds) m task) :
    runInner (cpuLimit timeout_seconds) m task moments fate = (m, fate) := by
  induction moments with
  | nil => rfl
  | cons moment moments ih =>
    have hfirst := h moment List.mem_cons_self
    have hrest := ih fun moment' hmem => h moment' (List.mem_cons_of_mem _ hmem)
    cases moment with
    | tick consumed =>
      have hnone : cpuTick (cpuLimit timeout_seconds) consumed = none := by
        rw [cpuTick_cpuLimit]
        exact if_neg hfirst
      rw [runInner, hnone]
      exact hrest
    | call c =>
      rw [runInner, handle_sys_enter_of_not_stops hfirst,
        if_neg (mt List.contains_iff_mem.mp halive)]
      exact hrest

/-- **A program that is stopped is killed.** -/
theorem runInner_of_stops (halive : (task.tgid, SIGKILL) ∉ m.signals)
    (h : ∃ moment ∈ moments, moment.Stops (cpuLimit timeout_seconds) m task) :
    (runInner (cpuLimit timeout_seconds) m task moments fate).2 = .signaled SIGKILL := by
  induction moments with
  | nil =>
    obtain ⟨moment, hmem, -⟩ := h
    cases hmem
  | cons moment moments ih =>
    by_cases hfirst : moment.Stops (cpuLimit timeout_seconds) m task
    · cases moment with
      | tick consumed =>
        have hkill : cpuTick (cpuLimit timeout_seconds) consumed = some SIGKILL := by
          rw [cpuTick_cpuLimit]
          exact if_pos hfirst
        rw [runInner, hkill]
      | call c =>
        have hkilled : (task.tgid, SIGKILL) ∈
            (handle_sys_enter m task c.syscall_nr c.timestamp_ns).signals := by
          rw [signals_of_blocked hfirst.1 hfirst.2]
          simp
        rw [runInner, if_pos (List.contains_iff_mem.mpr hkilled)]
    · have hrest : ∃ moment ∈ moments, moment.Stops (cpuLimit timeout_seconds) m task := by
        obtain ⟨moment', hmem, hstops⟩ := h
        rcases List.mem_cons.mp hmem with rfl | hmem
        · exact absurd hstops hfirst
        · exact ⟨moment', hmem, hstops⟩
      cases moment with
      | tick consumed =>
        have hnone : cpuTick (cpuLimit timeout_seconds) consumed = none := by
          rw [cpuTick_cpuLimit]
          exact if_neg hfirst
        rw [runInner, hnone]
        exact ih hrest
      | call c =>
        rw [runInner, handle_sys_enter_of_not_stops hfirst,
          if_neg (mt List.contains_iff_mem.mp halive)]
        exact ih hrest

end Run

/-! ## From the status to the grade -/

section Grade

variable {isspace : UInt8 → Bool} {status : WaitStatus} {actual_file expected_file : Option Bytes}

theorem gradeOfDiff_of_agree (h : Agree isspace actual_file expected_file) :
    gradeOfDiff (compare_output isspace actual_file expected_file) = GRADE_AC := by
  cases actual_file with
  | none => rfl
  | some actual =>
    cases expected_file with
    | none => rfl
    | some expected =>
      rw [compare_output_some, if_pos (h actual rfl expected rfl)]
      rfl

theorem gradeOfDiff_of_not_agree (h : ¬ Agree isspace actual_file expected_file) :
    gradeOfDiff (compare_output isspace actual_file expected_file) = GRADE_WA := by
  unfold Agree at h
  push Not at h
  obtain ⟨actual, rfl, expected, rfl, hne⟩ := h
  rw [compare_output_some, if_neg hne]
  rfl

theorem gradeOfStatus_of_passes (h : status.Passes) (diff_res : ℤ) :
    gradeOfStatus (wrapperStatus status) diff_res = gradeOfDiff diff_res := by
  rcases h with rfl | rfl | rfl <;> rfl

theorem gradeOfStatus_of_timesOut (h : status.TimesOut) (diff_res : ℤ) :
    gradeOfStatus (wrapperStatus status) diff_res = GRADE_TLE := by
  rcases h with rfl | rfl <;> rfl

theorem gradeOfStatus_of_neither (hpasses : ¬ status.Passes) (htimes : ¬ status.TimesOut)
    (diff_res : ℤ) : gradeOfStatus (wrapperStatus status) diff_res = GRADE_RE := by
  cases status with
  | exited code =>
    apply gradeOfStatus_exited
    rintro rfl
    exact hpasses (Or.inl rfl)
  | signaled sig =>
    apply (gradeOfStatus_signaled_iff sig).mpr
    rintro (rfl | rfl | rfl | rfl)
    · exact htimes (Or.inl rfl)
    · exact htimes (Or.inr rfl)
    · exact hpasses (Or.inr (Or.inl rfl))
    · exact hpasses (Or.inr (Or.inr rfl))

theorem not_timesOut_of_passes (h : status.Passes) : ¬ status.TimesOut := by
  rcases h with rfl | rfl | rfl
  all_goals
    rintro (h | h)
    all_goals exact absurd h (by decide)

end Grade

/-- What becomes of a submission, case by case. -/
theorem final_cases (isspace : UInt8 → Bool) (t : Trial)
    (halive : (t.task.tgid, SIGKILL) ∉ t.monitor.signals) :
    (t.gcc ≠ .exited 0 ∧ (t.final isspace).1 = GRADE_CE) ∨
    t.gcc = .exited 0 ∧
      ((t.Stopped ∧ (t.final isspace).1 = GRADE_RE) ∨
        ¬ t.Stopped ∧
          ((t.fate.TimesOut ∧ (t.final isspace).1 = GRADE_TLE) ∨
            (¬ t.fate.Passes ∧ ¬ t.fate.TimesOut ∧ (t.final isspace).1 = GRADE_RE) ∨
            (t.fate.Passes ∧ Agree isspace t.actual_file t.expected_file ∧
              (t.final isspace).1 = GRADE_AC) ∨
            (t.fate.Passes ∧ ¬ Agree isspace t.actual_file t.expected_file ∧
              (t.final isspace).1 = GRADE_WA))) := by
  by_cases hgcc : t.gcc = .exited 0
  · refine Or.inr ⟨hgcc, ?_⟩
    have hfinal : (t.final isspace).1 = gradeOfStatus (wrapperStatus
        (runInner (cpuLimit t.timeout_seconds) t.monitor t.task t.moments t.fate).2)
        (compare_output isspace t.actual_file t.expected_file) := by
      rw [Trial.final, if_neg (not_not.mpr hgcc)]
    by_cases hstopped : t.Stopped
    · left
      refine ⟨hstopped, ?_⟩
      rw [hfinal, runInner_of_stops halive hstopped]
      rfl
    · right
      refine ⟨hstopped, ?_⟩
      rw [runInner_of_not_stops halive fun moment hmem hstops => hstopped ⟨moment, hmem, hstops⟩]
        at hfinal
      by_cases htimes : t.fate.TimesOut
      · exact Or.inl ⟨htimes, hfinal.trans (gradeOfStatus_of_timesOut htimes _)⟩
      · by_cases hpasses : t.fate.Passes
        · rw [gradeOfStatus_of_passes hpasses] at hfinal
          by_cases hagree : Agree isspace t.actual_file t.expected_file
          · exact Or.inr (Or.inr (Or.inl
              ⟨hpasses, hagree, hfinal.trans (gradeOfDiff_of_agree hagree)⟩))
          · exact Or.inr (Or.inr (Or.inr
              ⟨hpasses, hagree, hfinal.trans (gradeOfDiff_of_not_agree hagree)⟩))
        · exact Or.inr (Or.inl
            ⟨hpasses, htimes, hfinal.trans (gradeOfStatus_of_neither hpasses htimes _)⟩)
  · left
    refine ⟨hgcc, ?_⟩
    rw [Trial.final, if_pos hgcc]

/-- **The grade of a submission.**  Whatever `gcc` makes of it, whatever the program does and is
stopped for, and whatever is in the two files: each grade is given exactly for what it takes. -/
theorem graded_by (isspace : UInt8 → Bool) (t : Trial)
    (halive : (t.task.tgid, SIGKILL) ∉ t.monitor.signals) : GradedBy isspace t := by
  have husage : (t.final isspace).2 = if t.gcc = .exited 0 then
      (.ofNat t.usage.user_ms, .ofNat t.usage.ru_maxrss) else (0, 0) := by
    rw [Trial.final, ite_not]
    split_ifs <;> rfl
  rcases final_cases isspace t halive with ⟨hgcc, hgrade⟩ | ⟨hgcc, hran⟩
  · constructor <;> simp [hgrade, hgcc, husage]
  rcases hran with ⟨hstopped, hgrade⟩ | ⟨hstopped, hended⟩
  · constructor <;> simp [hgrade, hgcc, husage, hstopped]
  rcases hended with ⟨htimes, hgrade⟩ | ⟨hpasses, htimes, hgrade⟩ | ⟨hpasses, hagree, hgrade⟩ |
    ⟨hpasses, hagree, hgrade⟩
  · have hpasses : ¬ t.fate.Passes := fun hpasses => not_timesOut_of_passes hpasses htimes
    constructor <;> simp [hgrade, hgcc, husage, hstopped, htimes, hpasses]
  · constructor <;> simp [hgrade, hgcc, husage, hstopped, htimes, hpasses]
  · have htimes := not_timesOut_of_passes hpasses
    constructor <;> simp [hgrade, hgcc, husage, hstopped, htimes, hpasses, hagree]
  · have htimes := not_timesOut_of_passes hpasses
    constructor <;> simp [hgrade, hgcc, husage, hstopped, htimes, hpasses, hagree]

/-- A program that is killed for `arch_prctl` before its first tick. -/
def someTrial : Trial :=
  { gcc := .exited 0, timeout_seconds := 2, monitor := watchingMonitor, task := watchedTask
    moments := [.call ⟨ScmpSys.execve.nr, 1⟩, .call ⟨ScmpSys.arch_prctl.nr, 2⟩, .tick 3000000]
    fate := .exited 0, usage := ⟨0, 4000, 1024⟩
    actual_file := some (ascii "6\n"), expected_file := some (ascii "6") }

theorem graded_by_someTrial : GradedBy (fun c => IsSpace c) someTrial ∧
    someTrial.final (fun c => IsSpace c) = (GRADE_RE, 4, 1024) :=
  ⟨graded_by _ someTrial watches_watchedTask.alive, by decide +kernel⟩

end MiniCi
