/-
# What becomes of a program that uses up its CPU time

The inner process sets both limits of `RLIMIT_CPU` to `timeout_seconds` and executes the
program.  At each tick the kernel compares the CPU time consumed with the hard limit, which
kills, and then with the soft limit, which sends `SIGXCPU`.  The wrapper waits for the inner
process, and relays a signal that killed it by sending it to itself; `handle_client` makes a
grade of the status of the wrapper.

The two limits being equal, the kernel never gets to the soft one.  And the wrapper still has
the handlers that `main` has installed, among them one that exits with 0.
-/
import MiniCi.WeekServer

namespace MiniCi

/-! ## Signals and statuses -/

def SIGINT : ℕ := 2
def SIGKILL : ℕ := 9
def SIGUSR1 : ℕ := 10
def SIGALRM : ℕ := 14
def SIGTERM : ℕ := 15
def SIGXCPU : ℕ := 24
def SIGSYS : ℕ := 31

/-- How a process has ended, as `wait` reports it. -/
inductive WaitStatus where
  | exited (code : UInt8)
  | signaled (sig : ℕ)
  deriving DecidableEq

/-! ## The CPU limit -/

/-- `struct rlimit`. -/
structure RLimit where
  rlim_cur : UInt64
  rlim_max : UInt64
  deriving DecidableEq

/-- `RLIM_INFINITY`. -/
def RLIM_INFINITY : UInt64 := 0xFFFFFFFFFFFFFFFF

/-- The limits the inner process sets: the conversion of an `int` to `rlim_t`, twice. -/
def cpuLimit (timeout_seconds : Int32) : RLimit :=
  { rlim_cur := timeout_seconds.toInt64.toUInt64, rlim_max := timeout_seconds.toInt64.toUInt64 }

/-- The CPU time consumed, in nanoseconds, has reached a limit in seconds. -/
def Reached (rlim : UInt64) (consumed : ℕ) : Prop :=
  rlim ≠ RLIM_INFINITY ∧ rlim.toNat * 1000000000 ≤ consumed

instance (rlim : UInt64) (consumed : ℕ) : Decidable (Reached rlim consumed) :=
  inferInstanceAs (Decidable (_ ∧ _))

/-- What the kernel sends at a tick. -/
def cpuTick (rl : RLimit) (consumed : ℕ) : Option ℕ :=
  if Reached rl.rlim_max consumed then some SIGKILL
  else if Reached rl.rlim_cur consumed then some SIGXCPU
  else none

/-- A program: the CPU time it has consumed at the ticks it lives to see if nobody kills it,
and how it ends then. -/
structure Execution where
  ticks : List ℕ
  fate : WaitStatus
  deriving DecidableEq

/-- The signal by which the CPU limit ends the program, if it does. -/
def cpuSignal (rl : RLimit) (e : Execution) : Option ℕ := e.ticks.findSome? (cpuTick rl)

/-- The status of the inner process. -/
def innerStatus (rl : RLimit) (e : Execution) : WaitStatus :=
  match cpuSignal rl e with
  | some sig => .signaled sig
  | none => e.fate

/-! ## The wrapper and `handle_client` -/

/-- The status of the wrapper after `waitpid`.  It sends itself the signal that killed the
inner process: `sigint_handler` calls `exit(0)`, and after `sigusr1_handler` it gets to
`_exit(128 + WTERMSIG(st))`; every other signal has its default action. -/
def wrapperStatus : WaitStatus → WaitStatus
  | .signaled sig =>
    if sig = SIGINT ∨ sig = SIGTERM then .exited 0
    else if sig = SIGUSR1 then .exited (.ofNat (128 + sig))
    else .signaled sig
  | .exited code => .exited code

/-- The grade `handle_client` makes of the status of the wrapper; `diff_res` is what
`compare_output` would return. -/
def gradeOfStatus (status : WaitStatus) (diff_res : ℤ) : GradeResult :=
  match status with
  | .signaled sig =>
    if sig = SIGALRM ∨ sig = SIGXCPU then GRADE_TLE
    else if sig = SIGSYS then GRADE_RE
    else if sig = SIGKILL then GRADE_RE
    else GRADE_RE
  | .exited code => if code ≠ 0 then GRADE_RE else gradeOfDiff diff_res

/-- The grade of a program that compiles. -/
def runGrade (timeout_seconds : Int32) (e : Execution) (diff_res : ℤ) : GradeResult :=
  gradeOfStatus (wrapperStatus (innerStatus (cpuLimit timeout_seconds) e)) diff_res

/-! ## The property -/

/-- A program ended by the CPU limit is graded `GRADE_TLE`; one that dies of another signal or
exits with another code than 0 is graded `GRADE_RE`. -/
structure GradedByItsEnd (timeout_seconds : Int32) (e : Execution) : Prop where
  limit : ∀ sig ∈ cpuSignal (cpuLimit timeout_seconds) e, ∀ diff_res,
    runGrade timeout_seconds e diff_res = GRADE_TLE
  signal : cpuSignal (cpuLimit timeout_seconds) e = none → ∀ sig, e.fate = .signaled sig →
    ∀ diff_res, runGrade timeout_seconds e diff_res = GRADE_RE
  exit : cpuSignal (cpuLimit timeout_seconds) e = none → ∀ code, e.fate = .exited code →
    code ≠ 0 → ∀ diff_res, runGrade timeout_seconds e diff_res = GRADE_RE

/-! ## Which signal the limit sends -/

/-- With equal limits the kernel only ever kills. -/
theorem cpuTick_eq_sigkill {timeout_seconds : Int32} {consumed sig : ℕ}
    (h : cpuTick (cpuLimit timeout_seconds) consumed = some sig) : sig = SIGKILL := by
  unfold cpuTick at h
  split_ifs at h with hmax hcur
  · exact (Option.some.inj h).symm
  · exact absurd hcur hmax

/-- The limit ends a program with `SIGKILL`. -/
theorem cpuSignal_eq_sigkill {timeout_seconds : Int32} {e : Execution} {sig : ℕ}
    (h : cpuSignal (cpuLimit timeout_seconds) e = some sig) : sig = SIGKILL := by
  obtain ⟨consumed, -, htick⟩ := List.exists_of_findSome?_eq_some h
  exact cpuTick_eq_sigkill htick

/-- The limit leaves a program alone iff no tick finds it used up. -/
theorem cpuSignal_eq_none_iff (timeout_seconds : Int32) (e : Execution) :
    cpuSignal (cpuLimit timeout_seconds) e = none ↔
      ∀ consumed ∈ e.ticks, ¬ Reached (cpuLimit timeout_seconds).rlim_max consumed := by
  unfold cpuSignal
  rw [List.findSome?_eq_none_iff]
  constructor
  · intro h consumed hmem hreached
    have hnone := h consumed hmem
    rw [cpuTick, if_pos hreached] at hnone
    cases hnone
  · intro h consumed hmem
    have hmax := h consumed hmem
    -- the soft limit is the hard limit
    have hcur : ¬ Reached (cpuLimit timeout_seconds).rlim_cur consumed := hmax
    rw [cpuTick, if_neg hmax, if_neg hcur]

/-! ## Grades -/

/-- A program that the limit leaves alone is graded by how it ends. -/
theorem runGrade_of_none {timeout_seconds : Int32} {e : Execution}
    (h : cpuSignal (cpuLimit timeout_seconds) e = none) (diff_res : ℤ) :
    runGrade timeout_seconds e diff_res = gradeOfStatus (wrapperStatus e.fate) diff_res := by
  rw [runGrade, innerStatus, h]

/-- A program that the limit ends is graded `GRADE_RE`. -/
theorem runGrade_of_cpuSignal {timeout_seconds : Int32} {e : Execution} {sig : ℕ}
    (h : cpuSignal (cpuLimit timeout_seconds) e = some sig) (diff_res : ℤ) :
    runGrade timeout_seconds e diff_res = GRADE_RE := by
  obtain rfl := cpuSignal_eq_sigkill h
  rw [runGrade, innerStatus, h]
  rfl

/-- The signals that do not end in `GRADE_RE`. -/
def Misgraded (sig : ℕ) : Prop :=
  sig = SIGALRM ∨ sig = SIGXCPU ∨ sig = SIGINT ∨ sig = SIGTERM

instance (sig : ℕ) : Decidable (Misgraded sig) := inferInstanceAs (Decidable (_ ∨ _))

/-- A signal ends in `GRADE_RE`, whatever the output is, iff it is none of the four. -/
theorem gradeOfStatus_signaled_iff (sig : ℕ) :
    (∀ diff_res, gradeOfStatus (wrapperStatus (.signaled sig)) diff_res = GRADE_RE) ↔
      ¬ Misgraded sig := by
  constructor
  · intro h hsig
    have hzero := h 0
    rcases hsig with rfl | rfl | rfl | rfl
    all_goals exact absurd hzero (by decide)
  · intro hsig diff_res
    obtain ⟨halrm, hxcpu, hint, hterm⟩ : sig ≠ SIGALRM ∧ sig ≠ SIGXCPU ∧ sig ≠ SIGINT ∧
        sig ≠ SIGTERM := by
      unfold Misgraded at hsig
      omega
    have hexit : ¬ (sig = SIGINT ∨ sig = SIGTERM) := by omega
    have htle : ¬ (sig = SIGALRM ∨ sig = SIGXCPU) := by omega
    simp only [wrapperStatus, if_neg hexit]
    by_cases husr : sig = SIGUSR1
    · -- the exit code of a wrapper that outlives the signal is not 0
      subst husr
      rfl
    · rw [if_neg husr, gradeOfStatus, if_neg htle, ite_self, ite_self]

/-- An exit code other than 0 ends in `GRADE_RE`. -/
theorem gradeOfStatus_exited {code : UInt8} (h : code ≠ 0) (diff_res : ℤ) :
    gradeOfStatus (wrapperStatus (.exited code)) diff_res = GRADE_RE :=
  if_pos h

/-- **Exceeding the CPU limit is never graded `GRADE_TLE`.**  For every value of
`timeout_seconds` and every program, the grade tells the end of the program if and only if
the program ends before a tick finds the limit reached, and not by one of `SIGALRM`,
`SIGXCPU`, `SIGINT` and `SIGTERM`. -/
theorem graded_by_its_end_iff (timeout_seconds : Int32) (e : Execution) :
    GradedByItsEnd timeout_seconds e ↔
      (∀ consumed ∈ e.ticks, ¬ Reached (cpuLimit timeout_seconds).rlim_max consumed) ∧
        ∀ sig, e.fate = .signaled sig → ¬ Misgraded sig := by
  rw [← cpuSignal_eq_none_iff]
  constructor
  · intro h
    have hnone : cpuSignal (cpuLimit timeout_seconds) e = none := by
      by_contra hne
      obtain ⟨sig, hsome⟩ := Option.ne_none_iff_exists'.mp hne
      have hgrade := h.limit sig hsome 0
      rw [runGrade_of_cpuSignal hsome] at hgrade
      cases hgrade
    refine ⟨hnone, fun sig hfate => (gradeOfStatus_signaled_iff sig).mp fun diff_res => ?_⟩
    have hgrade := h.signal hnone sig hfate diff_res
    rwa [runGrade_of_none hnone, hfate] at hgrade
  · rintro ⟨hnone, hsignals⟩
    constructor
    · intro sig hsome
      rw [hnone] at hsome
      cases hsome
    · intro _ sig hfate diff_res
      rw [runGrade_of_none hnone, hfate]
      exact (gradeOfStatus_signaled_iff sig).mpr (hsignals sig hfate) diff_res
    · intro _ code hfate hcode diff_res
      rw [runGrade_of_none hnone, hfate]
      exact gradeOfStatus_exited hcode diff_res

/-- An endless loop under the limit of two seconds is killed at the tick that finds them used
up, and graded `GRADE_RE`. -/
theorem endless_loop_not_tle :
    ¬ GradedByItsEnd 2 ⟨[1000000000, 1999000000, 2003000000, 2007000000], .exited 0⟩ := by
  intro h
  exact absurd (h.limit SIGKILL (by decide) 0) (by decide)

end MiniCi
