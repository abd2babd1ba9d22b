/-
# The two policies for system calls

`handle_client` keeps two lists of system calls: the names that the seccomp filter of the inner
process allows, and the numbers that it stores in `blocked_syscalls` for the monitor.  The number
158 is on the second, and it is `arch_prctl`, which is on the first: the C library calls it at the
start of every statically linked program.

So a tracked program that only makes allowed calls is left alone by the monitor iff it does not
call `arch_prctl` (`left_alone_iff`); otherwise it is killed there, and graded `GRADE_RE`.
-/
import MiniCi.CpuLimit
import MiniCi.Monitor

namespace MiniCi

open CStr

/-! ## The lists -/

/-- The system calls that the filter names. -/
inductive ScmpSys where
  | read | write | close | readv | writev | fstat | newfstatat | brk | mmap | munmap | mremap
  | mprotect | clock_gettime | gettimeofday | time | arch_prctl | set_tid_address
  | set_robust_list | getpid | gettid | futex | prlimit64 | uname | getrandom | rt_sigaction
  | rt_sigprocmask | rt_sigreturn | exit | exit_group | execve | pread64 | access | rseq | sysinfo
  | lseek | readlink | readlinkat | ioctl | stat | lstat
  deriving DecidableEq

/-- Their numbers on x86-64. -/
def ScmpSys.nr : ScmpSys → UInt64
  | .read => 0
  | .write => 1
  | .close => 3
  | .readv => 19
  | .writev => 20
  | .fstat => 5
  | .newfstatat => 262
  | .brk => 12
  | .mmap => 9
  | .munmap => 11
  | .mremap => 25
  | .mprotect => 10
  | .clock_gettime => 228
  | .gettimeofday => 96
  | .time => 201
  | .arch_prctl => 158
  | .set_tid_address => 218
  | .set_robust_list => 273
  | .getpid => 39
  | .gettid => 186
  | .futex => 202
  | .prlimit64 => 302
  | .uname => 63
  | .getrandom => 318
  | .rt_sigaction => 13
  | .rt_sigprocmask => 14
  | .rt_sigreturn => 15
  | .exit => 60
  | .exit_group => 231
  | .execve => 59
  | .pread64 => 17
  | .access => 21
  | .rseq => 334
  | .sysinfo => 99
  | .lseek => 8
  | .readlink => 89
  | .readlinkat => 267
  | .ioctl => 16
  | .stat => 4
  | .lstat => 6

/-- The rules of the filter, all of them `SCMP_ACT_ALLOW`. -/
def seccomp_rules : List ScmpSys :=
  [.read, .write, .close, .readv, .writev, .fstat, .newfstatat, .brk, .mmap, .munmap, .mremap,
    .mprotect, .clock_gettime, .gettimeofday, .time, .arch_prctl, .set_tid_address,
    .set_robust_list, .getpid, .gettid, .futex, .prlimit64, .uname, .getrandom, .rt_sigaction,
    .rt_sigprocmask, .rt_sigreturn, .exit, .exit_group, .execve, .pread64, .access, .rseq,
    .sysinfo, .lseek, .readlink, .readlinkat, .ioctl, .stat, .lstat]

/-- `blocked_list`. -/
def blocked_list : List UInt64 :=
  [57, 58, 56, 435, 322, 41, 42, 43, 44, 45, 46, 47, 48,
    49, 50, 54, 55, 2, 85, 82, 257, 316, 263, 87, 88, 266, 265,
    86, 83, 258, 84, 76, 77, 90, 91, 92, 62, 234, 200, 160, 161,
    125, 158, 101, 175, 176, 313, 304, 237, 238, 279, 272, 308,
    298, 321, 250, 251, 252, 155, 161, 167, 168, 165, 166,
    425, 426, 427,
    0]

/-- The loop that fills `blocked_syscalls`. -/
def fillBlocked (blocked_list : List UInt64) : Bpf.HashMap UInt64 UInt8 512 :=
  (blocked_list.takeWhile (· ≠ 0)).foldl (fun h nr => h.update nr 1) .empty

/-- A call on the allow list. -/
def SysCall.Allowed (c : SysCall) : Prop := ∃ s ∈ seccomp_rules, c.syscall_nr = s.nr

/-! ## Runs with and without the monitor -/

/-- A program makes its calls under the monitor and then ends as it would without it, unless a
`SIGKILL` comes first. -/
def runMonitored (m : Monitor) (task : Task) : List SysCall → WaitStatus → Monitor × WaitStatus
  | [], fate => (m, fate)
  | c :: calls, fate =>
    let m' := handle_sys_enter m task c.syscall_nr c.timestamp_ns
    if (task.tgid, SIGKILL) ∈ m'.signals then (m', .signaled SIGKILL)
    else runMonitored m' task calls fate

/-- The monitor sends no signal and emits no event, and the status of the program and its grade
are what they are without it. -/
structure LeftAlone (m : Monitor) (task : Task) (calls : List SysCall) (fate : WaitStatus) :
    Prop where
  no_signal : (runMonitored m task calls fate).1.signals = m.signals
  no_event : (runMonitored m task calls fate).1.events = m.events
  same_status : (runMonitored m task calls fate).2 = fate
  same_grade : ∀ diff_res,
    gradeOfStatus (wrapperStatus (runMonitored m task calls fate).2) diff_res =
      gradeOfStatus (wrapperStatus fate) diff_res

/-- The monitor blocks the numbers of `handle_client`, finds the task and has not killed it. -/
structure Watches (m : Monitor) (task : Task) : Prop where
  blocked : m.blocked_syscalls = fillBlocked blocked_list
  tracked : (lookup_tracked m task).isSome
  alive : (task.tgid, SIGKILL) ∉ m.signals

/-! ## Where the lists meet -/

theorem blocked_rules : ∀ s ∈ seccomp_rules,
    ((fillBlocked blocked_list).lookup s.nr).isSome = true ↔ s.nr = ScmpSys.arch_prctl.nr := by
  decide +kernel

section Runs

variable {m : Monitor} {task : Task} {c : SysCall} {calls : List SysCall}

/-- **Of the allowed calls `arch_prctl` is blocked, and no other.** -/
theorem Watches.blocked_iff (h : Watches m task) (hallowed : c.Allowed) :
    c.Blocked m ↔ c.syscall_nr = ScmpSys.arch_prctl.nr := by
  obtain ⟨s, hs, hnr⟩ := hallowed
  rw [SysCall.Blocked, h.blocked, hnr]
  exact blocked_rules s hs

/-- A blocked call of a tracked task is answered with `SIGKILL`, also where there is no room for
the event. -/
theorem signals_of_blocked (htracked : (lookup_tracked m task).isSome) (hblocked : c.Blocked m) :
    (handle_sys_enter m task c.syscall_nr c.timestamp_ns).signals =
      m.signals ++ [(task.tgid, SIGKILL)] := by
  obtain ⟨v, hv⟩ := Option.isSome_iff_exists.mp htracked
  obtain ⟨b, hb⟩ := Option.isSome_iff_exists.mp hblocked
  simp only [handle_sys_enter, hv, hb, bpf_send_signal, emit_event]
  split_ifs <;> rfl

/-- Without a blocked call the run is the one without the monitor. -/
theorem runMonitored_of_not_blocked (halive : (task.tgid, SIGKILL) ∉ m.signals)
    (h : ∀ c ∈ calls, ¬ c.Blocked m) (fate : WaitStatus) :
    runMonitored m task calls fate = (m, fate) := by
  induction calls with
  | nil => rfl
  | cons c calls ih =>
    rw [runMonitored, handle_sys_enter_of_not_blocked (h c List.mem_cons_self), if_neg halive]
    exact ih fun c' hc' => h c' (List.mem_cons_of_mem _ hc')

/-- A run with a blocked call ends there. -/
theorem runMonitored_of_blocked (halive : (task.tgid, SIGKILL) ∉ m.signals)
    (htracked : (lookup_tracked m task).isSome) (h : ∃ c ∈ calls, c.Blocked m)
    (fate : WaitStatus) :
    (runMonitored m task calls fate).1.signals = m.signals ++ [(task.tgid, SIGKILL)] ∧
      (runMonitored m task calls fate).2 = .signaled SIGKILL := by
  induction calls with
  | nil =>
    obtain ⟨c, hc, -⟩ := h
    cases hc
  | cons c calls ih =>
    rw [runMonitored]
    by_cases hc : c.Blocked m
    · have hsignals := signals_of_blocked htracked hc
      have hkilled : (task.tgid, SIGKILL) ∈
          (handle_sys_enter m task c.syscall_nr c.timestamp_ns).signals := by
        rw [hsignals]
        simp
      simp only [if_pos hkilled]
      exact ⟨hsignals, trivial⟩
    · rw [handle_sys_enter_of_not_blocked hc, if_neg halive]
      obtain ⟨c', hc', hblocked⟩ := h
      rcases List.mem_cons.mp hc' with rfl | hc'
      · exact absurd hblocked hc
      · exact ih ⟨c', hc', hblocked⟩

/-- **The monitor leaves a program of allowed calls alone iff it does not call `arch_prctl`.** -/
theorem left_alone_iff (h : Watches m task) (hallowed : ∀ c ∈ calls, c.Allowed)
    (fate : WaitStatus) :
    LeftAlone m task calls fate ↔ ∀ c ∈ calls, c.syscall_nr ≠ ScmpSys.arch_prctl.nr := by
  constructor
  · intro hleft c hc hnr
    have hblocked := (h.blocked_iff (hallowed c hc)).mpr hnr
    have hkilled := runMonitored_of_blocked h.alive h.tracked ⟨c, hc, hblocked⟩ fate
    rw [hleft.no_signal] at hkilled
    exact absurd hkilled.1 (by simp)
  · intro hnone
    have hrun : runMonitored m task calls fate = (m, fate) := by
      apply runMonitored_of_not_blocked h.alive
      intro c hc hblocked
      exact hnone c hc ((h.blocked_iff (hallowed c hc)).mp hblocked)
    constructor
    · rw [hrun]
    · rw [hrun]
    · rw [hrun]
    · intro diff_res
      rw [hrun]

end Runs

/-! ## A statically linked program -/

/-- Process `4242` under its monitor, in a cgroup whose id is `2 ^ 32`. -/
def watchingMonitor : Monitor := register_inner (.load (fillBlocked blocked_list)) 4 4242

def watchedTask : Task := mainThread 4242 0x100000000 (.zero 16)

/-- Registering a process changes neither the blocked numbers nor the signals. -/
theorem register_inner_load (blocked_syscalls : Bpf.HashMap UInt64 UInt8 512) (n : ℤ)
    (inner_pid : Int32) :
    (register_inner (.load blocked_syscalls) n inner_pid).blocked_syscalls = blocked_syscalls ∧
      (register_inner (.load blocked_syscalls) n inner_pid).signals = [] := by
  unfold register_inner
  split_ifs
  · exact ⟨rfl, rfl⟩
  · exact ⟨rfl, rfl⟩

theorem watches_watchedTask : Watches watchingMonitor watchedTask := by
  have htag : (0x100000000 : UInt64) &&& 0xFFFFFFFF = 0 := by decide
  obtain ⟨hblocked, hsignals⟩ := register_inner_load (fillBlocked blocked_list) 4 4242
  refine ⟨hblocked, (lookup_tracked_register_inner _ (by decide) _ _).mpr htag, ?_⟩
  rw [watchingMonitor, hsignals]
  exact List.not_mem_nil

/-- A program that reads, writes and exits. -/
theorem left_alone_read_write :
    LeftAlone watchingMonitor watchedTask
      [⟨ScmpSys.execve.nr, 1⟩, ⟨ScmpSys.read.nr, 2⟩, ⟨ScmpSys.write.nr, 3⟩,
        ⟨ScmpSys.exit_group.nr, 4⟩] (.exited 0) := by
  rw [left_alone_iff watches_watchedTask]
  · decide +kernel
  · intro c hc
    simp only [List.mem_cons, List.not_mem_nil, or_false] at hc
    rcases hc with rfl | rfl | rfl | rfl
    · exact ⟨.execve, by decide, rfl⟩
    · exact ⟨.read, by decide, rfl⟩
    · exact ⟨.write, by decide, rfl⟩
    · exact ⟨.exit_group, by decide, rfl⟩

/-- The calls in `strace.log`. -/
def straceLog : List ScmpSys :=
  [.execve, .brk, .brk, .arch_prctl, .set_tid_address, .set_robust_list, .rseq, .prlimit64,
    .readlinkat, .getrandom, .brk, .brk, .brk, .mprotect, .fstat, .read, .fstat, .read, .write,
    .exit_group]

/-- The run of `strace.log` makes allowed calls only, and without the monitor it is accepted; under
the monitor it is killed and graded `GRADE_RE`. -/
theorem strace_log_killed :
    Watches watchingMonitor watchedTask ∧
    (∀ c ∈ straceLog.map fun s => SysCall.mk s.nr 0, c.Allowed) ∧
    gradeOfStatus (wrapperStatus (.exited 0)) 1 = GRADE_AC ∧
    gradeOfStatus (wrapperStatus (runMonitored watchingMonitor watchedTask
      (straceLog.map fun s => SysCall.mk s.nr 0) (.exited 0)).2) 1 = GRADE_RE ∧
    ¬ LeftAlone watchingMonitor watchedTask (straceLog.map fun s => SysCall.mk s.nr 0)
      (.exited 0) := by
  have hrules : ∀ s ∈ straceLog, s ∈ seccomp_rules := by decide
  have hallowed : ∀ c ∈ straceLog.map fun s => SysCall.mk s.nr 0, c.Allowed := by
    intro c hc
    obtain ⟨s, hs, rfl⟩ := List.mem_map.mp hc
    exact ⟨s, hrules s hs, rfl⟩
  have hw := watches_watchedTask
  have hblocked : ∃ c ∈ straceLog.map fun s => SysCall.mk s.nr 0, c.Blocked watchingMonitor := by
    have hmem : SysCall.mk ScmpSys.arch_prctl.nr 0 ∈ straceLog.map fun s => SysCall.mk s.nr 0 :=
      List.mem_map.mpr ⟨.arch_prctl, by decide, rfl⟩
    exact ⟨_, hmem, (hw.blocked_iff (hallowed _ hmem)).mpr rfl⟩
  obtain ⟨hsignals, hstatus⟩ := runMonitored_of_blocked hw.alive hw.tracked hblocked (.exited 0)
  refine ⟨hw, hallowed, rfl, ?_, ?_⟩
  · rw [hstatus]
    rfl
  · intro hleft
    rw [hleft.no_signal] at hsignals
    exact absurd hsignals (by simp)

end MiniCi
