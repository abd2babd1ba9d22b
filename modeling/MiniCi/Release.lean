/-
# The release of a submitted program

The worker, the wrapper it forks and the inner process the wrapper forks talk over two pipes:
the wrapper reports the pid of the inner process on `pid_report_pipe`, the worker registers
it with the monitor, and a byte on `run_sync_pipe` lets the inner process go on to `execv`.
Every `close`, `read` and `write` of the three is a step of its own here.

A `read` returns when there are bytes, or when nobody holds the write end.  So the inner
process would be let go too early if the last write end were closed, and the worker would
register nothing if it found the report pipe closed.  Who holds which write end is told by
where the three processes are (`SyncInv.syncWriters`, `SyncInv.reportWriters`); from this
follow that the inner process passes its `read` only after its own pid has been registered
(`registered_before_release`), and that the three never all wait (`never_stalled`).
-/
import MiniCi.Monitor
import MiniCi.Pipes
import MiniCi.Runs
import MiniCi.Wire

namespace MiniCi

open Pipes Wire

/-! ## Where the processes are -/

/-- The three processes. -/
inductive SyncProc where
  | worker
  | wrapper
  | inner
  deriving DecidableEq

/-- Where `handle_client` is: the value is what has been done last. -/
inductive WorkerAt where
  | piped
  | forked
  | closedSyncRead
  | closedReportWrite
  | gotReport (report : List UInt8)
  | closedReportRead (report : List UInt8)
  | registered
  | signalled
  | closedSyncWrite
  | waited
  deriving DecidableEq

/-- Where the wrapper is. -/
inductive WrapperIn where
  | unborn
  | started
  | closedSyncWrite
  | closedReportRead
  | unshared
  | forked
  | closedSyncRead
  | reported
  | closedReportWrite
  | exited
  deriving DecidableEq

/-- Where the inner process is; `running` from the end of the set-up on. -/
inductive InnerIn where
  | unborn
  | started
  | closedReportWrite
  | released
  | running
  | exited
  deriving DecidableEq

/-- How many steps a process has taken. -/
def WorkerAt.pc : WorkerAt → ℕ
  | .piped => 0
  | .forked => 1
  | .closedSyncRead => 2
  | .closedReportWrite => 3
  | .gotReport _ => 4
  | .closedReportRead _ => 5
  | .registered => 6
  | .signalled => 7
  | .closedSyncWrite => 8
  | .waited => 9

def WrapperIn.pc : WrapperIn → ℕ
  | .unborn => 0
  | .started => 1
  | .closedSyncWrite => 2
  | .closedReportRead => 3
  | .unshared => 4
  | .forked => 5
  | .closedSyncRead => 6
  | .reported => 7
  | .closedReportWrite => 8
  | .exited => 9

def InnerIn.pc : InnerIn → ℕ
  | .unborn => 0
  | .started => 1
  | .closedReportWrite => 2
  | .released => 3
  | .running => 4
  | .exited => 5

/-- The bytes of the report that the worker has read. -/
def WorkerAt.report : WorkerAt → Option (List UInt8)
  | .gotReport report => some report
  | .closedReportRead report => some report
  | _ => none

/-! ## State -/

/-- The two pipes, the three processes, the pid that `fork` has given the inner process, and
the maps of the monitor. -/
structure SyncState where
  run_sync_pipe : Pipe SyncProc
  pid_report_pipe : Pipe SyncProc
  worker : WorkerAt
  wrapper : WrapperIn
  inner : InnerIn
  inner_pid : Option Int32
  monitor : Monitor

/-- After the two calls of `pipe`. -/
def SyncState.initial (monitor : Monitor) : SyncState :=
  { run_sync_pipe := .connect .worker .worker, pid_report_pipe := .connect .worker .worker
    worker := .piped, wrapper := .unborn, inner := .unborn, inner_pid := none, monitor }

/-- The `pid_t` in the bytes that the wrapper has written. -/
def pidOfBytes (p : List UInt8) : Int32 := (ntohl p.reverse).toInt32

/-- The bytes of a `pid_t`. -/
def bytesOfPid (pid : Int32) : List UInt8 := le32 pid.toUInt32

theorem pidOfBytes_bytesOfPid (pid : Int32) : pidOfBytes (bytesOfPid pid) = pid := by
  rw [pidOfBytes, bytesOfPid, le32, List.reverse_reverse, ntohl_be32, Int32.toInt32_toUInt32]

/-! ## Steps -/

/-- A step of one of the three processes. -/
inductive SyncAction where
  /-- `handle_client` -/
  | fork
  | closeSyncRead
  | closeReportWrite
  | readReport
  | closeReportRead
  | register
  | signal
  | closeSyncWrite
  | wait
  /-- the wrapper -/
  | wrapperCloseSyncWrite
  | wrapperCloseReportRead
  | unshare (ok : Bool)
  | forkInner (inner : Int32)
  | wrapperCloseSyncRead
  | report
  | wrapperCloseReportWrite
  | wrapperWait
  /-- the inner process -/
  | innerCloseReportWrite
  | innerRead
  | innerCloseSyncRead
  | innerExit
  deriving DecidableEq

/-- The end of a process closes what it holds. -/
def SyncState.exitProc (s : SyncState) (p : SyncProc) : SyncState :=
  { s with run_sync_pipe := s.run_sync_pipe.exit p, pid_report_pipe := s.pid_report_pipe.exit p }

/-- One step.  The `fork`s succeed; a `write` without a reader, which would end the server, is
no step. -/
def syncStep (s : SyncState) : SyncAction → Option SyncState
  | .fork =>
    if s.worker = .piped then
      some { s with
        run_sync_pipe := s.run_sync_pipe.fork .worker .wrapper
        pid_report_pipe := s.pid_report_pipe.fork .worker .wrapper
        worker := .forked, wrapper := .started }
    else none
  | .closeSyncRead =>
    if s.worker = .forked then
      some { s with
        run_sync_pipe := s.run_sync_pipe.closeRead .worker, worker := .closedSyncRead }
    else none
  | .closeReportWrite =>
    if s.worker = .closedSyncRead then
      some { s with
        pid_report_pipe := s.pid_report_pipe.closeWrite .worker, worker := .closedReportWrite }
    else none
  | .readReport =>
    if s.worker = .closedReportWrite then
      (s.pid_report_pipe.read 4).map fun (report, q) =>
        { s with pid_report_pipe := q, worker := .gotReport report }
    else none
  | .closeReportRead =>
    match s.worker with
    | .gotReport report =>
      some { s with
        pid_report_pipe := s.pid_report_pipe.closeRead .worker
        worker := .closedReportRead report }
    | _ => none
  | .register =>
    match s.worker with
    | .closedReportRead report =>
      some { s with
        monitor := register_inner s.monitor report.length (pidOfBytes report)
        worker := .registered }
    | _ => none
  | .signal =>
    if s.worker = .registered then
      (s.run_sync_pipe.write [65]).map fun q =>
        { s with run_sync_pipe := q, worker := .signalled }
    else none
  | .closeSyncWrite =>
    if s.worker = .signalled then
      some { s with
        run_sync_pipe := s.run_sync_pipe.closeWrite .worker, worker := .closedSyncWrite }
    else none
  | .wait =>
    if s.worker = .closedSyncWrite ∧ s.wrapper = .exited then some { s with worker := .waited }
    else none
  | .wrapperCloseSyncWrite =>
    if s.wrapper = .started then
      some { s with
        run_sync_pipe := s.run_sync_pipe.closeWrite .wrapper, wrapper := .closedSyncWrite }
    else none
  | .wrapperCloseReportRead =>
    if s.wrapper = .closedSyncWrite then
      some { s with
        pid_report_pipe := s.pid_report_pipe.closeRead .wrapper, wrapper := .closedReportRead }
    else none
  | .unshare ok =>
    if s.wrapper = .closedReportRead then
      if ok then some { s with wrapper := .unshared }
      else some { s.exitProc .wrapper with wrapper := .exited }
    else none
  | .forkInner inner =>
    if s.wrapper = .unshared ∧ 0 < inner then
      some { s with
        run_sync_pipe := s.run_sync_pipe.fork .wrapper .inner
        pid_report_pipe := s.pid_report_pipe.fork .wrapper .inner
        wrapper := .forked, inner := .started, inner_pid := some inner }
    else none
  | .wrapperCloseSyncRead =>
    if s.wrapper = .forked then
      some { s with
        run_sync_pipe := s.run_sync_pipe.closeRead .wrapper, wrapper := .closedSyncRead }
    else none
  | .report =>
    match s.wrapper, s.inner_pid with
    | .closedSyncRead, some inner =>
      (s.pid_report_pipe.write (bytesOfPid inner)).map fun q =>
        { s with pid_report_pipe := q, wrapper := .reported }
    | _, _ => none
  | .wrapperCloseReportWrite =>
    if s.wrapper = .reported then
      some { s with
        pid_report_pipe := s.pid_report_pipe.closeWrite .wrapper, wrapper := .closedReportWrite }
    else none
  | .wrapperWait =>
    -- `waitpid` returns, and the wrapper ends like the inner process
    if s.wrapper = .closedReportWrite ∧ s.inner = .exited then
      some { s.exitProc .wrapper with wrapper := .exited }
    else none
  | .innerCloseReportWrite =>
    if s.inner = .started then
      some { s with
        pid_report_pipe := s.pid_report_pipe.closeWrite .inner, inner := .closedReportWrite }
    else none
  | .innerRead =>
    if s.inner = .closedReportWrite then
      (s.run_sync_pipe.read 1).map fun (_, q) =>
        { s with run_sync_pipe := q, inner := .released }
    else none
  | .innerCloseSyncRead =>
    if s.inner = .released then
      some { s with run_sync_pipe := s.run_sync_pipe.closeRead .inner, inner := .running }
    else none
  | .innerExit =>
    if s.inner = .running then some { s.exitProc .inner with inner := .exited } else none

/-! ## The properties -/

/-- The inner process has passed its `read` of `run_sync_pipe`. -/
def InnerIn.Released (w : InnerIn) : Prop := 3 ≤ w.pc

/-- The worker has registered the pid of the inner process, and nothing else. -/
def SyncState.Registered (monitor : Monitor) (s : SyncState) : Prop :=
  6 ≤ s.worker.pc ∧ ∃ pid, s.inner_pid = some pid ∧ 0 < pid ∧
    s.monitor = { monitor with
      tracked_pids := monitor.tracked_pids.update { pid := pid.toUInt32, cgroup_tag := 0 } 0 }

/-- The worker is in a `read` that blocks, or in `wait4` for a wrapper that lives. -/
def SyncState.WorkerWaits (s : SyncState) : Prop :=
  s.worker = .closedReportWrite ∧ s.pid_report_pipe.read 4 = none ∨
    s.worker = .closedSyncWrite ∧ s.wrapper ≠ .exited

/-- The wrapper is in `waitpid` for an inner process that lives. -/
def SyncState.WrapperWaits (s : SyncState) : Prop :=
  s.wrapper = .closedReportWrite ∧ s.inner ≠ .exited

/-- The inner process is in a `read` that blocks. -/
def SyncState.InnerWaits (s : SyncState) : Prop :=
  s.inner = .closedReportWrite ∧ s.run_sync_pipe.read 1 = none

/-- Every process that lives waits for another. -/
structure SyncState.Stalled (s : SyncState) : Prop where
  worker : s.WorkerWaits
  wrapper : s.wrapper = .unborn ∨ s.wrapper = .exited ∨ s.WrapperWaits
  inner : s.inner = .unborn ∨ s.inner = .exited ∨ s.InnerWaits

/-! ## The invariant -/

/-- There will be no inner process. -/
def SyncState.Failed (s : SyncState) : Prop := s.wrapper = .exited ∧ s.inner = .unborn

/-- What holds in every state: who can write to which pipe, what is in the pipes, and what
the worker has read and registered. -/
structure SyncInv (monitor : Monitor) (s : SyncState) : Prop where
  wrapperBorn : s.worker.pc = 0 ↔ s.wrapper.pc = 0
  innerBorn : s.wrapper.pc ≤ 4 → s.inner.pc = 0
  innerLives : 5 ≤ s.wrapper.pc → s.wrapper.pc ≤ 8 → 1 ≤ s.inner.pc
  pid : ∀ pid, s.inner_pid = some pid → 0 < pid
  pidBorn : s.inner.pc = 0 ↔ s.inner_pid = none
  released : 3 ≤ s.inner.pc → 7 ≤ s.worker.pc
  syncWriters : ∀ x, x ∈ s.run_sync_pipe.writers ↔
    x = .worker ∧ s.worker.pc ≤ 7 ∨ x = .wrapper ∧ s.wrapper.pc = 1
  syncBuf : s.run_sync_pipe.buf = if 7 ≤ s.worker.pc ∧ s.inner.pc ≤ 2 then [65] else []
  reportWriters : ∀ x, x ∈ s.pid_report_pipe.writers ↔
    x = .worker ∧ s.worker.pc ≤ 2 ∨ x = .wrapper ∧ 1 ≤ s.wrapper.pc ∧ s.wrapper.pc ≤ 7 ∨
      x = .inner ∧ s.inner.pc = 1
  reportBuf : s.pid_report_pipe.buf =
    if 7 ≤ s.wrapper.pc ∧ s.worker.pc ≤ 3 then (s.inner_pid.map bytesOfPid).getD [] else []
  reported : 4 ≤ s.worker.pc → 7 ≤ s.wrapper.pc
  report : ∀ report, s.worker.report = some report →
    (∃ pid, s.inner_pid = some pid ∧ report = bytesOfPid pid) ∨ report = [] ∧ s.Failed
  unregistered : s.worker.pc ≤ 5 → s.monitor = monitor
  registered : 6 ≤ s.worker.pc → s.Registered monitor ∨ s.Failed

theorem syncInv_initial (monitor : Monitor) : SyncInv monitor (.initial monitor) := by
  constructor <;> simp [SyncState.initial, WorkerAt.pc, WrapperIn.pc, InnerIn.pc, Pipe.connect,
    WorkerAt.report]

/-! ## Every step keeps the invariant -/

section Steps

attribute [local grind =] WorkerAt.pc WrapperIn.pc InnerIn.pc WorkerAt.report SyncState.Registered
  SyncState.Failed SyncState.exitProc Pipe.fork Pipe.closeRead Pipe.closeWrite Pipe.exit

attribute [local grind cases eager] SyncInv

variable {monitor : Monitor} {s s' : SyncState}

/-- While the worker can write and has not, the `read` of the inner process blocks. -/
theorem SyncInv.innerRead_blocks (h : SyncInv monitor s) (hworker : s.worker.pc ≤ 6) (len : ℕ) :
    s.run_sync_pipe.read len = none := by
  have hbuf : s.run_sync_pipe.buf = [] := by
    rw [h.syncBuf, if_neg (by omega)]
  have hwriter : .worker ∈ s.run_sync_pipe.writers :=
    (h.syncWriters .worker).mpr (Or.inl ⟨rfl, by omega⟩)
  exact Pipe.read_eq_none hbuf hwriter len

/-- What the worker reads of the report: the pid, or nothing when there will be no inner
process. -/
theorem SyncInv.readReport (h : SyncInv monitor s) (hworker : s.worker = .closedReportWrite)
    {report : List UInt8} {q : Pipe SyncProc}
    (hread : s.pid_report_pipe.read 4 = some (report, q)) :
    q.buf = [] ∧ q.writers = s.pid_report_pipe.writers ∧ 7 ≤ s.wrapper.pc ∧
      ((∃ pid, s.inner_pid = some pid ∧ report = bytesOfPid pid) ∨ report = [] ∧ s.Failed) := by
  have hpc : s.worker.pc = 3 := by rw [hworker]; rfl
  obtain ⟨rfl, rfl, hready⟩ := Pipe.read_eq_some hread
  by_cases hborn : s.inner.pc = 0
  · -- without an inner process there is no report, so all write ends are closed
    have hnone := h.pidBorn.mp hborn
    have hbuf : s.pid_report_pipe.buf = [] := by
      rw [h.reportBuf, hnone]
      simp
    have hclosed : s.pid_report_pipe.writers = ∅ := hready.resolve_left fun hne => hne hbuf
    have hwrapper : .wrapper ∉ s.pid_report_pipe.writers := by simp [hclosed]
    have hexited : s.wrapper.pc = 9 := by
      have hmem := (h.reportWriters .wrapper).not.mp hwrapper
      have hstarted := h.wrapperBorn
      have hlives := h.innerLives
      have hle : s.wrapper.pc ≤ 9 := by cases s.wrapper <;> decide
      grind
    refine ⟨by simp [hbuf], rfl, by omega, Or.inr ⟨by simp [hbuf], ?_, ?_⟩⟩
    · revert hexited
      cases s.wrapper <;> simp [WrapperIn.pc]
    · revert hborn
      cases s.inner <;> simp [InnerIn.pc]
  · obtain ⟨pid, hpid⟩ : ∃ pid, s.inner_pid = some pid :=
      Option.ne_none_iff_exists'.mp (h.pidBorn.not.mp hborn)
    -- the wrapper holds its end until it has reported
    have hreported : 7 ≤ s.wrapper.pc := by
      by_contra hlt
      have hbuf : s.pid_report_pipe.buf = [] := by
        rw [h.reportBuf, if_neg (by omega)]
      have hstarted := h.wrapperBorn
      have hwriter : .wrapper ∈ s.pid_report_pipe.writers :=
        (h.reportWriters .wrapper).mpr (Or.inr (Or.inl ⟨rfl, by omega, by omega⟩))
      have hclosed := hready.resolve_left fun hne => hne hbuf
      rw [hclosed] at hwriter
      exact absurd hwriter (Finset.notMem_empty _)
    have hbuf : s.pid_report_pipe.buf = bytesOfPid pid := by
      rw [h.reportBuf, if_pos ⟨hreported, by omega⟩, hpid]
      rfl
    exact ⟨by rw [hbuf]; rfl, rfl, hreported, Or.inl ⟨pid, hpid, by rw [hbuf]; rfl⟩⟩

/-- Registering what the wrapper reports. -/
theorem register_inner_bytesOfPid (m : Monitor) {pid : Int32} (hpid : 0 < pid) :
    register_inner m (bytesOfPid pid).length (pidOfBytes (bytesOfPid pid)) =
      { m with
        tracked_pids := m.tracked_pids.update { pid := pid.toUInt32, cgroup_tag := 0 } 0 } := by
  rw [pidOfBytes_bytesOfPid]
  exact if_pos ⟨rfl, hpid⟩

/-- The worker reads the report. -/
theorem syncInv_readReport (h : SyncInv monitor s) (hstep : syncStep s .readReport = some s') :
    SyncInv monitor s' := by
  simp only [syncStep] at hstep
  split_ifs at hstep with hat
  obtain ⟨⟨report, q⟩, hread, rfl⟩ := Option.map_eq_some_iff.mp hstep
  obtain ⟨hbuf, hwriters, hreported, hreport⟩ := h.readReport hat hread
  constructor <;> grind

/-- The worker registers what it has read. -/
theorem syncInv_register (h : SyncInv monitor s) (hstep : syncStep s .register = some s') :
    SyncInv monitor s' := by
  simp only [syncStep] at hstep
  split at hstep
  · rename_i report hat
    obtain rfl := Option.some.inj hstep
    have hmonitor : s.monitor = monitor := h.unregistered (by rw [hat]; exact Nat.le_refl 5)
    have hregistered : (∃ pid, s.inner_pid = some pid ∧ 0 < pid ∧
        register_inner s.monitor report.length (pidOfBytes report) = { monitor with
          tracked_pids := monitor.tracked_pids.update { pid := pid.toUInt32, cgroup_tag := 0 } 0 })
          ∨ s.Failed := by
      rcases h.report report (by rw [hat]; rfl) with ⟨pid, hpid, rfl⟩ | ⟨-, hfailed⟩
      · refine Or.inl ⟨pid, hpid, h.pid pid hpid, ?_⟩
        rw [hmonitor, register_inner_bytesOfPid monitor (h.pid pid hpid)]
      · exact Or.inr hfailed
    constructor <;> grind
  · cases hstep

/-- The worker writes the byte the inner process waits for. -/
theorem syncInv_signal (h : SyncInv monitor s) (hstep : syncStep s .signal = some s') :
    SyncInv monitor s' := by
  simp only [syncStep] at hstep
  split_ifs at hstep with hat
  obtain ⟨q, hq, rfl⟩ := Option.map_eq_some_iff.mp hstep
  have hbuf := Pipe.buf_write hq
  have hwriters := Pipe.writers_write hq
  constructor <;> grind

/-- The other steps of the worker. -/
theorem syncInv_worker (h : SyncInv monitor s) {a : SyncAction}
    (ha : a ∈ [.fork, .closeSyncRead, .closeReportWrite, .closeReportRead, .closeSyncWrite, .wait])
    (hstep : syncStep s a = some s') : SyncInv monitor s' := by
  simp only [List.mem_cons, List.not_mem_nil, or_false] at ha
  rcases ha with rfl | rfl | rfl | rfl | rfl | rfl
  all_goals
    simp only [syncStep] at hstep
    split at hstep
    · obtain rfl := Option.some.inj hstep
      constructor <;> grind
    · cases hstep

/-- The wrapper reports the pid of the inner process. -/
theorem syncInv_report (h : SyncInv monitor s) (hstep : syncStep s .report = some s') :
    SyncInv monitor s' := by
  simp only [syncStep] at hstep
  split at hstep
  · obtain ⟨q, hq, rfl⟩ := Option.map_eq_some_iff.mp hstep
    have hbuf := Pipe.buf_write hq
    have hwriters := Pipe.writers_write hq
    constructor <;> grind
  · cases hstep

/-- The other steps of the wrapper. -/
theorem syncInv_wrapper (h : SyncInv monitor s) {a : SyncAction}
    (ha : a = .wrapperCloseSyncWrite ∨ a = .wrapperCloseReportRead ∨ a = .wrapperCloseSyncRead ∨
      a = .wrapperCloseReportWrite ∨ a = .wrapperWait ∨ (∃ inner, a = .forkInner inner) ∨
      ∃ ok, a = .unshare ok)
    (hstep : syncStep s a = some s') : SyncInv monitor s' := by
  rcases ha with rfl | rfl | rfl | rfl | rfl | ⟨inner, rfl⟩ | ⟨ok, rfl⟩
  all_goals
    simp only [syncStep] at hstep
    split_ifs at hstep
    all_goals
      obtain rfl := Option.some.inj hstep
      constructor <;> grind

/-- The steps of the inner process. -/
theorem syncInv_inner (h : SyncInv monitor s) {a : SyncAction}
    (ha : a = .innerCloseReportWrite ∨ a = .innerCloseSyncRead ∨ a = .innerExit)
    (hstep : syncStep s a = some s') : SyncInv monitor s' := by
  rcases ha with rfl | rfl | rfl
  all_goals
    simp only [syncStep] at hstep
    split_ifs at hstep
    obtain rfl := Option.some.inj hstep
    constructor <;> grind

/-- The inner process passes its `read`: the worker has written the byte. -/
theorem syncInv_innerRead (h : SyncInv monitor s) (hstep : syncStep s .innerRead = some s') :
    SyncInv monitor s' := by
  simp only [syncStep] at hstep
  split_ifs at hstep with hat
  obtain ⟨⟨got, q⟩, hread, rfl⟩ := Option.map_eq_some_iff.mp hstep
  have hsignalled : 7 ≤ s.worker.pc := by
    by_contra hlt
    rw [h.innerRead_blocks (by omega)] at hread
    cases hread
  obtain ⟨-, rfl, -⟩ := Pipe.read_eq_some hread
  constructor <;> grind

/-- Every step keeps the invariant. -/
theorem syncInv_step (s : SyncState) (a : SyncAction) (s' : SyncState) (h : SyncInv monitor s)
    (hstep : syncStep s a = some s') : SyncInv monitor s' := by
  cases a with
  | readReport => exact syncInv_readReport h hstep
  | register => exact syncInv_register h hstep
  | signal => exact syncInv_signal h hstep
  | report => exact syncInv_report h hstep
  | innerRead => exact syncInv_innerRead h hstep
  | fork | closeSyncRead | closeReportWrite | closeReportRead | closeSyncWrite | wait =>
    exact syncInv_worker h (by simp) hstep
  | wrapperCloseSyncWrite | wrapperCloseReportRead | unshare _ | forkInner _
  | wrapperCloseSyncRead | wrapperCloseReportWrite | wrapperWait =>
    exact syncInv_wrapper h (by simp) hstep
  | innerCloseReportWrite | innerCloseSyncRead | innerExit =>
    exact syncInv_inner h (by simp) hstep

end Steps

/-! ## What the processes can rely on -/

/-- An inner process that has been let go is registered. -/
theorem SyncInv.registered_of_released {monitor : Monitor} {s : SyncState}
    (h : SyncInv monitor s) (hreleased : s.inner.Released) : s.Registered monitor := by
  have hworker : 7 ≤ s.worker.pc := h.released hreleased
  rcases h.registered (by omega) with hregistered | ⟨-, hunborn⟩
  · exact hregistered
  · have hpc : 3 ≤ s.inner.pc := hreleased
    rw [hunborn] at hpc
    exact absurd hpc (by decide)

/-- One of the processes that live does not wait. -/
theorem SyncInv.not_stalled {monitor : Monitor} {s : SyncState} (h : SyncInv monitor s) :
    ¬ s.Stalled := by
  rintro ⟨⟨hworker, hread⟩ | ⟨hworker, hlives⟩, hwrapper, hinner⟩
  · -- the worker waits for the report
    have hpc : s.worker.pc = 3 := by rw [hworker]; rfl
    obtain ⟨hbuf, hopen⟩ := Pipe.read_eq_none_iff.mp hread
    rcases hwrapper with hunborn | hexited | ⟨hwaiting, -⟩
    · have hborn := h.wrapperBorn
      rw [hunborn, hworker] at hborn
      exact absurd (hborn.mpr rfl) (by decide)
    · -- nobody can write
      obtain ⟨x, hx⟩ := Finset.nonempty_iff_ne_empty.mpr hopen
      have hexit : s.wrapper.pc = 9 := by rw [hexited]; rfl
      rcases (h.reportWriters x).mp hx with ⟨-, hle⟩ | ⟨-, -, hle⟩ | ⟨-, hstarted⟩
      · omega
      · omega
      · rcases hinner with heq | heq | ⟨heq, -⟩
        all_goals
          rw [heq] at hstarted
          exact absurd hstarted (by decide)
    · -- the wrapper has reported
      have hreported : s.wrapper.pc = 8 := by rw [hwaiting]; rfl
      have hlives := h.innerLives (by omega) (by omega)
      obtain ⟨pid, hpid⟩ : ∃ pid, s.inner_pid = some pid :=
        Option.ne_none_iff_exists'.mp (h.pidBorn.not.mp (by omega))
      rw [h.reportBuf, if_pos ⟨by omega, by omega⟩, hpid] at hbuf
      cases hbuf
  · -- the worker waits for the wrapper
    have hpc : s.worker.pc = 8 := by rw [hworker]; rfl
    rcases hwrapper with hunborn | hexited | ⟨hwaiting, hinnerLives⟩
    · have hborn := h.wrapperBorn
      rw [hunborn, hworker] at hborn
      exact absurd (hborn.mpr rfl) (by decide)
    · exact hlives hexited
    · have hreported : s.wrapper.pc = 8 := by rw [hwaiting]; rfl
      have hborn := h.innerLives (by omega) (by omega)
      rcases hinner with heq | heq | ⟨heq, hread⟩
      · rw [heq] at hborn
        exact absurd hborn (by decide)
      · exact hinnerLives heq
      · -- the byte is in the pipe
        have hbuf := (Pipe.read_eq_none_iff.mp hread).1
        have hlistening : s.inner.pc = 2 := by rw [heq]; rfl
        rw [h.syncBuf, if_pos ⟨by omega, by omega⟩] at hbuf
        cases hbuf

/-- **Submitted code never runs before it is registered, and the three processes never
deadlock.**  In every interleaving of the worker, the wrapper and the inner process, in every
state: if the inner process has passed its `read` of `run_sync_pipe`, then the worker has
completed the registration of exactly its pid; and the processes that live do not all wait
for one another. -/
theorem registered_before_release (monitor : Monitor) (as : List SyncAction) :
    Runs.Always syncStep
      (fun s => (s.inner.Released → s.Registered monitor) ∧ ¬ s.Stalled) (.initial monitor) as := by
  intro pre _ s hrun
  have hinv : SyncInv monitor s :=
    Runs.invariant_of_step (syncInv_initial monitor) syncInv_step hrun
  exact ⟨hinv.registered_of_released, hinv.not_stalled⟩

/-- A complete run, with the inner process waiting before the worker has read the report. -/
example :
    (Runs.exec syncStep (.initial (.load .empty))
      [.fork, .wrapperCloseSyncWrite, .closeSyncRead, .wrapperCloseReportRead, .unshare true,
        .forkInner 4242, .innerCloseReportWrite, .closeReportWrite, .wrapperCloseSyncRead, .report,
        .wrapperCloseReportWrite, .readReport, .closeReportRead, .register, .signal, .innerRead,
        .closeSyncWrite, .innerCloseSyncRead, .innerExit, .wrapperWait, .wait]).map
      (fun s => (s.worker, s.inner, s.inner_pid)) = some (.waited, .exited, some 4242) := by
  decide +kernel

end MiniCi
