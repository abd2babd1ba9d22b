/-
# The eBPF monitor (`server/monitor.bpf.c`)

`handle_client` loads a monitor of its own for every submission and stores the `pid_key` of
the inner process in `tracked_pids`.  `handle_sys_enter` looks the current task up under a
key that it builds itself, and kills it at a system call in `blocked_syscalls`.

The two keys are the same only for tasks whose cgroup id ends in 32 zero bits: the server
always stores the tag `0`, the monitor looks for the low half of the cgroup id.
-/
import MiniCi.Bpf
import MiniCi.CStr
import Mathlib.Data.UInt

namespace MiniCi

open CStr

/-! ## The source -/

def EVENT_SYSCALL_BLOCKED : UInt32 := 1
def EVENT_PROCESS_ENTER : UInt32 := 2
def EVENT_PROCESS_EXIT : UInt32 := 3

/-- `struct event`. -/
structure Event where
  timestamp_ns : UInt64
  pid : UInt32
  tgid : UInt32
  event_type : UInt32
  syscall_nr : UInt32
  comm : Buf 16
  deriving DecidableEq

/-- `struct pid_key`. -/
structure PidKey where
  pid : UInt32
  cgroup_tag : UInt32
  deriving DecidableEq

/-- What the helpers tell about the current task. -/
structure Task where
  pid : UInt32
  tgid : UInt32
  cgroup_id : UInt64
  comm : Buf 16

/-- `bpf_get_current_pid_tgid`. -/
def bpf_get_current_pid_tgid (task : Task) : UInt64 :=
  task.tgid.toUInt64 <<< 32 ||| task.pid.toUInt64

/-- The maps and the ring buffer of a loaded monitor, and the signals that its programs have
sent: the thread group and the number. -/
structure Monitor where
  tracked_pids : Bpf.HashMap PidKey UInt32 1024
  blocked_syscalls : Bpf.HashMap UInt64 UInt8 512
  events : List Event
  signals : List (UInt32 × ℕ)

/-- `bpf_ringbuf_reserve` finds room for one more record: 40 bytes and a header of 8, in a
buffer of `256 * 1024` that is not drained before the program has exited. -/
def Monitor.HasEventRoom (m : Monitor) : Prop := (m.events.length + 1) * 48 < 256 * 1024

instance (m : Monitor) : Decidable m.HasEventRoom := inferInstanceAs (Decidable (_ < _))

/-- `emit_event`. -/
def emit_event (m : Monitor) (task : Task) (timestamp_ns : UInt64) (event_type pid tgid : UInt32)
    (syscall_nr : UInt64) : Monitor :=
  if m.HasEventRoom then
    { m with events := m.events ++
        [{ timestamp_ns, pid, tgid, event_type, syscall_nr := syscall_nr.toUInt32
           comm := task.comm }] }
  else m

/-- `bpf_send_signal`: to the thread group of the current task. -/
def bpf_send_signal (m : Monitor) (task : Task) (sig : ℕ) : Monitor :=
  { m with signals := m.signals ++ [(task.tgid, sig)] }

/-- The key under which `lookup_tracked` looks for the current task. -/
def lookupKey (task : Task) : PidKey :=
  { pid := (bpf_get_current_pid_tgid task &&& 0xFFFFFFFF).toUInt32
    cgroup_tag := (task.cgroup_id &&& 0xFFFFFFFF).toUInt32 }

/-- `lookup_tracked`. -/
def lookup_tracked (m : Monitor) (task : Task) : Option UInt32 :=
  m.tracked_pids.lookup (lookupKey task)

/-- `handle_sys_enter`, at the system call `syscall_nr` of the current task. -/
def handle_sys_enter (m : Monitor) (task : Task) (syscall_nr timestamp_ns : UInt64) : Monitor :=
  match lookup_tracked m task with
  | none => m
  | some _ =>
    match m.blocked_syscalls.lookup syscall_nr with
    | none => m
    | some _ =>
      let pidtgid := bpf_get_current_pid_tgid task
      let pid := (pidtgid &&& 0xFFFFFFFF).toUInt32
      let tgid := (pidtgid >>> 32).toUInt32
      bpf_send_signal (emit_event m task timestamp_ns EVENT_SYSCALL_BLOCKED pid tgid syscall_nr)
        task 9

/-- The key under which `handle_fork` looks for the parent: the current task is the one that
forks, and the pid of the key is its `tgid`. -/
def parentKey (parent_task : Task) : PidKey :=
  { pid := parent_task.tgid, cgroup_tag := (parent_task.cgroup_id &&& 0xFFFFFFFF).toUInt32 }

/-- `handle_fork`, in the task that forks. -/
def handle_fork (m : Monitor) (parent_task child_task : Task) (timestamp_ns : UInt64) : Monitor :=
  let parent_tgid := parent_task.tgid
  let child_pid := child_task.pid
  let child_tgid := child_task.tgid
  match m.tracked_pids.lookup (parentKey parent_task) with
  | none => m
  | some _ =>
    let child_key : PidKey :=
      { pid := child_pid, cgroup_tag := (parent_task.cgroup_id &&& 0xFFFFFFFF).toUInt32 }
    emit_event { m with tracked_pids := m.tracked_pids.update child_key parent_tgid }
      parent_task timestamp_ns EVENT_PROCESS_ENTER child_pid child_tgid 0

/-- `handle_exit`, in the task that exits. -/
def handle_exit (m : Monitor) (task : Task) (timestamp_ns : UInt64) : Monitor :=
  let pidtgid := bpf_get_current_pid_tgid task
  let pid := (pidtgid &&& 0xFFFFFFFF).toUInt32
  let tgid := (pidtgid >>> 32).toUInt32
  match m.tracked_pids.lookup (lookupKey task) with
  | none => m
  | some _ =>
    let m := emit_event m task timestamp_ns EVENT_PROCESS_EXIT pid tgid 0
    { m with tracked_pids := m.tracked_pids.delete (lookupKey task) }

/-- The registration in `handle_client`: `n` is the result of reading `inner_pid` from
`pid_report_pipe`. -/
def register_inner (m : Monitor) (n : ℤ) (inner_pid : Int32) : Monitor :=
  if n = 4 ∧ 0 < inner_pid then
    { m with tracked_pids :=
        m.tracked_pids.update { pid := inner_pid.toUInt32, cgroup_tag := 0 } 0 }
  else m

/-! ## Keys -/

/-- The lower half of `bpf_get_current_pid_tgid`. -/
theorem pid_of_pid_tgid (task : Task) :
    (bpf_get_current_pid_tgid task &&& 0xFFFFFFFF).toUInt32 = task.pid := by
  apply UInt32.toBitVec_inj.mp
  ext i hi
  have hones : (4294967295#32) = BitVec.allOnes 32 := rfl
  have hmask : (4294967295#32)[i] = true := by rw [hones, BitVec.getElem_allOnes]
  simp [bpf_get_current_pid_tgid, hmask]

/-- The upper half of `bpf_get_current_pid_tgid`. -/
theorem tgid_of_pid_tgid (task : Task) :
    (bpf_get_current_pid_tgid task >>> 32).toUInt32 = task.tgid := by
  apply UInt32.toBitVec_inj.mp
  ext i hi
  have h64 : 32 + i < 64 := by omega
  have h64' : i < 64 := by omega
  simp [bpf_get_current_pid_tgid, h64, h64', BitVec.getLsbD_eq_getElem hi]

/-- The tag of a cgroup id is `0` iff its low half is. -/
theorem cgroup_tag_eq_zero_iff (cg_id : UInt64) :
    (cg_id &&& 0xFFFFFFFF).toUInt32 = 0 ↔ cg_id &&& 0xFFFFFFFF = 0 := by
  have hmask : (4294967295 : ℕ) = 2 ^ 32 - 1 := rfl
  rw [← UInt32.toNat_inj, ← UInt64.toNat_inj, UInt64.toNat_toUInt32, UInt64.toNat_and]
  show (cg_id.toNat &&& 4294967295) % 2 ^ 32 = 0 ↔ cg_id.toNat &&& 4294967295 = 0
  rw [hmask, Nat.and_two_pow_sub_one_eq_mod]
  omega

/-! ## A run of system calls -/

/-- A system call, with the time of its entry. -/
structure SysCall where
  syscall_nr : UInt64
  timestamp_ns : UInt64

/-- The monitor after some system calls of one task. -/
def enterAll (m : Monitor) (task : Task) (calls : List SysCall) : Monitor :=
  calls.foldl (fun m c => handle_sys_enter m task c.syscall_nr c.timestamp_ns) m

/-- The call is in `blocked_syscalls`. -/
def SysCall.Blocked (m : Monitor) (c : SysCall) : Prop :=
  (m.blocked_syscalls.lookup c.syscall_nr).isSome

/-- A call that is not blocked leaves the monitor as it is. -/
theorem handle_sys_enter_of_not_blocked {m : Monitor} {c : SysCall} (h : ¬ c.Blocked m)
    (task : Task) : handle_sys_enter m task c.syscall_nr c.timestamp_ns = m := by
  have hnone : m.blocked_syscalls.lookup c.syscall_nr = none := by
    simpa [SysCall.Blocked] using h
  unfold handle_sys_enter
  rw [hnone]
  split <;> rfl

/-- So do any number of them. -/
theorem enterAll_of_not_blocked {m : Monitor} {calls : List SysCall}
    (h : ∀ c ∈ calls, ¬ c.Blocked m) (task : Task) : enterAll m task calls = m := by
  induction calls with
  | nil => rfl
  | cons c calls ih =>
    rw [enterAll, List.foldl_cons, handle_sys_enter_of_not_blocked (h c List.mem_cons_self)]
    exact ih fun c' hc' => h c' (List.mem_cons_of_mem _ hc')

/-- A blocked call of a tracked task is reported, and the task killed. -/
theorem handle_sys_enter_of_blocked {m : Monitor} {task : Task} {c : SysCall}
    (htracked : (lookup_tracked m task).isSome) (hblocked : c.Blocked m) (hroom : m.HasEventRoom) :
    handle_sys_enter m task c.syscall_nr c.timestamp_ns =
      { m with
        events := m.events ++
          [{ timestamp_ns := c.timestamp_ns, pid := task.pid, tgid := task.tgid
             event_type := EVENT_SYSCALL_BLOCKED, syscall_nr := c.syscall_nr.toUInt32
             comm := task.comm }]
        signals := m.signals ++ [(task.tgid, 9)] } := by
  obtain ⟨v, hv⟩ := Option.isSome_iff_exists.mp htracked
  obtain ⟨b, hb⟩ := Option.isSome_iff_exists.mp hblocked
  simp only [handle_sys_enter, hv, hb, bpf_send_signal, emit_event, if_pos hroom, pid_of_pid_tgid,
    tgid_of_pid_tgid]

/-! ## Registration -/

/-- A monitor as `handle_client` loads it. -/
def Monitor.load (blocked_syscalls : Bpf.HashMap UInt64 UInt8 512) : Monitor :=
  { tracked_pids := .empty, blocked_syscalls, events := [], signals := [] }

/-- The main thread of the inner process. -/
def mainThread (inner_pid : Int32) (cg_id : UInt64) (comm : Buf 16) : Task :=
  { pid := inner_pid.toUInt32, tgid := inner_pid.toUInt32, cgroup_id := cg_id, comm }

/-- The monitor finds the task, and whatever it calls, the first blocked system call is
reported and answered with `SIGKILL`. -/
structure Recognises (m : Monitor) (task : Task) : Prop where
  tracked : (lookup_tracked m task).isSome
  killed : ∀ (calls : List SysCall) (c : SysCall), (∀ c' ∈ calls, ¬ c'.Blocked m) → c.Blocked m →
    enterAll m task calls = m ∧
    (enterAll m task (calls ++ [c])).events = m.events ++
      [{ timestamp_ns := c.timestamp_ns, pid := task.pid, tgid := task.tgid
         event_type := EVENT_SYSCALL_BLOCKED, syscall_nr := c.syscall_nr.toUInt32
         comm := task.comm }] ∧
    (enterAll m task (calls ++ [c])).signals = m.signals ++ [(task.tgid, 9)]

/-- A tracked task is killed at its first blocked call. -/
theorem recognises_of_tracked {m : Monitor} {task : Task} (hroom : m.HasEventRoom)
    (htracked : (lookup_tracked m task).isSome) : Recognises m task := by
  refine ⟨htracked, fun calls c hcalls hc => ?_⟩
  have hpre := enterAll_of_not_blocked hcalls task
  have hlast : enterAll m task (calls ++ [c])
      = handle_sys_enter (enterAll m task calls) task c.syscall_nr c.timestamp_ns := by
    rw [enterAll, List.foldl_append]
    rfl
  rw [hlast, hpre, handle_sys_enter_of_blocked htracked hc hroom]
  exact ⟨rfl, rfl, rfl⟩

/-- The registered key is found iff the task's tag is `0`. -/
theorem lookup_tracked_register_inner (blocked_syscalls : Bpf.HashMap UInt64 UInt8 512)
    {inner_pid : Int32} (hpid : 0 < inner_pid) (cg_id : UInt64) (comm : Buf 16) :
    (lookup_tracked (register_inner (.load blocked_syscalls) 4 inner_pid)
      (mainThread inner_pid cg_id comm)).isSome ↔ cg_id &&& 0xFFFFFFFF = 0 := by
  have hkey : lookupKey (mainThread inner_pid cg_id comm)
      = { pid := inner_pid.toUInt32, cgroup_tag := (cg_id &&& 0xFFFFFFFF).toUInt32 } := by
    rw [lookupKey, pid_of_pid_tgid]
    rfl
  rw [lookup_tracked, hkey, register_inner, if_pos ⟨rfl, hpid⟩, ← cgroup_tag_eq_zero_iff]
  constructor
  · intro hsome
    by_contra hne
    rw [Bpf.HashMap.lookup_update_of_ne _ fun heq => hne (PidKey.mk.inj heq).2] at hsome
    cases hsome
  · intro hzero
    rw [hzero, Bpf.HashMap.lookup_update_self (show 0 < 1024 by decide)]
    rfl

/-- **The monitor recognises the registered process iff its cgroup tag is `0`.**  After
`handle_client` has read the pid of the inner process and stored its key, the monitor
recognises the main thread of that process if and only if the low 32 bits of its cgroup id
are zero. -/
theorem recognises_iff_cgroup_tag_zero (blocked_syscalls : Bpf.HashMap UInt64 UInt8 512)
    (inner_pid : Int32) (hpid : 0 < inner_pid) (cg_id : UInt64) (comm : Buf 16) :
    Recognises (register_inner (.load blocked_syscalls) 4 inner_pid)
      (mainThread inner_pid cg_id comm) ↔ cg_id &&& 0xFFFFFFFF = 0 := by
  rw [← lookup_tracked_register_inner blocked_syscalls hpid cg_id comm]
  refine ⟨Recognises.tracked, recognises_of_tracked ?_⟩
  rw [register_inner, if_pos ⟨rfl, hpid⟩]
  show (0 + 1) * 48 < 256 * 1024
  decide

/-- Process `4242` in a cgroup whose id is `2 ^ 32`, with `connect` blocked. -/
theorem recognises_iff_cgroup_tag_zero_at :
    Recognises (register_inner (.load (Bpf.HashMap.empty.update 42 1)) 4 4242)
      (mainThread 4242 0x100000000 (.zero 16)) :=
  (recognises_iff_cgroup_tag_zero (Bpf.HashMap.empty.update 42 1) 4242 (by decide) 0x100000000
    (.zero 16)).mpr (by decide)

/-- A process in the cgroup with id `1` is not found, and calls what is blocked unseen. -/
theorem not_recognises_cgroup_one :
    ¬ Recognises (register_inner (.load (Bpf.HashMap.empty.update 42 1)) 4 4242)
      (mainThread 4242 1 (.zero 16)) ∧
    (enterAll (register_inner (.load (Bpf.HashMap.empty.update 42 1)) 4 4242)
      (mainThread 4242 1 (.zero 16)) [⟨42, 0⟩]).signals = [] := by
  refine ⟨fun h => absurd h.tracked (by decide), by decide⟩

end MiniCi
