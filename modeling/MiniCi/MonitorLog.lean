/-
# What the log says of a run (`server/server.c`, `handle_event`)

While a program runs, the monitor puts an event into its ring buffer for each call that it blocks,
and for each task that it begins or ceases to track.  When the program has ended `handle_client`
drains the buffer, and `handle_event` makes a line of the log of every event.

Neither the map nor the buffer says anything when it is full.  A child that finds no room in the map
is logged as tracked all the same, and an event that finds none in the buffer is not logged.  So the
log can be relied on iff no fork meets only one of the two full, and nothing else of what it should
tell meets a full buffer (`log_tells_iff`).
-/
import MiniCi.MonitorPolicy
import MiniCi.ProcessTree
import MiniCi.Scan

namespace MiniCi

open CStr Runs

/-! ## The source -/

/-- `ui_log_alert` and `ui_log_dim`. -/
inductive LogStyle where
  | alert
  | dim
  deriving DecidableEq

abbrev LogLine := LogStyle × Bytes

/-- The names that `handle_event` knows. -/
def sys_name (syscall_nr : UInt32) : Bytes :=
  if syscall_nr = 59 then ascii "execve"
  else if syscall_nr = 257 then ascii "openat"
  else if syscall_nr = 41 then ascii "socket"
  else if syscall_nr = 42 then ascii "connect"
  else ascii "UNKNOWN"

/-- The formats of `handle_event`, filled in. -/
def blockedLine (thread_id : ℕ) (pid syscall_nr : UInt32) : LogLine :=
  (.alert, utf8 "  🚨 [Thread " ++ decimal thread_id ++
    (ascii "] eBPF THREAT DETECTED | PID: " ++ (decimal pid.toNat ++
      (ascii " | Syscall: " ++ (decimal syscall_nr.toNat ++
        (ascii " (" ++ sys_name syscall_nr ++ utf8 ") → BLOCKED & KILLED!\n"))))))

def spawnedLine (thread_id : ℕ) (pid : UInt32) : LogLine :=
  (.dim, utf8 "  ↳ [Thread " ++ decimal thread_id ++
    (ascii "] PID " ++ (decimal pid.toNat ++ ascii " spawned (tracked)\n")))

def exitedLine (thread_id : ℕ) (pid : UInt32) : LogLine :=
  (.dim, utf8 "  ↳ [Thread " ++ decimal thread_id ++
    (ascii "] PID " ++ (decimal pid.toNat ++ ascii " exited (untracked)\n")))

/-- `handle_event`.  A record of the buffer is a whole `struct event`. -/
def handle_event (thread_id : ℕ) (e : Event) : Option LogLine :=
  if e.event_type = EVENT_SYSCALL_BLOCKED then some (blockedLine thread_id e.pid e.syscall_nr)
  else if e.event_type = EVENT_PROCESS_ENTER then some (spawnedLine thread_id e.pid)
  else if e.event_type = EVENT_PROCESS_EXIT then some (exitedLine thread_id e.pid)
  else none

/-- What a `ring_buffer__poll` behind the run makes of the buffer. -/
def drain (thread_id : ℕ) (m : Monitor) : List LogLine :=
  m.events.filterMap (handle_event thread_id)

/-! ## Reading the log -/

/-- What a line says. -/
inductive LogEntry where
  | blocked (pid syscall_nr : UInt32)
  | spawned (pid : UInt32)
  | exited (pid : UInt32)
  deriving DecidableEq

def LogEntry.line (thread_id : ℕ) : LogEntry → LogLine
  | blocked pid syscall_nr => blockedLine thread_id pid syscall_nr
  | spawned pid => spawnedLine thread_id pid
  | exited pid => exitedLine thread_id pid

/-- The pids that are tracked, as a reader keeps count of them. -/
def LogEntry.tracked (pids : List UInt32) : LogEntry → List UInt32
  | blocked _ _ => pids
  | spawned pid => pids ++ [pid]
  | exited pid => pids.filter fun pid' => pid' ≠ pid

def LogEntry.isBlocked : LogEntry → Bool
  | blocked _ _ => true
  | _ => false

/-- The entries are right: whoever keeps count of the pids, from the registered one on, has those
that are in the map, and there is an alert for each signal. -/
structure Tells (root_pid : UInt32) (s : Machine) (entries : List LogEntry) : Prop where
  tracked : entries.foldl LogEntry.tracked [root_pid] = s.keys.map PidKey.pid
  signals : entries.countP LogEntry.isBlocked = s.monitor.signals.length

/-- The log can be read in one way, and is right. -/
structure LogTells (thread_id : ℕ) (root_pid : UInt32) (s : Machine) : Prop where
  legible : ∃! entries : List LogEntry,
    drain thread_id s.monitor = entries.map (LogEntry.line thread_id)
  tells : ∀ entries, drain thread_id s.monitor = entries.map (LogEntry.line thread_id) →
    Tells root_pid s entries

/-- No event that is to be logged finds the buffer full; or, for the child of a tracked task, it
finds the map full as well. -/
def NothingMissed (s : Machine) : TaskAction → Prop
  | .fork pid _ _ _ => ∀ l ∈ s.live, l.task.pid = pid → parentKey l.task ∈ s.keys →
      (s.monitor.tracked_pids.entries.length < 1024 ↔ s.monitor.HasEventRoom)
  | .exit pid _ => ∀ l ∈ s.live, l.task.pid = pid → lookupKey l.task ∈ s.keys →
      s.monitor.HasEventRoom
  | .sys_enter pid nr now => ∀ l ∈ s.live, l.task.pid = pid → lookupKey l.task ∈ s.keys →
      SysCall.Blocked s.monitor ⟨nr, now⟩ → s.monitor.HasEventRoom

instance (s : Machine) : DecidablePred (NothingMissed s)
  | .fork _ _ _ _ => inferInstanceAs (Decidable (∀ l ∈ s.live, _ → _ → (_ < _ ↔ _)))
  | .exit _ _ => inferInstanceAs (Decidable (∀ l ∈ s.live, _ → _ → _))
  | .sys_enter _ nr _ => inferInstanceAs (Decidable (∀ l ∈ s.live, _ → _ →
      (s.monitor.blocked_syscalls.lookup nr).isSome → _))

section Lines

variable {thread_id : ℕ} {pid pid' nr nr' : UInt32}

/-- The number in a line is read back, where a space follows it. -/
theorem number_inj {head p q : Bytes} (hp : p.headD 0 = 32) (hq : q.headD 0 = 32)
    (h : head ++ (decimal pid.toNat ++ p) = head ++ (decimal pid'.toNat ++ q)) :
    pid = pid' ∧ p = q := by
  have hspace : ¬ IsDigit 32 := by decide
  obtain ⟨hnat, hrest⟩ := decimal_append_inj (hp ▸ hspace) (hq ▸ hspace)
    (List.append_cancel_left h)
  exact ⟨UInt32.toNat_inj.mp hnat, hrest⟩

theorem blockedLine_inj (h : blockedLine thread_id pid nr = blockedLine thread_id pid' nr') :
    pid = pid' ∧ nr = nr' := by
  have htext := List.append_cancel_left (Prod.mk.inj h).2
  obtain ⟨hpid, hrest⟩ := number_inj rfl rfl htext
  exact ⟨hpid, (number_inj rfl rfl hrest).1⟩

theorem spawnedLine_inj (h : spawnedLine thread_id pid = spawnedLine thread_id pid') :
    pid = pid' :=
  (number_inj rfl rfl (List.append_cancel_left (Prod.mk.inj h).2)).1

theorem exitedLine_inj (h : exitedLine thread_id pid = exitedLine thread_id pid') : pid = pid' :=
  (number_inj rfl rfl (List.append_cancel_left (Prod.mk.inj h).2)).1

theorem spawnedLine_ne_exitedLine : spawnedLine thread_id pid ≠ exitedLine thread_id pid' := by
  intro h
  have hrest := (number_inj rfl rfl
    (List.append_cancel_left (Prod.mk.inj h).2)).2
  exact absurd hrest (by decide)

/-- **A line says one thing.** -/
theorem line_injective (thread_id : ℕ) : Function.Injective (LogEntry.line thread_id) := by
  intro x y h
  cases x with
  | blocked pid nr =>
    cases y with
    | blocked pid' nr' =>
      obtain ⟨rfl, rfl⟩ := blockedLine_inj h
      rfl
    | spawned _ => exact absurd (congrArg Prod.fst h) nofun
    | exited _ => exact absurd (congrArg Prod.fst h) nofun
  | spawned pid =>
    cases y with
    | blocked _ _ => exact absurd (congrArg Prod.fst h) nofun
    | spawned pid' => rw [spawnedLine_inj h]
    | exited _ => exact absurd h spawnedLine_ne_exitedLine
  | exited pid =>
    cases y with
    | blocked _ _ => exact absurd (congrArg Prod.fst h) nofun
    | spawned _ => exact absurd h.symm spawnedLine_ne_exitedLine
    | exited pid' => rw [exitedLine_inj h]

end Lines

/-! ## The events of the monitor -/

/-- What an event says. -/
def Event.entry (e : Event) : Option LogEntry :=
  if e.event_type = EVENT_SYSCALL_BLOCKED then some (.blocked e.pid e.syscall_nr)
  else if e.event_type = EVENT_PROCESS_ENTER then some (.spawned e.pid)
  else if e.event_type = EVENT_PROCESS_EXIT then some (.exited e.pid)
  else none

/-- What the buffer says. -/
def logEntries (m : Monitor) : List LogEntry := m.events.filterMap Event.entry

theorem filterMap_entry_concat (events : List Event) (e : Event) :
    (events ++ [e]).filterMap Event.entry = events.filterMap Event.entry ++ e.entry.toList := by
  rw [List.filterMap_append]
  cases h : e.entry <;> simp [h]

theorem handle_event_eq (thread_id : ℕ) (e : Event) :
    handle_event thread_id e = e.entry.map (LogEntry.line thread_id) := by
  unfold handle_event Event.entry
  split_ifs <;> rfl

theorem drain_eq (thread_id : ℕ) (m : Monitor) :
    drain thread_id m = (logEntries m).map (LogEntry.line thread_id) := by
  rw [drain, logEntries, List.map_filterMap]
  exact List.filterMap_congr fun e _ => handle_event_eq thread_id e

/-- The log is right iff the entries of the buffer are. -/
theorem logTells_iff (thread_id : ℕ) (root_pid : UInt32) (s : Machine) :
    LogTells thread_id root_pid s ↔ Tells root_pid s (logEntries s.monitor) := by
  have hone : ∀ entries, drain thread_id s.monitor = entries.map (LogEntry.line thread_id) →
      entries = logEntries s.monitor := by
    intro entries h
    rw [drain_eq] at h
    exact (List.map_injective_iff.mpr (line_injective thread_id) h).symm
  constructor
  · intro h
    exact h.tells _ (drain_eq thread_id s.monitor)
  · intro h
    refine ⟨⟨_, drain_eq thread_id s.monitor, hone⟩, fun entries hentries => ?_⟩
    rw [hone entries hentries]
    exact h

section Events

variable {m : Monitor} {task parent child : Task} {now : UInt64}

theorem logEntries_emit_event (m : Monitor) (task : Task) (now : UInt64)
    (event_type pid tgid : UInt32) (nr : UInt64) :
    logEntries (emit_event m task now event_type pid tgid nr) = logEntries m ++
      if m.HasEventRoom then
        (Event.entry ⟨now, pid, tgid, event_type, nr.toUInt32, task.comm⟩).toList
      else [] := by
  unfold emit_event
  split_ifs
  · exact filterMap_entry_concat _ _
  · exact (List.append_nil _).symm

@[simp] theorem emit_event_signals (m : Monitor) (task : Task) (now : UInt64)
    (event_type pid tgid : UInt32) (nr : UInt64) :
    (emit_event m task now event_type pid tgid nr).signals = m.signals := by
  unfold emit_event
  split_ifs <;> rfl

/-- The child of a tracked task is logged. -/
theorem logEntries_handle_fork (h : parentKey parent ∈ m.tracked_pids.keys) :
    logEntries (handle_fork m parent child now) =
      logEntries m ++ if m.HasEventRoom then [.spawned child.pid] else [] := by
  obtain ⟨v, hv⟩ := Option.isSome_iff_exists.mp ((m.tracked_pids.lookup_isSome_iff _).mpr h)
  simp only [handle_fork, hv, logEntries_emit_event]
  rfl

/-- A task that is not tracked exits unnoticed. -/
theorem handle_exit_of_not_mem (h : lookupKey task ∉ m.tracked_pids.keys) (now : UInt64) :
    handle_exit m task now = m := by
  have hnone : m.tracked_pids.lookup (lookupKey task) = none := by
    rw [← Option.not_isSome_iff_eq_none, Bpf.HashMap.lookup_isSome_iff]
    exact h
  simp only [handle_exit, hnone]

/-- And calls what it likes. -/
theorem handle_sys_enter_of_not_mem (h : lookupKey task ∉ m.tracked_pids.keys)
    (nr now : UInt64) : handle_sys_enter m task nr now = m := by
  have hnone : lookup_tracked m task = none := by
    rw [← Option.not_isSome_iff_eq_none, lookup_tracked_isSome_iff]
    exact h
  simp only [handle_sys_enter, hnone]

/-- The keys after the exit of a tracked task. -/
theorem keys_handle_exit (m : Monitor) (task : Task) (now : UInt64) :
    (handle_exit m task now).tracked_pids.keys =
      m.tracked_pids.keys.filter fun k => k ≠ lookupKey task := by
  by_cases h : lookupKey task ∈ m.tracked_pids.keys
  · obtain ⟨v, hv⟩ := Option.isSome_iff_exists.mp ((m.tracked_pids.lookup_isSome_iff _).mpr h)
    simp only [handle_exit, hv, emit_event_tracked_pids]
    exact Bpf.HashMap.keys_delete _ _
  · rw [handle_exit_of_not_mem h, List.filter_eq_self.mpr]
    intro k hk
    exact decide_eq_true fun heq => h (heq ▸ hk)

/-- The exit of a tracked task is logged. -/
theorem logEntries_handle_exit (h : lookupKey task ∈ m.tracked_pids.keys) :
    logEntries (handle_exit m task now) =
      logEntries m ++ if m.HasEventRoom then [.exited task.pid] else [] := by
  obtain ⟨v, hv⟩ := Option.isSome_iff_exists.mp ((m.tracked_pids.lookup_isSome_iff _).mpr h)
  simp only [handle_exit, hv, pid_of_pid_tgid]
  exact logEntries_emit_event m task now _ _ _ _

/-- And its blocked calls. -/
theorem logEntries_handle_sys_enter (h : lookupKey task ∈ m.tracked_pids.keys) {c : SysCall}
    (hblocked : c.Blocked m) :
    logEntries (handle_sys_enter m task c.syscall_nr c.timestamp_ns) = logEntries m ++
      if m.HasEventRoom then [.blocked task.pid c.syscall_nr.toUInt32] else [] := by
  obtain ⟨v, hv⟩ := Option.isSome_iff_exists.mp ((lookup_tracked_isSome_iff m task).mpr h)
  obtain ⟨b, hb⟩ := Option.isSome_iff_exists.mp hblocked
  simp only [handle_sys_enter, hv, hb, pid_of_pid_tgid]
  exact logEntries_emit_event m task c.timestamp_ns _ _ _ _

end Events

/-! ## The machine -/

/-- The keys in the map are those of live tasks. -/
def KeysLive (s : Machine) : Prop := ∀ k ∈ s.keys, ∃ l ∈ s.live, lookupKey l.task = k

theorem KeysLive.step {s s' : Machine} {a : TaskAction} (h : KeysLive s)
    (hstep : machineStep s a = some s') : KeysLive s' := by
  intro k hk
  obtain ⟨parent, hparent, pid, hfree, thread, now, -, rfl⟩ | ⟨e, he, now, -, rfl⟩ |
    ⟨l, hl, nr, now, -, rfl⟩ := machineStep_cases hstep
  · rcases Machine.mem_keys_of_forked hk with hold | ⟨-, rfl⟩
    · obtain ⟨l, hl, heq⟩ := h k hold
      exact ⟨l, Machine.mem_live_forked.mpr (Or.inl hl), heq⟩
    · exact ⟨_, Machine.mem_live_forked.mpr (Or.inr rfl), rfl⟩
  · obtain ⟨hk, hne⟩ := Machine.mem_keys_exited.mp hk
    obtain ⟨l, hl, rfl⟩ := h k hk
    refine ⟨l, Machine.mem_live_exited.mpr ⟨hl, fun hpid => hne ?_⟩, rfl⟩
    rw [s.eq_of_pid_eq hl he hpid]
  · exact h k (by simpa using hk)

/-- A free pid is in no key. -/
theorem KeysLive.notMem_of_free {s : Machine} (h : KeysLive s) {pid : UInt32} (hfree : s.Free pid)
    (parent : Task) (thread : Bool) : lookupKey (parent.clone pid thread) ∉ s.keys := by
  intro hk
  obtain ⟨l, hl, heq⟩ := h _ hk
  exact (hfree.ne_clone hl parent thread).1 (pid_eq_of_lookupKey_eq heq)

/-- Taking a key out is taking its pid out. -/
theorem KeysLive.map_filter {s : Machine} (h : KeysLive s) {e : Live} (he : e ∈ s.live) :
    (s.keys.filter fun k => k ≠ lookupKey e.task).map PidKey.pid =
      (s.keys.map PidKey.pid).filter fun pid => pid ≠ e.task.pid := by
  rw [List.filter_map]
  refine congrArg (List.map PidKey.pid) (List.filter_congr fun k hk => ?_)
  obtain ⟨l, hl, rfl⟩ := h k hk
  have hiff : lookupKey l.task ≠ lookupKey e.task ↔ (lookupKey l.task).pid ≠ e.task.pid := by
    rw [lookupKey_pid]
    refine not_congr ⟨pid_eq_of_lookupKey_eq, fun hpid => ?_⟩
    rw [s.eq_of_pid_eq hl he hpid]
  exact decide_eq_decide.mpr hiff

section Counting

variable {entries : List LogEntry} {root_pid : UInt32} {pids : List UInt32}

/-- A child is counted right iff it is logged where it is stored. -/
theorem foldl_spawned_iff (h : entries.foldl LogEntry.tracked [root_pid] = pids) (pid : UInt32)
    (room fits : Prop) [Decidable room] [Decidable fits] :
    (entries ++ if room then [LogEntry.spawned pid] else []).foldl LogEntry.tracked [root_pid] =
      pids ++ (if fits then [pid] else []) ↔ (fits ↔ room) := by
  rw [List.foldl_append, h]
  by_cases hroom : room <;> by_cases hfits : fits <;> simp [hroom, hfits, LogEntry.tracked]

/-- An exit is counted right iff it is logged. -/
theorem foldl_exited_iff (h : entries.foldl LogEntry.tracked [root_pid] = pids) {pid : UInt32}
    (hmem : pid ∈ pids) (room : Prop) [Decidable room] :
    (entries ++ if room then [LogEntry.exited pid] else []).foldl LogEntry.tracked [root_pid] =
      pids.filter (fun pid' => pid' ≠ pid) ↔ room := by
  rw [List.foldl_append, h]
  by_cases hroom : room
  · simp [hroom, LogEntry.tracked]
  · rw [if_neg hroom]
    refine iff_of_false (fun heq => ?_) hroom
    have hfilter : pid ∈ pids.filter fun pid' => pid' ≠ pid := heq ▸ hmem
    exact absurd (List.mem_filter.mp hfilter).2 (by simp)

/-- A signal is counted iff it is logged. -/
theorem countP_blocked_iff (entries : List LogEntry) (pid nr : UInt32) (room : Prop)
    [Decidable room] :
    (entries ++ if room then [LogEntry.blocked pid nr] else []).countP LogEntry.isBlocked =
      entries.countP LogEntry.isBlocked + 1 ↔ room := by
  by_cases hroom : room <;> simp [hroom, LogEntry.isBlocked]

end Counting

section Step

variable {s s' : Machine} {root_pid : UInt32}

/-- The keys after a fork of a tracked task. -/
theorem KeysLive.keys_forked (h : KeysLive s) {parent : Live} {hparent : parent ∈ s.live}
    {pid : UInt32} {hfree : s.Free pid} {thread : Bool} {now : UInt64}
    (htracked : parentKey parent.task ∈ s.keys) :
    (s.forked parent hparent pid hfree thread now).keys = s.keys ++
      if s.monitor.tracked_pids.entries.length < 1024 then
        [lookupKey (parent.task.clone pid thread)] else [] := by
  rw [Machine.keys, Machine.forked, handle_fork_tracked_pids htracked (Task.clone_cgroup_id _ _ _)]
  exact Bpf.HashMap.keys_update_of_notMem (h.notMem_of_free hfree parent.task thread) _

theorem handle_fork_signals (m : Monitor) (parent child : Task) (now : UInt64) :
    (handle_fork m parent child now).signals = m.signals := by
  unfold handle_fork
  split <;> simp

theorem handle_exit_signals (m : Monitor) (task : Task) (now : UInt64) :
    (handle_exit m task now).signals = m.signals := by
  unfold handle_exit
  split <;> simp

/-- A fork keeps the log right iff the child of a tracked task finds room in both or in neither. -/
theorem Tells.forked_iff (h : Tells root_pid s (logEntries s.monitor)) (hkeys : KeysLive s)
    {parent : Live} {hparent : parent ∈ s.live} {pid : UInt32} {hfree : s.Free pid}
    {thread : Bool} {now : UInt64} :
    Tells root_pid (s.forked parent hparent pid hfree thread now)
        (logEntries (s.forked parent hparent pid hfree thread now).monitor) ↔
      (parentKey parent.task ∈ s.keys →
        (s.monitor.tracked_pids.entries.length < 1024 ↔ s.monitor.HasEventRoom)) := by
  have hsignals := handle_fork_signals s.monitor parent.task (parent.task.clone pid thread) now
  by_cases htracked : parentKey parent.task ∈ s.keys
  · have hlog : logEntries (s.forked parent hparent pid hfree thread now).monitor =
        logEntries s.monitor ++ if s.monitor.HasEventRoom then [.spawned pid] else [] :=
      logEntries_handle_fork htracked
    have hmap : (s.forked parent hparent pid hfree thread now).keys.map PidKey.pid =
        s.keys.map PidKey.pid ++
          if s.monitor.tracked_pids.entries.length < 1024 then [pid] else [] := by
      rw [hkeys.keys_forked htracked, List.map_append]
      congr 1
      split_ifs
      · exact congrArg (fun x => [x]) (lookupKey_pid _)
      · rfl
    have hcount : (logEntries (s.forked parent hparent pid hfree thread now).monitor).countP
        LogEntry.isBlocked = (logEntries s.monitor).countP LogEntry.isBlocked := by
      rw [hlog]
      split_ifs <;> simp [LogEntry.isBlocked]
    rw [forall_prop_of_true htracked, ← foldl_spawned_iff h.tracked pid s.monitor.HasEventRoom
      (s.monitor.tracked_pids.entries.length < 1024), ← hlog, ← hmap]
    refine ⟨fun hright => hright.tracked, fun heq => ⟨heq, ?_⟩⟩
    rw [hcount, h.signals]
    exact (congrArg List.length hsignals).symm
  · have hsame : (s.forked parent hparent pid hfree thread now).monitor = s.monitor :=
      handle_fork_of_not_mem htracked _ _
    refine iff_of_true ⟨?_, ?_⟩ fun h => absurd h htracked
    · rw [Machine.keys, hsame]
      exact h.tracked
    · rw [hsame]
      exact h.signals

/-- An exit keeps it right iff that of a tracked task is logged. -/
theorem Tells.exited_iff (h : Tells root_pid s (logEntries s.monitor)) (hkeys : KeysLive s)
    {e : Live} (he : e ∈ s.live) {now : UInt64} :
    Tells root_pid (s.exited e now) (logEntries (s.exited e now).monitor) ↔
      (lookupKey e.task ∈ s.keys → s.monitor.HasEventRoom) := by
  have hsignals := handle_exit_signals s.monitor e.task now
  by_cases htracked : lookupKey e.task ∈ s.keys
  · have hlog : logEntries (s.exited e now).monitor =
        logEntries s.monitor ++ if s.monitor.HasEventRoom then [.exited e.task.pid] else [] :=
      logEntries_handle_exit htracked
    have hmap : (s.exited e now).keys.map PidKey.pid =
        (s.keys.map PidKey.pid).filter fun pid => pid ≠ e.task.pid := by
      rw [← hkeys.map_filter he]
      exact congrArg _ (keys_handle_exit s.monitor e.task now)
    have hmem : e.task.pid ∈ s.keys.map PidKey.pid :=
      List.mem_map.mpr ⟨_, htracked, lookupKey_pid _⟩
    have hcount : (logEntries (s.exited e now).monitor).countP LogEntry.isBlocked =
        (logEntries s.monitor).countP LogEntry.isBlocked := by
      rw [hlog]
      split_ifs <;> simp [LogEntry.isBlocked]
    rw [forall_prop_of_true htracked, ← foldl_exited_iff h.tracked hmem
      s.monitor.HasEventRoom, ← hlog, ← hmap]
    refine ⟨fun hright => hright.tracked, fun heq => ⟨heq, ?_⟩⟩
    rw [hcount, h.signals]
    exact (congrArg List.length hsignals).symm
  · have hsame : (s.exited e now).monitor = s.monitor := handle_exit_of_not_mem htracked _
    refine iff_of_true ⟨?_, ?_⟩ fun h => absurd h htracked
    · rw [Machine.keys, hsame]
      exact h.tracked
    · rw [hsame]
      exact h.signals

/-- A system call keeps it right iff the call of a tracked task that is blocked is logged. -/
theorem Tells.entered_iff (h : Tells root_pid s (logEntries s.monitor)) (l : Live) (c : SysCall) :
    Tells root_pid (s.entered l c.syscall_nr c.timestamp_ns)
        (logEntries (s.entered l c.syscall_nr c.timestamp_ns).monitor) ↔
      (lookupKey l.task ∈ s.keys → c.Blocked s.monitor → s.monitor.HasEventRoom) := by
  by_cases htracked : lookupKey l.task ∈ s.keys
  · by_cases hblocked : c.Blocked s.monitor
    · have hlog : logEntries (s.entered l c.syscall_nr c.timestamp_ns).monitor =
          logEntries s.monitor ++ if s.monitor.HasEventRoom then
            [.blocked l.task.pid c.syscall_nr.toUInt32] else [] :=
        logEntries_handle_sys_enter htracked hblocked
      have hsignals : (s.entered l c.syscall_nr c.timestamp_ns).monitor.signals.length =
          s.monitor.signals.length + 1 := by
        rw [Machine.entered, signals_of_blocked
          ((lookup_tracked_isSome_iff _ _).mpr htracked) hblocked, List.length_append]
        rfl
      have hfold : (logEntries (s.entered l c.syscall_nr c.timestamp_ns).monitor).foldl
          LogEntry.tracked [root_pid] =
            (s.entered l c.syscall_nr c.timestamp_ns).keys.map PidKey.pid := by
        rw [hlog, List.foldl_append, h.tracked, Machine.keys_entered]
        split_ifs <;> rfl
      rw [forall_prop_of_true htracked, forall_prop_of_true hblocked,
        ← countP_blocked_iff (logEntries s.monitor) l.task.pid c.syscall_nr.toUInt32
          s.monitor.HasEventRoom, ← hlog, h.signals, ← hsignals]
      exact ⟨fun hright => hright.signals, fun heq => ⟨hfold, heq⟩⟩
    · have hsame : (s.entered l c.syscall_nr c.timestamp_ns).monitor = s.monitor :=
        handle_sys_enter_of_not_blocked hblocked _
      refine iff_of_true ⟨?_, ?_⟩ fun _ h => absurd h hblocked
      · rw [Machine.keys, hsame]
        exact h.tracked
      · rw [hsame]
        exact h.signals
  · have hsame : (s.entered l c.syscall_nr c.timestamp_ns).monitor = s.monitor :=
      handle_sys_enter_of_not_mem htracked _ _
    refine iff_of_true ⟨?_, ?_⟩ fun h => absurd h htracked
    · rw [Machine.keys, hsame]
      exact h.tracked
    · rw [hsame]
      exact h.signals

/-- **What one event does to the log.** -/
theorem Tells.step_iff (h : Tells root_pid s (logEntries s.monitor)) (hkeys : KeysLive s)
    {a : TaskAction} (hstep : machineStep s a = some s') :
    Tells root_pid s' (logEntries s'.monitor) ↔ NothingMissed s a := by
  obtain ⟨parent, hparent, pid, hfree, thread, now, rfl, rfl⟩ | ⟨e, he, now, rfl, rfl⟩ |
    ⟨l, hl, nr, now, rfl, rfl⟩ := machineStep_cases hstep
  -- the task that acts is the live one with its pid
  · refine (h.forked_iff hkeys).trans ⟨fun hp l hl hpid => ?_, fun hall => hall parent hparent rfl⟩
    obtain rfl := s.eq_of_pid_eq hl hparent hpid
    exact hp
  · refine (h.exited_iff hkeys he).trans ⟨fun hp l hl hpid => ?_, fun hall => hall e he rfl⟩
    obtain rfl := s.eq_of_pid_eq hl he hpid
    exact hp
  · refine (h.entered_iff l ⟨nr, now⟩).trans ⟨fun hp l' hl' hpid => ?_, fun hall => hall l hl rfl⟩
    obtain rfl := s.eq_of_pid_eq hl' hl hpid
    exact hp

end Step

/-! ## The run -/

/-- **When the log can be relied on.**  Let the map hold the key of the live task `root` only, and
let nothing have been reported yet.  Whatever tasks fork, clone, exit and call the system: in every
state of the run a reader of the log, who counts the pids from that of `root` on, has those that are
tracked, and sees one alert for each signal, if and only if nothing has been missed. -/
theorem log_tells_iff (thread_id : ℕ) (s t : Machine) (root : Task) (hstart : StartsAt s root)
    (hnone : s.monitor.events = [] ∧ s.monitor.signals = []) (events : List TaskAction)
    (hrun : exec machineStep s events = some t) :
    Always machineStep (LogTells thread_id root.pid) s events ↔
      Along machineStep NothingMissed s events := by
  have hkeys : KeysLive s := by
    obtain ⟨l, hl, rfl⟩ := hstart.live
    intro k hk
    exact ⟨l, hl, ((hstart.tracked k).mp hk).symm⟩
  have hone : s.keys = [lookupKey root] := by
    have hnodup : s.keys.Nodup := s.monitor.tracked_pids.nodup
    apply List.perm_singleton.mp
    rw [List.perm_ext_iff_of_nodup hnodup (List.nodup_singleton _)]
    intro k
    rw [List.mem_singleton]
    exact hstart.tracked k
  have htells : LogTells thread_id root.pid s := by
    rw [logTells_iff, logEntries, hnone.1]
    refine ⟨?_, by rw [hnone.2]; rfl⟩
    rw [hone, List.map_singleton, lookupKey_pid]
    rfl
  refine always_iff_along hkeys htells (fun _ _ _ h hstep => h.step hstep) ?_ hrun
  intro u a v hlive hu hv
  rw [logTells_iff] at hu ⊢
  exact hu.step_iff hlive hv

/-- Task `100` forks, and the child is killed at a blocked call and exits. -/
theorem log_tells_iff_at :
    Always machineStep (LogTells 3 100) (aloneAt100 (Bpf.HashMap.empty.update 42 1))
      [.fork 100 101 false 0, .sys_enter 101 42 0, .exit 101 0] :=
  (log_tells_iff 3 _ _ _ (aloneAt100_startsAt _) ⟨rfl, rfl⟩ _ rfl).mpr (by decide)

end MiniCi
