/-
# The tracked set and the process tree (`server/monitor.bpf.c`)

The monitor follows a submission through its forks: `handle_fork` stores the child of a
tracked parent, `handle_exit` takes the current task out of the map.  Here the three
programs run on a machine: its live tasks, any of which may fork, clone a thread, exit or
enter a system call, and a pid that is given out again once nobody uses it.

`handle_fork` looks for the parent under its `tgid`, so the thread that leads a process
answers for the others.  Two invariants decide what that is worth:

* every key in the map is the key of a live task that descends from the registered one, so
  the monitor kills no bystander (`kills_only_descendants`);
* a descendant is in the map as long as each process that forks still has its leader, and
  no longer (`tracks_descendants_iff`).
-/
import MiniCi.Monitor
import MiniCi.Runs

namespace MiniCi

open CStr Runs

/-! ## What the programs do to the map -/

theorem lookupKey_eq (task : Task) :
    lookupKey task
      = { pid := task.pid, cgroup_tag := (task.cgroup_id &&& 0xFFFFFFFF).toUInt32 } := by
  rw [lookupKey, pid_of_pid_tgid]

/-- A task is looked up under its own pid. -/
@[simp] theorem lookupKey_pid (task : Task) : (lookupKey task).pid = task.pid := by
  rw [lookupKey_eq]

/-- Two tasks with one key have one pid. -/
theorem pid_eq_of_lookupKey_eq {a b : Task} (h : lookupKey a = lookupKey b) : a.pid = b.pid := by
  rw [← lookupKey_pid a, h, lookupKey_pid]

/-- A task that leads the process of another, in the same cgroup, has the key under which
`handle_fork` looks. -/
theorem parentKey_eq_lookupKey {parent leader : Task} (hpid : leader.pid = parent.tgid)
    (hcg : leader.cgroup_id = parent.cgroup_id) : parentKey parent = lookupKey leader := by
  rw [lookupKey_eq, parentKey, hpid, hcg]

@[simp] theorem emit_event_tracked_pids (m : Monitor) (task : Task) (now : UInt64)
    (event_type pid tgid : UInt32) (nr : UInt64) :
    (emit_event m task now event_type pid tgid nr).tracked_pids = m.tracked_pids := by
  unfold emit_event
  split <;> rfl

/-- A task is tracked when its key is in the map. -/
theorem lookup_tracked_isSome_iff (m : Monitor) (task : Task) :
    (lookup_tracked m task).isSome ↔ lookupKey task ∈ m.tracked_pids.keys :=
  m.tracked_pids.lookup_isSome_iff _

/-- A fork in a process whose `tgid` is not tracked is ignored. -/
theorem handle_fork_of_not_mem {m : Monitor} {parent : Task}
    (h : parentKey parent ∉ m.tracked_pids.keys) (child : Task) (now : UInt64) :
    handle_fork m parent child now = m := by
  have hnone : m.tracked_pids.lookup (parentKey parent) = none := by
    rw [← Option.not_isSome_iff_eq_none, Bpf.HashMap.lookup_isSome_iff]
    exact h
  rw [handle_fork]
  simp only [hnone]

/-- In a tracked process the child is stored, under its own key. -/
theorem handle_fork_tracked_pids {m : Monitor} {parent child : Task}
    (h : parentKey parent ∈ m.tracked_pids.keys) (hcg : child.cgroup_id = parent.cgroup_id)
    (now : UInt64) :
    (handle_fork m parent child now).tracked_pids
      = m.tracked_pids.update (lookupKey child) parent.tgid := by
  obtain ⟨v, hv⟩ := Option.isSome_iff_exists.mp ((m.tracked_pids.lookup_isSome_iff _).mpr h)
  simp only [handle_fork, hv, emit_event_tracked_pids]
  rw [lookupKey_eq, hcg]

/-- After an exit the key of the task is not in the map, and the other keys are as before. -/
theorem mem_keys_handle_exit {m : Monitor} {task : Task} {now : UInt64} {k : PidKey} :
    k ∈ (handle_exit m task now).tracked_pids.keys ↔
      k ∈ m.tracked_pids.keys ∧ k ≠ lookupKey task := by
  unfold handle_exit
  rcases hlook : m.tracked_pids.lookup (lookupKey task) with _ | v
  · have hmem : lookupKey task ∉ m.tracked_pids.keys := by
      rw [← Bpf.HashMap.lookup_isSome_iff, hlook]
      simp
    constructor
    · intro hk
      exact ⟨hk, fun heq => hmem (heq ▸ hk)⟩
    · exact And.left
  · simp only [emit_event_tracked_pids]
    exact Bpf.HashMap.mem_keys_delete

/-- A system call leaves the map as it is. -/
@[simp] theorem handle_sys_enter_tracked_pids (m : Monitor) (task : Task) (nr now : UInt64) :
    (handle_sys_enter m task nr now).tracked_pids = m.tracked_pids := by
  unfold handle_sys_enter
  split
  · rfl
  · split
    · rfl
    · simp [bpf_send_signal]

/-- A signal is sent to a tracked task only. -/
theorem tracked_of_signal {m : Monitor} {task : Task} {nr now : UInt64}
    (h : (handle_sys_enter m task nr now).signals ≠ m.signals) :
    (lookup_tracked m task).isSome := by
  by_contra hnone
  rw [Option.not_isSome_iff_eq_none] at hnone
  simp [handle_sys_enter, hnone] at h

/-! ## The machine -/

/-- A live task.  `descends` is not known to the monitor: it says whether the task is the
root or comes from it through forks and clones. -/
structure Live where
  task : Task
  descends : Bool

/-- The live tasks of a machine and the monitor that watches them.  No two live tasks have
the same pid, and a task whose pid is the `tgid` of a live task leads a process. -/
structure Machine where
  live : List Live
  monitor : Monitor
  nodup : (live.map fun l => l.task.pid).Nodup
  leads : ∀ a ∈ live, ∀ b ∈ live, a.task.pid = b.task.tgid → a.task.tgid = a.task.pid

namespace Machine

/-- Live tasks are known by their pids. -/
theorem eq_of_pid_eq (s : Machine) {a b : Live} (ha : a ∈ s.live) (hb : b ∈ s.live)
    (h : a.task.pid = b.task.pid) : a = b :=
  List.inj_on_of_nodup_map s.nodup ha hb h

/-- The live task with a pid. -/
def find (s : Machine) (pid : UInt32) : Option Live := s.live.find? fun l => l.task.pid = pid

theorem mem_of_find {s : Machine} {pid : UInt32} {l : Live} (h : s.find pid = some l) :
    l ∈ s.live ∧ l.task.pid = pid :=
  ⟨List.mem_of_find?_eq_some h, by simpa using List.find?_some h⟩

/-- The kernel may give the pid to a new task: no live task has it, and it names no process
that still has a thread. -/
def Free (s : Machine) (pid : UInt32) : Prop :=
  ∀ l ∈ s.live, l.task.pid ≠ pid ∧ l.task.tgid ≠ pid

instance (s : Machine) (pid : UInt32) : Decidable (s.Free pid) :=
  inferInstanceAs (Decidable (∀ l ∈ s.live, _))

end Machine

/-- The task that `fork`, or `clone` with `CLONE_THREAD`, makes of its caller: it stays in
the cgroup, and a thread stays in the process. -/
def Task.clone (parent : Task) (pid : UInt32) (thread : Bool) : Task :=
  { parent with pid, tgid := if thread then parent.tgid else pid }

theorem Task.clone_cgroup_id (parent : Task) (pid : UInt32) (thread : Bool) :
    (parent.clone pid thread).cgroup_id = parent.cgroup_id := rfl

namespace Machine

/-- The machine after a fork. -/
def forked (s : Machine) (parent : Live) (hparent : parent ∈ s.live) (pid : UInt32)
    (hfree : s.Free pid) (thread : Bool) (now : UInt64) : Machine where
  live := s.live ++ [⟨parent.task.clone pid thread, parent.descends⟩]
  monitor := handle_fork s.monitor parent.task (parent.task.clone pid thread) now
  nodup := by
    rw [List.map_append, List.map_singleton, List.nodup_append]
    refine ⟨s.nodup, List.nodup_singleton _, fun a ha b hb hab => ?_⟩
    obtain ⟨l, hl, rfl⟩ := List.mem_map.mp ha
    obtain rfl := List.mem_singleton.mp hb
    exact (hfree l hl).1 hab
  leads := by
    intro a ha b hb hab
    have htgid : (parent.task.clone pid thread).tgid = if thread then parent.task.tgid else pid :=
      rfl
    have hpid : (parent.task.clone pid thread).pid = pid := rfl
    rcases List.mem_append.mp ha with ha | ha <;> rcases List.mem_append.mp hb with hb | hb
    · exact s.leads a ha b hb hab
    · -- an old task leads the process of the new one, which then is a thread of the parent's
      obtain rfl := List.mem_singleton.mp hb
      simp only [htgid] at hab
      split_ifs at hab
      · exact s.leads a ha parent hparent hab
      · exact absurd hab (hfree a ha).1
    · -- the pid of the new task is the `tgid` of no old one
      obtain rfl := List.mem_singleton.mp ha
      exact absurd hab.symm (hfree b hb).2
    · obtain rfl := List.mem_singleton.mp ha
      obtain rfl := List.mem_singleton.mp hb
      exact hab.symm

/-- The machine after an exit. -/
def exited (s : Machine) (l : Live) (now : UInt64) : Machine where
  live := s.live.filter fun l' => l'.task.pid ≠ l.task.pid
  monitor := handle_exit s.monitor l.task now
  nodup := s.nodup.sublist (List.filter_sublist.map _)
  leads := fun a ha b hb => s.leads a (List.mem_of_mem_filter ha) b (List.mem_of_mem_filter hb)

/-- The machine after the entry of a system call.  A killed task runs on until it exits. -/
def entered (s : Machine) (l : Live) (nr now : UInt64) : Machine :=
  { s with monitor := handle_sys_enter s.monitor l.task nr now }

end Machine

/-- An event of the machine: what the task `pid` does, and when. -/
inductive TaskAction where
  | fork (pid child_pid : UInt32) (thread : Bool) (now : UInt64)
  | exit (pid : UInt32) (now : UInt64)
  | sys_enter (pid : UInt32) (nr now : UInt64)
  deriving DecidableEq

/-- One event; not enabled when there is no such task, or the pid of the child is in use. -/
def machineStep (s : Machine) : TaskAction → Option Machine
  | .fork pid child_pid thread now =>
    match hfind : s.find pid with
    | none => none
    | some parent =>
      if hfree : s.Free child_pid then
        some (s.forked parent (Machine.mem_of_find hfind).1 child_pid hfree thread now)
      else none
  | .exit pid now => (s.find pid).map fun l => s.exited l now
  | .sys_enter pid nr now => (s.find pid).map fun l => s.entered l nr now

/-- **What an event does.** -/
theorem machineStep_cases {s s' : Machine} {a : TaskAction} (h : machineStep s a = some s') :
    (∃ parent, ∃ hparent : parent ∈ s.live, ∃ child_pid, ∃ hfree : s.Free child_pid,
      ∃ thread now, a = .fork parent.task.pid child_pid thread now ∧
        s' = s.forked parent hparent child_pid hfree thread now) ∨
    (∃ l ∈ s.live, ∃ now, a = .exit l.task.pid now ∧ s' = s.exited l now) ∨
    (∃ l ∈ s.live, ∃ nr now, a = .sys_enter l.task.pid nr now ∧ s' = s.entered l nr now) := by
  cases a with
  | fork pid child_pid thread now =>
    left
    rw [machineStep] at h
    split at h
    · cases h
    · rename_i parent hfind
      obtain ⟨hparent, rfl⟩ := Machine.mem_of_find hfind
      split_ifs at h with hfree
      obtain rfl := Option.some.inj h
      exact ⟨parent, hparent, child_pid, hfree, thread, now, rfl, rfl⟩
  | exit pid now =>
    right; left
    obtain ⟨l, hfind, rfl⟩ := Option.map_eq_some_iff.mp h
    obtain ⟨hl, rfl⟩ := Machine.mem_of_find hfind
    exact ⟨l, hl, now, rfl, rfl⟩
  | sys_enter pid nr now =>
    right; right
    obtain ⟨l, hfind, rfl⟩ := Option.map_eq_some_iff.mp h
    obtain ⟨hl, rfl⟩ := Machine.mem_of_find hfind
    exact ⟨l, hl, nr, now, rfl, rfl⟩

/-! ## Tasks and keys after an event -/

namespace Machine

/-- The keys in the map. -/
def keys (s : Machine) : List PidKey := s.monitor.tracked_pids.keys

variable {s : Machine} {parent : Live} {hparent : parent ∈ s.live} {child_pid : UInt32}
  {hfree : s.Free child_pid} {thread : Bool} {now : UInt64}

theorem mem_live_forked {l : Live} :
    l ∈ (s.forked parent hparent child_pid hfree thread now).live ↔
      l ∈ s.live ∨ l = ⟨parent.task.clone child_pid thread, parent.descends⟩ := by
  simp [forked]

theorem mem_live_exited {l e : Live} :
    l ∈ (s.exited e now).live ↔ l ∈ s.live ∧ l.task.pid ≠ e.task.pid := by
  simp [exited]

/-- A fork stores no key but that of the child, and this one for a tracked parent. -/
theorem mem_keys_of_forked {k : PidKey}
    (hk : k ∈ (s.forked parent hparent child_pid hfree thread now).keys) :
    k ∈ s.keys ∨
      parentKey parent.task ∈ s.keys ∧ k = lookupKey (parent.task.clone child_pid thread) := by
  by_cases htracked : parentKey parent.task ∈ s.keys
  · rw [keys, forked, handle_fork_tracked_pids htracked (Task.clone_cgroup_id _ _ _)] at hk
    rcases Bpf.HashMap.mem_keys_of_mem_update hk with hnew | hold
    · exact Or.inr ⟨htracked, hnew⟩
    · exact Or.inl hold
  · rw [keys, forked, handle_fork_of_not_mem htracked] at hk
    exact Or.inl hk

/-- A fork loses no key. -/
theorem mem_keys_forked_of_mem {k : PidKey} (hk : k ∈ s.keys) :
    k ∈ (s.forked parent hparent child_pid hfree thread now).keys := by
  by_cases htracked : parentKey parent.task ∈ s.keys
  · rw [keys, forked, handle_fork_tracked_pids htracked (Task.clone_cgroup_id _ _ _)]
    exact Bpf.HashMap.mem_keys_update_of_mem hk _ _
  · rw [keys, forked, handle_fork_of_not_mem htracked]
    exact hk

/-- Where the map has room the child of a tracked parent is in it. -/
theorem mem_keys_forked_child (htracked : parentKey parent.task ∈ s.keys)
    (hroom : s.monitor.tracked_pids.entries.length < 1024) :
    lookupKey (parent.task.clone child_pid thread)
      ∈ (s.forked parent hparent child_pid hfree thread now).keys := by
  rw [keys, forked, handle_fork_tracked_pids htracked (Task.clone_cgroup_id _ _ _)]
  exact Bpf.HashMap.mem_keys_update_self hroom _ _

theorem mem_keys_exited {e : Live} {k : PidKey} :
    k ∈ (s.exited e now).keys ↔ k ∈ s.keys ∧ k ≠ lookupKey e.task :=
  mem_keys_handle_exit

@[simp] theorem keys_entered (l : Live) (nr : UInt64) : (s.entered l nr now).keys = s.keys := by
  simp [keys, entered]

/-- The new task has a pid that no old one has, nor a process. -/
theorem Free.ne_clone (hfree : s.Free child_pid) {l : Live} (hl : l ∈ s.live) (parent : Task)
    (thread : Bool) : l.task.pid ≠ (parent.clone child_pid thread).pid ∧
      l.task.tgid ≠ (parent.clone child_pid thread).pid :=
  hfree l hl

/-- A live task that shares the process of a new one shares that of its parent: the new one
is a thread. -/
theorem Free.tgid_clone (hfree : s.Free child_pid) {l : Live} (hl : l ∈ s.live) {parent : Task}
    {thread : Bool}
    (h : l.task.tgid = (parent.clone child_pid thread).tgid ∨
      l.task.pid = (parent.clone child_pid thread).tgid) :
    (parent.clone child_pid thread).tgid = parent.tgid := by
  cases thread with
  | true => rfl
  | false =>
    rcases h with h | h
    · exact absurd h (hfree l hl).2
    · exact absurd h (hfree l hl).1

end Machine

/-! ## The start -/

/-- `root` is live, and its key the only one in the map. -/
structure StartsAt (s : Machine) (root : Task) : Prop where
  live : ∃ l ∈ s.live, l.task = root
  tracked : ∀ k, k ∈ s.keys ↔ k = lookupKey root

/-! ## Bystanders -/

/-- Every key is the key of a live descendant, and the tasks whose process a descendant
leads are descendants. -/
structure KeysDescend (s : Machine) : Prop where
  keys : ∀ k ∈ s.keys, ∃ l ∈ s.live, l.descends ∧ lookupKey l.task = k
  led : ∀ u ∈ s.live, u.descends → ∀ p ∈ s.live, p.task.tgid = u.task.pid → p.descends

/-- The parent of a stored child descends from the root. -/
theorem KeysDescend.parent_descends {s : Machine} (h : KeysDescend s) {parent : Live}
    (hparent : parent ∈ s.live) (hkey : parentKey parent.task ∈ s.keys) : parent.descends := by
  obtain ⟨u, hu, hdesc, heq⟩ := h.keys _ hkey
  have hpid : u.task.pid = parent.task.tgid := by
    rw [← lookupKey_pid, heq]
    rfl
  exact h.led u hu hdesc parent hparent hpid.symm

/-- A tracked task descends from the root: it is the live task that has the key. -/
theorem KeysDescend.descends_of_tracked {s : Machine} (h : KeysDescend s) {l : Live}
    (hl : l ∈ s.live) (htracked : (lookup_tracked s.monitor l.task).isSome) : l.descends := by
  obtain ⟨u, hu, hdesc, heq⟩ := h.keys _ ((lookup_tracked_isSome_iff _ _).mp htracked)
  rw [← s.eq_of_pid_eq hu hl (pid_eq_of_lookupKey_eq heq)]
  exact hdesc

/-- Every event keeps the keys with the descendants. -/
theorem KeysDescend.step {s s' : Machine} {a : TaskAction} (h : KeysDescend s)
    (hstep : machineStep s a = some s') : KeysDescend s' := by
  obtain ⟨parent, hparent, pid, hfree, thread, now, -, rfl⟩ | ⟨e, he, now, -, rfl⟩ |
    ⟨l, hl, nr, now, -, rfl⟩ := machineStep_cases hstep
  · constructor
    · intro k hk
      rcases Machine.mem_keys_of_forked hk with hold | ⟨hkey, rfl⟩
      · obtain ⟨l, hl, hdesc, heq⟩ := h.keys k hold
        exact ⟨l, Machine.mem_live_forked.mpr (Or.inl hl), hdesc, heq⟩
      · have hdesc := h.parent_descends hparent hkey
        exact ⟨_, Machine.mem_live_forked.mpr (Or.inr rfl), hdesc, rfl⟩
    · intro u hu hdesc p hp hled
      rcases Machine.mem_live_forked.mp hu with hu | rfl <;>
        rcases Machine.mem_live_forked.mp hp with hp | rfl
      · exact h.led u hu hdesc p hp hled
      · -- the new task joins a process that a descendant leads
        have htgid := hfree.tgid_clone hu (Or.inr hled.symm)
        exact h.led u hu hdesc parent hparent (htgid ▸ hled)
      · exact absurd hled (hfree.ne_clone hp parent.task thread).2
      · exact hdesc
  · constructor
    · intro k hk
      obtain ⟨hk, hne⟩ := Machine.mem_keys_exited.mp hk
      obtain ⟨l, hl, hdesc, rfl⟩ := h.keys k hk
      refine ⟨l, Machine.mem_live_exited.mpr ⟨hl, fun hpid => hne ?_⟩, hdesc, rfl⟩
      rw [s.eq_of_pid_eq hl he hpid]
    · intro u hu hdesc p hp hled
      exact h.led u (Machine.mem_live_exited.mp hu).1 hdesc p (Machine.mem_live_exited.mp hp).1 hled
  · exact ⟨fun k hk => h.keys k (by simpa using hk), h.led⟩

/-- The tasks of a process are all descendants, or none of them is. -/
def DescentByProcess (s : Machine) : Prop :=
  ∀ a ∈ s.live, ∀ b ∈ s.live, a.task.tgid = b.task.tgid → a.descends → b.descends

/-- A fork keeps this up: a thread descends as its parent does, a process is new. -/
theorem DescentByProcess.step {s s' : Machine} {a : TaskAction} (h : DescentByProcess s)
    (hstep : machineStep s a = some s') : DescentByProcess s' := by
  obtain ⟨parent, hparent, pid, hfree, thread, now, -, rfl⟩ | ⟨e, he, now, -, rfl⟩ |
    ⟨l, hl, nr, now, -, rfl⟩ := machineStep_cases hstep
  · intro a ha b hb htgid hdesc
    rcases Machine.mem_live_forked.mp ha with ha | rfl <;>
      rcases Machine.mem_live_forked.mp hb with hb | rfl
    · exact h a ha b hb htgid hdesc
    · exact h a ha parent hparent (htgid.trans (hfree.tgid_clone ha (Or.inl htgid))) hdesc
    · have hold := hfree.tgid_clone hb (Or.inl htgid.symm)
      exact h parent hparent b hb (hold.symm.trans htgid) hdesc
    · exact hdesc
  · intro a ha b hb htgid hdesc
    exact h a (Machine.mem_live_exited.mp ha).1 b (Machine.mem_live_exited.mp hb).1 htgid hdesc
  · exact h

/-- The monitor takes no bystander for a tracked task, and sends no signal to one; where the
root leads its process nobody else in the process that is signalled is a bystander either. -/
structure SparesBystanders (root : Task) (s : Machine) : Prop where
  tracked : ∀ l ∈ s.live, (lookup_tracked s.monitor l.task).isSome → l.descends
  signalled : ∀ l ∈ s.live, ∀ nr now,
    (handle_sys_enter s.monitor l.task nr now).signals ≠ s.monitor.signals →
      l.descends ∧ (root.tgid = root.pid →
        ∀ o ∈ s.live, o.task.tgid = l.task.tgid → o.descends)

/-- **The monitor kills no bystander.**  Let the map hold the key of the live task `root`
only, and let the descendants be `root` and the threads that it has cloned.  Whatever tasks
fork, clone, exit, are given a pid that is free again and call the system, in every state on
the way a task that is found, and a task that is sent `SIGKILL`, descends from `root`. -/
theorem kills_only_descendants (s : Machine) (root : Task) (hstart : StartsAt s root)
    (hroot : ∀ l ∈ s.live, l.descends ↔ l.task.pid = root.pid ∨ l.task.tgid = root.pid)
    (events : List TaskAction) : Always machineStep (SparesBystanders root) s events := by
  obtain ⟨r, hr, rfl⟩ := hstart.live
  have hkeys : KeysDescend s := by
    constructor
    · intro k hk
      exact ⟨r, hr, (hroot r hr).mpr (Or.inl rfl), ((hstart.tracked k).mp hk).symm⟩
    · intro u hu hdesc p hp hled
      rcases (hroot u hu).mp hdesc with hpid | htgid
      · exact (hroot p hp).mpr (Or.inr (hled.trans hpid))
      · -- `u` leads a process, and is in that of the root, so it is the root
        have hself := s.leads u hu p hp hled.symm
        exact (hroot p hp).mpr (Or.inr (hled.trans (hself.symm.trans htgid)))
  have hproc : r.task.tgid = r.task.pid → DescentByProcess s := by
    intro hleads a ha b hb htgid hdesc
    rcases (hroot a ha).mp hdesc with hpid | ha'
    · obtain rfl := s.eq_of_pid_eq ha hr hpid
      exact (hroot b hb).mpr (Or.inr (htgid.symm.trans hleads))
    · exact (hroot b hb).mpr (Or.inr (htgid.symm.trans ha'))
  intro pre _ t ht
  have hkeys' : KeysDescend t := invariant_of_step hkeys (fun _ _ _ h => h.step) ht
  refine ⟨fun l hl => hkeys'.descends_of_tracked hl, fun l hl nr now hsig => ?_⟩
  have hdesc := hkeys'.descends_of_tracked hl (tracked_of_signal hsig)
  refine ⟨hdesc, fun hleads o ho htgid => ?_⟩
  have hproc' : DescentByProcess t :=
    invariant_of_step (hproc hleads) (fun _ _ _ h => h.step) ht
  exact hproc' l hl o ho htgid.symm hdesc

/-- A process of the machine: task `100`, which leads it, in cgroup `7`. -/
def aloneAt100 (blocked_syscalls : Bpf.HashMap UInt64 UInt8 512) : Machine where
  live := [⟨⟨100, 100, 7, .zero 16⟩, true⟩]
  monitor :=
    { tracked_pids := Bpf.HashMap.empty.update ⟨100, 7⟩ 0, blocked_syscalls
      events := [], signals := [] }
  nodup := by simp
  leads := by simp

/-- It is a start. -/
theorem aloneAt100_startsAt (blocked_syscalls : Bpf.HashMap UInt64 UInt8 512) :
    StartsAt (aloneAt100 blocked_syscalls) ⟨100, 100, 7, .zero 16⟩ where
  live := ⟨_, List.mem_singleton.mpr rfl, rfl⟩
  tracked := fun _ => List.mem_singleton

/-- Task `100` forks, and the child is killed at a blocked call. -/
theorem kills_only_descendants_at :
    Always machineStep (SparesBystanders ⟨100, 100, 7, .zero 16⟩)
      (aloneAt100 (Bpf.HashMap.empty.update 42 1)) [.fork 100 101 false 0, .sys_enter 101 42 0] :=
  kills_only_descendants _ _ (aloneAt100_startsAt _) (by decide) _

/-! ## Descendants -/

/-- Every descendant is tracked. -/
def TracksDescendants (s : Machine) : Prop :=
  ∀ l ∈ s.live, l.descends → (lookup_tracked s.monitor l.task).isSome

instance (s : Machine) : Decidable (TracksDescendants s) :=
  inferInstanceAs (Decidable (∀ l ∈ s.live, l.descends → _))

/-- A fork in a tracked process finds room in the map. -/
def ForkHasRoom (s : Machine) : TaskAction → Prop
  | .fork pid _ _ _ => ∀ l ∈ s.live, l.task.pid = pid → parentKey l.task ∈ s.keys →
      s.monitor.tracked_pids.entries.length < 1024
  | _ => True

instance (s : Machine) : DecidablePred (ForkHasRoom s)
  | .fork _ _ _ _ => inferInstanceAs (Decidable (∀ l ∈ s.live, _ → _ → _))
  | .exit _ _ => isTrue trivial
  | .sys_enter _ _ _ => isTrue trivial

/-- A descendant that forks or clones belongs to a process whose leader is still alive, and
is a descendant too. -/
def ForksUnderLeader (s : Machine) : TaskAction → Prop
  | .fork pid _ _ _ => ∀ l ∈ s.live, l.task.pid = pid → l.descends →
      ∃ leader ∈ s.live, leader.descends ∧ leader.task.pid = l.task.tgid
  | _ => True

instance (s : Machine) : DecidablePred (ForksUnderLeader s)
  | .fork _ _ _ _ => inferInstanceAs (Decidable (∀ l ∈ s.live, _ → _ → _))
  | .exit _ _ => isTrue trivial
  | .sys_enter _ _ _ => isTrue trivial

/-- What holds of the keys and the descendants in every run: a key belongs to a live task,
the descendants share the cgroup, and a tracked leader of a descendant is a descendant. -/
structure TreeKeys (cgroup_id : UInt64) (s : Machine) : Prop where
  live : ∀ k ∈ s.keys, ∃ l ∈ s.live, lookupKey l.task = k
  cgroup : ∀ l ∈ s.live, l.descends → l.task.cgroup_id = cgroup_id
  leader : ∀ l ∈ s.live, l.descends → ∀ u ∈ s.live, u.task.pid = l.task.tgid →
    lookupKey u.task ∈ s.keys → u.descends

/-- After a fork the key of an old task is in the map iff it was. -/
theorem Machine.mem_keys_of_forked_of_mem {s : Machine} {parent u : Live}
    {hparent : parent ∈ s.live} {pid : UInt32} {hfree : s.Free pid} {thread : Bool} {now : UInt64}
    (hu : u ∈ s.live)
    (hk : lookupKey u.task ∈ (s.forked parent hparent pid hfree thread now).keys) :
    lookupKey u.task ∈ s.keys := by
  rcases mem_keys_of_forked hk with hold | ⟨-, heq⟩
  · exact hold
  · exact absurd (pid_eq_of_lookupKey_eq heq) (hfree.ne_clone hu parent.task thread).1

/-- Every event keeps this up. -/
theorem TreeKeys.step {cgroup_id : UInt64} {s s' : Machine} {a : TaskAction}
    (h : TreeKeys cgroup_id s) (hstep : machineStep s a = some s') : TreeKeys cgroup_id s' := by
  obtain ⟨parent, hparent, pid, hfree, thread, now, -, rfl⟩ | ⟨e, he, now, -, rfl⟩ |
    ⟨l, hl, nr, now, -, rfl⟩ := machineStep_cases hstep
  · constructor
    · intro k hk
      rcases Machine.mem_keys_of_forked hk with hold | ⟨-, rfl⟩
      · obtain ⟨l, hl, heq⟩ := h.live k hold
        exact ⟨l, Machine.mem_live_forked.mpr (Or.inl hl), heq⟩
      · exact ⟨_, Machine.mem_live_forked.mpr (Or.inr rfl), rfl⟩
    · intro l hl hdesc
      rcases Machine.mem_live_forked.mp hl with hl | rfl
      · exact h.cgroup l hl hdesc
      · exact h.cgroup parent hparent hdesc
    · intro l hl hdesc u hu hlead hkey
      rcases Machine.mem_live_forked.mp hl with hl | rfl <;>
        rcases Machine.mem_live_forked.mp hu with hu | rfl
      · exact h.leader l hl hdesc u hu hlead (Machine.mem_keys_of_forked_of_mem hu hkey)
      · exact absurd hlead.symm (hfree.ne_clone hl parent.task thread).2
      · -- an old task leads the process of the new one, which is that of the parent
        have htgid := hfree.tgid_clone hu (Or.inr hlead)
        exact h.leader parent hparent hdesc u hu (hlead.trans htgid)
          (Machine.mem_keys_of_forked_of_mem hu hkey)
      · exact hdesc
  · constructor
    · intro k hk
      obtain ⟨hk, hne⟩ := Machine.mem_keys_exited.mp hk
      obtain ⟨l, hl, rfl⟩ := h.live k hk
      refine ⟨l, Machine.mem_live_exited.mpr ⟨hl, fun hpid => hne ?_⟩, rfl⟩
      rw [s.eq_of_pid_eq hl he hpid]
    · intro l hl hdesc
      exact h.cgroup l (Machine.mem_live_exited.mp hl).1 hdesc
    · intro l hl hdesc u hu hlead hkey
      exact h.leader l (Machine.mem_live_exited.mp hl).1 hdesc u (Machine.mem_live_exited.mp hu).1
        hlead (Machine.mem_keys_exited.mp hkey).1
  · exact ⟨fun k hk => h.live k (by simpa using hk), h.cgroup,
      fun l hl hdesc u hu hlead hkey => h.leader l hl hdesc u hu hlead (by simpa using hkey)⟩

/-- While descendants fork under their leaders each descendant stays tracked. -/
theorem TracksDescendants.step {cgroup_id : UInt64} {s s' : Machine} {a : TaskAction}
    (htree : TreeKeys cgroup_id s) (h : TracksDescendants s) (hroom : ForkHasRoom s a)
    (hlead : ForksUnderLeader s a) (hstep : machineStep s a = some s') : TracksDescendants s' := by
  have hkey : ∀ l ∈ s.live, l.descends → lookupKey l.task ∈ s.keys := by
    intro l hl hdesc
    exact (lookup_tracked_isSome_iff _ _).mp (h l hl hdesc)
  intro l hl hdesc
  rw [lookup_tracked_isSome_iff]
  obtain ⟨parent, hparent, pid, hfree, thread, now, rfl, rfl⟩ | ⟨e, he, now, -, rfl⟩ |
    ⟨e, he, nr, now, -, rfl⟩ := machineStep_cases hstep
  · rcases Machine.mem_live_forked.mp hl with hl | rfl
    · exact Machine.mem_keys_forked_of_mem (hkey l hl hdesc)
    · -- the leader is tracked, and `handle_fork` looks under its key
      obtain ⟨leader, hleader, hldesc, hpid⟩ := hlead parent hparent rfl hdesc
      have hcg : leader.task.cgroup_id = parent.task.cgroup_id := by
        rw [htree.cgroup leader hleader hldesc, htree.cgroup parent hparent hdesc]
      have htracked : parentKey parent.task ∈ s.keys := by
        rw [parentKey_eq_lookupKey hpid hcg]
        exact hkey leader hleader hldesc
      exact Machine.mem_keys_forked_child htracked (hroom parent hparent rfl htracked)
  · obtain ⟨hl, hne⟩ := Machine.mem_live_exited.mp hl
    refine Machine.mem_keys_exited.mpr ⟨hkey l hl hdesc, fun heq => hne ?_⟩
    exact pid_eq_of_lookupKey_eq heq
  · show lookupKey l.task ∈ (s.entered e nr now).keys
    rw [Machine.keys_entered]
    exact hkey l hl hdesc

/-- The child of a descendant without a leader is not tracked. -/
theorem TreeKeys.not_tracked_of_no_leader {cgroup_id : UInt64} {s : Machine}
    (h : TreeKeys cgroup_id s) {parent : Live} (hparent : parent ∈ s.live)
    (hdesc : parent.descends)
    (hno : ¬ ∃ leader ∈ s.live, leader.descends ∧ leader.task.pid = parent.task.tgid)
    {pid : UInt32} (hfree : s.Free pid) (thread : Bool) (now : UInt64) :
    ¬ TracksDescendants (s.forked parent hparent pid hfree thread now) := by
  intro htracks
  have hchild := htracks ⟨parent.task.clone pid thread, parent.descends⟩
    (Machine.mem_live_forked.mpr (Or.inr rfl)) hdesc
  rw [lookup_tracked_isSome_iff] at hchild
  rcases Machine.mem_keys_of_forked hchild with hold | ⟨hkey, -⟩
  · -- the pid of the child was free, so no key had it
    obtain ⟨u, hu, heq⟩ := h.live _ hold
    exact (hfree.ne_clone hu parent.task thread).1 (pid_eq_of_lookupKey_eq heq)
  · obtain ⟨u, hu, heq⟩ := h.live _ hkey
    have hpid : u.task.pid = parent.task.tgid := by
      rw [← lookupKey_pid, heq]
      rfl
    exact hno ⟨u, hu, h.leader parent hparent hdesc u hu hpid (heq ▸ hkey), hpid⟩

/-- **The tracked set is the live process tree iff leaders outlive the forks of their
processes.**  Let the map hold the key of the live task `root` only, and let it have room
for every child that is to be stored.  Then in all states of a run every live task that
descends from `root` is found by `lookup_tracked` if and only if each descendant that forks
or clones belongs to a process whose leader, a descendant itself, is still alive. -/
theorem tracks_descendants_iff (s t : Machine) (root : Task) (hstart : StartsAt s root)
    (hroot : ∀ l ∈ s.live, l.descends ↔ l.task.pid = root.pid) (events : List TaskAction)
    (hrun : exec machineStep s events = some t) (hroom : Along machineStep ForkHasRoom s events) :
    Always machineStep TracksDescendants s events ↔
      Along machineStep ForksUnderLeader s events := by
  obtain ⟨r, hr, rfl⟩ := hstart.live
  have hself : ∀ l ∈ s.live, l.descends → l = r := by
    intro l hl hdesc
    exact s.eq_of_pid_eq hl hr ((hroot l hl).mp hdesc)
  have htree : TreeKeys r.task.cgroup_id s := by
    constructor
    · intro k hk
      exact ⟨r, hr, ((hstart.tracked k).mp hk).symm⟩
    · intro l hl hdesc
      rw [hself l hl hdesc]
    · intro l _ _ u hu _ hkey
      exact (hroot u hu).mpr (pid_eq_of_lookupKey_eq ((hstart.tracked _).mp hkey))
  have hfound : TracksDescendants s := by
    intro l hl hdesc
    rw [lookup_tracked_isSome_iff, hself l hl hdesc]
    exact (hstart.tracked _).mpr rfl
  constructor
  · intro halways
    rw [along_iff_forall]
    rintro pre a post u rfl hu
    obtain ⟨u', hu', hrest⟩ := (exec_append_eq_some machineStep).mp hrun
    obtain rfl : u' = u := Option.some.inj (hu'.symm.trans hu)
    obtain ⟨v, hv, -⟩ := (exec_cons_eq_some machineStep).mp hrest
    have htree' : TreeKeys r.task.cgroup_id u' :=
      invariant_of_step htree (fun _ _ _ h => h.step) hu
    have hafter : TracksDescendants v :=
      halways (pre ++ [a]) ⟨post, by simp⟩ v ((exec_concat_eq_some machineStep).mpr ⟨u', hu, hv⟩)
    obtain ⟨parent, hparent, pid, hfree, thread, now, rfl, rfl⟩ | ⟨e, he, now, rfl, -⟩ |
      ⟨e, he, nr, now, rfl, -⟩ := machineStep_cases hv
    · intro l hl hpid hdesc
      obtain rfl := u'.eq_of_pid_eq hl hparent hpid
      by_contra hno
      exact htree'.not_tracked_of_no_leader hparent hdesc hno hfree thread now hafter
    · trivial
    · trivial
  · intro hleads
    have hboth : Along machineStep (fun s a => ForkHasRoom s a ∧ ForksUnderLeader s a) s events :=
      along_iff_forall.mpr fun pre a post u heq hu =>
        ⟨along_iff_forall.mp hroom pre a post u heq hu,
          along_iff_forall.mp hleads pre a post u heq hu⟩
    have hinv := always_of_invariant
      (Q := fun s => TreeKeys r.task.cgroup_id s ∧ TracksDescendants s) ⟨htree, hfound⟩
      (fun s a s' h hcond hstep => ⟨h.1.step hstep, h.2.step h.1 hcond.1 hcond.2 hstep⟩) hboth
    exact hinv.imp fun _ h => h.2

/-- Task `100` clones a thread, which forks; then the leader exits. -/
theorem tracks_descendants_iff_at :
    Always machineStep TracksDescendants (aloneAt100 .empty)
      [.fork 100 101 true 0, .fork 101 102 false 0, .exit 100 0] :=
  (tracks_descendants_iff (aloneAt100 .empty) _ _ (aloneAt100_startsAt _) (by decide)
    [.fork 100 101 true 0, .fork 101 102 false 0, .exit 100 0] rfl (by decide)).mpr (by decide)

/-- Task `100` clones a thread, then the leader exits, and only then the thread forks: the
child `102` is alive, descends from the root, and is not found. -/
theorem not_tracksDescendants_orphaned_thread :
    ¬ Always machineStep TracksDescendants (aloneAt100 .empty)
      [.fork 100 101 true 0, .exit 100 0, .fork 101 102 false 0] := by
  intro h
  have hlast := h.at_end
  exact absurd hlast (by decide)

end MiniCi
