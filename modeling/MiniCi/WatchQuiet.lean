/-
# Gradings and quiet periods (`inotify_watch.c`)

Every grading after the first is meant to follow a quiet period: the timer has been armed when a
file was saved, and has expired.  It does so unless a batch lists inotify before the timer.  Then
the expiration that `epoll` has reported is cancelled by `arm_debounce`, and the client is run all
the same, while the timer is armed (`Overtaken`); when the timer expires it is run again.

`grades_quiet_iff` says that this is the only way in which a run goes wrong.
-/
import MiniCi.Watch

namespace MiniCi

open Runs

variable {watches : List WatchEntry} {past acts : List WatchAction} {s s' t : Watcher}

/-! ## The timer -/

/-- The timer has expired, and has neither been read nor armed since. -/
def Unread : List WatchAction → Prop :=
  Since (fun _ a => a = .expire) fun a => a = .arm_debounce ∨ a = .run_client

theorem expired_iff (hrun : exec (watchStep watches) .initial past = some s) :
    s.timer = .expired ↔ Unread past := by
  refine invariant_of_history (Q := fun past (s : Watcher) => s.timer = .expired ↔ Unread past)
    ?_ ?_ hrun
  · exact iff_of_false (by decide) not_since_nil
  · intro past u a u' _ ih hstep
    unfold Unread at *
    rw [since_concat]
    cases watched_of_step hstep with
    | run_client hloc => cases u.timer <;> simp [Timer.read]
    | _ => simp [ih]

/-! ## Batches -/

/-- `epoll_wait` returns. -/
def WatchAction.IsEpoll : WatchAction → Prop
  | .epoll_wait _ => True
  | _ => False

/-- The batch being handled lists inotify before the timer. -/
def InotifyFirst : List WatchAction → Prop :=
  Since (fun _ a => a = .epoll_wait [.ifd, .tfd]) WatchAction.IsEpoll

/-- The batch being handled lists inotify before the timer, the timer has been armed for it, and
has not expired since. -/
def Overtaken : List WatchAction → Prop :=
  Since (fun past a => a = .arm_debounce ∧ InotifyFirst past) fun a => a.IsEpoll ∨ a = .expire

/-- The expiration that was reported is gone. -/
theorem not_unread_of_overtaken (h : Overtaken past) : ¬ Unread past := by
  obtain ⟨before, a, after, rfl, ⟨rfl, -⟩, hafter⟩ := h
  intro hunread
  obtain ⟨-, y, hy, rfl⟩ := hunread.mem_after (.inl rfl) fun _ h => WatchAction.noConfusion h
  exact hafter _ hy (.inr rfl)

theorem InotifyFirst.concat {a : WatchAction} (h : InotifyFirst past) (ha : ¬ a.IsEpoll) :
    InotifyFirst (past ++ [a]) :=
  since_concat.mpr (.inr ⟨ha, h⟩)

theorem Overtaken.concat {a : WatchAction} (h : Overtaken past) (ha : ¬ a.IsEpoll)
    (hexpire : a ≠ .expire) : Overtaken (past ++ [a]) :=
  since_concat.mpr (.inr ⟨fun hor => hor.elim ha hexpire, h⟩)

/-- What holds of the entries still to handle: the timer has expired if it is among them, unless
inotify has overtaken it. -/
def BatchOk (past : List WatchAction) (timer : Timer) : WatchAt → Prop
  | .handling rest =>
    rest.Nodup ∧ (.tfd ∈ rest → timer = .expired ∨ Overtaken past) ∧
      ∀ rest', rest = .ifd :: rest' → .tfd ∈ rest' → InotifyFirst past
  | .arming rest => (Fd.ifd :: rest).Nodup ∧ (.tfd ∈ rest → InotifyFirst past)
  | .grading rest => (Fd.tfd :: rest).Nodup
  | .left => True

section BatchOk

variable {timer : Timer} {loc : WatchAt} {rest events : List Fd} {a : WatchAction}

/-- A step that neither waits nor expires changes nothing about the entries. -/
theorem BatchOk.concat (h : BatchOk past timer loc) (ha : ¬ a.IsEpoll) (hexpire : a ≠ .expire) :
    BatchOk (past ++ [a]) timer loc := by
  cases loc with
  | handling rest =>
    obtain ⟨hnodup, htfd, hfirst⟩ := h
    refine ⟨hnodup, fun hmem => ?_, fun rest' heq hmem => (hfirst rest' heq hmem).concat ha⟩
    exact (htfd hmem).imp id fun hover => hover.concat ha hexpire
  | arming rest => exact ⟨h.1, fun hmem => (h.2 hmem).concat ha⟩
  | grading rest => exact h
  | left => trivial

theorem BatchOk.expire (h : BatchOk past timer loc) : BatchOk (past ++ [.expire]) .expired loc := by
  cases loc with
  | handling rest =>
    exact ⟨h.1, fun _ => .inl rfl, fun rest' heq hmem => (h.2.2 rest' heq hmem).concat id⟩
  | arming rest => exact ⟨h.1, fun hmem => (h.2 hmem).concat id⟩
  | grading rest => exact h
  | left => trivial

/-- Of two descriptors one is first and the other second. -/
theorem eq_singleton_of_nodup {fd fd' : Fd} (hne : fd ≠ fd') (h : (fd :: rest).Nodup)
    (hmem : fd' ∈ rest) : rest = [fd'] := by
  rw [List.nodup_cons] at h
  have hall : ∀ x ∈ rest, x = fd' := by
    intro x hx
    have hxfd : x ≠ fd := by
      rintro rfl
      exact h.1 hx
    revert hne hxfd
    cases x <;> cases fd <;> cases fd' <;> simp
  have hrep := List.eq_replicate_of_mem hall
  have hlen : rest.length ≤ 1 := by
    have hnodup := h.2
    rw [hrep, List.nodup_replicate] at hnodup
    exact hnodup
  have hpos : 0 < rest.length := List.length_pos_of_mem hmem
  rw [hrep, show rest.length = 1 from by omega]
  rfl

/-- All that has been reported is so at first. -/
theorem batchOk_epoll_wait {s : Watcher} (h : s.Reports events) :
    BatchOk (past ++ [.epoll_wait events]) s.timer (.handling events) := by
  obtain ⟨hnodup, hready, -⟩ := h
  refine ⟨hnodup, fun hmem => .inl (hready .tfd hmem), ?_⟩
  rintro rest rfl hmem
  rw [eq_singleton_of_nodup (by decide) hnodup hmem]
  exact since_concat.mpr (.inl rfl)

theorem BatchOk.read_nothing (h : BatchOk past timer (.handling (.ifd :: rest))) :
    BatchOk past timer (.handling rest) := by
  obtain ⟨hnodup, htfd, -⟩ := h
  rw [List.nodup_cons] at hnodup
  refine ⟨hnodup.2, fun hmem => htfd (List.mem_cons_of_mem _ hmem), ?_⟩
  rintro rest' rfl -
  exact absurd List.mem_cons_self hnodup.1

/-- **`arm_debounce` overtakes the timer** if that is still to handle. -/
theorem BatchOk.arm_debounce (h : BatchOk past timer (.arming rest)) :
    BatchOk (past ++ [.arm_debounce]) .armed (.handling rest) := by
  obtain ⟨hnodup, hfirst⟩ := h
  rw [List.nodup_cons] at hnodup
  refine ⟨hnodup.2, fun hmem => .inr (since_concat.mpr (.inl ⟨rfl, hfirst hmem⟩)), ?_⟩
  rintro rest' rfl -
  exact absurd List.mem_cons_self hnodup.1

theorem BatchOk.client_exit (h : BatchOk past timer (.grading rest)) :
    BatchOk past timer (.handling rest) := by
  have hnodup := List.nodup_cons.mp h
  refine ⟨hnodup.2, fun hmem => absurd hmem hnodup.1, ?_⟩
  rintro rest' rfl hmem
  exact absurd (List.mem_cons_of_mem _ hmem) hnodup.1

end BatchOk

theorem batchOk_step {u u' : Watcher} {a : WatchAction} (h : BatchOk past u.timer u.loc)
    (hstep : watchStep watches u a = some u') : BatchOk (past ++ [a]) u'.timer u'.loc := by
  cases watched_of_step hstep with
  | change ie => exact h.concat id WatchAction.noConfusion
  | expire htimer => exact h.expire
  | sigint => exact h.concat id WatchAction.noConfusion
  | epoll_wait hloc hrunning hreports => exact batchOk_epoll_wait hreports
  | read_nothing hloc hread =>
    rw [hloc] at h
    exact h.read_nothing.concat id WatchAction.noConfusion
  | read_ifd hloc hread hne =>
    rw [hloc] at h
    exact ⟨h.1, fun hmem => (h.2.2 _ rfl hmem).concat id⟩
  | arm_debounce hloc =>
    rw [hloc] at h
    exact h.arm_debounce
  | run_client hloc =>
    rw [hloc] at h
    exact h.1
  | client_exit hloc =>
    rw [hloc] at h
    exact h.client_exit.concat id WatchAction.noConfusion
  | leave hloc hrunning => trivial

theorem batchOk (hrun : exec (watchStep watches) .initial past = some s) :
    BatchOk past s.timer s.loc := by
  refine invariant_of_history (Q := fun past (s : Watcher) => BatchOk past s.timer s.loc) ?_ ?_ hrun
  · exact (by decide : [Fd.tfd].Nodup)
  · exact fun past u a u' _ => batchOk_step

/-- **A grading starts on an unread expiration unless inotify has overtaken it.** -/
theorem unread_or_overtaken {u : Watcher}
    (hrun : exec (watchStep watches) .initial past = some s)
    (hstep : watchStep watches s .run_client = some u) : Unread past ∨ Overtaken past := by
  have hbatch := batchOk hrun
  cases watched_of_step hstep with
  | run_client hloc =>
    rw [hloc] at hbatch
    exact (hbatch.2.1 List.mem_cons_self).imp (expired_iff hrun).mp id

/-! ## From a change to its timer -/

/-- The loop has read events, and has not armed the timer since. -/
def ReadSince : List WatchAction → Prop :=
  Since (fun _ a => ∃ events, a = .read_ifd events ∧ events ≠ []) (· = .arm_debounce)

theorem arming_of_readSince (hrun : exec (watchStep watches) .initial past = some s)
    (h : ReadSince past) : ∃ rest, s.loc = .arming rest := by
  refine invariant_of_history (Q := fun past (s : Watcher) =>
    ReadSince past → ∃ rest, s.loc = .arming rest) ?_ ?_ hrun h
  · exact fun h => absurd h not_since_nil
  · intro past u a u' _ ih hstep h
    rcases since_concat.mp h with ⟨events, rfl, hne⟩ | ⟨harm, h⟩
    · cases watched_of_step hstep with
      | read_nothing => exact absurd rfl hne
      | read_ifd => exact ⟨_, rfl⟩
    · obtain ⟨rest, hrest⟩ := ih h
      cases watched_of_step hstep with
      | change => exact ⟨rest, hrest⟩
      | expire => exact ⟨rest, hrest⟩
      | sigint => exact ⟨rest, hrest⟩
      | arm_debounce => exact absurd rfl harm
      | epoll_wait hloc => rw [hrest] at hloc; cases hloc
      | read_nothing hloc => rw [hrest] at hloc; cases hloc
      | read_ifd hloc => rw [hrest] at hloc; cases hloc
      | run_client hloc => rw [hrest] at hloc; cases hloc
      | client_exit hloc => rw [hrest] at hloc; cases hloc
      | leave hloc => rw [hrest] at hloc; cases hloc

/-- Between the reading of a change and an unread expiration the timer has been armed and has
expired. -/
theorem expire_mem_of_unread {events : List InotifyEvent} {between : List WatchAction} {u : Watcher}
    (hrun : exec (watchStep watches) .initial (past ++ .read_ifd events :: between) = some s)
    (hne : events ≠ []) (hstep : watchStep watches s .run_client = some u)
    (h : Unread (past ++ .read_ifd events :: between)) : .expire ∈ between := by
  have hnot : ¬ ReadSince (past ++ .read_ifd events :: between) := by
    intro hread
    obtain ⟨rest, hrest⟩ := arming_of_readSince hrun hread
    cases watched_of_step hstep with
    | run_client hloc => rw [hrest] at hloc; cases hloc
  have harm : .arm_debounce ∈ between := by
    by_contra hnone
    refine hnot ⟨past, _, between, rfl, ⟨events, rfl, hne⟩, ?_⟩
    rintro a ha rfl
    exact hnone ha
  obtain ⟨before, after, rfl⟩ := List.append_of_mem harm
  rw [← List.cons_append, ← List.append_assoc] at h
  obtain ⟨-, a, ha, rfl⟩ := h.mem_after (.inl rfl) fun _ h => WatchAction.noConfusion h
  exact List.mem_append_right _ (List.mem_cons_of_mem _ ha)

/-! ## The loop gets to every change -/

/-- A step of the loop. -/
def WatchAction.ofLoop : WatchAction → Bool
  | .change _ | .expire | .sigint => false
  | _ => true

/-- At most so many steps until the loop has read events, or has armed the timer, if the batch
has these entries: of a batch without inotify, and of one more that only the timer can be in. -/
def batchCost : Timer → List Fd → ℕ
  | timer, [] => if timer = .disarmed then 1 else 5
  | timer, .tfd :: rest => 2 + batchCost timer.read.2 rest
  | _, .ifd :: _ => 0

def locCost (timer : Timer) : WatchAt → ℕ
  | .handling rest => batchCost timer rest
  | .arming rest => 1 + batchCost .armed rest
  | .grading rest => 1 + batchCost timer rest
  | .left => 0

theorem batchCost_disarmed_le (timer : Timer) (rest : List Fd) :
    batchCost .disarmed rest ≤ batchCost timer rest := by
  induction rest generalizing timer with
  | nil =>
    rw [batchCost, batchCost, if_pos rfl]
    split_ifs <;> omega
  | cons fd rest ih =>
    cases fd with
    | ifd => exact Nat.le_refl _
    | tfd => exact Nat.add_le_add_left (ih timer.read.2) 2

theorem batchCost_expired_le (rest : List Fd) :
    batchCost .expired rest ≤ batchCost .armed rest := by
  cases rest with
  | nil => exact Nat.le_refl _
  | cons fd rest =>
    cases fd with
    | ifd => exact Nat.le_refl _
    | tfd => exact Nat.add_le_add_left (batchCost_disarmed_le _ rest) 2

theorem batchCost_le (timer : Timer) {rest : List Fd} (h : .tfd ∉ rest) :
    batchCost timer rest ≤ if timer = .disarmed then 1 else 5 := by
  rcases rest with _ | ⟨fd, rest⟩
  · exact Nat.le_refl _
  · cases fd with
    | ifd => exact Nat.zero_le _
    | tfd => exact absurd List.mem_cons_self h

theorem batchCost_le_of_nodup (timer : Timer) {rest : List Fd} (h : rest.Nodup) :
    batchCost timer rest ≤ 7 := by
  have hbound : ∀ timer : Timer, (if timer = .disarmed then 1 else 5) ≤ 5 := by
    intro timer
    split_ifs <;> omega
  rcases rest with _ | ⟨fd, rest⟩
  · exact (hbound timer).trans (by omega)
  · cases fd with
    | ifd => exact Nat.zero_le _
    | tfd =>
      have hrest := batchCost_le timer.read.2 (List.nodup_cons.mp h).1
      have hle := hbound timer.read.2
      rw [batchCost]
      omega

/-- The number of events that the loop has read. -/
def takenCount (past : List WatchAction) : ℕ := (past.flatMap WatchAction.taken).length

/-- The loop is on its way to the `k`-th event, or has read it and is about to arm the timer. -/
structure Heading (watches : List WatchEntry) (k : ℕ) (past : List WatchAction) (s : Watcher) :
    Prop where
  reached : exec (watchStep watches) .initial past = some s
  running : s.g_running = true
  inside : s.loc ≠ .left
  queued : k ≤ (past.flatMap WatchAction.queued).length
  arming : k ≤ takenCount past → ∃ rest, s.loc = .arming rest

/-- The timer is armed for the `k`-th event; or the user stops the program. -/
def Arrived (k : ℕ) (past : List WatchAction) (a : WatchAction) : Prop :=
  a = .sigint ∨ a = .arm_debounce ∧ k ≤ takenCount past

/-- A bound on the steps of the loop until then. -/
def headingRank (k : ℕ) (past : List WatchAction) (s : Watcher) : ℕ :=
  9 * (k - takenCount past) + locCost s.timer s.loc

section Heading

variable {k : ℕ} {a : WatchAction}

@[simp] theorem takenCount_concat (past : List WatchAction) (a : WatchAction) :
    takenCount (past ++ [a]) = takenCount past + a.taken.length := by
  simp [takenCount]

theorem Heading.concat (h : Heading watches k past s) (hstep : watchStep watches s a = some s')
    (hrunning : s'.g_running = true) (hinside : s'.loc ≠ .left)
    (harming : k ≤ takenCount (past ++ [a]) → ∃ rest, s'.loc = .arming rest) :
    Heading watches k (past ++ [a]) s' where
  reached := (exec_concat_eq_some _).mpr ⟨s, h.reached, hstep⟩
  running := hrunning
  inside := hinside
  queued := by
    have := h.queued
    rw [List.flatMap_append, List.length_append]
    omega
  arming := harming

/-- Elsewhere than in front of `arm_debounce` the event is still to be read. -/
theorem Heading.not_taken (h : Heading watches k past s) (hloc : ∀ rest, s.loc ≠ .arming rest) :
    takenCount past < k := by
  by_contra hge
  obtain ⟨rest, hrest⟩ := h.arming (Nat.le_of_not_lt hge)
  exact hloc rest hrest

theorem Heading.queue_ne_nil (h : Heading watches k past s) (hlt : takenCount past < k) :
    s.queue ≠ [] := by
  intro hnil
  have hqueued := h.queued
  rw [queued_eq h.reached, hnil, List.append_nil] at hqueued
  unfold takenCount at hlt
  omega

/-- What a batch costs before it is waited for. -/
theorem batchCost_reports {events : List Fd} (hne : events ≠ []) (h : s.Reports events) :
    batchCost s.timer events + 1 ≤ batchCost s.timer [] := by
  rcases events with _ | ⟨fd, rest⟩
  · exact absurd rfl hne
  · cases fd with
    | ifd =>
      rw [batchCost, batchCost]
      split_ifs <;> omega
    | tfd =>
      have htimer : s.timer = .expired := h.2.1 .tfd List.mem_cons_self
      have hrest := batchCost_le .disarmed (List.nodup_cons.mp h.1).1
      rw [if_pos rfl] at hrest
      rw [htimer, batchCost, batchCost]
      show 2 + batchCost .disarmed rest + 1 ≤ 5
      omega

/-- A step of the loop that reads nothing. -/
theorem Heading.move (h : Heading watches k past s) (hstep : watchStep watches s a = some s')
    (htaken : a.taken = []) (hlt : takenCount past < k) (hrunning : s'.g_running = true)
    (hinside : s'.loc ≠ .left)
    (hcost : locCost s'.timer s'.loc + 1 ≤ locCost s.timer s.loc) :
    Heading watches k (past ++ [a]) s' ∧
      headingRank k (past ++ [a]) s' + 1 ≤ headingRank k past s := by
  have hsame : takenCount (past ++ [a]) = takenCount past := by simp [htaken]
  refine ⟨h.concat hstep hrunning hinside fun hk => ?_, ?_⟩
  · rw [hsame] at hk
    exact absurd hk (Nat.not_le.mpr hlt)
  · unfold headingRank
    rw [hsame]
    omega

/-- Reading costs less than what there is one event less to read for. -/
theorem Heading.read {rest : List Fd} {events : List InotifyEvent}
    (h : Heading watches k past s) (hstep : watchStep watches s (.read_ifd events) = some s')
    (hloc : s.loc = .handling (.ifd :: rest)) (hne : events ≠ []) (hloc' : s'.loc = .arming rest)
    (hrunning : s'.g_running = true) :
    Heading watches k (past ++ [.read_ifd events]) s' ∧
      headingRank k (past ++ [.read_ifd events]) s' + 1 ≤ headingRank k past s := by
  have hlt := h.not_taken (by simp [hloc])
  have hbatch := batchOk h.reached
  rw [hloc] at hbatch
  have hrest := batchCost_le_of_nodup .armed (List.nodup_cons.mp hbatch.1).2
  have hpos : 0 < events.length := List.length_pos_iff.mpr hne
  refine ⟨h.concat hstep hrunning (by simp [hloc']) fun _ => ⟨rest, hloc'⟩, ?_⟩
  unfold headingRank
  rw [takenCount_concat, hloc', hloc]
  simp only [WatchAction.taken, locCost, batchCost]
  omega

theorem locCost_expired_le (loc : WatchAt) : locCost .expired loc ≤ locCost .armed loc := by
  cases loc with
  | handling rest => exact batchCost_expired_le rest
  | arming rest => exact Nat.le_refl _
  | grading rest => exact Nat.add_le_add_left (batchCost_expired_le rest) 1
  | left => exact Nat.le_refl _

/-- **Every step of the loop brings it nearer to the event**, and no other step takes it further
away. -/
theorem Heading.step (h : Heading watches k past s) (hstep : watchStep watches s a = some s')
    (hgoal : ¬ Arrived k past a) :
    Heading watches k (past ++ [a]) s' ∧
      headingRank k (past ++ [a]) s' + (if a.ofLoop then 1 else 0) ≤ headingRank k past s := by
  cases watched_of_step hstep with
  | change ie =>
    refine ⟨h.concat hstep h.running h.inside fun hk => ?_, ?_⟩
    · exact h.arming (by simpa [WatchAction.taken] using hk)
    · simp [headingRank, WatchAction.taken, WatchAction.ofLoop]
  | expire htimer =>
    refine ⟨h.concat hstep h.running h.inside fun hk => ?_, ?_⟩
    · exact h.arming (by simpa [WatchAction.taken] using hk)
    · have hle := locCost_expired_le s.loc
      simpa [headingRank, WatchAction.taken, WatchAction.ofLoop, htimer] using hle
  | sigint => exact absurd (.inl rfl) hgoal
  | @epoll_wait events hloc hrunning hreports =>
    have hlt := h.not_taken (by simp [hloc])
    have hne : events ≠ [] := fun hnil => (hreports.2.2 hnil).1 (h.queue_ne_nil hlt)
    refine h.move hstep rfl hlt hrunning WatchAt.noConfusion ?_
    rw [hloc]
    exact batchCost_reports hne hreports
  | read_nothing hloc hread =>
    have hlt := h.not_taken (by simp [hloc])
    exact absurd hread (readEvents_ne_nil (h.queue_ne_nil hlt))
  | read_ifd hloc hread hne => exact h.read hstep hloc hne rfl h.running
  | @arm_debounce rest hloc =>
    have hlt : takenCount past < k := by
      by_contra hge
      exact hgoal (.inr ⟨rfl, Nat.le_of_not_lt hge⟩)
    refine h.move hstep rfl hlt h.running WatchAt.noConfusion ?_
    rw [hloc]
    show batchCost .armed rest + 1 ≤ 1 + batchCost .armed rest
    omega
  | @run_client rest hloc =>
    refine h.move hstep rfl (h.not_taken (by simp [hloc])) h.running WatchAt.noConfusion ?_
    rw [hloc]
    show 1 + batchCost s.timer.read.2 rest + 1 ≤ 2 + batchCost s.timer.read.2 rest
    omega
  | @client_exit rest hloc =>
    refine h.move hstep rfl (h.not_taken (by simp [hloc])) h.running WatchAt.noConfusion ?_
    rw [hloc]
    show batchCost s.timer rest + 1 ≤ 1 + batchCost s.timer rest
    omega
  | leave hloc hrunning =>
    rw [h.running] at hrunning
    cases hrunning

end Heading

/-- Without Ctrl+C the loop goes on. -/
theorem running_of_not_sigint (hrun : exec (watchStep watches) .initial past = some s)
    (hint : .sigint ∉ past) : s.g_running = true ∧ s.loc ≠ .left := by
  refine invariant_of_history (Q := fun past (s : Watcher) =>
    .sigint ∉ past → s.g_running = true ∧ s.loc ≠ .left) ?_ ?_ hrun hint
  · exact fun _ => ⟨rfl, WatchAt.noConfusion⟩
  · intro past u a u' _ ih hstep hnot
    rw [List.mem_append, not_or, List.mem_singleton] at hnot
    obtain ⟨hrunning, hinside⟩ := ih hnot.1
    cases watched_of_step hstep with
    | sigint => exact absurd rfl hnot.2
    | change => exact ⟨hrunning, hinside⟩
    | expire => exact ⟨hrunning, hinside⟩
    | leave hloc hstopped =>
      rw [hrunning] at hstopped
      cases hstopped
    | _ => exact ⟨hrunning, WatchAt.noConfusion⟩

/-- When there is something to read the loop can take a step; if the client is running, when it
has ended. -/
theorem exists_step_of_queue (hrunning : s.g_running = true) (hinside : s.loc ≠ .left)
    (hqueue : s.queue ≠ []) : ∃ a, a.ofLoop = true ∧ (watchStep watches s a).isSome := by
  rcases hloc : s.loc with rest | rest | rest | _
  · rcases rest with _ | ⟨fd, rest⟩
    · have hreports : s.Reports [.ifd] := by
        refine ⟨by decide, ?_, fun h => absurd h (List.cons_ne_nil _ _)⟩
        intro fd hfd
        rw [List.mem_singleton.mp hfd]
        exact hqueue
      refine ⟨.epoll_wait [.ifd], rfl, ?_⟩
      simp [watchStep, hloc, hrunning, hreports]
    · cases fd with
      | ifd =>
        refine ⟨.read_ifd (readEvents EVENT_BUF_LEN s.queue).1, rfl, ?_⟩
        simp [watchStep, hloc, readEvents_ne_nil hqueue]
      | tfd => exact ⟨.run_client, rfl, by simp [watchStep, hloc]⟩
  · exact ⟨.arm_debounce, rfl, by simp [watchStep, hloc]⟩
  · exact ⟨.client_exit, rfl, by simp [watchStep, hloc]⟩
  · exact absurd hloc hinside

theorem locCost_le {timer : Timer} {loc : WatchAt} (h : BatchOk past timer loc) :
    locCost timer loc ≤ 8 := by
  cases loc with
  | handling rest => exact (batchCost_le_of_nodup timer h.1).trans (by omega)
  | arming rest =>
    exact Nat.add_le_add_left (batchCost_le_of_nodup .armed (List.nodup_cons.mp h.1).2) 1
  | grading rest =>
    exact Nat.add_le_add_left (batchCost_le_of_nodup timer (List.nodup_cons.mp h).2) 1
  | left => exact Nat.zero_le _

/-- The timer is armed when all events of the past have been read. -/
def ArmedFor (past future : List WatchAction) : Prop :=
  ∃ before after, future = before ++ .arm_debounce :: after ∧
    past.flatMap WatchAction.queued <+: (past ++ before).flatMap WatchAction.taken

/-- As many events have been read as have come: they are the same. -/
theorem queued_prefix_taken {before : List WatchAction}
    (hrun : exec (watchStep watches) .initial (past ++ before) = some s)
    (hle : (past.flatMap WatchAction.queued).length ≤ takenCount (past ++ before)) :
    past.flatMap WatchAction.queued <+: (past ++ before).flatMap WatchAction.taken := by
  have hqueued : past.flatMap WatchAction.queued <+:
      (past ++ before).flatMap WatchAction.queued := by
    rw [List.flatMap_append]
    exact List.prefix_append _ _
  have htaken : (past ++ before).flatMap WatchAction.taken <+:
      (past ++ before).flatMap WatchAction.queued := by
    rw [queued_eq hrun]
    exact List.prefix_append _ _
  exact List.prefix_of_prefix_length_le hqueued htaken hle

/-- **The timer is armed for every change** before the loop has taken so many steps. -/
theorem armedFor_of_count {future : List WatchAction}
    (hs : exec (watchStep watches) .initial past = some s) (hqueue : s.queue ≠ [])
    (hrun : exec (watchStep watches) s future = some t) (hint : .sigint ∉ past ++ future)
    (hcount : 9 * (s.queue.length + 1) ≤ future.countP WatchAction.ofLoop) :
    ArmedFor past future := by
  by_contra hnot
  have hlen : (past.flatMap WatchAction.queued).length = takenCount past + s.queue.length := by
    rw [queued_eq hs, List.length_append]
    rfl
  have hpos : 0 < s.queue.length := List.length_pos_iff.mpr hqueue
  rw [List.mem_append, not_or] at hint
  obtain ⟨hrunning, hinside⟩ := running_of_not_sigint hs hint.1
  have hhead : Heading watches (past.flatMap WatchAction.queued).length past s :=
    { reached := hs, running := hrunning, inside := hinside, queued := Nat.le_refl _
      arming := fun h => by omega }
  have hbound := count_le_rank hhead (fun _ _ _ _ h => h.step) hrun ?_
  · have hcost := locCost_le (batchOk hs)
    unfold headingRank at hbound
    omega
  · rintro before a after rfl (rfl | ⟨rfl, hk⟩)
    · exact hint.2 (List.mem_append_right _ List.mem_cons_self)
    · obtain ⟨u, hu, -⟩ := (exec_append_eq_some _).mp hrun
      have hreached := (exec_append_eq_some (watchStep watches)).mpr ⟨s, hs, hu⟩
      exact hnot ⟨before, after, rfl, queued_prefix_taken hreached hk⟩

/-! ## Every grading follows a quiet period -/

/-- What watch mode promises of a run. -/
structure GradesQuietPeriods (watches : List WatchEntry) (acts : List WatchAction) : Prop where
  /-- a grading reads an expiration that no `arm_debounce` has cancelled and no other grading has
  read -/
  consumes : ∀ past future, acts = past ++ .run_client :: future → Unread past
  /-- from when a change is read until the timer armed for it has expired there is no grading -/
  waits : ∀ past events between future,
    acts = past ++ .read_ifd events :: (between ++ .run_client :: future) → events ≠ [] →
      .expire ∈ between
  /-- after every change the timer is armed for it -/
  followed : ∀ past ie future s, acts = past ++ .change ie :: future → .sigint ∉ acts →
    exec (watchStep watches) .initial (past ++ [.change ie]) = some s →
      9 * (s.queue.length + 1) ≤ future.countP WatchAction.ofLoop →
        ArmedFor (past ++ [.change ie]) future
  /-- and the loop does not get stuck before that -/
  goes_on : ∀ past future s, acts = past ++ future → .sigint ∉ past →
    exec (watchStep watches) .initial past = some s → s.queue ≠ [] →
      ∃ a, a.ofLoop = true ∧ (watchStep watches s a).isSome

/-- In no batch in which inotify comes before the timer does the timer's turn come before it has
expired again. -/
def NeverOvertaken (acts : List WatchAction) : Prop :=
  ∀ past future, acts = past ++ .run_client :: future → ¬ Overtaken past

/-- **Every grading follows a quiet period of its own iff inotify never overtakes the timer in a
batch.** -/
theorem grades_quiet_iff (hrun : exec (watchStep watches) .initial acts = some t) :
    GradesQuietPeriods watches acts ↔ NeverOvertaken acts := by
  have hgrading : ∀ past future, acts = past ++ .run_client :: future →
      ∃ s u, exec (watchStep watches) .initial past = some s ∧
        watchStep watches s .run_client = some u := by
    rintro past future rfl
    obtain ⟨s, hs, hrest⟩ := (exec_append_eq_some _).mp hrun
    obtain ⟨u, hu, -⟩ := (exec_cons_eq_some _).mp hrest
    exact ⟨s, u, hs, hu⟩
  constructor
  · intro h past future heq hover
    exact not_unread_of_overtaken hover (h.consumes past future heq)
  · intro h
    have hconsumes : ∀ past future, acts = past ++ .run_client :: future → Unread past := by
      intro past future heq
      obtain ⟨s, u, hs, hu⟩ := hgrading past future heq
      exact (unread_or_overtaken hs hu).resolve_right (h past future heq)
    refine ⟨hconsumes, ?_, ?_, ?_⟩
    · intro past events between future heq hne
      have heq' : acts = (past ++ .read_ifd events :: between) ++ .run_client :: future := by
        rw [heq, List.append_assoc, List.cons_append]
      obtain ⟨s, u, hs, hu⟩ := hgrading _ _ heq'
      exact expire_mem_of_unread hs hne hu (hconsumes _ _ heq')
    · rintro past ie future s rfl hint hs hcount
      rw [← List.singleton_append, ← List.append_assoc] at hrun hint
      obtain ⟨u, hu, hfuture⟩ := (exec_append_eq_some _).mp hrun
      rw [hs] at hu
      obtain rfl := Option.some.inj hu
      refine armedFor_of_count hs ?_ hfuture hint hcount
      obtain ⟨v, -, hv⟩ := (exec_concat_eq_some _).mp hs
      obtain rfl := Option.some.inj hv
      exact List.append_ne_nil_of_right_ne_nil _ (List.cons_ne_nil _ _)
    · intro past future s _ hint hs hqueue
      obtain ⟨hrunning, hinside⟩ := running_of_not_sigint hs hint
      exact exists_step_of_queue hrunning hinside hqueue

/-- Inotify overtakes the timer only in a batch that lists it first. -/
theorem Overtaken.mem (h : Overtaken past) : .epoll_wait [.ifd, .tfd] ∈ past := by
  obtain ⟨before, a, after, rfl, ⟨-, hfirst⟩, -⟩ := h
  obtain ⟨before, a, between, rfl, rfl, -⟩ := hfirst
  simp

/-- The event of the only file that is watched. -/
def savedEvent : InotifyEvent := ⟨1, [], Nat.zero_le _⟩

/-- The file is saved once, and graded. -/
def savedOnce : List WatchAction :=
  [.client_exit, .change savedEvent, .epoll_wait [.ifd], .read_ifd [savedEvent], .arm_debounce,
    .expire, .epoll_wait [.tfd], .run_client, .client_exit]

theorem grades_quiet_saved_once : GradesQuietPeriods [⟨1, CStr.ascii "a.c"⟩] savedOnce := by
  refine (grades_quiet_iff (Option.some_get (by decide)).symm).mpr ?_
  intro past future heq hover
  have hmem : .epoll_wait [.ifd, .tfd] ∈ savedOnce := by
    rw [heq]
    exact List.mem_append_left _ hover.mem
  exact absurd hmem (by decide)

/-- The file is saved again when the timer has just expired, and `epoll` reports both. -/
def savedAgain : List WatchAction :=
  [.client_exit, .change savedEvent, .epoll_wait [.ifd], .read_ifd [savedEvent], .arm_debounce,
    .expire, .change savedEvent, .epoll_wait [.ifd, .tfd], .read_ifd [savedEvent], .arm_debounce,
    .run_client, .expire, .client_exit, .epoll_wait [.tfd], .run_client]

/-- It is graded at once, and once more when the timer has expired. -/
theorem saved_again_graded_twice :
    (exec (watchStep [⟨1, CStr.ascii "a.c"⟩]) .initial savedAgain).isSome ∧
      ¬ GradesQuietPeriods [⟨1, CStr.ascii "a.c"⟩] savedAgain := by
  refine ⟨by decide, fun h => ?_⟩
  have hexpire := h.waits (savedAgain.take 8) [savedEvent] [.arm_debounce] (savedAgain.drop 11) rfl
    (List.cons_ne_nil _ _)
  exact absurd hexpire (by decide)

end MiniCi
