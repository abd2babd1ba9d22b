/-
# The locks of the server (`server/server.c`, `server/server_ctx.c`)

The lock operations of the main thread and of the workers, function by function and with the
control flow around them.  `ctx_set_hw` states the order: `hw_lock`, `tracker_lock`,
`csv_lock`; the other three locks are taken last, and never together.

What is between two operations is left out, so a test may go either way and a loop may run
any number of times.  The workers are there from the start: that `main` creates them later
only takes runs away.
-/
import MiniCi.LockOrder
import Mathlib.Data.Fintype.Option

namespace MiniCi.Locks

open LockOrder LockOrder.Prog Runs

/-! ## The source -/

/-- `hw_lock` is a read-write lock, the others are mutexes. -/
inductive ServerLock where
  | hw_lock
  | tracker_lock
  | csv_lock
  | state_lock
  | q_mutex
  | ui_mutex
  deriving DecidableEq

open ServerLock

/-- `pthread_mutex_lock`, a section, `pthread_mutex_unlock`. -/
def mutexed (l : ServerLock) (p : Prog ServerLock) : Prog ServerLock := locked .write l p

/-- `pthread_rwlock_rdlock` on `hw_lock`, a section, `pthread_rwlock_unlock`. -/
def rdlocked (p : Prog ServerLock) : Prog ServerLock := locked .read hw_lock p

/-- `pthread_cond_wait` on `q_mutex`: a signal may come at any time. -/
def q_cond_wait : Prog ServerLock := seq (release q_mutex) (acquire .write q_mutex)

def ui_log_colored : Prog ServerLock := mutexed ui_mutex skip

def ui_log_info : Prog ServerLock := ui_log_colored
def ui_log_alert : Prog ServerLock := ui_log_colored
def ui_log_success : Prog ServerLock := ui_log_colored
def ui_log_fail : Prog ServerLock := ui_log_colored
def ui_log_dim : Prog ServerLock := ui_log_colored

/-- The early return without a window unlocks in a place of its own. -/
def update_top_win : Prog ServerLock :=
  seq (acquire .write ui_mutex) (choice (release ui_mutex) (release ui_mutex))

def enqueue_job : Prog ServerLock := mutexed q_mutex skip

def dequeue_job : Prog ServerLock := mutexed q_mutex (loop q_cond_wait)

/-- A record of the wrong size, or of no known type, is not logged. -/
def handle_event : Prog ServerLock := cases [ui_log_alert, ui_log_dim, ui_log_dim]

/-- A bad name is refused before the first lock. -/
def ctx_set_hw : Prog ServerLock :=
  perhaps (block [locked .write hw_lock skip, mutexed tracker_lock skip, mutexed csv_lock skip])

def ctx_init : Prog ServerLock := ctx_set_hw

def ctx_record_submission : Prog ServerLock := mutexed tracker_lock skip

/-- Without an open file it returns before the lock. -/
def ctx_write_csv : Prog ServerLock := perhaps (mutexed csv_lock skip)

/-- Submissions to an old week are not recorded. -/
def build_and_send_result : Prog ServerLock :=
  block [rdlocked (perhaps (block [ctx_record_submission, ctx_write_csv])),
    mutexed tracker_lock skip]

def handle_file_pull : Prog ServerLock := rdlocked skip

/-- The stage of `handle_client` that runs the compiled program. -/
def runStage : Prog ServerLock :=
  block [
    perhaps ui_log_fail,              -- BPF attach failed
    ui_log_info,                      -- Parent waiting for inner_pid
    perhaps ui_log_info,              -- Parent read inner_pid
    ui_log_info,                      -- Parent sending 'A' sync signal
    ui_log_info, ui_log_info,         -- wait4
    perhaps (loop handle_event),      -- ring_buffer__poll
    cases [ui_log_fail, ui_log_alert, ui_log_alert, ui_log_fail, ui_log_fail,
      block [rdlocked skip, cases [ui_log_success, ui_log_fail, ui_log_info]]]]

/-- The stage of `handle_client` that reports a compile error. -/
def compileErrorStage : Prog ServerLock := block [ui_log_info, ui_log_fail, ui_log_info]

/-- `handle_client` from the receipt of the source file on. -/
def submissionStages : Prog ServerLock :=
  block [
    perhaps (block [ui_log_info, ui_log_info]),
    ui_log_info, ui_log_info, ui_log_info,              -- gcc
    choice compileErrorStage runStage,
    build_and_send_result]

def handle_client : Prog ServerLock :=
  block [
    ui_log_info,
    rdlocked skip,                                      -- task_hw
    cases [
      handle_file_pull,                                 -- PKT_GET_FILES
      block [ui_log_info, perhaps submissionStages]]]   -- Header received

def worker_thread_loop : Prog ServerLock :=
  loop (block [update_top_win, dequeue_job, update_top_win, handle_client])

def handle_ctl_client : Prog ServerLock :=
  cases [
    perhaps ctx_set_hw,                                 -- CMD_SET_HW
    perhaps (mutexed tracker_lock skip),                -- CMD_SET_STUDENTS
    block [mutexed tracker_lock skip, rdlocked skip,    -- CMD_GET_TRACKER
      mutexed csv_lock skip, mutexed tracker_lock skip],
    mutexed csv_lock skip,                              -- CMD_GET_CSV_STAT
    mutexed state_lock skip]                            -- CMD_TOGGLE_DIST

/-- Where a socket cannot be set up the server logs this and exits. -/
def main : Prog ServerLock :=
  block [
    ctx_init, perhaps update_top_win, ui_log_info, ui_log_dim, ui_log_dim,
    choice ui_log_alert (block [
      ui_log_info,
      loop (cases [enqueue_job, handle_ctl_client]),
      ui_log_fail])]                  -- epoll_wait

/-- The main thread, and `n` workers. -/
def serverThreads (n : ℕ) : Option (Fin n) → Prog ServerLock
  | none => main
  | some _ => worker_thread_loop

/-! ## The order -/

/-- The rank of a lock. -/
def rank : ServerLock → ℕ
  | hw_lock => 0
  | tracker_lock => 1
  | csv_lock => 2
  | state_lock => 3
  | q_mutex => 4
  | ui_mutex => 5

section Respects

variable {held : List (ServerLock × Mode)} {p : Prog ServerLock}

theorem mutexed_respects {l : ServerLock} (h : Below rank (rank l) held)
    (hp : Respects rank ((l, .write) :: held) p) : Respects rank held (mutexed l p) :=
  Respects.locked h hp

/-- `hw_lock` ranks lowest, so it is taken by a thread that holds nothing. -/
theorem rdlocked_respects (hp : Respects rank [(hw_lock, .read)] p) :
    Respects rank [] (rdlocked p) :=
  Respects.locked (by decide) hp

theorem ui_log_colored_respects (h : Below rank (rank ui_mutex) held) :
    Respects rank held ui_log_colored :=
  mutexed_respects h .skip

theorem update_top_win_respects (h : Below rank (rank ui_mutex) held) :
    Respects rank held update_top_win := by
  simp only [Respects, update_top_win, Prog.after, if_pos h, Option.bind_some,
    released_of_below h, if_true]

theorem enqueue_job_respects (h : Below rank (rank q_mutex) held) :
    Respects rank held enqueue_job :=
  mutexed_respects h .skip

/-- The wait gives `q_mutex` back, and takes it again. -/
theorem dequeue_job_respects (h : Below rank (rank q_mutex) held) :
    Respects rank held dequeue_job := by
  refine mutexed_respects h (Respects.loop ?_)
  rw [Respects, q_cond_wait, Prog.after, Prog.after, Option.bind_some, released_of_below h,
    Prog.after, if_pos h]

theorem handle_event_respects (h : Below rank (rank ui_mutex) held) :
    Respects rank held handle_event := by
  have hlog := ui_log_colored_respects h
  refine Respects.cases ?_
  simp only [List.forall_mem_cons]
  exact ⟨hlog, hlog, hlog, by simp⟩

theorem ctx_record_submission_respects (h : Below rank (rank tracker_lock) held) :
    Respects rank held ctx_record_submission :=
  mutexed_respects h .skip

theorem ctx_write_csv_respects (h : Below rank (rank csv_lock) held) :
    Respects rank held ctx_write_csv :=
  (mutexed_respects h .skip).perhaps

theorem ctx_set_hw_respects : Respects rank [] ctx_set_hw := by
  refine (Respects.block ?_).perhaps
  simp only [List.forall_mem_cons]
  refine ⟨Respects.locked (by decide) .skip, mutexed_respects (by decide) .skip,
    mutexed_respects (by decide) .skip, by simp⟩

/-- The tracker and the gradebook are written under `hw_lock`, in this order. -/
theorem build_and_send_result_respects : Respects rank [] build_and_send_result := by
  have hrecord : Respects rank [(hw_lock, .read)]
      (perhaps (block [ctx_record_submission, ctx_write_csv])) := by
    refine (Respects.block ?_).perhaps
    simp only [List.forall_mem_cons]
    exact ⟨ctx_record_submission_respects (by decide), ctx_write_csv_respects (by decide), by simp⟩
  refine Respects.block ?_
  simp only [List.forall_mem_cons]
  exact ⟨rdlocked_respects hrecord, mutexed_respects (by decide) .skip, by simp⟩

theorem handle_file_pull_respects : Respects rank [] handle_file_pull := rdlocked_respects .skip

theorem runStage_respects : Respects rank [] runStage := by
  have hlog : Respects rank [] ui_log_colored := ui_log_colored_respects (by decide)
  have hcompare : Respects rank []
      (block [rdlocked skip, cases [ui_log_success, ui_log_fail, ui_log_info]]) := by
    refine Respects.block ?_
    simp only [List.forall_mem_cons]
    refine ⟨rdlocked_respects .skip, Respects.cases ?_, by simp⟩
    simp only [List.forall_mem_cons]
    exact ⟨hlog, hlog, hlog, by simp⟩
  refine Respects.block ?_
  simp only [List.forall_mem_cons]
  refine ⟨hlog.perhaps, hlog, hlog.perhaps, hlog, hlog, hlog,
    (handle_event_respects (by decide)).loop.perhaps, Respects.cases ?_, by simp⟩
  simp only [List.forall_mem_cons]
  exact ⟨hlog, hlog, hlog, hlog, hlog, hcompare, by simp⟩

theorem submissionStages_respects : Respects rank [] submissionStages := by
  have hlog : Respects rank [] ui_log_colored := ui_log_colored_respects (by decide)
  have hsource : Respects rank [] (block [ui_log_info, ui_log_info]) := by
    refine Respects.block ?_
    simp only [List.forall_mem_cons]
    exact ⟨hlog, hlog, by simp⟩
  have herror : Respects rank [] compileErrorStage := by
    refine Respects.block ?_
    simp only [List.forall_mem_cons]
    exact ⟨hlog, hlog, hlog, by simp⟩
  refine Respects.block ?_
  simp only [List.forall_mem_cons]
  exact ⟨hsource.perhaps, hlog, hlog, hlog, herror.choice runStage_respects,
    build_and_send_result_respects, by simp⟩

theorem handle_client_respects : Respects rank [] handle_client := by
  have hlog : Respects rank [] ui_log_colored := ui_log_colored_respects (by decide)
  have hsubmit : Respects rank [] (block [ui_log_info, perhaps submissionStages]) := by
    refine Respects.block ?_
    simp only [List.forall_mem_cons]
    exact ⟨hlog, submissionStages_respects.perhaps, by simp⟩
  refine Respects.block ?_
  simp only [List.forall_mem_cons]
  refine ⟨hlog, rdlocked_respects .skip, Respects.cases ?_, by simp⟩
  simp only [List.forall_mem_cons]
  exact ⟨handle_file_pull_respects, hsubmit, by simp⟩

theorem worker_thread_loop_respects : Respects rank [] worker_thread_loop := by
  have hwin : Respects rank [] update_top_win := update_top_win_respects (by decide)
  refine Respects.loop (Respects.block ?_)
  simp only [List.forall_mem_cons]
  exact ⟨hwin, dequeue_job_respects (by decide), hwin, handle_client_respects, by simp⟩

/-- `CMD_GET_TRACKER` takes its four locks one after another, and holds one at a time. -/
theorem handle_ctl_client_respects : Respects rank [] handle_ctl_client := by
  have hmutex : ∀ l, l ≠ hw_lock → Respects rank [] (mutexed l skip) := by
    intro l _
    exact mutexed_respects (fun x hx => absurd hx (by simp)) .skip
  refine Respects.cases ?_
  simp only [List.forall_mem_cons]
  refine ⟨ctx_set_hw_respects.perhaps, (hmutex _ (by decide)).perhaps, Respects.block ?_,
    hmutex _ (by decide), hmutex _ (by decide), by simp⟩
  simp only [List.forall_mem_cons]
  exact ⟨hmutex _ (by decide), rdlocked_respects .skip, hmutex _ (by decide), hmutex _ (by decide),
    by simp⟩

theorem main_respects : Respects rank [] main := by
  have hlog : Respects rank [] ui_log_colored := ui_log_colored_respects (by decide)
  have hevents : Respects rank [] (cases [enqueue_job, handle_ctl_client]) := by
    refine Respects.cases ?_
    simp only [List.forall_mem_cons]
    exact ⟨enqueue_job_respects (by decide), handle_ctl_client_respects, by simp⟩
  have hserve : Respects rank []
      (block [ui_log_info, loop (cases [enqueue_job, handle_ctl_client]), ui_log_fail]) := by
    refine Respects.block ?_
    simp only [List.forall_mem_cons]
    exact ⟨hlog, hevents.loop, hlog, by simp⟩
  refine Respects.block ?_
  simp only [List.forall_mem_cons]
  exact ⟨ctx_set_hw_respects, (update_top_win_respects (by decide)).perhaps, hlog, hlog, hlog,
    hlog.choice hserve, by simp⟩

end Respects

/-- Both programs respect the order. -/
theorem serverThreads_ordered (n : ℕ) (i : Option (Fin n)) :
    ((serverThreads n i).after rank []).isSome := by
  cases i with
  | none => exact Option.isSome_iff_exists.mpr ⟨[], main_respects⟩
  | some _ => exact Option.isSome_iff_exists.mpr ⟨[], worker_thread_loop_respects⟩

/-! ## No deadlock -/

/-- No thread waits for itself, through however many others, and none requests a lock that
it holds. -/
structure DeadlockFree {n : ℕ} (s : Option (Fin n) → Thread ServerLock) : Prop where
  no_cycle : ∀ i, ¬ Relation.TransGen (Waits s) i i
  not_held : ∀ i m l, Requests (s i) m l → ¬ LockOrder.Holds (s i) l

/-- **The server's locks cannot deadlock.**  Whatever the order in which the main thread and
any number of workers move, in every state on the way no cycle of threads waits each for a
lock that the next one holds, a reader of `hw_lock` counting as waiting for a queued writer
too, and no thread requests a lock that it already holds. -/
theorem locks_deadlock_free (n : ℕ) (as : List (Option (Fin n) × Bool)) :
    Always step DeadlockFree (start (serverThreads n)) as := by
  intro pre _ s hs
  constructor
  · exact no_cycle (serverThreads_ordered n) hs
  · intro i m l hreq
    exact not_holds_of_requests (serverThreads_ordered n) hs hreq

/-- Had `ctx_write_csv` kept reading `current_hw` under a lock of its own, the order would be
violated inside `build_and_send_result`. -/
example :
    (rdlocked (block [ctx_record_submission, rdlocked ctx_write_csv])).after rank [] = none := by
  decide

end MiniCi.Locks
