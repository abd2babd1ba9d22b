/-
# The variables that the threads share (`server/server.c`, `server/server_ctx.c`)

The lock operations of `Locks`, with the accesses to the variables that the main thread and the
workers share, function by function.  `server_ctx.h` says which lock protects which of them.

A variable is raced for in some run exactly if it is one of these (`races_iff`): `csv_fd`, which
`ctx_write_csv` reads before it takes `csv_lock`; `thread_status` and `thread_task`, which the
workers write without a lock and `update_top_win` reads; `q_count`, which it reads without
`q_mutex`; the buffer of `localtime`; and the screen, which `main` gives back without `ui_mutex`
when a socket cannot be set up.

Atomics, the streams of stdio, which lock themselves, what other library calls keep, and signal
handlers are left out.  Forked processes have memory of their own.
-/
import MiniCi.Locks
import MiniCi.JobQueue
import MiniCi.Races

namespace MiniCi.SharedData

open LockOrder (Mode)
open Races Races.Prog Locks Locks.ServerLock

/-! ## The source -/

/-- The variables.  `screen` stands for what ncurses keeps, `tm` for the buffer that `localtime`
returns. -/
inductive SharedVar where
  | current_hw
  | ans_path
  | submit_dir
  | students
  | total_students
  | submitted_count
  | csv_fd
  | csv_path
  | total_records
  | last_write_ts
  | paused
  | dist_paused
  | timeout_ms
  | top_win
  | bottom_win
  | g_log_fp
  | g_ncurses_ok
  | screen
  | thread_status (i : Fin NUM_THREADS)
  | thread_task (i : Fin NUM_THREADS)
  | job_queue
  | q_head
  | q_tail
  | q_count
  | tm
  deriving DecidableEq

open SharedVar

/-- The main thread, and the workers. -/
abbrev ThreadId := Option (Fin NUM_THREADS)

/-- A program of one of the threads. -/
abbrev ServerProg := Races.Prog ThreadId ServerLock SharedVar

def reads (v : SharedVar) : ServerProg := access .read v

def writes (v : SharedVar) : ServerProg := access .write v

/-- `pthread_mutex_lock`, a section, `pthread_mutex_unlock`. -/
def mutexed (l : ServerLock) (ps : List ServerProg) : ServerProg := Races.Prog.locked .write l ps

/-- `pthread_rwlock_rdlock` on `hw_lock`, a section, `pthread_rwlock_unlock`. -/
def rdlocked (ps : List ServerProg) : ServerProg := Races.Prog.locked .read hw_lock ps

def ui_log_colored : ServerProg :=
  mutexed ui_mutex [
    reads g_ncurses_ok,
    perhaps (block [reads bottom_win, perhaps (writes screen)]),
    reads g_log_fp]

/-- The line of a worker in `update_top_win`; what a worker is at is shown while it runs. -/
def threadLine (i : Fin NUM_THREADS) : ServerProg :=
  block [reads (thread_status i), perhaps (reads (thread_task i)), writes screen]

def update_top_win : ServerProg :=
  seq (acquire .write ui_mutex) (seq (reads g_ncurses_ok)
    (choice (release ui_mutex) (seq (reads top_win)
      (choice (release ui_mutex) (block [
        writes screen,
        block ((List.finRange NUM_THREADS).map threadLine),
        reads q_count,
        writes screen,
        release ui_mutex])))))

def enqueue_job : ServerProg :=
  mutexed q_mutex [reads q_tail, writes job_queue, writes q_tail, reads q_count, writes q_count]

def dequeue_job : ServerProg :=
  mutexed q_mutex [
    reads q_count,
    loop (block [release q_mutex, acquire .write q_mutex, reads q_count]),   -- pthread_cond_wait
    reads q_head, reads job_queue, writes q_head, reads q_count, writes q_count]

def handle_event : ServerProg := cases [ui_log_colored, ui_log_colored, ui_log_colored]

/-- What `ctx_set_hw` does with a name that it takes. -/
def switchSections : ServerProg :=
  block [
    Races.Prog.locked .write hw_lock [writes current_hw, writes ans_path, writes submit_dir],
    reads submit_dir,                                   -- ensure_dir
    mutexed tracker_lock [writes students, writes submitted_count],
    mutexed csv_lock [
      reads csv_fd, perhaps (writes csv_fd),
      writes csv_path, reads csv_path,
      writes csv_fd, reads csv_fd,
      perhaps (block [perhaps (reads csv_fd), writes total_records, writes last_write_ts,
        reads csv_path])],
    reads current_hw, reads ans_path, reads submit_dir]

def ctx_set_hw : ServerProg := perhaps switchSections

/-- `memset` writes the whole context, and `week_1` is a good name. -/
def ctx_init : ServerProg :=
  block [
    block ([current_hw, ans_path, submit_dir, students, total_students, submitted_count, csv_fd,
      csv_path, total_records, last_write_ts, paused, dist_paused, timeout_ms].map writes),
    switchSections, reads current_hw]

def ctx_record_submission : ServerProg :=
  mutexed tracker_lock [
    loop (reads students), perhaps (writes students),
    perhaps (block [
      reads students, writes students,
      perhaps (block [reads submitted_count, writes submitted_count, reads total_students])])]

def ctx_write_csv : ServerProg :=
  seq (reads csv_fd) (perhaps (block [
    writes tm, reads tm,                                -- localtime, strftime
    mutexed csv_lock [
      reads csv_fd,
      perhaps (block [reads total_records, writes total_records, writes last_write_ts])]]))

def build_and_send_result : ServerProg :=
  block [
    rdlocked [
      reads current_hw,
      choice (block [ctx_record_submission, ctx_write_csv]) (reads current_hw)],
    mutexed tracker_lock [reads submitted_count, reads total_students]]

def handle_file_pull : ServerProg := rdlocked [reads current_hw]

/-- The stage of `handle_client` that runs the compiled program. -/
def runStage : ServerProg :=
  block [
    perhaps ui_log_colored,             -- BPF attach failed
    ui_log_colored,                     -- Parent waiting for inner_pid
    perhaps ui_log_colored,             -- Parent read inner_pid
    ui_log_colored,                     -- Parent sending 'A' sync signal
    ui_log_colored, ui_log_colored,     -- wait4
    perhaps (loop handle_event),        -- ring_buffer__poll
    choice ui_log_colored (block [rdlocked [reads ans_path], ui_log_colored])]

/-- `handle_client` from the receipt of the source file on. -/
def submissionStages : ServerProg :=
  block [
    perhaps (block [ui_log_colored, ui_log_colored]),
    ui_log_colored, ui_log_colored, ui_log_colored,     -- gcc
    choice (block [ui_log_colored, ui_log_colored, ui_log_colored]) runStage,
    build_and_send_result]

def handle_client : ServerProg :=
  block [
    ui_log_colored,
    rdlocked [reads current_hw],                        -- task_hw
    cases [
      handle_file_pull,                                 -- PKT_GET_FILES
      block [ui_log_colored, perhaps submissionStages]]]

def worker_thread_loop (thread_id : Fin NUM_THREADS) : ServerProg :=
  loop (block [
    writes (thread_status thread_id), update_top_win, dequeue_job,
    writes (thread_status thread_id), writes (thread_task thread_id), update_top_win,
    handle_client])

def handle_ctl_client : ServerProg :=
  cases [
    block [ctx_set_hw, reads current_hw],                               -- CMD_SET_HW
    mutexed tracker_lock [writes total_students],                       -- CMD_SET_STUDENTS
    block [                                                             -- CMD_GET_TRACKER
      mutexed tracker_lock [reads submitted_count, reads total_students],
      rdlocked [reads current_hw],
      mutexed csv_lock [reads total_records],
      mutexed tracker_lock [loop (reads students)]],
    block [                                                             -- CMD_GET_CSV_STAT
      mutexed csv_lock [reads total_records, reads last_write_ts],
      perhaps (block [writes tm, reads tm])],
    mutexed state_lock [reads dist_paused, writes dist_paused]]         -- CMD_TOGGLE_DIST

/-- The part of `main` that sets up ncurses; it goes on without where that fails. -/
def startScreen : ServerProg :=
  block [
    writes screen,
    perhaps (block [
      writes top_win, writes bottom_win, reads top_win, reads bottom_win,
      choice (block [writes g_ncurses_ok, reads g_log_fp, update_top_win]) (writes screen)])]

/-- The part of `main` that creates a worker. -/
def createWorker (i : Fin NUM_THREADS) : ServerProg :=
  seq (writes (thread_status i)) (spawn (some i))

/-- Where a socket cannot be set up, `main` gives the screen back and exits. -/
def main : ServerProg :=
  block [
    ctx_init,
    writes g_log_fp, reads g_log_fp,
    perhaps startScreen,
    ui_log_colored, ui_log_colored, ui_log_colored,
    block ((List.finRange NUM_THREADS).map createWorker),
    choice (block [ui_log_colored, reads g_ncurses_ok, perhaps (writes screen)]) (block [
      ui_log_colored,
      loop (cases [enqueue_job, handle_ctl_client]),
      ui_log_colored])]

/-- The threads of the server. -/
def serverThreads : ThreadId → ServerProg
  | none => main
  | some i => worker_thread_loop i

/-! ## What is protected -/

/-- What protects a variable, where something does.  Only `main` switches the week, so it may read
its name without the lock. -/
def guard : SharedVar → Option (Guard ThreadId ServerLock)
  | current_hw | ans_path | submit_dir => some (.owned none hw_lock)
  | students | total_students | submitted_count => some (.locked tracker_lock)
  | csv_path | total_records | last_write_ts => some (.locked csv_lock)
  | dist_paused => some (.locked state_lock)
  | job_queue | q_head | q_tail => some (.locked q_mutex)
  | paused | timeout_ms | top_win | bottom_win | g_log_fp | g_ncurses_ok => some .frozen
  | csv_fd | q_count | tm | screen | thread_status _ | thread_task _ => none

/-- Whatever `main` and the workers access once there are several of them is unprotected, or they
hold what protects it. -/
theorem serverThreads_check (i : ThreadId) :
    ((serverThreads i).check guard i ⟨decide (i = none), []⟩).isSome := by
  revert i
  decide +kernel

/-! ## The races -/

/-- In some run two threads are about to access the variable, and one of them to write it. -/
def Raced (v : SharedVar) : Prop :=
  ∃ as s, Runs.exec step (start none serverThreads) as = some s ∧ Racing s v

/-- The threads move one after another, each to the access that follows the branches given. -/
def schedule (turns : List (ThreadId × List Bool × Mode × SharedVar)) : List (ThreadId × Bool) :=
  turns.flatMap fun (i, decisions, a) =>
    (Thread.flagsTo a 500 decisions (start none serverThreads i)).map (i, ·)

/-- The message is written to the window. -/
def logged : List Bool := [true, true]

/-- `main` opens the gradebook of `week_1`, sets up the screen, and creates the workers. -/
def booted : List Bool :=
  [false, true, true] ++ [true, true, true] ++ List.replicate 6 false ++ logged ++ logged ++ logged

/-- `main` comes to its loop, and takes a connection. -/
def accepted : List Bool := booted ++ [false] ++ logged ++ [true, true]

/-- After that it carries out a command, the `n`th of `handle_ctl_client`. -/
def commanded (n : ℕ) : List Bool :=
  accepted ++ [true, false, true] ++ List.replicate n false ++ [true]

/-- A worker draws the lines before that of worker `i`. -/
def drawing (i : Fin NUM_THREADS) : List Bool := [true, false, false] ++ List.replicate i false

/-- A worker has shown itself idle, and takes a connection. -/
def dequeued : List Bool := drawing (Fin.last _) ++ [false, false]

/-- The first worker shows itself running, receives a source that does not compile, and records
the submission. -/
def recorded : List Bool :=
  dequeued ++ [false, false, true, false, false, false] ++ logged ++ [false, true] ++ logged
    ++ [true, true] ++ logged ++ logged ++ logged ++ logged ++ logged
    ++ [true] ++ logged ++ logged ++ logged ++ [true, true, false, true, true, false]

theorem raced_of_schedule (turns : List (ThreadId × List Bool × Mode × SharedVar)) {v : SharedVar}
    (h : (Runs.exec step (start none serverThreads) (schedule turns)).any
      (fun s => decide (Racing s v)) = true) : Raced v := by
  obtain ⟨s, hrun, hracing⟩ := (Option.any_eq_true _ _).mp h
  exact ⟨schedule turns, s, hrun, of_decide_eq_true hracing⟩

/-- A switch of the week closes the gradebook, and a worker looks whether it is open. -/
theorem raced_csv_fd : Raced csv_fd := by
  apply raced_of_schedule [
    (none, commanded 0 ++ [true, true], .write, csv_fd), (some 0, recorded, .read, csv_fd)]
  decide +kernel

/-- `main` queues a connection, and a worker shows the length of the queue. -/
theorem raced_q_count : Raced q_count := by
  apply raced_of_schedule [
    (none, accepted, .write, q_count), (some 0, [true], .read, q_count)]
  decide +kernel

/-- `CMD_GET_CSV_STAT` turns a time into text, and a worker gets the one of its row. -/
theorem raced_tm : Raced tm := by
  apply raced_of_schedule [
    (none, commanded 3 ++ [true], .read, tm), (some 0, recorded ++ [true], .write, tm)]
  decide +kernel

/-- A socket cannot be set up, and a worker draws. -/
theorem raced_screen : Raced screen := by
  apply raced_of_schedule [
    (none, booted ++ [true] ++ logged ++ [true], .write, screen), (some 0, [true], .write, screen)]
  decide +kernel

/-- A worker becomes idle, and the next one draws its line. -/
theorem raced_thread_status (i : Fin NUM_THREADS) : Raced (thread_status i) := by
  apply raced_of_schedule [
    (none, commanded 0 ++ [true], .write, current_hw), (some i, [true], .write, thread_status i),
    (some (i + 1), drawing i, .read, thread_status i)]
  revert i
  decide +kernel

/-- A worker says what it is at, and the next one draws its line. -/
theorem raced_thread_task (i : Fin NUM_THREADS) : Raced (thread_task i) := by
  apply raced_of_schedule [
    (none, commanded 0 ++ [true], .write, current_hw), (some i, dequeued, .write, thread_task i),
    (some (i + 1), drawing i ++ [true], .read, thread_task i)]
  revert i
  decide +kernel

/-- **Which variables are raced for.**  In some run of `main` and the workers two threads are about
to access a variable, and one of them to write it, iff nothing protects the variable: it is
`csv_fd`, `q_count`, `tm`, `screen`, or a `thread_status` or `thread_task`. -/
theorem raced_iff (v : SharedVar) : Raced v ↔ guard v = none := by
  constructor
  · rintro ⟨as, s, hrun, hracing⟩
    by_contra hguard
    exact not_racing serverThreads_check hrun (Option.isSome_iff_ne_none.mpr hguard) hracing
  · intro hguard
    cases v with
    | csv_fd => exact raced_csv_fd
    | q_count => exact raced_q_count
    | tm => exact raced_tm
    | screen => exact raced_screen
    | thread_status i => exact raced_thread_status i
    | thread_task i => exact raced_thread_task i
    | _ => cases hguard

end MiniCi.SharedData
