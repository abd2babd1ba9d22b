/-
# The descriptors of the server

What the threads of `server/server.c` do with descriptors, in the terms of `Handles`: the sockets,
files and pipes, and the directories, streams, ring buffers and the skeleton of the monitor, each
of which stands for the descriptors it keeps itself.  The main thread passes accepted sockets to
the workers through `job_queue`.

The ends that `fork` copies to a child are the child's; a process that ends closes them.  `pipe`
is called without a look at its result, so a failure leaves what stood on the stack, and the
program goes on to close that.  And `enqueue_job` does not look for a free slot.  As long as
neither happens, no thread closes what is not its own, and nothing stays open
(`descriptors_kept`).
-/
import MiniCi.Handles
import MiniCi.JobQueue
import Mathlib.Data.Fintype.BigOperators
import Mathlib.Data.Fintype.Option

namespace MiniCi

open Handles Handles.Prog Runs

/-! ## The programs -/

/-- The variables of all threads that keep descriptors. -/
inductive DescVar where
  -- main
  | g_log_fp | csv_fd | server_sock | ctl_fd | epoll_fd | ccfd
  -- main and the workers
  | client_sock
  -- handle_client
  | fd_src | pipefd_0 | pipefd_1 | in_fd | out_fd | skel | rb
  | run_sync_pipe_0 | run_sync_pipe_1 | pid_report_pipe_0 | pid_report_pipe_1
  -- compare_output
  | f_act | f_exp
  -- handle_file_pull, send_one_file
  | dir | fd
  deriving DecidableEq

namespace DescVar

instance : Fintype DescVar where
  elems := {g_log_fp, csv_fd, server_sock, ctl_fd, epoll_fd, ccfd, client_sock, fd_src, pipefd_0,
    pipefd_1, in_fd, out_fd, skel, rb, run_sync_pipe_0, run_sync_pipe_1, pid_report_pipe_0,
    pid_report_pipe_1, f_act, f_exp, dir, fd}
  complete := by intro x; cases x <;> decide

end DescVar

namespace DescriptorsOf

open DescVar

/-- `fstat` fails or the file is too large, the header is not sent, or `malloc` fails; else the
file is closed behind the loop over the chunks. -/
def send_one_file : Prog DescVar :=
  block [tryOpen fd, whenSet fd (orClose fd (orClose fd (close fd)))]

def handle_file_pull : Prog DescVar :=
  block [tryOpen dir, whenSet dir (block [close dir, loop send_one_file])]

def compare_output : Prog DescVar :=
  block [tryOpen f_act, tryOpen f_exp,
    ifSet f_act
      (ifSet f_exp (block [close f_act, close f_exp]) (block [closeIfSet f_act, closeIfSet f_exp]))
      (block [closeIfSet f_act, closeIfSet f_exp])]

/-- The stage of `handle_client` that runs the compiled program. -/
def runStage : Prog DescVar :=
  block [
    tryOpen in_fd, tryOpen out_fd, tryOpen skel, unset rb,
    mustOpen run_sync_pipe_0, mustOpen run_sync_pipe_1,
    mustOpen pid_report_pipe_0, mustOpen pid_report_pipe_1,
    close run_sync_pipe_0, close pid_report_pipe_1,           -- the wrapper has been forked
    closeIfSet in_fd, closeIfSet out_fd,
    ifSet skel (block [close pid_report_pipe_0, tryOpen rb]) (close pid_report_pipe_0),
    close run_sync_pipe_1,                                    -- behind the sync byte
    closeIfSet rb, closeIfSet skel,                           -- behind wait4
    choice skip compare_output]

/-- `handle_client` from the receipt of the source file on. -/
def submissionStages : Prog DescVar :=
  block [
    tryOpen fd_src, closeIfSet fd_src,
    mustOpen pipefd_0, mustOpen pipefd_1,
    close pipefd_1,                                           -- gcc has been forked
    choice skip runStage,
    close pipefd_0]

/-- Both requests go on to `client_cleanup`, unless `recv` or `mkdtemp` fails. -/
def handle_client : Prog DescVar :=
  orClose client_sock (choice
    (orClose client_sock (block [handle_file_pull, close client_sock]))
    (orClose client_sock (orClose client_sock (block [submissionStages, close client_sock]))))

def worker_thread_loop : Prog DescVar :=
  loop (block [receive client_sock, handle_client])

/-- A bad name is refused before anything is closed. -/
def ctx_set_hw : Prog DescVar :=
  choice skip (block [whenSet csv_fd (block [close csv_fd, unset csv_fd]), tryOpen csv_fd])

def ctx_init : Prog DescVar := block [unset csv_fd, ctx_set_hw]

/-- Nothing has come, or a command has been carried out. -/
def handle_ctl_client : Prog DescVar :=
  orClose ccfd (block [choice skip ctx_set_hw, close ccfd])

/-- The `server_sock` branch of the epoll loop; a paused server turns the client away. -/
def accept_client : Prog DescVar :=
  block [tryOpen client_sock, whenSet client_sock (orClose client_sock (send client_sock))]

/-- The epoll loop. -/
def eventLoop : Prog DescVar :=
  loop (choice accept_client (block [tryOpen ccfd, whenSet ccfd handle_ctl_client]))

/-- A server that cannot set up a socket, or bind it, returns. -/
def main : Prog DescVar :=
  block [
    ctx_init, tryOpen g_log_fp, unset ctl_fd, unset epoll_fd,
    tryOpen server_sock,
    whenSet server_sock (choice skip (block [
      tryOpen ctl_fd,
      whenSet ctl_fd (choice skip (block [tryOpen epoll_fd, whenSet epoll_fd eventLoop]))]))]

/-- The main thread, and `n` workers. -/
def serverPrograms (n : ℕ) : Option (Fin n) → Prog DescVar
  | none => main
  | some _ => worker_thread_loop

end DescriptorsOf

open DescriptorsOf

/-! ## The queue -/

/-- `job_queue` as a queue of descriptors. -/
def jobChannel : Channel JobQueue ℤ where
  put := enqueue_job
  take := dequeue_job
  Holds := Holds
  Room q := q.q_count < MAX_QUEUE
  holds_put := fun h hroom sock => holds_enqueue_job h hroom sock
  holds_take := by
    intro q l sock q' h htake
    cases l with
    | nil => rw [dequeue_job_eq_none h] at htake; cases htake
    | cons first l =>
      obtain ⟨q'', hq, hl⟩ := dequeue_job_eq_some h
      rw [hq, Option.some.injEq, Prod.mk.injEq] at htake
      obtain ⟨rfl, rfl⟩ := htake
      exact ⟨l, rfl, hl⟩

/-- The main thread, the workers and the descriptors that are open. -/
abbrev DescServer (n : ℕ) := State (Option (Fin n)) DescVar ℤ JobQueue

/-- One operation on descriptors; `-1` is none. -/
def descStep {n : ℕ} : DescServer n → Option (Fin n) × Move ℤ → Option (DescServer n) :=
  Handles.step (-1) jobChannel

/-- The server before its first operation. -/
def descStart (n : ℕ) (junk : DescVar → ℤ) : DescServer n :=
  Handles.start (serverPrograms n) junk .initial

/-! ## What is kept open -/

/-- What a thread may keep open: the main thread its log, its gradebook and what it waits on, a
worker nothing. -/
def mayKeep {n : ℕ} : Option (Fin n) → Finset DescVar
  | none => {.g_log_fp, .csv_fd, .server_sock, .ctl_fd, .epoll_fd}
  | some _ => ∅

/-- Nothing else is open where the program of a thread may end. -/
def keepsNoMore {n : ℕ} (i : Option (Fin n)) (f : DescVar → Fact) : Prop :=
  ∀ x, x ∉ mayKeep i → (f x).Free

instance {n : ℕ} (i : Option (Fin n)) : DecidablePred (keepsNoMore i) :=
  fun f => inferInstanceAs (Decidable (∀ x, x ∉ mayKeep i → (f x).Free))

theorem goesThrough_serverPrograms {n : ℕ} (i : Option (Fin n)) :
    GoesThrough (keepsNoMore i) (serverPrograms n i) := by
  cases i with
  | none =>
    have hmain : GoesThrough (keepsNoMore (none : Option (Fin 0))) main := by decide +kernel
    exact hmain
  | some i =>
    have hworker : GoesThrough (keepsNoMore (some (0 : Fin 1))) worker_thread_loop := by
      decide +kernel
    exact hworker

/-- The thread is in `dequeue_job`. -/
def InDequeue (t : Thread DescVar ℤ) : Prop := ∃ x k, t.todo = .receive x :: k

/-- The thread is at its endless loop. -/
def AtLoop (t : Thread DescVar ℤ) : Prop := ∃ p, t.todo = [.loop p]

/-- Every open descriptor is one thread's or waits in the queue; a worker that waits for work has
none, and when all do the main thread has all. -/
structure DescriptorsKept {n : ℕ} (s : DescServer n) : Prop where
  accounted : Accounted jobChannel s
  waiting : ∀ i, InDequeue (s.threads (some i)) → (s.threads (some i)).own = ∅
  quiet : (∀ i, InDequeue (s.threads (some i))) → AtLoop (s.threads none) → Holds s.queue [] →
    s.live ⊆ (mayKeep (none : Option (Fin n))).image (s.threads none).var

section

variable {n : ℕ} {s : DescServer n}

/-- A ring buffer that holds nothing holds nothing else. -/
theorem holds_nil_unique {q : JobQueue} {l : List ℤ} (hnil : Holds q []) (hl : Holds q l) :
    l = [] := by
  have hcount : (l.length : ℤ) = ([] : List ℤ).length := hl.count.symm.trans hnil.count
  exact List.length_eq_zero_iff.mp (by simpa using hcount)

theorem owned_eq_zero {t : Thread DescVar ℤ} (h : t.own = ∅) : owned t = 0 := by
  rw [owned, h]
  rfl

theorem descriptorsKept_of_sound (h : Sound (-1) jobChannel keepsNoMore s) : DescriptorsKept s := by
  have hwaiting : ∀ i, InDequeue (s.threads (some i)) → (s.threads (some i)).own = ∅ := by
    rintro i ⟨x, k, htodo⟩
    exact h.own_eq_empty htodo
  refine ⟨h.accounted, hwaiting, ?_⟩
  rintro hidle ⟨p, htodo⟩ hempty d hd
  obtain ⟨l, hl, hlive⟩ := h.accounted
  obtain rfl := holds_nil_unique hempty hl
  obtain ⟨f, hf, hkeeps⟩ := h.at_loop htodo
  have hmain : s.live.val = owned (s.threads none) := by
    have hworkers : ∑ i, owned (s.threads (some i)) = 0 :=
      Finset.sum_eq_zero fun i _ => owned_eq_zero (hwaiting i (hidle i))
    rw [hlive, Fintype.sum_option, hworkers, add_zero, Multiset.coe_nil, zero_add]
  rw [← Finset.mem_val, hmain] at hd
  obtain ⟨x, hx, rfl⟩ := Multiset.mem_map.mp hd
  refine Finset.mem_image_of_mem _ ?_
  by_contra hnot
  exact hf.notMem (hkeeps x hnot) hx

end

/-- **No descriptor is lost and none is closed twice.**  Whatever the threads do in whatever
order, and whatever fails but `pipe`: as long as `enqueue_job` finds a free slot, a thread closes
only what is its own, and the server at rest keeps no more open than the main thread waits on. -/
theorem descriptors_kept (n : ℕ) (junk : DescVar → ℤ) (as : List (Option (Fin n) × Move ℤ))
    (hworks : Along descStep (Works jobChannel) (descStart n junk) as) :
    Always descStep DescriptorsKept (descStart n junk) as ∧
      Along descStep PartsWithOwn (descStart n junk) as := by
  have hsound : ∀ pre, pre <+: as → ∀ t, exec descStep (descStart n junk) pre = some t →
      Sound (-1) jobChannel keepsNoMore t := fun pre hpre t ht =>
    sound_of_exec holds_initial goesThrough_serverPrograms (hworks.of_prefix hpre) ht
  refine ⟨fun pre hpre t ht => descriptorsKept_of_sound (hsound pre hpre t ht), ?_⟩
  rw [along_iff_forall]
  intro pre a post t heq ht
  exact (hsound pre ⟨a :: post, heq.symm⟩ t ht).partsWithOwn a

instance : DecidablePred jobChannel.Room :=
  fun q => inferInstanceAs (Decidable (q.q_count < MAX_QUEUE))

/-- The next operation is left to the environment. -/
def asks : List (Prog DescVar) → Bool
  | .tryOpen _ :: _ => true
  | .mustOpen _ :: _ => true
  | .choice _ _ :: _ => true
  | .loop _ :: _ => true
  | _ => false

/-- The moves of a thread, given those that are left to the environment. -/
def drive (i : Option (Fin 1)) : ℕ → List (Move ℤ) → DescServer 1 →
    List (Option (Fin 1) × Move ℤ)
  | 0, _, _ => []
  | fuel + 1, moves, s =>
    let (next, rest) :=
      if asks (s.threads i).todo then (moves.head?, moves.tail) else (some (.go true), moves)
    match next with
    | none => []
    | some m =>
      match descStep s (i, m) with
      | some s' => (i, m) :: drive i fuel rest s'
      | none => []

/-- The server is started, accepts a connection and hands it to a worker. -/
def firstConnection : List (Option (Fin 1) × Move ℤ) :=
  drive none 60 [.go false, .opened 3, .opened 4, .opened 5, .go false, .opened 6, .go false,
    .opened 7, .go true, .go true, .opened 8, .go false] (descStart 1 fun _ => 0)

/-- The worker receives a submission, compiles and runs it and compares its output. -/
def firstSubmission : List (Option (Fin 1) × Move ℤ) :=
  (exec descStep (descStart 1 fun _ => 0) firstConnection).elim [] <|
    drive (some 0) 100 [.go true, .go false, .go false, .go false, .go false, .opened 9, .opened 9,
      .opened 10, .go false, .opened 10, .opened 11, .opened 12, .opened 13, .opened 14, .opened 15,
      .opened 16, .opened 13, .go false, .opened 10, .opened 11]

theorem descriptors_kept_one :
    Along descStep (Works jobChannel) (descStart 1 fun _ => 0)
        (firstConnection ++ firstSubmission) ∧
      Always descStep DescriptorsKept (descStart 1 fun _ => 0)
        (firstConnection ++ firstSubmission) ∧
      (exec descStep (descStart 1 fun _ => 0) firstConnection).map State.live =
        some {3, 4, 5, 6, 7, 8} ∧
      (exec descStep (descStart 1 fun _ => 0) (firstConnection ++ firstSubmission)).map State.live =
        some {3, 4, 5, 6, 7} := by
  have hworks : Along descStep (Works jobChannel) (descStart 1 fun _ => 0)
      (firstConnection ++ firstSubmission) := by
    decide +kernel
  exact ⟨hworks, (descriptors_kept 1 _ _ hworks).1, by decide +kernel, by decide +kernel⟩

end MiniCi
