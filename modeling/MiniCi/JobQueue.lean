/-
# The job queue between the accept loop and the workers

`server/server.c` hands accepted sockets from `main`'s epoll loop to `NUM_THREADS`
workers through the ring buffer `job_queue`.  `enqueue_job` and `dequeue_job` are one
`q_mutex` section each, so an interleaving is a list of `QueueAction`s.

`Holds q l` is the representation invariant: the ring buffer `q` stores the queue `l`.
`dequeue_job` keeps it and returns the first element; `enqueue_job` keeps it as long
as a slot is free, but never looks whether one is.
-/
import MiniCi.Circular
import MiniCi.Runs

namespace MiniCi

/-! ## The source -/

/-- Number of worker threads. -/
def NUM_THREADS : ℕ := 4

/-- Number of slots of `job_queue`. -/
def MAX_QUEUE : ℕ := 100

instance : NeZero NUM_THREADS := ⟨by decide⟩

instance : NeZero MAX_QUEUE := ⟨by decide⟩

/-- The globals `job_queue`, `q_head`, `q_tail` and `q_count`. -/
structure JobQueue where
  job_queue : Fin MAX_QUEUE → ℤ
  q_head : Fin MAX_QUEUE
  q_tail : Fin MAX_QUEUE
  q_count : ℤ

/-- The queue as the program starts with it. -/
def JobQueue.initial : JobQueue := ⟨fun _ => 0, 0, 0, 0⟩

/-- `enqueue_job`: store the socket at the tail and count it. -/
def enqueue_job (q : JobQueue) (sock : ℤ) : JobQueue :=
  { q with
    job_queue := Function.update q.job_queue q.q_tail sock
    q_tail := Fin.ofNat MAX_QUEUE (q.q_tail + 1)
    q_count := q.q_count + 1 }

/-- `dequeue_job`: `none` while the caller waits on `q_cond`. -/
def dequeue_job (q : JobQueue) : Option (ℤ × JobQueue) :=
  if q.q_count = 0 then none
  else some (q.job_queue q.q_head,
    { q with
      q_head := Fin.ofNat MAX_QUEUE (q.q_head + 1)
      q_count := q.q_count - 1 })

/-- The accept loop, the queue and the workers.  `accepted` and `taken` record the
sockets passed to `enqueue_job` and returned by `dequeue_job` so far. -/
structure QueueServer where
  g_paused : Bool
  queue : JobQueue
  /-- the socket a worker is busy with; `none` when it is at `dequeue_job` -/
  workers : Fin NUM_THREADS → Option ℤ
  accepted : List ℤ
  taken : List ℤ

def QueueServer.initial : QueueServer :=
  { g_paused := false, queue := .initial, workers := fun _ => none, accepted := [], taken := [] }

/-- What a thread does next: `main` accepts a connection, a worker takes a job, a
worker comes back from `handle_client`. -/
inductive QueueAction where
  | accept (client_sock : ℤ)
  | take (thread_id : Fin NUM_THREADS)
  | finish (thread_id : Fin NUM_THREADS)

/-- The `server_sock` branch of the epoll loop: a failed `accept` and a paused server
enqueue nothing. -/
def accept_client (s : QueueServer) (client_sock : ℤ) : QueueServer :=
  if client_sock < 0 then s
  else if s.g_paused then s
  else { s with
    queue := enqueue_job s.queue client_sock
    accepted := s.accepted ++ [client_sock] }

/-- One step of the accept loop or of a worker. -/
def queueStep (s : QueueServer) : QueueAction → Option QueueServer
  | .accept client_sock => some (accept_client s client_sock)
  | .take thread_id =>
    if s.workers thread_id = none then
      (dequeue_job s.queue).map fun (sock, q) =>
        { s with
          queue := q
          workers := Function.update s.workers thread_id (some sock)
          taken := s.taken ++ [sock] }
    else none
  | .finish thread_id =>
    if s.workers thread_id = none then none
    else some { s with workers := Function.update s.workers thread_id none }

/-! ## The ring buffer stores a queue -/

/-- The ring buffer `q` stores the queue `l`. -/
structure Holds (q : JobQueue) (l : List ℤ) : Prop where
  count : q.q_count = l.length
  bound : l.length ≤ MAX_QUEUE
  tail : q.q_tail = Circular.slot q.q_head l.length
  contents : Circular.contents q.job_queue q.q_head l.length = l

theorem holds_initial : Holds .initial [] :=
  ⟨rfl, Nat.zero_le _, by simp [JobQueue.initial], rfl⟩

/-- With a slot free, `enqueue_job` appends. -/
theorem holds_enqueue_job {q : JobQueue} {l : List ℤ} (h : Holds q l)
    (hroom : q.q_count < MAX_QUEUE) (sock : ℤ) : Holds (enqueue_job q sock) (l ++ [sock]) := by
  have hlen : l.length < MAX_QUEUE := by
    have := h.count
    omega
  refine ⟨?_, ?_, ?_, ?_⟩
  · simp [enqueue_job, h.count]
  · simpa using Nat.succ_le_of_lt hlen
  · show Circular.slot q.q_tail 1 = Circular.slot q.q_head _
    rw [List.length_append, List.length_singleton, h.tail, Circular.slot_slot]
  · show Circular.contents (Function.update q.job_queue q.q_tail sock) q.q_head _ = _
    rw [List.length_append, List.length_singleton, h.tail, Circular.contents_push _ _ hlen,
      h.contents]

/-- `dequeue_job` waits exactly while the queue is empty. -/
theorem dequeue_job_eq_none {q : JobQueue} (h : Holds q []) : dequeue_job q = none := by
  simp [dequeue_job, h.count]

/-- `dequeue_job` returns the first element and leaves the rest. -/
theorem dequeue_job_eq_some {q : JobQueue} {sock : ℤ} {l : List ℤ} (h : Holds q (sock :: l)) :
    ∃ q', dequeue_job q = some (sock, q') ∧ Holds q' l := by
  have hcont := h.contents
  rw [List.length_cons, Circular.contents_pop] at hcont
  obtain ⟨hhead, hrest⟩ := List.cons.inj hcont
  have hcount := h.count
  have hbound := h.bound
  have htail := h.tail
  rw [List.length_cons] at hcount hbound htail
  refine ⟨{ q with q_head := Circular.slot q.q_head 1, q_count := q.q_count - 1 }, ?_, ?_, ?_, ?_,
    hrest⟩
  · rw [dequeue_job, if_neg (by omega), hhead]
    rfl
  · push_cast at hcount
    show q.q_count - 1 = _
    omega
  · omega
  · show q.q_tail = Circular.slot (Circular.slot q.q_head 1) l.length
    rw [Circular.slot_slot, htail, Nat.add_comm]

/-! ## Invariants of the server -/

/-- What has been accepted is what has been taken followed by what is queued. -/
def Lossless (s : QueueServer) : Prop :=
  ∃ l, Holds s.queue l ∧ s.accepted = s.taken ++ l

/-- The sockets handed to workers are a prefix of those accepted, and `q_count` stays
within the ring buffer. -/
def Fifo (s : QueueServer) : Prop :=
  s.taken <+: s.accepted ∧ 0 ≤ s.queue.q_count ∧ s.queue.q_count ≤ MAX_QUEUE

/-- An action that enqueues a socket finds a free slot. -/
def HasRoom (s : QueueServer) : QueueAction → Prop
  | .accept client_sock => 0 ≤ client_sock → s.g_paused = false → s.queue.q_count < MAX_QUEUE
  | _ => True

theorem lossless_initial : Lossless .initial := ⟨[], holds_initial, rfl⟩

theorem Lossless.fifo {s : QueueServer} (h : Lossless s) : Fifo s := by
  obtain ⟨l, hl, heq⟩ := h
  have hcount := hl.count
  have hbound := hl.bound
  refine ⟨⟨l, heq.symm⟩, by omega, by omega⟩

/-- An accepted connection is enqueued unless the call failed or the server is paused. -/
theorem accept_client_of_nonneg {s : QueueServer} {client_sock : ℤ} (hsock : 0 ≤ client_sock)
    (hpaused : s.g_paused = false) :
    accept_client s client_sock
      = { s with
          queue := enqueue_job s.queue client_sock
          accepted := s.accepted ++ [client_sock] } := by
  rw [accept_client, if_neg (by omega), hpaused]
  rfl

theorem accept_client_cases (s : QueueServer) (client_sock : ℤ) :
    accept_client s client_sock = s ∨ (0 ≤ client_sock ∧ s.g_paused = false) := by
  rcases lt_or_ge client_sock 0 with hneg | hnonneg
  · exact Or.inl (if_pos hneg)
  · cases hpaused : s.g_paused with
    | false => exact Or.inr ⟨hnonneg, rfl⟩
    | true =>
      left
      rw [accept_client, if_neg (by omega), hpaused, if_pos rfl]

/-- A step of the server with a slot free for every enqueue loses nothing. -/
theorem lossless_step (s : QueueServer) (a : QueueAction) (s' : QueueServer) (h : Lossless s)
    (hroom : HasRoom s a) (hstep : queueStep s a = some s') : Lossless s' := by
  obtain ⟨l, hl, heq⟩ := h
  cases a with
  | accept client_sock =>
    simp only [queueStep, Option.some.injEq] at hstep
    subst hstep
    rcases accept_client_cases s client_sock with hsame | ⟨hsock, hpaused⟩
    · rw [hsame]
      exact ⟨l, hl, heq⟩
    · -- the socket joins the end of the queue
      rw [accept_client_of_nonneg hsock hpaused]
      exact ⟨l ++ [client_sock], holds_enqueue_job hl (hroom hsock hpaused) client_sock,
        by simp [heq]⟩
  | take thread_id =>
    simp only [queueStep] at hstep
    split at hstep
    · cases l with
      | nil => simp [dequeue_job_eq_none hl] at hstep
      | cons sock l =>
        -- the worker gets the socket that has waited longest
        obtain ⟨q, hq, hq'⟩ := dequeue_job_eq_some hl
        simp only [hq, Option.map_some, Option.some.injEq] at hstep
        subst hstep
        exact ⟨l, hq', by simp [heq]⟩
    · cases hstep
  | finish thread_id =>
    simp only [queueStep] at hstep
    split at hstep
    · cases hstep
    · simp only [Option.some.injEq] at hstep
      subst hstep
      exact ⟨l, hl, heq⟩

/-- **The queue is a lossless FIFO exactly as long as it is never overfilled.**  Over
any interleaving of the accept loop with the workers, the sockets taken are at all
times a prefix of the sockets accepted and `q_count` stays within `0` and `MAX_QUEUE`,
if and only if every `enqueue_job` of the interleaving finds fewer than `MAX_QUEUE`
sockets in the queue. -/
theorem always_fifo_iff_hasRoom (as : List QueueAction) :
    Runs.Always queueStep Fifo .initial as ↔ Runs.Along queueStep HasRoom .initial as := by
  constructor
  · intro h
    rw [Runs.along_iff_forall]
    intro pre a post s heq hs
    cases a with
    | accept client_sock =>
      -- the bound on `q_count` after the step is the free slot before it
      intro hsock hpaused
      have hafter := h (pre ++ [.accept client_sock]) ⟨post, by simp [heq]⟩
        (accept_client s client_sock)
        ((Runs.exec_concat_eq_some queueStep).mpr ⟨s, hs, rfl⟩)
      have hle := hafter.2.2
      rw [accept_client_of_nonneg hsock hpaused] at hle
      simp only [enqueue_job] at hle
      omega
    | take _ => trivial
    | finish _ => trivial
  · intro h
    exact (Runs.always_of_invariant lossless_initial lossless_step h).imp fun _ => Lossless.fifo

/-- `MAX_QUEUE + 1` connections accepted before a worker asks for one: the last one has
overwritten the first, and the worker is handed socket `100` where `0` is next. -/
theorem enqueue_job_overflow :
    ¬ Runs.Always queueStep Fifo .initial
      ((List.range 101).map (fun sock => QueueAction.accept sock) ++ [.take 0]) := by
  intro h
  have hrun : (Runs.exec queueStep .initial
        ((List.range 101).map (fun sock => QueueAction.accept sock) ++ [.take 0])).map
      (fun s => (s.accepted.head?, s.taken)) = some (some 0, [100]) := by
    decide +kernel
  obtain ⟨s, hs, hobs⟩ := Option.map_eq_some_iff.mp hrun
  obtain ⟨hacc, htaken⟩ := Prod.mk.inj hobs
  obtain ⟨rest, hrest⟩ := (h _ (List.prefix_refl _) s hs).1
  rw [← hrest, htaken] at hacc
  simp at hacc

end MiniCi
