/-
# Workers that wait for jobs

`enqueue_job` and `dequeue_job` of `server/server.c`, statement by statement: `main` and the
workers lock `q_mutex`, a worker waits on `q_cond` while `q_count` is `0`, and may wake from there
without a signal.  So the two functions are a mailbox, and what holds of mailboxes says that

* `queueStep`, in which each of them is one step, is all there is to see of them;
* a job waits for a worker only while all of them are busy, or one of them is on its way.
-/
import MiniCi.JobQueue
import MiniCi.Mailbox

namespace MiniCi

open Runs Mailbox

/-! ## The source -/

/-- The statements of `enqueue_job` and `dequeue_job` between those on the mutex and on `q_cond`. -/
def jobOps : Ops JobQueue ℤ where
  empty q := q.q_count == 0
  next q := q.job_queue q.q_head
  put sock :=
    [fun q => { q with job_queue := Function.update q.job_queue q.q_tail sock },
      fun q => { q with q_tail := Fin.ofNat MAX_QUEUE (q.q_tail + 1) },
      fun q => { q with q_count := q.q_count + 1 }]
  take :=
    [fun q => { q with q_head := Fin.ofNat MAX_QUEUE (q.q_head + 1) },
      fun q => { q with q_count := q.q_count - 1 }]

/-- `main` and the workers at the job queue. -/
abbrev JobThreads := Threads (Fin NUM_THREADS) JobQueue ℤ

/-- A statement of `main` or a worker.  `main` comes to `enqueue_job` with sockets that `accept` has
returned. -/
def jobStep (s : JobThreads) : Move (Fin NUM_THREADS) ℤ → Option JobThreads
  | .call client_sock =>
    if client_sock < 0 then none else step jobOps s (.call client_sock)
  | m => step jobOps s m

/-- The workers start in front of `dequeue_job`. -/
def JobThreads.initial : JobThreads := .start (Fin NUM_THREADS) ℤ .initial

/-- `enqueue_job` and `dequeue_job` as single steps. -/
def queueAction : AtomicMove (Fin NUM_THREADS) ℤ → QueueAction
  | .put client_sock => .accept client_sock
  | .take thread_id => .take thread_id
  | .finish thread_id => .finish thread_id

/-- The calls of a run, in the order in which they get hold of `q_mutex`; those of `dequeue_job`
count where they find a job. -/
def jobCalls : JobThreads → List (Move (Fin NUM_THREADS) ℤ) → List QueueAction
  | _, [] => []
  | s, m :: ms =>
    match jobStep s m with
    | some s' => (s.shown jobOps m).map queueAction ++ jobCalls s' ms
    | none => []

/-- The queue is what it is in the run of the calls, and so is the job of each worker. -/
def Shows (s : JobThreads) (q : QueueServer) : Prop :=
  q.queue = s.completed ∧ q.workers = fun i => (s.consumer i).job

/-- The jobs get to the workers.  `atomic`: as if each call were one step; `settles`: the threads
come to rest after a number of statements of their own; `settled`: there a job is left only if every
worker has one. -/
structure HandsOut (ms : List (Move (Fin NUM_THREADS) ℤ)) (s : JobThreads) : Prop where
  atomic : ∃ q, exec queueStep .initial (jobCalls .initial ms) = some q ∧ Shows s q
  settles : ∀ own s', (∀ m ∈ own, m.Own) → exec jobStep s own = some s' → own.length ≤ 31
  settled : (∀ m, m.Own → jobStep s m = none) →
    s.store.q_count = 0 ∨ ∀ thread_id, ∃ sock, s.consumer thread_id = .busy sock

/-! ## The statements together -/

theorem runAll_put (sock : ℤ) (q : JobQueue) :
    runAll (jobOps.put sock) q = enqueue_job q sock := rfl

theorem dequeue_job_of_not_empty {q : JobQueue} (h : jobOps.empty q = false) :
    dequeue_job q = some (jobOps.next q, runAll jobOps.take q) :=
  if_neg (ne_of_beq_false h)

theorem counts_jobOps : Counts jobOps (fun q => 0 ≤ q.q_count) fun q => q.q_count.toNat where
  empty_iff {q} hq := by
    show (q.q_count == 0) = true ↔ _
    rw [beq_iff_eq]
    omega
  good_put {q} hq sock := by
    show 0 ≤ q.q_count + 1
    omega
  size_put {q} hq sock := by
    show (q.q_count + 1).toNat = _
    omega
  good_take {q} hq hsome := by
    have hne : q.q_count ≠ 0 := ne_of_beq_false hsome
    show 0 ≤ q.q_count - 1
    omega
  size_take {q} hq hsome := by
    have hne : q.q_count ≠ 0 := ne_of_beq_false hsome
    show (q.q_count - 1).toNat + 1 = _
    omega

/-! ## Runs -/

/-- What holds of the threads wherever they are.  `sockets`: `main` comes with sockets. -/
structure JobInv (s : JobThreads) : Prop where
  locked : Locked s
  awake : Awake (fun q => 0 ≤ q.q_count) (fun q => q.q_count.toNat) s
  short : Short jobOps 3 s
  sockets : ∀ sock, s.producer = .atLock sock → 0 ≤ sock

section Runs

variable {s s' : JobThreads} {m : Move (Fin NUM_THREADS) ℤ}

theorem jobInv_initial : JobInv .initial :=
  ⟨locked_start _, awake_start le_rfl, short_start 3 _, nofun⟩

theorem moves_of_jobStep (hstep : jobStep s m = some s') : Moves jobOps s m s' := by
  cases m with
  | call sock =>
    simp only [jobStep] at hstep
    split_ifs at hstep
    exact moves_of_step hstep
  | _ => exact moves_of_step hstep

theorem jobStep_of_own (hown : m.Own) : jobStep s m = step jobOps s m := by
  cases m with
  | call sock => exact hown.elim
  | _ => rfl

theorem JobInv.step (h : JobInv s) (hstep : jobStep s m = some s') : JobInv s' := by
  have hmoves := moves_of_jobStep hstep
  refine ⟨h.locked.step hmoves, h.awake.step counts_jobOps h.locked hmoves,
    h.short.step (fun _ => le_rfl) hmoves, ?_⟩
  cases hmoves with
  | call sock hout =>
    rintro _ ⟨rfl⟩
    simp only [jobStep] at hstep
    split_ifs at hstep with hneg
    exact not_lt.mp hneg
  | lockPut sock hp hfree => exact nofun
  | put f todo hp => exact nofun
  | signalNone hp hnone => exact nofun
  | signal i hp hi => exact nofun
  | unlockPut hp => exact nofun
  | _ => exact h.sockets

/-- The queue and the jobs are those of the threads, and nobody has paused the server. -/
structure Tracks (q : QueueServer) (t : Atomic (Fin NUM_THREADS) JobQueue ℤ) : Prop where
  paused : q.g_paused = false
  queue : q.queue = t.store
  workers : q.workers = t.job

/-- The calls do to the queue what they do together. -/
theorem Tracks.step {t t' : Atomic (Fin NUM_THREADS) JobQueue ℤ}
    {a : AtomicMove (Fin NUM_THREADS) ℤ} {q : QueueServer} (h : Tracks q t)
    (hsock : ∀ sock, a = .put sock → 0 ≤ sock) (hstep : atomicStep jobOps t a = some t') :
    ∃ q', queueStep q (queueAction a) = some q' ∧ Tracks q' t' := by
  obtain ⟨hpaused, hqueue, hworkers⟩ := h
  cases a with
  | put sock =>
    obtain rfl := Option.some.inj hstep
    refine ⟨_, congrArg some (accept_client_of_nonneg (hsock sock rfl) hpaused),
      ⟨hpaused, ?_, hworkers⟩⟩
    show enqueue_job q.queue sock = runAll (jobOps.put sock) t.store
    rw [hqueue, runAll_put]
  | take i =>
    simp only [atomicStep] at hstep
    split_ifs at hstep with hcan
    obtain rfl := Option.some.inj hstep
    refine ⟨{ q with
      queue := runAll jobOps.take t.store
      workers := Function.update q.workers i (some (jobOps.next t.store))
      taken := q.taken ++ [jobOps.next t.store] }, ?_, ⟨hpaused, rfl, ?_⟩⟩
    · show (if q.workers i = none then _ else none) = _
      rw [if_pos (by rw [hworkers]; exact hcan.1), hqueue, dequeue_job_of_not_empty hcan.2]
      rfl
    · show Function.update q.workers i _ = Function.update t.job i _
      rw [hworkers]
  | finish i =>
    simp only [atomicStep] at hstep
    split_ifs at hstep with hidle
    obtain rfl := Option.some.inj hstep
    refine ⟨{ q with workers := Function.update q.workers i none }, ?_, ⟨hpaused, hqueue, ?_⟩⟩
    · show (if q.workers i = none then none else _) = _
      rw [if_neg (by rw [hworkers]; exact hidle)]
    · show Function.update q.workers i none = Function.update t.job i none
      rw [hworkers]

theorem Tracks.exec {t t' : Atomic (Fin NUM_THREADS) JobQueue ℤ}
    {as : List (AtomicMove (Fin NUM_THREADS) ℤ)} {q : QueueServer} (h : Tracks q t)
    (hsock : ∀ sock, .put sock ∈ as → 0 ≤ sock) (hrun : exec (atomicStep jobOps) t as = some t') :
    ∃ q', Runs.exec queueStep q (as.map queueAction) = some q' ∧ Tracks q' t' := by
  induction as generalizing t q with
  | nil =>
    obtain rfl := Option.some.inj hrun
    exact ⟨q, rfl, h⟩
  | cons a as ih =>
    obtain ⟨t₁, hstep, hrest⟩ := (exec_cons_eq_some _).mp hrun
    obtain ⟨q₁, hq₁, htracks⟩ := h.step (fun sock ha => hsock sock (ha ▸ List.mem_cons_self)) hstep
    obtain ⟨q', hq', htracks'⟩ :=
      ih htracks (fun sock ha => hsock sock (List.mem_cons_of_mem _ ha)) hrest
    exact ⟨q', (exec_cons_eq_some _).mpr ⟨q₁, hq₁, hq'⟩, htracks'⟩

/-- **A run of the threads is a run of the calls.** -/
theorem exec_jobCalls {ms : List (Move (Fin NUM_THREADS) ℤ)} {q : QueueServer} (h : JobInv s)
    (htracks : Tracks q s.atomic) (hrun : exec jobStep s ms = some s') :
    ∃ q', exec queueStep q (jobCalls s ms) = some q' ∧ Tracks q' s'.atomic := by
  induction ms generalizing s q with
  | nil =>
    obtain rfl := Option.some.inj hrun
    exact ⟨q, rfl, htracks⟩
  | cons m ms ih =>
    obtain ⟨s₁, hstep, hrest⟩ := (exec_cons_eq_some _).mp hrun
    have hatomic := atomic_of_moves h.locked (moves_of_jobStep hstep)
    obtain ⟨q₁, hq₁, htracks₁⟩ :=
      htracks.exec (fun sock hmem => h.sockets sock (producer_of_put_mem hmem)) hatomic
    obtain ⟨q', hq', htracks'⟩ := ih (h.step hstep) htracks₁ hrest
    refine ⟨q', ?_, htracks'⟩
    rw [jobCalls, hstep]
    exact (exec_append_eq_some _).mpr ⟨q₁, hq₁, hq'⟩

/-- What the threads do of their own they do by the statements alone. -/
theorem exec_own {own : List (Move (Fin NUM_THREADS) ℤ)} (hown : ∀ m ∈ own, m.Own) :
    exec jobStep s own = exec (step jobOps) s own := by
  induction own generalizing s with
  | nil => rfl
  | cons m ms ih =>
    have hothers := fun m hm => hown m (List.mem_cons_of_mem _ hm)
    show (jobStep s m).bind _ = (step jobOps s m).bind _
    rw [jobStep_of_own (hown m List.mem_cons_self)]
    exact congrArg _ (funext fun s' => ih hothers)

end Runs

/-- **The jobs get to the workers.**  Whatever `main` accepts, however the threads interleave and
whoever wakes without a signal: the queue is what the calls of `enqueue_job` and `dequeue_job` make
of it one after the other; the threads come to rest; and then no job is left behind while a worker
has none. -/
theorem jobs_handed_out (ms : List (Move (Fin NUM_THREADS) ℤ)) (s : JobThreads)
    (hrun : exec jobStep .initial ms = some s) : HandsOut ms s := by
  have hinv : JobInv s := invariant_of_step jobInv_initial (fun _ _ _ h => h.step) hrun
  refine ⟨?_, fun own s' hown hexec => ?_, fun hrest => ?_⟩
  · obtain ⟨q, hq, htracks⟩ :=
      exec_jobCalls jobInv_initial (q := .initial) ⟨rfl, rfl, rfl⟩ hrun
    exact ⟨q, hq, htracks.queue, htracks.workers⟩
  · rw [exec_own hown] at hexec
    have hlen := length_add_work_le hown hexec
    have hwork : s.work jobOps ≤ 3 + 2 + 6 + Fintype.card (Fin NUM_THREADS) * (2 + 3) :=
      hinv.short.work_le fun _ => le_rfl
    rw [Fintype.card_fin] at hwork
    have hbound : s.work jobOps ≤ 31 := hwork
    omega
  · have hatRest : AtRest jobOps s := fun m hown => jobStep_of_own hown ▸ hrest m hown
    rcases hatRest.nothing_left hinv.locked hinv.awake with hzero | hbusy
    · left
      have hgood := hinv.awake.good
      rw [completed_of_free (hatRest.free hinv.locked)] at hgood
      omega
    · exact Or.inr hbusy

/-- Worker `0` finds nothing and goes to sleep; `main` comes with socket `5`, and worker `1` takes
it before worker `0`, which the signal has woken, gets hold of `q_mutex`. -/
def overtaken : List (Move (Fin NUM_THREADS) ℤ) :=
  [.lock 0, .test 0, .call 5, .lockPut, .put, .put, .put, .signal (some 0), .unlockPut,
    .lock 1, .test 1, .take 1, .take 1, .unlock 1, .lock 0, .test 0]

theorem jobs_handed_out_overtaken :
    ∃ s, exec jobStep .initial overtaken = some s ∧ HandsOut overtaken s ∧
      (s.consumer 1).job = some 5 := by
  have hrun : ((exec jobStep .initial overtaken).map fun s => (s.consumer 1).job)
      = some (some 5) := by
    decide +kernel
  obtain ⟨s, hs, hjob⟩ := Option.map_eq_some_iff.mp hrun
  exact ⟨s, hs, jobs_handed_out overtaken s hs, hjob⟩

end MiniCi
