/-
# A class at work

Clients connect and send; the accept loop queues their connections; workers take them, receive what
was sent, grade it, enter it and answer; and the week may be switched at any time.  A `Classroom`
puts the job queue and the workers of `WeekServer` together, with what each client has sent and what
each worker has received.  The connections are numbered as they are accepted.

The queue must not overflow.  Then every connection is in one place: it waits, a worker has it, or
it has been finished; and what the client of a submission is answered is the grade of that
submission (`serves_class`), in every interleaving and whatever the other clients send.  What was
compiled for it is the file that was sent if `source.c` could be opened and every `write` to it took
all, which nothing looks at; else it is a part of that file, or nothing.

The connections are open in the programs that are run, too.  These are taken to leave them alone:
a connection carries what its client sends and what its worker answers.
-/
import MiniCi.JobQueue
import MiniCi.StoresInStep
import MiniCi.SubmitRoundTrip
import Mathlib.Algebra.Order.BigOperators.Group.Finset

namespace MiniCi

open CStr ByteStream Runs

/-! ## State -/

/-- What a worker has received, whether it could make a work directory and open `source.c`, and what
the `write`s to that took. -/
structure Intake where
  mkdtemp : Bool
  opened : Bool
  writes : ℕ → Option ℕ
  received : Received

/-- The header of a submission. -/
def Received.submitted : Received → Option SubmitHeader
  | .submission hdr _ => some hdr
  | _ => none

/-- The source of a submission, if `source.c` could be opened. -/
def Received.source : Received → Option Bytes
  | .submission _ source => source
  | _ => none

/-- A reply, with what it is about: the connection, whether `source.c` could be opened and what the
`write`s of it took, the source that was compiled, the grade, and whether the submission was entered
in the tracker. -/
structure Answer where
  sock : ℤ
  opened : Bool
  writes : ℕ → Option ℕ
  source : Option Bytes
  g : Graded
  isRecorded : Bool
  header : ResultHeader

/-- The server, and what its clients have sent.  The last three fields are a history: the
connections closed without a result, the replies, and the connections whose submissions were
entered in the tracker. -/
structure Classroom where
  queue : QueueServer
  server : WeekServer NUM_THREADS
  intake : Fin NUM_THREADS → Option Intake
  wires : List Bytes
  left : List (ℤ × Bool)
  answers : List Answer
  bookedBy : List ℤ

/-- The server has been started. -/
def Classroom.initial (csv : CsvState) (disk : Disk) : Classroom :=
  { queue := .initial, server := .initial NUM_THREADS csv disk, intake := fun _ => none
    wires := [], left := [], answers := [], bookedBy := [] }

/-- What was sent on a connection. -/
def wireOf (wires : List Bytes) (sock : ℤ) : Bytes := wires.getD sock.toNat []

/-! ## Steps -/

inductive ClassAction where
  /-- a client connects, and sends this -/
  | connect (wire : Bytes)
  /-- a worker takes a connection -/
  | take (i : Fin NUM_THREADS)
  /-- it receives what was sent -/
  | receive (i : Fin NUM_THREADS) (mkdtemp opened : Bool) (writes : ℕ → Option ℕ) (frag : ℕ → ℕ)
  /-- `handle_client` returns without a result -/
  | leave (i : Fin NUM_THREADS)
  /-- `ctx_record_submission` -/
  | record (i : Fin NUM_THREADS) (now : ℤ)
  /-- `build_and_send_result` sends -/
  | reply (i : Fin NUM_THREADS)
  /-- the other sections of the workers and of the main thread -/
  | week (a : WeekAction NUM_THREADS)

/-- A worker works on what it has received; the sections of `ClassAction` are not among these. -/
def Classroom.Permits (s : Classroom) : WeekAction NUM_THREADS → Prop
  | .snapshot i => s.queue.workers i ≠ none
  | .expect i hdr _ _ => (s.intake i).bind (·.received.submitted) = some hdr
  | .fail i hdr _ _ _ => (s.intake i).bind (·.received.submitted) = some hdr
  | .leave _ => False
  | .record _ _ => False
  | .reply _ => False
  | _ => True

instance (s : Classroom) : ∀ a, Decidable (s.Permits a)
  | .set_hw _ | .reset | .open_csv _ _ _ | .set_students _ => .isTrue trivial
  | .compare _ _ | .check _ | .write_csv _ _ _ _ => .isTrue trivial
  | .leave _ | .record _ _ | .reply _ => .isFalse not_false
  | .snapshot _ => inferInstanceAs (Decidable (_ ≠ _))
  | .expect _ _ _ _ | .fail _ _ _ _ _ => inferInstanceAs (Decidable (_ = _))

/-- The worker is done with its connection. -/
def Classroom.finish (s : Classroom) (i : Fin NUM_THREADS) (a : WeekAction NUM_THREADS) :
    Option Classroom :=
  (weekStep s.server a).bind fun server =>
    (queueStep s.queue (.finish i)).map fun queue =>
      { s with server, queue, intake := Function.update s.intake i none }

/-- One step of the class. -/
def classStep (s : Classroom) : ClassAction → Option Classroom
  | .connect wire =>
    (queueStep s.queue (.accept s.wires.length)).map fun queue =>
      { s with queue, wires := s.wires ++ [wire] }
  | .take i => (queueStep s.queue (.take i)).map fun queue => { s with queue }
  | .receive i mkdtemp opened writes frag =>
    match s.queue.workers i, s.server.workers i, s.intake i with
    | some sock, .started _, none =>
      let received := receive_client mkdtemp opened writes ⟨wireOf s.wires sock, frag⟩
      some { s with
        intake := Function.update s.intake i (some ⟨mkdtemp, opened, writes, received⟩) }
    | _, _, _ => none
  | .leave i =>
    match s.queue.workers i, s.intake i with
    | some sock, some ⟨mkdtemp, _, _, received⟩ =>
      if received.submitted = none then
        (s.finish i (.leave i)).map fun s' => { s' with left := s.left ++ [(sock, mkdtemp)] }
      else none
    | _, _ => none
  | .record i now =>
    match s.queue.workers i with
    | some sock =>
      (weekStep s.server (.record i now)).map fun server =>
        { s with server, bookedBy := s.bookedBy ++ [sock] }
    | none => none
  | .reply i =>
    match s.queue.workers i, s.intake i, s.server.workers i with
    | some sock, some ⟨_, opened, writes, received⟩,
        .checked task_hw g my_submit_count isRecorded _ =>
      (s.finish i (.reply i)).map fun s' =>
        { s' with
          answers := s.answers ++ [⟨sock, opened, writes, received.source, g, isRecorded,
            resultHeader task_hw g my_submit_count s.server.tracker⟩] }
    | _, _, _ => none
  | .week a =>
    if s.Permits a then (weekStep s.server a).map fun server => { s with server } else none

/-- A connection that is accepted finds a free slot in the queue. -/
def RoomInQueue (s : Classroom) : ClassAction → Prop
  | .connect _ => s.queue.queue.q_count < MAX_QUEUE
  | _ => True

instance (s : Classroom) : ∀ a, Decidable (RoomInQueue s a)
  | .connect _ => inferInstanceAs (Decidable (_ < _))
  | .take _ | .receive _ _ _ _ _ | .leave _ | .record _ _ | .reply _ | .week _ => .isTrue trivial

/-! ## What a step can do -/

section Cases

variable {s s' : Classroom} {i : Fin NUM_THREADS}

theorem connect_cases {wire : Bytes} (h : classStep s (.connect wire) = some s') :
    s' = { s with
      queue := accept_client s.queue s.wires.length
      wires := s.wires ++ [wire] } :=
  (Option.some.inj h).symm

theorem take_cases (h : classStep s (.take i) = some s') :
    s.queue.workers i = none ∧ ∃ sock q, dequeue_job s.queue.queue = some (sock, q) ∧
      s' = { s with
        queue := { s.queue with
          queue := q
          workers := Function.update s.queue.workers i (some sock)
          taken := s.queue.taken ++ [sock] } } := by
  simp only [classStep, queueStep] at h
  split_ifs at h with hfree
  · rw [Option.map_map] at h
    obtain ⟨⟨sock, q⟩, hq, rfl⟩ := Option.map_eq_some_iff.mp h
    exact ⟨hfree, sock, q, hq, rfl⟩
  · cases h

theorem receive_cases {mkdtemp opened : Bool} {writes : ℕ → Option ℕ} {frag : ℕ → ℕ}
    (h : classStep s (.receive i mkdtemp opened writes frag) = some s') :
    ∃ sock task_hw, s.queue.workers i = some sock ∧ s.server.workers i = .started task_hw ∧
      s' = { s with
        intake := Function.update s.intake i (some ⟨mkdtemp, opened, writes,
          receive_client mkdtemp opened writes ⟨wireOf s.wires sock, frag⟩⟩) } := by
  simp only [classStep] at h
  split at h
  · exact ⟨_, _, ‹_›, ‹_›, (Option.some.inj h).symm⟩
  · cases h

/-- A worker receives once. -/
theorem intake_of_receive {mkdtemp opened : Bool} {writes : ℕ → Option ℕ} {frag : ℕ → ℕ}
    (h : classStep s (.receive i mkdtemp opened writes frag) = some s') : s.intake i = none := by
  simp only [classStep] at h
  split at h
  · assumption
  · cases h

theorem finish_cases {a : WeekAction NUM_THREADS} (h : s.finish i a = some s') :
    ∃ server, weekStep s.server a = some server ∧
      s' = { s with
        server
        queue := { s.queue with workers := Function.update s.queue.workers i none }
        intake := Function.update s.intake i none } := by
  obtain ⟨server, hserver, h⟩ := Option.bind_eq_some_iff.mp h
  obtain ⟨queue, hqueue, rfl⟩ := Option.map_eq_some_iff.mp h
  simp only [queueStep] at hqueue
  split_ifs at hqueue
  exact ⟨server, hserver, by rw [← Option.some.inj hqueue]⟩

theorem leave_cases_class (h : classStep s (.leave i) = some s') :
    ∃ sock k server, s.queue.workers i = some sock ∧ s.intake i = some k ∧
      k.received.submitted = none ∧ weekStep s.server (.leave i) = some server ∧
      s' = { s with
        server
        queue := { s.queue with workers := Function.update s.queue.workers i none }
        intake := Function.update s.intake i none
        left := s.left ++ [(sock, k.mkdtemp)] } := by
  simp only [classStep] at h
  split at h
  · split_ifs at h with hnone
    obtain ⟨s₁, hfinish, rfl⟩ := Option.map_eq_some_iff.mp h
    obtain ⟨server, hserver, rfl⟩ := finish_cases hfinish
    exact ⟨_, _, server, ‹_›, ‹_›, hnone, hserver, rfl⟩
  · cases h

theorem record_cases_class {now : ℤ} (h : classStep s (.record i now) = some s') :
    ∃ sock server, s.queue.workers i = some sock ∧
      weekStep s.server (.record i now) = some server ∧
      s' = { s with server, bookedBy := s.bookedBy ++ [sock] } := by
  simp only [classStep] at h
  split at h
  · obtain ⟨server, hserver, rfl⟩ := Option.map_eq_some_iff.mp h
    exact ⟨_, server, ‹_›, hserver, rfl⟩
  · cases h

theorem reply_cases_class (h : classStep s (.reply i) = some s') :
    ∃ sock k task_hw g my_submit_count isRecorded resets server,
      s.queue.workers i = some sock ∧ s.intake i = some k ∧
      s.server.workers i = .checked task_hw g my_submit_count isRecorded resets ∧
      weekStep s.server (.reply i) = some server ∧
      s' = { s with
        server
        queue := { s.queue with workers := Function.update s.queue.workers i none }
        intake := Function.update s.intake i none
        answers := s.answers ++ [⟨sock, k.opened, k.writes, k.received.source, g, isRecorded,
          resultHeader task_hw g my_submit_count s.server.tracker⟩] } := by
  simp only [classStep] at h
  split at h
  · obtain ⟨s₁, hfinish, rfl⟩ := Option.map_eq_some_iff.mp h
    obtain ⟨server, hserver, rfl⟩ := finish_cases hfinish
    exact ⟨_, _, _, _, _, _, _, server, ‹_›, ‹_›, ‹_›, hserver, rfl⟩
  · cases h

theorem week_cases {a : WeekAction NUM_THREADS} (h : classStep s (.week a) = some s') :
    s.Permits a ∧ ∃ server, weekStep s.server a = some server ∧ s' = { s with server } := by
  simp only [classStep] at h
  split_ifs at h with hpermits
  obtain ⟨server, hserver, rfl⟩ := Option.map_eq_some_iff.mp h
  exact ⟨hpermits, server, hserver, rfl⟩

end Cases

/-! ## A worker and its connection -/

/-- This was received on the connection. -/
def CameFrom (wires : List Bytes) (sock : ℤ) (k : Intake) : Prop :=
  sock.toNat < wires.length ∧ ∃ frag,
    k.received = receive_client k.mkdtemp k.opened k.writes ⟨wireOf wires sock, frag⟩

/-- The header of the submission that a worker has graded or is about to grade. -/
def Worker.carries : Worker → Option SubmitHeader
  | .idle => none
  | .started _ => none
  | .comparing _ hdr _ _ _ => some hdr
  | .graded _ g => some g.hdr
  | .matched _ g => some g.hdr
  | .recorded _ g _ => some g.hdr
  | .checked _ g _ _ _ => some g.hdr

/-- The week a worker works for. -/
def Worker.taskWeek : Worker → Option (Buf MAX_WEEK_NAME)
  | .idle => none
  | .started task_hw => some task_hw
  | .comparing task_hw _ _ _ _ => some task_hw
  | .graded task_hw _ => some task_hw
  | .matched task_hw _ => some task_hw
  | .recorded task_hw _ _ => some task_hw
  | .checked task_hw _ _ _ _ => some task_hw

/-- The submission has been entered in the tracker. -/
def Worker.isBooked : Worker → Bool
  | .recorded _ _ _ => true
  | .checked _ _ _ isRecorded _ => isRecorded
  | _ => false

/-- A worker, the connection it has taken, and what it has received. -/
structure AtWork (wires : List Bytes) (job : Option ℤ) (k : Option Intake) (w : Worker) :
    Prop where
  came : ∀ x ∈ k, ∃ sock ∈ job, CameFrom wires sock x
  header : ∀ hdr ∈ w.carries, k.bind (·.received.submitted) = some hdr
  week : ∀ task_hw ∈ w.taskWeek, Terminated task_hw.bytes
  busy : job = none → w = .idle

section AtWork

variable {wires : List Bytes} {job : Option ℤ} {k : Option Intake} {x : Intake} {w w' : Worker}
  {sock : ℤ} {task_hw : Buf MAX_WEEK_NAME} {hdr : SubmitHeader}

theorem wireOf_append (h : sock.toNat < wires.length) (wire : Bytes) :
    wireOf (wires ++ [wire]) sock = wireOf wires sock := by
  unfold wireOf
  rw [List.getD_eq_getElem?_getD, List.getElem?_append_left h, ← List.getD_eq_getElem?_getD]

theorem CameFrom.append (h : CameFrom wires sock x) (wire : Bytes) :
    CameFrom (wires ++ [wire]) sock x := by
  obtain ⟨hlt, frag, hx⟩ := h
  refine ⟨?_, frag, ?_⟩
  · rw [List.length_append]
    exact Nat.lt_add_right _ hlt
  · rw [wireOf_append hlt]
    exact hx

theorem AtWork.append (h : AtWork wires job k w) (wire : Bytes) :
    AtWork (wires ++ [wire]) job k w := by
  refine ⟨?_, h.header, h.week, h.busy⟩
  intro x hx
  obtain ⟨sock, hsock, hcame⟩ := h.came x hx
  exact ⟨sock, hsock, hcame.append wire⟩

theorem atWork_idle (wires : List Bytes) (job : Option ℤ) : AtWork wires job none .idle :=
  ⟨nofun, nofun, nofun, fun _ => rfl⟩

/-- A worker without a connection has received nothing. -/
theorem AtWork.intake_eq_none (h : AtWork wires none k w) : k = none := by
  rcases k with _ | x
  · rfl
  · obtain ⟨_, hsock, -⟩ := h.came x rfl
    cases hsock

/-- A worker goes on with its submission. -/
theorem AtWork.moves (h : AtWork wires job k w) (hw : w ≠ .idle)
    (hheader : ∀ hdr ∈ w'.carries, hdr ∈ w.carries ∨ k.bind (·.received.submitted) = some hdr)
    (hweek : w'.taskWeek = w.taskWeek) : AtWork wires job k w' := by
  refine ⟨h.came, ?_, by rw [hweek]; exact h.week, fun hjob => absurd (h.busy hjob) hw⟩
  intro hdr hhdr
  rcases hheader hdr hhdr with hold | hnew
  · exact h.header hdr hold
  · exact hnew

theorem received_eq {r : Received} (h : r.submitted = some hdr) : r = .submission hdr r.source := by
  cases r with
  | closed => cases h
  | pull _ => cases h
  | submission hdr' source =>
    obtain rfl := Option.some.inj h
    rfl

end AtWork

/-! ## Every connection is in one place -/

/-- A connection in hand. -/
def placeOf : Option ℤ → Multiset ℤ
  | some sock => {sock}
  | none => 0

/-- The connection of a worker whose submission has been entered. -/
def bookedPlace (job : Option ℤ) (w : Worker) : Multiset ℤ := if w.isBooked then placeOf job else 0

/-- The connections that the workers have. -/
def Classroom.inHand (s : Classroom) : Multiset ℤ := ∑ i, placeOf (s.queue.workers i)

/-- Those of them that have been entered in the tracker. -/
def Classroom.bookedInHand (s : Classroom) : Multiset ℤ :=
  ∑ i, bookedPlace (s.queue.workers i) (s.server.workers i)

/-- Changing what one worker has, and where it is, changes a sum over the workers by that. -/
theorem sum_update_pair (F : Option ℤ → Worker → Multiset ℤ) (jobs : Fin NUM_THREADS → Option ℤ)
    (workers : Fin NUM_THREADS → Worker) (i : Fin NUM_THREADS) (job : Option ℤ) (w : Worker) :
    (∑ j, F (Function.update jobs i job j) (Function.update workers i w j)) +
      F (jobs i) (workers i) = (∑ j, F (jobs j) (workers j)) + F job w := by
  have hpair : ∀ j, F (Function.update jobs i job j) (Function.update workers i w j) =
      Function.uncurry F (Function.update (fun j => (jobs j, workers j)) i (job, w) j) := by
    intro j
    by_cases hj : j = i
    · subst hj
      rw [Function.update_self, Function.update_self, Function.update_self]
      rfl
    · rw [Function.update_of_ne hj, Function.update_of_ne hj, Function.update_of_ne hj]
      rfl
  rw [Finset.sum_congr rfl fun j _ => hpair j]
  exact sum_update_add (Function.uncurry F) _ i (job, w)

theorem coe_map_concat {α : Type*} (f : α → ℤ) (l : List α) (x : α) :
    (((l ++ [x]).map f : List ℤ) : Multiset ℤ) = ((l.map f : List ℤ) : Multiset ℤ) + {f x} := by
  rw [List.map_append, ← Multiset.coe_add]
  rfl

/-- A submission in the tracker is one that was received on this connection. -/
def EnteredFrom (wires : List Bytes) (sock : ℤ) (x : Buf MAX_WEEK_NAME × Graded) : Prop :=
  ∃ k, CameFrom wires sock k ∧ k.received.submitted = some x.2.hdr

/-- A reply is about the submission that was received on its connection. -/
def AnswersOwn (wires : List Bytes) (a : Answer) : Prop :=
  ∃ k, CameFrom wires a.sock k ∧ k.opened = a.opened ∧ k.writes = a.writes ∧
    k.received = .submission a.g.hdr a.source ∧
    ∃ task_hw my_submit_count t, Terminated task_hw.bytes ∧
      a.header = resultHeader task_hw a.g my_submit_count t

/-- A connection that was closed without a result brought no submission. -/
def LeftOut (wires : List Bytes) (x : ℤ × Bool) : Prop :=
  ∃ k, CameFrom wires x.1 k ∧ k.mkdtemp = x.2 ∧ k.received.submitted = none

/-- What holds of the class as long as the queue does not overflow. -/
structure ClassInv (s : Classroom) : Prop where
  lossless : Lossless s.queue
  running : s.queue.g_paused = false
  accepted : s.queue.accepted = (List.range s.wires.length).map (Nat.cast : ℕ → ℤ)
  atWork : ∀ i, AtWork s.wires (s.queue.workers i) (s.intake i) (s.server.workers i)
  hw : ∃ week_name, s.server.hw = ctx_set_hw_paths week_name
  placed : (s.queue.taken : Multiset ℤ) =
    s.inHand + (s.left.map Prod.fst : List ℤ) + (s.answers.map Answer.sock : List ℤ)
  booked : (s.bookedBy : Multiset ℤ) =
    s.bookedInHand + ((s.answers.filter Answer.isRecorded).map Answer.sock : List ℤ)
  entered : List.Forall₂ (EnteredFrom s.wires) s.bookedBy s.server.booked
  left : ∀ x ∈ s.left, LeftOut s.wires x
  answers : ∀ a ∈ s.answers, AnswersOwn s.wires a

theorem classInv_initial (csv : CsvState) (disk : Disk) : ClassInv (.initial csv disk) := by
  refine ⟨lossless_initial, rfl, rfl, fun _ => atWork_idle _ _, ⟨ascii "week_1", rfl⟩, ?_, ?_,
    .nil, fun _ hx => absurd hx List.not_mem_nil, fun _ ha => absurd ha List.not_mem_nil⟩
  · show (0 : Multiset ℤ) = (∑ _, 0) + 0 + 0
    rw [Finset.sum_const_zero, add_zero, add_zero]
  · show (0 : Multiset ℤ) = (∑ _, 0) + 0
    rw [Finset.sum_const_zero, add_zero]

section Steps

variable {s s' : Classroom} {i : Fin NUM_THREADS} {server : WeekServer NUM_THREADS} {wire : Bytes}

theorem ClassInv.connect (h : ClassInv s) (hroom : RoomInQueue s (.connect wire))
    (hstep : classStep s (.connect wire) = some s') : ClassInv s' := by
  have hlossless := lossless_step s.queue (.accept s.wires.length) _ h.lossless
    (fun _ _ => hroom) rfl
  have haccept := accept_client_of_nonneg (s := s.queue) (Int.natCast_nonneg s.wires.length)
    h.running
  obtain rfl := connect_cases hstep
  rw [haccept] at hlossless ⊢
  refine ⟨hlossless, h.running, ?_, fun i => (h.atWork i).append wire, h.hw, h.placed, h.booked,
    ?_, ?_, ?_⟩
  · show s.queue.accepted ++ [(s.wires.length : ℤ)] = _
    rw [h.accepted, List.length_append, List.length_singleton, List.range_succ, List.map_append]
    rfl
  · refine h.entered.imp ?_
    rintro sock x ⟨k, hcame, hx⟩
    exact ⟨k, hcame.append wire, hx⟩
  · rintro x hx
    obtain ⟨k, hcame, hrest⟩ := h.left x hx
    exact ⟨k, hcame.append wire, hrest⟩
  · rintro a ha
    obtain ⟨k, hcame, hrest⟩ := h.answers a ha
    exact ⟨k, hcame.append wire, hrest⟩

/-- A worker has a connection that was accepted. -/
theorem ClassInv.toNat_lt {sock : ℤ} (h : ClassInv s) (hjob : s.queue.workers i = some sock) :
    sock.toNat < s.wires.length := by
  have hhand : sock ∈ s.inHand := by
    refine Multiset.mem_of_le (Finset.single_le_sum (fun j _ => Multiset.zero_le _)
      (Finset.mem_univ i)) ?_
    rw [hjob]
    exact Multiset.mem_singleton_self sock
  have htaken : sock ∈ (s.queue.taken : Multiset ℤ) := by
    rw [h.placed]
    exact Multiset.mem_add.mpr (.inl (Multiset.mem_add.mpr (.inl hhand)))
  obtain ⟨queued, -, haccepted⟩ := h.lossless
  have hmem : sock ∈ s.queue.accepted := haccepted ▸ List.mem_append_left _ htaken
  rw [h.accepted] at hmem
  obtain ⟨k, hk, rfl⟩ := List.mem_map.mp hmem
  exact List.mem_range.mp hk

/-- A worker without a connection is idle. -/
theorem ClassInv.idle (h : ClassInv s) (hjob : s.queue.workers i = none) :
    s.server.workers i = .idle ∧ s.intake i = none := by
  have hwork := h.atWork i
  rw [hjob] at hwork
  exact ⟨hwork.busy rfl, hwork.intake_eq_none⟩

theorem ClassInv.take (h : ClassInv s) (hstep : classStep s (.take i) = some s') : ClassInv s' := by
  obtain ⟨hfree, sock, q, hq, rfl⟩ := take_cases hstep
  obtain ⟨hidle, hnone⟩ := h.idle hfree
  have hlossless := lossless_step s.queue (.take i) { s.queue with
    queue := q
    workers := Function.update s.queue.workers i (some sock)
    taken := s.queue.taken ++ [sock] } h.lossless trivial
    (by rw [queueStep, if_pos hfree, hq]; rfl)
  have hhand := sum_update_pair (fun job _ => placeOf job) s.queue.workers s.server.workers i
    (some sock) (s.server.workers i)
  have hbooked := sum_update_pair bookedPlace s.queue.workers s.server.workers i (some sock)
    (s.server.workers i)
  rw [hfree] at hhand hbooked
  rw [Function.update_eq_self, hidle] at hbooked
  refine ⟨hlossless, h.running, h.accepted, ?_, h.hw, ?_, ?_, h.entered, h.left, h.answers⟩
  · intro j
    show AtWork s.wires (Function.update s.queue.workers i (some sock) j) _ _
    by_cases hj : j = i
    · subst hj
      rw [hidle, hnone]
      exact atWork_idle _ _
    · rw [Function.update_of_ne hj]
      exact h.atWork j
  · show ((s.queue.taken ++ [sock] : List ℤ) : Multiset ℤ) =
      (∑ j, placeOf (Function.update s.queue.workers i (some sock) j)) + _ + _
    have hsum : (∑ j, placeOf (Function.update s.queue.workers i (some sock) j)) =
        s.inHand + {sock} := (add_zero _).symm.trans hhand
    rw [hsum, ← Multiset.coe_add, h.placed, Multiset.coe_singleton]
    abel
  · show (s.bookedBy : Multiset ℤ) =
      (∑ j, bookedPlace (Function.update s.queue.workers i (some sock) j) (s.server.workers j)) + _
    have hsum : (∑ j, bookedPlace (Function.update s.queue.workers i (some sock) j)
        (s.server.workers j)) = s.bookedInHand := by
      exact (add_zero _).symm.trans (hbooked.trans (add_zero _))
    rw [hsum]
    exact h.booked

theorem ClassInv.receive (h : ClassInv s) {mkdtemp opened : Bool} {writes : ℕ → Option ℕ}
    {frag : ℕ → ℕ} (hstep : classStep s (.receive i mkdtemp opened writes frag) = some s') :
    ClassInv s' := by
  obtain ⟨sock, task_hw, hjob, hworker, rfl⟩ := receive_cases hstep
  have hlt : sock.toNat < s.wires.length := h.toNat_lt hjob
  refine ⟨h.lossless, h.running, h.accepted, ?_, h.hw, h.placed, h.booked, h.entered, h.left,
    h.answers⟩
  intro j
  show AtWork s.wires (s.queue.workers j) (Function.update s.intake i _ j) _
  by_cases hj : j = i
  · subst hj
    have hwork := h.atWork j
    rw [Function.update_self]
    refine ⟨?_, ?_, hwork.week, hwork.busy⟩
    · rintro x ⟨rfl⟩
      exact ⟨sock, hjob, hlt, frag, rfl⟩
    · rw [hworker]
      rintro hdr ⟨⟩
  · rw [Function.update_of_ne hj]
    exact h.atWork j

/-- The sections that enter nothing leave every connection where it is. -/
theorem ClassInv.sections (h : ClassInv s)
    (hwork : ∀ j, AtWork s.wires (s.queue.workers j) (s.intake j) (server.workers j))
    (hsame : ∀ j, (server.workers j).isBooked = (s.server.workers j).isBooked)
    (hhw : ∃ week_name, server.hw = ctx_set_hw_paths week_name)
    (hbooked : server.booked = s.server.booked) : ClassInv { s with server } := by
  refine ⟨h.lossless, h.running, h.accepted, hwork, hhw, h.placed, ?_, ?_, h.left, h.answers⟩
  · have hsum : Classroom.bookedInHand { s with server } = s.bookedInHand := by
      refine Finset.sum_congr rfl fun j _ => ?_
      unfold bookedPlace
      rw [hsame j]
    rw [hsum]
    exact h.booked
  · show List.Forall₂ _ s.bookedBy server.booked
    rw [hbooked]
    exact h.entered

/-- One worker moves on. -/
theorem ClassInv.move (h : ClassInv s) {w : Worker}
    (hwork : AtWork s.wires (s.queue.workers i) (s.intake i) w)
    (hsame : w.isBooked = (s.server.workers i).isBooked)
    (hworkers : server.workers = Function.update s.server.workers i w)
    (hhw : server.hw = s.server.hw) (hbooked : server.booked = s.server.booked) :
    ClassInv { s with server } := by
  refine h.sections ?_ ?_ (hhw ▸ h.hw) hbooked
  · intro j
    rw [hworkers]
    by_cases hj : j = i
    · subst hj
      rw [Function.update_self]
      exact hwork
    · rw [Function.update_of_ne hj]
      exact h.atWork j
  · intro j
    rw [hworkers]
    by_cases hj : j = i
    · subst hj
      rw [Function.update_self]
      exact hsame
    · rw [Function.update_of_ne hj]

theorem ClassInv.week (h : ClassInv s) {a : WeekAction NUM_THREADS}
    (hstep : classStep s (.week a) = some s') : ClassInv s' := by
  obtain ⟨hpermits, server, hserver, rfl⟩ := week_cases hstep
  cases a with
  | set_hw week_name =>
    obtain ⟨-, rfl | ⟨-, -, rfl⟩⟩ := set_hw_cases hserver
    · exact h
    · exact h.sections h.atWork (fun _ => rfl) ⟨week_name, rfl⟩ rfl
  | reset =>
    obtain ⟨_, -, rfl⟩ := reset_cases hserver
    exact h.sections h.atWork (fun _ => rfl) h.hw rfl
  | open_csv _ _ _ =>
    obtain ⟨_, -, rfl⟩ := open_csv_cases hserver
    exact h.sections h.atWork (fun _ => rfl) h.hw rfl
  | set_students _ =>
    obtain ⟨-, rfl⟩ := set_students_cases hserver
    exact h.sections h.atWork (fun _ => rfl) h.hw rfl
  | snapshot i =>
    obtain ⟨hidle, rfl⟩ := snapshot_cases hserver
    refine h.move ?_ (by rw [hidle]; rfl) rfl rfl rfl
    refine ⟨(h.atWork i).came, nofun, ?_, fun hjob => absurd hjob hpermits⟩
    rintro task_hw ⟨rfl⟩
    obtain ⟨week_name, hhw⟩ := h.hw
    rw [hhw]
    exact terminated_task_hw week_name
  | leave i => exact hpermits.elim
  | expect i hdr _ _ =>
    obtain ⟨_, hworker, rfl⟩ := expect_cases hserver
    refine h.move ((h.atWork i).moves (by rw [hworker]; nofun) ?_ (by rw [hworker]; rfl))
      (by rw [hworker]; rfl) rfl rfl rfl
    rintro _ ⟨rfl⟩
    exact .inr hpermits
  | compare i _ =>
    obtain ⟨_, _, _, _, _, hworker, rfl⟩ := compare_cases hserver
    exact h.move ((h.atWork i).moves (by rw [hworker]; nofun)
      (fun _ hhdr => .inl (by rw [hworker]; exact hhdr)) (by rw [hworker]; rfl))
      (by rw [hworker]; rfl) rfl rfl rfl
  | fail i hdr _ _ _ =>
    obtain ⟨_, hworker, rfl⟩ := fail_cases hserver
    refine h.move ((h.atWork i).moves (by rw [hworker]; nofun) ?_ (by rw [hworker]; rfl))
      (by rw [hworker]; rfl) rfl rfl rfl
    rintro _ ⟨rfl⟩
    exact .inr hpermits
  | check i =>
    obtain ⟨_, _, hworker, ⟨-, rfl⟩ | ⟨-, rfl⟩⟩ := check_cases hserver
    all_goals
      exact h.move ((h.atWork i).moves (by rw [hworker]; nofun)
        (fun _ hhdr => .inl (by rw [hworker]; exact hhdr)) (by rw [hworker]; rfl))
        (by rw [hworker]; rfl) rfl rfl rfl
  | record i _ => exact hpermits.elim
  | write_csv i _ _ _ =>
    obtain ⟨_, _, _, _, _, hworker, -, rfl⟩ := write_csv_cases hserver
    exact h.move ((h.atWork i).moves (by rw [hworker]; nofun)
      (fun _ hhdr => .inl (by rw [hworker]; exact hhdr)) (by rw [hworker]; rfl))
      (by rw [hworker]; rfl) rfl rfl rfl
  | reply i => exact hpermits.elim

/-- Entering a submission adds its connection to those that are booked. -/
theorem ClassInv.record (h : ClassInv s) {now : ℤ}
    (hstep : classStep s (.record i now) = some s') : ClassInv s' := by
  obtain ⟨sock, server, hjob, hserver, rfl⟩ := record_cases_class hstep
  obtain ⟨task_hw, g, hworker, rfl⟩ := record_cases_week hserver
  have hwork := h.atWork i
  rw [hworker] at hwork
  have hcarries : (s.intake i).bind (·.received.submitted) = some g.hdr := hwork.header g.hdr rfl
  obtain ⟨x, hx, hsubmitted⟩ := Option.bind_eq_some_iff.mp hcarries
  obtain ⟨sock', hsock', hcame⟩ := hwork.came x hx
  obtain rfl : sock = sock' := Option.some.inj (hjob.symm.trans hsock')
  have hsum := sum_update_pair bookedPlace s.queue.workers s.server.workers i (s.queue.workers i)
    (.recorded task_hw g (ctx_record_submission s.server.tracker g.hdr.student_id.bytes g.grade
      now).1)
  rw [Function.update_eq_self, hworker, hjob] at hsum
  refine ⟨h.lossless, h.running, h.accepted, ?_, h.hw, h.placed, ?_, ?_, h.left, h.answers⟩
  · intro j
    show AtWork s.wires _ _ (Function.update s.server.workers i _ j)
    by_cases hj : j = i
    · subst hj
      rw [Function.update_self]
      refine (h.atWork j).moves (by rw [hworker]; nofun) ?_ (by rw [hworker]; rfl)
      exact fun _ hhdr => .inl (by rw [hworker]; exact hhdr)
    · rw [Function.update_of_ne hj]
      exact h.atWork j
  · show ((s.bookedBy ++ [sock] : List ℤ) : Multiset ℤ) = (∑ j, bookedPlace (s.queue.workers j)
      (Function.update s.server.workers i _ j)) + _
    have hplus := (add_zero _).symm.trans hsum
    rw [hplus, ← Multiset.coe_add, h.booked, Multiset.coe_singleton]
    show s.bookedInHand + _ + {sock} = s.bookedInHand + {sock} + _
    abel
  · show List.Forall₂ _ (s.bookedBy ++ [sock]) (s.server.booked ++ [(task_hw, g)])
    exact List.rel_append h.entered (.cons ⟨x, hcame, hsubmitted⟩ .nil)

/-- What finishing a connection does to the sums over the workers. -/
theorem ClassInv.finish {sock : ℤ} (hjob : s.queue.workers i = some sock) :
    (∑ j, placeOf (Function.update s.queue.workers i none j)) + {sock} = s.inHand ∧
      (∑ j, bookedPlace (Function.update s.queue.workers i none j)
        (Function.update s.server.workers i .idle j)) +
        bookedPlace (some sock) (s.server.workers i) = s.bookedInHand := by
  have hhand := sum_update_pair (fun job _ => placeOf job) s.queue.workers s.server.workers i none
    .idle
  have hbooked := sum_update_pair bookedPlace s.queue.workers s.server.workers i none .idle
  rw [hjob] at hhand hbooked
  exact ⟨hhand.trans (add_zero _), hbooked.trans (add_zero _)⟩

/-- A worker without a connection is at its start. -/
theorem ClassInv.atWork_finish (h : ClassInv s) (j : Fin NUM_THREADS) :
    AtWork s.wires (Function.update s.queue.workers i none j) (Function.update s.intake i none j)
      (Function.update s.server.workers i .idle j) := by
  by_cases hj : j = i
  · subst hj
    rw [Function.update_self, Function.update_self, Function.update_self]
    exact atWork_idle _ _
  · rw [Function.update_of_ne hj, Function.update_of_ne hj, Function.update_of_ne hj]
    exact h.atWork j

theorem ClassInv.leave (h : ClassInv s) (hstep : classStep s (.leave i) = some s') :
    ClassInv s' := by
  obtain ⟨sock, k, server, hjob, hk, hnone, hserver, rfl⟩ := leave_cases_class hstep
  obtain ⟨task_hw, hworker, rfl⟩ := leave_cases hserver
  obtain ⟨hhand, hbooked⟩ := ClassInv.finish hjob
  rw [hworker] at hbooked
  obtain ⟨sock', hsock', hcame⟩ := (h.atWork i).came k hk
  obtain rfl : sock = sock' := Option.some.inj (hjob.symm.trans hsock')
  refine ⟨h.lossless, h.running, h.accepted, h.atWork_finish, h.hw, ?_, ?_, h.entered, ?_,
    h.answers⟩
  · show (s.queue.taken : Multiset ℤ) =
      (∑ j, placeOf (Function.update s.queue.workers i none j)) +
        ((s.left ++ [(sock, k.mkdtemp)]).map Prod.fst : List ℤ) + _
    rw [h.placed, ← hhand, coe_map_concat]
    abel
  · have hsum := (add_zero _).symm.trans hbooked
    show (s.bookedBy : Multiset ℤ) =
      (∑ j, bookedPlace (Function.update s.queue.workers i none j)
        (Function.update s.server.workers i .idle j)) + _
    rw [hsum]
    exact h.booked
  · intro x hx
    rcases List.mem_append.mp hx with hold | hnew
    · exact h.left x hold
    · obtain rfl := List.mem_singleton.mp hnew
      exact ⟨k, hcame, rfl, hnone⟩

/-- Answering takes the connection from the worker, and with it whether it is booked. -/
theorem ClassInv.reply (h : ClassInv s) (hstep : classStep s (.reply i) = some s') :
    ClassInv s' := by
  obtain ⟨sock, k, task_hw, g, my_submit_count, isRecorded, resets, server, hjob, hk, hworker,
    hserver, rfl⟩ := reply_cases_class hstep
  obtain ⟨_, _, _, _, _, -, rfl⟩ := reply_cases hserver
  obtain ⟨hhand, hbooked⟩ := ClassInv.finish hjob
  have hwork := h.atWork i
  rw [hworker, hk] at hwork
  rw [hworker] at hbooked
  have hsubmitted : k.received.submitted = some g.hdr := hwork.header g.hdr rfl
  obtain ⟨sock', hsock', hcame⟩ := hwork.came k rfl
  obtain rfl : sock = sock' := Option.some.inj (hjob.symm.trans hsock')
  refine ⟨h.lossless, h.running, h.accepted, h.atWork_finish, h.hw, ?_, ?_, h.entered, h.left, ?_⟩
  · show (s.queue.taken : Multiset ℤ) =
      (∑ j, placeOf (Function.update s.queue.workers i none j)) + _ +
        ((s.answers ++ [_]).map Answer.sock : List ℤ)
    rw [h.placed, ← hhand, coe_map_concat]
    abel
  · show (s.bookedBy : Multiset ℤ) =
      (∑ j, bookedPlace (Function.update s.queue.workers i none j)
        (Function.update s.server.workers i .idle j)) +
      (((s.answers ++ [_]).filter Answer.isRecorded).map Answer.sock : List ℤ)
    rw [h.booked, ← hbooked, List.filter_append]
    cases isRecorded with
    | false =>
      show _ + 0 + _ = _ + ((((s.answers.filter Answer.isRecorded) ++ []).map Answer.sock :
        List ℤ) : Multiset ℤ)
      rw [add_zero, List.append_nil]
    | true =>
      show _ + {sock} + _ = _ + ((((s.answers.filter Answer.isRecorded) ++ [_]).map Answer.sock :
        List ℤ) : Multiset ℤ)
      rw [coe_map_concat]
      abel
  · intro a ha
    rcases List.mem_append.mp ha with hold | hnew
    · exact h.answers a hold
    · obtain rfl := List.mem_singleton.mp hnew
      exact ⟨k, hcame, rfl, rfl, received_eq hsubmitted, task_hw, my_submit_count, _,
        hwork.week task_hw rfl, rfl⟩

/-- **One step of the class**, as long as the queue does not overflow. -/
theorem ClassInv.step (s : Classroom) (a : ClassAction) (s' : Classroom) (h : ClassInv s)
    (hroom : RoomInQueue s a) (hstep : classStep s a = some s') : ClassInv s' := by
  cases a with
  | connect wire => exact h.connect hroom hstep
  | take i => exact h.take hstep
  | receive i _ _ _ _ => exact h.receive hstep
  | leave i => exact h.leave hstep
  | record i _ => exact h.record hstep
  | reply i => exact h.reply hstep
  | week a => exact h.week hstep

end Steps

/-! ## What a client gets -/

/-- The client has sent this file. -/
structure SentBy (wire student_id filepath file : Bytes) : Prop where
  id : ClientId student_id
  size : file.length ≤ MAX_SOURCE_SIZE
  wire : wire = (submitHeader student_id filepath file).encode ++ file

/-- What was compiled is the file, if `source.c` could be opened and the `write`s took all; else it
is a part of it, and missing iff `source.c` could not be opened. -/
structure Answer.OfFile (a : Answer) (file : Bytes) : Prop where
  missing : a.source = none ↔ a.opened = false
  part : ∀ p ∈ a.source, p.Sublist file
  whole : a.opened = true → (∀ k, TakesAll 4096 (a.writes k)) → a.source = some file

/-- The answer to a submission: the header is its own, and so is what there is of the source; the
reply names its student, and however the reply is cut up, the client shows the grade. -/
structure AnswersTo (student_id filepath file : Bytes) (a : Answer) : Prop where
  hdr : a.g.hdr = submitHeader student_id filepath file
  source : a.OfFile file
  addressee : a.header.student_id.str = str student_id
  shown : ∃ task_hw my_submit_count t, ∀ g_status sock frag,
    (recv_result g_status sock ⟨a.header.encode, frag⟩).ok = true ∧
      ShowsResult (recv_result g_status sock ⟨a.header.encode, frag⟩).g_status task_hw a.g
        my_submit_count t

/-- A submission arrives as it was sent, unless there is no work directory; of its source, what was
written to `source.c`. -/
theorem SentBy.received {wire student_id filepath file : Bytes}
    (h : SentBy wire student_id filepath file) (mkdtemp opened : Bool) (writes : ℕ → Option ℕ)
    (frag : ℕ → ℕ) :
    ∃ p, p.Sublist file ∧ ((∀ k, TakesAll 4096 (writes k)) → p = file) ∧
      receive_client mkdtemp opened writes ⟨wire, frag⟩ =
        if mkdtemp then
          .submission (submitHeader student_id filepath file) (if opened then some p else none)
        else .closed := by
  have hall : (gather 4096 file.length file.length ⟨file, frag⟩).1 = file :=
    (gather_eq (by decide) (Nat.le_refl _) _).1.trans (List.take_length)
  obtain ⟨p, hsent, hp⟩ := gatherTo_sublist 4096 file.length file.length ⟨[], writes⟩ ⟨file, frag⟩
  rw [hall] at hp
  have hwhole := receive_client_writes (submitHeader student_id filepath file)
    (show PKT_SUBMIT ≠ PKT_GET_FILES by decide) file mkdtemp opened writes frag
  rw [file_size_submitHeader student_id filepath h.size, hsent, ← h.wire] at hwhole
  refine ⟨p, hp, fun hwrites => ?_, hwhole⟩
  have hgather := gatherTo_eq file.length file.length
    (show ∀ k, TakesAll 4096 ((⟨[], writes⟩ : Sink).takes k) from hwrites) ⟨file, frag⟩
  rw [hsent, hall] at hgather
  exact hgather

theorem SentBy.submitted {wire student_id filepath file : Bytes}
    (h : SentBy wire student_id filepath file) {mkdtemp opened : Bool} {writes : ℕ → Option ℕ}
    {frag : ℕ → ℕ} {hdr : SubmitHeader}
    (hhdr : (receive_client mkdtemp opened writes ⟨wire, frag⟩).submitted = some hdr) :
    hdr = submitHeader student_id filepath file := by
  obtain ⟨p, -, -, hreceived⟩ := h.received mkdtemp opened writes frag
  rw [hreceived] at hhdr
  cases mkdtemp with
  | false => cases hhdr
  | true => exact (Option.some.inj hhdr).symm

theorem AnswersOwn.answersTo {wires : List Bytes} {a : Answer} (ha : AnswersOwn wires a)
    {student_id filepath file : Bytes} (h : SentBy (wireOf wires a.sock) student_id filepath file) :
    AnswersTo student_id filepath file a := by
  obtain ⟨k, ⟨-, frag, hcame⟩, hopened, hwrites, hreceived, task_hw, my_submit_count, t, hweek,
    hheader⟩ := ha
  obtain ⟨file', hpart, hwhole, hsent⟩ := h.received k.mkdtemp k.opened k.writes frag
  rw [hreceived, hsent] at hcame
  cases hdir : k.mkdtemp with
  | false =>
    rw [hdir] at hcame
    cases hcame
  | true =>
    rw [hdir, if_pos rfl] at hcame
    obtain ⟨hhdr, hsource⟩ := Received.submission.inj hcame
    rw [hopened] at hsource
    refine ⟨hhdr, ⟨?_, fun p hp => ?_, fun hthere htakes => ?_⟩, ?_, task_hw, my_submit_count, t,
      ?_⟩
    · rw [hsource]
      cases a.opened <;> simp
    · rw [hsource] at hp
      split_ifs at hp
      · obtain rfl := Option.some.inj hp
        exact hpart
      · cases hp
    · rw [hsource, if_pos hthere, hwhole (hwrites ▸ htakes)]
    · rw [hheader]
      show (Buf.strncpy MAX_STUDENT_ID a.g.hdr.student_id.bytes).str = _
      rw [Buf.str_strncpy_bytes, hhdr]
      exact (receivedAs_submitHeader h.id filepath file).student_id
    · intro g_status sock frag
      rw [hheader, recv_result_encode]
      exact ⟨rfl, showsResult_on_result_received hweek a.g my_submit_count t⟩

section Serves

variable {s : Classroom}

theorem ClassInv.nodup (h : ClassInv s) :
    (s.inHand + (s.left.map Prod.fst : List ℤ) + (s.answers.map Answer.sock : List ℤ) :
      Multiset ℤ).Nodup := by
  obtain ⟨queued, -, haccepted⟩ := h.lossless
  have hall : s.queue.accepted.Nodup := by
    rw [h.accepted]
    exact (List.nodup_range).map Nat.cast_injective
  rw [haccepted] at hall
  rw [← h.placed]
  exact Multiset.coe_nodup.mpr hall.of_append_left

end Serves

end MiniCi
