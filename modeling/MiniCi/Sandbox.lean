/-
# The pipes and sockets of the server

Each submission gets two pipes, a wrapper and an inner process: the wrapper reports the pid
of the inner process on `pid_report_pipe`, and the inner process waits on `run_sync_pipe`
for the byte that the parent writes when the monitor is set up.  A `fork` in one worker
hands the ends of all open pipes and sockets to the child, those of other submissions
included.  The main thread meanwhile answers control clients.

The parent writes the sync byte whatever became of the two processes, and the reply to a
control client is sent without `MSG_NOSIGNAL`; `SIGPIPE` has its default disposition.  The
read end of `run_sync_pipe` goes from the server to the wrapper and from it to the inner
process with the two forks, so the server lives as long as the forks succeed and the two do
not both let go of it before the sync byte, and the control client waits for its reply.
-/
import MiniCi.Ipc
import MiniCi.Pipes
import MiniCi.Runs

namespace MiniCi

open Pipes Wire

/-! ## State -/

/-- The processes around `n` submissions. -/
inductive Proc (n : ℕ) where
  | server
  | gcc (i : Fin n)
  | wrapper (i : Fin n)
  | inner (i : Fin n)
  | student (i : Fin n)
  | ctl
  deriving DecidableEq

/-- The pipes, and the directions of the sockets. -/
inductive PipeId (n : ℕ) where
  | run_sync_pipe (i : Fin n)
  | pid_report_pipe (i : Fin n)
  | toStudent (i : Fin n)
  | ctlRequest
  | ctlReply
  deriving DecidableEq

/-- Where `handle_client` is.  `compiled`: after `waitpid` for `gcc`; `forked`: after `fork`;
`closed`: after closing its ends; `reported`: after reading the pid; `released`: after the
sync byte. -/
inductive ParentAt where
  | idle | compiling | compiled | piped | forked | closed
  | reported (inner_pid : List UInt8)
  | released | done
  deriving DecidableEq

/-- Where the wrapper is. -/
inductive WrapperAt where
  | gone | started | detached | unshared | forked | unsynced | waiting
  deriving DecidableEq

/-- Where the inner process is. -/
inductive InnerAt where
  | gone | started | listening | running
  deriving DecidableEq

/-- What the main thread does for a control client.  `connected` knows whether the client
has sent anything. -/
inductive CtlAt where
  | idle
  | connected (sent : Bool)
  | received (req : List UInt8)
  deriving DecidableEq

/-- The server, its pipes and the processes around it.  `sigpipe` says that the server has
been killed by `SIGPIPE`. -/
structure GradingServer (n : ℕ) where
  pipes : PipeId n → Pipe (Proc n)
  parent : Fin n → ParentAt
  wrapper : Fin n → WrapperAt
  inner : Fin n → InnerAt
  ctl : CtlAt
  g_paused : Bool
  sigpipe : Bool

/-- The server before the first connection. -/
def GradingServer.initial (n : ℕ) : GradingServer n :=
  { pipes := fun _ => .closed, parent := fun _ => .idle, wrapper := fun _ => .gone
    inner := fun _ => .gone, ctl := .idle, g_paused := false, sigpipe := false }

variable {n : ℕ}

/-- Replace one pipe. -/
def GradingServer.setPipe (s : GradingServer n) (k : PipeId n) (q : Pipe (Proc n)) :
    GradingServer n :=
  { s with pipes := Function.update s.pipes k q }

/-- `fork`: the child holds what its parent holds. -/
def GradingServer.forkProc (s : GradingServer n) (parent child : Proc n) : GradingServer n :=
  { s with pipes := fun k => (s.pipes k).fork parent child }

/-- The end of a process. -/
def GradingServer.exitProc (s : GradingServer n) (p : Proc n) : GradingServer n :=
  { s with pipes := fun k => (s.pipes k).exit p }

/-- `write`, or `send` without `MSG_NOSIGNAL`, by the server. -/
def GradingServer.writeByServer (s : GradingServer n) (k : PipeId n) (data : List UInt8) :
    GradingServer n :=
  match (s.pipes k).write data with
  | some q => s.setPipe k q
  | none => { s with sigpipe := true }

/-- `send` with `MSG_NOSIGNAL` by the server. -/
def GradingServer.sendByServer (s : GradingServer n) (k : PipeId n) (data : List UInt8) :
    GradingServer n :=
  match (s.pipes k).write data with
  | some q => s.setPipe k q
  | none => s

/-! ## Steps -/

/-- A step of the server, of a process around it or of a client. -/
inductive PipeAction (n : ℕ) where
  /-- a student connects, disconnects; the server sends him something, or turns him away -/
  | connect (i : Fin n)
  | disconnect (i : Fin n)
  | send (i : Fin n) (data : List UInt8)
  | reject (i : Fin n) (msg : List UInt8)
  /-- `handle_client`; `gccExit` is also the end of its `waitpid` -/
  | forkGcc (i : Fin n) (ok : Bool)
  | gccExit (i : Fin n)
  | pipe (i : Fin n)
  | fork (i : Fin n) (ok : Bool)
  | closeEnds (i : Fin n)
  | readReport (i : Fin n) (skel : Bool)
  | release (i : Fin n)
  | wait (i : Fin n)
  /-- the wrapper; `wrapperExit` is its end at any point, also by a signal -/
  | wrapperDetach (i : Fin n)
  | unshare (i : Fin n) (ok : Bool)
  | forkInner (i : Fin n) (ok : Bool)
  | wrapperUnsync (i : Fin n)
  | report (i : Fin n) (inner_pid : UInt32)
  | wrapperExit (i : Fin n)
  /-- the inner process -/
  | innerDetach (i : Fin n)
  | innerRead (i : Fin n)
  | innerExit (i : Fin n)
  /-- a control client, and `handle_ctl_client` -/
  | ctlConnect
  | ctlSend (data : List UInt8)
  | ctlClose
  | ctlReceive
  | ctlReply (resp : List UInt8)

/-- One step; a server killed by `SIGPIPE` takes none. -/
def pipeStep (s : GradingServer n) (a : PipeAction n) : Option (GradingServer n) :=
  if s.sigpipe then none
  else match a with
  | .connect i => some (s.setPipe (.toStudent i) (.connect .server (.student i)))
  | .disconnect i =>
    some (s.setPipe (.toStudent i) ((s.pipes (.toStudent i)).closeRead (.student i)))
  | .send i data => some (s.sendByServer (.toStudent i) data)
  | .reject i msg => if s.g_paused then some (s.writeByServer (.toStudent i) msg) else none
  | .forkGcc i ok =>
    if s.parent i = .idle then
      if ok then
        some { s.forkProc .server (.gcc i) with
          parent := Function.update s.parent i .compiling }
      else some { s with parent := Function.update s.parent i .compiled }
    else none
  | .gccExit i =>
    if s.parent i = .compiling then
      some { s.exitProc (.gcc i) with parent := Function.update s.parent i .compiled }
    else none
  | .pipe i =>
    if s.parent i = .compiled then
      some { (s.setPipe (.run_sync_pipe i) (.connect .server .server)).setPipe
          (.pid_report_pipe i) (.connect .server .server) with
        parent := Function.update s.parent i .piped }
    else none
  | .fork i ok =>
    if s.parent i = .piped then
      let s := { s with parent := Function.update s.parent i .forked }
      if ok then
        some { s.forkProc .server (.wrapper i) with
          wrapper := Function.update s.wrapper i .started }
      else some s
    else none
  | .closeEnds i =>
    if s.parent i = .forked then
      some { (s.setPipe (.run_sync_pipe i)
          ((s.pipes (.run_sync_pipe i)).closeRead .server)).setPipe (.pid_report_pipe i)
          ((s.pipes (.pid_report_pipe i)).closeWrite .server) with
        parent := Function.update s.parent i .closed }
    else none
  | .readReport i skel =>
    if s.parent i = .closed then
      -- without the monitor the report is not read
      if skel then
        ((s.pipes (.pid_report_pipe i)).read 4).map fun (inner_pid, q) =>
          { s.setPipe (.pid_report_pipe i) (q.closeRead .server) with
            parent := Function.update s.parent i (.reported inner_pid) }
      else
        some { s.setPipe (.pid_report_pipe i)
            ((s.pipes (.pid_report_pipe i)).closeRead .server) with
          parent := Function.update s.parent i (.reported []) }
    else none
  | .release i =>
    match s.parent i with
    | .reported _ =>
      let s := s.writeByServer (.run_sync_pipe i) [65]
      some { s.setPipe (.run_sync_pipe i)
          ((s.pipes (.run_sync_pipe i)).closeWrite .server) with
        parent := Function.update s.parent i .released }
    | _ => none
  | .wait i =>
    -- `wait4` returns when the wrapper has ended
    if s.parent i = .released ∧ s.wrapper i = .gone then
      some { s with parent := Function.update s.parent i .done }
    else none
  | .wrapperDetach i =>
    if s.wrapper i = .started then
      some { (s.setPipe (.run_sync_pipe i)
          ((s.pipes (.run_sync_pipe i)).closeWrite (.wrapper i))).setPipe (.pid_report_pipe i)
          ((s.pipes (.pid_report_pipe i)).closeRead (.wrapper i)) with
        wrapper := Function.update s.wrapper i .detached }
    else none
  | .unshare i ok =>
    if s.wrapper i = .detached then
      if ok then some { s with wrapper := Function.update s.wrapper i .unshared }
      else some { s.exitProc (.wrapper i) with wrapper := Function.update s.wrapper i .gone }
    else none
  | .forkInner i ok =>
    if s.wrapper i = .unshared then
      if ok then
        some { s.forkProc (.wrapper i) (.inner i) with
          wrapper := Function.update s.wrapper i .forked
          inner := Function.update s.inner i .started }
      else some { s.exitProc (.wrapper i) with wrapper := Function.update s.wrapper i .gone }
    else none
  | .wrapperUnsync i =>
    if s.wrapper i = .forked then
      some { s.setPipe (.run_sync_pipe i)
          ((s.pipes (.run_sync_pipe i)).closeRead (.wrapper i)) with
        wrapper := Function.update s.wrapper i .unsynced }
    else none
  | .report i inner_pid =>
    if s.wrapper i = .unsynced then
      match (s.pipes (.pid_report_pipe i)).write (le32 inner_pid) with
      | some q =>
        some { s.setPipe (.pid_report_pipe i) (q.closeWrite (.wrapper i)) with
          wrapper := Function.update s.wrapper i .waiting }
      -- the wrapper inherits the default disposition of `SIGPIPE`
      | none => some { s.exitProc (.wrapper i) with wrapper := Function.update s.wrapper i .gone }
    else none
  | .wrapperExit i =>
    if s.wrapper i = .gone then none
    else some { s.exitProc (.wrapper i) with wrapper := Function.update s.wrapper i .gone }
  | .innerDetach i =>
    if s.inner i = .started then
      some { s.setPipe (.pid_report_pipe i)
          ((s.pipes (.pid_report_pipe i)).closeWrite (.inner i)) with
        inner := Function.update s.inner i .listening }
    else none
  | .innerRead i =>
    if s.inner i = .listening then
      ((s.pipes (.run_sync_pipe i)).read 1).map fun (_, q) =>
        { s.setPipe (.run_sync_pipe i) (q.closeRead (.inner i)) with
          inner := Function.update s.inner i .running }
    else none
  | .innerExit i =>
    if s.inner i = .gone then none
    else some { s.exitProc (.inner i) with inner := Function.update s.inner i .gone }
  | .ctlConnect =>
    if s.ctl = .idle then
      some { (s.setPipe .ctlRequest (.connect .ctl .server)).setPipe .ctlReply
          (.connect .server .ctl) with ctl := .connected false }
    else none
  | .ctlSend data =>
    match s.ctl with
    | .connected _ =>
      if .ctl ∈ (s.pipes .ctlRequest).writers ∧ data ≠ [] then
        ((s.pipes .ctlRequest).write data).map fun q =>
          { s.setPipe .ctlRequest q with ctl := .connected true }
      else none
    | _ => none
  | .ctlClose =>
    some ((s.setPipe .ctlRequest ((s.pipes .ctlRequest).closeWrite .ctl)).setPipe .ctlReply
      ((s.pipes .ctlReply).closeRead .ctl))
  | .ctlReceive =>
    match s.ctl with
    | .connected _ =>
      -- `MSG_WAITALL`: all of the request, or what there is when the client has closed
      if sizeofIpcRequest ≤ (s.pipes .ctlRequest).buf.length ∨
          (s.pipes .ctlRequest).writers = ∅ then
        let req := (s.pipes .ctlRequest).buf.take sizeofIpcRequest
        some { s with ctl := if req = [] then .idle else .received req }
      else none
    | _ => none
  | .ctlReply resp =>
    match s.ctl with
    | .received _ => some { s.writeByServer .ctlReply resp with ctl := .idle }
    | _ => none

-- its equations are made here, once for all proofs that unfold it
attribute [local simp] pipeStep

/-! ## The condition -/

/-- `handle_client` has not forked the wrapper yet. -/
def ParentAt.BeforeFork : ParentAt → Prop
  | .idle | .compiling | .compiled | .piped => True
  | _ => False

/-- `handle_client` has forked the wrapper and not yet written the sync byte. -/
def ParentAt.BeforeSync : ParentAt → Prop
  | .forked | .closed | .reported _ => True
  | _ => False

/-- `handle_client` has written the sync byte. -/
def ParentAt.Synced (w : ParentAt) : Prop := w = .released ∨ w = .done

instance (w : ParentAt) : Decidable w.Synced := inferInstanceAs (Decidable (_ ∨ _))

/-- No `fork` of a wrapper fails.  Before the sync byte, neither `unshare` nor the inner
`fork` fails, the wrapper ends or closes its read end only while there is an inner process,
and the inner process ends only while the wrapper has its read end.  A control client that
has sent something stays until it is answered. -/
def Survives (s : GradingServer n) : PipeAction n → Prop
  | .fork _ ok => ok = true
  | .unshare i ok => ok = true ∨ (s.parent i).Synced
  | .forkInner i ok => ok = true ∨ (s.parent i).Synced
  | .wrapperUnsync i => s.wrapper i = .forked → s.inner i ≠ .gone ∨ (s.parent i).Synced
  | .wrapperExit i => s.inner i ≠ .gone ∨ (s.parent i).Synced
  | .innerExit i => s.wrapper i = .forked ∨ (s.parent i).Synced
  | .ctlClose => s.ctl = .idle ∨ s.ctl = .connected false
  | _ => True

instance (s : GradingServer n) (a : PipeAction n) : Decidable (Survives s a) := by
  cases a <;> dsimp only [Survives] <;> infer_instance

/-! ## The invariant -/

/-- The wrapper has its read end of `run_sync_pipe`. -/
def WrapperAt.Listens : WrapperAt → Prop
  | .started | .detached | .unshared | .forked => True
  | _ => False

/-- The inner process has its read end of `run_sync_pipe`. -/
def InnerAt.Listens : InnerAt → Prop
  | .started | .listening => True
  | _ => False

/-- What holds of a submission and its `run_sync_pipe`: before the `fork` there is neither
wrapper nor inner process, a process that has not closed its read end holds it, and from the
`fork` to the sync byte one of the two has not. -/
structure RunSyncOk (i : Fin n) (w : ParentAt) (wrapper : WrapperAt) (inner : InnerAt)
    (q : Pipe (Proc n)) : Prop where
  alone : w.BeforeFork → wrapper = .gone ∧ inner = .gone
  piped : w = .piped → .server ∈ q.readers
  quiet : w = .piped ∨ w.BeforeSync → q.buf = [] ∧ .server ∈ q.writers
  wrapper_reads : wrapper.Listens → .wrapper i ∈ q.readers
  inner_reads : inner.Listens → .inner i ∈ q.readers
  blocked : w.BeforeSync → inner ≠ .running
  held : w.BeforeSync → wrapper.Listens ∨ inner.Listens

/-- What holds of the two directions of a control connection: a client that has sent
something is still there, and one that has not can only go. -/
def CtlOk (w : CtlAt) (request reply : Pipe (Proc n)) : Prop :=
  (w = .connected false →
    request.buf = [] ∧ (.ctl ∈ request.writers → .ctl ∈ reply.readers)) ∧
  (w = .connected true → .ctl ∈ reply.readers) ∧
  ∀ req, w = .received req → .ctl ∈ reply.readers

/-- The submission `i` and its `run_sync_pipe` in a state of the server. -/
def GradingServer.SyncOk (s : GradingServer n) (i : Fin n) : Prop :=
  RunSyncOk i (s.parent i) (s.wrapper i) (s.inner i) (s.pipes (.run_sync_pipe i))

/-- The invariant of the runs in which the server survives. -/
structure PipesInv (s : GradingServer n) : Prop where
  alive : s.sigpipe = false
  unpaused : s.g_paused = false
  sync : ∀ i, s.SyncOk i
  ctl : CtlOk s.ctl (s.pipes .ctlRequest) (s.pipes .ctlReply)

theorem pipesInv_initial : PipesInv (GradingServer.initial n) := by
  refine ⟨rfl, rfl, fun i => ⟨fun _ => ⟨rfl, rfl⟩, nofun, fun h => ?_, nofun, nofun, nofun, nofun⟩,
    nofun, nofun, nofun⟩
  rcases h with h | h <;> cases h

theorem ParentAt.cases_phase (w : ParentAt) : w.BeforeFork ∨ w.BeforeSync ∨ w.Synced := by
  cases w <;> simp [BeforeFork, BeforeSync, Synced]

theorem ParentAt.BeforeSync.not_synced {w : ParentAt} (h : w.BeforeSync) : ¬ w.Synced := by
  rintro (rfl | rfl) <;> exact h

theorem InnerAt.listens_of_ne {w : InnerAt} (hgone : w ≠ .gone) (hrunning : w ≠ .running) :
    w.Listens := by
  cases w with
  | gone => exact absurd rfl hgone
  | running => exact absurd rfl hrunning
  | started | listening => trivial

namespace RunSyncOk

variable {i : Fin n} {w : ParentAt} {wrapper : WrapperAt} {inner : InnerAt} {q q' : Pipe (Proc n)}

/-- **Somebody reads the sync byte**: the wrapper or the inner process. -/
theorem exists_reader (h : RunSyncOk i w wrapper inner q) (hw : w.BeforeSync) :
    ∃ x, x ∈ q.readers := by
  rcases h.held hw with hwrapper | hinner
  · exact ⟨_, h.wrapper_reads hwrapper⟩
  · exact ⟨_, h.inner_reads hinner⟩

/-- Before the sync byte an inner process that is there waits for it. -/
theorem inner_listens (h : RunSyncOk i w wrapper inner q) (hw : w.BeforeSync)
    (hinner : inner ≠ .gone) : inner.Listens :=
  InnerAt.listens_of_ne hinner (h.blocked hw)

/-- A wrapper that is there has been forked. -/
theorem not_beforeFork (h : RunSyncOk i w wrapper inner q) (hwrapper : wrapper ≠ .gone) :
    ¬ w.BeforeFork :=
  fun hw => hwrapper (h.alone hw).1

/-- Only what the server and the two processes hold matters. -/
theorem sameFor (h : RunSyncOk i w wrapper inner q)
    (hq : ∀ x, x = .server ∨ x = .wrapper i ∨ x = .inner i → SameFor x q q') :
    RunSyncOk i w wrapper inner q' := by
  have hserver := hq .server (Or.inl rfl)
  refine ⟨h.alone, fun hw => hserver.readers.mpr (h.piped hw), fun hw => ?_, fun hw => ?_,
    fun hw => ?_, h.blocked, h.held⟩
  · exact ⟨hserver.buf.trans (h.quiet hw).1, hserver.writers.mpr (h.quiet hw).2⟩
  · exact (hq _ (Or.inr (Or.inl rfl))).readers.mpr (h.wrapper_reads hw)
  · exact (hq _ (Or.inr (Or.inr rfl))).readers.mpr (h.inner_reads hw)

/-- `handle_client` goes from one point to another, before its `fork` or behind the sync
byte. -/
theorem parent_moves (h : RunSyncOk i w wrapper inner q) (w' : ParentAt)
    (hw' : w'.BeforeFork → w.BeforeFork) (hpiped : w' ≠ .piped) (hsync : ¬ w'.BeforeSync) :
    RunSyncOk i w' wrapper inner q :=
  ⟨fun hw => h.alone (hw' hw), fun hw => absurd hw hpiped,
    fun hw => absurd hw (not_or.mpr ⟨hpiped, hsync⟩), h.wrapper_reads, h.inner_reads,
    fun hw => absurd hw hsync, fun hw => absurd hw hsync⟩

/-- The wrapper goes on without closing its read end. -/
theorem wrapper_moves (h : RunSyncOk i w wrapper inner q) (wrapper' : WrapperAt)
    (hthere : wrapper ≠ .gone) (hlistens : wrapper.Listens ↔ wrapper'.Listens) :
    RunSyncOk i w wrapper' inner q :=
  ⟨fun hw => absurd hw (h.not_beforeFork hthere), h.piped, h.quiet,
    fun hw => h.wrapper_reads (hlistens.mpr hw), h.inner_reads, h.blocked,
    fun hw => (h.held hw).imp_left hlistens.mp⟩

/-- The wrapper lets go of its read end, while there is an inner process or behind the sync
byte. -/
theorem wrapper_leaves (h : RunSyncOk i w wrapper inner q) {wrapper' : WrapperAt}
    (hthere : wrapper ≠ .gone) (hsilent : ¬ wrapper'.Listens)
    (hinner : inner ≠ .gone ∨ w.Synced)
    (hq : ∀ x, x = .server ∨ x = .inner i → SameFor x q q') :
    RunSyncOk i w wrapper' inner q' := by
  have hserver := hq .server (Or.inl rfl)
  refine ⟨fun hw => absurd hw (h.not_beforeFork hthere),
    fun hw => hserver.readers.mpr (h.piped hw), fun hw => ?_, fun hw => absurd hw hsilent,
    fun hw => (hq _ (Or.inr rfl)).readers.mpr (h.inner_reads hw), h.blocked, fun hw => ?_⟩
  · exact ⟨hserver.buf.trans (h.quiet hw).1, hserver.writers.mpr (h.quiet hw).2⟩
  · rcases hinner with hinner | hsynced
    · exact Or.inr (h.inner_listens hw hinner)
    · exact absurd hsynced hw.not_synced

/-- The inner process ends, while the wrapper has its read end or behind the sync byte. -/
theorem inner_leaves (h : RunSyncOk i w wrapper inner q)
    (hwrapper : wrapper = .forked ∨ w.Synced)
    (hq : ∀ x, x = .server ∨ x = .wrapper i → SameFor x q q') :
    RunSyncOk i w wrapper .gone q' := by
  have hserver := hq .server (Or.inl rfl)
  refine ⟨fun hw => ⟨(h.alone hw).1, rfl⟩, fun hw => hserver.readers.mpr (h.piped hw),
    fun hw => ?_, fun hw => (hq _ (Or.inr rfl)).readers.mpr (h.wrapper_reads hw), nofun, nofun,
    fun hw => ?_⟩
  · exact ⟨hserver.buf.trans (h.quiet hw).1, hserver.writers.mpr (h.quiet hw).2⟩
  · rcases hwrapper with rfl | hsynced
    · exact Or.inl trivial
    · exact absurd hsynced hw.not_synced

end RunSyncOk

/-- What does not concern the control client leaves its connection as it is. -/
theorem CtlOk.sameFor {w : CtlAt} {request request' reply reply' : Pipe (Proc n)}
    (h : CtlOk w request reply) (hrequest : SameFor .ctl request request')
    (hreply : SameFor .ctl reply reply') : CtlOk w request' reply' := by
  obtain ⟨hsilent, hsent, hreceived⟩ := h
  refine ⟨fun hw => ?_, fun hw => hreply.readers.mpr (hsent hw),
    fun req hw => hreply.readers.mpr (hreceived req hw)⟩
  obtain ⟨hbuf, hends⟩ := hsilent hw
  exact ⟨hrequest.buf.trans hbuf, fun hmem =>
    hreply.readers.mpr (hends (hrequest.writers.mp hmem))⟩

section Steps

variable {s s' : GradingServer n}

/-- A step of one submission: the pipes of the others stay with whom they are. -/
theorem PipesInv.of_submission (h : PipesInv s) {i : Fin n} (hi : s'.SyncOk i)
    (hsame : s'.sigpipe = s.sigpipe ∧ s'.g_paused = s.g_paused ∧ s'.ctl = s.ctl)
    (hothers : ∀ j, j ≠ i → s'.parent j = s.parent j ∧ s'.wrapper j = s.wrapper j ∧
      s'.inner j = s.inner j)
    (hpipes : ∀ j, j ≠ i → ∀ x, x = .server ∨ x = .wrapper j ∨ x = .inner j →
      SameFor x (s.pipes (.run_sync_pipe j)) (s'.pipes (.run_sync_pipe j)))
    (hrequest : SameFor .ctl (s.pipes .ctlRequest) (s'.pipes .ctlRequest))
    (hreply : SameFor .ctl (s.pipes .ctlReply) (s'.pipes .ctlReply)) : PipesInv s' := by
  obtain ⟨halive, hpaused, hctl⟩ := hsame
  refine ⟨halive.trans h.alive, hpaused.trans h.unpaused, fun j => ?_, ?_⟩
  · by_cases hj : j = i
    · exact hj ▸ hi
    · obtain ⟨hparent, hwrapper, hinner⟩ := hothers j hj
      rw [GradingServer.SyncOk, hparent, hwrapper, hinner]
      exact (h.sync j).sameFor (hpipes j hj)
  · rw [hctl]
    exact h.ctl.sameFor hrequest hreply

/-- A step on the two pipes of a submission. -/
theorem PipesInv.ownPipes (h : PipesInv s) {i : Fin n} (hi : s'.SyncOk i)
    (hsame : s'.sigpipe = s.sigpipe ∧ s'.g_paused = s.g_paused ∧ s'.ctl = s.ctl)
    (hothers : ∀ j, j ≠ i → s'.parent j = s.parent j ∧ s'.wrapper j = s.wrapper j ∧
      s'.inner j = s.inner j)
    (hpipes : ∀ k, k ≠ .run_sync_pipe i → k ≠ .pid_report_pipe i → s'.pipes k = s.pipes k) :
    PipesInv s' := by
  refine h.of_submission hi hsame hothers (fun j hj x _ => ?_) ?_ ?_
  · rw [hpipes _ (fun heq => hj (PipeId.run_sync_pipe.inj heq)) nofun]
    exact sameFor_refl _ _
  · rw [hpipes .ctlRequest nofun nofun]
    exact sameFor_refl _ _
  · rw [hpipes .ctlReply nofun nofun]
    exact sameFor_refl _ _

/-- The server and the processes of one submission are none of the processes of another. -/
theorem Proc.ne_of_other {i j : Fin n} (hj : j ≠ i) {x p : Proc n}
    (hx : x = .server ∨ x = .wrapper j ∨ x = .inner j)
    (hp : p = .gcc i ∨ p = .wrapper i ∨ p = .inner i) : x ≠ p := by
  rcases hx with rfl | rfl | rfl <;> rcases hp with rfl | rfl | rfl <;> simp [hj]

/-- A process of a submission, or the server for it, forks. -/
theorem PipesInv.forks (h : PipesInv s) {i : Fin n} (parent child : Proc n)
    (hchild : child = .gcc i ∨ child = .wrapper i ∨ child = .inner i) (hi : s'.SyncOk i)
    (hsame : s'.sigpipe = s.sigpipe ∧ s'.g_paused = s.g_paused ∧ s'.ctl = s.ctl)
    (hothers : ∀ j, j ≠ i → s'.parent j = s.parent j ∧ s'.wrapper j = s.wrapper j ∧
      s'.inner j = s.inner j)
    (hpipes : s'.pipes = (s.forkProc parent child).pipes) : PipesInv s' := by
  have hctl : .ctl ≠ child := by rcases hchild with rfl | rfl | rfl <;> simp
  refine h.of_submission hi hsame hothers (fun j hj x hx => ?_) ?_ ?_
  · rw [hpipes]
    exact sameFor_fork (Proc.ne_of_other hj hx hchild) _ _
  · rw [hpipes]
    exact sameFor_fork hctl _ _
  · rw [hpipes]
    exact sameFor_fork hctl _ _

/-- A process of a submission ends. -/
theorem PipesInv.ends (h : PipesInv s) {i : Fin n} (p : Proc n)
    (hp : p = .gcc i ∨ p = .wrapper i ∨ p = .inner i) (hi : s'.SyncOk i)
    (hsame : s'.sigpipe = s.sigpipe ∧ s'.g_paused = s.g_paused ∧ s'.ctl = s.ctl)
    (hothers : ∀ j, j ≠ i → s'.parent j = s.parent j ∧ s'.wrapper j = s.wrapper j ∧
      s'.inner j = s.inner j)
    (hpipes : s'.pipes = (s.exitProc p).pipes) : PipesInv s' := by
  have hctl : .ctl ≠ p := by rcases hp with rfl | rfl | rfl <;> simp
  refine h.of_submission hi hsame hothers (fun j hj x hx => ?_) ?_ ?_
  · rw [hpipes]
    exact sameFor_exit (Proc.ne_of_other hj hx hp) _
  · rw [hpipes]
    exact sameFor_exit hctl _
  · rw [hpipes]
    exact sameFor_exit hctl _

theorem PipesInv.running (h : PipesInv s) : ¬ s.sigpipe = true := by
  simp [h.alive]

/-- `handle_client` forks `gcc`. -/
theorem pipesInv_forkGcc (h : PipesInv s) {i : Fin n} {ok : Bool}
    (hstep : pipeStep s (.forkGcc i ok) = some s') : PipesInv s' := by
  simp only [pipeStep, if_neg h.running] at hstep
  have hi := h.sync i
  split_ifs at hstep with hidle hok
  · obtain rfl := Option.some.inj hstep
    refine h.forks (i := i) .server (.gcc i) (Or.inl rfl) ?_ ⟨rfl, rfl, rfl⟩
      (fun j hj => ⟨Function.update_of_ne hj _ _, rfl, rfl⟩) rfl
    rw [GradingServer.SyncOk, hidle] at hi
    simp only [GradingServer.SyncOk, GradingServer.forkProc, Function.update_self]
    have hmoved := hi.parent_moves .compiling (fun _ => trivial) nofun nofun
    refine hmoved.sameFor fun x hx => ?_
    exact sameFor_fork (by rcases hx with rfl | rfl | rfl <;> simp) _ _
  · obtain rfl := Option.some.inj hstep
    refine h.ownPipes (i := i) ?_ ⟨rfl, rfl, rfl⟩
      (fun j hj => ⟨Function.update_of_ne hj _ _, rfl, rfl⟩) fun _ _ _ => rfl
    rw [GradingServer.SyncOk, hidle] at hi
    simp only [GradingServer.SyncOk, Function.update_self]
    exact hi.parent_moves .compiled (fun _ => trivial) nofun nofun

/-- `gcc` ends, and `handle_client` goes on. -/
theorem pipesInv_gccExit (h : PipesInv s) {i : Fin n}
    (hstep : pipeStep s (.gccExit i) = some s') : PipesInv s' := by
  simp only [pipeStep, if_neg h.running] at hstep
  have hi := h.sync i
  split_ifs at hstep with hcompiling
  obtain rfl := Option.some.inj hstep
  refine h.ends (i := i) (.gcc i) (Or.inl rfl) ?_ ⟨rfl, rfl, rfl⟩
    (fun j hj => ⟨Function.update_of_ne hj _ _, rfl, rfl⟩) rfl
  rw [GradingServer.SyncOk, hcompiling] at hi
  simp only [GradingServer.SyncOk, GradingServer.exitProc, Function.update_self]
  have hmoved := hi.parent_moves .compiled (fun _ => trivial) nofun nofun
  refine hmoved.sameFor fun x hx => ?_
  exact sameFor_exit (by rcases hx with rfl | rfl | rfl <;> simp) _

/-- `handle_client` opens the pipes; there is no wrapper and no inner process yet. -/
theorem pipesInv_pipe (h : PipesInv s) {i : Fin n}
    (hstep : pipeStep s (.pipe i) = some s') : PipesInv s' := by
  simp only [pipeStep, if_neg h.running] at hstep
  have hi := h.sync i
  split_ifs at hstep with hcompiled
  obtain rfl := Option.some.inj hstep
  refine h.ownPipes (i := i) ?_ ⟨rfl, rfl, rfl⟩
    (fun j hj => ⟨Function.update_of_ne hj _ _, rfl, rfl⟩)
    fun k hsync hreport => by simp [GradingServer.setPipe, hsync, hreport]
  rw [GradingServer.SyncOk, hcompiled] at hi
  obtain ⟨hwrapper, hinner⟩ := hi.alone trivial
  simp only [GradingServer.SyncOk, GradingServer.setPipe, Function.update_self, hwrapper, hinner,
    Function.update_of_ne (show PipeId.run_sync_pipe i ≠ .pid_report_pipe i from nofun)]
  exact ⟨fun _ => ⟨rfl, rfl⟩, fun _ => by simp [Pipe.connect],
    fun _ => by simp [Pipe.connect], nofun, nofun, nofun, nofun⟩

/-- **The wrapper inherits the read end**, which `handle_client` still holds. -/
theorem pipesInv_fork (h : PipesInv s) {i : Fin n} {ok : Bool}
    (hsurvives : Survives s (.fork i ok)) (hstep : pipeStep s (.fork i ok) = some s') :
    PipesInv s' := by
  simp only [pipeStep, if_neg h.running] at hstep
  have hi := h.sync i
  split_ifs at hstep with hpiped hok
  · obtain rfl := Option.some.inj hstep
    refine h.forks (i := i) .server (.wrapper i) (Or.inr (Or.inl rfl)) ?_ ⟨rfl, rfl, rfl⟩
      (fun j hj => ⟨Function.update_of_ne hj _ _, Function.update_of_ne hj _ _, rfl⟩) rfl
    rw [GradingServer.SyncOk, hpiped] at hi
    obtain ⟨-, hinner⟩ := hi.alone trivial
    simp only [GradingServer.SyncOk, GradingServer.forkProc, Function.update_self, hinner]
    refine ⟨nofun, nofun, fun _ => ?_, fun _ => Pipe.child_reads (hi.piped rfl) _, nofun, nofun,
      fun _ => Or.inl trivial⟩
    obtain ⟨hbuf, hwriter⟩ := hi.quiet (Or.inl rfl)
    exact ⟨hbuf, Pipe.mem_writers_fork hwriter _ _⟩
  · exact absurd hsurvives hok

/-- `handle_client` closes the ends it does not use. -/
theorem pipesInv_closeEnds (h : PipesInv s) {i : Fin n}
    (hstep : pipeStep s (.closeEnds i) = some s') : PipesInv s' := by
  simp only [pipeStep, if_neg h.running] at hstep
  have hi := h.sync i
  split_ifs at hstep with hforked
  obtain rfl := Option.some.inj hstep
  refine h.ownPipes (i := i) ?_ ⟨rfl, rfl, rfl⟩
    (fun j hj => ⟨Function.update_of_ne hj _ _, rfl, rfl⟩)
    fun k hsync hreport => by simp [GradingServer.setPipe, hsync, hreport]
  rw [GradingServer.SyncOk, hforked] at hi
  simp only [GradingServer.SyncOk, GradingServer.setPipe, Function.update_self,
    Function.update_of_ne (show PipeId.run_sync_pipe i ≠ .pid_report_pipe i from nofun)]
  refine ⟨nofun, nofun, fun _ => hi.quiet (Or.inr trivial), fun hw => ?_, fun hw => ?_,
    fun _ => hi.blocked trivial, fun _ => hi.held trivial⟩
  · exact Finset.mem_erase.mpr ⟨nofun, hi.wrapper_reads hw⟩
  · exact Finset.mem_erase.mpr ⟨nofun, hi.inner_reads hw⟩

/-- `handle_client` reads the pid, or does without it. -/
theorem pipesInv_readReport (h : PipesInv s) {i : Fin n} {skel : Bool}
    (hstep : pipeStep s (.readReport i skel) = some s') : PipesInv s' := by
  simp only [pipeStep, if_neg h.running] at hstep
  have hi := h.sync i
  -- `run_sync_pipe` is as it was when the ends were closed
  have hreported : s.parent i = .closed → ∀ report q,
      PipesInv { s.setPipe (.pid_report_pipe i) q with
        parent := Function.update s.parent i (.reported report) } := by
    intro hclosed report q
    refine h.ownPipes (i := i) ?_ ⟨rfl, rfl, rfl⟩
      (fun j hj => ⟨Function.update_of_ne hj _ _, rfl, rfl⟩)
      fun k _ hreport => Function.update_of_ne hreport _ _
    rw [GradingServer.SyncOk, hclosed] at hi
    simp only [GradingServer.SyncOk, GradingServer.setPipe, Function.update_self,
      Function.update_of_ne (show PipeId.run_sync_pipe i ≠ .pid_report_pipe i from nofun)]
    exact ⟨nofun, nofun, fun _ => hi.quiet (Or.inr trivial), hi.wrapper_reads, hi.inner_reads,
      fun _ => hi.blocked trivial, fun _ => hi.held trivial⟩
  split_ifs at hstep with hclosed hskel
  · obtain ⟨⟨inner_pid, q⟩, -, rfl⟩ := Option.map_eq_some_iff.mp hstep
    exact hreported hclosed inner_pid _
  · obtain rfl := Option.some.inj hstep
    exact hreported hclosed [] _

/-- `handle_client` writes the sync byte: the write finds the reader that is left. -/
theorem pipesInv_release (h : PipesInv s) {i : Fin n}
    (hstep : pipeStep s (.release i) = some s') : PipesInv s' := by
  simp only [pipeStep, if_neg h.running] at hstep
  have hi := h.sync i
  split at hstep
  · rename_i inner_pid hreported
    rw [GradingServer.SyncOk, hreported] at hi
    obtain ⟨x, hx⟩ := hi.exists_reader trivial
    rw [GradingServer.writeByServer, Pipe.write_eq_some hx] at hstep
    obtain rfl := Option.some.inj hstep
    refine h.ownPipes (i := i) ?_ ⟨rfl, rfl, rfl⟩
      (fun j hj => ⟨Function.update_of_ne hj _ _, rfl, rfl⟩)
      fun k hsync _ => by simp [GradingServer.setPipe, hsync]
    simp only [GradingServer.SyncOk, GradingServer.setPipe, Function.update_self]
    refine ⟨nofun, nofun, fun hw => ?_, hi.wrapper_reads, hi.inner_reads, nofun, nofun⟩
    rcases hw with hw | hw <;> cases hw
  · cases hstep

/-- `wait4` returns. -/
theorem pipesInv_wait (h : PipesInv s) {i : Fin n}
    (hstep : pipeStep s (.wait i) = some s') : PipesInv s' := by
  simp only [pipeStep, if_neg h.running] at hstep
  have hi := h.sync i
  split_ifs at hstep with hreleased
  obtain rfl := Option.some.inj hstep
  refine h.ownPipes (i := i) ?_ ⟨rfl, rfl, rfl⟩
    (fun j hj => ⟨Function.update_of_ne hj _ _, rfl, rfl⟩) fun _ _ _ => rfl
  rw [GradingServer.SyncOk, hreleased.1] at hi
  simp only [GradingServer.SyncOk, Function.update_self]
  exact hi.parent_moves .done nofun nofun nofun

/-- The wrapper closes the ends it does not use. -/
theorem pipesInv_wrapperDetach (h : PipesInv s) {i : Fin n}
    (hstep : pipeStep s (.wrapperDetach i) = some s') : PipesInv s' := by
  simp only [pipeStep, if_neg h.running] at hstep
  have hi := h.sync i
  split_ifs at hstep with hstarted
  obtain rfl := Option.some.inj hstep
  refine h.ownPipes (i := i) ?_ ⟨rfl, rfl, rfl⟩
    (fun j hj => ⟨rfl, Function.update_of_ne hj _ _, rfl⟩)
    fun k hsync hreport => by simp [GradingServer.setPipe, hsync, hreport]
  rw [GradingServer.SyncOk, hstarted] at hi
  have hmoved := hi.wrapper_moves .detached nofun Iff.rfl
  simp only [GradingServer.SyncOk, GradingServer.setPipe, Function.update_self,
    Function.update_of_ne (show PipeId.run_sync_pipe i ≠ .pid_report_pipe i from nofun)]
  refine ⟨hmoved.alone, hmoved.piped, fun hw => ?_, hmoved.wrapper_reads, hmoved.inner_reads,
    hmoved.blocked, hmoved.held⟩
  exact ⟨(hi.quiet hw).1, Finset.mem_erase.mpr ⟨nofun, (hi.quiet hw).2⟩⟩

/-- The wrapper ends, while there is an inner process or behind the sync byte. -/
theorem PipesInv.wrapperEnds (h : PipesInv s) {i : Fin n} (hthere : s.wrapper i ≠ .gone)
    (hinner : s.inner i ≠ .gone ∨ (s.parent i).Synced) :
    PipesInv { s.exitProc (.wrapper i) with wrapper := Function.update s.wrapper i .gone } := by
  refine h.ends (i := i) (.wrapper i) (Or.inr (Or.inl rfl)) ?_ ⟨rfl, rfl, rfl⟩
    (fun j hj => ⟨rfl, Function.update_of_ne hj _ _, rfl⟩) rfl
  simp only [GradingServer.SyncOk, GradingServer.exitProc, Function.update_self]
  refine (h.sync i).wrapper_leaves hthere id hinner fun x hx => ?_
  exact sameFor_exit (by rcases hx with rfl | rfl <;> simp) _

/-- `unshare` by the wrapper; it fails only behind the sync byte. -/
theorem pipesInv_unshare (h : PipesInv s) {i : Fin n} {ok : Bool}
    (hsurvives : Survives s (.unshare i ok)) (hstep : pipeStep s (.unshare i ok) = some s') :
    PipesInv s' := by
  simp only [pipeStep, if_neg h.running] at hstep
  have hi := h.sync i
  split_ifs at hstep with hdetached hok
  · obtain rfl := Option.some.inj hstep
    refine h.ownPipes (i := i) ?_ ⟨rfl, rfl, rfl⟩
      (fun j hj => ⟨rfl, Function.update_of_ne hj _ _, rfl⟩) fun _ _ _ => rfl
    rw [GradingServer.SyncOk, hdetached] at hi
    simp only [GradingServer.SyncOk, Function.update_self]
    exact hi.wrapper_moves _ nofun Iff.rfl
  · obtain rfl := Option.some.inj hstep
    exact h.wrapperEnds (by simp [hdetached]) (Or.inr (hsurvives.resolve_left hok))

/-- **The inner process inherits the read end** from the wrapper. -/
theorem pipesInv_forkInner (h : PipesInv s) {i : Fin n} {ok : Bool}
    (hsurvives : Survives s (.forkInner i ok)) (hstep : pipeStep s (.forkInner i ok) = some s') :
    PipesInv s' := by
  simp only [pipeStep, if_neg h.running] at hstep
  have hi := h.sync i
  split_ifs at hstep with hunshared hok
  · obtain rfl := Option.some.inj hstep
    refine h.forks (i := i) (.wrapper i) (.inner i) (Or.inr (Or.inr rfl)) ?_ ⟨rfl, rfl, rfl⟩
      (fun j hj => ⟨rfl, Function.update_of_ne hj _ _, Function.update_of_ne hj _ _⟩) rfl
    rw [GradingServer.SyncOk, hunshared] at hi
    simp only [GradingServer.SyncOk, GradingServer.forkProc, Function.update_self]
    have hreads := hi.wrapper_reads trivial
    refine ⟨fun hw => absurd hw (hi.not_beforeFork nofun),
      fun hw => Pipe.mem_readers_fork (hi.piped hw) _ _, fun hw => ?_,
      fun _ => Pipe.mem_readers_fork hreads _ _, fun _ => Pipe.child_reads hreads _, nofun,
      fun _ => Or.inl trivial⟩
    exact ⟨(hi.quiet hw).1, Pipe.mem_writers_fork (hi.quiet hw).2 _ _⟩
  · obtain rfl := Option.some.inj hstep
    exact h.wrapperEnds (by simp [hunshared]) (Or.inr (hsurvives.resolve_left hok))

/-- The wrapper lets go of its read end. -/
theorem pipesInv_wrapperUnsync (h : PipesInv s) {i : Fin n}
    (hsurvives : Survives s (.wrapperUnsync i))
    (hstep : pipeStep s (.wrapperUnsync i) = some s') : PipesInv s' := by
  simp only [pipeStep, if_neg h.running] at hstep
  have hi := h.sync i
  split_ifs at hstep with hforked
  obtain rfl := Option.some.inj hstep
  refine h.ownPipes (i := i) ?_ ⟨rfl, rfl, rfl⟩
    (fun j hj => ⟨rfl, Function.update_of_ne hj _ _, rfl⟩)
    fun k hsync _ => Function.update_of_ne hsync _ _
  simp only [GradingServer.SyncOk, GradingServer.setPipe, Function.update_self]
  refine hi.wrapper_leaves (by simp [hforked]) id (hsurvives hforked) fun x hx => ?_
  exact sameFor_closeRead (by rcases hx with rfl | rfl <;> simp) _

/-- The wrapper reports the pid, or is ended by the attempt; its read end is closed. -/
theorem pipesInv_report (h : PipesInv s) {i : Fin n} {inner_pid : UInt32}
    (hstep : pipeStep s (.report i inner_pid) = some s') : PipesInv s' := by
  simp only [pipeStep, if_neg h.running] at hstep
  have hi := h.sync i
  split_ifs at hstep with hunsynced
  rw [GradingServer.SyncOk, hunsynced] at hi
  split at hstep
  · obtain rfl := Option.some.inj hstep
    refine h.ownPipes (i := i) ?_ ⟨rfl, rfl, rfl⟩
      (fun j hj => ⟨rfl, Function.update_of_ne hj _ _, rfl⟩)
      fun k _ hreport => Function.update_of_ne hreport _ _
    simp only [GradingServer.SyncOk, GradingServer.setPipe, Function.update_self,
      Function.update_of_ne (show PipeId.run_sync_pipe i ≠ .pid_report_pipe i from nofun)]
    exact hi.wrapper_moves _ nofun Iff.rfl
  · obtain rfl := Option.some.inj hstep
    refine h.wrapperEnds (by simp [hunsynced]) ?_
    -- the read end is closed since before, so the inner process has its own
    rcases ParentAt.cases_phase (s.parent i) with hbefore | hwaiting | hsynced
    · exact absurd hbefore (hi.not_beforeFork nofun)
    · refine Or.inl fun hgone => ?_
      rcases hi.held hwaiting with hlistens | hlistens
      · exact hlistens
      · rw [hgone] at hlistens
        exact hlistens
    · exact Or.inr hsynced

/-- The wrapper ends at some other point. -/
theorem pipesInv_wrapperExit (h : PipesInv s) {i : Fin n}
    (hsurvives : Survives s (.wrapperExit i)) (hstep : pipeStep s (.wrapperExit i) = some s') :
    PipesInv s' := by
  simp only [pipeStep, if_neg h.running] at hstep
  split_ifs at hstep with hgone
  obtain rfl := Option.some.inj hstep
  exact h.wrapperEnds hgone hsurvives

/-- The inner process closes the end it does not use. -/
theorem pipesInv_innerDetach (h : PipesInv s) {i : Fin n}
    (hstep : pipeStep s (.innerDetach i) = some s') : PipesInv s' := by
  simp only [pipeStep, if_neg h.running] at hstep
  have hi := h.sync i
  split_ifs at hstep with hstarted
  obtain rfl := Option.some.inj hstep
  refine h.ownPipes (i := i) ?_ ⟨rfl, rfl, rfl⟩
    (fun j hj => ⟨rfl, rfl, Function.update_of_ne hj _ _⟩)
    fun k _ hreport => Function.update_of_ne hreport _ _
  rw [GradingServer.SyncOk, hstarted] at hi
  simp only [GradingServer.SyncOk, GradingServer.setPipe, Function.update_self,
    Function.update_of_ne (show PipeId.run_sync_pipe i ≠ .pid_report_pipe i from nofun)]
  exact ⟨fun hw => absurd (hi.alone hw).2 nofun, hi.piped, hi.quiet, hi.wrapper_reads,
    fun _ => hi.inner_reads trivial, nofun, fun _ => Or.inr trivial⟩

/-- The inner process passes its `read`: up to the sync byte it blocks. -/
theorem pipesInv_innerRead (h : PipesInv s) {i : Fin n}
    (hstep : pipeStep s (.innerRead i) = some s') : PipesInv s' := by
  simp only [pipeStep, if_neg h.running] at hstep
  have hi := h.sync i
  split_ifs at hstep with hlistening
  obtain ⟨⟨got, q⟩, hread, rfl⟩ := Option.map_eq_some_iff.mp hstep
  refine h.ownPipes (i := i) ?_ ⟨rfl, rfl, rfl⟩
    (fun j hj => ⟨rfl, rfl, Function.update_of_ne hj _ _⟩)
    fun k hsync _ => Function.update_of_ne hsync _ _
  rw [GradingServer.SyncOk, hlistening] at hi
  have hlate : ¬ (s.parent i = .piped ∨ (s.parent i).BeforeSync) := by
    intro hw
    obtain ⟨hbuf, hwriter⟩ := hi.quiet hw
    rw [Pipe.read_eq_none hbuf hwriter] at hread
    cases hread
  obtain ⟨-, rfl, -⟩ := Pipe.read_eq_some hread
  obtain ⟨hpiped, hsync⟩ := not_or.mp hlate
  simp only [GradingServer.SyncOk, GradingServer.setPipe, Function.update_self]
  exact ⟨fun hw => absurd (hi.alone hw).2 nofun, fun hw => absurd hw hpiped,
    fun hw => absurd hw hlate, fun hw => Finset.mem_erase.mpr ⟨nofun, hi.wrapper_reads hw⟩,
    nofun, fun hw => absurd hw hsync, fun hw => absurd hw hsync⟩

/-- The inner process ends. -/
theorem pipesInv_innerExit (h : PipesInv s) {i : Fin n}
    (hsurvives : Survives s (.innerExit i)) (hstep : pipeStep s (.innerExit i) = some s') :
    PipesInv s' := by
  simp only [pipeStep, if_neg h.running] at hstep
  split_ifs at hstep
  obtain rfl := Option.some.inj hstep
  refine h.ends (i := i) (.inner i) (Or.inr (Or.inr rfl)) ?_ ⟨rfl, rfl, rfl⟩
    (fun j hj => ⟨rfl, rfl, Function.update_of_ne hj _ _⟩) rfl
  simp only [GradingServer.SyncOk, GradingServer.exitProc, Function.update_self]
  refine (h.sync i).inner_leaves hsurvives fun x hx => ?_
  exact sameFor_exit (by rcases hx with rfl | rfl <;> simp) _

/-- The control client sends something more. -/
theorem pipesInv_ctlSend (h : PipesInv s) {data : List UInt8}
    (hstep : pipeStep s (.ctlSend data) = some s') : PipesInv s' := by
  simp only [pipeStep, if_neg h.running] at hstep
  split at hstep
  · rename_i sent hctl
    split_ifs at hstep with hopen
    obtain ⟨q, -, rfl⟩ := Option.map_eq_some_iff.mp hstep
    obtain ⟨hsilent, hsent, -⟩ := h.ctl
    refine ⟨h.alive, h.unpaused, h.sync, nofun, fun _ => ?_, nofun⟩
    cases sent with
    | false => exact (hsilent hctl).2 hopen.1
    | true => exact hsent hctl
  · cases hstep

/-- The control client goes, unnoticed or without having asked for anything. -/
theorem pipesInv_ctlClose (h : PipesInv s) (hsurvives : Survives s .ctlClose)
    (hstep : pipeStep s .ctlClose = some s') : PipesInv s' := by
  simp only [pipeStep, if_neg h.running] at hstep
  obtain rfl := Option.some.inj hstep
  refine ⟨h.alive, h.unpaused, h.sync, ?_⟩
  rcases hsurvives with hidle | hsilent
  · show CtlOk s.ctl _ _
    rw [hidle]
    exact ⟨nofun, nofun, nofun⟩
  · show CtlOk s.ctl _ _
    rw [hsilent]
    refine ⟨fun _ => ⟨(h.ctl.1 hsilent).1, fun hmem => ?_⟩, nofun, nofun⟩
    exact absurd rfl (Finset.mem_erase.mp hmem).1

/-- `handle_ctl_client` takes the request; what is not empty was sent by a client that is
still there. -/
theorem pipesInv_ctlReceive (h : PipesInv s) (hstep : pipeStep s .ctlReceive = some s') :
    PipesInv s' := by
  simp only [pipeStep, if_neg h.running] at hstep
  split at hstep
  · rename_i sent hctl
    obtain ⟨hsilent, hsent, -⟩ := h.ctl
    by_cases hready : sizeofIpcRequest ≤ (s.pipes .ctlRequest).buf.length ∨
        (s.pipes .ctlRequest).writers = ∅
    · rw [if_pos hready] at hstep
      obtain rfl := Option.some.inj hstep
      refine ⟨h.alive, h.unpaused, h.sync, ?_⟩
      show CtlOk (if (s.pipes .ctlRequest).buf.take sizeofIpcRequest = [] then .idle
        else .received _) _ _
      split_ifs with hnil
      · exact ⟨nofun, nofun, nofun⟩
      · refine ⟨nofun, nofun, fun _ _ => ?_⟩
        cases sent with
        | false =>
          -- a client that has sent nothing is not answered
          rw [(hsilent hctl).1, List.take_nil] at hnil
          exact absurd rfl hnil
        | true => exact hsent hctl
    · rw [if_neg hready] at hstep
      cases hstep
  · cases hstep

/-- `handle_ctl_client` answers a client that is still there. -/
theorem pipesInv_ctlReply (h : PipesInv s) {resp : List UInt8}
    (hstep : pipeStep s (.ctlReply resp) = some s') : PipesInv s' := by
  simp only [pipeStep, if_neg h.running] at hstep
  split at hstep
  · rename_i req hctl
    rw [GradingServer.writeByServer, Pipe.write_eq_some (h.ctl.2.2 req hctl)] at hstep
    obtain rfl := Option.some.inj hstep
    exact ⟨h.alive, h.unpaused, h.sync, nofun, nofun, nofun⟩
  · cases hstep

/-- A student's connection is no concern of the invariant, and nobody is turned away. -/
theorem pipesInv_student (h : PipesInv s) {i : Fin n} {a : PipeAction n}
    (ha : a = .connect i ∨ a = .disconnect i ∨ (∃ data, a = .send i data) ∨
      ∃ msg, a = .reject i msg)
    (hstep : pipeStep s a = some s') : PipesInv s' := by
  rcases ha with rfl | rfl | ⟨data, rfl⟩ | ⟨msg, rfl⟩
  all_goals simp only [pipeStep, if_neg h.running] at hstep
  · obtain rfl := Option.some.inj hstep
    exact ⟨h.alive, h.unpaused, h.sync, h.ctl⟩
  · obtain rfl := Option.some.inj hstep
    exact ⟨h.alive, h.unpaused, h.sync, h.ctl⟩
  · obtain rfl := Option.some.inj hstep
    unfold GradingServer.sendByServer
    split
    · exact ⟨h.alive, h.unpaused, h.sync, h.ctl⟩
    · exact h
  · simp [h.unpaused] at hstep

/-- The invariant is kept by every step that the server survives. -/
theorem pipesInv_step (s : GradingServer n) (a : PipeAction n) (s' : GradingServer n)
    (h : PipesInv s) (hsurvives : Survives s a) (hstep : pipeStep s a = some s') : PipesInv s' := by
  cases a with
  | connect i | disconnect i | send i _ | reject i _ =>
    exact pipesInv_student (i := i) h (by simp) hstep
  | forkGcc i _ => exact pipesInv_forkGcc h hstep
  | gccExit i => exact pipesInv_gccExit h hstep
  | pipe i => exact pipesInv_pipe h hstep
  | fork i _ => exact pipesInv_fork h hsurvives hstep
  | closeEnds i => exact pipesInv_closeEnds h hstep
  | readReport i skel => exact pipesInv_readReport h hstep
  | release i => exact pipesInv_release h hstep
  | wait i => exact pipesInv_wait h hstep
  | wrapperDetach i => exact pipesInv_wrapperDetach h hstep
  | unshare i _ => exact pipesInv_unshare h hsurvives hstep
  | forkInner i _ => exact pipesInv_forkInner h hsurvives hstep
  | wrapperUnsync i => exact pipesInv_wrapperUnsync h hsurvives hstep
  | report i inner_pid => exact pipesInv_report h hstep
  | wrapperExit i => exact pipesInv_wrapperExit h hsurvives hstep
  | innerDetach i => exact pipesInv_innerDetach h hstep
  | innerRead i => exact pipesInv_innerRead h hstep
  | innerExit i => exact pipesInv_innerExit h hsurvives hstep
  | ctlConnect =>
    simp only [pipeStep, if_neg h.running] at hstep
    split_ifs at hstep
    obtain rfl := Option.some.inj hstep
    refine ⟨h.alive, h.unpaused, h.sync, fun _ => ⟨rfl, fun _ => ?_⟩, nofun, nofun⟩
    exact Finset.mem_singleton_self _
  | ctlSend data => exact pipesInv_ctlSend h hstep
  | ctlClose => exact pipesInv_ctlClose h hsurvives hstep
  | ctlReceive => exact pipesInv_ctlReceive h hstep
  | ctlReply resp => exact pipesInv_ctlReply h hstep

end Steps

/-- **The server survives as long as the two processes of a submission stay for the sync
byte.**  In every interleaving of any number of submissions, their wrappers and inner
processes, the clients and the main thread in which no `fork` of a wrapper fails, up to the
sync byte neither `unshare` nor the inner `fork` fails and the wrapper and the inner process
do not both let go of their read ends, and no control client leaves between its request and
the reply, the server never writes to a pipe or sends to a socket without a reader. -/
theorem never_sigpipe (as : List (PipeAction n))
    (h : Runs.Along pipeStep Survives (.initial n) as) :
    Runs.Always pipeStep (fun s => s.sigpipe = false) (.initial n) as :=
  (Runs.always_of_invariant pipesInv_initial pipesInv_step h).imp fun _ => PipesInv.alive

/-- Two submissions at a time: the second worker forks while the first waits for its
wrapper, and a control client is answered in between. -/
def twoSubmissions : List (PipeAction 2) :=
  [.connect 0, .connect 1, .forkGcc 0 true, .forkGcc 1 true, .gccExit 0, .gccExit 1, .pipe 0,
    .fork 0 true, .wrapperDetach 0, .unshare 0 true, .forkInner 0 true, .closeEnds 0, .pipe 1,
    .fork 1 true, .wrapperUnsync 0, .report 0 4242, .readReport 0 true, .innerDetach 0,
    .ctlConnect, .ctlSend [5], .release 0, .innerRead 0, .innerExit 0, .wrapperExit 0, .wait 0,
    .disconnect 0, .send 0 [1]]

theorem never_sigpipe_two :
    (Runs.exec pipeStep (.initial 2) twoSubmissions).isSome ∧
      Runs.Always pipeStep (fun s => s.sigpipe = false) (.initial 2) twoSubmissions :=
  ⟨by decide +kernel, never_sigpipe _ (by decide +kernel)⟩

/-- A wrapper whose `unshare` fails leaves nobody to read the sync byte, and the server dies;
so it does when a control client closes its connection after its request. -/
theorem sigpipe_of_failed_unshare :
    ¬ Runs.Always pipeStep (fun s => s.sigpipe = false) (.initial 1)
        [.connect 0, .forkGcc 0 true, .gccExit 0, .pipe 0, .fork 0 true, .wrapperDetach 0,
          .unshare 0 false, .closeEnds 0, .readReport 0 true, .release 0] ∧
      ¬ Runs.Always pipeStep (fun s => s.sigpipe = false) (.initial 1)
        [.ctlConnect, .ctlSend [5], .ctlClose, .ctlReceive, .ctlReply [0]] := by
  constructor
  · intro h
    exact absurd h.at_end (by decide +kernel)
  · intro h
    exact absurd h.at_end (by decide +kernel)

/-! ## Runs in which nothing fails -/

/-- No `fork` or `unshare` fails, neither process of a submission ends before its sync byte, and
a control client that has sent something stays until it is answered. -/
def Undisturbed (s : GradingServer n) : PipeAction n → Prop
  | .fork _ ok => ok = true
  | .unshare _ ok => ok = true
  | .forkInner _ ok => ok = true
  | .wrapperExit i => (s.parent i).Synced
  | .innerExit i => (s.parent i).Synced
  | .ctlClose => s.ctl = .idle ∨ s.ctl = .connected false
  | _ => True

/-- Up to the sync byte, behind the inner `fork` there is an inner process. -/
def InnerThere (s : GradingServer n) : Prop :=
  ∀ i, s.wrapper i = .forked → s.inner i ≠ .gone ∨ (s.parent i).Synced

section Steps

variable {s s' : GradingServer n}

/-- A step that brings no wrapper behind its inner `fork`, ends no inner process that is waited
for, and takes no submission back behind its sync byte. -/
theorem InnerThere.keeps (h : InnerThere s)
    (hwrapper : ∀ i, s'.wrapper i = .forked → s.wrapper i = .forked)
    (hinner : ∀ i, s.inner i ≠ .gone → s'.inner i ≠ .gone ∨ (s'.parent i).Synced)
    (hparent : ∀ i, (s.parent i).Synced → (s'.parent i).Synced) : InnerThere s' :=
  fun i hi => (h i (hwrapper i hi)).elim (hinner i) fun hsynced => Or.inr (hparent i hsynced)

/-- `handle_client` moves on from a point before the sync byte, or to one behind it. -/
theorem InnerThere.parent_moves (h : InnerThere s) {i : Fin n} {w : ParentAt}
    (hwrapper : ∀ j, s'.wrapper j = .forked → s.wrapper j = .forked)
    (hinner : s'.inner = s.inner) (hparent : s'.parent = Function.update s.parent i w)
    (hw : (s.parent i).Synced → w.Synced) : InnerThere s' := by
  refine h.keeps hwrapper (fun j hj => Or.inl (hinner ▸ hj)) fun j hj => ?_
  rw [hparent]
  by_cases hji : j = i
  · subst hji
    rw [Function.update_self]
    exact hw hj
  · rwa [Function.update_of_ne hji]

/-- A wrapper moves to a point other than right behind its inner `fork`. -/
theorem InnerThere.wrapper_moves (h : InnerThere s) {i : Fin n} {w : WrapperAt}
    (hwrapper : s'.wrapper = Function.update s.wrapper i w) (hw : w ≠ .forked)
    (hinner : s'.inner = s.inner) (hparent : s'.parent = s.parent) : InnerThere s' := by
  refine h.keeps (fun j hj => ?_) (fun j hj => Or.inl (hinner ▸ hj)) fun j hj => hparent ▸ hj
  rw [hwrapper] at hj
  by_cases hji : j = i
  · subst hji
    rw [Function.update_self] at hj
    exact absurd hj hw
  · rwa [Function.update_of_ne hji] at hj

/-- An inner process moves on, or ends behind the sync byte. -/
theorem InnerThere.inner_moves (h : InnerThere s) {i : Fin n} {w : InnerAt}
    (hwrapper : s'.wrapper = s.wrapper) (hinner : s'.inner = Function.update s.inner i w)
    (hw : w ≠ .gone ∨ (s.parent i).Synced) (hparent : s'.parent = s.parent) :
    InnerThere s' := by
  refine h.keeps (fun j hj => hwrapper ▸ hj) (fun j hj => ?_) fun j hj => hparent ▸ hj
  rw [hinner, hparent]
  by_cases hji : j = i
  · subst hji
    rwa [Function.update_self]
  · rw [Function.update_of_ne hji]
    exact Or.inl hj

/-- The steps of `handle_client` keep the inner processes there. -/
theorem innerThere_parent (h : InnerThere s) (hs : ¬ s.sigpipe = true) {i : Fin n}
    {a : PipeAction n}
    (ha : (∃ ok, a = .forkGcc i ok) ∨ a = .gccExit i ∨ a = .pipe i ∨ (∃ ok, a = .fork i ok) ∨
      a = .closeEnds i ∨ (∃ skel, a = .readReport i skel) ∨ a = .release i ∨ a = .wait i)
    (hstep : pipeStep s a = some s') : InnerThere s' := by
  rcases ha with ⟨ok, rfl⟩ | rfl | rfl | ⟨ok, rfl⟩ | rfl | ⟨skel, rfl⟩ | rfl | rfl
  all_goals simp only [pipeStep, if_neg hs] at hstep
  · split_ifs at hstep with hidle hok <;> obtain rfl := Option.some.inj hstep
    all_goals exact h.parent_moves (i := i) (fun _ => id) rfl rfl (by simp [hidle, ParentAt.Synced])
  · split_ifs at hstep with hcompiling
    obtain rfl := Option.some.inj hstep
    exact h.parent_moves (i := i) (fun _ => id) rfl rfl (by simp [hcompiling, ParentAt.Synced])
  · split_ifs at hstep with hcompiled
    obtain rfl := Option.some.inj hstep
    exact h.parent_moves (i := i) (fun _ => id) rfl rfl (by simp [hcompiled, ParentAt.Synced])
  · split_ifs at hstep with hpiped hok <;> obtain rfl := Option.some.inj hstep
    · refine h.parent_moves (i := i) (fun j hj => ?_) rfl rfl (by simp [hpiped, ParentAt.Synced])
      by_cases hji : j = i
      · subst hji
        simp at hj
      · simpa [hji] using hj
    · exact h.parent_moves (i := i) (fun _ => id) rfl rfl (by simp [hpiped, ParentAt.Synced])
  · split_ifs at hstep with hforked
    obtain rfl := Option.some.inj hstep
    exact h.parent_moves (i := i) (fun _ => id) rfl rfl (by simp [hforked, ParentAt.Synced])
  · split_ifs at hstep with hclosed hskel
    · obtain ⟨_, -, rfl⟩ := Option.map_eq_some_iff.mp hstep
      exact h.parent_moves (i := i) (fun _ => id) rfl rfl (by simp [hclosed, ParentAt.Synced])
    · obtain rfl := Option.some.inj hstep
      exact h.parent_moves (i := i) (fun _ => id) rfl rfl (by simp [hclosed, ParentAt.Synced])
  · split at hstep
    · obtain rfl := Option.some.inj hstep
      unfold GradingServer.writeByServer
      split <;> exact h.parent_moves (i := i) (fun _ => id) rfl rfl fun _ => Or.inl rfl
    · cases hstep
  · split_ifs at hstep
    obtain rfl := Option.some.inj hstep
    exact h.parent_moves (i := i) (fun _ => id) rfl rfl fun _ => Or.inr rfl

/-- The steps of a wrapper, whose inner `fork` succeeds, keep the inner processes there. -/
theorem innerThere_wrapper (h : InnerThere s) (hs : ¬ s.sigpipe = true) {i : Fin n}
    {a : PipeAction n}
    (ha : a = .wrapperDetach i ∨ (∃ ok, a = .unshare i ok) ∨ (∃ ok, a = .forkInner i ok) ∨
      a = .wrapperUnsync i ∨ (∃ inner_pid, a = .report i inner_pid) ∨ a = .wrapperExit i)
    (hstep : pipeStep s a = some s') : InnerThere s' := by
  rcases ha with rfl | ⟨ok, rfl⟩ | ⟨ok, rfl⟩ | rfl | ⟨inner_pid, rfl⟩ | rfl
  all_goals simp only [pipeStep, if_neg hs] at hstep
  · split_ifs at hstep
    obtain rfl := Option.some.inj hstep
    exact h.wrapper_moves (i := i) rfl nofun rfl rfl
  · split_ifs at hstep <;> obtain rfl := Option.some.inj hstep
    all_goals exact h.wrapper_moves (i := i) rfl nofun rfl rfl
  · split_ifs at hstep <;> obtain rfl := Option.some.inj hstep
    · intro j hj
      by_cases hji : j = i
      · subst hji
        exact Or.inl (by simp)
      · simpa [hji, GradingServer.forkProc] using h j (by simpa [hji] using hj)
    · exact h.wrapper_moves (i := i) rfl nofun rfl rfl
  · split_ifs at hstep
    obtain rfl := Option.some.inj hstep
    exact h.wrapper_moves (i := i) rfl nofun rfl rfl
  · split_ifs at hstep
    split at hstep <;> obtain rfl := Option.some.inj hstep
    all_goals exact h.wrapper_moves (i := i) rfl nofun rfl rfl
  · split_ifs at hstep
    obtain rfl := Option.some.inj hstep
    exact h.wrapper_moves (i := i) rfl nofun rfl rfl

/-- The steps of an inner process that does not end before the sync byte. -/
theorem innerThere_inner (h : InnerThere s) (hs : ¬ s.sigpipe = true) {i : Fin n}
    {a : PipeAction n} (ha : a = .innerDetach i ∨ a = .innerRead i ∨ a = .innerExit i)
    (hund : Undisturbed s a) (hstep : pipeStep s a = some s') : InnerThere s' := by
  rcases ha with rfl | rfl | rfl
  all_goals simp only [pipeStep, if_neg hs] at hstep
  · split_ifs at hstep
    obtain rfl := Option.some.inj hstep
    exact h.inner_moves (i := i) rfl rfl (Or.inl nofun) rfl
  · split_ifs at hstep
    obtain ⟨_, -, rfl⟩ := Option.map_eq_some_iff.mp hstep
    exact h.inner_moves (i := i) rfl rfl (Or.inl nofun) rfl
  · split_ifs at hstep
    obtain rfl := Option.some.inj hstep
    exact h.inner_moves (i := i) rfl rfl (Or.inr hund) rfl

/-- The clients and the main thread move no process of a submission. -/
theorem innerThere_client (h : InnerThere s) (hs : ¬ s.sigpipe = true) {a : PipeAction n}
    (ha : (∃ i, a = .connect i ∨ a = .disconnect i ∨ (∃ data, a = .send i data) ∨
      ∃ msg, a = .reject i msg) ∨ a = .ctlConnect ∨ (∃ data, a = .ctlSend data) ∨
      a = .ctlClose ∨ a = .ctlReceive ∨ ∃ resp, a = .ctlReply resp)
    (hstep : pipeStep s a = some s') : InnerThere s' := by
  have hsame : s'.wrapper = s.wrapper → s'.inner = s.inner → s'.parent = s.parent →
      InnerThere s' := fun hw hi hp =>
    h.keeps (fun _ hj => hw ▸ hj) (fun _ hj => Or.inl (hi ▸ hj)) fun _ hj => hp ▸ hj
  rcases ha with ⟨i, rfl | rfl | ⟨data, rfl⟩ | ⟨msg, rfl⟩⟩ | rfl | ⟨data, rfl⟩ | rfl | rfl |
    ⟨resp, rfl⟩
  all_goals simp only [pipeStep, if_neg hs] at hstep
  · obtain rfl := Option.some.inj hstep
    exact hsame rfl rfl rfl
  · obtain rfl := Option.some.inj hstep
    exact hsame rfl rfl rfl
  · obtain rfl := Option.some.inj hstep
    unfold GradingServer.sendByServer at hsame ⊢
    split at hsame <;> exact hsame rfl rfl rfl
  · split_ifs at hstep
    obtain rfl := Option.some.inj hstep
    unfold GradingServer.writeByServer at hsame ⊢
    split at hsame <;> exact hsame rfl rfl rfl
  · split_ifs at hstep
    obtain rfl := Option.some.inj hstep
    exact hsame rfl rfl rfl
  · split at hstep
    · split_ifs at hstep
      obtain ⟨_, -, rfl⟩ := Option.map_eq_some_iff.mp hstep
      exact hsame rfl rfl rfl
    · cases hstep
  · obtain rfl := Option.some.inj hstep
    exact hsame rfl rfl rfl
  · split at hstep
    · split_ifs at hstep <;> obtain rfl := Option.some.inj hstep
      all_goals exact hsame rfl rfl rfl
    · cases hstep
  · split at hstep
    · obtain rfl := Option.some.inj hstep
      unfold GradingServer.writeByServer at hsame ⊢
      split at hsame <;> exact hsame rfl rfl rfl
    · cases hstep

theorem innerThere_step (s : GradingServer n) (a : PipeAction n) (s' : GradingServer n)
    (h : InnerThere s) (hund : Undisturbed s a) (hstep : pipeStep s a = some s') :
    InnerThere s' := by
  have hs : ¬ s.sigpipe = true := fun hs => by simp [pipeStep, hs] at hstep
  cases a with
  | connect i | disconnect i | send i _ | reject i _ | ctlConnect | ctlSend _ | ctlClose
  | ctlReceive | ctlReply _ => exact innerThere_client h hs (by simp) hstep
  | forkGcc i _ | gccExit i | pipe i | fork i _ | closeEnds i | readReport i _ | release i
  | wait i => exact innerThere_parent (i := i) h hs (by simp) hstep
  | wrapperDetach i | unshare i _ | forkInner i _ | wrapperUnsync i | report i _
  | wrapperExit i => exact innerThere_wrapper (i := i) h hs (by simp) hstep
  | innerDetach i | innerRead i | innerExit i =>
    exact innerThere_inner (i := i) h hs (by simp) hund hstep

end Steps

/-- **A run in which nothing fails is one that the server survives.** -/
theorem survives_of_undisturbed (as : List (PipeAction n))
    (h : Runs.Along pipeStep Undisturbed (.initial n) as) :
    Runs.Along pipeStep Survives (.initial n) as := by
  refine h.imp_of_invariant (Q := InnerThere) (fun _ hi => nomatch hi) innerThere_step ?_
  intro s a hthere hund
  cases a
  case fork | ctlClose => exact hund
  case unshare | forkInner => exact Or.inl hund
  case wrapperExit | innerExit => exact Or.inr hund
  case wrapperUnsync i => exact hthere i
  all_goals trivial

end MiniCi
