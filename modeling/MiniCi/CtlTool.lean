/-
# `minici-ctl` and the control socket

`minici-ctl` connects to the control socket, sends its command as a line of text, and prints
what it receives until the server closes the connection.  The main thread of the server
accepts the connection and receives an `IpcRequest` with `MSG_WAITALL`, that is 8193 bytes
or all there is when the other side has closed; then it replies and closes.

A command line is never as long as an `IpcRequest`, and `minici-ctl` does not close before
the end of the reply.  So each waits for the other, and with the main thread the server has
stopped accepting submissions (`never_both_waiting_iff`).
-/
import MiniCi.Sandbox

namespace MiniCi

open CStr Pipes

/-! ## The command line -/

/-- The text that `minici-ctl` makes of its arguments, `none` when it only prints its usage. -/
def ctlCommand : List Bytes → Option Bytes
  | [] => none
  | word :: args =>
    if str word = ascii "set-timeout" then
      match args with
      | [] => none
      | arg :: _ => some (snprintf 256 (ascii "set-timeout " ++ str arg ++ ascii "\n"))
    else some (snprintf 256 (str word ++ ascii "\n"))

/-- A line cut to the size of the buffer `cmd` is neither empty nor as long as a request. -/
theorem length_snprintf_line (text : Bytes) :
    0 < (snprintf 256 (text ++ ascii "\n")).length ∧
      (snprintf 256 (text ++ ascii "\n")).length < sizeofIpcRequest := by
  have hnewline : (ascii "\n").length = 1 := by decide
  have hsize : sizeofIpcRequest = 8193 := rfl
  rw [snprintf, List.length_take, List.length_append, hnewline]
  omega

theorem length_ctlCommand {argv : List Bytes} {cmd : Bytes} (h : ctlCommand argv = some cmd) :
    0 < cmd.length ∧ cmd.length < sizeofIpcRequest := by
  unfold ctlCommand at h
  split at h
  · cases h
  · split_ifs at h
    · split at h
      · cases h
      · rw [← Option.some.inj h]
        exact length_snprintf_line _
    · rw [← Option.some.inj h]
      exact length_snprintf_line _

/-! ## State -/

/-- The two sides of the connection. -/
inductive CtlProc where
  | ctl
  | server
  deriving DecidableEq

/-- Where `minici-ctl` is: before `connect`, before `send`, in the loop around `recv`, and at
its end. -/
inductive CtlToolAt where
  | start | connected | receiving | closed
  deriving DecidableEq

/-- Where the main thread is: in `epoll_wait`, in `recv` with what it has got so far, and
before the reply. -/
inductive MainAt where
  | polling
  | receiving (got : Bytes)
  | replying (req : Bytes)
  deriving DecidableEq

/-- The connection and its two sides; `pending` while it waits to be accepted. -/
structure CtlSession where
  request : Pipe CtlProc
  reply : Pipe CtlProc
  pending : Bool
  tool : CtlToolAt
  main : MainAt

/-- Before `minici-ctl` connects. -/
def CtlSession.initial : CtlSession :=
  { request := .closed, reply := .closed, pending := false, tool := .start, main := .polling }

/-! ## Steps -/

/-- A step of `minici-ctl` or of the main thread. -/
inductive CtlAction where
  /-- `minici-ctl`: `connect`, `send`, a `recv` that returns up to `len` bytes, `close` -/
  | connect
  | send
  | toolRecv (len : ℕ)
  | toolClose
  /-- the server: `accept`, up to `len` bytes arrive, `recv` returns, reply and `close` -/
  | accept
  | mainRecv (len : ℕ)
  | mainDone
  | mainReply (resp : Bytes)

/-- One step of a session of `minici-ctl` with the command `cmd`. -/
def ctlStep (cmd : Bytes) (s : CtlSession) : CtlAction → Option CtlSession
  | .connect =>
    if s.tool = .start then
      some { s with
        request := .connect .ctl .server, reply := .connect .server .ctl
        pending := true, tool := .connected }
    else none
  | .send =>
    if s.tool = .connected then
      (s.request.write cmd).map fun q => { s with request := q, tool := .receiving }
    else none
  | .toolRecv len =>
    if s.tool = .receiving ∧ 0 < len ∧ s.reply.buf ≠ [] then
      some { s with reply := { s.reply with buf := s.reply.buf.drop len } }
    else none
  | .toolClose =>
    if s.tool = .receiving ∧ s.reply.buf = [] ∧ s.reply.writers = ∅ then
      some { s with
        request := s.request.exit .ctl, reply := s.reply.exit .ctl, tool := .closed }
    else none
  | .accept =>
    if s.main = .polling ∧ s.pending then
      some { s with pending := false, main := .receiving [] }
    else none
  | .mainRecv len =>
    match s.main with
    | .receiving got =>
      if 0 < len ∧ got.length + len ≤ sizeofIpcRequest ∧ len ≤ s.request.buf.length then
        some { s with
          request := { s.request with buf := s.request.buf.drop len }
          main := .receiving (got ++ s.request.buf.take len) }
      else none
    | _ => none
  | .mainDone =>
    match s.main with
    | .receiving got =>
      -- `MSG_WAITALL`: all of the request, or the end of the stream
      if got.length = sizeofIpcRequest ∨ s.request.buf = [] ∧ s.request.writers = ∅ then
        if got = [] then
          some { s with
            request := s.request.exit .server, reply := s.reply.exit .server, main := .polling }
        else some { s with main := .replying got }
      else none
    | _ => none
  | .mainReply resp =>
    match s.main with
    | .replying _ =>
      some { s with
        request := s.request.exit .server
        reply := { s.reply with buf := s.reply.buf ++ resp }.exit .server, main := .polling }
    | _ => none

/-! ## The property -/

/-- Both sides are in `recv`, nothing is on its way, and neither side has closed. -/
structure CtlSession.BothWaiting (s : CtlSession) : Prop where
  tool : s.tool = .receiving
  main : ∃ got, s.main = .receiving got ∧ got.length < sizeofIpcRequest
  request : s.request.buf = [] ∧ s.request.writers ≠ ∅
  reply : s.reply.buf = [] ∧ s.reply.writers ≠ ∅

/-- No interleaving of a session of `minici-ctl` with these arguments gets to a state in which
both sides wait. -/
def NeverBothWaiting (argv : List Bytes) : Prop :=
  ∀ cmd ∈ ctlCommand argv, ∀ as,
    Runs.Always (ctlStep cmd) (fun s => ¬ s.BothWaiting) .initial as

/-- From there no step leads on: the main thread is lost to the submissions. -/
theorem CtlSession.BothWaiting.stuck {s : CtlSession} (h : s.BothWaiting) (cmd : Bytes)
    (a : CtlAction) : ctlStep cmd s a = none := by
  obtain ⟨htool, ⟨got, hmain, hgot⟩, ⟨hrequest, hwriters⟩, hreply, hwriters'⟩ := h
  cases a with
  | connect => simp [ctlStep, htool]
  | send => simp [ctlStep, htool]
  | toolRecv len => simp [ctlStep, hreply]
  | toolClose => simp [ctlStep, hwriters']
  | accept => simp [ctlStep, hmain]
  | mainRecv len =>
    have hnone : ¬ (0 < len ∧ got.length + len ≤ sizeofIpcRequest ∧
        len ≤ s.request.buf.length) := by
      rw [hrequest, List.length_nil]
      omega
    simp only [ctlStep, hmain, if_neg hnone]
  | mainDone =>
    have hwait : ¬ (got.length = sizeofIpcRequest ∨
        s.request.buf = [] ∧ s.request.writers = ∅) := by
      rintro (hfull | ⟨-, hend⟩)
      · omega
      · exact hwriters hend
    simp only [ctlStep, hmain, if_neg hwait]
  | mainReply resp => simp [ctlStep, hmain]

/-! ## No session is answered -/

/-- The bytes of the command that have been sent. -/
def CtlToolAt.sent (cmd : Bytes) : CtlToolAt → ℕ
  | .receiving => cmd.length
  | _ => 0

/-- What the main thread has got so far. -/
def MainAt.got : MainAt → Bytes
  | .receiving got => got
  | _ => []

/-- Neither side closes, and the server never gets more than the command. -/
structure CtlInv (cmd : Bytes) (s : CtlSession) : Prop where
  open_ : s.tool ≠ .start → .ctl ∈ s.request.writers ∧ .server ∈ s.reply.writers
  tool : s.tool ≠ .closed
  main : ∀ req, s.main ≠ .replying req
  accepted : s.tool = .start → s.pending = false ∧ s.main = .polling
  bytes : s.tool ≠ .start → s.main.got.length + s.request.buf.length ≤ s.tool.sent cmd

theorem ctlInv_initial (cmd : Bytes) : CtlInv cmd .initial :=
  ⟨fun h => absurd rfl h, by simp [CtlSession.initial], by simp [CtlSession.initial],
    fun _ => ⟨rfl, rfl⟩, fun h => absurd rfl h⟩

/-- The server is in `recv` only after `minici-ctl` has connected. -/
theorem CtlInv.started {cmd : Bytes} {s : CtlSession} (h : CtlInv cmd s) {got : Bytes}
    (hgot : s.main = .receiving got) : s.tool ≠ .start := by
  intro hstart
  rw [(h.accepted hstart).2] at hgot
  cases hgot

/-- `minici-ctl` does not see the end of the reply, since the server has not closed. -/
theorem CtlInv.tool_waits {cmd : Bytes} {s : CtlSession} (h : CtlInv cmd s)
    (hreceiving : s.tool = .receiving) : s.reply.writers ≠ ∅ := by
  intro hend
  have hserver := (h.open_ (by simp [hreceiving])).2
  rw [hend] at hserver
  exact absurd hserver (Finset.notMem_empty _)

/-- The server has not got a whole request, since the command is shorter, and does not see its
end, since `minici-ctl` has not closed. -/
theorem CtlInv.main_waits {cmd : Bytes} {s : CtlSession} (h : CtlInv cmd s)
    (hlen : cmd.length < sizeofIpcRequest) {got : Bytes} (hgot : s.main = .receiving got) :
    got.length ≠ sizeofIpcRequest ∧ s.request.writers ≠ ∅ := by
  have hstart := h.started hgot
  constructor
  · have hle := h.bytes hstart
    have hsent : s.tool.sent cmd ≤ cmd.length := by
      cases s.tool <;> simp [CtlToolAt.sent]
    rw [hgot] at hle
    simp only [MainAt.got] at hle
    omega
  · intro hend
    have hctl := (h.open_ hstart).1
    rw [hend] at hctl
    exact absurd hctl (Finset.notMem_empty _)

/-- Every step keeps the session open, since the command is shorter than a request. -/
theorem ctlInv_step {cmd : Bytes} (hlen : cmd.length < sizeofIpcRequest) (s : CtlSession)
    (a : CtlAction) (s' : CtlSession) (h : CtlInv cmd s) (hstep : ctlStep cmd s a = some s') :
    CtlInv cmd s' := by
  have ⟨hopen, htool, hmain, haccepted, hbytes⟩ := h
  cases a with
  | connect =>
    simp only [ctlStep] at hstep
    split_ifs at hstep with hstart
    obtain rfl := Option.some.inj hstep
    obtain ⟨-, hpolling⟩ := haccepted hstart
    refine ⟨by simp [Pipe.connect], by simp, hmain, by simp, ?_⟩
    simp [hpolling, MainAt.got, Pipe.connect]
  | send =>
    simp only [ctlStep] at hstep
    split_ifs at hstep with hconnected
    obtain ⟨q, hq, rfl⟩ := Option.map_eq_some_iff.mp hstep
    have hbuf := Pipe.buf_write hq
    have hstart : s.tool ≠ .start := by simp [hconnected]
    have hnone := hbytes hstart
    rw [hconnected] at hnone
    refine ⟨fun _ => ?_, by simp, hmain, by simp, fun _ => ?_⟩
    · rw [Pipe.writers_write hq]
      exact hopen hstart
    · show s.main.got.length + q.buf.length ≤ cmd.length
      rw [hbuf, List.length_append]
      simp only [CtlToolAt.sent] at hnone
      omega
  | toolRecv len =>
    simp only [ctlStep] at hstep
    split_ifs at hstep
    obtain rfl := Option.some.inj hstep
    exact ⟨hopen, htool, hmain, haccepted, hbytes⟩
  | toolClose =>
    simp only [ctlStep] at hstep
    split_ifs at hstep with hend
    exact absurd hend.2.2 (h.tool_waits hend.1)
  | accept =>
    simp only [ctlStep] at hstep
    split_ifs at hstep with hpending
    obtain rfl := Option.some.inj hstep
    refine ⟨hopen, htool, by simp, ?_, ?_⟩
    · intro hstart
      rw [(haccepted hstart).1] at hpending
      exact absurd hpending.2 (by decide)
    · intro hstart
      have hle := hbytes hstart
      rw [hpending.1] at hle
      exact hle
  | mainRecv len =>
    simp only [ctlStep] at hstep
    split at hstep
    · rename_i got hgot
      split_ifs at hstep with hroom
      obtain rfl := Option.some.inj hstep
      refine ⟨hopen, htool, by simp, fun hstart => absurd hstart (h.started hgot), ?_⟩
      intro hstart
      have hle := hbytes hstart
      rw [hgot] at hle
      simp only [MainAt.got, List.length_append, List.length_take, List.length_drop] at hle ⊢
      omega
    · cases hstep
  | mainDone =>
    simp only [ctlStep] at hstep
    split at hstep
    · rename_i got hgot
      obtain ⟨hshort, hwriters⟩ := h.main_waits hlen hgot
      have hwait : ¬ (got.length = sizeofIpcRequest ∨
          s.request.buf = [] ∧ s.request.writers = ∅) := by
        rintro (hfull | ⟨-, hend⟩)
        · exact hshort hfull
        · exact hwriters hend
      rw [if_neg hwait] at hstep
      cases hstep
    · cases hstep
  | mainReply resp =>
    -- the server is never about to reply
    simp only [ctlStep] at hstep
    cases hstep

/-- **The server answers no session of `minici-ctl`**, and does not get back to
`epoll_wait` once it has accepted one. -/
theorem main_never_replies {argv : List Bytes} {cmd : Bytes} (hcmd : ctlCommand argv = some cmd)
    (as : List CtlAction) :
    Runs.Always (ctlStep cmd) (fun s => ∀ req, s.main ≠ .replying req) .initial as := by
  intro pre _ s hrun
  have hlen := (length_ctlCommand hcmd).2
  exact (Runs.invariant_of_step (ctlInv_initial cmd) (ctlInv_step hlen) hrun).main

/-! ## Every session gets stuck -/

/-- The session in which the whole command is received before anything else happens. -/
def stuckSession (cmd : Bytes) : CtlSession :=
  { request := ⟨[], {.server}, {.ctl}⟩, reply := ⟨[], {.ctl}, {.server}⟩, pending := false
    tool := .receiving, main := .receiving cmd }

theorem exec_stuckSession {cmd : Bytes} (hpos : 0 < cmd.length)
    (hlen : cmd.length ≤ sizeofIpcRequest) :
    Runs.exec (ctlStep cmd) .initial [.connect, .accept, .send, .mainRecv cmd.length] =
      some (stuckSession cmd) := by
  simp [Runs.exec, ctlStep, CtlSession.initial, Pipe.connect, Pipe.write, stuckSession, hpos, hlen]

theorem bothWaiting_stuckSession {cmd : Bytes} (hlen : cmd.length < sizeofIpcRequest) :
    (stuckSession cmd).BothWaiting :=
  ⟨rfl, ⟨cmd, rfl, hlen⟩, ⟨rfl, by simp [stuckSession]⟩, rfl, by simp [stuckSession]⟩

/-- **`minici-ctl` and the server always end up waiting for each other.**  For no arguments
with which `minici-ctl` sends a command at all can a session avoid the state in which both
sides wait. -/
theorem never_both_waiting_iff (argv : List Bytes) :
    NeverBothWaiting argv ↔ ctlCommand argv = none := by
  constructor
  · intro h
    by_contra hne
    obtain ⟨cmd, hcmd⟩ := Option.ne_none_iff_exists'.mp hne
    obtain ⟨hpos, hlen⟩ := length_ctlCommand hcmd
    have hrun := exec_stuckSession hpos (Nat.le_of_lt hlen)
    exact (h cmd hcmd _).at_end _ hrun (bothWaiting_stuckSession hlen)
  · intro hnone cmd hcmd
    rw [hnone] at hcmd
    cases hcmd

/-- `minici-ctl status`. -/
theorem both_waiting_status : ¬ NeverBothWaiting [ascii "status"] := by
  intro h
  have hcmd : ctlCommand [ascii "status"] = some (ascii "status\n") := by decide
  have hpos : 0 < (ascii "status\n").length := by decide
  have hrun := exec_stuckSession hpos (by decide)
  exact (h _ hcmd _).at_end _ hrun (bothWaiting_stuckSession (by decide))

end MiniCi
