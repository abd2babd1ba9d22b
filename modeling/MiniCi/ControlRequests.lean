/-
# Week switches and cut requests

Two things a control client may expect of `handle_ctl_client`: that `CMD_SET_HW` switches the
week wholly or not at all, and that a request that breaks off changes nothing.

Both hold in part.  `ctx_set_hw` has replaced the week and forgotten the students by the time it
opens the gradebook file; when that fails it goes on without one, and the reply is `IPC_OK` all
the same.  And `recv` returns a request that breaks off after any byte but none at all; what
has not arrived is whatever stands in the variable.
-/
import MiniCi.Control

namespace MiniCi

open CStr ByteStream

/-! ## All or nothing -/

/-- The context is wholly on a week. -/
structure WhollyOn (ctx : ControlContext) (week : Bytes) : Prop where
  current_hw : ctx.hw.current_hw.str = week
  ans_path : ctx.hw.ans_path = week ++ ascii "_ans.txt"
  submit_dir : ctx.hw.submit_dir = ascii "submissions/" ++ week
  students : ctx.tracker.students = .zero
  submitted_count : ctx.tracker.submitted_count = 0
  csv_fd : ctx.csv.csv_fd = some (week ++ ascii "_results.csv")
  csv_path : ctx.csv.csv_path = week ++ ascii "_results.csv"
  total_records : ctx.csv.total_records = 0
  last_write_ts : ctx.csv.last_write_ts = 0

/-- The fields of the context are the same; the files and directories may have changed. -/
structure SameContext (ctx ctx' : ControlContext) : Prop where
  hw : ctx'.hw = ctx.hw
  tracker : ctx'.tracker = ctx.tracker
  csv : ctx'.csv = ctx.csv
  dist_paused : ctx'.dist_paused = ctx.dist_paused

/-- `CMD_SET_HW` ends on the new week and says so, or leaves the context alone and says so. -/
def AllOrNothing (ctx : ControlContext) (env : CtlEnv) (payload : Buf IPC_MAX_PAYLOAD) : Prop :=
  ∀ frag, ∃ ctx' reply,
    handle_ctl_client ctx env ⟨CMD_SET_HW :: payload.bytes, frag⟩ = (ctx', some reply) ∧
      (WhollyOn ctx' (weekOfPayload payload.bytes) ∧ reply.status = IPC_OK ∨
        SameContext ctx ctx' ∧ reply.status = IPC_ERROR)

theorem SameContext.refl (ctx : ControlContext) : SameContext ctx ctx := ⟨rfl, rfl, rfl, rfl⟩

/-! ## Requests as they are received -/

/-- A request of which something has arrived is carried out. -/
theorem handle_ctl_client_of_got {ctx : ControlContext} {env : CtlEnv} {s : Stream}
    (h : s.rest.take sizeofIpcRequest ≠ []) :
    handle_ctl_client ctx env s =
      ((ctlSwitch ctx env (receivedRequest env.req (s.rest.take sizeofIpcRequest))).1,
        some (ctlSwitch ctx env (receivedRequest env.req (s.rest.take sizeofIpcRequest))).2) := by
  unfold handle_ctl_client Stream.recvWaitAll
  exact if_neg h

/-- The request variable once a command and the start of a payload have arrived: the rest of
the payload is what stood there before. -/
theorem receivedRequest_cons (req : Buf sizeofIpcRequest) (cmd : UInt8) (payload : Bytes)
    (h : payload.length ≤ IPC_MAX_PAYLOAD) :
    (receivedRequest req (cmd :: payload)).cmd = cmd ∧
      (receivedRequest req (cmd :: payload)).payload.bytes =
        payload ++ req.bytes.drop (payload.length + 1) := by
  constructor
  · rfl
  · apply Buf.bytes_ofBytes
    have hsize : sizeofIpcRequest = IPC_MAX_PAYLOAD + 1 := rfl
    rw [List.cons_append, List.tail_cons, List.length_append, List.length_drop, req.length_bytes,
      List.length_cons]
    omega

/-- A cut request is carried out on what has arrived, followed by what stood in the variable. -/
theorem handle_ctl_client_cut (ctx : ControlContext) (env : CtlEnv) (frag : ℕ → ℕ) {cmd : UInt8}
    {payload : Bytes} (h : (cmd :: payload).length < sizeofIpcRequest) :
    ∃ req : IpcRequest, req.cmd = cmd ∧
      req.payload.bytes = payload ++ env.req.bytes.drop (payload.length + 1) ∧
      (handle_ctl_client ctx env ⟨cmd :: payload, frag⟩).1 = (ctlSwitch ctx env req).1 := by
  have hsize : sizeofIpcRequest = IPC_MAX_PAYLOAD + 1 := rfl
  rw [List.length_cons] at h
  have htake : (cmd :: payload).take sizeofIpcRequest = cmd :: payload :=
    List.take_of_length_le (by rw [List.length_cons]; omega)
  have hgot : (⟨cmd :: payload, frag⟩ : Stream).rest.take sizeofIpcRequest ≠ [] := by
    rw [htake]
    exact List.cons_ne_nil _ _
  obtain ⟨hcmd, hpayload⟩ := receivedRequest_cons env.req cmd payload (by omega)
  refine ⟨receivedRequest env.req (cmd :: payload), hcmd, hpayload, ?_⟩
  rw [handle_ctl_client_of_got hgot, htake]

/-! ## Switching the week -/

/-- `CMD_SET_HW` without a name. -/
theorem cmdSetHw_of_nil {ctx : ControlContext} {env : SetHwEnv} {payload : Bytes}
    (h : weekOfPayload payload = []) :
    cmdSetHw ctx env payload = (ctx, ipcReply IPC_ERROR (ascii "ERR|empty week name")) := by
  unfold cmdSetHw
  rw [h]
  rfl

/-- `CMD_SET_HW` with a name says `IPC_OK`. -/
theorem cmdSetHw_of_ne_nil (ctx : ControlContext) (env : SetHwEnv) {payload : Bytes}
    (h : weekOfPayload payload ≠ []) :
    (cmdSetHw ctx env payload).1 = ctx_set_hw ctx (weekOfPayload payload) env ∧
      (cmdSetHw ctx env payload).2.status = IPC_OK := by
  have hlen : ¬ (weekOfPayload payload).length = 0 := fun h0 => h (List.length_eq_zero_iff.mp h0)
  unfold cmdSetHw
  rw [if_neg hlen]
  exact ⟨rfl, rfl⟩

/-- The part of the context that `ctx_set_hw` replaces whatever happens. -/
theorem ctx_set_hw_of_valid (ctx : ControlContext) {week_name : Bytes} (env : SetHwEnv)
    (h : ValidWeekName week_name) :
    (ctx_set_hw ctx week_name env).hw = ctx_set_hw_paths week_name ∧
      (ctx_set_hw ctx week_name env).tracker = ctx_set_hw_reset ctx.tracker ∧
      (ctx_set_hw ctx week_name env).csv = (ctx_set_hw_csv week_name env.exists_ env.opened
        env.written ctx.csv ctx.disk).1 := by
  unfold ctx_set_hw
  rw [if_pos h]
  exact ⟨rfl, rfl, rfl⟩

/-- The gradebook file is open after `ctx_set_hw` iff it could be opened. -/
theorem ctx_set_hw_csv_fd (week_name : Bytes) (exists_ opened : Bool) (written : Option ℕ)
    (csv : CsvState) (disk : Disk) :
    (ctx_set_hw_csv week_name exists_ opened written csv disk).1.csv_fd =
      if opened then some (csvPath week_name) else none := by
  cases opened <;> rfl

/-- `ctx_set_hw` with a gradebook file that can be opened leaves nothing of the old week. -/
theorem whollyOn_ctx_set_hw (ctx : ControlContext) {week_name : Bytes} {env : SetHwEnv}
    (h : ValidWeekName week_name) (hopened : env.opened = true) :
    WhollyOn (ctx_set_hw ctx week_name env) (str week_name) := by
  obtain ⟨hhw, htracker, hcsv⟩ := ctx_set_hw_of_valid ctx env h
  have hlt : (str week_name).length < MAX_WEEK_NAME := h.2
  have hmax : MAX_WEEK_NAME = 32 := rfl
  rw [hopened] at hcsv
  constructor
  · rw [hhw]
    refine (Buf.str_ofStr _ _).trans (List.take_of_length_le ?_)
    omega
  · rw [hhw]
    exact ansPath_eq hlt
  · rw [hhw]
    exact submitDir_eq hlt
  · rw [htracker]
    rfl
  · rw [htracker]
    rfl
  · rw [hcsv]
    exact congrArg some (csvPath_eq hlt)
  · rw [hcsv]
    exact csvPath_eq hlt
  · rw [hcsv]
    rfl
  · rw [hcsv]
    rfl

/-- A whole `CMD_SET_HW` request. -/
theorem handle_ctl_client_set_hw (ctx : ControlContext) (env : CtlEnv)
    (payload : Buf IPC_MAX_PAYLOAD) (frag : ℕ → ℕ) :
    handle_ctl_client ctx env ⟨CMD_SET_HW :: payload.bytes, frag⟩ =
      ((cmdSetHw ctx env.set_hw payload.bytes).1,
        some (cmdSetHw ctx env.set_hw payload.bytes).2) := by
  have htake : (CMD_SET_HW :: payload.bytes).take sizeofIpcRequest = CMD_SET_HW :: payload.bytes :=
    List.take_of_length_le (by rw [List.length_cons, payload.length_bytes]; decide)
  have hgot : (⟨CMD_SET_HW :: payload.bytes, frag⟩ : Stream).rest.take sizeofIpcRequest ≠ [] := by
    rw [htake]
    exact List.cons_ne_nil _ _
  obtain ⟨hcmd, hbytes⟩ :=
    receivedRequest_cons env.req CMD_SET_HW payload.bytes payload.length_bytes.le
  have hend : env.req.bytes.drop (payload.bytes.length + 1) = [] := by
    apply List.drop_eq_nil_of_le
    rw [env.req.length_bytes, payload.length_bytes]
    decide
  rw [hend, List.append_nil] at hbytes
  rw [handle_ctl_client_of_got hgot, htake]
  unfold ctlSwitch
  rw [if_pos hcmd, hbytes]

/-- With a week and without its gradebook file, the switch is neither. -/
theorem not_allOrNothing {ctx : ControlContext} {env : CtlEnv} {payload : Buf IPC_MAX_PAYLOAD}
    (hweek : weekOfPayload payload.bytes ≠ []) (hopened : ¬ env.set_hw.opened = true) :
    ¬ AllOrNothing ctx env payload := by
  intro h
  obtain ⟨hctx, hstatus⟩ := cmdSetHw_of_ne_nil ctx env.set_hw hweek
  obtain ⟨ctx', reply, hrun, hor⟩ := h fun _ => 0
  rw [handle_ctl_client_set_hw] at hrun
  obtain ⟨rfl, hreply⟩ := Prod.mk.inj hrun
  obtain rfl := Option.some.inj hreply
  rcases hor with ⟨hon, -⟩ | ⟨-, herror⟩
  · -- the reply says `IPC_OK`, and no file is open
    have hfd := hon.csv_fd
    have hvalid := validWeekName_weekOfPayload hweek
    rw [hctx, (ctx_set_hw_of_valid _ _ hvalid).2.2, ctx_set_hw_csv_fd, if_neg hopened] at hfd
    cases hfd
  · rw [hstatus] at herror
    cases herror

/-- **A week switch is all or nothing** iff the payload names no week or the gradebook file of
the week can be opened. -/
theorem allOrNothing_iff (ctx : ControlContext) (env : CtlEnv) (payload : Buf IPC_MAX_PAYLOAD) :
    AllOrNothing ctx env payload ↔
      weekOfPayload payload.bytes = [] ∨ env.set_hw.opened = true := by
  constructor
  · intro h
    by_contra hne
    rw [not_or] at hne
    exact not_allOrNothing hne.1 hne.2 h
  · intro h frag
    refine ⟨_, _, handle_ctl_client_set_hw ctx env payload frag, ?_⟩
    by_cases hweek : weekOfPayload payload.bytes = []
    · right
      rw [cmdSetHw_of_nil hweek]
      exact ⟨.refl ctx, rfl⟩
    · left
      obtain ⟨hctx, hstatus⟩ := cmdSetHw_of_ne_nil ctx env.set_hw hweek
      have hon := whollyOn_ctx_set_hw ctx (validWeekName_weekOfPayload hweek)
        (h.resolve_left hweek)
      rw [str_weekOfPayload] at hon
      rw [hctx]
      exact ⟨hon, hstatus⟩

/-- A context in which one student has solved the week and nobody is registered. -/
def oneSolved : ControlContext :=
  { hw := .initial
    tracker := { students := .zero, total_students := 0, submitted_count := 1 }
    csv := (ctx_set_hw_csv (ascii "week_1") false true (some 511) noCsv fun _ => none).1
    disk := fun _ => none
    dist_paused := 0
    dirs := fun _ => false }

/-- Every other call succeeds, and the gradebook file cannot be opened. -/
def cannotOpen : CtlEnv :=
  { req := .zero sizeofIpcRequest, set_hw := ⟨true, true, false, false, some 511⟩
    localtime := fun _ => someTm }

/-- `CMD_SET_HW` for the second week, whose gradebook file cannot be opened, is neither. -/
theorem half_switched :
    ¬ AllOrNothing oneSolved cannotOpen (.ofBytes IPC_MAX_PAYLOAD (ascii "week_2")) := by
  apply not_allOrNothing
  · rw [Ne, weekOfPayload_eq_nil_iff]
    exact (by decide : ¬ EndsWeek 119)
  · exact Bool.false_ne_true

/-! ## Cut requests -/

/-- What arrives, being less than a request, leaves the context alone. -/
def TruncatedHarmless (arrived : Bytes) : Prop :=
  arrived.length < sizeofIpcRequest →
    ∀ ctx env frag, SameContext ctx (handle_ctl_client ctx env ⟨arrived, frag⟩).1

/-- A cut request that cannot do anything: nothing at all, or a command other than
`CMD_TOGGLE_DIST`, where `CMD_SET_HW` has received the end of a name without a name, and no
payload that starts with what has arrived is a number `CMD_SET_STUDENTS` accepts. -/
def Harmless : Bytes → Prop
  | [] => True
  | cmd :: payload =>
    (cmd = CMD_SET_HW → ∃ c ∈ payload.head?, EndsWeek c) ∧
    (cmd = CMD_SET_STUDENTS → ∀ rest : Bytes,
      payload.length + rest.length = IPC_MAX_PAYLOAD → ¬ ValidCount (atoi (payload ++ rest))) ∧
    cmd ≠ CMD_TOGGLE_DIST

/-- The commands that only look. -/
theorem ctlSwitch_of_other {ctx : ControlContext} {env : CtlEnv} {req : IpcRequest}
    (h₁ : req.cmd ≠ CMD_SET_HW) (h₂ : req.cmd ≠ CMD_SET_STUDENTS)
    (h₃ : req.cmd ≠ CMD_TOGGLE_DIST) : (ctlSwitch ctx env req).1 = ctx := by
  unfold ctlSwitch
  rw [if_neg h₁, if_neg h₂]
  split_ifs <;> rfl

theorem ctlSwitch_of_set_hw {ctx : ControlContext} {env : CtlEnv} {req : IpcRequest}
    (h : req.cmd = CMD_SET_HW) :
    ctlSwitch ctx env req = cmdSetHw ctx env.set_hw req.payload.bytes := by
  unfold ctlSwitch
  rw [if_pos h]

theorem ctlSwitch_of_set_students {ctx : ControlContext} {env : CtlEnv} {req : IpcRequest}
    (h : req.cmd = CMD_SET_STUDENTS) :
    ctlSwitch ctx env req = cmdSetStudents ctx req.payload.bytes := by
  unfold ctlSwitch
  rw [h]
  rfl

theorem ctlSwitch_of_toggle_dist {ctx : ControlContext} {env : CtlEnv} {req : IpcRequest}
    (h : req.cmd = CMD_TOGGLE_DIST) : ctlSwitch ctx env req = cmdToggleDist ctx := by
  unfold ctlSwitch
  rw [h]
  rfl

/-- A count that is not accepted changes nothing. -/
theorem cmdSetStudents_of_not {ctx : ControlContext} {payload : Bytes}
    (h : ¬ ValidCount (atoi payload)) : (cmdSetStudents ctx payload).1 = ctx := by
  unfold cmdSetStudents
  rw [if_neg h]

/-- A count that is accepted is the new number of students. -/
theorem cmdSetStudents_of_valid {ctx : ControlContext} {payload : Bytes}
    (h : ValidCount (atoi payload)) :
    (cmdSetStudents ctx payload).1.tracker.total_students = .ofNat (atoi payload).toNat := by
  unfold cmdSetStudents
  rw [if_pos h]

/-- An accepted count is not zero as a `uint16_t` either. -/
theorem ofNat_ne_zero_of_validCount {n : ℤ} (h : ValidCount n) : UInt16.ofNat n.toNat ≠ 0 := by
  obtain ⟨hpos, hle⟩ := h
  have hmax : MAX_STUDENTS = 512 := rfl
  intro h0
  have hnat := congrArg UInt16.toNat h0
  rw [UInt16.toNat_ofNat'] at hnat
  have hzero : (0 : UInt16).toNat = 0 := rfl
  rw [hzero] at hnat
  omega

/-- `CMD_TOGGLE_DIST` changes the flag. -/
theorem cmdToggleDist_ne (ctx : ControlContext) :
    (cmdToggleDist ctx).1.dist_paused ≠ ctx.dist_paused := by
  unfold cmdToggleDist
  show (if ctx.dist_paused = 0 then (1 : ℤ) else 0) ≠ ctx.dist_paused
  split_ifs with h0
  · rw [h0]
    decide
  · exact fun h => h0 h.symm

/-- A cut request that cannot do anything does nothing. -/
theorem sameContext_of_harmless {arrived : Bytes} (h : Harmless arrived)
    (hcut : arrived.length < sizeofIpcRequest) (ctx : ControlContext) (env : CtlEnv)
    (frag : ℕ → ℕ) : SameContext ctx (handle_ctl_client ctx env ⟨arrived, frag⟩).1 := by
  cases arrived with
  | nil => exact .refl ctx
  | cons cmd payload =>
    obtain ⟨hhw, hstudents, htoggle⟩ := h
    obtain ⟨req, hcmd, hbytes, hrun⟩ := handle_ctl_client_cut ctx env frag hcut
    rw [hrun]
    by_cases hc : cmd = CMD_SET_HW
    · -- the name ends where it starts
      obtain ⟨c, hhead, hends⟩ := hhw hc
      obtain ⟨payload, rfl⟩ := List.head?_eq_some_iff.mp hhead
      have hweek : weekOfPayload req.payload.bytes = [] := by
        rw [weekOfPayload_eq_nil_iff, hbytes]
        exact hends
      rw [ctlSwitch_of_set_hw (hcmd.trans hc), cmdSetHw_of_nil hweek]
      exact .refl ctx
    · by_cases hs : cmd = CMD_SET_STUDENTS
      · have hlen : payload.length + (env.req.bytes.drop (payload.length + 1)).length =
            IPC_MAX_PAYLOAD := by
          rw [← List.length_append, ← hbytes]
          exact req.payload.length_bytes
        have hcount := hstudents hs _ hlen
        rw [← hbytes] at hcount
        rw [ctlSwitch_of_set_students (hcmd.trans hs), cmdSetStudents_of_not hcount]
        exact .refl ctx
      · rw [ctlSwitch_of_other (hcmd ▸ hc) (hcmd ▸ hs) (hcmd ▸ htoggle)]
        exact .refl ctx

/-! ### Requests that do something -/

/-- Every call on the file system succeeds, and `req` stands in the request variable. -/
def allSucceed (req : Buf sizeofIpcRequest) : CtlEnv :=
  { req, set_hw := ⟨true, true, true, true, some 511⟩, localtime := fun _ => someTm }

/-- A variable that holds what has arrived and `rest`. -/
def completedBy (cmd : UInt8) (payload rest : Bytes)
    (h : payload.length + rest.length = IPC_MAX_PAYLOAD) : Buf sizeofIpcRequest :=
  ⟨cmd :: payload ++ rest, by
    have hsize : sizeofIpcRequest = IPC_MAX_PAYLOAD + 1 := rfl
    rw [List.length_append, List.length_cons]
    omega⟩

/-- If a cut request has no effect, then neither has any completion of it. -/
theorem TruncatedHarmless.completedBy {cmd : UInt8} {payload rest : Bytes}
    (hharmless : TruncatedHarmless (cmd :: payload))
    (hcut : (cmd :: payload).length < sizeofIpcRequest)
    (h : payload.length + rest.length = IPC_MAX_PAYLOAD) (ctx : ControlContext) :
    ∃ (env : CtlEnv) (req : IpcRequest), req.cmd = cmd ∧ req.payload.bytes = payload ++ rest ∧
      SameContext ctx (ctlSwitch ctx env req).1 := by
  let env := allSucceed (MiniCi.completedBy cmd payload rest h)
  obtain ⟨req, hcmd, hbytes, hrun⟩ := handle_ctl_client_cut ctx env (fun _ => 0) hcut
  have hdrop : (cmd :: payload ++ rest).drop (payload.length + 1) = rest :=
    List.drop_left' (List.length_cons ..)
  refine ⟨env, req, hcmd, hbytes.trans (congrArg (payload ++ ·) hdrop), ?_⟩
  rw [← hrun]
  exact hharmless hcut ctx env fun _ => 0

/-- A cut `CMD_SET_HW` that may name a week may forget the submissions. -/
theorem not_truncatedHarmless_set_hw {payload : Bytes}
    (hcut : (CMD_SET_HW :: payload).length < sizeofIpcRequest)
    (h : ¬ ∃ c ∈ payload.head?, EndsWeek c) : ¬ TruncatedHarmless (CMD_SET_HW :: payload) := by
  intro hharmless
  have hsize : sizeofIpcRequest = IPC_MAX_PAYLOAD + 1 := rfl
  -- the variable goes on with the letter A
  have hlen : payload.length +
      (List.replicate (IPC_MAX_PAYLOAD - payload.length) (65 : UInt8)).length =
        IPC_MAX_PAYLOAD := by
    rw [List.length_cons] at hcut
    rw [List.length_replicate]
    omega
  obtain ⟨env, req, hcmd, hbytes, hsame⟩ := hharmless.completedBy hcut hlen oneSolved
  have hweek : weekOfPayload req.payload.bytes ≠ [] := by
    rw [Ne, weekOfPayload_eq_nil_iff, hbytes]
    cases payload with
    | nil => exact (by decide : ¬ EndsWeek 65)
    | cons c payload => exact fun hends => h ⟨c, rfl, hends⟩
  have htracker := hsame.tracker
  rw [ctlSwitch_of_set_hw hcmd, (cmdSetHw_of_ne_nil _ _ hweek).1,
    (ctx_set_hw_of_valid _ _ (validWeekName_weekOfPayload hweek)).2.1] at htracker
  exact absurd (congrArg TrackerState.submitted_count htracker) (by decide)

/-- A cut `CMD_SET_STUDENTS` that some bytes complete may set the number of students. -/
theorem not_truncatedHarmless_set_students {payload rest : Bytes}
    (hcut : (CMD_SET_STUDENTS :: payload).length < sizeofIpcRequest)
    (hlen : payload.length + rest.length = IPC_MAX_PAYLOAD)
    (h : ValidCount (atoi (payload ++ rest))) :
    ¬ TruncatedHarmless (CMD_SET_STUDENTS :: payload) := by
  intro hharmless
  obtain ⟨env, req, hcmd, hbytes, hsame⟩ := hharmless.completedBy hcut hlen oneSolved
  rw [← hbytes] at h
  have htracker := hsame.tracker
  rw [ctlSwitch_of_set_students hcmd] at htracker
  have htotal := congrArg TrackerState.total_students htracker
  rw [cmdSetStudents_of_valid h] at htotal
  exact ofNat_ne_zero_of_validCount h htotal

/-- A cut `CMD_TOGGLE_DIST` is carried out. -/
theorem not_truncatedHarmless_toggle_dist {payload : Bytes}
    (hcut : (CMD_TOGGLE_DIST :: payload).length < sizeofIpcRequest) :
    ¬ TruncatedHarmless (CMD_TOGGLE_DIST :: payload) := by
  intro hharmless
  let env := allSucceed (Buf.zero sizeofIpcRequest)
  obtain ⟨req, hcmd, -, hrun⟩ := handle_ctl_client_cut oneSolved env (fun _ => 0) hcut
  have hsame := (hharmless hcut oneSolved env fun _ => 0).dist_paused
  rw [hrun, ctlSwitch_of_toggle_dist hcmd] at hsame
  exact cmdToggleDist_ne oneSolved hsame

/-- **A cut request has no effect** iff it is one that cannot do anything. -/
theorem truncatedHarmless_iff (arrived : Bytes) :
    TruncatedHarmless arrived ↔ (arrived.length < sizeofIpcRequest → Harmless arrived) := by
  constructor
  · intro h hcut
    cases arrived with
    | nil => trivial
    | cons cmd payload =>
      refine ⟨?_, ?_, ?_⟩
      · rintro rfl
        by_contra hname
        exact not_truncatedHarmless_set_hw hcut hname h
      · rintro rfl
        intro rest hlen hcount
        exact not_truncatedHarmless_set_students hcut hlen hcount h
      · rintro rfl
        exact not_truncatedHarmless_toggle_dist hcut h
  · intro h hcut ctx env frag
    exact sameContext_of_harmless (h hcut) hcut ctx env frag

/-- One byte is enough to stop and to resume the distribution. -/
theorem one_byte_toggles : ¬ TruncatedHarmless [CMD_TOGGLE_DIST] :=
  not_truncatedHarmless_toggle_dist (by decide)

end MiniCi
