/-
# The control protocol on the wire (`minici-tui.c`, `ipc_send`)

`ipc_send` makes a connection for each request, sends the 8193 bytes of an `IpcRequest`, and waits
for the 8193 bytes of the `IpcResponse`; fewer are `-1`.  `handle_ctl_client` is at the other end.

However the bytes are cut, that is one step of `ctlSwitch` (`ipc_requests_atomic`).  If the
connection breaks behind the request, the step has been made and the dashboard says that it cannot
reach the server.

Hence what the menu can do to the server, and what it shows (`menu_run`): it sets the number of
students and it blocks or frees the distribution.  The pause is answered with an OK and pauses
nothing, and there is no `CMD_EXPORT_CSV` in the server.
-/
import MiniCi.Dashboard
import MiniCi.TrackerBuffer

namespace MiniCi

open CStr ByteStream

/-! ## The packets -/

/-- `sizeof(IpcResponse)`. -/
def sizeofIpcResponse : ℕ := 8193

/-- The 8193 bytes of an `IpcRequest`. -/
def IpcRequest.encode (r : IpcRequest) : Bytes := r.cmd :: r.payload.bytes

/-- The number of an `IpcStatus`. -/
def IpcStatus.code : IpcStatus → UInt8
  | IPC_OK => 0
  | IPC_ERROR => 1

/-- The 8193 bytes of an `IpcResponse`, which has been cleared before its text was written. -/
def IpcResponse.encode (r : IpcResponse) : Bytes :=
  r.status.code :: (Buf.ofBytes IPC_MAX_PAYLOAD r.data).bytes

/-- What the dashboard reads in an `IpcResponse`: whether the status is `IPC_OK`, and the text. -/
def IpcResponse.decode (p : Bytes) : IpcResponse :=
  { status := if p.headD 0 = 0 then IPC_OK else IPC_ERROR, data := str p.tail }

/-- A text that fits into `data`. -/
structure IsReplyText (p : Bytes) : Prop where
  zero_not_mem : 0 ∉ p
  length_lt : p.length < IPC_MAX_PAYLOAD

section Packets

variable {p q : Bytes} {pos : ℕ}

theorem length_encode_request (r : IpcRequest) : r.encode.length = sizeofIpcRequest := by
  rw [IpcRequest.encode, List.length_cons, r.payload.length_bytes]
  rfl

theorem length_encode_response (r : IpcResponse) : r.encode.length = sizeofIpcResponse := by
  rw [IpcResponse.encode, List.length_cons, Buf.length_bytes]
  rfl

theorem decode_encode_request (r : IpcRequest) (q : Bytes) :
    IpcRequest.decode (r.encode ++ q) = r := by
  show IpcRequest.mk r.cmd (.ofBytes IPC_MAX_PAYLOAD (r.payload.bytes ++ q)) = r
  rw [Buf.ofBytes_append]

/-- A reply arrives as it was made, if its text fits. -/
theorem decode_encode_response {r : IpcResponse} (h : IsReplyText r.data) :
    IpcResponse.decode r.encode = r := by
  obtain ⟨k, hk⟩ : ∃ k, IPC_MAX_PAYLOAD - r.data.length = k + 1 :=
    Nat.exists_eq_succ_of_ne_zero (Nat.sub_ne_zero_of_lt h.length_lt)
  have hdata : str (Buf.ofBytes IPC_MAX_PAYLOAD r.data).bytes = r.data := by
    show str (r.data.take IPC_MAX_PAYLOAD ++
      List.replicate (IPC_MAX_PAYLOAD - r.data.length) 0) = _
    rw [List.take_of_length_le h.length_lt.le, hk, List.replicate_succ]
    exact str_append_zero h.zero_not_mem _
  have hstatus : (if r.status.code = 0 then IPC_OK else IPC_ERROR) = r.status := by
    cases r.status <;> rfl
  show IpcResponse.mk (if r.status.code = 0 then IPC_OK else IPC_ERROR)
    (str (Buf.ofBytes IPC_MAX_PAYLOAD r.data).bytes) = r
  rw [hstatus, hdata]

end Packets

/-! ## Every reply fits -/

section Replies

theorem zero_not_mem_decimal (n : ℕ) : 0 ∉ decimal n := by
  intro h
  have := (isDigit_of_mem_decimal h).1
  exact absurd this (by decide)

theorem zero_not_mem_decimalInt (n : ℤ) : 0 ∉ decimalInt n := by
  have hminus : 0 ∉ ascii "-" := by decide
  unfold decimalInt
  split_ifs
  · rw [List.mem_append, not_or]
    exact ⟨hminus, zero_not_mem_decimal _⟩
  · exact zero_not_mem_decimal _

theorem zero_not_mem_twoDigits (n : ℕ) : 0 ∉ twoDigits n := by
  have hzero : 0 ∉ ascii "0" := by decide
  unfold twoDigits
  split_ifs
  · rw [List.mem_append, not_or]
    exact ⟨hzero, zero_not_mem_decimal _⟩
  · exact zero_not_mem_decimal _

theorem zero_not_mem_timestamp (tm : Tm) : 0 ∉ timestamp tm := by
  have hlit : 0 ∉ ascii "-" ∧ 0 ∉ ascii "T" ∧ 0 ∉ ascii ":" := by decide
  simp only [timestamp, List.mem_append, not_or]
  simp only [zero_not_mem_decimal, zero_not_mem_twoDigits, hlit, not_false_eq_true, and_self]

theorem zero_not_mem_str (p : Bytes) : 0 ∉ str p := fun h => ne_zero_of_mem_str h rfl

/-- What `snprintf` leaves fits, if the text has no NUL. -/
theorem isReplyText_ipcReply (status : IpcStatus) {text : Bytes} (h : 0 ∉ text) :
    IsReplyText (ipcReply status text).data := by
  refine ⟨fun hmem => h (List.mem_of_mem_take hmem), ?_⟩
  exact Nat.lt_of_le_of_lt (List.length_take_le _ _) (by decide)

/-- The loop over the students keeps a text within its bounds. -/
theorem isReplyText_trackerEntries (records : List StudentRecord) (pos : ℕ) {data : Bytes}
    (h : IsReplyText data) : IsReplyText (trackerEntries records pos data) := by
  -- induction on the students; an entry is cut at the end of the buffer
  induction records generalizing pos data with
  | nil => exact h
  | cons r records ih =>
    unfold trackerEntries
    split_ifs with hroom hfree
    · exact h
    · apply ih
      have hentry : 0 ∉ trackerEntry r := by
        have := zero_not_mem_entries [r]
        rwa [List.flatMap_singleton] at this
      have hmax : IPC_MAX_PAYLOAD = 8192 := rfl
      constructor
      · rw [List.mem_append, not_or]
        exact ⟨fun hmem => h.zero_not_mem (List.mem_of_mem_take hmem),
          fun hmem => hentry (List.mem_of_mem_take hmem)⟩
      · have hold := List.length_take_le pos data
        have hnew := List.length_take_le (IPC_MAX_PAYLOAD - pos - 1) (trackerEntry r)
        rw [List.length_append]
        show _ + ((trackerEntry r).take (IPC_MAX_PAYLOAD - pos - 1)).length < _
        omega
    · exact h

theorem isReplyText_cmdGetTracker (ctx : ControlContext) :
    IsReplyText (cmdGetTracker ctx).data := by
  apply isReplyText_trackerEntries
  exact isReplyText_ipcReply IPC_OK (zero_not_mem_trackerLine _ _ (zero_not_mem_str _) _)

/-- **Every reply fits**, in whatever state the server is. -/
theorem isReplyText_ctlSwitch (ctx : ControlContext) (env : CtlEnv) (req : IpcRequest) :
    IsReplyText (ctlSwitch ctx env req).2.data := by
  unfold ctlSwitch
  split_ifs
  · unfold cmdSetHw
    dsimp only
    split_ifs
    · exact isReplyText_ipcReply _ (by decide)
    · refine isReplyText_ipcReply _ ?_
      rw [List.mem_append, not_or]
      exact ⟨by decide, zero_not_mem_str _⟩
  · unfold cmdSetStudents
    dsimp only
    split_ifs <;>
    · refine isReplyText_ipcReply _ ?_
      rw [List.mem_append, not_or]
      exact ⟨by decide, zero_not_mem_decimalInt _⟩
  · exact isReplyText_cmdGetTracker ctx
  · unfold cmdGetCsvStat
    refine isReplyText_ipcReply _ ?_
    have hlit : 0 ∉ ascii "records=" ∧ 0 ∉ ascii "|last_write=" ∧ 0 ∉ ascii "never" := by decide
    simp only [List.mem_append, not_or]
    refine ⟨⟨⟨hlit.1, zero_not_mem_decimal _⟩, hlit.2.1⟩, ?_⟩
    split_ifs
    · exact zero_not_mem_timestamp _
    · exact hlit.2.2
  · unfold cmdToggleDist
    refine isReplyText_ipcReply _ ?_
    split_ifs <;> decide
  · exact isReplyText_ipcReply _ (by decide)
  · exact isReplyText_ipcReply _ (by decide)

end Replies

/-! ## A request -/

/-- A call of `ipc_send`, with what happens on its connection: whether there is one, how the bytes
come in at either end, and how many bytes of the reply do. -/
structure IpcCall where
  cmd : UInt8
  payload : Bytes
  connected : Bool
  env : CtlEnv
  request : ℕ → ℕ
  reply : ℕ → ℕ
  cut : ℕ

/-- `ipc_send` from its `recv` on; `none` for `-1`. -/
def ipc_recv (reply : Stream) : Option IpcResponse :=
  let (got, _) := reply.recvWaitAll sizeofIpcResponse
  if got.length = sizeofIpcResponse then some (.decode got) else none

/-- `ipc_send`, with `handle_ctl_client` at the other end. -/
def ipc_send (ctx : ControlContext) (call : IpcCall) : ControlContext × Option IpcResponse :=
  if call.connected then
    let req := (ipcRequest call.cmd call.payload).encode
    match handle_ctl_client ctx call.env ⟨req, call.request⟩ with
    | (ctx, some resp) => (ctx, ipc_recv ⟨resp.encode.take call.cut, call.reply⟩)
    | (ctx, none) => (ctx, ipc_recv ⟨[], call.reply⟩)
  else (ctx, none)

/-- The same without bytes: the request is carried out, and its reply comes or is lost. -/
def ipcCall (ctx : ControlContext) (call : IpcCall) : ControlContext × Option IpcResponse :=
  if call.connected then
    let (ctx, resp) := ctlSwitch ctx call.env (ipcRequest call.cmd call.payload)
    (ctx, if sizeofIpcResponse ≤ call.cut then some resp else none)
  else (ctx, none)

/-- The request is received as it was sent, whatever stood in the variable before. -/
theorem handle_ctl_client_encode (ctx : ControlContext) (env : CtlEnv) (req : IpcRequest)
    (frag : ℕ → ℕ) :
    handle_ctl_client ctx env ⟨req.encode, frag⟩ =
      ((ctlSwitch ctx env req).1, some (ctlSwitch ctx env req).2) := by
  have hwhole : req.encode.take sizeofIpcRequest = req.encode :=
    List.take_of_length_le (Nat.le_of_eq (length_encode_request req))
  have hgot : (⟨req.encode, frag⟩ : Stream).rest.take sizeofIpcRequest ≠ [] := by
    rw [hwhole]
    exact List.cons_ne_nil _ _
  have hreq : receivedRequest env.req req.encode = req := decode_encode_request req _
  rw [handle_ctl_client_of_got hgot, hwhole, hreq]

/-- A reply is received in full, or not at all. -/
theorem ipc_recv_take {resp : IpcResponse} (h : IsReplyText resp.data) (cut : ℕ) (frag : ℕ → ℕ) :
    ipc_recv ⟨resp.encode.take cut, frag⟩ =
      if sizeofIpcResponse ≤ cut then some resp else none := by
  have hlen := length_encode_response resp
  unfold ipc_recv Stream.recvWaitAll
  dsimp only
  split_ifs with hgot hcut hcut
  · rw [List.take_of_length_le (hlen.trans_le hcut), List.take_of_length_le hlen.le,
      decode_encode_response h]
  · rw [List.length_take, List.length_take, hlen] at hgot
    omega
  · rw [List.length_take, List.length_take, hlen] at hgot
    omega
  · rfl

/-- However the bytes are cut, `ipc_send` is one step of the server, whose reply comes back as it
was made, unless the connection breaks. -/
theorem ipc_send_eq (ctx : ControlContext) (call : IpcCall) :
    ipc_send ctx call = ipcCall ctx call := by
  unfold ipc_send ipcCall
  by_cases hconnected : call.connected = true
  · rw [if_pos hconnected, if_pos hconnected]
    dsimp only
    rw [handle_ctl_client_encode]
    dsimp only
    rw [ipc_recv_take (isReplyText_ctlSwitch ctx call.env _)]
  · rw [if_neg hconnected, if_neg hconnected]

/-- Requests one after the other, with what becomes of each. -/
def ipcRun (send : ControlContext → IpcCall → ControlContext × Option IpcResponse) :
    ControlContext → List IpcCall → ControlContext × List (Option IpcResponse)
  | ctx, [] => (ctx, [])
  | ctx, call :: calls =>
    let (ctx, resp) := send ctx call
    let (ctx, resps) := ipcRun send ctx calls
    (ctx, resp :: resps)

/-- **The bytes carry the requests.**  A session over the control socket is a sequence of steps of
the server, however the bytes of requests and replies are cut, and whatever stood in the variables
they are received in; only a reply may be lost. -/
theorem ipc_requests_atomic (ctx : ControlContext) (calls : List IpcCall) :
    ipcRun ipc_send ctx calls = ipcRun ipcCall ctx calls := by
  have hsend : ipc_send = ipcCall := funext₂ ipc_send_eq
  rw [hsend]

/-! ## The menu -/

/-- A choice of the menu with `ACT_IPC`. -/
def IpcCall.OfMenu (call : IpcCall) : Prop := call.cmd ∈ menuCommands

instance (call : IpcCall) : Decidable call.OfMenu := inferInstanceAs (Decidable (_ ∈ _))

/-- The server after some requests. -/
def afterCalls (ctx : ControlContext) (calls : List IpcCall) : ControlContext :=
  calls.foldl (fun ctx call => (ipc_send ctx call).1) ctx

/-- The number of students that a request sets. -/
def IpcCall.setsTotal (call : IpcCall) : Option UInt16 :=
  let n := atoi (ipcRequest call.cmd call.payload).payload.bytes
  if call.connected ∧ call.cmd = CMD_SET_STUDENTS ∧ ValidCount n then some (.ofNat n.toNat)
  else none

/-- The request blocks the distribution, or frees it. -/
def IpcCall.Flips (call : IpcCall) : Prop := call.connected ∧ call.cmd = CMD_TOGGLE_DIST

instance (call : IpcCall) : Decidable call.Flips := inferInstanceAs (Decidable (_ ∧ _))

/-- The last of the numbers that have been set. -/
def lastTotal (calls : List IpcCall) : Option UInt16 := (calls.filterMap IpcCall.setsTotal).getLast?

/-- What the requests have changed. -/
structure MenuEffect (ctx : ControlContext) (calls : List IpcCall) (ctx' : ControlContext) :
    Prop where
  hw : ctx'.hw = ctx.hw
  csv : ctx'.csv = ctx.csv
  disk : ctx'.disk = ctx.disk
  dirs : ctx'.dirs = ctx.dirs
  tracker : ctx'.tracker =
    { ctx.tracker with total_students := (lastTotal calls).getD ctx.tracker.total_students }
  dist : (ctx'.dist_paused ≠ 0 ↔ ctx.dist_paused ≠ 0) ↔ Even (calls.countP fun call => call.Flips)

/-- What the dashboard is told, if it is told anything. -/
structure MenuReply (call : IpcCall) (ctx' : ControlContext) (resp : IpcResponse) : Prop where
  ignored : call.cmd = CMD_STATUS ∨ call.cmd = CMD_PAUSE ∨ call.cmd = CMD_RESUME →
    resp = ⟨IPC_OK, ascii "OK (legacy ignored)"⟩
  unknown : call.cmd = CMD_EXPORT_CSV → resp = ⟨IPC_ERROR, ascii "ERR|unknown command"⟩
  students : call.cmd = CMD_SET_STUDENTS → (resp.status = IPC_OK ↔ call.setsTotal ≠ none)
  dist : call.cmd = CMD_TOGGLE_DIST → resp = ⟨IPC_OK,
    if ctx'.dist_paused ≠ 0 then utf8 "배포 차단됨 (OFF)" else utf8 "배포 허용됨 (ON)"⟩

section Menu

variable {ctx : ControlContext} {call : IpcCall} {calls : List IpcCall}

/-- The menu never switches the week. -/
theorem ne_set_hw (h : call.OfMenu) : call.cmd ≠ CMD_SET_HW := by
  have hall : ∀ cmd ∈ menuCommands, cmd ≠ CMD_SET_HW := by decide +kernel
  exact hall call.cmd h

theorem setsTotal_of_ne (h : call.cmd ≠ CMD_SET_STUDENTS) : call.setsTotal = none :=
  if_neg fun hsets => h hsets.2.1

theorem not_flips_of_ne (h : call.cmd ≠ CMD_TOGGLE_DIST) : ¬ call.Flips := fun hflips => h hflips.2

theorem MenuEffect.refl (h : call.setsTotal = none) (hflips : ¬ call.Flips) :
    MenuEffect ctx [call] ctx := by
  have htotal : lastTotal [call] = none := by
    rw [lastTotal, List.filterMap_cons_none h]
    rfl
  refine ⟨rfl, rfl, rfl, rfl, by rw [htotal]; rfl, iff_of_true Iff.rfl ?_⟩
  rw [List.countP_singleton, if_neg (by simpa using hflips)]
  exact Even.zero

theorem menuEffect_set_students (hconnected : call.connected = true)
    (hsets : call.cmd = CMD_SET_STUDENTS) :
    MenuEffect ctx [call]
      (cmdSetStudents ctx (ipcRequest call.cmd call.payload).payload.bytes).1 := by
  have hne : ¬ call.Flips := not_flips_of_ne (by rw [hsets]; decide)
  by_cases hvalid : ValidCount (atoi (ipcRequest call.cmd call.payload).payload.bytes)
  · have htotal : call.setsTotal = some
        (.ofNat (atoi (ipcRequest call.cmd call.payload).payload.bytes).toNat) :=
      if_pos ⟨hconnected, hsets, hvalid⟩
    have hlast : lastTotal [call] = some
        (.ofNat (atoi (ipcRequest call.cmd call.payload).payload.bytes).toNat) := by
      rw [lastTotal, List.filterMap_cons_some htotal]
      rfl
    rw [cmdSetStudents, if_pos hvalid]
    refine ⟨rfl, rfl, rfl, rfl, by rw [hlast]; rfl, iff_of_true Iff.rfl ?_⟩
    rw [List.countP_singleton, if_neg (by simpa using hne)]
    exact Even.zero
  · rw [cmdSetStudents, if_neg hvalid]
    exact .refl (if_neg fun hall => hvalid hall.2.2) hne

theorem menuEffect_toggle_dist (hconnected : call.connected = true)
    (htoggle : call.cmd = CMD_TOGGLE_DIST) : MenuEffect ctx [call] (cmdToggleDist ctx).1 := by
  have hflips : call.Flips := ⟨hconnected, htoggle⟩
  have hnone : call.setsTotal = none := setsTotal_of_ne (by rw [htoggle]; decide)
  have hlast : lastTotal [call] = none := by
    rw [lastTotal, List.filterMap_cons_none hnone]
    rfl
  refine ⟨rfl, rfl, rfl, rfl, by rw [hlast]; rfl, iff_of_false ?_ ?_⟩
  · show ¬ ((if ctx.dist_paused = 0 then (1 : ℤ) else 0) ≠ 0 ↔ ctx.dist_paused ≠ 0)
    split_ifs with hzero <;> simp [hzero]
  · rw [List.countP_singleton, if_pos (by simpa using hflips)]
    decide

/-- **One request of the menu.** -/
theorem menuEffect_one (h : call.OfMenu) : MenuEffect ctx [call] (ipc_send ctx call).1 := by
  rw [ipc_send_eq, ipcCall]
  by_cases hconnected : call.connected = true
  · rw [if_pos hconnected]
    show MenuEffect ctx [call] (ctlSwitch ctx call.env (ipcRequest call.cmd call.payload)).1
    by_cases hsets : call.cmd = CMD_SET_STUDENTS
    · rw [ctlSwitch_of_set_students (show (ipcRequest call.cmd call.payload).cmd = _ from hsets)]
      exact menuEffect_set_students hconnected hsets
    by_cases htoggle : call.cmd = CMD_TOGGLE_DIST
    · rw [ctlSwitch_of_toggle_dist (show (ipcRequest call.cmd call.payload).cmd = _ from htoggle)]
      exact menuEffect_toggle_dist hconnected htoggle
    -- the others only look
    rw [ctlSwitch_of_other (show (ipcRequest call.cmd call.payload).cmd ≠ _ from ne_set_hw h) hsets
      htoggle]
    exact .refl (setsTotal_of_ne hsets) (not_flips_of_ne htoggle)
  · rw [if_neg hconnected]
    exact .refl (if_neg fun hall => hconnected hall.1) fun hflips => hconnected hflips.1

/-- The effects of requests one after the other. -/
theorem MenuEffect.trans {ctx' ctx'' : ControlContext} (h : MenuEffect ctx calls ctx')
    (hlast : MenuEffect ctx' [call] ctx'') : MenuEffect ctx (calls ++ [call]) ctx'' := by
  refine ⟨hlast.hw.trans h.hw, hlast.csv.trans h.csv, hlast.disk.trans h.disk,
    hlast.dirs.trans h.dirs, ?_, ?_⟩
  · rw [hlast.tracker, h.tracker]
    unfold lastTotal
    rw [List.filterMap_append]
    rcases hsets : call.setsTotal with _ | n
    · rw [List.filterMap_cons_none hsets, List.filterMap_nil, List.append_nil]
      rfl
    · rw [List.filterMap_cons_some hsets, List.filterMap_nil, List.getLast?_concat]
      rfl
  · rw [List.countP_append, Nat.even_add, ← h.dist, ← hlast.dist]
    tauto

theorem menuEffect (hall : ∀ call ∈ calls, call.OfMenu) :
    MenuEffect ctx calls (afterCalls ctx calls) := by
  -- induction on the requests, the last one last
  induction calls using List.reverseRecOn with
  | nil => exact ⟨rfl, rfl, rfl, rfl, rfl, iff_of_true Iff.rfl Even.zero⟩
  | append_singleton calls call ih =>
    have hbefore := ih fun c hc => hall c (List.mem_append_left _ hc)
    have hlast := hall call (List.mem_append_right _ (List.mem_singleton_self call))
    rw [afterCalls, List.foldl_append]
    exact hbefore.trans (menuEffect_one hlast)

/-- What the reply to a request says. -/
theorem menuReply {resp : IpcResponse} (h : (ipc_send ctx call).2 = some resp) :
    MenuReply call (ipc_send ctx call).1 resp := by
  rw [ipc_send_eq, ipcCall] at h ⊢
  by_cases hconnected : call.connected = true
  · rw [if_pos hconnected] at h ⊢
    dsimp only at h ⊢
    split_ifs at h with hcut
    obtain rfl := Option.some.inj h
    constructor
    · intro hcmd
      rcases hcmd with hcmd | hcmd | hcmd <;>
      · unfold ctlSwitch ipcRequest
        rw [hcmd]
        rfl
    · intro hcmd
      unfold ctlSwitch ipcRequest
      rw [hcmd]
      rfl
    · intro hcmd
      rw [ctlSwitch_of_set_students (show (ipcRequest call.cmd call.payload).cmd = _ from hcmd)]
      unfold cmdSetStudents IpcCall.setsTotal
      dsimp only
      by_cases hvalid : ValidCount (atoi (ipcRequest call.cmd call.payload).payload.bytes)
      · rw [if_pos hvalid, if_pos ⟨hconnected, hcmd, hvalid⟩]
        exact iff_of_true rfl (Option.some_ne_none _)
      · rw [if_neg hvalid, if_neg fun hall => hvalid hall.2.2]
        exact iff_of_false (fun herror => nomatch herror) fun hne => hne rfl
    · intro hcmd
      rw [ctlSwitch_of_toggle_dist (show (ipcRequest call.cmd call.payload).cmd = _ from hcmd)]
      unfold cmdToggleDist ipcReply
      dsimp only
      split_ifs <;> rfl
  · rw [if_neg hconnected] at h
    cases h

end Menu

/-- **What the menu can do.**  Requests of the menu, over connections that may break, set the number
of students to the last valid one, and block the distribution if it was free and they are an odd
number of `CMD_TOGGLE_DIST`; nothing else.  A reply that arrives says so; a pause is answered with
an OK, and an export is refused. -/
theorem menu_run (ctx : ControlContext) (calls : List IpcCall)
    (hall : ∀ call ∈ calls, call.OfMenu) :
    MenuEffect ctx calls (afterCalls ctx calls) ∧
      ∀ before call after resp, calls = before ++ call :: after →
        (ipc_send (afterCalls ctx before) call).2 = some resp →
        MenuReply call (afterCalls ctx (before ++ [call])) resp := by
  refine ⟨menuEffect hall, ?_⟩
  rintro before call after resp - hresp
  rw [afterCalls, List.foldl_append]
  exact menuReply hresp

/-- A choice of the menu of which `cut` bytes of the reply come. -/
def menuCall (cmd : UInt8) (payload : Bytes) (cut : ℕ) : IpcCall :=
  { cmd, payload, connected := true, env := allSucceed (.zero sizeofIpcRequest)
    request := fun _ => 0, reply := fun _ => 6, cut }

/-- Thirty students, a distribution that is blocked by a request whose reply is lost, and a
pause. -/
theorem menu_run_three :
    MenuEffect oneSolved [menuCall CMD_SET_STUDENTS (ascii "30") 8193,
      menuCall CMD_TOGGLE_DIST [] 100, menuCall CMD_PAUSE [] 8193]
      (afterCalls oneSolved [menuCall CMD_SET_STUDENTS (ascii "30") 8193,
        menuCall CMD_TOGGLE_DIST [] 100, menuCall CMD_PAUSE [] 8193]) ∧
      lastTotal [menuCall CMD_SET_STUDENTS (ascii "30") 8193, menuCall CMD_TOGGLE_DIST [] 100,
        menuCall CMD_PAUSE [] 8193] = some 30 :=
  ⟨(menu_run oneSolved _ (by decide)).1, by decide +kernel⟩

end MiniCi
