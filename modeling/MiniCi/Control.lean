/-
# The control commands (`handle_ctl_client`)

The main thread receives a request, carries it out on the global context and replies.  The
request stands in a variable that is not initialised; `recv` fills it up to where the client
has stopped, and every number of bytes but none is taken for a request.

Below, nothing happens in between: `ctx_set_hw` with its lock sections one after the other,
and the reply to `CMD_GET_TRACKER` from one state.
-/
import MiniCi.Ipc
import MiniCi.Submission

namespace MiniCi

open CStr ByteStream

/-! ## The context -/

/-- The directories there are, by path. -/
abbrev Dirs := Bytes → Bool

/-- The part of `ServerContext` that the commands read and write, the files and the
directories. -/
structure ControlContext extends ServerContext where
  dist_paused : ℤ
  dirs : Dirs

/-- `ensure_dir`, whose result nobody looks at; `mkdir` says whether the directory could be
made. -/
def ensure_dir (dirs : Dirs) (path : Bytes) (mkdir : Bool) : Dirs :=
  if dirs path then dirs
  else if mkdir then Function.update dirs path true
  else dirs

/-- How the calls of `ctx_set_hw` on the file system turn out: the two `mkdir`s, `access`,
`open` and `write`. -/
structure SetHwEnv where
  mkdirRoot : Bool
  mkdirWeek : Bool
  exists_ : Bool
  opened : Bool
  written : Option ℕ

/-- `ctx_set_hw`. -/
def ctx_set_hw (ctx : ControlContext) (week_name : Bytes) (env : SetHwEnv) : ControlContext :=
  if ValidWeekName week_name then
    let hw := ctx_set_hw_paths week_name
    let dirs := ensure_dir ctx.dirs (ascii "submissions") env.mkdirRoot
    let (csv, disk) :=
      ctx_set_hw_csv week_name env.exists_ env.opened env.written ctx.csv ctx.disk
    { ctx with
      hw, csv, disk, tracker := ctx_set_hw_reset ctx.tracker
      dirs := ensure_dir dirs hw.submit_dir env.mkdirWeek }
  else ctx

/-! ## The commands -/

/-- What the environment contributes: what stands in the request before `recv`, the calls of
`ctx_set_hw`, and `localtime`. -/
structure CtlEnv where
  req : Buf sizeofIpcRequest
  set_hw : SetHwEnv
  localtime : ℤ → Tm

/-- The reply `snprintf` makes of a text. -/
def ipcReply (status : IpcStatus) (text : Bytes) : IpcResponse :=
  { status, data := snprintf IPC_MAX_PAYLOAD text }

/-- The name in the payload of `CMD_SET_HW`: at most `MAX_WEEK_NAME - 1` bytes, up to the
first space or line break. -/
def weekOfPayload (payload : Bytes) : Bytes :=
  ((str payload).take (MAX_WEEK_NAME - 1)).takeWhile fun c => c ∉ ascii " \r\n"

/-- `CMD_SET_HW`. -/
def cmdSetHw (ctx : ControlContext) (env : SetHwEnv) (payload : Bytes) :
    ControlContext × IpcResponse :=
  let week := weekOfPayload payload
  if week.length = 0 then (ctx, ipcReply IPC_ERROR (ascii "ERR|empty week name"))
  else
    let ctx := ctx_set_hw ctx week env
    (ctx, ipcReply IPC_OK (ascii "OK|week=" ++ ctx.hw.current_hw.str))

/-- A number of students that `CMD_SET_STUDENTS` accepts. -/
def ValidCount (n : ℤ) : Prop := 0 < n ∧ n ≤ MAX_STUDENTS

instance (n : ℤ) : Decidable (ValidCount n) := inferInstanceAs (Decidable (_ ∧ _))

/-- `CMD_SET_STUDENTS`. -/
def cmdSetStudents (ctx : ControlContext) (payload : Bytes) : ControlContext × IpcResponse :=
  let n := atoi payload
  if ValidCount n then
    ({ ctx with tracker := { ctx.tracker with total_students := .ofNat n.toNat } },
      ipcReply IPC_OK (ascii "OK|total=" ++ decimalInt n))
  else (ctx, ipcReply IPC_ERROR (ascii "ERR|invalid count " ++ decimalInt n))

/-- `gnames[r]`, and `"UNK"` beyond the end. -/
def gradeName (r : UInt8) : Bytes :=
  ([ascii "AC", ascii "WA", ascii "TLE", ascii "RE", ascii "CE"]).getD r.toNat (ascii "UNK")

/-- The first line of the reply to `CMD_GET_TRACKER`. -/
def trackerLine (submitted total : UInt16) (week : Bytes) (records : UInt32) : Bytes :=
  ascii "submitted=" ++ decimal submitted.toNat ++ ascii "|total=" ++ decimal total.toNat
    ++ ascii "|week=" ++ week ++ ascii "|records=" ++ decimal records.toNat ++ ascii "|\n"

/-- The entry of a student. -/
def trackerEntry (r : StudentRecord) : Bytes :=
  r.student_id.str ++ ascii ":" ++ gradeName r.best_result ++ ascii ","

/-- The loop over the students: `data` from `pos` on is written over. -/
def trackerEntries : List StudentRecord → ℕ → Bytes → Bytes
  | [], _, data => data
  | r :: rs, pos, data =>
    if pos < IPC_MAX_PAYLOAD - 24 then
      if r.IsFree then data
      else
        trackerEntries rs (pos + (trackerEntry r).length)
          (data.take pos ++ snprintf (IPC_MAX_PAYLOAD - pos) (trackerEntry r))
    else data

/-- `CMD_GET_TRACKER`. -/
def cmdGetTracker (ctx : ControlContext) : IpcResponse :=
  let snap_week := Buf.ofStr (MAX_WEEK_NAME - 1) ctx.hw.current_hw.bytes
  let line := trackerLine ctx.tracker.submitted_count ctx.tracker.total_students snap_week.str
    ctx.csv.total_records
  { status := IPC_OK
    data := trackerEntries ctx.tracker.students.records line.length
      (snprintf IPC_MAX_PAYLOAD line) }

/-- `CMD_GET_CSV_STAT`. -/
def cmdGetCsvStat (ctx : ControlContext) (localtime : ℤ → Tm) : IpcResponse :=
  let ts := ctx.csv.last_write_ts
  let ts_str := if 0 < ts then timestamp (localtime ts) else ascii "never"
  ipcReply IPC_OK
    (ascii "records=" ++ decimal ctx.csv.total_records.toNat ++ ascii "|last_write=" ++ ts_str)

/-- `CMD_TOGGLE_DIST`. -/
def cmdToggleDist (ctx : ControlContext) : ControlContext × IpcResponse :=
  let current : ℤ := if ctx.dist_paused = 0 then 1 else 0
  ({ ctx with dist_paused := current },
    ipcReply IPC_OK (if current ≠ 0 then utf8 "배포 차단됨 (OFF)" else utf8 "배포 허용됨 (ON)"))

/-- The `switch` over the commands. -/
def ctlSwitch (ctx : ControlContext) (env : CtlEnv) (req : IpcRequest) :
    ControlContext × IpcResponse :=
  if req.cmd = CMD_SET_HW then cmdSetHw ctx env.set_hw req.payload.bytes
  else if req.cmd = CMD_SET_STUDENTS then cmdSetStudents ctx req.payload.bytes
  else if req.cmd = CMD_GET_TRACKER then (ctx, cmdGetTracker ctx)
  else if req.cmd = CMD_GET_CSV_STAT then (ctx, cmdGetCsvStat ctx env.localtime)
  else if req.cmd = CMD_TOGGLE_DIST then cmdToggleDist ctx
  else if req.cmd = CMD_STATUS ∨ req.cmd = CMD_PAUSE ∨ req.cmd = CMD_RESUME ∨
      req.cmd = CMD_SET_TIMEOUT then
    (ctx, ipcReply IPC_OK (ascii "OK (legacy ignored)"))
  else (ctx, ipcReply IPC_ERROR (ascii "ERR|unknown command"))

/-- The request variable after `recv` has written `got` to it. -/
def receivedRequest (req : Buf sizeofIpcRequest) (got : Bytes) : IpcRequest :=
  .decode (got ++ req.bytes.drop got.length)

/-- `handle_ctl_client`: the context and the reply, if there is one. -/
def handle_ctl_client (ctx : ControlContext) (env : CtlEnv) (s : Stream) :
    ControlContext × Option IpcResponse :=
  let (got, _) := s.recvWaitAll sizeofIpcRequest
  if got = [] then (ctx, none)
  else
    let (ctx, resp) := ctlSwitch ctx env (receivedRequest env.req got)
    (ctx, some resp)

/-! ## Week names in a payload -/

/-- The bytes at which a week name ends. -/
def EndsWeek (c : UInt8) : Prop := c = 0 ∨ c ∈ ascii " \r\n"

instance (c : UInt8) : Decidable (EndsWeek c) := inferInstanceAs (Decidable (_ ∨ _))

/-- A payload names no week iff its first byte ends one. -/
theorem weekOfPayload_eq_nil_iff (payload : Bytes) :
    weekOfPayload payload = [] ↔ EndsWeek (payload.headD 0) := by
  cases payload with
  | nil => exact iff_of_true rfl (Or.inl rfl)
  | cons c payload =>
    unfold weekOfPayload EndsWeek
    rw [List.headD_cons, str_cons]
    by_cases hc : c = 0
    · simp [hc]
    · rw [if_neg hc]
      show ((c :: (str payload).take 30).takeWhile _) = [] ↔ _
      by_cases hstop : c ∈ ascii " \r\n" <;> simp [hc, hstop]

/-- The name in a payload is a string. -/
theorem str_weekOfPayload (payload : Bytes) :
    str (weekOfPayload payload) = weekOfPayload payload := by
  apply str_eq_self
  intro h
  have hmem := List.mem_of_mem_take ((List.takeWhile_sublist _).mem h)
  exact ne_zero_of_mem_str hmem rfl

/-- The name in a payload is never too long. -/
theorem length_weekOfPayload_le (payload : Bytes) :
    (weekOfPayload payload).length ≤ MAX_WEEK_NAME - 1 :=
  (List.takeWhile_sublist _).length_le.trans (List.length_take_le _ _)

/-- A name in a payload is valid unless it is empty. -/
theorem validWeekName_weekOfPayload {payload : Bytes} (h : weekOfPayload payload ≠ []) :
    ValidWeekName (weekOfPayload payload) := by
  have hle := length_weekOfPayload_le payload
  have hpos := List.length_pos_iff.mpr h
  have hmax : MAX_WEEK_NAME = 32 := rfl
  rw [ValidWeekName, str_weekOfPayload]
  omega

end MiniCi
