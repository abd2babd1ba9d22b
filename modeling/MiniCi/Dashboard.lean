/-
# The dashboard and the active week (`minici-tui.c`)

Two threads of the dashboard talk to the server.  `poll_fn` asks for the tracker and stores what
comes back in `g_snap`; the main thread deploys a week and hands out `test.sh`, to the week that
`g_snap` shows.  A reply can be in flight in each thread while the other one goes on.

Nothing in `distribute_testsh` waits for the poll that follows a deploy.  The script goes to the
deployed week exactly if the reply that `g_snap` holds was written while the server was on that
week, and `g_snap` stays on it exactly if the same is true of the reply that is stored next
(`distributes_to_active_iff`).  From the first such reply that is stored after the deploy on both
are so, if none of before is left to be stored (`answeredOnDeployed_of_round`).
-/
import MiniCi.TrackerView

namespace MiniCi

open CStr Runs

/-! ## The source -/

def CMD_EXPORT_CSV : UInt8 := 13

/-- Where `poll_fn` stands: which request is on its way, or which reply.  `active` is not in the
source: the week that the server was on when it wrote the tracker reply. -/
inductive PollPhase where
  | sleeping
  | trackerSent
  | trackerReplied (r : IpcResponse) (active : Bytes)
  | csvSent (t : Snap) (active : Bytes)
  | csvReplied (t : Snap) (cr : IpcResponse) (active : Bytes)
  | parsed (t : Snap) (active : Bytes)

/-- Where the main thread stands: at the menu, or in `ipc_send`. -/
inductive UiPhase where
  | menu
  | sent (req : IpcRequest)
  | replied (req : IpcRequest) (resp : IpcResponse)

/-- The server, and the variables and threads of the dashboard.  The last two are not in the
source: the week of the last deploy that was answered with `IPC_OK`, until the next one, and the
week that the server was on when it wrote the reply that `g_snap` holds. -/
structure Dashboard where
  server : ControlContext
  g_snap : Snap
  g_staged_week : Bytes
  g_staged_testsh : Bytes
  g_testsh : Bytes
  poll : PollPhase
  ui : UiPhase
  deployed : Option Bytes
  shownOn : Option Bytes

/-- A step of `poll_fn`, or of its request; `lost` is an `ipc_send` that returns `-1`. -/
inductive PollAction where
  | request
  | answer (env : CtlEnv)
  | receive
  | lost
  | store

/-- A choice in the menu, or a step of the request of the main thread. -/
inductive UiAction where
  | stageWeek (input : Bytes)
  | stageScript (picked : Bytes)
  | deploy
  | command (cmd : UInt8) (input : Bytes)
  | answer (env : CtlEnv)
  | receive
  | lost
  | distribute

/-- A lock section of a worker or a request of somebody else, or a step of the dashboard. -/
inductive DashAction where
  | server (a : ContextAction)
  | poll (a : PollAction)
  | ui (a : UiAction)

/-- The request of `ipc_send`. -/
def ipcRequest (cmd : UInt8) (payload : Bytes) : IpcRequest :=
  ⟨cmd, Buf.ofStr (IPC_MAX_PAYLOAD - 1) payload⟩

/-- `sscanf(cr.data, "records=%u", &rec)`, for a variable that is `0` before. -/
def scanRecords (data : Bytes) : UInt32 :=
  if ascii "records=" <+: str data then .ofInt (strtol ((str data).drop 8)) else 0

/-- `poll_fn`, and the server's side of its requests. -/
def pollStep (s : Dashboard) (a : PollAction) : Option Dashboard :=
  match s.poll, a with
  | .sleeping, .request => some { s with poll := .trackerSent }
  | .trackerSent, .answer env =>
    let (server, r) := ctlSwitch s.server env (ipcRequest CMD_GET_TRACKER [])
    some { s with server, poll := .trackerReplied r s.server.hw.current_hw.str }
  | .trackerReplied r active, .receive =>
    if r.status = IPC_OK then some { s with poll := .csvSent (parse_snap r.data) active }
    else some { s with poll := .sleeping }
  | .csvSent t active, .answer env =>
    let (server, cr) := ctlSwitch s.server env (ipcRequest CMD_GET_CSV_STAT [])
    some { s with server, poll := .csvReplied t cr active }
  | .csvReplied t cr active, .receive =>
    if cr.status = IPC_OK then
      some { s with poll := .parsed { t with csv_records := scanRecords cr.data } active }
    else some { s with poll := .parsed t active }
  | .trackerSent, .lost => some { s with poll := .sleeping }
  | .trackerReplied _ _, .lost => some { s with poll := .sleeping }
  | .csvSent t active, .lost => some { s with poll := .parsed t active }
  | .csvReplied t _ active, .lost => some { s with poll := .parsed t active }
  | .parsed t active, .store =>
    some { s with g_snap := t, shownOn := some active, poll := .sleeping }
  | _, _ => none

/-- The commands of the menu with `ACT_IPC`. -/
def menuCommands : List UInt8 :=
  [CMD_STATUS, CMD_SET_STUDENTS, CMD_PAUSE, CMD_RESUME, CMD_TOGGLE_DIST, CMD_EXPORT_CSV,
    CMD_GET_CSV_STAT]

/-- `dst` in `distribute_testsh`. -/
def testshDst (week : Bytes) : Bytes :=
  snprintf 512 (ascii "submissions/" ++ week ++ ascii "/test.sh")

/-- `ACT_DEPLOY` with the reply to its request. -/
def deployReplied (s : Dashboard) (req : IpcRequest) (resp : IpcResponse) : Dashboard :=
  if resp.status = IPC_OK then
    { s with
      g_testsh := if s.g_staged_testsh ≠ [] then snprintf 256 s.g_staged_testsh else s.g_testsh
      g_staged_week := []
      g_staged_testsh := []
      deployed := some req.payload.str }
  else s

/-- The main thread, and the server's side of its requests. -/
def uiStep (s : Dashboard) (a : UiAction) : Option Dashboard :=
  match s.ui, a with
  | .menu, .stageWeek input =>
    let input := (str input).takeWhile fun c => c ∉ ascii "\r\n"
    if tui_valid_week_name input then
      some { s with g_staged_week := snprintf MAX_WEEK_NAME input }
    else some s
  | .menu, .stageScript picked => some { s with g_staged_testsh := snprintf 256 (str picked) }
  | .menu, .deploy =>
    let target_week := snprintf MAX_WEEK_NAME s.g_staged_week
    if target_week = [] then some s
    else some { s with ui := .sent (ipcRequest CMD_SET_HW target_week), deployed := none }
  | .menu, .command cmd input =>
    if cmd ∈ menuCommands then
      some { s with ui := .sent (ipcRequest cmd (if cmd = CMD_SET_STUDENTS then input else [])) }
    else none
  | .sent req, .answer env =>
    let (server, resp) := ctlSwitch s.server env req
    some { s with server, ui := .replied req resp }
  | .replied req resp, .receive =>
    if req.cmd = CMD_SET_HW then some { deployReplied s req resp with ui := .menu }
    else some { s with ui := .menu }
  | .sent _, .lost => some { s with ui := .menu }
  | .replied _ _, .lost => some { s with ui := .menu }
  | .menu, .distribute => some s
  | _, _ => none

/-- The action is a request to switch the week. -/
def ContextAction.SendsSetHw : ContextAction → Prop
  | .request _ req => req.cmd = CMD_SET_HW
  | _ => False

instance : (a : ContextAction) → Decidable a.SendsSetHw
  | .request _ req => inferInstanceAs (Decidable (req.cmd = CMD_SET_HW))
  | .record .. => inferInstanceAs (Decidable False)
  | .append .. => inferInstanceAs (Decidable False)

/-- The whole system.  Nobody but the dashboard sends `CMD_SET_HW`. -/
def dashStep (s : Dashboard) : DashAction → Option Dashboard
  | .server a =>
    if a.SendsSetHw then none
    else (contextStep s.server a).map fun server => { s with server }
  | .poll a => pollStep s a
  | .ui a => uiStep s a

/-- The server and the dashboard have just been started.  The request that `main` makes before it
creates `poll_fn` comes to a round of `poll_fn` whose second request is lost. -/
def Dashboard.start (env : SetHwEnv) (disk : Disk) (dirs : Dirs) : Dashboard :=
  { server := ctx_init env disk dirs
    g_snap := { week := [], submitted := 0, total := 0, csv_records := 0, entries := [] }
    g_staged_week := [], g_staged_testsh := [], g_testsh := []
    poll := .sleeping, ui := .menu, deployed := none, shownOn := none }

/-! ## The active week -/

/-- `distribute_testsh` copies the script to the deployed week, and once `g_snap` shows that week
it goes on doing so. -/
def StaysOnDeployed (s : Dashboard) : DashAction → Prop
  | .ui .distribute =>
    s.g_testsh ≠ [] → ∀ w ∈ s.deployed,
      testshDst s.g_snap.week = ascii "submissions/" ++ w ++ ascii "/test.sh"
  | .poll .store =>
    ∀ w ∈ s.deployed, s.g_snap.week = w → ∀ s' ∈ pollStep s .store, s'.g_snap.week = w
  | _ => True

/-- The reply that `g_snap` holds when the script is handed out was written while the server was
on the deployed week; and where that is so, the reply that is stored next was, too. -/
def AnsweredOnDeployed (s : Dashboard) : DashAction → Prop
  | .ui .distribute => s.g_testsh ≠ [] → ∀ w ∈ s.deployed, s.shownOn = some w
  | .poll .store =>
    ∀ w ∈ s.deployed, s.shownOn = some w → ∀ t active, s.poll = .parsed t active → active = w
  | _ => True

/-! ## Requests of the dashboard -/

/-- A week name as the dashboard sends it. -/
def IsWeek (w : Bytes) : Prop := str w = w ∧ tui_valid_week_name w

theorem IsWeek.bounds {w : Bytes} (h : IsWeek w) :
    w ≠ [] ∧ w.length < MAX_WEEK_NAME ∧ ∀ c ∈ w, IsWeekByte c := by
  obtain ⟨hstr, hlen, hlt, hbytes⟩ := h
  rw [hstr] at hlen hlt hbytes
  exact ⟨fun hnil => hlen (by rw [hnil]; rfl), hlt, hbytes⟩

/-- The payload of a request is the text that it was made of. -/
theorem payload_ipcRequest (cmd : UInt8) {payload : Bytes} (h : IsWeek payload) :
    (ipcRequest cmd payload).payload.str = payload := by
  have hlen := h.bounds.2.1
  refine (Buf.str_ofStr _ _).trans ?_
  rw [h.1]
  exact List.take_of_length_le (hlen.le.trans (by decide))

/-- The handler takes the week as the dashboard sends it. -/
theorem weekOfPayload_of_isWeek {payload : Buf IPC_MAX_PAYLOAD} (h : IsWeek payload.str) :
    weekOfPayload payload.bytes = payload.str := by
  have hpayload : tui_valid_week_name payload.bytes := by
    have hvalid := h.2
    unfold tui_valid_week_name at hvalid ⊢
    rwa [Buf.str, str_str] at hvalid
  have htext := payloadText_of_valid hpayload
  have hvalid : tui_valid_week_name (payloadText payload.bytes) := by
    rw [htext]
    exact h.2
  exact (weekOfPayload_of_valid hvalid).1.trans htext

/-- A request to switch the week, as the dashboard sends it, switches to that week. -/
theorem ctlSwitch_set_hw (ctx : ControlContext) (env : CtlEnv) {req : IpcRequest}
    (hcmd : req.cmd = CMD_SET_HW) (hweek : IsWeek req.payload.str) :
    (ctlSwitch ctx env req).1.hw.current_hw.str = req.payload.str := by
  have htext := weekOfPayload_of_isWeek hweek
  have hne : weekOfPayload req.payload.bytes ≠ [] := by
    rw [htext]
    exact hweek.bounds.1
  rw [ctlSwitch_of_set_hw hcmd, (cmdSetHw_of_ne_nil ctx env.set_hw hne).1,
    str_current_hw_ctx_set_hw ctx env.set_hw (validWeekName_weekOfPayload hne),
    str_weekOfPayload, htext]

/-- Any other request leaves the week alone. -/
theorem hw_ctlSwitch {ctx : ControlContext} {env : CtlEnv} {req : IpcRequest}
    (h : req.cmd ≠ CMD_SET_HW) : (ctlSwitch ctx env req).1.hw = ctx.hw := by
  rcases ctlSwitch_cases ctx env req with ⟨hset, -⟩ | ⟨hhw, -⟩
  · exact absurd hset h
  · exact hhw

theorem hw_contextStep {ctx ctx' : ControlContext} {a : ContextAction} (h : ¬ a.SendsSetHw)
    (hstep : contextStep ctx a = some ctx') : ctx'.hw = ctx.hw := by
  cases a with
  | record student_id result now =>
    obtain rfl := Option.some.inj hstep
    rfl
  | append hdr result exec_ms mem_kb week_name now tm written =>
    obtain ⟨⟨csv, disk⟩, -, rfl⟩ := Option.map_eq_some_iff.mp hstep
    rfl
  | request env req =>
    obtain rfl := Option.some.inj hstep
    exact hw_ctlSwitch h

/-! ## What a run of the system keeps -/

section

variable {Id : Bytes → Prop} {ctx : ControlContext}

theorem Carries.isWeek (h : Carries Id tui_valid_week_name ctx) : IsWeek ctx.hw.current_hw.str :=
  ⟨str_str _, h.week⟩

theorem Carries.accepted (h : Carries Id tui_valid_week_name ctx) :
    Carries Id AcceptedWeek ctx := by
  obtain ⟨-, hlt, hbytes⟩ := h.isWeek.bounds
  exact ⟨h.filled, h.rows, hlt, fun hmem => absurd (hbytes _ hmem) (by decide)⟩

/-- The week in the snapshot is the one that the server was on. -/
theorem Carries.week_parse_snap (h : Carries Id tui_valid_week_name ctx) :
    (parse_snap (cmdGetTracker ctx).data).week = ctx.hw.current_hw.str := by
  obtain ⟨hne, hlt, hbytes⟩ := h.isWeek.bounds
  have hreports := h.accepted.reports
  rw [hreports.data]
  exact parse_snap_week _ _ _ hne hlt hreports.oneLine
    (fun hmem => absurd (hbytes _ hmem) (by decide)) hreports.zero_not_mem

end

/-- A reply in flight, and the snapshot that is made of it, show the week that the server was on
when it wrote the reply. -/
def PollPhase.Shows : PollPhase → Prop
  | .trackerReplied r active =>
    r.status = IPC_OK ∧ IsWeek active ∧ (parse_snap r.data).week = active
  | .csvSent t active => IsWeek active ∧ t.week = active
  | .csvReplied t _ active => IsWeek active ∧ t.week = active
  | .parsed t active => IsWeek active ∧ t.week = active
  | _ => True

/-- The invariant.  The server is on a week of the dashboard's, and on the deployed one if there
is one; the snapshots show the weeks they were written on. -/
structure Tidy (s : Dashboard) : Prop where
  server : Carries (fun _ => True) tui_valid_week_name s.server
  staged : s.g_staged_week = [] ∨ IsWeek s.g_staged_week
  poll : s.poll.Shows
  sent : ∀ req, s.ui = .sent req → req.cmd = CMD_SET_HW →
    IsWeek req.payload.str ∧ s.deployed = none
  replied : ∀ req resp, s.ui = .replied req resp → req.cmd = CMD_SET_HW →
    IsWeek req.payload.str ∧ s.deployed = none ∧
      s.server.hw.current_hw.str = req.payload.str
  snap : s.shownOn = none ∧ s.g_snap.week = [] ∨
    ∃ w, s.shownOn = some w ∧ IsWeek w ∧ s.g_snap.week = w
  deployed : ∀ w ∈ s.deployed, IsWeek w ∧ s.server.hw.current_hw.str = w

theorem tidy_start (env : SetHwEnv) (disk : Disk) (dirs : Dirs) :
    Tidy (Dashboard.start env disk dirs) := by
  have hserver : Carries (fun _ => True) tui_valid_week_name (ctx_init env disk dirs) :=
    carries_ctx_set_hw _ env (by decide) (by decide)
  exact ⟨hserver, Or.inl rfl, trivial, fun _ h => (by cases h), fun _ _ h => (by cases h),
    Or.inl ⟨rfl, rfl⟩, fun _ h => (by cases h)⟩

/-- A server that stays on its week. -/
theorem Tidy.of_server {s : Dashboard} (h : Tidy s) {server : ControlContext}
    (hserver : Carries (fun _ => True) tui_valid_week_name server) (hhw : server.hw = s.server.hw) :
    Tidy { s with server } := by
  refine { h with server := hserver, replied := fun req resp hui hcmd => ?_, deployed := ?_ }
  · obtain ⟨hweek, hdeployed, hcurrent⟩ := h.replied req resp hui hcmd
    exact ⟨hweek, hdeployed, hhw ▸ hcurrent⟩
  · intro w hw
    exact ⟨(h.deployed w hw).1, hhw ▸ (h.deployed w hw).2⟩

theorem tidy_server {s s' : Dashboard} {a : ContextAction} (h : Tidy s)
    (hstep : dashStep s (.server a) = some s') : Tidy s' := by
  rw [dashStep] at hstep
  split_ifs at hstep with hset
  obtain ⟨server, hctx, rfl⟩ := Option.map_eq_some_iff.mp hstep
  refine h.of_server (carries_step s.server a server h.server ?_ hctx) (hw_contextStep hset hctx)
  cases a with
  | record => exact fun _ => trivial
  | append => trivial
  | request env req => exact fun hcmd => absurd hcmd hset

theorem tidy_poll {s s' : Dashboard} {a : PollAction} (h : Tidy s)
    (hstep : pollStep s a = some s') : Tidy s' := by
  have hpoll := h.poll
  unfold pollStep at hstep
  split at hstep
  · obtain rfl := Option.some.inj hstep
    exact { h with poll := trivial }
  · -- the reply shows the week of the server
    obtain rfl := Option.some.inj hstep
    exact { h with poll := ⟨rfl, h.server.isWeek, h.server.week_parse_snap⟩ }
  next r active heq =>
    rw [heq] at hpoll
    rw [if_pos hpoll.1] at hstep
    obtain rfl := Option.some.inj hstep
    exact { h with poll := hpoll.2 }
  next t active env heq =>
    rw [heq] at hpoll
    obtain rfl := Option.some.inj hstep
    exact { h with poll := hpoll }
  next t cr active heq =>
    rw [heq] at hpoll
    split_ifs at hstep
    · obtain rfl := Option.some.inj hstep
      exact { h with poll := hpoll }
    · obtain rfl := Option.some.inj hstep
      exact { h with poll := hpoll }
  · obtain rfl := Option.some.inj hstep
    exact { h with poll := trivial }
  · obtain rfl := Option.some.inj hstep
    exact { h with poll := trivial }
  next t active heq =>
    rw [heq] at hpoll
    obtain rfl := Option.some.inj hstep
    exact { h with poll := hpoll }
  next t cr active heq =>
    rw [heq] at hpoll
    obtain rfl := Option.some.inj hstep
    exact { h with poll := hpoll }
  next t active heq =>
    rw [heq] at hpoll
    obtain rfl := Option.some.inj hstep
    exact { h with poll := trivial, snap := Or.inr ⟨active, rfl, hpoll⟩ }
  · cases hstep

/-- A main thread that has no request under way. -/
theorem Tidy.at_menu {s : Dashboard} (h : Tidy s) : Tidy { s with ui := .menu } :=
  { h with sent := fun _ hui => (by cases hui), replied := fun _ _ hui => (by cases hui) }

theorem tidy_deployReplied {s : Dashboard} {req : IpcRequest} {resp : IpcResponse} (h : Tidy s)
    (hui : s.ui = .replied req resp) (hcmd : req.cmd = CMD_SET_HW) :
    Tidy { deployReplied s req resp with ui := .menu } := by
  obtain ⟨hweek, -, hcurrent⟩ := h.replied req resp hui hcmd
  by_cases hok : resp.status = IPC_OK
  · rw [deployReplied, if_pos hok]
    refine ⟨h.server, Or.inl rfl, h.poll, fun _ hui => (by cases hui),
      fun _ _ hui => (by cases hui), h.snap, fun w hw => ?_⟩
    obtain rfl := Option.some.inj hw
    exact ⟨hweek, hcurrent⟩
  · rw [deployReplied, if_neg hok]
    exact h.at_menu

/-- A week that has been staged is one that the dashboard lets through. -/
theorem Tidy.stageWeek {s : Dashboard} (h : Tidy s) {input : Bytes}
    (hvalid : tui_valid_week_name ((str input).takeWhile fun c => c ∉ ascii "\r\n")) :
    Tidy { s with
      g_staged_week :=
        snprintf MAX_WEEK_NAME ((str input).takeWhile fun c => c ∉ ascii "\r\n") } := by
  have hstr : str ((str input).takeWhile fun c => c ∉ ascii "\r\n")
      = (str input).takeWhile fun c => c ∉ ascii "\r\n" := by
    apply str_eq_self
    intro hmem
    exact ne_zero_of_mem_str ((List.takeWhile_sublist _).mem hmem) rfl
  have hweek : IsWeek ((str input).takeWhile fun c => c ∉ ascii "\r\n") := ⟨hstr, hvalid⟩
  refine { h with staged := Or.inr ?_ }
  show IsWeek (snprintf MAX_WEEK_NAME _)
  rwa [snprintf_eq_self hweek.bounds.2.1]

/-- What a deploy sends is the staged week. -/
theorem Tidy.deploy {s : Dashboard} (h : Tidy s)
    (hne : snprintf MAX_WEEK_NAME s.g_staged_week ≠ []) :
    Tidy { s with
      ui := .sent (ipcRequest CMD_SET_HW (snprintf MAX_WEEK_NAME s.g_staged_week))
      deployed := none } := by
  have hweek : IsWeek (snprintf MAX_WEEK_NAME s.g_staged_week) := by
    rcases h.staged with hstaged | hstaged
    · rw [hstaged] at hne
      exact absurd rfl hne
    · rwa [snprintf_eq_self hstaged.bounds.2.1]
  refine { h with
    sent := fun req hsent _ => ?_
    replied := fun _ _ hui => (by cases hui)
    deployed := fun _ hw => (by cases hw) }
  obtain rfl := UiPhase.sent.inj hsent
  rw [payload_ipcRequest CMD_SET_HW hweek]
  exact ⟨hweek, rfl⟩

/-- The other commands of the menu leave the week alone. -/
theorem Tidy.command {s : Dashboard} (h : Tidy s) {cmd : UInt8} (hcmd : cmd ∈ menuCommands)
    (payload : Bytes) : Tidy { s with ui := .sent (ipcRequest cmd payload) } := by
  have hne : ∀ cmd ∈ menuCommands, cmd ≠ CMD_SET_HW := by decide +kernel
  refine { h with
    sent := fun req hsent hset => ?_
    replied := fun _ _ hui => (by cases hui) }
  obtain rfl := UiPhase.sent.inj hsent
  exact absurd hset (hne cmd hcmd)

/-- The server carries the request of the main thread out. -/
theorem Tidy.answered {s : Dashboard} (h : Tidy s) {req : IpcRequest} (hui : s.ui = .sent req)
    (env : CtlEnv) :
    Tidy { s with
      server := (ctlSwitch s.server env req).1
      ui := .replied req (ctlSwitch s.server env req).2 } := by
  have hbrings : (ContextAction.request env req).Brings (fun _ => True) tui_valid_week_name := by
    intro hcmd _
    obtain ⟨hweek, -⟩ := h.sent req hui hcmd
    rw [weekOfPayload_of_isWeek hweek]
    exact hweek.2
  have hserver := carries_step s.server (.request env req) _ h.server hbrings rfl
  by_cases hcmd : req.cmd = CMD_SET_HW
  · obtain ⟨hweek, hdeployed⟩ := h.sent req hui hcmd
    refine { h with
      server := hserver
      sent := fun _ hui => (by cases hui)
      replied := fun req' resp' hreplied _ => ?_
      deployed := fun w hw => ?_ }
    · obtain ⟨rfl, -⟩ := UiPhase.replied.inj hreplied
      exact ⟨hweek, hdeployed, ctlSwitch_set_hw s.server env hcmd hweek⟩
    · rw [hdeployed] at hw
      cases hw
  · refine { h.of_server hserver (hw_ctlSwitch hcmd) with
      sent := fun _ hui => (by cases hui)
      replied := fun req' resp' hreplied hset => ?_ }
    obtain ⟨rfl, -⟩ := UiPhase.replied.inj hreplied
    exact absurd hset hcmd

theorem tidy_ui {s s' : Dashboard} {a : UiAction} (h : Tidy s) (hstep : uiStep s a = some s') :
    Tidy s' := by
  unfold uiStep at hstep
  split at hstep
  next input hui =>
    simp only at hstep
    split_ifs at hstep with hvalid
    · obtain rfl := Option.some.inj hstep
      exact h.stageWeek hvalid
    · obtain rfl := Option.some.inj hstep
      exact h
  next picked hui =>
    obtain rfl := Option.some.inj hstep
    exact { h with }
  next hui =>
    simp only at hstep
    split_ifs at hstep with hnil
    · obtain rfl := Option.some.inj hstep
      exact h
    · obtain rfl := Option.some.inj hstep
      exact h.deploy hnil
  next cmd input hui =>
    by_cases hcmd : cmd ∈ menuCommands
    · rw [if_pos hcmd] at hstep
      obtain rfl := Option.some.inj hstep
      exact h.command hcmd _
    · rw [if_neg hcmd] at hstep
      cases hstep
  next req env hui =>
    obtain rfl := Option.some.inj hstep
    exact h.answered hui env
  next req resp hui =>
    split_ifs at hstep with hcmd
    · obtain rfl := Option.some.inj hstep
      exact tidy_deployReplied h hui hcmd
    · obtain rfl := Option.some.inj hstep
      exact h.at_menu
  · obtain rfl := Option.some.inj hstep
    exact h.at_menu
  · obtain rfl := Option.some.inj hstep
    exact h.at_menu
  · obtain rfl := Option.some.inj hstep
    exact h
  · cases hstep

theorem tidy_step (s : Dashboard) (a : DashAction) (s' : Dashboard) (h : Tidy s)
    (hstep : dashStep s a = some s') : Tidy s' := by
  cases a with
  | server a => exact tidy_server h hstep
  | poll a => exact tidy_poll h hstep
  | ui a => exact tidy_ui h hstep

/-! ## Where the script goes -/

theorem testshDst_eq {week : Bytes} (h : week.length < MAX_WEEK_NAME) :
    testshDst week = ascii "submissions/" ++ week ++ ascii "/test.sh" := by
  apply snprintf_eq_self
  have hlit : (ascii "submissions/").length = 12 ∧ (ascii "/test.sh").length = 8 := by decide
  have hmax : MAX_WEEK_NAME = 32 := rfl
  rw [List.length_append, List.length_append, hlit.1, hlit.2]
  omega

/-- `g_snap` shows a week iff its reply was written on that week. -/
theorem Tidy.shows_iff {s : Dashboard} (h : Tidy s) {w : Bytes} (hw : IsWeek w) :
    s.g_snap.week = w ↔ s.shownOn = some w := by
  rcases h.snap with ⟨hnone, hnil⟩ | ⟨w', hsome, -, hweek⟩
  · rw [hnone, hnil]
    exact iff_of_false (fun heq => hw.bounds.1 heq.symm) (fun heq => by cases heq)
  · rw [hsome, hweek, Option.some_inj]

theorem Tidy.length_week_lt {s : Dashboard} (h : Tidy s) :
    s.g_snap.week.length < MAX_WEEK_NAME := by
  rcases h.snap with ⟨-, hnil⟩ | ⟨w, -, hw, hweek⟩
  · rw [hnil]
    decide
  · rw [hweek]
    exact hw.bounds.2.1

/-- In each state the two conditions say the same of the next step. -/
theorem staysOnDeployed_iff (s : Dashboard) (a : DashAction) (h : Tidy s) :
    StaysOnDeployed s a ↔ AnsweredOnDeployed s a := by
  rcases a with a | a | a
  · exact Iff.rfl
  · cases a with
    | store =>
      refine forall₂_congr fun w hw => ?_
      rw [h.shows_iff (h.deployed w hw).1]
      refine imp_congr_right fun _ => ?_
      have hpoll := h.poll
      rcases hs : s.poll with _ | _ | _ | _ | _ | ⟨t, active⟩
      case parsed =>
        -- what is stored shows the week that it was written on
        rw [hs] at hpoll
        have hstore : pollStep s .store
            = some { s with g_snap := t, shownOn := some active, poll := .sleeping } := by
          simp only [pollStep, hs]
        rw [hstore]
        constructor
        · rintro hall t' active' heq
          obtain ⟨rfl, rfl⟩ := PollPhase.parsed.inj heq
          exact hpoll.2.symm.trans (hall _ rfl)
        · rintro hall s' hs'
          obtain rfl := Option.some.inj hs'
          exact hpoll.2.trans (hall t active rfl)
      all_goals
        have hstore : pollStep s .store = none := by simp only [pollStep, hs]
        rw [hstore]
        exact iff_of_true (fun _ hs' => by cases hs') (fun _ _ heq => by cases heq)
    | _ => exact Iff.rfl
  · cases a with
    | distribute =>
      refine imp_congr_right fun _ => forall₂_congr fun w hw => ?_
      rw [testshDst_eq h.length_week_lt, ← h.shows_iff (h.deployed w hw).1,
        List.append_left_inj, List.append_right_inj]
    | _ => exact Iff.rfl

/-- **The script goes to the active week, and the dashboard stays on it**, in a run of the server
and the dashboard, iff each reply that `g_snap` holds when it matters was written while the
server was on the deployed week. -/
theorem distributes_to_active_iff (env : SetHwEnv) (disk : Disk) (dirs : Dirs)
    (run : List DashAction) :
    Along dashStep StaysOnDeployed (Dashboard.start env disk dirs) run ↔
      Along dashStep AnsweredOnDeployed (Dashboard.start env disk dirs) run :=
  along_iff_along (tidy_start env disk dirs) tidy_step staysOnDeployed_iff

instance (s : Dashboard) : (a : DashAction) → Decidable (StaysOnDeployed s a)
  | .ui .distribute => inferInstanceAs (Decidable (_ → ∀ w ∈ s.deployed, _ = _))
  | .poll .store => inferInstanceAs
      (Decidable (∀ w ∈ s.deployed, _ → ∀ s' ∈ pollStep s .store, s'.g_snap.week = w))
  | .server _ => isTrue trivial
  | .poll .request => isTrue trivial
  | .poll (.answer _) => isTrue trivial
  | .poll .receive => isTrue trivial
  | .poll .lost => isTrue trivial
  | .ui (.stageWeek _) => isTrue trivial
  | .ui (.stageScript _) => isTrue trivial
  | .ui .deploy => isTrue trivial
  | .ui (.command _ _) => isTrue trivial
  | .ui (.answer _) => isTrue trivial
  | .ui .receive => isTrue trivial
  | .ui .lost => isTrue trivial

/-- The dashboard shows the first week; the second one is deployed, and the script handed out
before the next poll. -/
def deployThenDistribute : List DashAction :=
  [.poll .request, .poll (.answer cannotOpen), .poll .receive, .poll (.answer cannotOpen),
    .poll .receive, .poll .store, .ui (.stageWeek (ascii "week_2")),
    .ui (.stageScript (ascii "grading_scripts/test.sh")), .ui .deploy, .ui (.answer cannotOpen),
    .ui .receive, .ui .distribute]

/-- The script goes to the first week. -/
theorem distributes_to_old_week :
    ¬ Along dashStep StaysOnDeployed
      (Dashboard.start cannotOpen.set_hw (fun _ => none) fun _ => false) deployThenDistribute ∧
    (exec dashStep (Dashboard.start cannotOpen.set_hw (fun _ => none) fun _ => false)
      deployThenDistribute).map (fun s => (s.deployed, testshDst s.g_snap.week))
        = some (some (ascii "week_2"), ascii "submissions/week_1/test.sh") := by
  constructor <;> decide +kernel

/-! ## A round that meets the condition -/

/-- The reply that `poll_fn` has under way, if there is one, was written on that week. -/
def PollPhase.WrittenOn (w : Bytes) : PollPhase → Prop
  | .sleeping => True
  | .trackerSent => True
  | .trackerReplied _ active => active = w
  | .csvSent _ active => active = w
  | .csvReplied _ _ active => active = w
  | .parsed _ active => active = w

/-- A week is deployed, and no reply that was written before is still to be stored. -/
structure Settled (w : Bytes) (s : Dashboard) : Prop where
  tidy : Tidy s
  deployed : s.deployed = some w
  poll : s.poll.WrittenOn w

/-- A step of `poll_fn` writes its replies on the deployed week, and stores only such. -/
theorem settled_poll {w : Bytes} {s s' : Dashboard} {a : PollAction} (h : Settled w s)
    (hstep : pollStep s a = some s') :
    Settled w s' ∧ (s.shownOn = some w ∨ a = .store → s'.shownOn = some w) := by
  have htidy := tidy_poll h.tidy hstep
  have hpoll := h.poll
  have hweek := (h.tidy.deployed w h.deployed).2
  have hdeployed := h.deployed
  unfold pollStep at hstep
  split at hstep
  · obtain rfl := Option.some.inj hstep
    exact ⟨⟨htidy, hdeployed, trivial⟩, fun hor => hor.resolve_right nofun⟩
  · -- the server is on the deployed week
    obtain rfl := Option.some.inj hstep
    exact ⟨⟨htidy, hdeployed, hweek⟩, fun hor => hor.resolve_right nofun⟩
  next r active heq =>
    rw [heq] at hpoll
    split_ifs at hstep
    · obtain rfl := Option.some.inj hstep
      exact ⟨⟨htidy, hdeployed, hpoll⟩, fun hor => hor.resolve_right nofun⟩
    · obtain rfl := Option.some.inj hstep
      exact ⟨⟨htidy, hdeployed, trivial⟩, fun hor => hor.resolve_right nofun⟩
  next t active env heq =>
    rw [heq] at hpoll
    obtain rfl := Option.some.inj hstep
    exact ⟨⟨htidy, hdeployed, hpoll⟩, fun hor => hor.resolve_right nofun⟩
  next t cr active heq =>
    rw [heq] at hpoll
    split_ifs at hstep
    · obtain rfl := Option.some.inj hstep
      exact ⟨⟨htidy, hdeployed, hpoll⟩, fun hor => hor.resolve_right nofun⟩
    · obtain rfl := Option.some.inj hstep
      exact ⟨⟨htidy, hdeployed, hpoll⟩, fun hor => hor.resolve_right nofun⟩
  · obtain rfl := Option.some.inj hstep
    exact ⟨⟨htidy, hdeployed, trivial⟩, fun hor => hor.resolve_right nofun⟩
  · obtain rfl := Option.some.inj hstep
    exact ⟨⟨htidy, hdeployed, trivial⟩, fun hor => hor.resolve_right nofun⟩
  next t active heq =>
    rw [heq] at hpoll
    obtain rfl := Option.some.inj hstep
    exact ⟨⟨htidy, hdeployed, hpoll⟩, fun hor => hor.resolve_right nofun⟩
  next t cr active heq =>
    rw [heq] at hpoll
    obtain rfl := Option.some.inj hstep
    exact ⟨⟨htidy, hdeployed, hpoll⟩, fun hor => hor.resolve_right nofun⟩
  next t active heq =>
    rw [heq] at hpoll
    obtain rfl := Option.some.inj hstep
    exact ⟨⟨htidy, hdeployed, trivial⟩, fun _ => congrArg some hpoll⟩
  · cases hstep

/-- The main thread leaves the replies alone, and the week until it deploys the next one. -/
theorem uiStep_keeps {s s' : Dashboard} {a : UiAction} (h : Tidy s) {w : Bytes}
    (hw : s.deployed = some w) (ha : a ≠ .deploy) (hstep : uiStep s a = some s') :
    s'.deployed = some w ∧ s'.poll = s.poll ∧ s'.shownOn = s.shownOn := by
  unfold uiStep at hstep
  split at hstep
  next input hui =>
    simp only at hstep
    split_ifs at hstep
    · obtain rfl := Option.some.inj hstep
      exact ⟨hw, rfl, rfl⟩
    · obtain rfl := Option.some.inj hstep
      exact ⟨hw, rfl, rfl⟩
  next picked hui =>
    obtain rfl := Option.some.inj hstep
    exact ⟨hw, rfl, rfl⟩
  next hui => exact absurd rfl ha
  next cmd input hui =>
    by_cases hcmd : cmd ∈ menuCommands
    · rw [if_pos hcmd] at hstep
      obtain rfl := Option.some.inj hstep
      exact ⟨hw, rfl, rfl⟩
    · rw [if_neg hcmd] at hstep
      cases hstep
  next req env hui =>
    obtain rfl := Option.some.inj hstep
    exact ⟨hw, rfl, rfl⟩
  next req resp hui =>
    split_ifs at hstep with hcmd
    · -- while a deploy is under way no week counts as deployed
      rw [(h.replied req resp hui hcmd).2.1] at hw
      cases hw
    · obtain rfl := Option.some.inj hstep
      exact ⟨hw, rfl, rfl⟩
  · obtain rfl := Option.some.inj hstep
    exact ⟨hw, rfl, rfl⟩
  · obtain rfl := Option.some.inj hstep
    exact ⟨hw, rfl, rfl⟩
  · obtain rfl := Option.some.inj hstep
    exact ⟨hw, rfl, rfl⟩
  · cases hstep

/-- Until the next deploy the replies that are stored are ones of the deployed week. -/
theorem settled_step {w : Bytes} {s s' : Dashboard} {a : DashAction} (h : Settled w s)
    (ha : a ≠ .ui .deploy) (hstep : dashStep s a = some s') :
    Settled w s' ∧ (s.shownOn = some w ∨ a = .poll .store → s'.shownOn = some w) := by
  have htidy := tidy_step s a s' h.tidy hstep
  cases a with
  | server a =>
    rw [dashStep] at hstep
    split_ifs at hstep
    obtain ⟨server, -, rfl⟩ := Option.map_eq_some_iff.mp hstep
    exact ⟨⟨htidy, h.deployed, h.poll⟩, fun hor => hor.resolve_right nofun⟩
  | poll a =>
    obtain ⟨hsettled, hshown⟩ := settled_poll h hstep
    exact ⟨hsettled, fun hor => hshown (hor.imp_right DashAction.poll.inj)⟩
  | ui a =>
    obtain ⟨hdeployed, hpoll, hshown⟩ :=
      uiStep_keeps h.tidy h.deployed (fun heq => ha (congrArg DashAction.ui heq)) hstep
    refine ⟨⟨htidy, hdeployed, ?_⟩, fun hor => ?_⟩
    · rw [hpoll]
      exact h.poll
    · exact hshown.trans (hor.resolve_right nofun)

/-- **Which schedules meet the condition.**  A week has been deployed, and no reply that was
written before is still to be stored.  Once `poll_fn` has then stored a reply, the condition is
met by whatever follows, up to the next deploy. -/
theorem answeredOnDeployed_of_round {env : SetHwEnv} {disk : Disk} {dirs : Dirs}
    {before round later : List DashAction} {s t : Dashboard} {w : Bytes}
    (hbefore : exec dashStep (Dashboard.start env disk dirs) before = some s)
    (hdeployed : s.deployed = some w) (hpoll : s.poll.WrittenOn w)
    (hround : exec dashStep s round = some t) (hstored : .poll .store ∈ round)
    (hkept : ∀ a ∈ round ++ later, a ≠ .ui .deploy) :
    Along dashStep AnsweredOnDeployed t later := by
  have hsettled : Settled w s :=
    ⟨invariant_of_step (tidy_start env disk dirs) tidy_step hbefore, hdeployed, hpoll⟩
  have hstep : ∀ s a s', (Settled w s ∧ s.shownOn = some w) → a ≠ .ui .deploy →
      dashStep s a = some s' → Settled w s' ∧ s'.shownOn = some w := by
    intro s a s' h ha hs'
    obtain ⟨hnext, hshown⟩ := settled_step h.1 ha hs'
    exact ⟨hnext, hshown (Or.inl h.2)⟩
  have halong : ∀ {s : Dashboard} {as : List DashAction}, (∀ a ∈ as, a ≠ .ui .deploy) →
      Along dashStep (fun _ a => a ≠ .ui .deploy) s as := by
    intro s as has
    refine along_iff_forall.mpr fun pre a post _ heq _ => has a ?_
    rw [heq]
    exact List.mem_append_right _ List.mem_cons_self
  -- the snapshot is on the week from the store on
  have hthere : Settled w t ∧ t.shownOn = some w := by
    obtain ⟨pre, post, rfl⟩ := List.append_of_mem hstored
    obtain ⟨u, hpre, hrest⟩ := (exec_append_eq_some dashStep).mp hround
    obtain ⟨u', hstore, hpost⟩ := (exec_cons_eq_some dashStep).mp hrest
    have hu : Settled w u :=
      invariant (P := fun _ a => a ≠ .ui .deploy) hsettled
        (fun s a s' h ha hs' => (settled_step h ha hs').1)
        (halong fun a ha => hkept a (by simp [ha])) hpre
    obtain ⟨hu', hshown⟩ := settled_step hu (by nofun) hstore
    exact invariant (Q := fun s => Settled w s ∧ s.shownOn = some w) ⟨hu', hshown (Or.inr rfl)⟩
      hstep (halong fun a ha => hkept a (by simp [ha])) hpost
  refine (halong fun a ha => hkept a (List.mem_append_right _ ha)).imp_of_invariant hthere hstep ?_
  rintro s a ⟨hs, hshown⟩ -
  have honly : ∀ w' ∈ s.deployed, w' = w := by
    intro w' hw'
    rw [hs.deployed] at hw'
    exact (Option.some.inj hw').symm
  rcases a with a | a | a
  · trivial
  · cases a with
    | store =>
      intro w' hw' _ t active heq
      have hpoll := hs.poll
      rw [heq] at hpoll
      rw [honly w' hw']
      exact hpoll
    | _ => trivial
  · cases a with
    | distribute =>
      intro _ w' hw'
      rw [honly w' hw', hshown]
    | _ => trivial

end MiniCi
