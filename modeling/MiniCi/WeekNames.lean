/-
# What a week name is

Three places say what a week name is.  The dashboard wants letters, digits, `_` and `-`, fewer
than `MAX_WEEK_NAME` of them; the handler of `CMD_SET_HW` takes the first 31 bytes up to a
space or the end of a line; `ctx_set_hw` wants a length between 1 and 31, which such a name
always has.  The paths of the answers, the gradebook, the submissions and the files to hand
out are put together from whatever came through.

So the server switches to the week that was asked for, and only to one whose paths stay where
they belong, exactly for the payloads that the dashboard would send (`switches_exactly_iff`).
-/
import MiniCi.ControlRequests
import MiniCi.PullServer
import MiniCi.Snap
import Mathlib.Data.List.DropRight

namespace MiniCi

open CStr ByteStream

/-! ## Safe paths -/

/-- `'/'`. -/
def slash : UInt8 := 47

/-- The path is `dir` and behind it the name of something directly inside. -/
def DirectlyIn (dir path : Bytes) : Prop :=
  ∃ name, path = dir ++ name ∧ name ≠ [] ∧ slash ∉ name ∧ name ≠ ascii "." ∧ name ≠ ascii ".."

/-- The paths that are made of the week name lead to where they are meant to. -/
structure SafePaths (ctx : ControlContext) : Prop where
  ans_path : DirectlyIn [] ctx.hw.ans_path
  csv_path : DirectlyIn [] ctx.csv.csv_path
  submit_dir : DirectlyIn (ascii "submissions/") ctx.hw.submit_dir
  dist_dir : DirectlyIn (DIST_ROOT ++ ascii "/") (distDir ctx.hw)

/-- The text of a payload, up to its trailing line break. -/
def payloadText (payload : Bytes) : Bytes := (str payload).rdropWhile fun c => c ∈ ascii "\r\n"

/-- `IPC_OK` only with the week that was asked for, in full, and one that the dashboard lets
through; otherwise `IPC_ERROR` and nothing changed. -/
def SwitchesExactly (ctx : ControlContext) (env : CtlEnv) (payload : Buf IPC_MAX_PAYLOAD) : Prop :=
  ∀ frag, ∃ ctx' reply,
    handle_ctl_client ctx env ⟨CMD_SET_HW :: payload.bytes, frag⟩ = (ctx', some reply) ∧
      (reply.status = IPC_OK ∧ ctx'.hw.current_hw.str = payloadText payload.bytes ∧
          tui_valid_week_name ctx'.hw.current_hw.bytes ∧ SafePaths ctx' ∨
        reply.status = IPC_ERROR ∧ ctx' = ctx)

/-! ## Names that the dashboard lets through -/

/-- A byte of such a name is none of the separators. -/
theorem IsWeekByte.ne {c : UInt8} (h : IsWeekByte c) :
    c ∉ ascii " \r\n" ∧ c ∉ ascii "|\n" ∧ c ≠ slash ∧ c ≠ 46 ∧ c ≠ 0 := by
  have hnot : ∀ {p : Bytes}, (∀ d ∈ p, ¬ IsWeekByte d) → c ∉ p := fun hp hc => hp c hc h
  have hne : ∀ {d : UInt8}, ¬ IsWeekByte d → c ≠ d := fun hd hc => hd (hc ▸ h)
  exact ⟨hnot (by decide +kernel), hnot (by decide +kernel), hne (by decide), hne (by decide),
    hne (by decide)⟩

/-- A name of such bytes leads to something inside the directory it is written behind, and so
does what a file name without a `/` makes of it. -/
theorem directlyIn_append {dir week suffix : Bytes} (hne : week ≠ [])
    (hweek : ∀ c ∈ week, IsWeekByte c) (hsuffix : slash ∉ suffix) :
    DirectlyIn dir (dir ++ (week ++ suffix)) := by
  obtain ⟨c, w, rfl⟩ := List.exists_cons_of_ne_nil hne
  have hc := (hweek c List.mem_cons_self).ne.2.2.2.1
  have hdot : ascii "." = [46] ∧ ascii ".." = [46, 46] := by decide
  refine ⟨c :: w ++ suffix, rfl, by simp, ?_, ?_, ?_⟩
  · rw [List.mem_append]
    rintro (hmem | hmem)
    · exact (hweek _ hmem).ne.2.2.1 rfl
    · exact hsuffix hmem
  · rw [hdot.1]
    intro heq
    exact hc (List.cons.inj heq).1
  · rw [hdot.2]
    intro heq
    exact hc (List.cons.inj heq).1

/-- The handler takes a name that the dashboard lets through as it is. -/
theorem weekOfPayload_of_valid {payload : Bytes} (h : tui_valid_week_name (payloadText payload)) :
    weekOfPayload payload = payloadText payload ∧ str (payloadText payload) = payloadText payload ∧
      payloadText payload ≠ [] := by
  have hstr : str (payloadText payload) = payloadText payload := by
    refine str_eq_self fun hmem => ?_
    exact ne_zero_of_mem_str ((List.rdropWhile_prefix _ _).subset hmem) rfl
  obtain ⟨hlen, hlt, hbytes⟩ := h
  rw [hstr] at hlen hlt hbytes
  refine ⟨?_, hstr, fun hnil => hlen (by rw [hnil]; rfl)⟩
  have hsplit : str payload
      = payloadText payload ++ (str payload).rtakeWhile fun c => c ∈ ascii "\r\n" :=
    List.rdropWhile_append_rtakeWhile.symm
  have hle : (payloadText payload).length ≤ MAX_WEEK_NAME - 1 := Nat.le_sub_one_of_lt hlt
  have hpass : ∀ c ∈ payloadText payload, decide (c ∉ ascii " \r\n") = true := by
    intro c hc
    exact decide_eq_true (hbytes c hc).ne.1
  rw [weekOfPayload, hsplit, List.take_append, List.take_of_length_le hle,
    List.takeWhile_append_of_pos hpass]
  -- what follows in the payload starts with a line break
  have hnil : (((str payload).rtakeWhile fun c => c ∈ ascii "\r\n").take
      (MAX_WEEK_NAME - 1 - (payloadText payload).length)).takeWhile
        (fun c => c ∉ ascii " \r\n") = [] := by
    rw [List.takeWhile_eq_nil_iff]
    intro hpos hnot
    have hmem := List.mem_rtakeWhile_imp (List.mem_of_mem_take (List.getElem_mem hpos))
    have hsub : ∀ c ∈ ascii "\r\n", c ∈ ascii " \r\n" := by decide +kernel
    exact of_decide_eq_true hnot (hsub _ (of_decide_eq_true hmem))
  rw [hnil, List.append_nil]

/-! ## Switching to a week -/

/-- The paths of a week with such a name are safe. -/
theorem safePaths_ctx_set_hw (ctx : ControlContext) {week : Bytes} (env : SetHwEnv)
    (h : ValidWeekName week) (hweek : ∀ c ∈ str week, IsWeekByte c) :
    SafePaths (ctx_set_hw ctx week env) := by
  obtain ⟨hhw, -, hcsv⟩ := ctx_set_hw_of_valid ctx env h
  have hne : str week ≠ [] := List.length_pos_iff.mp (Nat.pos_of_ne_zero h.1)
  have hname : (ctx_set_hw ctx week env).hw.current_hw.str = str week := by
    rw [hhw]
    exact (Buf.str_ofStr _ _).trans (List.take_of_length_le (Nat.le_sub_one_of_lt h.2))
  have hpath : (ctx_set_hw ctx week env).csv.csv_path = csvPath week := by
    rw [hcsv, ctx_set_hw_csv]
    cases env.opened <;> rfl
  constructor
  · rw [hhw]
    show DirectlyIn [] (ansPath week)
    rw [ansPath_eq h.2]
    exact directlyIn_append hne hweek (by decide)
  · rw [hpath, csvPath_eq h.2]
    exact directlyIn_append hne hweek (by decide)
  · rw [hhw]
    show DirectlyIn _ (submitDir week)
    rw [submitDir_eq h.2, ← List.append_nil (str week)]
    exact directlyIn_append hne hweek (by simp)
  · have hdir : distDir (ctx_set_hw ctx week env).hw
        = DIST_ROOT ++ ascii "/" ++ (str week ++ []) := by
      rw [distDir, hname, List.append_nil]
      apply snprintf_eq_self
      have hlen : (DIST_ROOT ++ ascii "/").length = 5 := by decide
      have hmax : MAX_WEEK_NAME = 32 := rfl
      have hlt := h.2
      rw [List.length_append, hlen]
      omega
    rw [hdir]
    exact directlyIn_append hne hweek (by simp)

/-- A payload that names a week is answered with `IPC_OK`, so its text must be a name that the
dashboard lets through. -/
theorem SwitchesExactly.valid {ctx : ControlContext} {env : CtlEnv} {payload : Buf IPC_MAX_PAYLOAD}
    (h : SwitchesExactly ctx env payload) (hne : weekOfPayload payload.bytes ≠ []) :
    tui_valid_week_name (payloadText payload.bytes) := by
  obtain ⟨-, hok⟩ := cmdSetHw_of_ne_nil ctx env.set_hw hne
  obtain ⟨ctx', reply, hrun, hor⟩ := h fun _ => 0
  rw [handle_ctl_client_set_hw] at hrun
  obtain ⟨rfl, hreply⟩ := Prod.mk.inj hrun
  obtain rfl := Option.some.inj hreply
  rcases hor with ⟨-, htext, hvalid, -⟩ | ⟨herror, -⟩
  · -- the week that is on now passes the check, and is the text
    rw [← htext]
    unfold tui_valid_week_name at hvalid ⊢
    rwa [Buf.str, str_str]
  · rw [hok] at herror
    cases herror

/-- **The server switches to exactly the week that was asked for** iff the payload names none,
or is one that the dashboard could have sent. -/
theorem switches_exactly_iff (ctx : ControlContext) (env : CtlEnv)
    (payload : Buf IPC_MAX_PAYLOAD) :
    SwitchesExactly ctx env payload ↔
      EndsWeek (payload.bytes.headD 0) ∨ tui_valid_week_name (payloadText payload.bytes) := by
  rw [← weekOfPayload_eq_nil_iff]
  constructor
  · exact fun h => or_iff_not_imp_left.mpr h.valid
  · rintro (hnil | hvalid) frag
    · rw [handle_ctl_client_set_hw, cmdSetHw_of_nil hnil]
      exact ⟨ctx, _, rfl, Or.inr ⟨rfl, rfl⟩⟩
    · obtain ⟨hweek, hstr, hne⟩ := weekOfPayload_of_valid hvalid
      obtain ⟨hlen, hlt, hbytes⟩ := hvalid
      rw [← hweek] at hne
      obtain ⟨hctx, hok⟩ := cmdSetHw_of_ne_nil ctx env.set_hw hne
      have hname : ValidWeekName (weekOfPayload payload.bytes) := validWeekName_weekOfPayload hne
      have hcurrent : (ctx_set_hw ctx (weekOfPayload payload.bytes) env.set_hw).hw.current_hw.str
          = payloadText payload.bytes := by
        rw [(ctx_set_hw_of_valid ctx env.set_hw hname).1]
        refine (Buf.str_ofStr _ _).trans ?_
        rw [List.take_of_length_le (Nat.le_sub_one_of_lt hname.2), hweek, hstr]
      rw [handle_ctl_client_set_hw]
      refine ⟨_, _, rfl, Or.inl ⟨hok, ?_, ?_, ?_⟩⟩
      · rw [hctx, hcurrent]
      · rw [hctx]
        unfold tui_valid_week_name
        rw [← Buf.str, hcurrent, ← hstr]
        exact ⟨hlen, hlt, hbytes⟩
      · rw [hctx]
        apply safePaths_ctx_set_hw ctx env.set_hw hname
        rw [hweek]
        exact hbytes

/-- A text that a client has put into a request. -/
theorem str_bytes_strncpy {text : Bytes} (hzero : 0 ∉ text) (hlen : text.length ≤ IPC_MAX_PAYLOAD) :
    str (Buf.strncpy IPC_MAX_PAYLOAD text).bytes = str text := by
  refine (Buf.str_strncpy _ _).trans (List.take_of_length_le ?_)
  rwa [str_eq_self hzero]

theorem weekOfPayload_strncpy {text : Bytes} (hzero : 0 ∉ text)
    (hlen : text.length ≤ IPC_MAX_PAYLOAD) :
    weekOfPayload (Buf.strncpy IPC_MAX_PAYLOAD text).bytes = weekOfPayload text := by
  rw [weekOfPayload, str_bytes_strncpy hzero hlen, weekOfPayload]

/-- A name that is too long is cut, one that leads out of `submissions` is taken as it is, and
one with a space in it up to the space. -/
theorem not_switchesExactly :
    ¬ SwitchesExactly oneSolved cannotOpen (.strncpy IPC_MAX_PAYLOAD (List.replicate 40 97)) ∧
    ¬ SwitchesExactly oneSolved cannotOpen (.strncpy IPC_MAX_PAYLOAD (ascii "../x")) ∧
    ¬ SwitchesExactly oneSolved cannotOpen (.strncpy IPC_MAX_PAYLOAD (ascii "week 2")) := by
  have hbad : ∀ text : Bytes, 0 ∉ text → text.length ≤ IPC_MAX_PAYLOAD →
      weekOfPayload text ≠ [] → ¬ tui_valid_week_name (payloadText text) →
      ¬ SwitchesExactly oneSolved cannotOpen (.strncpy IPC_MAX_PAYLOAD text) := by
    intro text hzero hlen hne hinvalid h
    have htext : payloadText (Buf.strncpy IPC_MAX_PAYLOAD text).bytes = payloadText text := by
      rw [payloadText, str_bytes_strncpy hzero hlen, payloadText]
    have hvalid := h.valid ((weekOfPayload_strncpy hzero hlen).symm ▸ hne)
    rw [htext] at hvalid
    exact hinvalid hvalid
  refine ⟨hbad _ ?_ ?_ ?_ ?_, hbad _ ?_ ?_ ?_ ?_, hbad _ ?_ ?_ ?_ ?_⟩ <;> decide

end MiniCi
