/-
# What the dashboard sees of the tracker

`parse_snap` after `CMD_GET_TRACKER`, in every context that the server reaches.

For ids that the client lets through and weeks that the dashboard lets through the snapshot has
the numbers of the server, and its entries are the students that fit into the reply
(`sees_students_that_fit`): as many as start before the last 24 bytes, which with ids of fifteen
digits are not even 450 of the 512 that the table holds.

Nothing keeps other ids and weeks away from the server.  Then the numbers and the entries are
those of the server only if no part of the week name and no piece of an id says otherwise
(`cannot_be_forged_iff`).
-/
import MiniCi.ContextRuns
import MiniCi.WeekNames

namespace MiniCi

open CStr Runs

/-! ## What the snapshot should say -/

/-- What the snapshot shows of a student. -/
def entryOf (r : StudentRecord) : SnapEntry := ⟨r.id, r.best_result⟩

/-- The snapshot has the numbers and the week of the server, and these students. -/
structure Sees (ctx : ControlContext) (rows : List StudentRecord) : Prop where
  submitted : (parse_snap (cmdGetTracker ctx).data).submitted = ctx.tracker.submitted_count
  total : (parse_snap (cmdGetTracker ctx).data).total = ctx.tracker.total_students
  week : (parse_snap (cmdGetTracker ctx).data).week = ctx.hw.current_hw.str
  csv_records : (parse_snap (cmdGetTracker ctx).data).csv_records = ctx.csv.total_records
  entries : (parse_snap (cmdGetTracker ctx).data).entries = rows.map entryOf

/-- The entry of the last student, and so that of each one, starts before the last 24 bytes of
the reply. -/
def AllFit (ctx : ControlContext) (rows : List StudentRecord) : Prop :=
  ∀ front r, rows = front ++ [r] →
    (replyLine ctx).length + (front.flatMap trackerEntry).length < IPC_MAX_PAYLOAD - 24

/-- The numbers of the snapshot are those of the server, and each of its entries shows a
student that there is. -/
structure Unforged (ctx : ControlContext) : Prop where
  submitted : (parse_snap (cmdGetTracker ctx).data).submitted = ctx.tracker.submitted_count
  total : (parse_snap (cmdGetTracker ctx).data).total = ctx.tracker.total_students
  csv_records : (parse_snap (cmdGetTracker ctx).data).csv_records = ctx.csv.total_records
  entries : ∀ e ∈ (parse_snap (cmdGetTracker ctx).data).entries,
    e ∈ (recorded ctx).map entryOf

/-! ## The students that fit -/

theorem prefix_fitting (n : ℕ) (rows : List StudentRecord) : fitting n rows <+: rows := by
  induction rows generalizing n with
  | nil => exact List.prefix_refl []
  | cons r rows ih =>
    rw [fitting]
    split_ifs
    · exact (List.prefix_cons_inj r).mpr (ih _)
    · exact List.nil_prefix

/-- All of them fit iff the last one does. -/
theorem fitting_eq_iff {n : ℕ} {rows : List StudentRecord} :
    fitting n rows = rows ↔
      ∀ front r, rows = front ++ [r] →
        n + (front.flatMap trackerEntry).length < IPC_MAX_PAYLOAD - 24 := by
  induction rows generalizing n with
  | nil => simp [fitting]
  | cons r rows ih =>
    rw [fitting]
    constructor
    · intro h front r' heq
      split_ifs at h with hn
      cases front with
      | nil => simpa using hn
      | cons r'' front =>
        obtain ⟨rfl, htail⟩ := List.cons.inj heq
        have hlast := ih.mp (List.cons.inj h).2 front r' htail
        rw [List.flatMap_cons, List.length_append]
        omega
    · intro h
      have hn : n < IPC_MAX_PAYLOAD - 24 := by
        rcases List.eq_nil_or_concat rows with rfl | ⟨front, r', rfl⟩
        · simpa using h [] r rfl
        · have hlast := h (r :: front) r' (by simp)
          omega
      rw [if_pos hn, ih.mpr]
      intro front r' heq
      have hlast := h (r :: front) r' (by rw [heq, List.cons_append])
      rw [List.flatMap_cons, List.length_append] at hlast
      omega

/-- The entries of a part of the students are those of all iff it is all of them. -/
theorem map_entryOf_inj {front rows : List StudentRecord} (h : front <+: rows) :
    front.map entryOf = rows.map entryOf ↔ front = rows := by
  constructor
  · intro heq
    have hlen := congrArg List.length heq
    rw [List.length_map, List.length_map] at hlen
    exact h.eq_of_length hlen
  · rintro rfl
    rfl

/-! ## Names without separators -/

/-- An id without separators is read as it is. -/
theorem readings_of_plain {r : StudentRecord} (hne : r.id ≠ []) (hcomma : comma ∉ r.id)
    (hcolon : colon ∉ r.id) : readings r = [entryOf r] := by
  have htake : r.id.takeWhile (· ≠ colon) = r.id := by
    rw [List.takeWhile_eq_self_iff]
    intro c hc
    rw [decide_eq_true_eq]
    rintro rfl
    exact hcolon hc
  have hread : readPiece r.best_result r.id = some (entryOf r) := by
    simp only [readPiece, htake, if_neg hne, if_neg hcolon]
    rfl
  rw [readings, pointers_of_not_mem hcomma, List.filterMap_cons_some hread, List.filterMap_nil]

/-- A week name without a bar gives no field a value. -/
theorem weekField_of_plain {week : Bytes} (hbar : bar ∉ week) (key : Bytes) :
    weekField key week = none := by
  rw [weekField, behind_of_not_mem hbar]
  rfl

/-- The entries of the snapshot for ids without separators. -/
theorem Reports.entries_of_plain {ctx : ControlContext} (h : Reports ctx (recorded ctx))
    (hids : ∀ r ∈ recorded ctx, comma ∉ r.id ∧ colon ∉ r.id) :
    (parse_snap (cmdGetTracker ctx).data).entries
      = (inReply ctx (recorded ctx)).map entryOf := by
  have hread : (inReply ctx (recorded ctx)).flatMap readings
      = (inReply ctx (recorded ctx)).map entryOf := by
    rw [List.map_eq_flatMap]
    apply List.flatMap_congr
    intro r hr
    have hmem := mem_of_mem_fitting hr
    exact readings_of_plain (h.filled.used r hmem).1 (hids r hmem).1 (hids r hmem).2
  have hlen : ((inReply ctx (recorded ctx)).map entryOf).length ≤ 512 := by
    rw [List.length_map]
    have hle := h.filled.length_le
    rw [ctx.tracker.students.length_records] at hle
    exact (prefix_fitting _ _).length_le.trans hle
  rw [(parse_snap_reply h).2.2.2, hread, List.take_of_length_le hlen]

/-- The snapshot for ids and a week without separators. -/
theorem Reports.sees {ctx : ControlContext} (h : Reports ctx (recorded ctx))
    (hids : ∀ r ∈ recorded ctx, comma ∉ r.id ∧ colon ∉ r.id) (hne : ctx.hw.current_hw.str ≠ [])
    (hbar : bar ∉ ctx.hw.current_hw.str) : Sees ctx (inReply ctx (recorded ctx)) := by
  obtain ⟨hsubmitted, htotal, hrecords, -⟩ := parse_snap_reply h
  rw [weekField_of_plain hbar] at hsubmitted htotal
  refine ⟨hsubmitted, htotal, ?_, hrecords, h.entries_of_plain hids⟩
  rw [h.data]
  exact parse_snap_week _ _ _ hne h.short h.oneLine hbar h.zero_not_mem

/-! ## Ids and weeks that are let through -/

/-- A submission with an id that the client lets through, or a request; and weeks that the
dashboard lets through. -/
def ContextAction.FromClients : ContextAction → Prop
  | .record student_id _ _ => ClientId student_id.bytes
  | .append .. => True
  | .request _ req => req.cmd = CMD_SET_HW → tui_valid_week_name req.payload.bytes

/-- The text of a payload that is a week name, and has no line break behind it. -/
theorem payloadText_of_valid {payload : Bytes} (h : tui_valid_week_name payload) :
    payloadText payload = str payload := by
  rw [payloadText, List.rdropWhile_eq_self_iff]
  intro hne hlast
  have hbyte := h.2.2 _ (List.getLast_mem hne)
  have hsub : ∀ c ∈ ascii "\r\n", ¬ IsWeekByte c := by decide +kernel
  exact hsub _ (of_decide_eq_true hlast) hbyte

/-- Only ids of digits and weeks of week bytes get into the context. -/
theorem ContextAction.FromClients.brings {a : ContextAction} (h : a.FromClients) :
    a.Brings (fun id => ∀ c ∈ id, IsDigit c) tui_valid_week_name := by
  cases a with
  | record student_id result now =>
    intro _ c hc
    exact h.2.2 c (List.mem_of_mem_take hc)
  | append => trivial
  | request env req =>
    intro hset _
    have hvalid := h hset
    have htext := payloadText_of_valid hvalid
    have hstr : tui_valid_week_name (payloadText req.payload.bytes) := by
      rw [htext]
      unfold tui_valid_week_name at hvalid ⊢
      rwa [str_str]
    rwa [(weekOfPayload_of_valid hstr).1]

/-- A context of such a run has a week and ids without separators. -/
theorem sees_of_run {env : SetHwEnv} {disk : Disk} {dirs : Dirs} {run : List ContextAction}
    {ctx : ControlContext} (hrun : ∀ a ∈ run, a.FromClients)
    (h : exec contextStep (ctx_init env disk dirs) run = some ctx) :
    Sees ctx (inReply ctx (recorded ctx)) := by
  have hcarries : Carries (fun id => ∀ c ∈ id, IsDigit c) tui_valid_week_name ctx :=
    carries_of_run (by decide) (fun a ha => (hrun a ha).brings) h
  obtain ⟨hlen, -, hbytes⟩ := hcarries.week
  rw [Buf.str, str_str, ← Buf.str] at hlen hbytes
  refine (reports_of_run h).sees (fun r hr => ⟨fun hmem => ?_, fun hmem => ?_⟩) ?_ fun hmem => ?_
  · exact absurd ((hcarries.rows r hr).2 _ hmem) (by decide)
  · exact absurd ((hcarries.rows r hr).2 _ hmem) (by decide)
  · exact fun hnil => hlen (by rw [hnil]; rfl)
  · exact absurd (hbytes _ hmem) (by decide)

/-- It shows all students iff they all fit. -/
theorem sees_recorded_iff {env : SetHwEnv} {disk : Disk} {dirs : Dirs} {run : List ContextAction}
    {ctx : ControlContext} (hrun : ∀ a ∈ run, a.FromClients)
    (h : exec contextStep (ctx_init env disk dirs) run = some ctx) :
    Sees ctx (recorded ctx) ↔ AllFit ctx (recorded ctx) := by
  have hsees := sees_of_run hrun h
  have hfit : inReply ctx (recorded ctx) = recorded ctx ↔ AllFit ctx (recorded ctx) :=
    fitting_eq_iff
  rw [← hfit]
  constructor
  · intro hall
    exact (map_entryOf_inj (prefix_fitting _ _)).mp (hsees.entries.symm.trans hall.entries)
  · intro heq
    rwa [heq] at hsees

/-- **The dashboard sees the students that fit.**  After any submissions with ids that the client
lets through and any week switches by the dashboard, the snapshot has the numbers and the week
of the server, and its entries are, in table order, the students whose entries start before the
last 24 bytes of the reply.  They are all students iff the last one does. -/
theorem sees_students_that_fit {env : SetHwEnv} {disk : Disk} {dirs : Dirs}
    {run : List ContextAction} {ctx : ControlContext} (hrun : ∀ a ∈ run, a.FromClients)
    (h : exec contextStep (ctx_init env disk dirs) run = some ctx) :
    Sees ctx (inReply ctx (recorded ctx)) ∧ inReply ctx (recorded ctx) <+: recorded ctx ∧
      (Sees ctx (recorded ctx) ↔ AllFit ctx (recorded ctx)) :=
  ⟨sees_of_run hrun h, prefix_fitting _ _, sees_recorded_iff hrun h⟩

/-- The context after the first submission. -/
theorem sees_first_student :
    ∃ ctx, exec contextStep (ctx_init cannotOpen.set_hw (fun _ => none) fun _ => false)
        [.record (.ofStr 15 (ascii "20240123")) GRADE_AC 20] = some ctx ∧
      Sees ctx (inReply ctx (recorded ctx)) ∧ inReply ctx (recorded ctx) <+: recorded ctx ∧
      (Sees ctx (recorded ctx) ↔ AllFit ctx (recorded ctx)) := by
  have hclient : ∀ a ∈ [ContextAction.record (.ofStr 15 (ascii "20240123")) GRADE_AC 20],
      a.FromClients := by
    intro a ha
    rw [List.mem_singleton.mp ha]
    show ClientId _
    decide
  exact ⟨_, rfl, sees_students_that_fit hclient rfl⟩

/-! ## A full table -/

/-- The `i`-th of the students whose ids have fifteen digits. -/
def studentNo (i : ℕ) : Buf MAX_STUDENT_ID :=
  .ofStr (MAX_STUDENT_ID - 1) (decimal (100000000000000 + i))

/-- One submission by each of the first `n` of them; without a gradebook file nothing more
happens. -/
def submissionsBy (n : ℕ) : List ContextAction :=
  (List.range n).map fun i => .record (studentNo i) GRADE_WA 0

theorem str_studentNo {i : ℕ} (hi : i < MAX_STUDENTS) :
    (studentNo i).str = decimal (100000000000000 + i) ∧
      (decimal (100000000000000 + i)).length = 15 ∧ ClientId (studentNo i).bytes := by
  have hmax : MAX_STUDENTS = 512 := rfl
  have hle : (decimal (100000000000000 + i)).length ≤ 15 := length_decimal_le (by decide) (by omega)
  have hgt : ¬ (decimal (100000000000000 + i)).length ≤ 14 := by
    rw [decimal, List.length_map, Nat.length_toDigits_le_iff (by decide) (by decide)]
    omega
  have hzero : (0 : UInt8) ∉ decimal (100000000000000 + i) := fun h =>
    (ne_of_isDigit (isDigit_of_mem_decimal h)).2.2 rfl
  have hstr : (studentNo i).str = decimal (100000000000000 + i) := by
    refine (Buf.str_ofStr _ _).trans ?_
    rw [str_eq_self hzero]
    exact List.take_of_length_le hle
  have hlen : (decimal (100000000000000 + i)).length = 15 := by omega
  refine ⟨hstr, hlen, ?_⟩
  rw [ClientId, ← Buf.str, hstr, hlen]
  exact ⟨by decide, by decide, fun c hc => isDigit_of_mem_decimal hc⟩

/-- Each of them gets a record. -/
theorem exists_submissionsBy (env : SetHwEnv) (disk : Disk) (dirs : Dirs) {n : ℕ}
    (hn : n ≤ MAX_STUDENTS) :
    ∃ ctx, exec contextStep (ctx_init env disk dirs) (submissionsBy n) = some ctx ∧
      ctx.csv = (ctx_init env disk dirs).csv ∧
      ∃ rows, Filled ctx.tracker.students.records rows ∧
        ids rows = (List.range n).map fun i => decimal (100000000000000 + i) := by
  induction n with
  | zero => exact ⟨_, rfl, rfl, [], filled_zero, rfl⟩
  | succ n ih =>
    obtain ⟨ctx, hrun, hcsv, rows, hfilled, hids⟩ := ih (Nat.le_of_succ_le hn)
    obtain ⟨hstr, hlen, hclient⟩ := str_studentNo (Nat.lt_of_succ_le hn)
    have hinj : Function.Injective fun i => decimal (100000000000000 + i) := by
      intro i j hij
      exact Nat.add_left_cancel (decimal_injective hij)
    have hnodup : (ids rows).Nodup := by
      rw [hids]
      exact List.nodup_range.map hinj
    have hrows : rows.length = n := by
      have hlength := congrArg List.length hids
      rwa [List.length_map, List.length_map, List.length_range] at hlength
    have hnew : str (studentNo n).bytes ∉ ids rows := by
      rw [← Buf.str, hstr, hids, List.mem_map]
      rintro ⟨i, hi, heq⟩
      rw [hinj heq, List.mem_range] at hi
      omega
    have hrun' : exec contextStep (ctx_init env disk dirs) (submissionsBy (n + 1))
        = some { ctx with
          tracker := (ctx_record_submission ctx.tracker (studentNo n).bytes GRADE_WA 0).2 } := by
      rw [submissionsBy, List.range_succ, List.map_append]
      exact (exec_concat_eq_some _).mpr ⟨ctx, hrun, rfl⟩
    refine ⟨_, hrun', hcsv, ?_⟩
    rcases record_cases hfilled hnodup hclient.usable GRADE_WA 0 with
      ⟨i, hi, hmatch, -⟩ | ⟨r, -, -, -, hrec, hbooked⟩ | ⟨-, hfull, -⟩
    · exact absurd (hmatch ▸ List.mem_map_of_mem (List.getElem_mem hi)) hnew
    · refine ⟨_, by rw [hrec]; exact hbooked, ?_⟩
      rw [ids, List.map_append, ← ids, hids, List.range_succ, List.map_append, List.map_singleton,
        id_enter_bump, id_claim hclient.usable, ← Buf.str, hstr, List.map_singleton]
    · omega

/-- Entries of ids with fifteen digits take more than sixteen bytes each. -/
theorem length_flatMap_trackerEntry_ge {rows : List StudentRecord}
    (h : ∀ r ∈ rows, r.id.length = 15) : 17 * rows.length ≤ (rows.flatMap trackerEntry).length := by
  induction rows with
  | nil => simp
  | cons r rows ih =>
    have hid : r.student_id.str.length = 15 := h r List.mem_cons_self
    have hrest := ih fun r hr => h r (List.mem_cons_of_mem _ hr)
    have hone : (ascii ":").length = 1 ∧ (ascii ",").length = 1 := by decide
    rw [List.flatMap_cons, List.length_append, List.length_cons]
    simp only [trackerEntry, List.length_append, hone]
    omega

/-- With 512 ids of fifteen digits the dashboard does not see the whole table. -/
theorem not_sees_full_table :
    ∃ ctx, exec contextStep (ctx_init cannotOpen.set_hw (fun _ => none) fun _ => false)
        (submissionsBy MAX_STUDENTS) = some ctx ∧
      (∀ a ∈ submissionsBy MAX_STUDENTS, a.FromClients) ∧
      ctx.csv.total_records.toNat < 2147483648 ∧ ¬ Sees ctx (recorded ctx) := by
  obtain ⟨ctx, hrun, hcsv, rows, hfilled, hids⟩ :=
    exists_submissionsBy cannotOpen.set_hw (fun _ => none) (fun _ => false) (le_refl MAX_STUDENTS)
  have hclient : ∀ a ∈ submissionsBy MAX_STUDENTS, a.FromClients := by
    intro a ha
    obtain ⟨i, hi, rfl⟩ := List.mem_map.mp ha
    exact (str_studentNo (List.mem_range.mp hi)).2.2
  refine ⟨ctx, hrun, hclient, by rw [hcsv]; decide, ?_⟩
  rw [sees_recorded_iff hclient hrun]
  have heq : recorded ctx = rows := hfilled.filter_eq
  have hlen : rows.length = MAX_STUDENTS := by
    have hlength := congrArg List.length hids
    rwa [List.length_map, List.length_map, List.length_range] at hlength
  have hid : ∀ r ∈ rows, r.id.length = 15 := by
    intro r hr
    have hmem : r.id ∈ ids rows := List.mem_map_of_mem hr
    rw [hids] at hmem
    obtain ⟨i, hi, hdec⟩ := List.mem_map.mp hmem
    rw [← hdec]
    exact (str_studentNo (List.mem_range.mp hi)).2.1
  intro hfit
  rw [heq] at hfit
  -- in front of the last student's entry stand 511 others
  rcases List.eq_nil_or_concat' rows with rfl | ⟨front, r, rfl⟩
  · exact absurd hlen (by decide)
  · have hlt := hfit front r rfl
    have hge := length_flatMap_trackerEntry_ge
      (fun r hr => hid r (List.mem_append_left _ hr))
    rw [List.length_append, List.length_singleton] at hlen
    have hmax : MAX_STUDENTS = 512 ∧ IPC_MAX_PAYLOAD = 8192 := ⟨rfl, rfl⟩
    omega

/-! ## Forged numbers and entries -/

/-- No part of the week name gives `submitted` or `total` another value, and each of the first
512 pieces of ids in the reply that read as an entry reads as the one of a student. -/
structure TellsNothingElse (ctx : ControlContext) : Prop where
  submitted : ∀ v ∈ weekField (ascii "submitted") ctx.hw.current_hw.str,
    UInt16.ofInt (atoi v) = ctx.tracker.submitted_count
  total : ∀ v ∈ weekField (ascii "total") ctx.hw.current_hw.str,
    UInt16.ofInt (atoi v) = ctx.tracker.total_students
  entries : ∀ e ∈ ((inReply ctx (recorded ctx)).flatMap readings).take 512,
    e ∈ (recorded ctx).map entryOf

theorem getD_map_eq_iff {α β : Type*} (o : Option α) (f : α → β) (b : β) :
    (o.map f).getD b = b ↔ ∀ v ∈ o, f v = b := by
  cases o <;> simp

theorem Reports.unforged_iff {ctx : ControlContext} (h : Reports ctx (recorded ctx)) :
    Unforged ctx ↔ TellsNothingElse ctx := by
  obtain ⟨hsubmitted, htotal, hrecords, hentries⟩ := parse_snap_reply h
  constructor
  · rintro ⟨h₁, h₂, -, h₄⟩
    rw [hsubmitted, getD_map_eq_iff] at h₁
    rw [htotal, getD_map_eq_iff] at h₂
    rw [hentries] at h₄
    exact ⟨h₁, h₂, h₄⟩
  · rintro ⟨h₁, h₂, h₄⟩
    rw [← getD_map_eq_iff] at h₁ h₂
    rw [← hentries] at h₄
    exact ⟨hsubmitted.trans h₁, htotal.trans h₂, hrecords, h₄⟩

/-- **The snapshot cannot be forged** iff neither the week name nor an id tells anything else.  In
every context that a run reaches, whatever the ids and the week names in it. -/
theorem cannot_be_forged_iff {env : SetHwEnv} {disk : Disk} {dirs : Dirs}
    {run : List ContextAction} {ctx : ControlContext}
    (h : exec contextStep (ctx_init env disk dirs) run = some ctx) :
    Unforged ctx ↔ TellsNothingElse ctx :=
  (reports_of_run h).unforged_iff

theorem forged_of_run {env : SetHwEnv} {disk : Disk} {dirs : Dirs} {run : List ContextAction}
    (h : ∃ ctx, exec contextStep (ctx_init env disk dirs) run = some ctx ∧
      ¬ TellsNothingElse ctx) :
    ∃ ctx, exec contextStep (ctx_init env disk dirs) run = some ctx ∧ ¬ Unforged ctx := by
  obtain ⟨ctx, hrun, hnot⟩ := h
  exact ⟨ctx, hrun, mt (reports_of_run hrun).unforged_iff.mp hnot⟩

/-- The week name `x|total=99` shows 99 students; and the submission of `A:AC,B`, which is wrong,
an accepted one of `A`. -/
theorem forged :
    (∃ ctx, exec contextStep (ctx_init cannotOpen.set_hw (fun _ => none) fun _ => false)
        [.request cannotOpen ⟨CMD_SET_HW, .strncpy IPC_MAX_PAYLOAD (ascii "x|total=99")⟩]
          = some ctx ∧ ¬ Unforged ctx) ∧
    (∃ ctx, exec contextStep (ctx_init cannotOpen.set_hw (fun _ => none) fun _ => false)
        [.record (.ofStr 15 (ascii "A:AC,B")) GRADE_WA 20] = some ctx ∧ ¬ Unforged ctx) := by
  constructor
  · refine forged_of_run ⟨_, rfl, fun h => ?_⟩
    have htotal := h.total
    revert htotal
    decide +kernel
  · refine forged_of_run ⟨_, rfl, fun h => ?_⟩
    have hentries := h.entries
    revert hentries
    decide +kernel

/-- After one submission with an id of digits the snapshot is as it should be. -/
theorem unforged_first_student :
    ∃ ctx, exec contextStep (ctx_init cannotOpen.set_hw (fun _ => none) fun _ => false)
        [.record (.ofStr 15 (ascii "20240123")) GRADE_AC 20] = some ctx ∧
      (Unforged ctx ↔ TellsNothingElse ctx) := by
  obtain ⟨ctx, hrun⟩ : ∃ ctx, exec contextStep
      (ctx_init cannotOpen.set_hw (fun _ => none) fun _ => false)
      [.record (.ofStr 15 (ascii "20240123")) GRADE_AC 20] = some ctx := ⟨_, rfl⟩
  exact ⟨ctx, hrun, cannot_be_forged_iff hrun⟩

end MiniCi
