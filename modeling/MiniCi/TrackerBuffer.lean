/-
# Writing the reply to `CMD_GET_TRACKER` into its buffer

The handler appends to `resp.data` with `pos += snprintf(resp.data + pos, IPC_MAX_PAYLOAD - pos,
...)`.  What `snprintf` returns is the length of the whole text, and the size it is given is a
`size_t`; so the calls are only right as long as `pos` stays below `IPC_MAX_PAYLOAD` and no text is
cut.  It does, since an entry has at most 20 bytes and none is begun in the last 24
(`getTracker_wellFormed`).  The text is the one of `cmdGetTracker` (`getTracker_eq_cmdGetTracker`).
-/
import MiniCi.TrackerReply

namespace MiniCi

open CStr

/-! ## A buffer that `snprintf` appends to -/

/-- A call of `snprintf`: where in the array it writes, the size it is given, and the text. -/
structure SnprintfCall where
  pos : ℤ
  size : ℕ
  text : Bytes

/-- A `char data[cap]` with the position of its end, and the calls so far. -/
structure FormatBuffer where
  data : Bytes
  pos : ℤ
  calls : List SnprintfCall

/-- `pos += snprintf(data + pos, cap - pos, ...)`, where the size is converted to `size_t`; `none`
when it writes outside of the array. -/
def FormatBuffer.print (cap : ℕ) (b : FormatBuffer) (text : Bytes) : Option FormatBuffer :=
  let size := ((cap - b.pos) % 2 ^ 64).toNat
  let out := if size = 0 then [] else snprintf size text ++ [0]
  if 0 ≤ b.pos ∧ b.pos.toNat + out.length ≤ b.data.length then
    some
      { data := b.data.take b.pos.toNat ++ out ++ b.data.drop (b.pos.toNat + out.length)
        pos := b.pos + text.length
        calls := b.calls ++ [⟨b.pos, size, text⟩] }
  else none

/-- A call inside the array, with all the room there is, whose text is not cut. -/
structure SnprintfCall.Safe (cap : ℕ) (call : SnprintfCall) : Prop where
  nonneg : 0 ≤ call.pos
  inside : call.pos < cap
  size : (call.size : ℤ) = cap - call.pos
  whole : call.text.length < call.size

/-- The buffer holds a text up to `pos`, and all calls were safe. -/
structure FormatBuffer.Holds (cap : ℕ) (text : Bytes) (b : FormatBuffer) : Prop where
  length : b.data.length = cap
  pos : b.pos = text.length
  take : b.data.take text.length = text
  texts : (b.calls.map SnprintfCall.text).flatten = text
  safe : ∀ call ∈ b.calls, call.Safe cap

/-- The text is closed by a NUL. -/
def FormatBuffer.Closed (text : Bytes) (b : FormatBuffer) : Prop :=
  ∃ tail, b.data = text ++ 0 :: tail

/-- **A text that fits is appended whole.** -/
theorem FormatBuffer.Holds.print {cap : ℕ} {text : Bytes} {b : FormatBuffer}
    (h : b.Holds cap text) (hcap : cap < 2 ^ 64) (new : Bytes)
    (hroom : text.length + new.length < cap) :
    ∃ b', b.print cap new = some b' ∧ b'.Holds cap (text ++ new) ∧ b'.Closed (text ++ new) := by
  obtain ⟨hlength, hpos, htake, htexts, hsafe⟩ := h
  have hsize : ((cap - b.pos) % 2 ^ 64).toNat = cap - text.length := by
    rw [hpos]
    omega
  have htext : snprintf (cap - text.length) new = new := snprintf_eq_self (by omega)
  have hout : (if cap - text.length = 0 then [] else snprintf (cap - text.length) new ++ [0]) =
      new ++ [0] := by
    rw [if_neg (by omega), htext]
  have hnat : b.pos.toNat = text.length := by rw [hpos, Int.toNat_natCast]
  have hfits : 0 ≤ b.pos ∧ b.pos.toNat + (new ++ [0]).length ≤ b.data.length := by
    rw [hnat, hlength, List.length_append, List.length_singleton]
    omega
  have hdata : b.data.take b.pos.toNat ++ (new ++ [0]) ++
      b.data.drop (b.pos.toNat + (new ++ [0]).length) =
      text ++ new ++ 0 :: b.data.drop (b.pos.toNat + (new ++ [0]).length) := by
    rw [hnat, htake]
    simp
  refine ⟨_, by simp only [FormatBuffer.print, hsize, hout, if_pos hfits]; rfl, ?_, _, hdata⟩
  constructor
  · show (b.data.take b.pos.toNat ++ (new ++ [0]) ++ _).length = cap
    rw [List.length_append, List.length_append, List.length_take, List.length_drop, ← hlength]
    omega
  · show b.pos + new.length = _
    rw [hpos, List.length_append, Nat.cast_add]
  · show (b.data.take b.pos.toNat ++ (new ++ [0]) ++ _).take _ = _
    rw [hdata, List.take_left]
  · show ((b.calls ++ [_]).map SnprintfCall.text).flatten = _
    rw [List.map_append, List.flatten_append, htexts]
    simp
  · intro call hcall
    rcases List.mem_append.mp hcall with hcall | hcall
    · exact hsafe call hcall
    · rw [List.mem_singleton.mp hcall]
      refine ⟨?_, ?_, ?_, ?_⟩
      · show 0 ≤ b.pos
        omega
      · show b.pos < cap
        omega
      · show ((cap - text.length : ℕ) : ℤ) = cap - b.pos
        omega
      · show new.length < cap - text.length
        omega

/-- The string in the array. -/
theorem FormatBuffer.Closed.str_data {text : Bytes} {b : FormatBuffer} (h : b.Closed text)
    (h0 : 0 ∉ text) : str b.data = text := by
  obtain ⟨tail, hdata⟩ := h
  rw [hdata, str_append_zero h0]

/-! ## The handler -/

/-- The loop over the students. -/
def trackerLoop : List StudentRecord → FormatBuffer → Option FormatBuffer
  | [], b => some b
  | r :: rs, b =>
    if b.pos < IPC_MAX_PAYLOAD - 24 then
      if r.IsFree then some b
      else
        match b.print IPC_MAX_PAYLOAD (trackerEntry r) with
        | none => none
        | some b => trackerLoop rs b
    else some b

/-- `CMD_GET_TRACKER`, with `resp.data` as it stands before and what is copied from the context
under its locks. -/
def getTracker (data : Buf IPC_MAX_PAYLOAD) (snap_submitted snap_total : UInt16)
    (current_hw : Buf MAX_WEEK_NAME) (snap_records : UInt32) (students : StudentTable) :
    Option FormatBuffer :=
  let snap_week := Buf.ofStr (MAX_WEEK_NAME - 1) current_hw.bytes
  match (FormatBuffer.mk data.bytes 0 []).print IPC_MAX_PAYLOAD
      (trackerLine snap_submitted snap_total snap_week.str snap_records) with
  | none => none
  | some b => trackerLoop students.records b

/-! ## What it writes -/

/-- A student is left out only when the last 24 bytes have been reached. -/
theorem fitting_append (rows : List StudentRecord) :
    ∀ pos, ∃ rest, rows = fitting pos rows ++ rest ∧
      (rest ≠ [] →
        IPC_MAX_PAYLOAD - 24 ≤ pos + ((fitting pos rows).flatMap trackerEntry).length) := by
  induction rows with
  | nil => exact fun pos => ⟨[], rfl, fun h => absurd rfl h⟩
  | cons r rows ih =>
    intro pos
    rw [fitting]
    split_ifs with hpos
    · obtain ⟨rest, heq, hrest⟩ := ih (pos + (trackerEntry r).length)
      refine ⟨rest, congrArg (r :: ·) heq, ?_⟩
      rwa [List.flatMap_cons, List.length_append, ← Nat.add_assoc]
    · refine ⟨r :: rows, rfl, ?_⟩
      intro _
      simpa using hpos

/-- The loop appends the entries of the students that fit. -/
theorem trackerLoop_eq {records rows : List StudentRecord} (h : Filled records rows) :
    ∀ (b : FormatBuffer) (text : Bytes), b.Holds IPC_MAX_PAYLOAD text → b.Closed text →
      ∃ b', trackerLoop records b = some b' ∧
        b'.Holds IPC_MAX_PAYLOAD (text ++ (fitting text.length rows).flatMap trackerEntry) ∧
        b'.Closed (text ++ (fitting text.length rows).flatMap trackerEntry) := by
  obtain ⟨free, rfl, hfree⟩ := h.split
  have hused := h.used
  clear h
  have hmax : IPC_MAX_PAYLOAD = 8192 := rfl
  -- along the rows; the first unused record ends the loop
  induction rows with
  | nil =>
    intro b text hb hclosed
    have hnothing : trackerLoop ([] ++ free) b = some b := by
      cases free with
      | nil => rfl
      | cons f free =>
        rw [List.nil_append, trackerLoop, if_pos (hfree f List.mem_cons_self)]
        split_ifs <;> rfl
    refine ⟨b, hnothing, ?_⟩
    simpa [fitting] using ⟨hb, hclosed⟩
  | cons r rows ih =>
    intro b text hb hclosed
    obtain ⟨hne, hlen⟩ := hused r List.mem_cons_self
    have hpos : b.pos < IPC_MAX_PAYLOAD - 24 ↔ text.length < IPC_MAX_PAYLOAD - 24 := by
      rw [hb.pos]
      omega
    rw [List.cons_append, trackerLoop, fitting]
    by_cases hroom : text.length < IPC_MAX_PAYLOAD - 24
    · have hentry := length_trackerEntry_le hlen
      obtain ⟨b', hprint, hb', hclosed'⟩ := hb.print (by decide) (trackerEntry r) (by omega)
      rw [if_pos (hpos.mpr hroom), if_neg (mt (isFree_iff r).mp hne), if_pos hroom, hprint]
      have hstep := ih (fun r' hr' => hused r' (List.mem_cons_of_mem _ hr')) b'
        (text ++ trackerEntry r) hb' hclosed'
      rwa [List.length_append, List.append_assoc] at hstep
    · rw [if_neg (mt hpos.mp hroom), if_neg hroom]
      refine ⟨b, rfl, ?_⟩
      simpa using ⟨hb, hclosed⟩

theorem zero_not_mem_gradeName (best : UInt8) : 0 ∉ gradeName best := by
  have hall : ∀ name ∈ [ascii "AC", ascii "WA", ascii "TLE", ascii "RE", ascii "CE", ascii "UNK"],
      0 ∉ name := by decide
  exact hall _ (gradeName_mem best)

theorem zero_not_mem_entries (rows : List StudentRecord) : 0 ∉ rows.flatMap trackerEntry := by
  have hlit : 0 ∉ ascii ":" ∧ 0 ∉ ascii "," := by decide
  intro h
  obtain ⟨r, -, hentry⟩ := List.mem_flatMap.mp h
  simp only [trackerEntry, List.mem_append] at hentry
  rcases hentry with ((hid | hcolon) | hgrade) | hcomma
  · exact ne_zero_of_mem_str hid rfl
  · exact hlit.1 hcolon
  · exact zero_not_mem_gradeName _ hgrade
  · exact hlit.2 hcomma

/-- The reply: the first line and the entries of the first students, of all of them unless the last
24 bytes have been reached. -/
structure WellFormedReply (line : Bytes) (rows : List StudentRecord) (b : FormatBuffer) : Prop where
  safe : ∀ call ∈ b.calls, call.Safe IPC_MAX_PAYLOAD
  texts : (b.calls.map SnprintfCall.text).flatten = str b.data
  length : b.data.length = IPC_MAX_PAYLOAD
  closed : Terminated b.data
  pos : b.pos = (str b.data).length
  text : ∃ listed rest, rows = listed ++ rest ∧ str b.data = line ++ listed.flatMap trackerEntry ∧
    (rest ≠ [] → IPC_MAX_PAYLOAD - 24 ≤ b.pos)

section Reply

variable {rows : List StudentRecord} {current_hw : Buf MAX_WEEK_NAME} {students : StudentTable}

/-- What stands in the buffer at the end. -/
theorem getTracker_holds (data : Buf IPC_MAX_PAYLOAD) (snap_submitted snap_total : UInt16)
    (snap_records : UInt32) {line : Bytes} (h : Filled students.records rows)
    (hweek : current_hw.str.length < MAX_WEEK_NAME)
    (hline : trackerLine snap_submitted snap_total current_hw.str snap_records = line) :
    ∃ b, getTracker data snap_submitted snap_total current_hw snap_records students = some b ∧
      b.Holds IPC_MAX_PAYLOAD (line ++ (fitting line.length rows).flatMap trackerEntry) ∧
      b.Closed (line ++ (fitting line.length rows).flatMap trackerEntry) := by
  have hcopy : (Buf.ofStr (MAX_WEEK_NAME - 1) current_hw.bytes).str = current_hw.str := by
    rw [Buf.str_ofStr]
    exact List.take_of_length_le (Nat.le_sub_one_of_lt hweek)
  have hshort : line.length < 100 := hline ▸ length_trackerLine_lt _ _ _ hweek
  have hmax : IPC_MAX_PAYLOAD = 8192 := rfl
  have hstart : (FormatBuffer.mk data.bytes 0 []).Holds IPC_MAX_PAYLOAD [] :=
    ⟨data.length_bytes, rfl, rfl, rfl, fun call hcall => nomatch hcall⟩
  obtain ⟨b, hprint, hb, hclosed⟩ := hstart.print (by decide) line (by
    rw [List.length_nil]
    omega)
  simp only [getTracker, hcopy, hline, hprint]
  exact trackerLoop_eq h b line hb hclosed

theorem zero_not_mem_reply (snap_submitted snap_total : UInt16) (snap_records : UInt32)
    (listed : List StudentRecord) :
    0 ∉ trackerLine snap_submitted snap_total current_hw.str snap_records ++
      listed.flatMap trackerEntry := by
  rw [List.mem_append]
  rintro (hline | hentries)
  · exact zero_not_mem_trackerLine _ _ (fun hmem => ne_zero_of_mem_str hmem rfl) _ hline
  · exact zero_not_mem_entries _ hentries

/-- **The reply is well formed within its buffer.** -/
theorem getTracker_wellFormed (data : Buf IPC_MAX_PAYLOAD) (snap_submitted snap_total : UInt16)
    (snap_records : UInt32) (h : Filled students.records rows)
    (hweek : current_hw.str.length < MAX_WEEK_NAME) :
    ∃ b, getTracker data snap_submitted snap_total current_hw snap_records students = some b ∧
      WellFormedReply (trackerLine snap_submitted snap_total current_hw.str snap_records) rows
        b := by
  obtain ⟨b, hb, hholds, hclosed⟩ :=
    getTracker_holds data snap_submitted snap_total snap_records h hweek rfl
  have hstr := hclosed.str_data (zero_not_mem_reply _ _ _ _)
  refine ⟨b, hb, ?_⟩
  constructor
  · exact hholds.safe
  · rw [hstr, hholds.texts]
  · exact hholds.length
  · obtain ⟨tail, hdata⟩ := hclosed
    show 0 ∈ b.data
    rw [hdata]
    simp
  · rw [hstr, hholds.pos]
  · obtain ⟨rest, hrows, hrest⟩ := fitting_append rows
      (trackerLine snap_submitted snap_total current_hw.str snap_records).length
    refine ⟨_, rest, hrows, hstr, ?_⟩
    intro hne
    have hfull := hrest hne
    rw [hholds.pos, List.length_append]
    have hmax : IPC_MAX_PAYLOAD = 8192 := rfl
    omega

end Reply

/-- The buffer holds the text of `cmdGetTracker`. -/
theorem getTracker_eq_cmdGetTracker (data : Buf IPC_MAX_PAYLOAD) (ctx : ControlContext)
    {rows : List StudentRecord} (h : Filled ctx.tracker.students.records rows)
    (hweek : ctx.hw.current_hw.str.length < MAX_WEEK_NAME) :
    ∃ b, getTracker data ctx.tracker.submitted_count ctx.tracker.total_students ctx.hw.current_hw
        ctx.csv.total_records ctx.tracker.students = some b ∧
      str b.data = (cmdGetTracker ctx).data := by
  obtain ⟨b, hb, -, hclosed⟩ := getTracker_holds data ctx.tracker.submitted_count
    ctx.tracker.total_students ctx.csv.total_records h hweek rfl
  refine ⟨b, hb, ?_⟩
  rw [reply_text ctx h hweek]
  exact hclosed.str_data (zero_not_mem_reply _ _ _ _)

/-- The reply for one student. -/
theorem getTracker_one_student :
    ∃ b, getTracker (.zero IPC_MAX_PAYLOAD) 1 30 (.ofStr 31 (ascii "week_1")) 7
        (StudentTable.zero.set 0 (StudentRecord.zero.claim (ascii "20240001"))) = some b ∧
      WellFormedReply (trackerLine 1 30 (Buf.ofStr 31 (ascii "week_1")).str 7)
        [StudentRecord.zero.claim (ascii "20240001")] b := by
  refine getTracker_wellFormed _ _ _ _ ?_ (by decide)
  have hroom : ([] : List StudentRecord).length < StudentTable.zero.records.length := by
    rw [StudentTable.length_records]
    decide
  exact filled_zero.concat hroom (by decide) (by decide)

end MiniCi
