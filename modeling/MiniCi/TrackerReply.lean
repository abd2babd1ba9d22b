/-
# The reply to `CMD_GET_TRACKER`, read by `parse_snap`

The handler writes the students one after another until an entry would start in the last 24
bytes of the reply; `fitting` are the students it gets to, and `reply_text` is the text.

`parse_snap_reply` says what the dashboard makes of the text, for a week name and for ids
with any bytes in them that the server accepts.  The number of records is always read back;
the other two counters, and the entries, can be displaced by bytes that the parser takes for
its separators.
-/
import MiniCi.Snap

namespace MiniCi

open CStr

/-! ## The text -/

/-- The students whose entries start before the last 24 bytes, when the first one starts at
`pos`. -/
def fitting (pos : ℕ) : List StudentRecord → List StudentRecord
  | [] => []
  | r :: rs =>
    if pos < IPC_MAX_PAYLOAD - 24 then r :: fitting (pos + (trackerEntry r).length) rs else []

/-- A stored grade is one of the five. -/
def StudentRecord.Graded (r : StudentRecord) : Prop := r.best_result.toNat < 5

/-- A grade is written as one of six names. -/
theorem gradeName_mem (best : UInt8) : gradeName best ∈
    [ascii "AC", ascii "WA", ascii "TLE", ascii "RE", ascii "CE", ascii "UNK"] := by
  unfold gradeName
  rw [List.getD_eq_getElem?_getD]
  rcases hget : [ascii "AC", ascii "WA", ascii "TLE", ascii "RE", ascii "CE"][best.toNat]? with
    _ | name
  · -- beyond the end of the table
    exact List.mem_append_right [_, _, _, _, _] (List.mem_singleton_self _)
  · exact List.mem_append_left [_] (List.mem_of_getElem? hget)

theorem length_gradeName_le (best : UInt8) : (gradeName best).length ≤ 3 := by
  have hall : ∀ name ∈ [ascii "AC", ascii "WA", ascii "TLE", ascii "RE", ascii "CE", ascii "UNK"],
      name.length ≤ 3 := by decide
  exact hall _ (gradeName_mem best)

theorem length_trackerEntry_le {r : StudentRecord} (h : r.id.length < MAX_STUDENT_ID) :
    (trackerEntry r).length ≤ 20 := by
  have hgrade := length_gradeName_le r.best_result
  have hone : (ascii ":").length = 1 ∧ (ascii ",").length = 1 := by decide
  have h16 : MAX_STUDENT_ID = 16 := rfl
  have hid : r.student_id.str.length < MAX_STUDENT_ID := h
  simp only [trackerEntry, List.length_append, hone]
  omega

/-- The loop over the students appends the entries of those that fit. -/
theorem trackerEntries_eq {records rows : List StudentRecord} (h : Filled records rows) :
    ∀ data : Bytes, trackerEntries records data.length data
      = data ++ (fitting data.length rows).flatMap trackerEntry := by
  obtain ⟨free, rfl, hfree⟩ := h.split
  have hused := h.used
  clear h
  -- along the rows; the first unused record ends the loop
  induction rows with
  | nil =>
    intro data
    cases free with
    | nil => simp [trackerEntries, fitting]
    | cons f free =>
      rw [List.nil_append, trackerEntries, if_pos (hfree f List.mem_cons_self)]
      simp [fitting]
  | cons r rows ih =>
    intro data
    obtain ⟨hne, hlen⟩ := hused r List.mem_cons_self
    rw [List.cons_append, trackerEntries, fitting]
    by_cases hpos : data.length < IPC_MAX_PAYLOAD - 24
    · have hentry := length_trackerEntry_le hlen
      have hmax : IPC_MAX_PAYLOAD = 8192 := rfl
      have hfits : snprintf (IPC_MAX_PAYLOAD - data.length) (trackerEntry r) = trackerEntry r :=
        snprintf_eq_self (by omega)
      rw [if_pos hpos, if_neg (mt (isFree_iff r).mp hne), if_pos hpos, hfits, List.take_length]
      have hstep := ih (fun r' hr' => hused r' (List.mem_cons_of_mem _ hr'))
        (data ++ trackerEntry r)
      rw [List.length_append] at hstep
      rw [hstep, List.flatMap_cons, List.append_assoc]
    · rw [if_neg hpos, if_neg hpos]
      simp

theorem length_decimal16_le (x : UInt16) : (decimal x.toNat).length ≤ 5 :=
  length_decimal_le (by decide) (lt_of_lt_of_le x.toNat_lt (by decide))

theorem length_decimal32_le (x : UInt32) : (decimal x.toNat).length ≤ 10 :=
  length_decimal_le (by decide) (lt_of_lt_of_le x.toNat_lt (by decide))

/-- The first line is short. -/
theorem length_trackerLine_lt (submitted total : UInt16) {week : Bytes} (records : UInt32)
    (h : week.length < MAX_WEEK_NAME) :
    (trackerLine submitted total week records).length < 100 := by
  have hs := length_decimal16_le submitted
  have ht := length_decimal16_le total
  have hr := length_decimal32_le records
  have hlen : (ascii "submitted=").length = 10 ∧ (ascii "|total=").length = 7 ∧
      (ascii "|week=").length = 6 ∧ (ascii "|records=").length = 9 ∧ (ascii "|\n").length = 2 := by
    decide
  have h32 : MAX_WEEK_NAME = 32 := rfl
  simp only [trackerLine, List.length_append, hlen]
  omega

/-- **The reply.** -/
theorem reply_text (ctx : ControlContext) {rows : List StudentRecord}
    (h : Filled ctx.tracker.students.records rows)
    (hweek : ctx.hw.current_hw.str.length < MAX_WEEK_NAME) :
    (cmdGetTracker ctx).data =
      trackerLine ctx.tracker.submitted_count ctx.tracker.total_students ctx.hw.current_hw.str
          ctx.csv.total_records ++
        (fitting (trackerLine ctx.tracker.submitted_count ctx.tracker.total_students
          ctx.hw.current_hw.str ctx.csv.total_records).length rows).flatMap trackerEntry := by
  have hcopy : (Buf.ofStr (MAX_WEEK_NAME - 1) ctx.hw.current_hw.bytes).str
      = ctx.hw.current_hw.str := by
    rw [Buf.str_ofStr]
    exact List.take_of_length_le (Nat.le_sub_one_of_lt hweek)
  have hlen := length_trackerLine_lt ctx.tracker.submitted_count ctx.tracker.total_students
    ctx.csv.total_records hweek
  have hline : snprintf IPC_MAX_PAYLOAD (trackerLine ctx.tracker.submitted_count
      ctx.tracker.total_students ctx.hw.current_hw.str ctx.csv.total_records)
        = trackerLine ctx.tracker.submitted_count ctx.tracker.total_students
          ctx.hw.current_hw.str ctx.csv.total_records :=
    snprintf_eq_self (hlen.trans (by decide))
  simp only [cmdGetTracker, hcopy, hline]
  exact trackerEntries_eq h _

/-! ## The fields of the line -/

/-- A field without its bar. -/
def fieldText (key value : Bytes) : Bytes := key ++ equals :: value

/-- The line as its fields, each with its bar. -/
theorem trackerLine_append (submitted total : UInt16) (week : Bytes) (records : UInt32)
    (entries : Bytes) :
    trackerLine submitted total week records ++ entries
      = fieldText (ascii "submitted") (decimal submitted.toNat) ++ bar ::
        (fieldText (ascii "total") (decimal total.toNat) ++ bar ::
        (fieldText (ascii "week") week ++ bar ::
        (fieldText (ascii "records") (decimal records.toNat) ++ bar :: newline :: entries))) := by
  have hlit : ascii "submitted=" = ascii "submitted" ++ [equals] ∧
      ascii "|total=" = bar :: ascii "total" ++ [equals] ∧
      ascii "|week=" = bar :: ascii "week" ++ [equals] ∧
      ascii "|records=" = bar :: ascii "records" ++ [equals] ∧
      ascii "|\n" = [bar, newline] := by decide
  simp [trackerLine, fieldText, hlit]

/-- A field is read by its key, whatever follows its bar. -/
theorem fieldOf_append_bar {key : Bytes} (hkey : bar ∉ key) (p q : Bytes) :
    fieldOf key (p ++ bar :: q) = fieldOf key p := by
  by_cases hmem : equals ∈ p
  · rw [fieldOf, scanField, scanPair_stop_append hmem (List.mem_singleton.mpr rfl)]
    rfl
  · -- no key ends before the bar, and none that is looked for goes past it
    have hnone : fieldOf key p = none := by
      rw [Option.eq_none_iff_forall_ne_some]
      intro v hv
      obtain ⟨r, rfl, -⟩ := scanPair_eq_some.mp (fieldOf_eq_some.mp hv)
      exact hmem (List.mem_append_right _ List.mem_cons_self)
    rw [hnone, Option.eq_none_iff_forall_ne_some]
    intro v hv
    obtain ⟨r, hp, -⟩ := scanPair_eq_some.mp (fieldOf_eq_some.mp hv)
    rcases List.append_eq_append_iff.mp hp with ⟨s, rfl, hs⟩ | ⟨s, rfl, hs⟩
    · cases s with
      | nil => exact absurd (List.cons.inj hs).1 (by decide)
      | cons e s =>
        rw [List.cons_append] at hs
        exact hkey (List.mem_append_right p ((List.cons.inj hs).1 ▸ List.mem_cons_self))
    · cases s with
      | nil => exact absurd (List.cons.inj hs).1.symm (by decide)
      | cons e s =>
        rw [List.cons_append] at hs
        exact hmem (List.mem_append_right _ ((List.cons.inj hs).1 ▸ List.mem_cons_self))

/-- The field of another key is not read. -/
theorem fieldOf_fieldText_of_ne {key key' value : Bytes} (hne : key' ≠ key) (hfree : equals ∉ key')
    : fieldOf key (fieldText key' value) = none := by
  rw [Option.eq_none_iff_forall_ne_some]
  intro v hv
  obtain ⟨r, hp, -, -, hfree', -⟩ := scanPair_eq_some.mp (fieldOf_eq_some.mp hv)
  exact hne (key_unique hfree hfree' hp)

/-- The field of the key is read if it has a value. -/
theorem fieldOf_fieldText {key value : Bytes} (hkey : key ≠ []) (hlen : key.length ≤ 31)
    (hfree : equals ∉ key) (hvalue : value ≠ []) (hvlen : value.length ≤ 63) (hbar : bar ∉ value) :
    fieldOf key (fieldText key value) = some value := by
  have hvfree : ∀ c ∈ value, c ∉ [bar] := by
    intro c hc hmem
    rw [List.mem_singleton.mp hmem] at hc
    exact hbar hc
  rw [fieldOf_eq_some, scanField, fieldText, scanPair_key hkey hlen hfree,
    scanSet_all hvalue hvlen hvfree]
  rfl

/-! ## The pointers into the line -/

/-- What a text that stands behind a bar is as a field: the value behind `key=`, up to the next
bar. -/
def fieldValue (key q : Bytes) : Option Bytes :=
  let v := (q.drop (key.length + 1)).takeWhile (· ≠ bar)
  if key ++ [equals] <+: q ∧ v ≠ [] then some v else none

/-- The parser reads a short text as this field. -/
theorem fieldOf_eq_fieldValue {key q : Bytes} (hkey : key ≠ []) (hlen : key.length ≤ 31)
    (hfree : equals ∉ key) (hq : q.length ≤ 63) : fieldOf key q = fieldValue key q := by
  have hset : ∀ r : Bytes, r.takeWhile (fun c => c ∉ [bar]) = r.takeWhile (· ≠ bar) := by
    intro r
    congr 1
    funext c
    simp
  by_cases hpre : key ++ [equals] <+: q
  · obtain ⟨r, rfl⟩ := hpre
    have hr : (r.takeWhile (· ≠ bar)).length ≤ 63 := by
      have hle := (List.takeWhile_sublist (p := (· ≠ bar)) (l := r)).length_le
      rw [List.length_append] at hq
      omega
    have hdrop : (key ++ [equals] ++ r).drop (key.length + 1) = r :=
      List.drop_left' (List.length_append ..)
    have htext : key ++ [equals] ++ r = key ++ equals :: r := by simp
    have hhead : key ++ [equals] <+: key ++ [equals] ++ r := ⟨r, rfl⟩
    have hread : fieldOf key (key ++ [equals] ++ r)
        = if r.takeWhile (· ≠ bar) = [] then none else some (r.takeWhile (· ≠ bar)) := by
      rw [fieldOf, scanField, htext, scanPair_key hkey hlen hfree, scanSet_map_fst, hset,
        List.take_of_length_le hr]
      split_ifs <;> simp
    rw [hread]
    simp only [fieldValue, hdrop]
    by_cases hv : r.takeWhile (· ≠ bar) = []
    · rw [if_pos hv, if_neg fun h => h.2 hv]
    · rw [if_neg hv, if_pos ⟨hhead, hv⟩]
  · rw [fieldValue, if_neg fun h => hpre h.1, Option.eq_none_iff_forall_ne_some]
    intro v hv
    obtain ⟨r, rfl, -⟩ := scanPair_eq_some.mp (fieldOf_eq_some.mp hv)
    exact hpre ⟨r, by simp⟩

/-- The pointers of the loop over the fields that the line is read at. -/
def linePointers (data : Bytes) : List Bytes :=
  (pointers bar data).takeWhile fun p => p ≠ [] ∧ p.headD 0 ≠ newline

/-- A field of a line, at whose end the loop goes on. -/
theorem linePointers_append {p q : Bytes} (hne : p ≠ []) (hline : newline ∉ p) :
    linePointers (p ++ bar :: q)
      = (pointers bar p).map (· ++ bar :: q) ++ linePointers q := by
  have hpass : ∀ r ∈ (pointers bar p).map (· ++ bar :: q),
      decide (r ≠ [] ∧ r.headD 0 ≠ newline) = true := by
    intro r hr
    obtain ⟨r, hp, rfl⟩ := List.mem_map.mp hr
    have hmem : ∀ d ∈ r, d ∈ p := by
      rcases List.mem_cons.mp hp with rfl | hp
      · exact fun d hd => hd
      · exact mem_of_mem_behind hp
    rw [decide_eq_true_eq]
    refine ⟨by simp, ?_⟩
    cases r with
    | nil => exact fun h => absurd h (by decide : bar ≠ newline)
    | cons d r =>
      rintro rfl
      exact hline (hmem _ List.mem_cons_self)
  rw [linePointers, pointers_append, List.takeWhile_append_of_pos hpass, linePointers]

/-- The fields with a key that a line is read as. -/
def lineFields (key data : Bytes) : List Bytes := (linePointers data).filterMap (fieldOf key)

/-- They are those of its parts. -/
theorem lineFields_append {key p q : Bytes} (hkey : bar ∉ key) (hne : p ≠ [])
    (hline : newline ∉ p) :
    lineFields key (p ++ bar :: q)
      = (pointers bar p).filterMap (fieldOf key) ++ lineFields key q := by
  rw [lineFields, linePointers_append hne hline, List.filterMap_append, List.filterMap_map,
    lineFields]
  congr 2
  funext r
  exact fieldOf_append_bar hkey r q

/-- A component of the snapshot that one key sets. -/
theorem parse_snap_component {α : Type*} (component : Snap → α) (key : Bytes) (f : Bytes → α)
    (hset : ∀ out p, component (setField out p) = ((fieldOf key p).map f).getD (component out))
    (hentries : ∀ out entries, component { out with entries := entries } = component out)
    {data : Bytes} (hdata : 0 ∉ data) :
    component (parse_snap data) = ((lineFields key data).getLast?.map f).getD
      (component ⟨ascii "week_?", 0, 0, 0, []⟩) := by
  rw [lineFields, linePointers, ← foldl_setField component key f hset]
  simp only [parse_snap, str_eq_self hdata]
  rcases (behind newline data).head? with _ | p
  · rfl
  · exact hentries _ _

/-! ## The counters that are read -/

/-- A digit is none of the separators. -/
theorem ne_of_isDigit {c : UInt8} (h : IsDigit c) : c ≠ bar ∧ c ≠ newline ∧ c ≠ 0 := by
  refine ⟨?_, ?_, ?_⟩ <;>
  · rintro rfl
    revert h
    decide

theorem not_mem_fieldText {key value : Bytes} {c : UInt8} (hc : c ≠ equals) (hkey : c ∉ key)
    (hvalue : c ∉ value) : c ∉ fieldText key value := by
  rw [fieldText, List.mem_append, List.mem_cons]
  tauto

theorem pointers_fieldText {key : Bytes} (hkey : bar ∉ key) (value : Bytes) :
    pointers bar (fieldText key value) = fieldText key value :: behind bar value := by
  rw [pointers, fieldText, behind_append, behind_of_not_mem hkey, behind, if_neg (by decide)]
  rfl

theorem fieldText_ne_nil (key value : Bytes) : fieldText key value ≠ [] := by
  rw [fieldText]
  simp

/-- The keys of the line. -/
def lineKeys : List Bytes := [ascii "submitted", ascii "total", ascii "week", ascii "records"]

theorem fieldOf_otherKey {key k : Bytes} (hk : k ∈ lineKeys) (hne : k ≠ key) (value : Bytes) :
    fieldOf key (fieldText k value) = none := by
  have hfree : ∀ k ∈ lineKeys, equals ∉ k := by decide
  exact fieldOf_fieldText_of_ne hne (hfree k hk)

/-- **What the line of the reply is read as.** -/
theorem lineFields_reply {key : Bytes} (hkey : bar ∉ key) (submitted total : UInt16) {week : Bytes}
    (hweek : newline ∉ week) (records : UInt32) (entries : Bytes) :
    lineFields key (trackerLine submitted total week records ++ entries)
      = [fieldText (ascii "submitted") (decimal submitted.toNat),
          fieldText (ascii "total") (decimal total.toNat),
          fieldText (ascii "week") week].filterMap (fieldOf key) ++
        (behind bar week).filterMap (fieldOf key) ++
        [fieldText (ascii "records") (decimal records.toNat)].filterMap (fieldOf key) := by
  have hdigits : ∀ n : ℕ, bar ∉ decimal n ∧ newline ∉ decimal n := fun n =>
    ⟨fun h => (ne_of_isDigit (isDigit_of_mem_decimal h)).1 rfl,
      fun h => (ne_of_isDigit (isDigit_of_mem_decimal h)).2.1 rfl⟩
  have hkeys : ∀ k ∈ lineKeys, bar ∉ k ∧ newline ∉ k := by decide
  -- a field with a key of the line, up to its bar
  have hfield : ∀ k ∈ lineKeys, ∀ value, newline ∉ value → ∀ q,
      lineFields key (fieldText k value ++ bar :: q)
        = (fieldText k value :: behind bar value).filterMap (fieldOf key)
          ++ lineFields key q := by
    intro k hk value hvalue q
    rw [lineFields_append hkey (fieldText_ne_nil k value)
      (not_mem_fieldText (by decide) (hkeys k hk).2 hvalue), pointers_fieldText (hkeys k hk).1]
  have hend : lineFields key (newline :: entries) = [] := rfl
  rw [trackerLine_append, hfield _ (by decide) _ (hdigits _).2,
    hfield _ (by decide) _ (hdigits _).2, hfield _ (by decide) _ hweek,
    hfield _ (by decide) _ (hdigits _).2, hend,
    behind_of_not_mem (hdigits _).1, behind_of_not_mem (hdigits _).1,
    behind_of_not_mem (hdigits _).1, List.append_nil]
  simp only [List.filterMap_cons, List.filterMap_nil]
  rcases fieldOf key (fieldText (ascii "submitted") (decimal submitted.toNat)) <;>
  rcases fieldOf key (fieldText (ascii "total") (decimal total.toNat)) <;>
  rcases fieldOf key (fieldText (ascii "week") week) <;> simp

/-- The value that a week name gives to a field: that of its last part behind a bar that is
one. -/
def weekField (key week : Bytes) : Option Bytes :=
  ((behind bar week).filterMap (fieldValue key)).getLast?

/-- What a week name has behind its bars is short. -/
theorem filterMap_behind_week {key week : Bytes} (hkey : key ≠ []) (hlen : key.length ≤ 31)
    (hfree : equals ∉ key) (hweek : week.length < MAX_WEEK_NAME) :
    (behind bar week).filterMap (fieldOf key) = (behind bar week).filterMap (fieldValue key) := by
  apply List.filterMap_congr
  intro q hq
  have h32 : MAX_WEEK_NAME = 32 := rfl
  have hlt := length_lt_of_mem_behind hq
  exact fieldOf_eq_fieldValue hkey hlen hfree (by omega)

/-- A number is read back as a field. -/
theorem fieldOf_number {key : Bytes} (hkey : key ≠ []) (hlen : key.length ≤ 31)
    (hfree : equals ∉ key) {n : ℕ} (hn : (decimal n).length ≤ 10) :
    fieldOf key (fieldText key (decimal n)) = some (decimal n) := by
  apply fieldOf_fieldText hkey hlen hfree (decimal_ne_nil n) (hn.trans (by decide))
  exact fun h => (ne_of_isDigit (isDigit_of_mem_decimal h)).1 rfl

section

variable (submitted total : UInt16) {week : Bytes} (records : UInt32) {entries : Bytes}

/-- The last field with the key of a counter in front of the week name. -/
theorem getLast_lineFields {key : Bytes} (v : Bytes) (hkey : key ∈ lineKeys)
    (hweek : week.length < MAX_WEEK_NAME) (hline : newline ∉ week)
    (hfront : [fieldText (ascii "submitted") (decimal submitted.toNat),
      fieldText (ascii "total") (decimal total.toNat),
      fieldText (ascii "week") week].filterMap (fieldOf key) = [v])
    (hbehind : fieldOf key (fieldText (ascii "records") (decimal records.toNat)) = none) :
    (lineFields key (trackerLine submitted total week records ++ entries)).getLast?
      = some ((weekField key week).getD v) := by
  have hkeys : ∀ k ∈ lineKeys, bar ∉ k ∧ k ≠ [] ∧ k.length ≤ 31 ∧ equals ∉ k := by decide
  obtain ⟨hbar, hne, hlen, hfree⟩ := hkeys key hkey
  rw [lineFields_reply hbar _ _ hline, filterMap_behind_week hne hlen hfree hweek, hfront,
    List.filterMap_cons_none hbehind, List.filterMap_nil, List.append_nil, List.getLast?_append,
    weekField]
  rcases ((behind bar week).filterMap (fieldValue key)).getLast? with _ | w <;> rfl

/-- A counter in front of the week name: the number of the server, unless the week name has
another one. -/
theorem parse_snap_counter (component : Snap → UInt16) {key : Bytes} (n : UInt16)
    (hset : ∀ out p, component (setField out p)
      = ((fieldOf key p).map fun v => .ofInt (atoi v)).getD (component out))
    (hentries : ∀ out entries, component { out with entries := entries } = component out)
    (hkey : key ∈ lineKeys) (hrecords : ascii "records" ≠ key)
    (hfront : [fieldText (ascii "submitted") (decimal submitted.toNat),
      fieldText (ascii "total") (decimal total.toNat),
      fieldText (ascii "week") week].filterMap (fieldOf key) = [decimal n.toNat])
    (hweek : week.length < MAX_WEEK_NAME) (hline : newline ∉ week)
    (hdata : 0 ∉ trackerLine submitted total week records ++ entries) :
    component (parse_snap (trackerLine submitted total week records ++ entries))
      = ((weekField key week).map fun v => .ofInt (atoi v)).getD n := by
  have hbehind : fieldOf key (fieldText (ascii "records") (decimal records.toNat)) = none :=
    fieldOf_otherKey (by decide) hrecords _
  rw [parse_snap_component component key (fun v => .ofInt (atoi v)) hset hentries hdata,
    getLast_lineFields submitted total records (decimal n.toNat) hkey hweek hline hfront hbehind]
  rcases weekField key week with _ | v
  · exact ofInt_atoi_decimal16 n
  · rfl

/-- A counter is read back as a field. -/
theorem fieldOf_counter {key : Bytes} (hkey : key ≠ []) (hlen : key.length ≤ 31)
    (hfree : equals ∉ key) (n : UInt16) :
    fieldOf key (fieldText key (decimal n.toNat)) = some (decimal n.toNat) :=
  fieldOf_number hkey hlen hfree ((length_decimal16_le n).trans (by decide))

/-- `submitted`. -/
theorem parse_snap_submitted (hweek : week.length < MAX_WEEK_NAME) (hline : newline ∉ week)
    (hdata : 0 ∉ trackerLine submitted total week records ++ entries) :
    (parse_snap (trackerLine submitted total week records ++ entries)).submitted
      = ((weekField (ascii "submitted") week).map fun v => .ofInt (atoi v)).getD submitted := by
  have hown := fieldOf_counter (show ascii "submitted" ≠ [] by decide) (by decide) (by decide)
    submitted
  have hother : ∀ k ∈ lineKeys, k ≠ ascii "submitted" →
      ∀ v, fieldOf (ascii "submitted") (fieldText k v) = none := fun k => fieldOf_otherKey
  apply parse_snap_counter submitted total records Snap.submitted submitted setField_submitted
    (fun _ _ => rfl) (by decide) (by decide) ?_ hweek hline hdata
  simp [hown, hother (ascii "total") (by decide) (by decide),
    hother (ascii "week") (by decide) (by decide)]

/-- `total`. -/
theorem parse_snap_total (hweek : week.length < MAX_WEEK_NAME) (hline : newline ∉ week)
    (hdata : 0 ∉ trackerLine submitted total week records ++ entries) :
    (parse_snap (trackerLine submitted total week records ++ entries)).total
      = ((weekField (ascii "total") week).map fun v => .ofInt (atoi v)).getD total := by
  have hown := fieldOf_counter (show ascii "total" ≠ [] by decide) (by decide) (by decide) total
  have hother : ∀ k ∈ lineKeys, k ≠ ascii "total" →
      ∀ v, fieldOf (ascii "total") (fieldText k v) = none := fun k => fieldOf_otherKey
  apply parse_snap_counter submitted total records Snap.total total setField_total
    (fun _ _ => rfl) (by decide) (by decide) ?_ hweek hline hdata
  simp [hown, hother (ascii "submitted") (by decide) (by decide),
    hother (ascii "week") (by decide) (by decide)]

/-- `records`: the number of the server, which no week name can displace. -/
theorem parse_snap_csv_records (hline : newline ∉ week)
    (hdata : 0 ∉ trackerLine submitted total week records ++ entries) :
    (parse_snap (trackerLine submitted total week records ++ entries)).csv_records = records := by
  have hown : fieldOf (ascii "records") (fieldText (ascii "records") (decimal records.toNat))
      = some (decimal records.toNat) :=
    fieldOf_number (by decide) (by decide) (by decide) (length_decimal32_le records)
  rw [parse_snap_component Snap.csv_records (ascii "records") (fun v => .ofInt (atoi v))
    setField_csv_records (fun _ _ => rfl) hdata, lineFields_reply (by decide) _ _ hline,
    List.getLast?_append, List.filterMap_cons_some hown]
  exact ofInt_atoi_decimal32 records

/-- `week`: the name, if there is no bar in it. -/
theorem parse_snap_week (hne : week ≠ []) (hweek : week.length < MAX_WEEK_NAME)
    (hline : newline ∉ week) (hbar : bar ∉ week)
    (hdata : 0 ∉ trackerLine submitted total week records ++ entries) :
    (parse_snap (trackerLine submitted total week records ++ entries)).week = week := by
  have hown : fieldOf (ascii "week") (fieldText (ascii "week") week) = some week :=
    fieldOf_fieldText (by decide) (by decide) (by decide) hne
      (hweek.le.trans (by decide)) hbar
  have hother : ∀ k ∈ lineKeys, k ≠ ascii "week" →
      ∀ v, fieldOf (ascii "week") (fieldText k v) = none := fun k => fieldOf_otherKey
  rw [parse_snap_component Snap.week (ascii "week") (fun v => v.take (MAX_WEEK_NAME - 1))
    setField_week (fun _ _ => rfl) hdata,
    getLast_lineFields submitted total records week (by decide) hweek hline
      (by simp [hown, hother (ascii "submitted") (by decide) (by decide),
        hother (ascii "total") (by decide) (by decide)])
      (hother _ (by decide) (by decide) _)]
  have hnone : weekField (ascii "week") week = none := by
    rw [weekField, behind_of_not_mem hbar]
    rfl
  rw [hnone]
  exact List.take_of_length_le (Nat.le_sub_one_of_lt hweek)

end

/-! ## The entries that are read -/

/-- What a piece of an id, in front of the grade, is read as: up to the first `:` it is an id, and
at most seven bytes behind that are the name of a grade. -/
def readPiece (best : UInt8) (u : Bytes) : Option SnapEntry :=
  let sid := u.takeWhile (· ≠ colon)
  if sid = [] then none
  else if colon ∈ u then
    let gname := ((u.drop (sid.length + 1) ++ colon :: gradeName best).takeWhile
      fun c => c ∉ [comma, newline]).take 7
    if gname = [] then none else some ⟨sid, resultOf gname⟩
  else some ⟨sid, best⟩

/-- What a student's entry is read as: the id, and what stands in it behind a `,`. -/
def readings (r : StudentRecord) : List SnapEntry :=
  (pointers comma r.id).filterMap (readPiece r.best_result)

/-- A grade is written without separators, and read back. -/
theorem gradeName_spec {best : UInt8} (h : best.toNat < 5) :
    gradeName best ≠ [] ∧ (∀ c ∈ gradeName best, c ∉ [comma, newline]) ∧ 0 ∉ gradeName best ∧
      resultOf (gradeName best) = best := by
  have hall : ∀ n : Fin 5, gradeName (.ofNat n) ≠ [] ∧
      (∀ c ∈ gradeName (.ofNat n), c ∉ [comma, newline]) ∧ 0 ∉ gradeName (.ofNat n) ∧
      resultOf (gradeName (.ofNat n)) = .ofNat n := by decide +kernel
  have hbest := hall ⟨best.toNat, h⟩
  rwa [UInt8.ofNat_toNat] at hbest

/-- A piece is read up to the comma of its entry. -/
theorem scanEntry_piece {best : UInt8} (hbest : best.toNat < 5) {u : Bytes} (hu : u.length ≤ 15)
    (q : Bytes) : scanEntry (u ++ colon :: (gradeName best ++ comma :: q)) = readPiece best u := by
  obtain ⟨hne, hfree, -, hresult⟩ := gradeName_spec hbest
  have hlen := length_gradeName_le best
  have hmem : colon ∈ u ++ colon :: gradeName best :=
    List.mem_append_right _ List.mem_cons_self
  have htext : u ++ colon :: (gradeName best ++ comma :: q)
      = u ++ colon :: gradeName best ++ comma :: q := by simp
  rw [htext, scanEntry, scanPair_stop_append hmem (by simp)]
  by_cases hcolon : colon ∈ u
  · -- the id ends at a `:` of its own
    obtain ⟨sid, r, rfl, hsid⟩ := List.eq_append_cons_of_mem hcolon
    have hsidlen : sid.length ≤ 15 := by
      rw [List.length_append] at hu
      omega
    have hdrop : (sid ++ colon :: r).drop (sid.length + 1) = r := by
      rw [List.drop_append, List.drop_eq_nil_of_le (Nat.le_succ _)]
      simp
    simp only [readPiece, takeWhile_append_cons hsid, if_pos hcolon, hdrop]
    by_cases hnil : sid = []
    · subst hnil
      rw [if_pos rfl, List.nil_append, List.cons_append, scanPair_nil_key]
      rfl
    · rw [if_neg hnil, List.append_assoc, List.cons_append, scanPair_key hnil hsidlen hsid,
        scanSet_map_fst]
      split_ifs <;> rfl
  · have htake : u.takeWhile (· ≠ colon) = u := by
      rw [List.takeWhile_eq_self_iff]
      intro c hc
      rw [decide_eq_true_eq]
      rintro rfl
      exact hcolon hc
    simp only [readPiece, htake, if_neg hcolon]
    by_cases hnil : u = []
    · subst hnil
      rw [if_pos rfl, List.nil_append, scanPair_nil_key]
      rfl
    · rw [if_neg hnil, scanPair_key hnil hu hcolon, scanSet_all hne (hlen.trans (by decide)) hfree]
      simp [hresult]

/-- The text of an entry, up to its comma. -/
theorem trackerEntry_append (r : StudentRecord) (q : Bytes) :
    trackerEntry r ++ q = r.id ++ colon :: gradeName r.best_result ++ comma :: q := by
  have hlit : ascii ":" = [colon] ∧ ascii "," = [comma] := by decide
  simp [trackerEntry, StudentRecord.id, hlit]

/-- The pointers of the loop over the entries. -/
def entryPointers (p : Bytes) : List Bytes := (pointers comma p).takeWhile fun p => p ≠ []

/-- **What the entries of the reply are read as.** -/
theorem entries_reply {rows : List StudentRecord}
    (h : ∀ r ∈ rows, r.Graded ∧ r.id.length < MAX_STUDENT_ID) :
    (entryPointers (rows.flatMap trackerEntry)).filterMap scanEntry = rows.flatMap readings := by
  induction rows with
  | nil => rfl
  | cons r rows ih =>
    obtain ⟨hgraded, hlen⟩ := h r List.mem_cons_self
    have hnone : behind comma (colon :: gradeName r.best_result) = [] := by
      apply behind_of_not_mem
      rw [List.mem_cons, not_or]
      exact ⟨by decide, fun hmem => (gradeName_spec hgraded).2.1 _ hmem (by simp)⟩
    rw [List.flatMap_cons, List.flatMap_cons, ← ih fun r hr => h r (List.mem_cons_of_mem _ hr),
      trackerEntry_append, entryPointers, pointers_append]
    -- the pointers into the first entry are those into its id
    have hid : pointers comma (r.id ++ colon :: gradeName r.best_result)
        = (pointers comma r.id).map (· ++ colon :: gradeName r.best_result) := by
      rw [pointers, behind_append, hnone, List.append_nil, pointers, List.map_cons]
    have hpass : ∀ p ∈ (pointers comma (r.id ++ colon :: gradeName r.best_result)).map
        (· ++ comma :: rows.flatMap trackerEntry), decide (p ≠ []) = true := by
      intro p hp
      obtain ⟨u, -, rfl⟩ := List.mem_map.mp hp
      simp
    rw [List.takeWhile_append_of_pos hpass, List.filterMap_append, hid, List.map_map,
      List.filterMap_map, entryPointers, readings]
    congr 1
    apply List.filterMap_congr
    intro u hu
    have hulen : u.length ≤ 15 := by
      have h16 : MAX_STUDENT_ID = 16 := rfl
      rcases List.mem_cons.mp hu with rfl | hu
      · omega
      · have hlt := length_lt_of_mem_behind hu
        omega
    rw [← scanEntry_piece hgraded hulen (rows.flatMap trackerEntry)]
    simp

/-- The entries start behind the first line. -/
theorem parse_snap_entries (submitted total : UInt16) {week : Bytes} (records : UInt32)
    {rows : List StudentRecord} (hline : newline ∉ week)
    (hrows : ∀ r ∈ rows, r.Graded ∧ r.id.length < MAX_STUDENT_ID)
    (hdata : 0 ∉ trackerLine submitted total week records ++ rows.flatMap trackerEntry) :
    (parse_snap (trackerLine submitted total week records ++ rows.flatMap trackerEntry)).entries
      = (rows.flatMap readings).take 512 := by
  have hdigits : ∀ n : ℕ, newline ∉ decimal n := fun n h =>
    (ne_of_isDigit (isDigit_of_mem_decimal h)).2.1 rfl
  have hlit : newline ∉ ascii "submitted=" ∧ newline ∉ ascii "|total=" ∧
      newline ∉ ascii "|week=" ∧ newline ∉ ascii "|records=" ∧
      ascii "|\n" = [bar, newline] ∧ newline ≠ bar := by decide
  obtain ⟨hs, ht, hw, hr, hend, hbar⟩ := hlit
  have hbehind : (behind newline (trackerLine submitted total week records ++
      rows.flatMap trackerEntry)).head? = some (rows.flatMap trackerEntry) := by
    rw [trackerLine, hend, behind_append, behind_append, behind_of_not_mem]
    · simp [behind, hbar.symm]
    · simp only [List.mem_append]
      tauto
  simp only [parse_snap, str_eq_self hdata, hbehind]
  exact congrArg (List.take 512) (entries_reply hrows)

/-! ## The reply as a string -/

theorem zero_not_mem_trackerLine (submitted total : UInt16) {week : Bytes} (hweek : 0 ∉ week)
    (records : UInt32) : 0 ∉ trackerLine submitted total week records := by
  have hdigits : ∀ n : ℕ, (0 : UInt8) ∉ decimal n := fun n h =>
    (ne_of_isDigit (isDigit_of_mem_decimal h)).2.2 rfl
  have hlit : 0 ∉ ascii "submitted=" ∧ 0 ∉ ascii "|total=" ∧ 0 ∉ ascii "|week=" ∧
      0 ∉ ascii "|records=" ∧ 0 ∉ ascii "|\n" := by decide
  simp only [trackerLine, List.mem_append]
  tauto

theorem zero_not_mem_trackerEntry {r : StudentRecord} (h : r.Graded) : 0 ∉ trackerEntry r := by
  have hlit : 0 ∉ ascii ":" ∧ 0 ∉ ascii "," := by decide
  have hid : 0 ∉ r.student_id.str := fun hmem => ne_zero_of_mem_str hmem rfl
  have hgrade := (gradeName_spec h).2.2.1
  simp only [trackerEntry, List.mem_append]
  tauto

theorem mem_of_mem_fitting {n : ℕ} {rows : List StudentRecord} {r : StudentRecord}
    (hr : r ∈ fitting n rows) : r ∈ rows := by
  induction rows generalizing n with
  | nil => cases hr
  | cons r' rows ih =>
    rw [fitting] at hr
    split_ifs at hr
    · rcases List.mem_cons.mp hr with rfl | hr
      · exact List.mem_cons_self
      · exact List.mem_cons_of_mem _ (ih hr)
    · cases hr

/-! ## The snapshot -/

/-- What the handler needs of the context to write the reply as it stands above. -/
structure Reports (ctx : ControlContext) (rows : List StudentRecord) : Prop where
  filled : Filled ctx.tracker.students.records rows
  graded : ∀ r ∈ rows, r.Graded
  short : ctx.hw.current_hw.str.length < MAX_WEEK_NAME
  oneLine : newline ∉ ctx.hw.current_hw.str

/-- The first line of the reply. -/
def replyLine (ctx : ControlContext) : Bytes :=
  trackerLine ctx.tracker.submitted_count ctx.tracker.total_students ctx.hw.current_hw.str
    ctx.csv.total_records

/-- The students in the reply. -/
def inReply (ctx : ControlContext) (rows : List StudentRecord) : List StudentRecord :=
  fitting (replyLine ctx).length rows

section

variable {ctx : ControlContext} {rows : List StudentRecord}

theorem Reports.data (h : Reports ctx rows) :
    (cmdGetTracker ctx).data = replyLine ctx ++ (inReply ctx rows).flatMap trackerEntry :=
  reply_text ctx h.filled h.short

theorem Reports.zero_not_mem (h : Reports ctx rows) :
    0 ∉ replyLine ctx ++ (inReply ctx rows).flatMap trackerEntry := by
  rw [List.mem_append, List.mem_flatMap]
  rintro (hline | ⟨r, hr, hentry⟩)
  · exact zero_not_mem_trackerLine _ _ (fun hmem => ne_zero_of_mem_str hmem rfl) _ hline
  · exact zero_not_mem_trackerEntry (h.graded r (mem_of_mem_fitting hr)) hentry

/-- **The snapshot that is read off the reply.** -/
theorem parse_snap_reply (h : Reports ctx rows) :
    (parse_snap (cmdGetTracker ctx).data).submitted
        = ((weekField (ascii "submitted") ctx.hw.current_hw.str).map
          fun v => .ofInt (atoi v)).getD ctx.tracker.submitted_count ∧
      (parse_snap (cmdGetTracker ctx).data).total
        = ((weekField (ascii "total") ctx.hw.current_hw.str).map
          fun v => .ofInt (atoi v)).getD ctx.tracker.total_students ∧
      (parse_snap (cmdGetTracker ctx).data).csv_records = ctx.csv.total_records ∧
      (parse_snap (cmdGetTracker ctx).data).entries
        = ((inReply ctx rows).flatMap readings).take 512 := by
  have hdata := h.zero_not_mem
  rw [h.data]
  refine ⟨parse_snap_submitted _ _ _ h.short h.oneLine hdata,
    parse_snap_total _ _ _ h.short h.oneLine hdata,
    parse_snap_csv_records _ _ _ h.oneLine hdata, ?_⟩
  refine parse_snap_entries _ _ _ h.oneLine (fun r hr => ?_) hdata
  have hr := mem_of_mem_fitting hr
  exact ⟨h.graded r hr, (h.filled.used r hr).2⟩

end

end MiniCi
