/-
# The snapshot of the dashboard (`minici-tui.c`)

`parse_snap` reads the reply to `CMD_GET_TRACKER`: a line of `key=value|` fields and behind
it `id:grade,` entries.  It goes from one `|` to the next, and from one `,` to the next, and
scans at each.

Nothing in the text tells a separator from the same byte inside a value.  So
`parse_snap_reply` gives the snapshot for a week name and ids with any bytes in them: each `|`
in the name starts a field (`fieldValue`), each `,` in an id an entry (`readPiece`).
-/
import MiniCi.Control
import MiniCi.Gradebook
import MiniCi.Scan

namespace MiniCi

open CStr

/-! ## The source -/

/-- `isalnum`, for bytes below 128; the others are no letters in a locale with UTF-8. -/
def IsAlnum (c : UInt8) : Prop := IsDigit c ∨ 65 ≤ c ∧ c ≤ 90 ∨ 97 ≤ c ∧ c ≤ 122

instance (c : UInt8) : Decidable (IsAlnum c) := inferInstanceAs (Decidable (_ ∨ _ ∨ _))

/-- A byte of a week name: a letter, a digit, `_` or `-`. -/
def IsWeekByte (c : UInt8) : Prop := IsAlnum c ∨ c = 95 ∨ c = 45

instance (c : UInt8) : Decidable (IsWeekByte c) := inferInstanceAs (Decidable (_ ∨ _ ∨ _))

/-- `tui_valid_week_name`. -/
def tui_valid_week_name (s : Bytes) : Prop :=
  (str s).length ≠ 0 ∧ (str s).length < MAX_WEEK_NAME ∧ ∀ c ∈ str s, IsWeekByte c

instance (s : Bytes) : Decidable (tui_valid_week_name s) :=
  have : Decidable (∀ c ∈ str s, IsWeekByte c) := List.decidableBAll _ _
  inferInstanceAs (Decidable (_ ∧ _ ∧ _))

/-- One of the `entries` of a `Snap`. -/
structure SnapEntry where
  id : Bytes
  result : UInt8
  deriving DecidableEq

/-- `Snap`; the list has the first `entry_count` entries. -/
structure Snap where
  week : Bytes
  submitted : UInt16
  total : UInt16
  csv_records : UInt32
  entries : List SnapEntry
  deriving DecidableEq

/-- `'|'`. -/
def bar : UInt8 := 124

/-- `'='`. -/
def equals : UInt8 := 61

/-- `':'`. -/
def colon : UInt8 := 58

/-- `sscanf(p, "%31[^=]=%63[^|]|", k, v)`. -/
def scanField (p : Bytes) : Option (Bytes × Bytes) := scanPair 31 equals 63 [bar] p

/-- The loop over the fields, at the pointer `p`. -/
def setField (out : Snap) (p : Bytes) : Snap :=
  match scanField p with
  | none => out
  | some (k, v) =>
    if k = ascii "submitted" then { out with submitted := .ofInt (atoi v) }
    else if k = ascii "total" then { out with total := .ofInt (atoi v) }
    else if k = ascii "week" then { out with week := v.take (MAX_WEEK_NAME - 1) }
    else if k = ascii "records" then { out with csv_records := .ofInt (atoi v) }
    else out

/-- The names of the grades, in the order of their codes. -/
def gn : List Bytes := [ascii "AC", ascii "WA", ascii "TLE", ascii "RE", ascii "CE"]

/-- The index of the name in `gn`, and `1` for any other one. -/
def resultOf (gname : Bytes) : UInt8 := (gn.idxOf? gname).elim 1 UInt8.ofNat

/-- The loop over the entries, at the pointer `p`: `sscanf(p, "%15[^:]:%7[^,\n]", sid, gname)`. -/
def scanEntry (p : Bytes) : Option SnapEntry :=
  (scanPair 15 colon 7 [comma, newline] p).map fun (sid, gname) => ⟨sid, resultOf gname⟩

/-- `parse_snap`. -/
def parse_snap (data : Bytes) : Snap :=
  let data := str data
  let out : Snap :=
    { week := ascii "week_?", submitted := 0, total := 0, csv_records := 0, entries := [] }
  let ps := (pointers bar data).takeWhile fun p => p ≠ [] ∧ p.headD 0 ≠ newline
  let out := ps.foldl setField out
  -- `strchr(data, '\n')`
  match (behind newline data).head? with
  | none => out
  | some p =>
    { out with
      entries := (((pointers comma p).takeWhile fun p => p ≠ []).filterMap scanEntry).take 512 }

/-! ## Fields -/

/-- The value that is read at a pointer, if it is one for this key. -/
def fieldOf (key p : Bytes) : Option Bytes :=
  (scanField p).bind fun (k, v) => if k = key then some v else none

theorem fieldOf_eq_some {key p v : Bytes} :
    fieldOf key p = some v ↔ scanField p = some (key, v) := by
  unfold fieldOf
  rcases scanField p with _ | ⟨k, w⟩
  · simp
  · by_cases hk : k = key
    · simp [hk]
    · simp [hk]

/-- A component that each field with the key sets, and no other one, is that of the last such
field. -/
theorem foldl_setField {α : Type*} (component : Snap → α) (key : Bytes) (f : Bytes → α)
    (hset : ∀ out p, component (setField out p) = ((fieldOf key p).map f).getD (component out))
    (ps : List Bytes) (out : Snap) :
    component (ps.foldl setField out)
      = ((ps.filterMap (fieldOf key)).getLast?.map f).getD (component out) := by
  induction ps using List.reverseRecOn with
  | nil => rfl
  | append_singleton ps p ih =>
    rw [List.foldl_append, List.foldl_cons, List.foldl_nil, hset, List.filterMap_append]
    rcases hfield : fieldOf key p with _ | v
    · simpa [hfield] using ih
    · simp [hfield]

theorem setField_submitted (out : Snap) (p : Bytes) :
    (setField out p).submitted
      = ((fieldOf (ascii "submitted") p).map fun v => .ofInt (atoi v)).getD out.submitted := by
  unfold setField fieldOf
  rcases scanField p with _ | ⟨k, v⟩
  · rfl
  · by_cases hk : k = ascii "submitted"
    · simp [hk]
    · simp only [if_neg hk, Option.bind_some]
      split_ifs <;> rfl

theorem setField_total (out : Snap) (p : Bytes) :
    (setField out p).total
      = ((fieldOf (ascii "total") p).map fun v => .ofInt (atoi v)).getD out.total := by
  have hne : ascii "total" ≠ ascii "submitted" := by decide
  unfold setField fieldOf
  rcases scanField p with _ | ⟨k, v⟩
  · rfl
  · by_cases hk : k = ascii "total"
    · simp [hk, hne]
    · simp only [if_neg hk, Option.bind_some]
      split_ifs <;> rfl

theorem setField_week (out : Snap) (p : Bytes) :
    (setField out p).week
      = ((fieldOf (ascii "week") p).map fun v => v.take (MAX_WEEK_NAME - 1)).getD out.week := by
  have hne : ascii "week" ≠ ascii "submitted" ∧ ascii "week" ≠ ascii "total" := by decide
  unfold setField fieldOf
  rcases scanField p with _ | ⟨k, v⟩
  · rfl
  · by_cases hk : k = ascii "week"
    · simp [hk, hne.1, hne.2]
    · simp only [if_neg hk, Option.bind_some]
      split_ifs <;> rfl

theorem setField_csv_records (out : Snap) (p : Bytes) :
    (setField out p).csv_records
      = ((fieldOf (ascii "records") p).map fun v => .ofInt (atoi v)).getD out.csv_records := by
  have hne : ascii "records" ≠ ascii "submitted" ∧ ascii "records" ≠ ascii "total" ∧
      ascii "records" ≠ ascii "week" := by decide
  unfold setField fieldOf
  rcases scanField p with _ | ⟨k, v⟩
  · rfl
  · by_cases hk : k = ascii "records"
    · simp [hk, hne.1, hne.2.1, hne.2.2]
    · simp only [if_neg hk, Option.bind_some]
      split_ifs <;> rfl

end MiniCi
