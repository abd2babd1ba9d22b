/-
# Tables as text

A table is kept as a text of one line for each row, in which a separator stands between the
fields.  A row is added at the end of the text.  If the text so far ends with a line break, or is
empty, the table read off it is the table before and the new row (`table_append_row`), and so the
table is what has been added, in order (`table_append_render`).
-/
import MiniCi.Lines
import Mathlib.Data.List.Induction

namespace TextTable

variable {α : Type*}

/-! ## Writing and reading -/

/-- The text of a row. -/
def row (sep nl : α) (fields : List (List α)) : List α := [sep].intercalate fields ++ [nl]

/-- The text of some rows. -/
def render (sep nl : α) (rows : List (List (List α))) : List α :=
  (rows.map (row sep nl)).flatten

/-- Whatever comes next is on a line of its own. -/
def Closed (nl : α) (s : List α) : Prop := s = [] ∨ ∃ front, s = front ++ [nl]

/-- The rows read off a text. -/
def table [DecidableEq α] (sep nl : α) (s : List α) : List (List (List α)) :=
  (Lines.lines nl s).map fun l => (l.takeWhile (· ≠ nl)).splitOn sep

section

variable {sep nl : α} {s t : List α}

theorem render_concat (rows : List (List (List α))) (fields : List (List α)) :
    render sep nl (rows ++ [fields]) = render sep nl rows ++ row sep nl fields := by
  simp [render]

theorem closed_append_row (s : List α) (fields : List (List α)) :
    Closed nl (s ++ row sep nl fields) :=
  Or.inr ⟨s ++ [sep].intercalate fields, by rw [row, List.append_assoc]⟩

theorem closed_append_render (h : Closed nl s) (rows : List (List (List α))) :
    Closed nl (s ++ render sep nl rows) := by
  rcases List.eq_nil_or_concat rows with rfl | ⟨front, fields, rfl⟩
  · rwa [render, List.map_nil, List.flatten_nil, List.append_nil]
  · rw [List.concat_eq_append, render_concat, ← List.append_assoc]
    exact closed_append_row _ _

theorem not_mem_intercalate {fields : List (List α)} (hsep : sep ≠ nl)
    (h : ∀ field ∈ fields, nl ∉ field) : nl ∉ [sep].intercalate fields := by
  induction fields with
  | nil => simp [List.intercalate]
  | cons field fields ih =>
    have hfield := h field List.mem_cons_self
    have hrest := ih fun f hf => h f (List.mem_cons_of_mem _ hf)
    cases fields with
    | nil => simpa [List.intercalate] using hfield
    | cons field' fields =>
      rw [List.intercalate_cons_cons, List.mem_append, List.mem_append, List.mem_singleton]
      rintro ((hmem | heq) | hmem)
      · exact hfield hmem
      · exact hsep heq.symm
      · exact hrest hmem

variable [DecidableEq α]

/-- A line break is where the text can be cut. -/
theorem lines_append_of_closed (h : Closed nl s) (t : List α) :
    Lines.lines nl (s ++ t) = Lines.lines nl s ++ Lines.lines nl t := by
  rcases h with rfl | ⟨front, rfl⟩
  · rfl
  · induction front with
    | nil => simp [Lines.lines]
    | cons a front ih =>
      rw [List.cons_append, List.cons_append, Lines.lines, Lines.lines, ih]
      split_ifs with ha
      · rfl
      · rcases hfront : Lines.lines nl (front ++ [nl]) with _ | ⟨l, ls⟩
        · -- a text that is not empty has a line
          have hflat := Lines.flatten_lines nl (front ++ [nl])
          rw [hfront] at hflat
          simp at hflat
        · rfl

theorem lines_line (h : nl ∉ s) : Lines.lines nl (s ++ [nl]) = [s ++ [nl]] := by
  induction s with
  | nil => simp [Lines.lines]
  | cons a s ih =>
    obtain ⟨ha, hs⟩ := List.ne_and_not_mem_of_not_mem_cons h
    rw [List.cons_append, Lines.lines, if_neg (Ne.symm ha), ih hs]

theorem takeWhile_line (h : nl ∉ s) : (s ++ [nl]).takeWhile (· ≠ nl) = s := by
  have hall : ∀ a ∈ s, decide (a ≠ nl) = true :=
    fun a ha => decide_eq_true fun heq => h (heq ▸ ha)
  rw [List.takeWhile_append_of_pos hall]
  simp

/-- **A row that is added is read back.** -/
theorem table_append_row (hsep : sep ≠ nl) (hs : Closed nl s) {fields : List (List α)}
    (hne : fields ≠ []) (h : ∀ field ∈ fields, sep ∉ field ∧ nl ∉ field) :
    table sep nl (s ++ row sep nl fields) = table sep nl s ++ [fields] := by
  have hline : nl ∉ [sep].intercalate fields :=
    not_mem_intercalate hsep fun field hfield => (h field hfield).2
  rw [table, lines_append_of_closed hs, List.map_append, row, lines_line hline, List.map_singleton,
    takeWhile_line hline, List.splitOn_intercalate sep (fun field hf => (h field hf).1) hne]
  rfl

/-- **The table is what has been added.** -/
theorem table_append_render (hsep : sep ≠ nl) (hs : Closed nl s) {rows : List (List (List α))}
    (hne : ∀ fields ∈ rows, fields ≠ [])
    (h : ∀ fields ∈ rows, ∀ field ∈ fields, sep ∉ field ∧ nl ∉ field) :
    table sep nl (s ++ render sep nl rows) = table sep nl s ++ rows := by
  induction rows using List.reverseRecOn with
  | nil => simp [render]
  | append_singleton rows fields ih =>
    have hlast : fields ∈ rows ++ [fields] := List.mem_append_right _ List.mem_cons_self
    have hfront := ih (fun fs hfs => hne fs (List.mem_append_left _ hfs))
      fun fs hfs => h fs (List.mem_append_left _ hfs)
    rw [render_concat, ← List.append_assoc,
      table_append_row hsep (closed_append_render hs rows) (hne fields hlast) (h fields hlast),
      hfront, List.append_assoc]

end

end TextTable
