/-
# Reading lines through a buffer

A line ends with a newline, which belongs to it; only the last line may lack it.  `fgets` reads a
line that fits into its buffer as a whole.  A longer one comes in pieces of the size of the
buffer, one for each call, and no piece tells that it is not the start of a line
(`reads_pieces`).  A loop that reads until a piece is acceptable ends with the first such piece,
wherever in its line it starts (`first_iff`).
-/
import Mathlib.Data.List.Basic
import Mathlib.Data.Nat.Find

namespace Lines

variable {α : Type*}

/-! ## Where a text is cut -/

theorem length_flatten_le {ls ls' : List (List α)} (h : ls <:+ ls') :
    ls.flatten.length ≤ ls'.flatten.length := by
  obtain ⟨front, rfl⟩ := h
  rw [List.flatten_append, List.length_append]
  omega

/-- The line in which a text is cut depends on how much there is behind the cut. -/
theorem line_unique {l l' : List α} {pre post pre' post' : List (List α)} {m : ℕ}
    (h : pre ++ l :: post = pre' ++ l' :: post')
    (hle : post.flatten.length ≤ m) (hlt : m < (l :: post).flatten.length)
    (hle' : post'.flatten.length ≤ m) (hlt' : m < (l' :: post').flatten.length) : l = l' := by
  have hsuffix : l' :: post' <:+ pre ++ l :: post := h ▸ List.suffix_append pre' _
  rcases List.suffix_or_suffix_of_suffix (List.suffix_append pre (l :: post)) hsuffix with hs | hs
  · rcases List.suffix_cons_iff.mp hs with heq | hpost
    · exact (List.cons.inj heq).1
    · have := length_flatten_le hpost
      omega
  · rcases List.suffix_cons_iff.mp hs with heq | hpost
    · exact (List.cons.inj heq).1.symm
    · have := length_flatten_le hpost
      omega

/-! ## Definitions -/

variable [DecidableEq α]

/-- Up to the first newline, which is taken along. -/
def upTo (nl : α) : List α → List α
  | [] => []
  | a :: s => if a = nl then [a] else a :: upTo nl s

/-- The lines of a text. -/
def lines (nl : α) : List α → List (List α)
  | [] => []
  | a :: s =>
    if a = nl then [a] :: lines nl s
    else
      match lines nl s with
      | [] => [[a]]
      | l :: ls => (a :: l) :: ls

/-- `fgets` into a buffer of `n` elements, the last of which is for the NUL: what it reads, and
what is left.  `none` is the end of the file. -/
def fgets (nl : α) (n : ℕ) (s : List α) : Option (List α × List α) :=
  if s = [] then none
  else
    let got := (upTo nl s).take (n - 1)
    some (got, s.drop got.length)

/-- Calls of `fgets`, one after the other: from `s`, the pieces they read, what is left. -/
inductive Reads (nl : α) (n : ℕ) : List α → List (List α) → List α → Prop
  | nil (s : List α) : Reads nl n s [] s
  | cons {s p s' t : List α} {ps : List (List α)} :
      fgets nl n s = some (p, s') → Reads nl n s' ps t → Reads nl n s (p :: ps) t

/-- Reading until a piece is acceptable: from `s`, the piece, what is left. -/
inductive First (nl : α) (n : ℕ) (ok : List α → Prop) : List α → List α → List α → Prop
  | here {s p t : List α} : fgets nl n s = some (p, t) → ok p → First nl n ok s p t
  | later {s p s' q t : List α} :
      fgets nl n s = some (p, s') → ¬ ok p → First nl n ok s' q t → First nl n ok s q t

/-- The `j`-th piece of a line of which `k` elements are read at a time. -/
def piece (k : ℕ) (l : List α) (j : ℕ) : List α := (l.drop (j * k)).take k

variable {nl : α} {n : ℕ} {s l : List α} {ls pre post : List (List α)}

/-! ## Lines -/

theorem upTo_isPrefix (nl : α) (s : List α) : upTo nl s <+: s := by
  induction s with
  | nil => exact List.nil_prefix
  | cons a s ih =>
    rw [upTo]
    split_ifs with ha
    · exact ⟨s, rfl⟩
    · exact List.prefix_cons_inj a |>.mpr ih

theorem upTo_ne_nil (h : s ≠ []) : upTo nl s ≠ [] := by
  cases s with
  | nil => exact absurd rfl h
  | cons a s =>
    rw [upTo]
    split_ifs <;> exact List.cons_ne_nil _ _

/-- Inside the line its end is where it was. -/
theorem upTo_drop {k : ℕ} (h : k < (upTo nl s).length) :
    upTo nl (s.drop k) = (upTo nl s).drop k := by
  induction s generalizing k with
  | nil => simp [upTo] at h
  | cons a s ih =>
    cases k with
    | zero => rfl
    | succ k =>
      rw [upTo] at h ⊢
      split_ifs at h ⊢ with ha
      · simp at h
      · rw [List.drop_succ_cons, List.drop_succ_cons]
        exact ih (Nat.lt_of_succ_lt_succ h)

/-- The first line, and the lines of the rest. -/
theorem lines_eq (h : s ≠ []) :
    lines nl s = upTo nl s :: lines nl (s.drop (upTo nl s).length) := by
  induction s with
  | nil => exact absurd rfl h
  | cons a s ih =>
    rw [lines, upTo]
    split_ifs with ha
    · rfl
    · rcases s with _ | ⟨b, s⟩
      · rfl
      · rw [ih (List.cons_ne_nil b s)]
        rfl

/-- **The lines are all of the text.** -/
theorem flatten_lines (nl : α) (s : List α) : (lines nl s).flatten = s := by
  induction s with
  | nil => rfl
  | cons a s ih =>
    rw [lines]
    split_ifs with ha
    · rw [List.flatten_cons, ih]
      rfl
    · rcases hs : lines nl s with _ | ⟨l, ls⟩
      · rw [hs] at ih
        rw [← ih]
        rfl
      · rw [hs] at ih
        rw [← ih]
        rfl

/-- What a line and the lines behind it are, read off the text. -/
theorem of_lines_eq_cons (h : lines nl s = l :: ls) :
    upTo nl s = l ∧ s.drop l.length = ls.flatten ∧ lines nl ls.flatten = ls ∧ l ≠ [] := by
  have hne : s ≠ [] := by
    rintro rfl
    cases h
  rw [lines_eq hne] at h
  obtain ⟨hl, hls⟩ := List.cons.inj h
  rw [hl] at hls
  have hdrop : s.drop l.length = ls.flatten := by rw [← hls, flatten_lines]
  exact ⟨hl, hdrop, by rw [← hdrop, hls], hl ▸ upTo_ne_nil hne⟩

/-- The lines behind some lines are the lines of what is left. -/
theorem lines_flatten_of_append (h : lines nl s = pre ++ ls) : lines nl ls.flatten = ls := by
  induction pre generalizing s with
  | nil =>
    rw [List.nil_append] at h
    rw [← h, flatten_lines]
  | cons l pre ih =>
    obtain ⟨-, -, hrest, -⟩ := of_lines_eq_cons h
    exact ih hrest

/-! ## What `fgets` reads -/

theorem fgets_of_ne_nil (h : s ≠ []) : fgets nl n s =
    some ((upTo nl s).take (n - 1), s.drop ((upTo nl s).take (n - 1)).length) :=
  if_neg h

theorem Reads.snoc {p t t' : List α} {ps : List (List α)} (h : Reads nl n s ps t)
    (hp : fgets nl n t = some (p, t')) : Reads nl n s (ps ++ [p]) t' := by
  induction h with
  | nil s => exact .cons hp (.nil t')
  | cons hfirst _ ih => exact .cons hfirst (ih hp)

/-- A call in the middle of the line. -/
theorem fgets_drop {k : ℕ} (h : k < (upTo nl s).length) : fgets nl n (s.drop k) =
    some (((upTo nl s).drop k).take (n - 1), s.drop (min (k + (n - 1)) (upTo nl s).length)) := by
  have hle : (upTo nl s).length ≤ s.length := (upTo_isPrefix nl s).length_le
  have hne : s.drop k ≠ [] := by
    rw [Ne, List.drop_eq_nil_iff]
    omega
  have hpos : k + (((upTo nl s).drop k).take (n - 1)).length =
      min (k + (n - 1)) (upTo nl s).length := by
    rw [List.length_take, List.length_drop]
    omega
  rw [fgets_of_ne_nil hne, upTo_drop h, List.drop_drop, hpos]

/-- **A line comes in pieces**, of which all but the first start in the middle of it. -/
theorem reads_pieces {i : ℕ} (hi : ∀ j < i, j * (n - 1) < (upTo nl s).length) :
    Reads nl n s ((List.range i).map (piece (n - 1) (upTo nl s)))
      (s.drop (min (i * (n - 1)) (upTo nl s).length)) := by
  induction i with
  | zero => simpa using Reads.nil s
  | succ i ih =>
    have hlt : i * (n - 1) < (upTo nl s).length := hi i (Nat.lt_succ_self i)
    have hprev := ih fun j hj => hi j (Nat.lt_succ_of_lt hj)
    rw [Nat.min_eq_left (Nat.le_of_lt hlt)] at hprev
    rw [List.range_succ, List.map_append, List.map_singleton, Nat.succ_mul]
    exact hprev.snoc (fgets_drop hlt)

/-- All of a line has come after some calls, each of which still found some of it. -/
theorem exists_calls {k m : ℕ} (hk : 0 < k) : ∃ i, (∀ j < i, j * k < m) ∧ m ≤ i * k := by
  induction m with
  | zero => exact ⟨0, fun j hj => absurd hj (Nat.not_lt_zero j), Nat.zero_le _⟩
  | succ m ih =>
    obtain ⟨i, hlt, hle⟩ := ih
    rcases Nat.lt_or_ge m (i * k) with h | h
    · exact ⟨i, fun j hj => Nat.lt_succ_of_lt (hlt j hj), h⟩
    · refine ⟨i + 1, fun j hj => ?_, ?_⟩
      · have hle' : j * k ≤ i * k := Nat.mul_le_mul_right k (Nat.le_of_lt_succ hj)
        omega
      · rw [Nat.succ_mul]
        omega

/-! ## Reading until a piece is acceptable -/

section First

variable {ok : List α → Prop} {p t p' t' : List α} {ps : List (List α)}

/-- One round of the loop. -/
theorem first_of_read (hread : fgets nl n s = some (p, t)) :
    First nl n ok s p' t' ↔ ok p ∧ p' = p ∧ t' = t ∨ ¬ ok p ∧ First nl n ok t p' t' := by
  constructor
  · intro h
    cases h with
    | here hread' hok =>
      rw [hread] at hread'
      obtain ⟨rfl, rfl⟩ := Prod.mk.inj (Option.some.inj hread')
      exact .inl ⟨hok, rfl, rfl⟩
    | later hread' hok hlater =>
      rw [hread] at hread'
      obtain ⟨rfl, rfl⟩ := Prod.mk.inj (Option.some.inj hread')
      exact .inr ⟨hok, hlater⟩
  · rintro (⟨hok, rfl, rfl⟩ | ⟨hok, hlater⟩)
    · exact .here hread hok
    · exact .later hread hok hlater

/-- The loop has one outcome. -/
theorem First.unique (h : First nl n ok s p t) (h' : First nl n ok s p' t') :
    p = p' ∧ t = t' := by
  induction h with
  | here hread hok =>
    rcases (first_of_read hread).mp h' with ⟨-, rfl, rfl⟩ | ⟨hok', -⟩
    · exact ⟨rfl, rfl⟩
    · exact absurd hok hok'
  | later hread hok _ ih =>
    rcases (first_of_read hread).mp h' with ⟨hok', -, -⟩ | ⟨-, hlater⟩
    · exact absurd hok' hok
    · exact ih hlater

theorem First.accepted (h : First nl n ok s p t) : ok p := by
  induction h with
  | here _ hok => exact hok
  | later _ _ _ ih => exact ih

/-- At the end of the file there is no piece any more. -/
theorem not_first_nil : ¬ First nl n ok [] p t := by
  rintro (⟨hread, -⟩ | ⟨hread, -, -⟩) <;> cases hread

/-- Pieces that are not acceptable are passed over. -/
theorem first_of_reads (h : Reads nl n s ps t) (hps : ∀ p ∈ ps, ¬ ok p) :
    First nl n ok s p t' ↔ First nl n ok t p t' := by
  induction h with
  | nil s => exact Iff.rfl
  | cons hread _ ih =>
    rw [List.forall_mem_cons] at hps
    rw [first_of_read hread, ← ih hps.2]
    constructor
    · rintro (⟨hok, -, -⟩ | ⟨-, hlater⟩)
      · exact absurd hok hps.1
      · exact hlater
    · exact fun hlater => .inr ⟨hps.1, hlater⟩

/-- No piece of the line is acceptable. -/
def PassedOver (ok : List α → Prop) (k : ℕ) (l : List α) : Prop :=
  ∀ j, j * k < l.length → ¬ ok (piece k l j)

/-- A line without an acceptable piece is passed over. -/
theorem first_of_passedOver (hn : 1 < n) (hl : lines nl s = l :: ls) (h : PassedOver ok (n - 1) l) :
    First nl n ok s p t ↔ First nl n ok ls.flatten p t := by
  obtain ⟨rfl, hdrop, -, -⟩ := of_lines_eq_cons hl
  obtain ⟨i, hlt, hle⟩ := exists_calls (m := (upTo nl s).length) (Nat.sub_pos_of_lt hn)
  have hreads := reads_pieces hlt
  rw [Nat.min_eq_right hle, hdrop] at hreads
  apply first_of_reads hreads
  intro p hp
  obtain ⟨j, hj, rfl⟩ := List.mem_map.mp hp
  exact h j (hlt j (List.mem_range.mp hj))

theorem first_of_lines_passedOver (hn : 1 < n) (hl : lines nl s = pre ++ ls)
    (h : ∀ l ∈ pre, PassedOver ok (n - 1) l) :
    First nl n ok s p t ↔ First nl n ok ls.flatten p t := by
  induction pre generalizing s with
  | nil =>
    rw [List.nil_append] at hl
    rw [← hl, flatten_lines]
  | cons l pre ih =>
    rw [List.forall_mem_cons] at h
    rw [first_of_passedOver hn hl h.1]
    obtain ⟨-, -, hrest, -⟩ := of_lines_eq_cons hl
    exact ih hrest h.2

/-- The first acceptable piece of the text: of which line, and where in it. -/
structure IsFirst (nl : α) (n : ℕ) (ok : List α → Prop) (s : List α) (pre : List (List α))
    (l : List α) (post : List (List α)) (i : ℕ) : Prop where
  lines_eq : lines nl s = pre ++ l :: post
  before : ∀ l' ∈ pre, PassedOver ok (n - 1) l'
  inside : i * (n - 1) < l.length
  sooner : ∀ j < i, ¬ ok (piece (n - 1) l j)
  ok : ok (piece (n - 1) l i)

/-- The loop ends with it. -/
theorem IsFirst.first {i : ℕ} (hn : 1 < n) (h : IsFirst nl n ok s pre l post i) :
    First nl n ok s (piece (n - 1) l i) (l.drop ((i + 1) * (n - 1)) ++ post.flatten) := by
  rw [first_of_lines_passedOver hn h.lines_eq h.before]
  have hrest := lines_flatten_of_append h.lines_eq
  obtain ⟨hl, hdrop, -, hne⟩ := of_lines_eq_cons hrest
  have hinside := h.inside
  have hlt : ∀ j < i, j * (n - 1) < (upTo nl (l :: post).flatten).length := by
    intro j hj
    rw [hl]
    exact Nat.lt_of_le_of_lt (Nat.mul_le_mul_right _ (Nat.le_of_lt hj)) hinside
  have hreads := reads_pieces (n := n) hlt
  rw [hl, Nat.min_eq_left (Nat.le_of_lt hinside)] at hreads
  have hpass : ∀ p ∈ (List.range i).map (piece (n - 1) l), ¬ ok p := by
    intro p hp
    obtain ⟨j, hj, rfl⟩ := List.mem_map.mp hp
    exact h.sooner j (List.mem_range.mp hj)
  have hread := fgets_drop (n := n) (hl.symm ▸ hinside)
  rw [hl] at hread
  have hleft : (l :: post).flatten.drop (min (i * (n - 1) + (n - 1)) l.length) =
      l.drop ((i + 1) * (n - 1)) ++ post.flatten := by
    rw [List.flatten_cons, List.drop_append_of_le_length (Nat.min_le_right _ _), Nat.succ_mul]
    rcases Nat.le_total (i * (n - 1) + (n - 1)) l.length with hle | hle
    · rw [Nat.min_eq_left hle]
    · rw [Nat.min_eq_right hle, List.drop_length, List.drop_of_length_le hle]
  rw [first_of_reads hreads hpass, ← hleft]
  exact .here hread h.ok

/-- If there is an acceptable piece there is a first one. -/
theorem exists_isFirst (h : ∃ l ∈ lines nl s, ¬ PassedOver ok (n - 1) l) :
    ∃ pre l post i, IsFirst nl n ok s pre l post i := by
  classical
  obtain ⟨l₀, hmem, hl₀⟩ := h
  have hsome : ((lines nl s).find? fun l => ¬ PassedOver ok (n - 1) l).isSome := by
    rw [List.find?_isSome]
    exact ⟨l₀, hmem, decide_eq_true hl₀⟩
  obtain ⟨l, hfind⟩ := Option.isSome_iff_exists.mp hsome
  obtain ⟨hl, pre, post, heq, hpre⟩ := List.find?_eq_some_iff_append.mp hfind
  have hex : ∃ i, i * (n - 1) < l.length ∧ ok (piece (n - 1) l i) := by
    have hnot := of_decide_eq_true hl
    unfold PassedOver at hnot
    push Not at hnot
    exact hnot
  refine ⟨pre, l, post, Nat.find hex, heq, ?_, (Nat.find_spec hex).1, ?_, (Nat.find_spec hex).2⟩
  · intro l' hl'
    simpa using hpre l' hl'
  · intro j hj hok
    have hle : j * (n - 1) ≤ Nat.find hex * (n - 1) := Nat.mul_le_mul_right _ (Nat.le_of_lt hj)
    exact Nat.find_min hex hj ⟨Nat.lt_of_le_of_lt hle (Nat.find_spec hex).1, hok⟩

/-- **The loop ends with the first acceptable piece**, and with what is behind it in its line and
the lines behind that left to read. -/
theorem first_iff (hn : 1 < n) : First nl n ok s p t ↔
    ∃ pre l post i, IsFirst nl n ok s pre l post i ∧ p = piece (n - 1) l i ∧
      t = l.drop ((i + 1) * (n - 1)) ++ post.flatten := by
  constructor
  · intro h
    have hex : ∃ l ∈ lines nl s, ¬ PassedOver ok (n - 1) l := by
      by_contra hnone
      push Not at hnone
      have hall : lines nl s = lines nl s ++ [] := (List.append_nil _).symm
      rw [first_of_lines_passedOver hn hall hnone] at h
      exact not_first_nil h
    obtain ⟨pre, l, post, i, hfirst⟩ := exists_isFirst hex
    obtain ⟨hp, ht⟩ := h.unique (hfirst.first hn)
    exact ⟨pre, l, post, i, hfirst, hp, ht⟩
  · rintro ⟨pre, l, post, i, hfirst, rfl, rfl⟩
    exact hfirst.first hn

end First

end Lines
