/-
# Words and white space

The words of a list are what is left between its separators.  Set side by side they are the
list without the separators (`flatten_words`), and that is all that inserting and deleting
separators leaves of it (`respaced_iff`).  The words themselves say more: they are determined by
what is left and their lengths (`words_eq_iff`).
-/
import Mathlib.Data.List.Basic
import Mathlib.Logic.Relation

namespace Words

variable {α : Type*} {p : α → Bool} {l l' : List α}

/-- What is not a separator. -/
def visible (p : α → Bool) (l : List α) : List α := l.filter fun a => !p a

/-- The nonempty pieces between the separators. -/
def words (p : α → Bool) (l : List α) : List (List α) :=
  (l.splitOnP p).filter fun w => !w.isEmpty

/-- One separator more. -/
inductive Inserted (p : α → Bool) : List α → List α → Prop
  | mk (l r : List α) {a : α} : p a = true → Inserted p (l ++ r) (l ++ a :: r)

/-- Separators are inserted and deleted anywhere. -/
def Respaced (p : α → Bool) : List α → List α → Prop := Relation.EqvGen (Inserted p)

/-! ## What separators leave -/

@[simp] theorem visible_nil : visible p [] = [] := rfl

theorem visible_cons_of_sep {a : α} (h : p a = true) (l : List α) :
    visible p (a :: l) = visible p l := by
  simp [visible, h]

theorem visible_cons_of_not_sep {a : α} (h : p a = false) (l : List α) :
    visible p (a :: l) = a :: visible p l := by
  simp [visible, h]

theorem Inserted.visible_eq (h : Inserted p l l') : visible p l = visible p l' := by
  cases h with
  | mk l r ha => simp [visible, ha]

/-- A separator in front of both. -/
theorem Respaced.cons (h : Respaced p l l') (a : α) : Respaced p (a :: l) (a :: l') := by
  induction h with
  | rel l l' h =>
    cases h with
    | mk l r ha => exact .rel _ _ (.mk (a :: l) r ha)
  | refl l => exact .refl _
  | symm l l' _ ih => exact ih.symm
  | trans l₁ l₂ l₃ _ _ ih ih' => exact ih.trans _ _ _ ih'

/-- All separators can be deleted. -/
theorem respaced_visible (p : α → Bool) (l : List α) : Respaced p (visible p l) l := by
  induction l with
  | nil => exact .refl _
  | cons a l ih =>
    cases ha : p a with
    | true =>
      rw [visible_cons_of_sep ha]
      exact ih.trans _ _ _ (.rel _ _ (.mk [] l ha))
    | false =>
      rw [visible_cons_of_not_sep ha]
      exact ih.cons a

/-- **Two lists differ by separators only iff the same is left of them.** -/
theorem respaced_iff : Respaced p l l' ↔ visible p l = visible p l' := by
  constructor
  · intro h
    induction h with
    | rel l l' h => exact h.visible_eq
    | refl l => rfl
    | symm l l' _ ih => exact ih.symm
    | trans l₁ l₂ l₃ _ _ ih ih' => exact ih.trans ih'
  · intro h
    have hl := respaced_visible p l
    rw [h] at hl
    exact hl.symm.trans _ _ _ (respaced_visible p l')

/-! ## Words -/

/-- Empty pieces add nothing. -/
theorem flatten_filter_isEmpty (ws : List (List α)) :
    (ws.filter fun w => !w.isEmpty).flatten = ws.flatten := by
  induction ws with
  | nil => rfl
  | cons w ws ih =>
    cases w with
    | nil => simpa using ih
    | cons a w => simpa using ih

/-- **The words, set side by side, are the list without its separators.** -/
theorem flatten_words (p : α → Bool) (l : List α) : (words p l).flatten = visible p l := by
  rw [words, flatten_filter_isEmpty]
  induction l with
  | nil => rfl
  | cons a l ih =>
    rw [List.splitOnP_cons_eq_if_modifyHead]
    cases ha : p a with
    | true =>
      rw [visible_cons_of_sep ha, ← ih]
      rfl
    | false =>
      rw [visible_cons_of_not_sep ha, ← ih]
      -- the first piece goes on to the left
      obtain ⟨w, ws, hws⟩ := List.exists_cons_of_ne_nil (List.splitOnP_ne_nil p l)
      rw [hws]
      rfl

/-- Two lists have the same words iff the same is left of them and it falls into words at the
same places. -/
theorem words_eq_iff : words p l = words p l' ↔
    visible p l = visible p l' ∧ (words p l).map List.length = (words p l').map List.length := by
  rw [List.eq_iff_flatten_eq, flatten_words, flatten_words]

end Words
