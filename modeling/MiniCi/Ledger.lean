/-
# A ledger with a bounded number of accounts

What an attempt counter is for: a finite map from holders to the number of their
attempts and whether one of them succeeded, with room for `cap` holders.  A holder
who is new to a full ledger is turned away.  `ofLog` is the ledger of a whole log of
attempts, and the lemmas read it off the log: a known holder's attempts are all his
entries, a holder is unknown only for want of room.
-/
import Mathlib.Data.Finset.Card
import Mathlib.Data.Finset.Insert
import Mathlib.Data.List.Count

variable {σ : Type*}

/-- The holders known, and what each of them has done. -/
structure Ledger (σ : Type*) where
  known : Finset σ
  attempts : σ → ℕ
  solved : σ → Prop

namespace Ledger

/-- Nobody is known. -/
def empty : Ledger σ := ⟨∅, fun _ => 0, fun _ => False⟩

/-- The ledger takes attempts of `s`: he is known, or there is room for him. -/
def Accepts (cap : ℕ) (m : Ledger σ) (s : σ) : Prop := s ∈ m.known ∨ m.known.card < cap

section

variable [DecidableEq σ]

/-- Enter an attempt of `s`, successful or not. -/
def enter (m : Ledger σ) (s : σ) (success : Prop) : Ledger σ :=
  { known := insert s m.known
    attempts := Function.update m.attempts s (m.attempts s + 1)
    solved := Function.update m.solved s (m.solved s ∨ success) }

open Classical in
/-- Enter an attempt if the ledger takes it. -/
noncomputable def submit (cap : ℕ) (m : Ledger σ) (s : σ) (success : Prop) : Ledger σ :=
  if m.Accepts cap s then m.enter s success else m

/-- The ledger of a log of attempts. -/
noncomputable def ofLog (cap : ℕ) (log : List (σ × Prop)) : Ledger σ :=
  log.foldl (fun m x => m.submit cap x.1 x.2) empty

variable {cap : ℕ} {m : Ledger σ} {s : σ}

@[simp] theorem known_enter (m : Ledger σ) (s : σ) (success : Prop) :
    (m.enter s success).known = insert s m.known := rfl

@[simp] theorem attempts_enter_self (m : Ledger σ) (s : σ) (success : Prop) :
    (m.enter s success).attempts s = m.attempts s + 1 :=
  Function.update_self _ _ _

@[simp] theorem solved_enter_self (m : Ledger σ) (s : σ) (success : Prop) :
    (m.enter s success).solved s = (m.solved s ∨ success) :=
  Function.update_self _ _ _

theorem attempts_enter_of_ne (m : Ledger σ) {s s' : σ} (hne : s' ≠ s) (success : Prop) :
    (m.enter s success).attempts s' = m.attempts s' :=
  Function.update_of_ne hne _ _

theorem solved_enter_of_ne (m : Ledger σ) {s s' : σ} (hne : s' ≠ s) (success : Prop) :
    (m.enter s success).solved s' = m.solved s' :=
  Function.update_of_ne hne _ _

theorem submit_of_accepts (h : m.Accepts cap s) (success : Prop) :
    m.submit cap s success = m.enter s success :=
  if_pos h

theorem submit_of_not_accepts (h : ¬ m.Accepts cap s) (success : Prop) :
    m.submit cap s success = m :=
  if_neg h

@[simp] theorem ofLog_nil : ofLog cap ([] : List (σ × Prop)) = empty := rfl

@[simp] theorem ofLog_concat (log : List (σ × Prop)) (x : σ × Prop) :
    ofLog cap (log ++ [x]) = (ofLog cap log).submit cap x.1 x.2 := by
  simp [ofLog, List.foldl_append]

/-- As long as there is room, everybody in the log is known. -/
theorem mem_known_of_room {log : List (σ × Prop)} (hroom : (ofLog cap log).known.card < cap)
    {s : σ} (hs : s ∈ log.map Prod.fst) : s ∈ (ofLog cap log).known := by
  induction log using List.reverseRecOn with
  | nil => cases hs
  | append_singleton log x ih =>
    rw [ofLog_concat] at hroom ⊢
    by_cases h : (ofLog cap log).Accepts cap x.1
    · rw [submit_of_accepts h] at hroom ⊢
      have hle : (ofLog cap log).known.card < cap :=
        (Finset.card_le_card (Finset.subset_insert _ _)).trans_lt hroom
      rw [List.map_append, List.mem_append, List.map_singleton, List.mem_singleton] at hs
      rcases hs with hs | rfl
      · exact Finset.mem_insert_of_mem (ih hle hs)
      · exact Finset.mem_insert_self _ _
    · rw [submit_of_not_accepts h] at hroom
      exact absurd (Or.inr hroom) h

/-- A holder the ledger takes for the first time has no entry in the log yet. -/
theorem not_mem_log_of_accepts {log : List (σ × Prop)} {s : σ}
    (h : (ofLog cap log).Accepts cap s) (hs : s ∉ (ofLog cap log).known) :
    s ∉ log.map Prod.fst :=
  fun hlog => hs (mem_known_of_room (h.resolve_left hs) hlog)

theorem countP_of_first {log : List (σ × Prop)} {s : σ}
    (h : (ofLog cap log).Accepts cap s) (hs : s ∉ (ofLog cap log).known) :
    log.countP (fun x => x.1 = s) = 0 := by
  rw [List.countP_eq_zero]
  intro x hx hxs
  exact not_mem_log_of_accepts h hs (List.mem_map.mpr ⟨x, hx, by simpa using hxs⟩)

/-- **Attempts.**  A known holder's attempts are all his entries in the log, an unknown
one has none. -/
theorem attempts_ofLog (log : List (σ × Prop)) (s : σ) :
    (ofLog cap log).attempts s
      = if s ∈ (ofLog cap log).known then log.countP (fun x => x.1 = s) else 0 := by
  induction log using List.reverseRecOn generalizing s with
  | nil => simp [empty]
  | append_singleton log x ih =>
    rw [ofLog_concat, List.countP_append, List.countP_singleton]
    by_cases h : (ofLog cap log).Accepts cap x.1
    · rw [submit_of_accepts h]
      by_cases hs : s = x.1
      · subst hs
        simp only [attempts_enter_self, known_enter, ih, Finset.mem_insert_self, if_true,
          decide_true]
        by_cases hk : x.1 ∈ (ofLog cap log).known
        · rw [if_pos hk]
        · rw [if_neg hk, countP_of_first h hk]
      · simp [attempts_enter_of_ne _ hs, ih, hs, Ne.symm hs]
    · rw [submit_of_not_accepts h, ih]
      by_cases hk : s ∈ (ofLog cap log).known
      · have hs : ¬ x.1 = s := fun hs => h (Or.inl (hs ▸ hk))
        simp [hk, hs]
      · rw [if_neg hk, if_neg hk]

/-- **Success.**  A holder has succeeded iff he is known and one of his entries did. -/
theorem solved_ofLog (log : List (σ × Prop)) (s : σ) :
    (ofLog cap log).solved s ↔ s ∈ (ofLog cap log).known ∧ ∃ x ∈ log, x.1 = s ∧ x.2 := by
  induction log using List.reverseRecOn generalizing s with
  | nil => simp [empty]
  | append_singleton log x ih =>
    have hlast : (∃ y ∈ log ++ [x], y.1 = s ∧ y.2)
        ↔ (∃ y ∈ log, y.1 = s ∧ y.2) ∨ (x.1 = s ∧ x.2) := by
      simp only [List.mem_append, List.mem_singleton, or_and_right, exists_or, exists_eq_left]
    rw [ofLog_concat, hlast]
    by_cases h : (ofLog cap log).Accepts cap x.1
    · rw [submit_of_accepts h]
      by_cases hs : s = x.1
      · subst hs
        simp only [solved_enter_self, known_enter, ih, Finset.mem_insert_self, true_and]
        refine or_congr_left ⟨fun hl => hl.2, fun hl => ⟨?_, hl⟩⟩
        by_contra hk
        obtain ⟨y, hy, hys, -⟩ := hl
        exact not_mem_log_of_accepts h hk (List.mem_map.mpr ⟨y, hy, hys⟩)
      · simp [solved_enter_of_ne _ hs, ih, hs, Ne.symm hs]
    · rw [submit_of_not_accepts h, ih]
      refine and_congr_right fun hk => (or_iff_left ?_).symm
      rintro ⟨hs, -⟩
      exact h (Or.inl (hs ▸ hk))

end

end Ledger
