/-
# What a run has done so far

The past of a run is the list of its actions.  `Since a b` says of a past that an action of the
kind `a` has been taken and none of the kind `b` after it; what makes an action one of `a` may
depend on the past before it, so that one `Since` can stand inside another.

* `invariant_of_history` is the invariant rule for invariants that speak of the past;
* `count_le_rank` bounds the steps a party takes before a goal is reached, by a rank that these
  steps lower and that no step of the others raises.
-/
import MiniCi.Runs
import Mathlib.Data.List.Induction

namespace Runs

variable {σ α : Type*}

/-- An action of the kind `a`, and none of the kind `b` after it. -/
def Since (a : List α → α → Prop) (b : α → Prop) (past : List α) : Prop :=
  ∃ before x after, past = before ++ x :: after ∧ a before x ∧ ∀ y ∈ after, ¬ b y

section Since

variable {a : List α → α → Prop} {b : α → Prop} {past before after : List α} {x : α}

theorem not_since_nil : ¬ Since a b [] := by
  rintro ⟨before, x, after, h, -, -⟩
  simp at h

/-- One action more. -/
theorem since_concat : Since a b (past ++ [x]) ↔ a past x ∨ ¬ b x ∧ Since a b past := by
  constructor
  · rintro ⟨before, y, after, h, ha, hb⟩
    rcases List.eq_nil_or_concat after with rfl | ⟨after, z, rfl⟩
    · obtain ⟨rfl, hy⟩ := List.append_inj' h rfl
      obtain rfl := (List.cons.inj hy).1
      exact .inl ha
    · rw [List.concat_eq_append] at h hb
      rw [← List.cons_append, ← List.append_assoc] at h
      obtain ⟨rfl, hz⟩ := List.append_inj' h rfl
      obtain rfl := (List.cons.inj hz).1
      rw [List.forall_mem_append] at hb
      exact .inr ⟨hb.2 x List.mem_cons_self, before, y, after, rfl, ha, hb.1⟩
  · rintro (ha | ⟨hx, before, y, after, rfl, ha, hb⟩)
    · exact ⟨past, x, [], rfl, ha, fun y hy => absurd hy List.not_mem_nil⟩
    · refine ⟨before, y, after ++ [x], by simp, ha, ?_⟩
      rw [List.forall_mem_append]
      exact ⟨hb, by simpa using hx⟩

/-- After a `b` there is an `a` again. -/
theorem Since.mem_after (h : Since a b (before ++ x :: after)) (hx : b x)
    (hax : ∀ past, ¬ a past x) : ∃ past, ∃ y ∈ after, a past y := by
  -- from the end of the run back to the `b`
  induction after using List.reverseRecOn with
  | nil =>
    rcases since_concat.mp h with ha | ⟨hb, -⟩
    · exact absurd ha (hax before)
    · exact absurd hx hb
  | append_singleton after y ih =>
    rw [← List.cons_append, ← List.append_assoc] at h
    rcases since_concat.mp h with ha | ⟨-, h⟩
    · exact ⟨_, y, by simp, ha⟩
    · obtain ⟨past, z, hz, ha⟩ := ih h
      exact ⟨past, z, List.mem_append_left _ hz, ha⟩

end Since

section Rules

variable {step : σ → α → Option σ}

/-- **The invariant rule with the past.** -/
theorem invariant_of_history {Q : List α → σ → Prop} {s t : σ} {as : List α} (hs : Q [] s)
    (hstep : ∀ past u x u', exec step s past = some u → Q past u → step u x = some u' →
      Q (past ++ [x]) u')
    (hrun : exec step s as = some t) : Q as t := by
  induction as using List.reverseRecOn generalizing t with
  | nil =>
    simp only [exec_nil, Option.some.injEq] at hrun
    exact hrun ▸ hs
  | append_singleton as x ih =>
    obtain ⟨u, hu, hx⟩ := (exec_concat_eq_some step).mp hrun
    exact hstep as u x t hu (ih hu) hx

/-- **The rank rule.**  As long as the goal is not reached the steps that count lower the rank,
and the others do not raise it. -/
theorem count_le_rank {J : List α → σ → Prop} {rank : List α → σ → ℕ} {counts : α → Bool}
    {goal : List α → α → Prop} {past future : List α} {s t : σ} (hJ : J past s)
    (hstep : ∀ past s x s', J past s → step s x = some s' → ¬ goal past x →
      J (past ++ [x]) s' ∧ rank (past ++ [x]) s' + (if counts x then 1 else 0) ≤ rank past s)
    (hrun : exec step s future = some t)
    (hno : ∀ before x after, future = before ++ x :: after → ¬ goal (past ++ before) x) :
    future.countP counts ≤ rank past s := by
  induction future generalizing past s with
  | nil => exact Nat.zero_le _
  | cons x future ih =>
    obtain ⟨s', hs', hrun'⟩ := (exec_cons_eq_some step).mp hrun
    have hx : ¬ goal past x := by simpa using hno [] x future rfl
    obtain ⟨hJ', hrank⟩ := hstep past s x s' hJ hs' hx
    have hrest := ih hJ' hrun' fun before y after heq => by
      rw [List.append_assoc]
      exact hno (x :: before) y after (by rw [heq]; rfl)
    rw [List.countP_cons]
    omega

end Rules

end Runs
