/-
# Runs of a partial step function

A system is given by a partial step function `step : σ → α → Option σ`: the label
`α` says which party moves and what its environment answered, and `none` says that
the move is not enabled in this state.  An interleaving is then a list of labels,
and a statement about every interleaving is a statement about every list.

* `exec step s as` executes a run;
* `Along step P s as` says that each action of the run meets the condition `P` in
  the state it is taken in;
* `Always step Q s as` says that `Q` holds in every state the run goes through;
* `Simulates` is forward simulation under such a condition, where one concrete
  action is answered by any number of abstract ones.
-/
import Mathlib.Data.List.Basic

namespace Runs

variable {σ α τ β : Type*}

/-! ## Executing a run -/

/-- Execute the actions in order; `none` when one of them is not enabled. -/
def exec (step : σ → α → Option σ) : σ → List α → Option σ
  | s, [] => some s
  | s, a :: as => (step s a).bind fun s' => exec step s' as

section Exec

variable (step : σ → α → Option σ)

@[simp] theorem exec_nil (s : σ) : exec step s [] = some s := rfl

/-- A run starts with an enabled action and goes on from there. -/
theorem exec_cons_eq_some {s t : σ} {a : α} {as : List α} :
    exec step s (a :: as) = some t ↔ ∃ s', step s a = some s' ∧ exec step s' as = some t := by
  simp [exec, Option.bind_eq_some_iff]

/-- A run of one action is one step. -/
@[simp] theorem exec_singleton (s : σ) (a : α) : exec step s [a] = step s a := by
  simp [exec]

/-- Runs compose. -/
theorem exec_append (s : σ) (as bs : List α) :
    exec step s (as ++ bs) = (exec step s as).bind fun s' => exec step s' bs := by
  induction as generalizing s with
  | nil => rfl
  | cons a as ih =>
    simp only [List.cons_append, exec, Option.bind_assoc]
    exact congrArg _ (funext fun s' => ih s')

theorem exec_append_eq_some {s t : σ} {as bs : List α} :
    exec step s (as ++ bs) = some t ↔
      ∃ s', exec step s as = some s' ∧ exec step s' bs = some t := by
  rw [exec_append, Option.bind_eq_some_iff]

/-- The last action of a run is a step from the state before it. -/
theorem exec_concat_eq_some {s t : σ} {as : List α} {a : α} :
    exec step s (as ++ [a]) = some t ↔ ∃ s', exec step s as = some s' ∧ step s' a = some t := by
  simp [exec_append_eq_some]

end Exec

/-! ## Conditions along a run -/

/-- Every action of the run meets `P` in the state in which it is taken. -/
def Along (step : σ → α → Option σ) (P : σ → α → Prop) : σ → List α → Prop
  | _, [] => True
  | s, a :: as => P s a ∧ ∀ s', step s a = some s' → Along step P s' as

/-- `Q` holds in every state the run goes through, the first and the last included. -/
def Always (step : σ → α → Option σ) (Q : σ → Prop) (s : σ) (as : List α) : Prop :=
  ∀ pre, pre <+: as → ∀ t, exec step s pre = some t → Q t

section Conditions

variable {step : σ → α → Option σ} {P : σ → α → Prop} {Q : σ → Prop}

/-- A condition along a run holds along each of its parts. -/
theorem along_append {s : σ} {as bs : List α} :
    Along step P s (as ++ bs) ↔
      Along step P s as ∧ ∀ s', exec step s as = some s' → Along step P s' bs := by
  induction as generalizing s with
  | nil => simp [Along]
  | cons a as ih =>
    simp only [List.cons_append, Along, ih]
    constructor
    · rintro ⟨hp, hrest⟩
      refine ⟨⟨hp, fun s' hs => (hrest s' hs).1⟩, fun t ht => ?_⟩
      obtain ⟨s', hs, hs'⟩ := (exec_cons_eq_some step).mp ht
      exact (hrest s' hs).2 t hs'
    · rintro ⟨⟨hp, h1⟩, h2⟩
      exact ⟨hp, fun s' hs =>
        ⟨h1 s' hs, fun t ht => h2 t ((exec_cons_eq_some step).mpr ⟨s', hs, ht⟩)⟩⟩

/-- The condition at the last action of a run. -/
theorem along_concat {s t : σ} {as : List α} {a : α} (h : exec step s as = some t) :
    Along step P s (as ++ [a]) ↔ Along step P s as ∧ P t a := by
  rw [along_append]
  refine and_congr_right fun _ => ?_
  simp [h, Along]

/-- The condition along a run, read at one of its actions. -/
theorem along_iff_forall {s : σ} {as : List α} :
    Along step P s as ↔
      ∀ pre a post t, as = pre ++ a :: post → exec step s pre = some t → P t a := by
  induction as generalizing s with
  | nil => simp [Along]
  | cons b as ih =>
    constructor
    · rintro ⟨hp, hrest⟩ pre a post t heq ht
      cases pre with
      | nil =>
        obtain ⟨rfl, -⟩ := List.cons.inj heq
        simp only [exec_nil, Option.some.injEq] at ht
        exact ht ▸ hp
      | cons c pre =>
        obtain ⟨rfl, heq'⟩ := List.cons.inj heq
        obtain ⟨s', hs, hs'⟩ := (exec_cons_eq_some step).mp ht
        exact ih.mp (hrest s' hs) pre a post t heq' hs'
    · intro h
      refine ⟨h [] b as s rfl rfl, fun s' hs => ih.mpr fun pre a post t heq ht => ?_⟩
      exact h (b :: pre) a post t (by rw [heq]; rfl)
        ((exec_cons_eq_some step).mpr ⟨s', hs, ht⟩)

/-- A condition holds along every prefix of a run along which it holds. -/
theorem Along.of_prefix {s : σ} {pre as : List α} (h : Along step P s as)
    (hpre : pre <+: as) : Along step P s pre := by
  obtain ⟨post, rfl⟩ := hpre
  exact (along_append.mp h).1

/-- **The invariant rule.**  What holds at the start and is preserved by every step
that meets the condition holds at the end of every run along which it is met. -/
theorem invariant {s t : σ} {as : List α} (hs : Q s)
    (hstep : ∀ s a s', Q s → P s a → step s a = some s' → Q s')
    (halong : Along step P s as) (hrun : exec step s as = some t) : Q t := by
  induction as generalizing s with
  | nil =>
    simp only [exec_nil, Option.some.injEq] at hrun
    exact hrun ▸ hs
  | cons a as ih =>
    obtain ⟨s', hs', hrun'⟩ := (exec_cons_eq_some step).mp hrun
    exact ih (hstep s a s' hs halong.1 hs') (halong.2 s' hs') hrun'

/-- The invariant rule for a system whose steps all preserve the invariant. -/
theorem invariant_of_step {s t : σ} {as : List α} (hs : Q s)
    (hstep : ∀ s a s', Q s → step s a = some s' → Q s')
    (hrun : exec step s as = some t) : Q t :=
  invariant (P := fun _ _ => True) hs (fun s a s' h _ => hstep s a s' h)
    (along_iff_forall.mpr fun _ _ _ _ _ _ => trivial) hrun

/-- The invariant rule, for every state on the way. -/
theorem always_of_invariant {s : σ} {as : List α} (hs : Q s)
    (hstep : ∀ s a s', Q s → P s a → step s a = some s' → Q s')
    (halong : Along step P s as) : Always step Q s as :=
  fun _ hpre _ ht => invariant hs hstep (halong.of_prefix hpre) ht

/-- A condition that keeps up an invariant, and with it implies another condition, implies it
along every run. -/
theorem Along.imp_of_invariant {P' : σ → α → Prop} {s : σ} {as : List α} (hs : Q s)
    (hstep : ∀ s a s', Q s → P s a → step s a = some s' → Q s')
    (himp : ∀ s a, Q s → P s a → P' s a) (halong : Along step P s as) : Along step P' s as := by
  induction as generalizing s with
  | nil => trivial
  | cons a as ih =>
    obtain ⟨hp, hrest⟩ := halong
    exact ⟨himp s a hs hp, fun s' hs' => ih (hstep s a s' hs hp hs') (hrest s' hs')⟩

/-- Two conditions that agree wherever the invariant holds agree along every run. -/
theorem along_iff_along {P' : σ → α → Prop} {s : σ} {as : List α} (hs : Q s)
    (hstep : ∀ s a s', Q s → step s a = some s' → Q s') (h : ∀ s a, Q s → (P s a ↔ P' s a)) :
    Along step P s as ↔ Along step P' s as := by
  induction as generalizing s with
  | nil => exact Iff.rfl
  | cons a as ih =>
    exact and_congr (h s a hs) (forall₂_congr fun s' hs' => ih (hstep s a s' hs hs'))

/-- **The rule for exact conditions.**  If each step keeps a property up iff it meets the condition,
then a run keeps it up iff the condition is met along it.  `I` is what holds in any case. -/
theorem always_iff_along {I : σ → Prop} {s t : σ} {as : List α} (hI : I s) (hQ : Q s)
    (hstep : ∀ s a s', I s → step s a = some s' → I s')
    (hiff : ∀ s a s', I s → Q s → step s a = some s' → (Q s' ↔ P s a))
    (hrun : exec step s as = some t) : Always step Q s as ↔ Along step P s as := by
  constructor
  · intro halways
    rw [along_iff_forall]
    rintro pre a post u rfl hu
    obtain ⟨u', hu', hrest⟩ := (exec_append_eq_some step).mp hrun
    obtain rfl : u' = u := Option.some.inj (hu'.symm.trans hu)
    obtain ⟨v, hv, -⟩ := (exec_cons_eq_some step).mp hrest
    have hafter : Q v :=
      halways (pre ++ [a]) ⟨post, by simp⟩ v ((exec_concat_eq_some step).mpr ⟨u', hu, hv⟩)
    have hbefore : Q u' := halways pre (List.prefix_append _ _) u' hu
    exact (hiff u' a v (invariant_of_step hI hstep hu) hbefore hv).mp hafter
  · intro halong
    have hboth := always_of_invariant (Q := fun s => I s ∧ Q s) ⟨hI, hQ⟩
      (fun s a s' h hP hs => ⟨hstep s a s' h.1 hs, (hiff s a s' h.1 h.2 hs).mpr hP⟩) halong
    exact fun pre hpre t ht => (hboth pre hpre t ht).2

/-- What always holds in a run holds at its end. -/
theorem Always.at_end {s : σ} {as : List α} (h : Always step Q s as) :
    ∀ t ∈ exec step s as, Q t :=
  h as (List.prefix_refl as)

/-- A weaker property holds wherever a stronger one does. -/
theorem Always.imp {Q' : σ → Prop} {s : σ} {as : List α} (h : Always step Q s as)
    (himp : ∀ t, Q t → Q' t) : Always step Q' s as :=
  fun pre hpre t ht => himp t (h pre hpre t ht)

end Conditions

/-- A condition that can be checked in each state can be checked along a run. -/
instance decidableAlong (step : σ → α → Option σ) (P : σ → α → Prop) [∀ s a, Decidable (P s a)] :
    ∀ (s : σ) (as : List α), Decidable (Along step P s as)
  | _, [] => isTrue trivial
  | s, a :: as =>
    have : ∀ s', Decidable (Along step P s' as) := fun s' => decidableAlong step P s' as
    inferInstanceAs (Decidable (P s a ∧ ∀ s' ∈ step s a, Along step P s' as))

/-! ## Forward simulation -/

/-- Every concrete step taken under the condition `P` is answered by an abstract run,
and the states stay related. -/
def Simulates (stepC : σ → α → Option σ) (stepA : τ → β → Option τ)
    (P : σ → α → Prop) (R : σ → τ → Prop) : Prop :=
  ∀ s t a s', R s t → P s a → stepC s a = some s' → ∃ bs t', exec stepA t bs = some t' ∧ R s' t'

/-- **Simulation lifts to runs.** -/
theorem Simulates.exec {stepC : σ → α → Option σ} {stepA : τ → β → Option τ}
    {P : σ → α → Prop} {R : σ → τ → Prop} (hsim : Simulates stepC stepA P R)
    {s s' : σ} {t : τ} {as : List α} (hR : R s t) (halong : Along stepC P s as)
    (hrun : exec stepC s as = some s') : ∃ bs t', Runs.exec stepA t bs = some t' ∧ R s' t' := by
  induction as generalizing s t with
  | nil =>
    simp only [exec_nil, Option.some.injEq] at hrun
    exact ⟨[], t, rfl, hrun ▸ hR⟩
  | cons a as ih =>
    obtain ⟨s₁, hs₁, hrun'⟩ := (exec_cons_eq_some stepC).mp hrun
    obtain ⟨bs, t₁, hbs, hR₁⟩ := hsim s t a s₁ hR halong.1 hs₁
    obtain ⟨cs, t₂, hcs, hR₂⟩ := ih hR₁ (halong.2 s₁ hs₁) hrun'
    exact ⟨bs ++ cs, t₂, (exec_append_eq_some stepA).mpr ⟨t₁, hbs, hcs⟩, hR₂⟩

end Runs
