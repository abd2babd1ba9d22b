/-
# Children that several threads wait for

The threads of a process fork children, one at a time in each, and wait for them with `waitpid`.  A
`fork` that fails returns `-1`, and `waitpid` of `-1` takes any child of the process that has ended:
the thread it belongs to then waits for a child that is gone, and is told nothing.

A thread whose `fork` has succeeded is told of its own child while that is there
(`waitpid_own`); it is not there any more only if a thread without a child has taken it.
-/
import Mathlib.Data.Fintype.Basic

namespace Children

/-- A child that has not been waited for: what its parent is told of it, and whether it has
ended. -/
structure Child (σ : Type*) where
  report : σ
  ended : Bool

/-- The child of each thread. -/
abbrev Table (ι σ : Type*) := ι → Option (Child σ)

variable {ι σ : Type*} [DecidableEq ι]

/-- `fork`, of a child that will end with this report. -/
def fork (t : Table ι σ) (i : ι) (ok : Bool) (report : σ) : Table ι σ :=
  if ok then Function.update t i (some ⟨report, false⟩) else t

/-- The child of a thread ends. -/
def exits (t : Table ι σ) (i : ι) : Option (Table ι σ) :=
  match t i with
  | some ⟨report, false⟩ => some (Function.update t i (some ⟨report, true⟩))
  | _ => none

/-- `waitpid` of what `fork` has returned: the child of which thread it takes, or `none` for an
error, which it returns if there is no child to wait for.  It blocks as long as there is one but it
has not ended. -/
def waitpid [Fintype ι] (t : Table ι σ) (i : ι) (forked : Bool) :
    Option ι → Option (Option σ × Table ι σ)
  | some j =>
    if forked = true → j = i then
      match t j with
      | some ⟨report, true⟩ => some (some report, Function.update t j none)
      | _ => none
    else none
  | none =>
    if ∀ j, (forked = true → j = i) → (t j).isNone then some (none, t) else none

@[simp] theorem fork_self (t : Table ι σ) (i : ι) (report : σ) :
    fork t i true report i = some ⟨report, false⟩ := Function.update_self ..

@[simp] theorem fork_of_ne (t : Table ι σ) {i j : ι} (hj : j ≠ i) (ok : Bool) (report : σ) :
    fork t i ok report j = t j := by
  cases ok with
  | false => rfl
  | true => exact Function.update_of_ne hj _ _

/-- **A child that is there is the one that is waited for.** -/
theorem waitpid_own [Fintype ι] {t t' : Table ι σ} {i : ι} {taken : Option ι} {report : Option σ}
    {c : Child σ} (hown : t i = some c) (h : waitpid t i true taken = some (report, t')) :
    report = some c.report ∧ t' = Function.update t i none := by
  cases taken with
  | none =>
    simp only [waitpid] at h
    split_ifs at h with hnone
    have hi := hnone i fun _ => rfl
    rw [hown] at hi
    cases hi
  | some j =>
    simp only [waitpid] at h
    split_ifs at h with hj
    obtain rfl := hj trivial
    rw [hown] at h
    obtain ⟨r, ended⟩ := c
    cases ended with
    | false => cases h
    | true =>
      obtain ⟨rfl, rfl⟩ := Prod.mk.inj (Option.some.inj h)
      exact ⟨rfl, rfl⟩

/-- What it ends with does not change. -/
theorem exits_cases {t t' : Table ι σ} {i : ι} (h : exits t i = some t') :
    ∃ report, t i = some ⟨report, false⟩ ∧ t' = Function.update t i (some ⟨report, true⟩) := by
  unfold exits at h
  split at h
  · exact ⟨_, ‹_›, (Option.some.inj h).symm⟩
  · cases h

end Children
