/-
# Programs that take locks in order

Threads run programs of which only the lock operations are kept: a request, which blocks
until the lock is granted, a release, and control flow that may go any way.  A lock is
requested for reading or for writing; a mutex is a lock that is only written.

A program respects an order of the locks, given by ranks, when each lock it requests ranks
above all it holds.  `Prog.after` checks this and computes what is held at the end, and
`Respects` is the judgement that is composed along the program.

* `no_cycle`: in no state that threads with such programs reach is there a cycle of threads
  each of which waits for the next.  A reader counts as waiting for a writer that is queued,
  so this covers read-write locks that prefer writers;
* `not_holds_of_requests`: and no thread requests a lock that it holds.
-/
import MiniCi.Runs
import Mathlib.Data.Fintype.Defs
import Mathlib.Logic.Function.Basic
import Mathlib.Logic.Relation

namespace LockOrder

/-! ## Programs -/

/-- How a lock is requested. -/
inductive Mode where
  | read
  | write
  deriving DecidableEq

/-- The lock operations of a program. -/
inductive Prog (L : Type*) where
  | skip
  | acquire (m : Mode) (l : L)
  | release (l : L)
  | seq (p q : Prog L)
  | choice (p q : Prog L)
  | loop (p : Prog L)

namespace Prog

variable {L : Type*}

/-- One program after another. -/
def block : List (Prog L) → Prog L
  | [] => skip
  | p :: ps => seq p (block ps)

/-- A program that runs if some test says so. -/
def perhaps (p : Prog L) : Prog L := choice skip p

/-- One of several programs runs. -/
def cases : List (Prog L) → Prog L
  | [] => skip
  | p :: ps => choice p (cases ps)

/-- A critical section. -/
def locked (m : Mode) (l : L) (p : Prog L) : Prog L := seq (acquire m l) (seq p (release l))

end Prog

/-! ## Threads -/

/-- A thread: what it has still to run, and the locks it holds. -/
structure Thread (L : Type*) where
  todo : List (Prog L)
  held : List (L × Mode)

variable {ι L : Type*} [Fintype ι] [DecidableEq ι] [DecidableEq L]

/-- The locks that are held when `l` has been released. -/
def released (l : L) (held : List (L × Mode)) : List (L × Mode) := held.filter fun x => x.1 ≠ l

/-- Thread `i` may be granted the lock: nobody else has it, or all who have it read, and so
will `i`. -/
def Grants (s : ι → Thread L) (i : ι) (m : Mode) (l : L) : Prop :=
  ∀ j, j ≠ i → ∀ x ∈ (s j).held, x.1 = l → m = .read ∧ x.2 = .read

instance (s : ι → Thread L) (i : ι) (m : Mode) (l : L) : Decidable (Grants s i m l) :=
  inferInstanceAs (Decidable (∀ j, j ≠ i → ∀ x ∈ (s j).held, _ → _))

/-- The next operation of thread `i`.  At a branch the flag says whether the first program
is taken, at a loop whether it is entered once more.  A request that cannot be granted is
not enabled: the thread waits. -/
def step (s : ι → Thread L) (a : ι × Bool) : Option (ι → Thread L) :=
  let t := s a.1
  match t.todo with
  | [] => none
  | .skip :: k => some (Function.update s a.1 { t with todo := k })
  | .acquire m l :: k =>
    if Grants s a.1 m l then
      some (Function.update s a.1 { todo := k, held := (l, m) :: t.held })
    else none
  | .release l :: k => some (Function.update s a.1 { todo := k, held := released l t.held })
  | .seq p q :: k => some (Function.update s a.1 { t with todo := p :: q :: k })
  | .choice p q :: k =>
    some (Function.update s a.1 { t with todo := (if a.2 then p else q) :: k })
  | .loop p :: k =>
    some (Function.update s a.1 { t with todo := if a.2 then p :: .loop p :: k else k })

/-- The threads before their first operation. -/
def start (program : ι → Prog L) (i : ι) : Thread L := { todo := [program i], held := [] }

/-! ## Waiting -/

/-- The next operation of the thread is to request the lock. -/
def Requests (t : Thread L) (m : Mode) (l : L) : Prop := ∃ k, t.todo = .acquire m l :: k

/-- The thread holds the lock, to read or to write. -/
def Holds (t : Thread L) (l : L) : Prop := ∃ x ∈ t.held, x.1 = l

/-- Thread `i` requests a lock that `j` holds, or requests it to read while `j` is queued to
write. -/
def Waits (s : ι → Thread L) (i j : ι) : Prop :=
  ∃ m l, Requests (s i) m l ∧ (Holds (s j) l ∨ m = .read ∧ Requests (s j) .write l)

/-! ## The order -/

section Order

variable (rank : L → ℕ)

/-- Every lock that is held ranks below `n`. -/
def Below (n : ℕ) (held : List (L × Mode)) : Prop := ∀ x ∈ held, rank x.1 < n

instance (n : ℕ) (held : List (L × Mode)) : Decidable (Below rank n held) :=
  inferInstanceAs (Decidable (∀ x ∈ held, _))

/-- What is held after the program, whichever way it takes; `none` when a request does not
rank above all that is held, or when it depends on the way what is held. -/
def Prog.after (held : List (L × Mode)) : Prog L → Option (List (L × Mode))
  | .skip => some held
  | .acquire m l => if Below rank (rank l) held then some ((l, m) :: held) else none
  | .release l => some (released l held)
  | .seq p q => (p.after held).bind fun held' => q.after held'
  | .choice p q => if p.after held = q.after held then p.after held else none
  | .loop p => if p.after held = some held then some held else none

/-- What is held after all that a thread has still to run. -/
def afterAll (held : List (L × Mode)) : List (Prog L) → Option (List (L × Mode))
  | [] => some held
  | p :: k => (p.after rank held).bind fun held' => afterAll held' k

/-- What the thread has still to run respects the order. -/
def Ordered (t : Thread L) : Prop := (afterAll rank t.held t.todo).isSome

variable {rank}

/-- Each operation leaves a thread that respects the order. -/
theorem Ordered.step {s s' : ι → Thread L} {a : ι × Bool} (h : ∀ i, Ordered rank (s i))
    (hstep : step s a = some s') (i : ι) : Ordered rank (s' i) := by
  obtain ⟨j, b⟩ := a
  -- the threads that do not move are as before
  have hmove : ∀ t : Thread L, Ordered rank t → s' = Function.update s j t →
      Ordered rank (s' i) := by
    rintro t ht rfl
    by_cases hij : i = j
    · subst hij
      rw [Function.update_self]
      exact ht
    · rw [Function.update_of_ne hij]
      exact h i
  have hj := h j
  unfold Ordered at hj
  unfold LockOrder.step at hstep
  rcases htodo : (s j).todo with _ | ⟨p, k⟩
  · simp [htodo] at hstep
  · rw [htodo, afterAll] at hj
    cases p with
    | skip =>
      simp only [htodo, Option.some.injEq] at hstep
      exact hmove _ (by simpa [Ordered, Prog.after] using hj) hstep.symm
    | acquire m l =>
      simp only [htodo] at hstep
      split_ifs at hstep
      rw [Prog.after] at hj
      split_ifs at hj
      · exact hmove _ (by simpa [Ordered] using hj) (Option.some.inj hstep).symm
      · simp at hj
    | release l =>
      simp only [htodo, Option.some.injEq] at hstep
      exact hmove _ (by simpa [Ordered, Prog.after] using hj) hstep.symm
    | seq p q =>
      simp only [htodo, Option.some.injEq] at hstep
      refine hmove _ ?_ hstep.symm
      simpa [Ordered, afterAll, Prog.after, Option.bind_assoc] using hj
    | choice p q =>
      simp only [htodo, Option.some.injEq] at hstep
      refine hmove _ ?_ hstep.symm
      rw [Prog.after] at hj
      split_ifs at hj with heq
      · cases b with
        | true => simpa [Ordered, afterAll] using hj
        | false => simpa [Ordered, afterAll, ← heq] using hj
      · simp at hj
    | loop p =>
      simp only [htodo, Option.some.injEq] at hstep
      refine hmove _ ?_ hstep.symm
      rw [Prog.after] at hj
      split_ifs at hj with heq
      · cases b with
        | true => simpa [Ordered, afterAll, Prog.after, heq] using hj
        | false => simpa [Ordered] using hj
      · simp at hj

/-- A lock is requested only above all that the thread holds. -/
theorem Ordered.rank_lt {t : Thread L} {m : Mode} {l l' : L} (h : Ordered rank t)
    (hreq : Requests t m l) (hheld : Holds t l') : rank l' < rank l := by
  obtain ⟨k, htodo⟩ := hreq
  obtain ⟨x, hx, rfl⟩ := hheld
  unfold Ordered at h
  rw [htodo, afterAll, Prog.after] at h
  split_ifs at h with hbelow
  · exact hbelow x hx
  · simp at h

/-- Where in the order a thread waits: by the lock, and readers before writers. -/
def level (rank : L → ℕ) (t : Thread L) : ℕ :=
  match t.todo with
  | .acquire .read l :: _ => 2 * rank l
  | .acquire .write l :: _ => 2 * rank l + 1
  | _ => 0

omit [DecidableEq L] in
theorem level_of_requests {t : Thread L} {m : Mode} {l : L} (h : Requests t m l) :
    level rank t = 2 * rank l + if m = .write then 1 else 0 := by
  obtain ⟨k, htodo⟩ := h
  cases m <;> simp [level, htodo]

omit [Fintype ι] [DecidableEq ι] in
/-- Who is waited for, and waits, waits further up. -/
theorem level_lt_of_waits {s : ι → Thread L} (h : ∀ i, Ordered rank (s i)) {i j k : ι}
    (hij : Waits s i j) (hjk : Waits s j k) : level rank (s i) < level rank (s j) := by
  obtain ⟨m, l, hreq, hwhy⟩ := hij
  obtain ⟨m', l', hreq', -⟩ := hjk
  rw [level_of_requests hreq]
  rcases hwhy with hheld | ⟨rfl, hwrite⟩
  · have hlt : rank l < rank l' := (h j).rank_lt hreq' hheld
    rw [level_of_requests hreq']
    split_ifs <;> omega
  · rw [level_of_requests hwrite]
    simp

omit [Fintype ι] [DecidableEq ι] in
/-- There is no cycle of waiting threads in a state whose threads respect the order. -/
theorem no_cycle_of_ordered {s : ι → Thread L} (h : ∀ i, Ordered rank (s i)) (i : ι) :
    ¬ Relation.TransGen (Waits s) i i := by
  have hup : ∀ j k, Relation.TransGen (Waits s) i j → Waits s j k →
      level rank (s i) < level rank (s j) := by
    intro j k hij
    induction hij generalizing k with
    | single hij => exact level_lt_of_waits h hij
    | tail _ hbc ih =>
      intro hck
      exact (ih _ hbc).trans (level_lt_of_waits h hbc hck)
  intro hcycle
  obtain ⟨k, hik, -⟩ := Relation.TransGen.head'_iff.mp hcycle
  exact absurd (hup i k hcycle hik) (lt_irrefl _)

/-- Threads whose programs respect the order do so in every state that they reach. -/
theorem ordered_of_exec {program : ι → Prog L} (hprog : ∀ i, ((program i).after rank []).isSome)
    {s : ι → Thread L} {as : List (ι × Bool)} (hrun : Runs.exec step (start program) as = some s) :
    ∀ i, Ordered rank (s i) := by
  have hstart : ∀ i, Ordered rank (start program i) := by
    intro i
    simpa [Ordered, start, afterAll] using hprog i
  have hkeep : ∀ (s : ι → Thread L) a s', (∀ i, Ordered rank (s i)) → step s a = some s' →
      ∀ i, Ordered rank (s' i) := fun _ _ _ h hstep => Ordered.step h hstep
  exact Runs.invariant_of_step hstart hkeep hrun

/-- **No cycle.**  In every state that threads with ordered programs reach, nobody waits,
through however many others, for itself. -/
theorem no_cycle {program : ι → Prog L} (hprog : ∀ i, ((program i).after rank []).isSome)
    {s : ι → Thread L} {as : List (ι × Bool)} (hrun : Runs.exec step (start program) as = some s)
    (i : ι) : ¬ Relation.TransGen (Waits s) i i :=
  no_cycle_of_ordered (ordered_of_exec hprog hrun) i

/-- **No lock is requested twice.** -/
theorem not_holds_of_requests {program : ι → Prog L}
    (hprog : ∀ i, ((program i).after rank []).isSome) {s : ι → Thread L} {as : List (ι × Bool)}
    (hrun : Runs.exec step (start program) as = some s) {i : ι} {m : Mode} {l : L}
    (hreq : Requests (s i) m l) : ¬ Holds (s i) l := by
  intro hheld
  exact absurd ((ordered_of_exec hprog hrun i).rank_lt hreq hheld) (lt_irrefl _)

/-! ## Rules for programs -/

/-- From these locks the program respects the order, and ends with the same locks. -/
def Respects (rank : L → ℕ) (held : List (L × Mode)) (p : Prog L) : Prop :=
  p.after rank held = some held

variable {held : List (L × Mode)} {p q : Prog L}

theorem Respects.skip : Respects rank held .skip := rfl

theorem Respects.seq (hp : Respects rank held p) (hq : Respects rank held q) :
    Respects rank held (.seq p q) := by
  rw [Respects, Prog.after, hp]
  exact hq

theorem Respects.choice (hp : Respects rank held p) (hq : Respects rank held q) :
    Respects rank held (.choice p q) := by
  rw [Respects, Prog.after, if_pos (hp.trans hq.symm)]
  exact hp

theorem Respects.loop (hp : Respects rank held p) : Respects rank held (.loop p) := by
  unfold Respects at hp
  rw [Respects, Prog.after, if_pos hp]

theorem Respects.perhaps (hp : Respects rank held p) : Respects rank held p.perhaps :=
  Respects.skip.choice hp

theorem Respects.block {ps : List (Prog L)} (h : ∀ p ∈ ps, Respects rank held p) :
    Respects rank held (.block ps) := by
  induction ps with
  | nil => exact Respects.skip
  | cons p ps ih =>
    exact (h p List.mem_cons_self).seq (ih fun q hq => h q (List.mem_cons_of_mem _ hq))

theorem Respects.cases {ps : List (Prog L)} (h : ∀ p ∈ ps, Respects rank held p) :
    Respects rank held (.cases ps) := by
  induction ps with
  | nil => exact Respects.skip
  | cons p ps ih =>
    exact (h p List.mem_cons_self).choice (ih fun q hq => h q (List.mem_cons_of_mem _ hq))

/-- Locks below a rank do not include the lock that has it. -/
theorem released_of_below {m : Mode} {l : L} (h : Below rank (rank l) held) :
    released l ((l, m) :: held) = held := by
  rw [released, List.filter_cons_of_neg (by simp), List.filter_eq_self]
  intro x hx
  have hlt := h x hx
  simp only [ne_eq, decide_eq_true_eq]
  rintro rfl
  exact lt_irrefl _ hlt

/-- A critical section is entered from below, and its body run with the lock. -/
theorem Respects.locked {m : Mode} {l : L} (h : Below rank (rank l) held)
    (hp : Respects rank ((l, m) :: held) p) : Respects rank held (.locked m l p) := by
  rw [Respects, Prog.locked, Prog.after, Prog.after, if_pos h, Option.bind_some, Prog.after, hp,
    Option.bind_some, Prog.after, released_of_below h]

end Order

end LockOrder
