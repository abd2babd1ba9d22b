/-
# A store behind a mutex and a condition variable

One producer puts elements into a store, and consumers take them out.  Both do so in critical
sections of one mutex, statement by statement; a consumer that finds the store empty sleeps on a
condition variable until the producer signals it, and a sleeper may also wake without a signal.

* `atomic_of_step`: what the threads do is a run of the machine in which a critical section is a
  single step.  The section counts from the moment it is entered: `completed` is the store with
  the statements that the lock holder has still to run;
* `Awake.step`: no wake-up is lost.  While somebody sleeps there is no more in the store than
  consumers on their way to it, and the signal that is still to be given;
* `length_add_work_le`: the threads come to rest by themselves, and `AtRest.nothing_left`: then
  the store is empty, or no consumer sleeps.
-/
import MiniCi.Runs
import Mathlib.Algebra.BigOperators.Group.Finset.Piecewise
import Mathlib.Algebra.Group.Action.Defs
import Mathlib.Algebra.Order.BigOperators.Group.Finset
import Mathlib.Data.Fintype.Card

namespace Mailbox

variable {ι σ α : Type*}

/-! ## The threads -/

/-- What is done to the store, one statement after the other. -/
structure Ops (σ α : Type*) where
  empty : σ → Bool
  next : σ → α
  put : α → List (σ → σ)
  take : List (σ → σ)

/-- Run statements. -/
def runAll (todo : List (σ → σ)) (s : σ) : σ := todo.foldl (fun s f => f s) s

/-- Who holds the mutex. -/
inductive Holder (ι : Type*) where
  | producer
  | consumer (i : ι)

/-- Where the producer stands.  `putting []`: the signal comes next. -/
inductive ProducerAt (σ α : Type*) where
  | outside
  | atLock (a : α)
  | putting (todo : List (σ → σ))
  | signalled

/-- Where a consumer stands.  Who is woken wants the mutex again, so `atLock` is also the way back
from the condition variable. -/
inductive ConsumerAt (σ α : Type*) where
  | atLock
  | testing
  | asleep
  | taking (a : α) (todo : List (σ → σ))
  | busy (a : α)

/-- The store, the mutex and the threads. -/
structure Threads (ι σ α : Type*) where
  store : σ
  owner : Option (Holder ι)
  producer : ProducerAt σ α
  consumer : ι → ConsumerAt σ α

/-- At the start nobody is in a critical section. -/
def Threads.start (ι α : Type*) (s : σ) : Threads ι σ α :=
  ⟨s, none, .outside, fun _ => .atLock⟩

/-- What a thread does next.  `signal`: who is woken by it; `test`: the test of the loop, with the
reading of the next element if there is one; `wake`: a wake-up without a signal. -/
inductive Move (ι α : Type*) where
  | call (a : α)
  | lockPut
  | put
  | signal (woken : Option ι)
  | unlockPut
  | lock (i : ι)
  | test (i : ι)
  | take (i : ι)
  | unlock (i : ι)
  | wake (i : ι)
  | finish (i : ι)

/-- A consumer waits on the condition variable. -/
def ConsumerAt.isAsleep : ConsumerAt σ α → Bool
  | asleep => true
  | _ => false

section Step

variable [DecidableEq ι] [Fintype ι]

/-- One statement of one thread. -/
def step (ops : Ops σ α) (s : Threads ι σ α) : Move ι α → Option (Threads ι σ α)
  | .call a =>
    match s.producer with
    | .outside => some { s with producer := .atLock a }
    | _ => none
  | .lockPut =>
    match s.producer, s.owner with
    | .atLock a, none => some { s with owner := some .producer, producer := .putting (ops.put a) }
    | _, _ => none
  | .put =>
    match s.producer with
    | .putting (f :: todo) => some { s with store := f s.store, producer := .putting todo }
    | _ => none
  | .signal none =>
    match s.producer with
    | .putting [] =>
      if ∀ i, (s.consumer i).isAsleep = false then some { s with producer := .signalled }
      else none
    | _ => none
  | .signal (some i) =>
    match s.producer, s.consumer i with
    | .putting [], .asleep =>
      some { s with producer := .signalled, consumer := Function.update s.consumer i .atLock }
    | _, _ => none
  | .unlockPut =>
    match s.producer with
    | .signalled => some { s with owner := none, producer := .outside }
    | _ => none
  | .lock i =>
    match s.consumer i, s.owner with
    | .atLock, none =>
      some { s with
        owner := some (.consumer i), consumer := Function.update s.consumer i .testing }
    | _, _ => none
  | .test i =>
    match s.consumer i with
    | .testing =>
      if ops.empty s.store then
        some { s with owner := none, consumer := Function.update s.consumer i .asleep }
      else
        some { s with
          consumer := Function.update s.consumer i (.taking (ops.next s.store) ops.take) }
    | _ => none
  | .take i =>
    match s.consumer i with
    | .taking a (f :: todo) =>
      some { s with
        store := f s.store, consumer := Function.update s.consumer i (.taking a todo) }
    | _ => none
  | .unlock i =>
    match s.consumer i with
    | .taking a [] =>
      some { s with owner := none, consumer := Function.update s.consumer i (.busy a) }
    | _ => none
  | .wake i =>
    match s.consumer i with
    | .asleep => some { s with consumer := Function.update s.consumer i .atLock }
    | _ => none
  | .finish i =>
    match s.consumer i with
    | .busy _ => some { s with consumer := Function.update s.consumer i .atLock }
    | _ => none

/-- The same, as rules. -/
inductive Moves (ops : Ops σ α) (s : Threads ι σ α) : Move ι α → Threads ι σ α → Prop
  | call (a : α) (h : s.producer = .outside) :
      Moves ops s (.call a) { s with producer := .atLock a }
  | lockPut (a : α) (h : s.producer = .atLock a) (hfree : s.owner = none) :
      Moves ops s .lockPut
        { s with owner := some .producer, producer := .putting (ops.put a) }
  | put (f : σ → σ) (todo : List (σ → σ)) (h : s.producer = .putting (f :: todo)) :
      Moves ops s .put { s with store := f s.store, producer := .putting todo }
  | signalNone (h : s.producer = .putting []) (hnone : ∀ i, (s.consumer i).isAsleep = false) :
      Moves ops s (.signal none) { s with producer := .signalled }
  | signal (i : ι) (h : s.producer = .putting []) (hi : s.consumer i = .asleep) :
      Moves ops s (.signal (some i))
        { s with producer := .signalled, consumer := Function.update s.consumer i .atLock }
  | unlockPut (h : s.producer = .signalled) :
      Moves ops s .unlockPut { s with owner := none, producer := .outside }
  | lock (i : ι) (hi : s.consumer i = .atLock) (hfree : s.owner = none) :
      Moves ops s (.lock i)
        { s with
          owner := some (.consumer i), consumer := Function.update s.consumer i .testing }
  | sleep (i : ι) (hi : s.consumer i = .testing) (hempty : ops.empty s.store = true) :
      Moves ops s (.test i)
        { s with owner := none, consumer := Function.update s.consumer i .asleep }
  | found (i : ι) (hi : s.consumer i = .testing) (hsome : ops.empty s.store = false) :
      Moves ops s (.test i)
        { s with
          consumer := Function.update s.consumer i (.taking (ops.next s.store) ops.take) }
  | take (i : ι) (a : α) (f : σ → σ) (todo : List (σ → σ))
      (hi : s.consumer i = .taking a (f :: todo)) :
      Moves ops s (.take i)
        { s with
          store := f s.store, consumer := Function.update s.consumer i (.taking a todo) }
  | unlock (i : ι) (a : α) (hi : s.consumer i = .taking a []) :
      Moves ops s (.unlock i)
        { s with owner := none, consumer := Function.update s.consumer i (.busy a) }
  | wake (i : ι) (hi : s.consumer i = .asleep) :
      Moves ops s (.wake i) { s with consumer := Function.update s.consumer i .atLock }
  | finish (i : ι) (a : α) (hi : s.consumer i = .busy a) :
      Moves ops s (.finish i) { s with consumer := Function.update s.consumer i .atLock }

variable {ops : Ops σ α} {s s' : Threads ι σ α} {m : Move ι α}

/-- The rules are what `step` does. -/
theorem moves_of_step (hstep : step ops s m = some s') : Moves ops s m s' := by
  cases m with
  | call a =>
    simp only [step] at hstep
    split at hstep
    · next h =>
      obtain rfl := Option.some.inj hstep
      exact .call a h
    · cases hstep
  | lockPut =>
    simp only [step] at hstep
    split at hstep
    · next a h hfree =>
      obtain rfl := Option.some.inj hstep
      exact .lockPut a h hfree
    · cases hstep
  | put =>
    simp only [step] at hstep
    split at hstep
    · next f todo h =>
      obtain rfl := Option.some.inj hstep
      exact .put f todo h
    · cases hstep
  | signal woken =>
    cases woken with
    | none =>
      simp only [step] at hstep
      split at hstep
      · next h =>
        split_ifs at hstep with hnone
        obtain rfl := Option.some.inj hstep
        exact .signalNone h hnone
      · cases hstep
    | some i =>
      simp only [step] at hstep
      split at hstep
      · next h hi =>
        obtain rfl := Option.some.inj hstep
        exact .signal i h hi
      · cases hstep
  | unlockPut =>
    simp only [step] at hstep
    split at hstep
    · next h =>
      obtain rfl := Option.some.inj hstep
      exact .unlockPut h
    · cases hstep
  | lock i =>
    simp only [step] at hstep
    split at hstep
    · next hi hfree =>
      obtain rfl := Option.some.inj hstep
      exact .lock i hi hfree
    · cases hstep
  | test i =>
    simp only [step] at hstep
    split at hstep
    · next hi =>
      split_ifs at hstep with hempty
      · obtain rfl := Option.some.inj hstep
        exact .sleep i hi hempty
      · obtain rfl := Option.some.inj hstep
        exact .found i hi (Bool.eq_false_of_not_eq_true hempty)
    · cases hstep
  | take i =>
    simp only [step] at hstep
    split at hstep
    · next a f todo hi =>
      obtain rfl := Option.some.inj hstep
      exact .take i a f todo hi
    · cases hstep
  | unlock i =>
    simp only [step] at hstep
    split at hstep
    · next a hi =>
      obtain rfl := Option.some.inj hstep
      exact .unlock i a hi
    · cases hstep
  | wake i =>
    simp only [step] at hstep
    split at hstep
    · next hi =>
      obtain rfl := Option.some.inj hstep
      exact .wake i hi
    · cases hstep
  | finish i =>
    simp only [step] at hstep
    split at hstep
    · next a hi =>
      obtain rfl := Option.some.inj hstep
      exact .finish i a hi
    · cases hstep

end Step

/-! ## The mutex -/

/-- The producer is in its critical section. -/
def ProducerAt.inside : ProducerAt σ α → Bool
  | putting _ => true
  | signalled => true
  | _ => false

/-- A consumer is in its critical section. -/
def ConsumerAt.inside : ConsumerAt σ α → Bool
  | testing => true
  | taking _ _ => true
  | _ => false

/-- Who is in a critical section holds the mutex. -/
structure Locked (s : Threads ι σ α) : Prop where
  producer : s.producer.inside = true ↔ s.owner = some .producer
  consumer (i : ι) : (s.consumer i).inside = true ↔ s.owner = some (.consumer i)

section Locked

variable {s : Threads ι σ α} {i : ι}

theorem locked_start (s : σ) : Locked (Threads.start ι α s) :=
  ⟨iff_of_false Bool.false_ne_true (Option.some_ne_none _).symm,
    fun _ => iff_of_false Bool.false_ne_true (Option.some_ne_none _).symm⟩

/-- While the producer is in its section no consumer is in one. -/
theorem Locked.out_of_producer (h : Locked s) (hp : s.producer.inside = true) (i : ι) :
    (s.consumer i).inside = false := by
  apply Bool.eq_false_of_not_eq_true
  rw [h.consumer i, h.producer.mp hp]
  nofun

variable [DecidableEq ι]

/-- A consumer that stays inside, or outside. -/
theorem Locked.update (h : Locked s) {c : ConsumerAt σ α} (hc : c.inside = (s.consumer i).inside)
    (store : σ) : Locked { s with store := store, consumer := Function.update s.consumer i c } := by
  refine ⟨h.producer, fun j => ?_⟩
  show (Function.update s.consumer i c j).inside = true ↔ _
  by_cases hj : j = i
  · subst hj
    rw [Function.update_self, hc]
    exact h.consumer j
  · rw [Function.update_of_ne hj]
    exact h.consumer j

/-- A consumer that enters, from a free mutex. -/
theorem Locked.enter (h : Locked s) (hfree : s.owner = none) {c : ConsumerAt σ α}
    (hc : c.inside = true) : Locked { s with
      owner := some (.consumer i), consumer := Function.update s.consumer i c } := by
  refine ⟨?_, fun j => ?_⟩
  · have hout : ¬ s.producer.inside = true := by
      rw [h.producer, hfree]
      nofun
    exact iff_of_false hout (by nofun)
  · show (Function.update s.consumer i c j).inside = true ↔ some (Holder.consumer i) = _
    by_cases hj : j = i
    · subst hj
      rw [Function.update_self]
      exact iff_of_true hc rfl
    · rw [Function.update_of_ne hj, h.consumer j, hfree, Option.some.injEq, Holder.consumer.injEq]
      exact iff_of_false (by nofun) (Ne.symm hj)

/-- A consumer that leaves. -/
theorem Locked.leave (h : Locked s) (hi : (s.consumer i).inside = true) {c : ConsumerAt σ α}
    (hc : c.inside = false) :
    Locked { s with owner := none, consumer := Function.update s.consumer i c } := by
  have howner := (h.consumer i).mp hi
  refine ⟨?_, fun j => ?_⟩
  · have hout : ¬ s.producer.inside = true := by
      rw [h.producer, howner]
      nofun
    exact iff_of_false hout (by nofun)
  · show (Function.update s.consumer i c j).inside = true ↔ none = _
    by_cases hj : j = i
    · subst hj
      rw [Function.update_self, hc]
      exact iff_of_false Bool.false_ne_true (by nofun)
    · rw [Function.update_of_ne hj, h.consumer j, howner, Option.some.injEq, Holder.consumer.injEq]
      exact iff_of_false (Ne.symm hj) (by nofun)

/-- **The mutex excludes.** -/
theorem Locked.step {ops : Ops σ α} {s' : Threads ι σ α} {m : Move ι α}
    (h : Locked s) (hmoves : Moves ops s m s') : Locked s' := by
  cases hmoves with
  | call a hout => exact ⟨by rw [← h.producer, hout]; rfl, h.consumer⟩
  | lockPut a hp hfree =>
    refine ⟨iff_of_true rfl rfl, fun i => ?_⟩
    show _ ↔ some Holder.producer = _
    rw [h.consumer i, hfree]
    exact iff_of_false (by nofun) (by nofun)
  | put f todo hp => exact ⟨by rw [← h.producer, hp]; rfl, h.consumer⟩
  | signalNone hp hnone => exact ⟨by rw [← h.producer, hp]; rfl, h.consumer⟩
  | signal i hp hi =>
    have hw := h.update (i := i) (c := .atLock) (by rw [hi]; rfl) s.store
    exact ⟨by rw [← h.producer, hp]; rfl, hw.consumer⟩
  | unlockPut hp =>
    refine ⟨iff_of_false Bool.false_ne_true (by nofun), fun i => ?_⟩
    show _ ↔ none = _
    rw [h.out_of_producer (by rw [hp]; rfl) i]
    exact iff_of_false Bool.false_ne_true (by nofun)
  | lock i hi hfree => exact h.enter hfree rfl
  | sleep i hi hempty => exact h.leave (by rw [hi]; rfl) rfl
  | found i hi hsome => exact h.update (by rw [hi]; rfl) s.store
  | take i a f todo hi => exact h.update (by rw [hi]; rfl) (f s.store)
  | unlock i a hi => exact h.leave (by rw [hi]; rfl) rfl
  | wake i hi => exact h.update (by rw [hi]; rfl) s.store
  | finish i a hi => exact h.update (by rw [hi]; rfl) s.store

end Locked

/-! ## Critical sections as single steps -/

/-- What the producer has still to do to the store. -/
def ProducerAt.todo : ProducerAt σ α → List (σ → σ)
  | putting todo => todo
  | _ => []

/-- What a consumer has still to do to the store. -/
def ConsumerAt.todo : ConsumerAt σ α → List (σ → σ)
  | taking _ todo => todo
  | _ => []

/-- What a consumer has taken. -/
def ConsumerAt.job : ConsumerAt σ α → Option α
  | taking a _ => some a
  | busy a => some a
  | _ => none

/-- The store as it will be once the mutex is free. -/
def Threads.completed (s : Threads ι σ α) : σ :=
  match s.owner with
  | none => s.store
  | some .producer => runAll s.producer.todo s.store
  | some (.consumer i) => runAll (s.consumer i).todo s.store

/-- The store and what the consumers have taken. -/
structure Atomic (ι σ α : Type*) where
  store : σ
  job : ι → Option α

/-- What the threads have come to, with critical sections counted whole. -/
def Threads.atomic (s : Threads ι σ α) : Atomic ι σ α := ⟨s.completed, fun i => (s.consumer i).job⟩

/-- A critical section, or a consumer that is through with an element. -/
inductive AtomicMove (ι α : Type*) where
  | put (a : α)
  | take (i : ι)
  | finish (i : ι)

/-- A consumer waits for something to take, and takes it. -/
def atomicStep [DecidableEq ι] (ops : Ops σ α) (s : Atomic ι σ α) :
    AtomicMove ι α → Option (Atomic ι σ α)
  | .put a => some { s with store := runAll (ops.put a) s.store }
  | .take i =>
    if s.job i = none ∧ ops.empty s.store = false then
      some ⟨runAll ops.take s.store, Function.update s.job i (some (ops.next s.store))⟩
    else none
  | .finish i =>
    if s.job i = none then none else some { s with job := Function.update s.job i none }

/-- What a move is among the critical sections: they count where they are entered. -/
def Threads.shown (ops : Ops σ α) (s : Threads ι σ α) : Move ι α → List (AtomicMove ι α)
  | .lockPut =>
    match s.producer with
    | .atLock a => [.put a]
    | _ => []
  | .test i => if ops.empty s.store then [] else [.take i]
  | .finish i => [.finish i]
  | _ => []

section Atomic

variable {s s' : Threads ι σ α} {i : ι}

theorem completed_of_free (h : s.owner = none) : s.completed = s.store := by
  rw [Threads.completed, h]

theorem completed_of_producer (h : s.owner = some .producer) :
    s.completed = runAll s.producer.todo s.store := by
  rw [Threads.completed, h]

theorem completed_of_consumer (h : s.owner = some (.consumer i)) :
    s.completed = runAll (s.consumer i).todo s.store := by
  rw [Threads.completed, h]

theorem producer_of_put_mem {ops : Ops σ α} {m : Move ι α} {a : α}
    (h : .put a ∈ s.shown ops m) : s.producer = .atLock a := by
  cases m with
  | lockPut =>
    cases hp : s.producer with
    | atLock b =>
      simp only [Threads.shown, hp, List.mem_singleton, AtomicMove.put.injEq] at h
      rw [h]
    | _ => simp [Threads.shown, hp] at h
  | test i =>
    simp only [Threads.shown] at h
    split_ifs at h <;> simp at h
  | finish i => simp [Threads.shown] at h
  | _ => exact absurd h List.not_mem_nil

/-- The producer goes on without touching the store. -/
theorem completed_producer {p : ProducerAt σ α} (htodo : p.todo = s.producer.todo) :
    Threads.completed { s with producer := p } = s.completed := by
  unfold Threads.completed
  cases s.owner with
  | none => rfl
  | some o =>
    cases o with
    | producer =>
      dsimp only
      rw [htodo]
    | consumer j => rfl

variable [DecidableEq ι] {c : ConsumerAt σ α}

/-- A consumer goes on without touching the store. -/
theorem completed_consumer (htodo : c.todo = (s.consumer i).todo) :
    Threads.completed { s with consumer := Function.update s.consumer i c } = s.completed := by
  unfold Threads.completed
  cases s.owner with
  | none => rfl
  | some o =>
    cases o with
    | producer => rfl
    | consumer j =>
      dsimp only
      by_cases hj : j = i
      · subst hj
        rw [Function.update_self, htodo]
      · rw [Function.update_of_ne hj]

/-- The lock holder goes on. -/
theorem completed_holder (howner : s.owner = some (.consumer i)) (store : σ) :
    Threads.completed { s with store := store, consumer := Function.update s.consumer i c }
      = runAll c.todo store := by
  rw [completed_of_consumer (by exact howner)]
  show runAll (Function.update s.consumer i c i).todo store = _
  rw [Function.update_self]

theorem job_update (f : ι → ConsumerAt σ α) (i : ι) (c : ConsumerAt σ α) :
    (fun j => (Function.update f i c j).job) = Function.update (fun j => (f j).job) i c.job :=
  Function.comp_update ConsumerAt.job f i c

/-- A consumer goes on with what it has. -/
theorem job_update_same {f : ι → ConsumerAt σ α} (hjob : c.job = (f i).job) :
    (fun j => (Function.update f i c j).job) = fun j => (f j).job := by
  rw [job_update, hjob]
  exact Function.update_eq_self i _

/-- A move inside a critical section, or outside of all, is none of its own. -/
theorem exec_nil_atomic {ops : Ops σ α} (hstore : s'.completed = s.completed)
    (hjob : (fun i => (s'.consumer i).job) = fun i => (s.consumer i).job) :
    Runs.exec (atomicStep ops) s.atomic [] = some s'.atomic :=
  congrArg some (congrArg₂ Atomic.mk hstore.symm hjob.symm)

/-- **What the threads do is a run of critical sections.** -/
theorem atomic_of_moves {ops : Ops σ α} {m : Move ι α} (h : Locked s)
    (hmoves : Moves ops s m s') :
    Runs.exec (atomicStep ops) s.atomic (s.shown ops m) = some s'.atomic := by
  cases hmoves with
  | call a hout => exact exec_nil_atomic (completed_producer (by rw [hout]; rfl)) rfl
  | lockPut a hp hfree =>
    have hshown : s.shown ops .lockPut = [.put a] := by
      simp only [Threads.shown, hp]
    rw [hshown, Runs.exec_singleton]
    show some (Atomic.mk (runAll (ops.put a) s.completed) _) = _
    rw [completed_of_free hfree]
    rfl
  | put f todo hp =>
    have howner := h.producer.mp (by rw [hp]; rfl)
    refine exec_nil_atomic ?_ rfl
    rw [completed_of_producer howner, completed_of_producer (by exact howner), hp]
    rfl
  | signalNone hp hnone => exact exec_nil_atomic (completed_producer (by rw [hp]; rfl)) rfl
  | signal i hp hi =>
    refine exec_nil_atomic ?_ (job_update_same (by rw [hi]; rfl))
    -- the signal, and then the sleeper that it wakes
    have hsignal : Threads.completed { s with producer := .signalled } = s.completed :=
      completed_producer (by rw [hp]; rfl)
    rw [← hsignal]
    exact completed_consumer (s := { s with producer := .signalled }) (by
      show _ = (s.consumer i).todo
      rw [hi]
      rfl)
  | unlockPut hp =>
    have howner := h.producer.mp (by rw [hp]; rfl)
    refine exec_nil_atomic ?_ rfl
    rw [completed_of_producer howner, completed_of_free rfl, hp]
    rfl
  | lock i hi hfree =>
    refine exec_nil_atomic ?_ (job_update_same (by rw [hi]; rfl))
    rw [completed_of_free hfree]
    exact completed_holder (s := { s with owner := some (.consumer i) }) rfl s.store
  | sleep i hi hempty =>
    have howner := (h.consumer i).mp (by rw [hi]; rfl)
    have hshown : s.shown ops (.test i) = [] := if_pos hempty
    rw [hshown]
    refine exec_nil_atomic ?_ (job_update_same (by rw [hi]; rfl))
    rw [completed_of_consumer howner, completed_of_free rfl, hi]
    rfl
  | found i hi hsome =>
    have howner := (h.consumer i).mp (by rw [hi]; rfl)
    have hstore : s.completed = s.store := by
      rw [completed_of_consumer howner, hi]
      rfl
    have hshown : s.shown ops (.test i) = [.take i] :=
      if_neg (by rw [hsome]; exact Bool.false_ne_true)
    have hidle : (s.consumer i).job = none := by rw [hi]; rfl
    rw [hshown, Runs.exec_singleton]
    show (if (s.consumer i).job = none ∧ ops.empty s.completed = false then
      some (Atomic.mk (runAll ops.take s.completed)
        (Function.update (fun j => (s.consumer j).job) i (some (ops.next s.completed))))
      else none) = _
    rw [hstore, if_pos ⟨hidle, hsome⟩]
    have htaken := completed_holder (c := .taking (ops.next s.store) ops.take) howner s.store
    have hjobs := job_update s.consumer i (.taking (ops.next s.store) ops.take)
    exact congrArg some (congrArg₂ Atomic.mk htaken.symm hjobs.symm)
  | take i a f todo hi =>
    have howner := (h.consumer i).mp (by rw [hi]; rfl)
    refine exec_nil_atomic ?_ (job_update_same (by rw [hi]; rfl))
    rw [completed_of_consumer howner, hi]
    exact completed_holder howner (f s.store)
  | unlock i a hi =>
    have howner := (h.consumer i).mp (by rw [hi]; rfl)
    refine exec_nil_atomic ?_ (job_update_same (by rw [hi]; rfl))
    rw [completed_of_consumer howner, completed_of_free rfl, hi]
    rfl
  | wake i hi =>
    exact exec_nil_atomic (completed_consumer (by rw [hi]; rfl)) (job_update_same (by rw [hi]; rfl))
  | finish i a hi =>
    have hjob : (s.consumer i).job = some a := by rw [hi]; rfl
    show Runs.exec _ _ [AtomicMove.finish i] = _
    rw [Runs.exec_singleton]
    show (if (s.consumer i).job = none then none else
      some (Atomic.mk s.completed (Function.update (fun j => (s.consumer j).job) i none))) = _
    rw [if_neg (by rw [hjob]; exact Option.some_ne_none a)]
    exact congrArg some (congrArg₂ Atomic.mk (completed_consumer (by rw [hi]; rfl)).symm
      (job_update s.consumer i .atLock).symm)

variable {ops : Ops σ α} {m : Move ι α}

theorem completed_of_shown_nil (h : Locked s) (hmoves : Moves ops s m s')
    (hshown : s.shown ops m = []) : s'.completed = s.completed := by
  have hatomic := atomic_of_moves h hmoves
  rw [hshown] at hatomic
  exact congrArg Atomic.store (Option.some.inj hatomic).symm

theorem completed_of_shown_put {a : α} (h : Locked s) (hmoves : Moves ops s m s')
    (hshown : s.shown ops m = [.put a]) : s'.completed = runAll (ops.put a) s.completed := by
  have hatomic := atomic_of_moves h hmoves
  rw [hshown, Runs.exec_singleton] at hatomic
  exact congrArg Atomic.store (Option.some.inj hatomic).symm

theorem completed_of_shown_take (h : Locked s) (hmoves : Moves ops s m s')
    (hshown : s.shown ops m = [.take i]) :
    ops.empty s.completed = false ∧ s'.completed = runAll ops.take s.completed := by
  have hatomic := atomic_of_moves h hmoves
  rw [hshown, Runs.exec_singleton, atomicStep] at hatomic
  split_ifs at hatomic with hcan
  exact ⟨hcan.2, congrArg Atomic.store (Option.some.inj hatomic).symm⟩

theorem completed_of_shown_finish (h : Locked s) (hmoves : Moves ops s m s')
    (hshown : s.shown ops m = [.finish i]) : s'.completed = s.completed := by
  have hatomic := atomic_of_moves h hmoves
  rw [hshown, Runs.exec_singleton, atomicStep] at hatomic
  split_ifs at hatomic
  exact congrArg Atomic.store (Option.some.inj hatomic).symm

end Atomic

/-! ## No wake-up is lost -/

/-- The store counts what is in it, as long as it is one of those that `Good` says. -/
structure Counts (ops : Ops σ α) (Good : σ → Prop) (size : σ → ℕ) : Prop where
  empty_iff : ∀ {s}, Good s → (ops.empty s = true ↔ size s = 0)
  good_put : ∀ {s}, Good s → ∀ a, Good (runAll (ops.put a) s)
  size_put : ∀ {s}, Good s → ∀ a, size (runAll (ops.put a) s) = size s + 1
  good_take : ∀ {s}, Good s → ops.empty s = false → Good (runAll ops.take s)
  size_take : ∀ {s}, Good s → ops.empty s = false → size (runAll ops.take s) + 1 = size s

/-- The consumer is on its way to the test. -/
def ConsumerAt.coming : ConsumerAt σ α → ℕ
  | atLock => 1
  | testing => 1
  | _ => 0

/-- The signal that goes with an element is still to be given. -/
def ProducerAt.pending : ProducerAt σ α → ℕ
  | putting _ => 1
  | _ => 0

/-- A sum over the consumers. -/
def total [Fintype ι] (f : ConsumerAt σ α → ℕ) (consumer : ι → ConsumerAt σ α) : ℕ :=
  ∑ i, f (consumer i)

/-- While somebody sleeps, there is somebody on the way for each element, or the signal comes. -/
structure Awake [Fintype ι] (Good : σ → Prop) (size : σ → ℕ) (s : Threads ι σ α) : Prop where
  good : Good s.completed
  enough : ∀ i, (s.consumer i).isAsleep = true →
    size s.completed ≤ total ConsumerAt.coming s.consumer + s.producer.pending

section Awake

variable {s s' : Threads ι σ α} {i : ι} {c : ConsumerAt σ α}

theorem awake_start [Fintype ι] {Good : σ → Prop} {size : σ → ℕ} {s : σ} (h : Good s) :
    Awake Good size (Threads.start ι α s) :=
  ⟨h, fun _ hasleep => absurd hasleep Bool.false_ne_true⟩

/-- As much in the store, nobody new asleep, and no fewer on the way. -/
theorem Awake.mono [Fintype ι] {Good : σ → Prop} {size : σ → ℕ} (h : Awake Good size s)
    (hstore : s'.completed = s.completed)
    (hasleep : ∀ j, (s'.consumer j).isAsleep = true → (s.consumer j).isAsleep = true)
    (hle : total ConsumerAt.coming s.consumer + s.producer.pending ≤
      total ConsumerAt.coming s'.consumer + s'.producer.pending) : Awake Good size s' := by
  refine ⟨hstore ▸ h.good, fun j hj => ?_⟩
  rw [hstore]
  exact (h.enough j (hasleep j hj)).trans hle

variable [DecidableEq ι]

theorem asleep_of_update (hc : c.isAsleep = false) {j : ι}
    (hj : (Function.update s.consumer i c j).isAsleep = true) :
    (s.consumer j).isAsleep = true := by
  by_cases heq : j = i
  · subst heq
    rw [Function.update_self, hc] at hj
    cases hj
  · rwa [Function.update_of_ne heq] at hj

variable [Fintype ι]

/-- One summand changes. -/
theorem total_update (f : ConsumerAt σ α → ℕ) {consumer : ι → ConsumerAt σ α}
    (hi : consumer i = c) (c' : ConsumerAt σ α) :
    total f (Function.update consumer i c') + f c = total f consumer + f c' := by
  subst hi
  have hcomp : ∀ j, f (Function.update consumer i c' j) =
      Function.update (fun j => f (consumer j)) i (f c') j :=
    congrFun (Function.comp_update f consumer i c')
  have hmem := Finset.mem_univ i
  unfold total
  rw [Finset.sum_congr rfl fun j _ => hcomp j, Finset.sum_update_of_mem hmem,
    Finset.sum_eq_add_sum_sdiff_singleton_of_mem hmem fun j => f (consumer j)]
  omega

variable {ops : Ops σ α} {m : Move ι α} {Good : σ → Prop} {size : σ → ℕ}

/-- A consumer that goes on is still on its way, unless it takes something. -/
theorem Awake.consumer (h : Awake Good size s) (hi : s.consumer i = c) {c' : ConsumerAt σ α}
    (hconsumer : s'.consumer = Function.update s.consumer i c') (hle : c.coming ≤ c'.coming)
    (hc : c'.isAsleep = false) (hstore : s'.completed = s.completed)
    (hproducer : s'.producer = s.producer) : Awake Good size s' := by
  have htotal := total_update ConsumerAt.coming hi c'
  refine h.mono hstore (fun j hj => ?_) ?_
  · rw [hconsumer] at hj
    exact asleep_of_update hc hj
  · rw [hproducer, hconsumer]
    omega

/-- **No wake-up is lost.** -/
theorem Awake.step (hcounts : Counts ops Good size) (hlocked : Locked s) (h : Awake Good size s)
    (hmoves : Moves ops s m s') : Awake Good size s' := by
  have hnil := completed_of_shown_nil hlocked hmoves
  have hput := fun a => completed_of_shown_put (a := a) hlocked hmoves
  have htake := fun i => completed_of_shown_take (i := i) hlocked hmoves
  have hfinish := fun i => completed_of_shown_finish (i := i) hlocked hmoves
  cases hmoves with
  | call a hout =>
    refine h.mono (hnil rfl) (fun j hj => hj) ?_
    rw [hout]
    exact le_rfl
  | lockPut a hp hfree =>
    have hstore := hput a (by simp only [Threads.shown, hp])
    refine ⟨hstore ▸ hcounts.good_put h.good a, fun j hj => ?_⟩
    -- there is one more, and its signal is still to come
    have hbefore := h.enough j hj
    rw [hp] at hbefore
    rw [hstore, hcounts.size_put h.good a]
    exact Nat.succ_le_succ hbefore
  | put f todo hp =>
    refine h.mono (hnil rfl) (fun j hj => hj) ?_
    rw [hp]
    exact le_rfl
  | signalNone hp hnone =>
    refine ⟨hnil rfl ▸ h.good, fun j hj => ?_⟩
    exact absurd ((hnone j).symm.trans hj) Bool.false_ne_true
  | signal i hp hi =>
    -- the sleeper is on its way now
    have htotal := total_update ConsumerAt.coming hi .atLock
    refine h.mono (hnil rfl) (fun j hj => asleep_of_update rfl hj) ?_
    rw [hp]
    exact htotal.ge
  | unlockPut hp =>
    refine h.mono (hnil rfl) (fun j hj => hj) ?_
    rw [hp]
    exact le_rfl
  | lock i hi hfree => exact h.consumer hi rfl le_rfl rfl (hnil rfl) rfl
  | sleep i hi hempty =>
    have hstore := hnil (if_pos hempty)
    refine ⟨hstore ▸ h.good, fun j hj => ?_⟩
    have howner := (hlocked.consumer i).mp (by rw [hi]; rfl)
    have hcompleted : s.completed = s.store := by
      rw [completed_of_consumer howner, hi]
      rfl
    have hzero := (hcounts.empty_iff h.good).mp (hcompleted.symm ▸ hempty)
    rw [hstore, hzero]
    exact Nat.zero_le _
  | found i hi hsome =>
    obtain ⟨hsome', hstore⟩ :=
      htake i (if_neg (by rw [hsome]; exact Bool.false_ne_true))
    refine ⟨hstore ▸ hcounts.good_take h.good hsome', fun j hj => ?_⟩
    -- one fewer on the way, and one fewer in the store
    have hbefore := h.enough j (asleep_of_update rfl hj)
    have hsize := hcounts.size_take h.good hsome'
    have htotal := total_update ConsumerAt.coming hi (.taking (ops.next s.store) ops.take)
    rw [hstore]
    dsimp only [ConsumerAt.coming] at htotal ⊢
    omega
  | take i a f todo hi => exact h.consumer hi rfl le_rfl rfl (hnil rfl) rfl
  | unlock i a hi => exact h.consumer hi rfl le_rfl rfl (hnil rfl) rfl
  | wake i hi => exact h.consumer hi rfl (Nat.zero_le _) rfl (hnil rfl) rfl
  | finish i a hi => exact h.consumer hi rfl (Nat.zero_le _) rfl (hfinish i rfl) rfl

end Awake

/-! ## Coming to rest -/

/-- A thread makes the move by itself: no new element comes, nobody is through with one, and
nobody wakes for nothing. -/
def Move.Own : Move ι α → Prop
  | call _ => False
  | wake _ => False
  | finish _ => False
  | _ => True

/-- Nobody moves by itself. -/
def AtRest [DecidableEq ι] [Fintype ι] (ops : Ops σ α) (s : Threads ι σ α) : Prop :=
  ∀ m : Move ι α, m.Own → step ops s m = none

/-- How many moves a consumer has still to make, at most. -/
def ConsumerAt.work (ops : Ops σ α) : ConsumerAt σ α → ℕ
  | atLock => ops.take.length + 3
  | testing => ops.take.length + 2
  | taking _ todo => todo.length + 1
  | _ => 0

/-- How many moves the producer has still to make, with those of who is woken by it. -/
def ProducerAt.work (ops : Ops σ α) : ProducerAt σ α → ℕ
  | outside => 0
  | atLock a => (ops.put a).length + ops.take.length + 6
  | putting todo => todo.length + ops.take.length + 5
  | signalled => 1

/-- How many moves the threads have still to make, at most. -/
def Threads.work [Fintype ι] (ops : Ops σ α) (s : Threads ι σ α) : ℕ :=
  s.producer.work ops + total (ConsumerAt.work ops) s.consumer

section Rest

variable {ops : Ops σ α} {s s' : Threads ι σ α} {m : Move ι α}

/-- Nobody has more to do than what is in its section. -/
structure Short (ops : Ops σ α) (b : ℕ) (s : Threads ι σ α) : Prop where
  producer : s.producer.todo.length ≤ b
  consumer (i : ι) : (s.consumer i).todo.length ≤ ops.take.length

theorem short_start (b : ℕ) (s : σ) : Short ops b (Threads.start ι α s) :=
  ⟨Nat.zero_le _, fun _ => Nat.zero_le _⟩

/-- The threads are never far from rest. -/
theorem Short.work_le [Fintype ι] {b : ℕ} (hput : ∀ a, (ops.put a).length ≤ b) (h : Short ops b s) :
    s.work ops ≤ b + ops.take.length + 6 + Fintype.card ι * (ops.take.length + 3) := by
  have hproducer : s.producer.work ops ≤ b + ops.take.length + 6 := by
    have hlen := h.producer
    cases hp : s.producer with
    | outside => exact Nat.zero_le _
    | atLock a =>
      have ha := hput a
      dsimp only [ProducerAt.work]
      omega
    | putting todo =>
      rw [hp] at hlen
      dsimp only [ProducerAt.work, ProducerAt.todo] at hlen ⊢
      omega
    | signalled =>
      dsimp only [ProducerAt.work]
      omega
  have hconsumer : ∀ i ∈ Finset.univ, (s.consumer i).work ops ≤ ops.take.length + 3 := by
    intro i _
    have hlen := h.consumer i
    cases hc : s.consumer i with
    | atLock => exact le_rfl
    | testing => exact Nat.le_succ _
    | asleep => exact Nat.zero_le _
    | taking a todo =>
      rw [hc] at hlen
      dsimp only [ConsumerAt.work, ConsumerAt.todo] at hlen ⊢
      omega
    | busy a => exact Nat.zero_le _
  have htotal := Finset.sum_le_card_nsmul _ _ _ hconsumer
  rw [smul_eq_mul, Finset.card_univ] at htotal
  exact Nat.add_le_add hproducer htotal

theorem work_producer_lt [Fintype ι] {p p' : ProducerAt σ α} (hp : s.producer = p)
    (hlt : p'.work ops < p.work ops) :
    p'.work ops + total (ConsumerAt.work ops) s.consumer < s.work ops := by
  unfold Threads.work
  rw [hp]
  exact Nat.add_lt_add_right hlt _

variable [DecidableEq ι]

theorem Short.update {b : ℕ} (h : Short ops b s) {i : ι} {c : ConsumerAt σ α}
    (hc : c.todo.length ≤ ops.take.length) (j : ι) :
    (Function.update s.consumer i c j).todo.length ≤ ops.take.length := by
  by_cases hj : j = i
  · subst hj
    rw [Function.update_self]
    exact hc
  · rw [Function.update_of_ne hj]
    exact h.consumer j

theorem Short.step {b : ℕ} (hput : ∀ a, (ops.put a).length ≤ b) (h : Short ops b s)
    (hmoves : Moves ops s m s') : Short ops b s' := by
  cases hmoves with
  | call a hout => exact ⟨Nat.zero_le _, h.consumer⟩
  | lockPut a hp hfree => exact ⟨hput a, h.consumer⟩
  | put f todo hp =>
    have hlen := h.producer
    rw [hp] at hlen
    exact ⟨(Nat.le_succ _).trans hlen, h.consumer⟩
  | signalNone hp hnone => exact ⟨Nat.zero_le _, h.consumer⟩
  | signal i hp hi => exact ⟨Nat.zero_le _, h.update (Nat.zero_le _)⟩
  | unlockPut hp => exact ⟨Nat.zero_le _, h.consumer⟩
  | lock i hi hfree => exact ⟨h.producer, h.update (Nat.zero_le _)⟩
  | sleep i hi hempty => exact ⟨h.producer, h.update (Nat.zero_le _)⟩
  | found i hi hsome => exact ⟨h.producer, h.update le_rfl⟩
  | take i a f todo hi =>
    have hlen := h.consumer i
    rw [hi] at hlen
    exact ⟨h.producer, h.update ((Nat.le_succ _).trans hlen)⟩
  | unlock i a hi => exact ⟨h.producer, h.update (Nat.zero_le _)⟩
  | wake i hi => exact ⟨h.producer, h.update (Nat.zero_le _)⟩
  | finish i a hi => exact ⟨h.producer, h.update (Nat.zero_le _)⟩

variable [Fintype ι]

theorem work_consumer_lt {i : ι} {c c' : ConsumerAt σ α} (hi : s.consumer i = c)
    (hlt : c'.work ops < c.work ops) :
    s.producer.work ops + total (ConsumerAt.work ops) (Function.update s.consumer i c')
      < s.work ops := by
  have htotal := total_update (ConsumerAt.work ops) hi c'
  unfold Threads.work
  omega

/-- Every move of their own brings the threads closer to rest. -/
theorem work_lt_of_moves (hmoves : Moves ops s m s') (hown : m.Own) :
    s'.work ops < s.work ops := by
  cases hmoves with
  | call a hout => exact hown.elim
  | wake i hi => exact hown.elim
  | finish i a hi => exact hown.elim
  | lockPut a hp hfree => exact work_producer_lt hp (Nat.lt_succ_self _)
  | put f todo hp =>
    apply work_producer_lt hp
    dsimp only [ProducerAt.work]
    rw [List.length_cons]
    omega
  | signalNone hp hnone =>
    apply work_producer_lt hp
    dsimp only [ProducerAt.work]
    omega
  | signal i hp hi =>
    -- the signal has been charged for the way of the one it wakes
    have htotal := total_update (ConsumerAt.work ops) hi .atLock
    unfold Threads.work
    rw [hp]
    dsimp only [ProducerAt.work, ConsumerAt.work, List.length_nil] at htotal ⊢
    omega
  | unlockPut hp => exact work_producer_lt hp Nat.one_pos
  | lock i hi hfree => exact work_consumer_lt hi (Nat.lt_succ_self _)
  | sleep i hi hempty => exact work_consumer_lt hi (Nat.succ_pos _)
  | found i hi hsome => exact work_consumer_lt hi (Nat.lt_succ_self _)
  | take i a f todo hi => exact work_consumer_lt hi (Nat.lt_succ_self _)
  | unlock i a hi => exact work_consumer_lt hi Nat.one_pos

/-- **The threads come to rest by themselves.** -/
theorem length_add_work_le {ms : List (Move ι α)} (hown : ∀ m ∈ ms, m.Own)
    (hrun : Runs.exec (step ops) s ms = some s') : ms.length + s'.work ops ≤ s.work ops := by
  induction ms generalizing s with
  | nil =>
    obtain rfl := Option.some.inj hrun
    exact (Nat.zero_add _).le
  | cons m ms ih =>
    obtain ⟨s₁, hstep, hrest⟩ := (Runs.exec_cons_eq_some (step ops)).mp hrun
    have hfirst := work_lt_of_moves (moves_of_step hstep) (hown m List.mem_cons_self)
    have hothers := ih (fun m hm => hown m (List.mem_cons_of_mem _ hm)) hrest
    rw [List.length_cons]
    omega

/-- Who holds the mutex can go on. -/
theorem AtRest.free (h : AtRest ops s) (hlocked : Locked s) : s.owner = none := by
  cases howner : s.owner with
  | none => rfl
  | some o =>
    exfalso
    cases o with
    | producer =>
      have hin := hlocked.producer.mpr howner
      cases hp : s.producer with
      | outside => simp [hp, ProducerAt.inside] at hin
      | atLock a => simp [hp, ProducerAt.inside] at hin
      | putting todo =>
        cases todo with
        | nil =>
          by_cases hasleep : ∀ i, (s.consumer i).isAsleep = false
          · have hstep := h (.signal none) trivial
            simp only [step, hp, if_pos hasleep, reduceCtorEq] at hstep
          · obtain ⟨i, hi⟩ := not_forall.mp hasleep
            have hstep := h (.signal (some i)) trivial
            cases hc : s.consumer i with
            | asleep => simp only [step, hp, hc, reduceCtorEq] at hstep
            | _ => exact hi (by rw [hc]; rfl)
        | cons f todo =>
          have hstep := h .put trivial
          simp only [step, hp, reduceCtorEq] at hstep
      | signalled =>
        have hstep := h .unlockPut trivial
        simp only [step, hp, reduceCtorEq] at hstep
    | consumer i =>
      have hin := (hlocked.consumer i).mpr howner
      cases hc : s.consumer i with
      | testing =>
        have hstep := h (.test i) trivial
        simp only [step, hc] at hstep
        split_ifs at hstep
      | taking a todo =>
        cases todo with
        | nil =>
          have hstep := h (.unlock i) trivial
          simp only [step, hc, reduceCtorEq] at hstep
        | cons f todo =>
          have hstep := h (.take i) trivial
          simp only [step, hc, reduceCtorEq] at hstep
      | _ => simp [hc, ConsumerAt.inside] at hin

theorem AtRest.producer_outside (h : AtRest ops s) (hlocked : Locked s) :
    s.producer = .outside := by
  have hfree := h.free hlocked
  have hout : ¬ s.producer.inside = true := by
    rw [hlocked.producer, hfree]
    nofun
  cases hp : s.producer with
  | outside => rfl
  | atLock a =>
    have hstep := h .lockPut trivial
    simp only [step, hp, hfree, reduceCtorEq] at hstep
  | putting todo => exact absurd (by rw [hp]; rfl) hout
  | signalled => exact absurd (by rw [hp]; rfl) hout

/-- At rest a consumer sleeps or has got something. -/
theorem AtRest.consumer (h : AtRest ops s) (hlocked : Locked s) (i : ι) :
    s.consumer i = .asleep ∨ ∃ a, s.consumer i = .busy a := by
  have hfree := h.free hlocked
  have hout : ¬ (s.consumer i).inside = true := by
    rw [hlocked.consumer i, hfree]
    nofun
  cases hc : s.consumer i with
  | atLock =>
    have hstep := h (.lock i) trivial
    simp only [step, hc, hfree, reduceCtorEq] at hstep
  | testing => exact absurd (by rw [hc]; rfl) hout
  | asleep => exact Or.inl rfl
  | taking a todo => exact absurd (by rw [hc]; rfl) hout
  | busy a => exact Or.inr ⟨a, rfl⟩

/-- **At rest nothing is left**, or no consumer is free. -/
theorem AtRest.nothing_left {Good : σ → Prop} {size : σ → ℕ} (h : AtRest ops s)
    (hlocked : Locked s) (hawake : Awake Good size s) :
    size s.store = 0 ∨ ∀ i, ∃ a, s.consumer i = .busy a := by
  by_cases hbusy : ∀ i, ∃ a, s.consumer i = .busy a
  · exact Or.inr hbusy
  · left
    obtain ⟨i, hi⟩ := not_forall.mp hbusy
    have hasleep : s.consumer i = .asleep := (h.consumer hlocked i).resolve_right hi
    have henough := hawake.enough i (by rw [hasleep]; rfl)
    have hcoming : total ConsumerAt.coming s.consumer = 0 := by
      apply Finset.sum_eq_zero
      intro j _
      rcases h.consumer hlocked j with hj | ⟨a, hj⟩
      · rw [hj]
        rfl
      · rw [hj]
        rfl
    rw [completed_of_free (h.free hlocked), h.producer_outside hlocked, hcoming] at henough
    exact Nat.le_zero.mp henough

end Rest

end Mailbox
