/-
# Programs that share variables

Threads run programs of which the lock operations, the accesses to shared variables and the
creation of threads are kept, and control flow that may go any way.  A race is a state in
which two threads are both about to access a variable, and one of them to write it.

A guard says what protects a variable once several threads run: a lock, a thread that alone
writes it, or that nobody writes it.  `Prog.check` goes through a program with the locks it
holds, and checks each access against the guard; as long as a thread has created no other, it
may access everything.

* `not_racing`: where the programs of all threads pass, no run reaches a race on a variable
  that has a guard.
-/
import MiniCi.LockOrder

namespace Races

open LockOrder (Mode released)

/-! ## Programs -/

/-- The operations of a program that other threads take part in. -/
inductive Prog (ι L V : Type*) where
  | skip
  | acquire (m : Mode) (l : L)
  | release (l : L)
  | access (m : Mode) (v : V)
  | spawn (i : ι)
  | seq (p q : Prog ι L V)
  | choice (p q : Prog ι L V)
  | loop (p : Prog ι L V)

namespace Prog

variable {ι L V : Type*}

/-- One program after another. -/
def block : List (Prog ι L V) → Prog ι L V
  | [] => skip
  | p :: ps => seq p (block ps)

/-- A program that runs if some test says so. -/
def perhaps (p : Prog ι L V) : Prog ι L V := choice p skip

/-- One of several programs runs. -/
def cases : List (Prog ι L V) → Prog ι L V
  | [] => skip
  | p :: ps => choice p (cases ps)

/-- A critical section. -/
def locked (m : Mode) (l : L) (ps : List (Prog ι L V)) : Prog ι L V :=
  seq (acquire m l) (seq (block ps) (release l))

end Prog

/-! ## Threads -/

/-- A thread: what it has still to run, the locks it holds, and whether it has been created. -/
structure Thread (ι L V : Type*) where
  todo : List (Prog ι L V)
  held : List (L × Mode)
  started : Bool

variable {ι L V : Type*} [Fintype ι] [DecidableEq ι] [DecidableEq L]

/-- What the next operation of a thread does to the thread itself.  At a branch the flag says
whether the first program is taken, at a loop whether it is entered once more. -/
def Thread.move (t : Thread ι L V) (b : Bool) : Option (Thread ι L V) :=
  match t.todo with
  | [] => none
  | .skip :: k => some { t with todo := k }
  | .acquire m l :: k => some { t with todo := k, held := (l, m) :: t.held }
  | .release l :: k => some { t with todo := k, held := released l t.held }
  | .access _ _ :: k => some { t with todo := k }
  | .spawn _ :: k => some { t with todo := k }
  | .seq p q :: k => some { t with todo := p :: q :: k }
  | .choice p q :: k => some { t with todo := (if b then p else q) :: k }
  | .loop p :: k => some { t with todo := if b then p :: .loop p :: k else k }

/-- The thread that the next operation creates. -/
def Thread.spawns (t : Thread ι L V) : Option ι :=
  match t.todo with
  | .spawn i :: _ => some i
  | _ => none

/-- The lock that the thread requests next. -/
def Thread.requests (t : Thread ι L V) : Option (Mode × L) :=
  match t.todo with
  | .acquire m l :: _ => some (m, l)
  | _ => none

/-- The variable that the thread accesses next. -/
def Thread.accesses (t : Thread ι L V) : Option (Mode × V) :=
  match t.todo with
  | .access m v :: _ => some (m, v)
  | _ => none

/-- The next operation is a branch or a loop. -/
def Thread.branches (t : Thread ι L V) : Bool :=
  match t.todo with
  | .choice _ _ :: _ => true
  | .loop _ :: _ => true
  | _ => false

/-- Nobody else has the lock that thread `i` requests, or all who have it read, and so will
`i`. -/
def Granted (s : ι → Thread ι L V) (i : ι) : Prop :=
  ∀ r ∈ (s i).requests, ∀ j, j ≠ i → ∀ x ∈ (s j).held, x.1 = r.2 → r.1 = .read ∧ x.2 = .read

instance (s : ι → Thread ι L V) (i : ι) : Decidable (Granted s i) :=
  inferInstanceAs (Decidable (∀ r ∈ (s i).requests, ∀ j, j ≠ i → ∀ x ∈ (s j).held, _ → _))

/-- The next operation of a thread that has been created, and waits for no lock. -/
def step (s : ι → Thread ι L V) (a : ι × Bool) : Option (ι → Thread ι L V) :=
  if (s a.1).started = true ∧ Granted s a.1 then
    ((s a.1).move a.2).map fun t j =>
      let u := Function.update s a.1 t j
      { u with started := u.started || decide ((s a.1).spawns = some j) }
  else none

/-- The threads before their first operation, of which only one is there. -/
def start (first : ι) (program : ι → Prog ι L V) (i : ι) : Thread ι L V :=
  { todo := [program i], held := [], started := decide (i = first) }

/-- The flags with which a thread comes to an access after it has decided these branches; at
those after them it goes on past. -/
def Thread.flagsTo [DecidableEq V] (a : Mode × V) :
    ℕ → List Bool → Thread ι L V → List Bool
  | 0, _, _ => []
  | n + 1, decisions, t =>
    if decisions = [] ∧ t.accesses = some a then []
    else
      let b := t.branches && decisions.headD false
      let rest := if t.branches then decisions.tail else decisions
      (t.move b).elim [] fun t' => b :: flagsTo a n rest t'

/-- Two threads are about to access the variable, and one of them to write it. -/
def Racing (s : ι → Thread ι L V) (v : V) : Prop :=
  ∃ i j, i ≠ j ∧ ((s i).started = true ∧ (s i).accesses = some (.write, v)) ∧
    (s j).started = true ∧ (s j).accesses.map Prod.snd = some v

instance [DecidableEq V] (s : ι → Thread ι L V) (v : V) : Decidable (Racing s v) :=
  inferInstanceAs (Decidable (∃ i j, i ≠ j ∧ _ ∧ _ ∧ _ = _))

/-! ## Guards -/

/-- What protects a variable when several threads run. -/
inductive Guard (ι L : Type*) where
  /-- It is accessed with the lock. -/
  | locked (l : L)
  /-- The thread alone writes it, with the lock, and the others read it with the lock. -/
  | owned (i : ι) (l : L)
  /-- It is not written. -/
  | frozen

/-- Thread `i`, which holds these locks, may access what the guard protects. -/
def Guard.Allows (i : ι) (held : List (L × Mode)) : Guard ι L → Mode → Prop
  | .locked l, .read => ∃ x ∈ held, x.1 = l
  | .locked l, .write => (l, .write) ∈ held
  | .owned o l, .read => i = o ∨ ∃ x ∈ held, x.1 = l
  | .owned o l, .write => i = o ∧ (l, .write) ∈ held
  | .frozen, m => m = .read

instance (i : ι) (held : List (L × Mode)) :
    (g : Guard ι L) → (m : Mode) → Decidable (g.Allows i held m)
  | .locked l, .read => inferInstanceAs (Decidable (∃ x ∈ held, x.1 = l))
  | .locked l, .write => inferInstanceAs (Decidable ((l, .write) ∈ held))
  | .owned o l, .read => inferInstanceAs (Decidable (i = o ∨ ∃ x ∈ held, x.1 = l))
  | .owned o l, .write => inferInstanceAs (Decidable (i = o ∧ (l, .write) ∈ held))
  | .frozen, m => inferInstanceAs (Decidable (m = .read))

/-- No lock is held by two threads, unless both read. -/
def Exclusive (s : ι → Thread ι L V) : Prop :=
  ∀ i j, i ≠ j → ∀ x ∈ (s i).held, ∀ y ∈ (s j).held, x.1 = y.1 → x.2 = .read ∧ y.2 = .read

omit [Fintype ι] [DecidableEq ι] [DecidableEq L] in
/-- **What a guard is for.**  Where no lock is held twice, a thread that the guard lets write
excludes every other access. -/
theorem Guard.Allows.excludes {s : ι → Thread ι L V} (hexcl : Exclusive s) {i j : ι} (hij : i ≠ j)
    {g : Guard ι L} {m : Mode} (hi : g.Allows i (s i).held .write) :
    ¬ g.Allows j (s j).held m := by
  -- who writes holds the lock to write, and then nobody else holds it
  have hnone : ∀ l, (l, Mode.write) ∈ (s i).held → ¬ ∃ x ∈ (s j).held, x.1 = l := by
    rintro l hl ⟨x, hx, rfl⟩
    exact absurd (hexcl i j hij _ hl x hx rfl).1 nofun
  intro hj
  cases g with
  | locked l =>
    cases m with
    | read => exact hnone l hi hj
    | write => exact hnone l hi ⟨_, hj, rfl⟩
  | owned o l =>
    obtain ⟨rfl, hl⟩ := hi
    cases m with
    | read =>
      rcases hj with rfl | hj
      · exact hij rfl
      · exact hnone l hl hj
    | write => exact hij hj.1.symm
  | frozen => cases hi

/-! ## Going through a program -/

/-- What is known of a thread: that it has created no other yet, and the locks it holds. -/
structure Known (L : Type*) where
  alone : Bool
  held : List (L × Mode)
  deriving DecidableEq

section Check

variable (guard : V → Option (Guard ι L)) (i : ι)

/-- What is known after the program, whichever way it takes; `none` when an access is not
allowed, or when it depends on the way what is known. -/
def Prog.check (c : Known L) : Prog ι L V → Option (Known L)
  | .skip => some c
  | .acquire m l => some { c with held := (l, m) :: c.held }
  | .release l => some { c with held := released l c.held }
  | .access m v =>
    if c.alone = true ∨ ∀ g ∈ guard v, g.Allows i c.held m then some c else none
  | .spawn _ => some { c with alone := false }
  | .seq p q => (p.check c).bind fun c' => q.check c'
  | .choice p q => if p.check c = q.check c then p.check c else none
  | .loop p => if p.check c = some c then some c else none

/-- What is known after all that a thread has still to run. -/
def checkAll (c : Known L) : List (Prog ι L V) → Option (Known L)
  | [] => some c
  | p :: k => (p.check guard i c).bind fun c' => checkAll c' k

/-- What the thread has still to run passes. -/
def Passes (alone : Bool) (t : Thread ι L V) : Prop :=
  (checkAll guard i ⟨alone, t.held⟩ t.todo).isSome

variable {guard i} {alone : Bool} {t t' : Thread ι L V}

omit [Fintype ι] in
/-- Each operation leaves a program that passes, and only a thread that was alone, and creates
none, is alone after it. -/
theorem Passes.move (h : Passes guard i alone t) {b : Bool} (hmove : t.move b = some t') :
    ∃ alone', Passes guard i alone' t' ∧ (alone' = true → alone = true ∧ t.spawns = none) := by
  unfold Passes at h
  rcases htodo : t.todo with _ | ⟨p, k⟩
  · simp [Thread.move, htodo] at hmove
  · rw [htodo, checkAll] at h
    have hquiet : (∀ j, p ≠ .spawn j) → t.spawns = none := by
      intro hp
      unfold Thread.spawns
      rw [htodo]
      cases p <;> simp_all
    cases p with
    | skip =>
      obtain rfl : _ = t' := by simpa [Thread.move, htodo] using hmove
      exact ⟨alone, by simpa [Passes, Prog.check] using h, fun ha => ⟨ha, hquiet nofun⟩⟩
    | acquire m l =>
      obtain rfl : _ = t' := by simpa [Thread.move, htodo] using hmove
      exact ⟨alone, by simpa [Passes, Prog.check] using h, fun ha => ⟨ha, hquiet nofun⟩⟩
    | release l =>
      obtain rfl : _ = t' := by simpa [Thread.move, htodo] using hmove
      exact ⟨alone, by simpa [Passes, Prog.check] using h, fun ha => ⟨ha, hquiet nofun⟩⟩
    | access m v =>
      obtain rfl : _ = t' := by simpa [Thread.move, htodo] using hmove
      rw [Prog.check] at h
      split_ifs at h
      · exact ⟨alone, by simpa [Passes] using h, fun ha => ⟨ha, hquiet nofun⟩⟩
      · simp at h
    | spawn j =>
      obtain rfl : _ = t' := by simpa [Thread.move, htodo] using hmove
      exact ⟨false, by simpa [Passes, Prog.check] using h, nofun⟩
    | seq p q =>
      obtain rfl : _ = t' := by simpa [Thread.move, htodo] using hmove
      refine ⟨alone, ?_, fun ha => ⟨ha, hquiet nofun⟩⟩
      simpa [Passes, checkAll, Prog.check, Option.bind_assoc] using h
    | choice p q =>
      obtain rfl : _ = t' := by simpa [Thread.move, htodo] using hmove
      refine ⟨alone, ?_, fun ha => ⟨ha, hquiet nofun⟩⟩
      rw [Prog.check] at h
      split_ifs at h with heq
      · cases b with
        | true => simpa [Passes, checkAll] using h
        | false => simpa [Passes, checkAll, ← heq] using h
      · simp at h
    | loop p =>
      obtain rfl : _ = t' := by simpa [Thread.move, htodo] using hmove
      refine ⟨alone, ?_, fun ha => ⟨ha, hquiet nofun⟩⟩
      rw [Prog.check] at h
      split_ifs at h with heq
      · cases b with
        | true => simpa [Passes, checkAll, Prog.check, heq] using h
        | false => simpa [Passes] using h
      · simp at h

omit [Fintype ι] in
/-- A thread that is not alone accesses what its locks allow. -/
theorem Passes.allows (h : Passes guard i false t) {m : Mode} {v : V}
    (hacc : t.accesses = some (m, v)) {g : Guard ι L} (hg : guard v = some g) :
    g.Allows i t.held m := by
  unfold Passes at h
  unfold Thread.accesses at hacc
  split at hacc
  · next m' v' k htodo =>
    obtain ⟨rfl, rfl⟩ : m' = m ∧ v' = v := by simpa using hacc
    rw [htodo, checkAll, Prog.check] at h
    by_cases hallowed : false = true ∨ ∀ g ∈ guard v', g.Allows i t.held m'
    · exact (hallowed.resolve_left nofun) g hg
    · rw [if_neg hallowed] at h
      cases h
  · cases hacc

end Check

/-! ## Runs -/

section Runs

omit [Fintype ι] [DecidableEq ι] in
/-- A lock that a thread has after an operation it had before, or has requested. -/
theorem mem_held_of_move {t t' : Thread ι L V} {b : Bool} (hmove : t.move b = some t')
    {x : L × Mode} (hx : x ∈ t'.held) : x ∈ t.held ∨ t.requests = some (x.2, x.1) := by
  unfold Thread.move at hmove
  unfold Thread.requests
  split at hmove <;> simp only [Option.some.injEq, reduceCtorEq] at hmove <;> subst hmove
  case h_3 m l k htodo =>
    rcases List.mem_cons.mp hx with rfl | hx
    · exact .inr (by rw [htodo])
    · exact .inl hx
  case h_4 l k htodo => exact .inl (List.mem_of_mem_filter hx)
  all_goals exact .inl hx

variable {guard : V → Option (Guard ι L)} {s s' : ι → Thread ι L V}

/-- What one step does. -/
theorem step_cases {a : ι × Bool} (h : step s a = some s') :
    (s a.1).started = true ∧ Granted s a.1 ∧ ∃ t, (s a.1).move a.2 = some t ∧
      (∀ j, (s' j).held = (Function.update s a.1 t j).held) ∧
      (∀ j, (s' j).todo = (Function.update s a.1 t j).todo) ∧
      ∀ j, (s' j).started =
        ((Function.update s a.1 t j).started || decide ((s a.1).spawns = some j)) := by
  unfold step at h
  split_ifs at h with hgo
  obtain ⟨t, hmove, rfl⟩ := Option.map_eq_some_iff.mp h
  exact ⟨hgo.1, hgo.2, t, hmove, fun _ => rfl, fun _ => rfl, fun _ => rfl⟩

/-- A lock is granted only where no other thread has it, so it is never held twice. -/
theorem Exclusive.step (h : Exclusive s) {a : ι × Bool} (hstep : step s a = some s') :
    Exclusive s' := by
  obtain ⟨-, hgranted, t, hmove, hheld, -, -⟩ := step_cases hstep
  have hmover : ∀ j, j ≠ a.1 → ∀ x ∈ t.held, ∀ y ∈ (s j).held, x.1 = y.1 →
      x.2 = .read ∧ y.2 = .read := by
    intro j hj x hx y hy hxy
    rcases mem_held_of_move hmove hx with hx | hreq
    · exact h a.1 j hj.symm x hx y hy hxy
    · exact hgranted _ hreq j hj y hy hxy.symm
  intro i j hij x hx y hy hxy
  rw [hheld] at hx hy
  by_cases hi : i = a.1
  · rw [hi, Function.update_self] at hx
    rw [Function.update_of_ne (by rintro rfl; exact hij hi)] at hy
    exact hmover j (by rintro rfl; exact hij hi) x hx y hy hxy
  · rw [Function.update_of_ne hi] at hx
    by_cases hj : j = a.1
    · rw [hj, Function.update_self] at hy
      exact (hmover i hi y hy x hx hxy.symm).symm
    · rw [Function.update_of_ne hj] at hy
      exact h i j hij x hx y hy hxy

/-- The threads have still to run what passes, and one that is alone is the only one there. -/
structure Guarded (guard : V → Option (Guard ι L)) (s : ι → Thread ι L V) : Prop where
  exclusive : Exclusive s
  passes : ∀ i, ∃ alone, Passes guard i alone (s i) ∧
    (alone = true → ∀ j, j ≠ i → (s j).started = false)

/-- One step of any thread keeps it. -/
theorem Guarded.step (h : Guarded guard s) {a : ι × Bool} (hstep : step s a = some s') :
    Guarded guard s' := by
  refine ⟨h.exclusive.step hstep, fun i => ?_⟩
  obtain ⟨hstarted, -, t, hmove, hheld, htodo, hcreated⟩ := step_cases hstep
  obtain ⟨alone, hpasses, halone⟩ := h.passes i
  by_cases hi : i = a.1
  · subst hi
    obtain ⟨alone', hpasses', hstill⟩ := hpasses.move hmove
    refine ⟨alone', ?_, fun ha j hj => ?_⟩
    · simpa [Passes, hheld, htodo] using hpasses'
    · obtain ⟨hwas, hnone⟩ := hstill ha
      rw [hcreated, Function.update_of_ne hj, halone hwas j hj, hnone]
      rfl
  · refine ⟨alone, ?_, fun ha => ?_⟩
    · simpa [Passes, hheld, htodo, Function.update_of_ne hi] using hpasses
    · -- the thread that has moved is there
      exact absurd hstarted (by simp [halone ha a.1 (Ne.symm hi)])

/-- Threads whose programs pass do so in every state that they reach. -/
theorem guarded_of_exec {first : ι} {program : ι → Prog ι L V}
    (hprog : ∀ i, ((program i).check guard i ⟨decide (i = first), []⟩).isSome)
    {as : List (ι × Bool)} (hrun : Runs.exec step (start first program) as = some s) :
    Guarded guard s := by
  have hstart : Guarded guard (start first program) := by
    refine ⟨fun _ _ _ _ hx => absurd hx (by simp [start]), fun i => ⟨decide (i = first), ?_, ?_⟩⟩
    · simpa [Passes, start, checkAll] using hprog i
    · intro hi j hj
      rw [of_decide_eq_true hi] at hj
      exact decide_eq_false hj
  exact Runs.invariant_of_step hstart (fun _ _ _ h hstep => h.step hstep) hrun

/-- **No race.**  Where all programs pass, nobody is ever about to write a variable that has a
guard while another thread is about to access it. -/
theorem not_racing {first : ι} {program : ι → Prog ι L V}
    (hprog : ∀ i, ((program i).check guard i ⟨decide (i = first), []⟩).isSome)
    {as : List (ι × Bool)} (hrun : Runs.exec step (start first program) as = some s) {v : V}
    (hv : (guard v).isSome) : ¬ Racing s v := by
  have h := guarded_of_exec hprog hrun
  rintro ⟨i, j, hij, ⟨hi, hwrite⟩, hj, hacc⟩
  obtain ⟨g, hg⟩ := Option.isSome_iff_exists.mp hv
  obtain ⟨⟨m, _⟩, hacc', rfl⟩ := Option.map_eq_some_iff.mp hacc
  -- neither is alone, for the other is there
  have hside : ∀ i j, j ≠ i → (s j).started = true → Passes guard i false (s i) := by
    intro i j hij hj
    obtain ⟨alone, hpasses, halone⟩ := h.passes i
    cases alone with
    | false => exact hpasses
    | true => exact absurd hj (by simp [halone rfl j hij])
  have hallows := (hside i j hij.symm hj).allows hwrite hg
  exact hallows.excludes h.exclusive hij ((hside j i hij hi).allows hacc' hg)

end Runs

end Races
