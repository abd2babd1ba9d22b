/-
# Programs that open and close handles

Threads run programs of which only what they do with handles is kept: the calls that hand one
out, the call that gives it back, tests of whether there is one, a queue over which a thread
passes a handle on to another, and control flow that may go any way.  A variable keeps the
number of a handle that has been given back, and that number may be handed out again to another
thread; who gives it back once more takes it away from that thread.

`Prog.after` follows what a program does with each variable, in a domain of four facts.  If it
goes through for every thread, then in every interleaving

* `Sound.accounted`: the handles there are, are those the threads own and those in the queue,
  each counted once;
* `Sound.partsWithOwn`: a handle that is given back or passed on is the thread's own;
* `Sound.own_eq_empty`: a thread that waits for the queue owns nothing.
-/
import MiniCi.Runs
import Mathlib.Algebra.BigOperators.Group.Finset.Basic
import Mathlib.Data.Fintype.Basic

namespace Handles

/-! ## Programs -/

/-- What a program does with handles, which it keeps in variables `V`.  `tryOpen` may fail and
leaves no handle then; the failure of `mustOpen` is looked at by nobody. -/
inductive Prog (V : Type*) where
  | skip
  | unset (x : V)
  | tryOpen (x : V)
  | mustOpen (x : V)
  | close (x : V)
  | send (x : V)
  | receive (x : V)
  | ifSet (x : V) (p q : Prog V)
  | seq (p q : Prog V)
  | choice (p q : Prog V)
  | loop (p : Prog V)

namespace Prog

variable {V : Type*}

/-- One program after another. -/
def block : List (Prog V) → Prog V
  | [] => skip
  | [p] => p
  | p :: ps => seq p (block ps)

/-- A program that runs if there is a handle. -/
def whenSet (x : V) (p : Prog V) : Prog V := ifSet x p skip

/-- Gives the handle back if there is one. -/
def closeIfSet (x : V) : Prog V := whenSet x (close x)

/-- A program that runs if nothing fails before; else the handle is given back. -/
def orClose (x : V) (p : Prog V) : Prog V := choice (close x) p

end Prog

/-! ## Threads -/

/-- A thread: what it has still to run, its variables, and those whose handle it has to give
back. -/
structure Thread (V H : Type*) where
  todo : List (Prog V)
  var : V → H
  own : Finset V

/-- A queue of handles, and the list of what is in it. -/
structure Channel (Q H : Type*) where
  put : Q → H → Q
  take : Q → Option (H × Q)
  Holds : Q → List H → Prop
  Room : Q → Prop
  holds_put : ∀ {q l}, Holds q l → Room q → ∀ h, Holds (put q h) (l ++ [h])
  holds_take : ∀ {q l h q'}, Holds q l → take q = some (h, q') → ∃ l', l = h :: l' ∧ Holds q' l'

/-- The threads, the handles there are, and the queue. -/
structure State (ι V H Q : Type*) where
  threads : ι → Thread V H
  live : Finset H
  queue : Q

/-- What the environment contributes to an operation: the way at a branch, a handle that was not
in use, or a failure, with what it leaves in the variable. -/
inductive Move (H : Type*) where
  | go (b : Bool)
  | opened (h : H)
  | failed (junk : H)

section Semantics

variable {ι V H Q : Type*} [DecidableEq ι] [DecidableEq V] [DecidableEq H]

/-- The thread after a variable has been set. -/
def Thread.set (t : Thread V H) (k : List (Prog V)) (x : V) (h : H) : Thread V H :=
  { t with todo := k, var := Function.update t.var x h }

/-- The thread after it has got a handle. -/
def Thread.gain (t : Thread V H) (k : List (Prog V)) (x : V) (h : H) : Thread V H :=
  { todo := k, var := Function.update t.var x h, own := insert x t.own }

/-- The thread after it has parted with a handle; the number stays in the variable. -/
def Thread.part (t : Thread V H) (k : List (Prog V)) (x : V) : Thread V H :=
  { t with todo := k, own := t.own.erase x }

/-- Replace one thread. -/
def State.move (s : State ι V H Q) (i : ι) (t : Thread V H) : State ι V H Q :=
  { s with threads := Function.update s.threads i t }

/-- A handle that was not in use is handed out. -/
def State.hand (null : H) (s : State ι V H Q) (i : ι) (k : List (Prog V)) (x : V) (h : H) :
    Option (State ι V H Q) :=
  if h ≠ null ∧ h ∉ s.live then
    some { s.move i ((s.threads i).gain k x h) with live := insert h s.live }
  else none

variable (null : H) (ch : Channel Q H)

/-- The next operation of a thread. -/
def step (s : State ι V H Q) (a : ι × Move H) : Option (State ι V H Q) :=
  let i := a.1
  let t := s.threads i
  match t.todo, a.2 with
  | [], _ => none
  | .skip :: k, _ => some (s.move i { t with todo := k })
  | .unset x :: k, _ => some (s.move i (t.set k x null))
  | .tryOpen x :: k, .opened h => s.hand null i k x h
  | .tryOpen x :: k, _ => some (s.move i (t.set k x null))
  | .mustOpen x :: k, .opened h => s.hand null i k x h
  | .mustOpen x :: k, .failed junk => some (s.move i (t.set k x junk))
  | .mustOpen _ :: _, .go _ => none
  | .close x :: k, _ => some { s.move i (t.part k x) with live := s.live.erase (t.var x) }
  | .send x :: k, _ => some { s.move i (t.part k x) with queue := ch.put s.queue (t.var x) }
  | .receive x :: k, _ =>
    (ch.take s.queue).map fun (h, q) => { s.move i (t.gain k x h) with queue := q }
  | .ifSet x p q :: k, _ =>
    some (s.move i { t with todo := (if t.var x = null then q else p) :: k })
  | .seq p q :: k, _ => some (s.move i { t with todo := p :: q :: k })
  | .choice p q :: k, .go b => some (s.move i { t with todo := (if b then p else q) :: k })
  | .choice _ _ :: _, _ => none
  | .loop p :: k, .go b =>
    some (s.move i { t with todo := if b then p :: .loop p :: k else k })
  | .loop _ :: _, _ => none

/-- The operation is one that nobody checks, and does not fail; there is room for what is put in
the queue. -/
def Works (s : State ι V H Q) (a : ι × Move H) : Prop :=
  match (s.threads a.1).todo, a.2 with
  | .mustOpen _ :: _, .failed _ => False
  | .send _ :: _, _ => ch.Room s.queue
  | _, _ => True

instance [DecidablePred ch.Room] (s : State ι V H Q) (a : ι × Move H) :
    Decidable (Works ch s a) := by
  unfold Works
  split <;> infer_instance

/-- What the thread gives back or passes on next is its own. -/
def PartsWithOwn (s : State ι V H Q) (a : ι × Move H) : Prop :=
  ∀ x k, (s.threads a.1).todo = .close x :: k ∨ (s.threads a.1).todo = .send x :: k →
    x ∈ (s.threads a.1).own ∧ (s.threads a.1).var x ∈ s.live

/-- The handles that a thread owns. -/
def owned (t : Thread V H) : Multiset H := t.own.val.map t.var

/-- The handles there are, are those in the queue and those that the threads own, each once. -/
def Accounted [Fintype ι] (s : State ι V H Q) : Prop :=
  ∃ l, ch.Holds s.queue l ∧ s.live.val = (l : Multiset H) + ∑ i, owned (s.threads i)

/-- The threads before their first operation, with something or other in the variables. -/
def start (program : ι → Prog V) (junk : V → H) (q : Q) : State ι V H Q :=
  { threads := fun i => ⟨[program i], junk, ∅⟩, live := ∅, queue := q }

end Semantics

/-! ## Facts about variables -/

/-- What is known of a variable: the thread owns its handle; there is no handle; one or the
other; or the thread does not own what is in it, whatever that is. -/
inductive Fact where
  | held
  | null
  | maybe
  | stale
  deriving DecidableEq

/-- The fact holds of a variable. -/
def Fact.Holds : Fact → (own isNull : Prop) → Prop
  | .held, own, _ => own
  | .null, own, isNull => ¬ own ∧ isNull
  | .maybe, own, isNull => own ∨ isNull
  | .stale, own, _ => ¬ own

/-- What is known if one of two facts holds; `none` if it is too little to go on. -/
def Fact.join : Fact → Fact → Option Fact
  | .held, .held => some .held
  | .held, .null => some .maybe
  | .held, .maybe => some .maybe
  | .held, .stale => none
  | .null, .held => some .maybe
  | .null, .null => some .null
  | .null, .maybe => some .maybe
  | .null, .stale => some .stale
  | .maybe, .held => some .maybe
  | .maybe, .null => some .maybe
  | .maybe, .maybe => some .maybe
  | .maybe, .stale => none
  | .stale, .held => none
  | .stale, .null => some .stale
  | .stale, .maybe => none
  | .stale, .stale => some .stale

/-- One fact follows from another. -/
def Fact.Entails (a b : Fact) : Prop := a.join b = some b

theorem Fact.entails_refl (a : Fact) : a.Entails a := by cases a <;> rfl

theorem Fact.entails_join {a b c : Fact} (h : a.join b = some c) : a.Entails c ∧ b.Entails c := by
  cases a <;> cases b <;> cases h <;> exact ⟨rfl, rfl⟩

theorem Fact.Entails.trans {a b c : Fact} (hab : a.Entails b) (hbc : b.Entails c) :
    a.Entails c := by
  cases a <;> cases b <;> cases hab <;> cases c <;> first | rfl | cases hbc

theorem Fact.Entails.holds {a b : Fact} (h : a.Entails b) {own isNull : Prop}
    (ha : a.Holds own isNull) : b.Holds own isNull := by
  cases a <;> cases b <;> cases h
  · exact ha
  · exact Or.inl ha
  · exact ha
  · exact Or.inr ha.2
  · exact ha.1
  · exact ha
  · exact ha

section Facts

variable {V : Type*} [DecidableEq V] [Fintype V]

/-- What is known of all variables if one of two descriptions is right. -/
def joinFacts (f g : V → Fact) : Option (V → Fact) :=
  if ∀ x, ((f x).join (g x)).isSome then some fun x => ((f x).join (g x)).getD .stale else none

/-- One description follows from another. -/
def Follows (f g : V → Fact) : Prop := ∀ x, (f x).Entails (g x)

omit [DecidableEq V] [Fintype V] in
theorem follows_refl (f : V → Fact) : Follows f f := fun x => (f x).entails_refl

omit [DecidableEq V] [Fintype V] in
theorem Follows.trans {f g h : V → Fact} (hfg : Follows f g) (hgh : Follows g h) : Follows f h :=
  fun x => (hfg x).trans (hgh x)

instance (f g : V → Fact) : Decidable (Follows f g) :=
  inferInstanceAs (Decidable (∀ x, (f x).join (g x) = some (g x)))

omit [DecidableEq V] in
theorem follows_joinFacts {f g h : V → Fact} (hjoin : joinFacts f g = some h) :
    Follows f h ∧ Follows g h := by
  unfold joinFacts at hjoin
  split_ifs at hjoin with hsome
  obtain rfl := Option.some.inj hjoin
  have hx : ∀ x, (f x).join (g x) = some (((f x).join (g x)).getD .stale) := by
    intro x
    obtain ⟨c, hc⟩ := Option.isSome_iff_exists.mp (hsome x)
    rw [hc, Option.getD_some]
  exact ⟨fun x => (Fact.entails_join (hx x)).1, fun x => (Fact.entails_join (hx x)).2⟩

/-- A handle that the thread may not lose track of is not in the variable. -/
def Fact.Free (a : Fact) : Prop := a = .null ∨ a = .stale

instance (a : Fact) : Decidable a.Free := inferInstanceAs (Decidable (_ ∨ _))

/-- What is known after the program, whichever way it takes; `none` when a handle may be lost, or
given back that is not the thread's own, or when the thread may wait for the queue with handles
of its own. -/
def Prog.after : Prog V → (V → Fact) → Option (V → Fact)
  | .skip, f => some f
  | .unset x, f => if (f x).Free then some (Function.update f x .null) else none
  | .tryOpen x, f => if (f x).Free then some (Function.update f x .maybe) else none
  | .mustOpen x, f => if (f x).Free then some (Function.update f x .held) else none
  | .close x, f => if f x = .held then some (Function.update f x .stale) else none
  | .send x, f => if f x = .held then some (Function.update f x .stale) else none
  | .receive x, f => if ∀ y, (f y).Free then some (Function.update f x .held) else none
  | .ifSet x p q, f =>
    match f x with
    | .held => p.after f
    | .null => q.after f
    | .maybe =>
      (p.after (Function.update f x .held)).bind fun g =>
        (q.after (Function.update f x .null)).bind (joinFacts g)
    | .stale => none
  | .seq p q, f => (p.after f).bind q.after
  | .choice p q, f => (p.after f).bind fun g => (q.after f).bind (joinFacts g)
  | .loop p, f => (p.after f).bind fun g => if Follows g f then some f else none

/-- What a thread has still to run goes through, and ends with `Q`. -/
def Safe (Q : (V → Fact) → Prop) : List (Prog V) → (V → Fact) → Prop
  | [], f => Q f
  | p :: k, f => ∃ g h, p.after f = some g ∧ Follows g h ∧ Safe Q k h

end Facts

/-! ## Accounts -/

section Accounts

variable {ι V H Q : Type*} [DecidableEq ι] [DecidableEq V] [DecidableEq H]
variable {t : Thread V H} {k : List (Prog V)} {x : V} {h : H}

omit [DecidableEq V] [DecidableEq H] in
theorem mem_owned (hx : x ∈ t.own) : t.var x ∈ owned t := Multiset.mem_map_of_mem t.var hx

omit [DecidableEq H] in
theorem owned_set (hx : x ∉ t.own) : owned (t.set k x h) = owned t := by
  refine Multiset.map_congr rfl ?_
  intro y hy
  have hne : y ≠ x := fun heq => hx (heq ▸ hy)
  exact Function.update_of_ne hne h t.var

omit [DecidableEq H] in
theorem owned_gain (hx : x ∉ t.own) : owned (t.gain k x h) = h ::ₘ owned t := by
  show (insert x t.own).val.map (Function.update t.var x h) = _
  rw [Finset.insert_val_of_notMem hx, Multiset.map_cons, Function.update_self]
  exact congrArg _ (owned_set (k := k) hx)

omit [DecidableEq H] in
theorem owned_part (hx : x ∈ t.own) : owned t = t.var x ::ₘ owned (t.part k x) := by
  show t.own.val.map t.var = t.var x ::ₘ (t.own.erase x).val.map t.var
  rw [← Multiset.map_cons, Finset.erase_val, Multiset.cons_erase hx]

/-- What one operation does to the handles there are, to the queue and to what the thread
owns. -/
inductive Turn (null : H) (ch : Channel Q H) (live : Finset H) (queue : Q) (before : Multiset H) :
    Finset H → Q → Multiset H → Prop where
  | keeps : Turn null ch live queue before live queue before
  | opens (h : H) (hnull : h ≠ null) (hfresh : h ∉ live) :
    Turn null ch live queue before (insert h live) queue (h ::ₘ before)
  | closes (h : H) (after : Multiset H) (heq : before = h ::ₘ after) :
    Turn null ch live queue before (live.erase h) queue after
  | sends (h : H) (after : Multiset H) (heq : before = h ::ₘ after) (hroom : ch.Room queue) :
    Turn null ch live queue before live (ch.put queue h) after
  | receives (h : H) (queue' : Q) (htake : ch.take queue = some (h, queue')) :
    Turn null ch live queue before live queue' (h ::ₘ before)

/-- Each of them keeps the accounts. -/
theorem Turn.accounted {null : H} {ch : Channel Q H} {live live' : Finset H} {queue queue' : Q}
    {before after rest : Multiset H} (hturn : Turn null ch live queue before live' queue' after)
    {l : List H} (hl : ch.Holds queue l) (hlive : live.val = (l : Multiset H) + (before + rest)) :
    ∃ l', ch.Holds queue' l' ∧ live'.val = (l' : Multiset H) + (after + rest) := by
  cases hturn with
  | keeps => exact ⟨l, hl, hlive⟩
  | opens h _ hfresh =>
    refine ⟨l, hl, ?_⟩
    rw [Finset.insert_val_of_notMem hfresh, hlive, Multiset.cons_add, Multiset.add_cons]
  | closes h _ heq =>
    refine ⟨l, hl, ?_⟩
    rw [Finset.erase_val, hlive, heq, Multiset.cons_add, Multiset.add_cons,
      Multiset.erase_cons_head]
  | sends h _ heq hroom =>
    refine ⟨l ++ [h], ch.holds_put hl hroom h, ?_⟩
    rw [hlive, heq, ← Multiset.coe_add, Multiset.coe_singleton, Multiset.cons_add,
      Multiset.add_assoc, Multiset.singleton_add]
  | receives h _ htake =>
    obtain ⟨l', rfl, hl'⟩ := ch.holds_take hl htake
    refine ⟨l', hl', ?_⟩
    rw [hlive, ← Multiset.cons_coe, Multiset.cons_add, Multiset.cons_add, Multiset.add_cons]

/-- No operation makes "no handle" one. -/
theorem Turn.null_notMem {null : H} {ch : Channel Q H} {live live' : Finset H} {queue queue' : Q}
    {before after : Multiset H} (hturn : Turn null ch live queue before live' queue' after)
    (h : null ∉ live) : null ∉ live' := by
  cases hturn with
  | opens x hnull _ =>
    rw [Finset.mem_insert, not_or]
    exact ⟨hnull.symm, h⟩
  | closes x _ _ => exact fun hmem => h (Finset.mem_of_mem_erase hmem)
  | _ => exact h

end Accounts

/-! ## Soundness -/

section Soundness

variable {ι V H Q : Type*} [DecidableEq ι] [DecidableEq V] [Fintype V] [DecidableEq H]
variable {null : H} {ch : Channel Q H} {f : V → Fact} {t : Thread V H} {x : V}

/-- The description is right for the thread. -/
def Describes (null : H) (f : V → Fact) (t : Thread V H) : Prop :=
  ∀ x, (f x).Holds (x ∈ t.own) (t.var x = null)

/-- What the thread has still to run goes through from some description that is right. -/
def Checked (null : H) (post : (V → Fact) → Prop) (t : Thread V H) : Prop :=
  ∃ f, Describes null f t ∧ Safe post t.todo f

omit [DecidableEq V] [Fintype V] [DecidableEq H] in
theorem Describes.follows {g : V → Fact} (h : Describes null f t) (hfg : Follows f g) :
    Describes null g t := fun x => (hfg x).holds (h x)

omit [DecidableEq V] [Fintype V] [DecidableEq H] in
theorem Describes.notMem (h : Describes null f t) (hx : (f x).Free) : x ∉ t.own := by
  have hholds := h x
  rcases hx with heq | heq
  · rw [heq] at hholds
    exact hholds.1
  · rw [heq] at hholds
    exact hholds

omit [Fintype V] [DecidableEq H] in
/-- What is known of the other variables stays known. -/
theorem Describes.update {t' : Thread V H} {a : Fact} (h : Describes null f t)
    (hown : ∀ y, y ≠ x → (y ∈ t'.own ↔ y ∈ t.own)) (hvar : ∀ y, y ≠ x → t'.var y = t.var y)
    (hx : a.Holds (x ∈ t'.own) (t'.var x = null)) :
    Describes null (Function.update f x a) t' := by
  intro y
  by_cases hy : y = x
  · subst hy
    rwa [Function.update_self]
  · rw [Function.update_of_ne hy, hown y hy, hvar y hy]
    exact h y

omit [Fintype V] [DecidableEq H] in
theorem Describes.gain (h : Describes null f t) (k : List (Prog V)) (new : H) :
    Describes null (Function.update f x .held) (t.gain k x new) := by
  refine h.update (fun y hy => ?_) (fun y hy => ?_) ?_
  · exact ⟨fun hmem => Finset.mem_of_mem_insert_of_ne hmem hy, Finset.mem_insert_of_mem⟩
  · show Function.update t.var x new y = t.var y
    exact Function.update_of_ne hy new t.var
  · exact Finset.mem_insert_self x t.own

omit [Fintype V] [DecidableEq H] in
theorem Describes.part (h : Describes null f t) (k : List (Prog V)) :
    Describes null (Function.update f x .stale) (t.part k x) := by
  refine h.update (fun y hy => ?_) (fun _ _ => rfl) ?_
  · exact ⟨Finset.mem_of_mem_erase, Finset.mem_erase_of_ne_of_mem hy⟩
  · exact Finset.notMem_erase x t.own

omit [Fintype V] [DecidableEq H] in
theorem Describes.set {a : Fact} {new : H} (h : Describes null f t) (k : List (Prog V))
    (hx : a.Holds (x ∈ t.own) (new = null)) :
    Describes null (Function.update f x a) (t.set k x new) := by
  refine h.update (fun _ _ => Iff.rfl) (fun y hy => ?_) ?_
  · show Function.update t.var x new y = t.var y
    exact Function.update_of_ne hy new t.var
  · show a.Holds (x ∈ t.own) (Function.update t.var x new x = null)
    rwa [Function.update_self]

/-- The threads are checked, and the accounts are right. -/
structure Sound [Fintype ι] (null : H) (ch : Channel Q H) (post : ι → (V → Fact) → Prop)
    (s : State ι V H Q) : Prop where
  checked : ∀ i, Checked null (post i) (s.threads i)
  accounted : Accounted ch s
  null_notMem : null ∉ s.live

/-- What one operation of a thread comes to: the thread stays checked, and the handles there are
and the queue change with what it owns. -/
def Stepped (null : H) (ch : Channel Q H) (post : (V → Fact) → Prop) (s : State ι V H Q) (i : ι)
    (s' : State ι V H Q) : Prop :=
  ∃ t', s'.threads = Function.update s.threads i t' ∧ Checked null post t' ∧
    Turn null ch s.live s.queue (owned (s.threads i)) s'.live s'.queue (owned t')

section

variable {post : (V → Fact) → Prop} {s s' : State ι V H Q} {i : ι} {p : Prog V}
  {k : List (Prog V)}

/-- A thread that only moves on in its program. -/
theorem stepped_todo {todo : List (Prog V)} (hf : Describes null f (s.threads i))
    (hsafe : Safe post todo f) :
    Stepped null ch post s i (s.move i { s.threads i with todo := todo }) :=
  ⟨_, rfl, ⟨f, hf, hsafe⟩, .keeps⟩

/-- A thread that sets a variable of which it owns nothing. -/
theorem stepped_set {a : Fact} {new : H} {g : V → Fact} (hf : Describes null f (s.threads i))
    (hx : (f x).Free) (ha : a.Holds False (new = null)) (hg : Follows (Function.update f x a) g)
    (hsafe : Safe post k g) :
    Stepped null ch post s i (s.move i ((s.threads i).set k x new)) := by
  have hnot := hf.notMem hx
  have hset : Describes null (Function.update f x a) ((s.threads i).set k x new) :=
    hf.set k (by rwa [eq_false hnot])
  refine ⟨_, rfl, ⟨g, hset.follows hg, hsafe⟩, ?_⟩
  rw [owned_set hnot]
  exact .keeps

omit [Fintype V] in
/-- What is known of a variable may be forgotten. -/
theorem follows_update {a b : Fact} (hab : a.Entails b) :
    Follows (Function.update f x a) (Function.update f x b) := by
  intro y
  by_cases hy : y = x
  · subst hy
    rwa [Function.update_self, Function.update_self]
  · rw [Function.update_of_ne hy, Function.update_of_ne hy]
    exact (f y).entails_refl

/-- A thread that is handed a handle. -/
theorem stepped_hand {new : H} {g : V → Fact} (hf : Describes null f (s.threads i))
    (hx : (f x).Free) (hg : Follows (Function.update f x .held) g) (hsafe : Safe post k g)
    (hstep : s.hand null i k x new = some s') : Stepped null ch post s i s' := by
  unfold State.hand at hstep
  split_ifs at hstep with hnew
  obtain rfl := Option.some.inj hstep
  refine ⟨_, rfl, ⟨g, (hf.gain k new).follows hg, hsafe⟩, ?_⟩
  rw [owned_gain (hf.notMem hx)]
  exact .opens new hnew.1 hnew.2

/-- A thread that tests a variable.  Where there is no handle it owns none. -/
theorem stepped_ifSet {q : Prog V} {g g' : V → Fact} (hf : Describes null f (s.threads i))
    (hlive : x ∈ (s.threads i).own → (s.threads i).var x ≠ null)
    (hafter : (Prog.ifSet x p q).after f = some g) (hg : Follows g g') (hsafe : Safe post k g') :
    Stepped null ch post s i
      (s.move i { s.threads i with
        todo := (if (s.threads i).var x = null then q else p) :: k }) := by
  have hx := hf x
  rw [Prog.after] at hafter
  cases hfx : f x with
  | held =>
    rw [hfx] at hx
    simp only [hfx] at hafter
    rw [if_neg (hlive hx)]
    exact stepped_todo hf ⟨g, g', hafter, hg, hsafe⟩
  | null =>
    rw [hfx] at hx
    simp only [hfx] at hafter
    rw [if_pos hx.2]
    exact stepped_todo hf ⟨g, g', hafter, hg, hsafe⟩
  | maybe =>
    rw [hfx] at hx
    simp only [hfx, Option.bind_eq_some_iff] at hafter
    obtain ⟨a, ha, b, hb, hjoin⟩ := hafter
    obtain ⟨hag, hbg⟩ := follows_joinFacts hjoin
    by_cases hnull : (s.threads i).var x = null
    · have hnot : x ∉ (s.threads i).own := fun hmem => hlive hmem hnull
      have hdesc : Describes null (Function.update f x .null) (s.threads i) :=
        hf.update (fun _ _ => Iff.rfl) (fun _ _ => rfl) ⟨hnot, hnull⟩
      rw [if_pos hnull]
      exact stepped_todo hdesc ⟨b, g', hb, hbg.trans hg, hsafe⟩
    · have hdesc : Describes null (Function.update f x .held) (s.threads i) :=
        hf.update (fun _ _ => Iff.rfl) (fun _ _ => rfl) (hx.resolve_right hnull)
      rw [if_neg hnull]
      exact stepped_todo hdesc ⟨a, g', ha, hag.trans hg, hsafe⟩
  | stale =>
    simp only [hfx] at hafter
    cases hafter

/-- **The next operation of a checked thread.** -/
theorem stepped_of_checked {m : Move H} (hcheck : Checked null post (s.threads i))
    (hlive : ∀ x ∈ (s.threads i).own, (s.threads i).var x ≠ null) (hworks : Works ch s (i, m))
    (hstep : step null ch s (i, m) = some s') : Stepped null ch post s i s' := by
  obtain ⟨f, hf, hsafe⟩ := hcheck
  unfold Works at hworks
  rcases htodo : (s.threads i).todo with _ | ⟨p, k⟩
  · simp [step, htodo] at hstep
  rw [htodo] at hsafe
  obtain ⟨g, g', hafter, hg, hk⟩ := hsafe
  cases p with
  | skip =>
    simp only [step, htodo, Option.some.injEq] at hstep
    rw [Prog.after, Option.some.injEq] at hafter
    subst hstep hafter
    exact stepped_todo (hf.follows hg) hk
  | unset x =>
    simp only [step, htodo, Option.some.injEq] at hstep
    rw [Prog.after] at hafter
    split_ifs at hafter with hfree
    obtain rfl := Option.some.inj hafter
    subst hstep
    exact stepped_set (a := .null) hf hfree ⟨id, rfl⟩ hg hk
  | tryOpen x =>
    rw [Prog.after] at hafter
    split_ifs at hafter with hfree
    obtain rfl := Option.some.inj hafter
    cases m with
    | opened h =>
      simp only [step, htodo] at hstep
      exact stepped_hand hf hfree ((follows_update (a := .held) (b := .maybe) rfl).trans hg) hk
        hstep
    | _ =>
      simp only [step, htodo, Option.some.injEq] at hstep
      subst hstep
      exact stepped_set (a := .maybe) hf hfree (Or.inr rfl) hg hk
  | mustOpen x =>
    rw [Prog.after] at hafter
    split_ifs at hafter with hfree
    obtain rfl := Option.some.inj hafter
    cases m with
    | opened h =>
      simp only [step, htodo] at hstep
      exact stepped_hand hf hfree hg hk hstep
    | failed junk =>
      simp only [htodo] at hworks
    | go b => simp [step, htodo] at hstep
  | close x =>
    simp only [step, htodo, Option.some.injEq] at hstep
    rw [Prog.after] at hafter
    split_ifs at hafter with hheld
    obtain rfl := Option.some.inj hafter
    have hx := hf x
    rw [hheld] at hx
    subst hstep
    exact ⟨_, rfl, ⟨g', (hf.part k).follows hg, hk⟩, .closes _ _ (owned_part hx)⟩
  | send x =>
    simp only [step, htodo, Option.some.injEq] at hstep
    rw [Prog.after] at hafter
    split_ifs at hafter with hheld
    obtain rfl := Option.some.inj hafter
    have hx := hf x
    rw [hheld] at hx
    simp only [htodo] at hworks
    subst hstep
    exact ⟨_, rfl, ⟨g', (hf.part k).follows hg, hk⟩, .sends _ _ (owned_part hx) hworks⟩
  | receive x =>
    simp only [step, htodo, Option.map_eq_some_iff] at hstep
    obtain ⟨⟨h, q⟩, htake, rfl⟩ := hstep
    rw [Prog.after] at hafter
    split_ifs at hafter with hfree
    obtain rfl := Option.some.inj hafter
    refine ⟨_, rfl, ⟨g', (hf.gain k h).follows hg, hk⟩, ?_⟩
    rw [owned_gain (hf.notMem (hfree x))]
    exact .receives h q htake
  | ifSet x p q =>
    simp only [step, htodo, Option.some.injEq] at hstep
    subst hstep
    exact stepped_ifSet hf (hlive x) hafter hg hk
  | seq p q =>
    simp only [step, htodo, Option.some.injEq] at hstep
    rw [Prog.after, Option.bind_eq_some_iff] at hafter
    obtain ⟨a, ha, hb⟩ := hafter
    subst hstep
    exact stepped_todo hf ⟨a, a, ha, follows_refl a, g, g', hb, hg, hk⟩
  | choice p q =>
    rw [Prog.after, Option.bind_eq_some_iff] at hafter
    obtain ⟨a, ha, hafter⟩ := hafter
    obtain ⟨b, hb, hjoin⟩ := Option.bind_eq_some_iff.mp hafter
    obtain ⟨hag, hbg⟩ := follows_joinFacts hjoin
    cases m with
    | go way =>
      simp only [step, htodo, Option.some.injEq] at hstep
      subst hstep
      cases way with
      | true => exact stepped_todo hf ⟨a, g', ha, hag.trans hg, hk⟩
      | false => exact stepped_todo hf ⟨b, g', hb, hbg.trans hg, hk⟩
    | _ => simp [step, htodo] at hstep
  | loop p =>
    rw [Prog.after, Option.bind_eq_some_iff] at hafter
    obtain ⟨a, ha, hafter⟩ := hafter
    split_ifs at hafter with hfollows
    obtain rfl := Option.some.inj hafter
    have hloop : (Prog.loop p).after f = some f := by
      rw [Prog.after, ha, Option.bind_some, if_pos hfollows]
    cases m with
    | go again =>
      simp only [step, htodo, Option.some.injEq] at hstep
      subst hstep
      cases again with
      | true => exact stepped_todo hf ⟨a, f, ha, hfollows, f, g', hloop, hg, hk⟩
      | false => exact stepped_todo (hf.follows hg) hk
    | _ => simp [step, htodo] at hstep

end

variable [Fintype ι] {post : ι → (V → Fact) → Prop} {s s' : State ι V H Q}

omit [DecidableEq ι] [DecidableEq H] in
/-- What a thread owns is among the handles there are. -/
theorem Sound.var_mem_live (h : Sound null ch post s) {i : ι} {x : V}
    (hx : x ∈ (s.threads i).own) : (s.threads i).var x ∈ s.live := by
  obtain ⟨l, -, hlive⟩ := h.accounted
  rw [← Finset.mem_val, hlive, Multiset.mem_add]
  exact Or.inr (Multiset.mem_sum.mpr ⟨i, Finset.mem_univ i, mem_owned hx⟩)

/-- **Every operation keeps the accounts.** -/
theorem Sound.step (h : Sound null ch post s) {a : ι × Move H} (hworks : Works ch s a)
    (hstep : Handles.step null ch s a = some s') : Sound null ch post s' := by
  obtain ⟨i, m⟩ := a
  have hlive : ∀ x ∈ (s.threads i).own, (s.threads i).var x ≠ null :=
    fun x hx heq => h.null_notMem (heq ▸ h.var_mem_live hx)
  obtain ⟨t', hthreads, hcheck, hturn⟩ :=
    stepped_of_checked (h.checked i) hlive hworks hstep
  obtain ⟨l, hl, haccount⟩ := h.accounted
  rw [← Finset.add_sum_erase _ _ (Finset.mem_univ i)] at haccount
  obtain ⟨l', hl', haccount'⟩ := hturn.accounted hl haccount
  refine ⟨?_, ⟨l', hl', ?_⟩, hturn.null_notMem h.null_notMem⟩
  · intro j
    rw [hthreads]
    by_cases hj : j = i
    · subst hj
      rwa [Function.update_self]
    · rw [Function.update_of_ne hj]
      exact h.checked j
  · -- the other threads own what they owned
    have hothers : ∑ j ∈ Finset.univ.erase i, owned (Function.update s.threads i t' j)
        = ∑ j ∈ Finset.univ.erase i, owned (s.threads j) := by
      refine Finset.sum_congr rfl fun j hj => ?_
      rw [Function.update_of_ne (Finset.ne_of_mem_erase hj)]
    rw [hthreads, ← Finset.add_sum_erase _ _ (Finset.mem_univ i), Function.update_self, hothers]
    exact haccount'

omit [DecidableEq ι] [DecidableEq H] in
/-- **Only what is its own** is given back or passed on by a thread. -/
theorem Sound.partsWithOwn (h : Sound null ch post s) (a : ι × Move H) : PartsWithOwn s a := by
  intro x k htodo
  obtain ⟨f, hf, hsafe⟩ := h.checked a.1
  have hheld : f x = .held := by
    rcases htodo with htodo | htodo <;>
    · rw [htodo] at hsafe
      obtain ⟨g, g', hafter, -, -⟩ := hsafe
      rw [Prog.after] at hafter
      split_ifs at hafter with hheld
      exact hheld
  have hx := hf x
  rw [hheld] at hx
  exact ⟨hx, h.var_mem_live hx⟩

omit [DecidableEq ι] [DecidableEq H] in
/-- **A thread that waits for the queue** owns nothing. -/
theorem Sound.own_eq_empty (h : Sound null ch post s) {i : ι} {x : V} {k : List (Prog V)}
    (htodo : (s.threads i).todo = .receive x :: k) : (s.threads i).own = ∅ := by
  obtain ⟨f, hf, hsafe⟩ := h.checked i
  rw [htodo] at hsafe
  obtain ⟨g, g', hafter, -, -⟩ := hsafe
  rw [Prog.after] at hafter
  split_ifs at hafter with hfree
  exact Finset.eq_empty_of_forall_notMem fun y => hf.notMem (hfree y)

omit [DecidableEq ι] [DecidableEq H] in
/-- A thread at its outermost loop is where its program may end. -/
theorem Sound.at_loop (h : Sound null ch post s) {i : ι} {p : Prog V}
    (htodo : (s.threads i).todo = [.loop p]) :
    ∃ f, Describes null f (s.threads i) ∧ post i f := by
  obtain ⟨f, hf, hsafe⟩ := h.checked i
  rw [htodo] at hsafe
  obtain ⟨g, g', hafter, hg, hpost⟩ := hsafe
  rw [Prog.after, Option.bind_eq_some_iff] at hafter
  obtain ⟨a, -, hafter⟩ := hafter
  split_ifs at hafter
  obtain rfl := Option.some.inj hafter
  exact ⟨g', hf.follows hg, hpost⟩

/-- The program goes through, from variables of which nothing is known. -/
def GoesThrough (post : (V → Fact) → Prop) (p : Prog V) : Prop :=
  ∃ f, f ∈ p.after (fun _ => .stale) ∧ post f

instance (post : (V → Fact) → Prop) [DecidablePred post] (p : Prog V) :
    Decidable (GoesThrough post p) :=
  Option.decidableExistsMem (p.after fun _ => .stale)

variable {program : ι → Prog V} {junk : V → H} {q : Q}

omit [DecidableEq ι] [DecidableEq H] in
/-- Before the first operation there is no handle. -/
theorem sound_start (hq : ch.Holds q []) (hprog : ∀ i, GoesThrough (post i) (program i)) :
    Sound null ch post (start program junk q) := by
  refine ⟨?_, ⟨[], hq, ?_⟩, Finset.notMem_empty null⟩
  · intro i
    obtain ⟨f, hafter, hpost⟩ := hprog i
    exact ⟨fun _ => .stale, fun x => Finset.notMem_empty x, f, f, hafter, follows_refl f, hpost⟩
  · have hnone : ∑ i : ι, owned (⟨[program i], junk, ∅⟩ : Thread V H) = 0 :=
      Finset.sum_eq_zero fun i _ => rfl
    rw [start, hnone]
    rfl

/-- Programs that go through keep the accounts in every state that they reach. -/
theorem sound_of_exec (hq : ch.Holds q []) (hprog : ∀ i, GoesThrough (post i) (program i))
    {as : List (ι × Move H)}
    (hworks : Runs.Along (Handles.step null ch) (Works ch) (start program junk q) as)
    (hrun : Runs.exec (Handles.step null ch) (start program junk q) as = some s) :
    Sound null ch post s :=
  Runs.invariant (sound_start hq hprog) (fun _ _ _ h hw hs => h.step hw hs) hworks hrun

end Soundness

end Handles
