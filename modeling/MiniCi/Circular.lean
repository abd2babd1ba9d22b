/-
# Circular buffers

An array of `n` slots used as a queue: `count` elements starting at slot `head` and
running on modulo `n`.  `contents` reads the queue off the array.  While the buffer
is not full, writing at the slot behind the last element appends
(`contents_push`); reading at `head` takes the first one (`contents_pop`).
-/
import Mathlib.Algebra.GroupWithZero.Nat
import Mathlib.Data.Fin.Basic
import Mathlib.Data.List.Basic
import Mathlib.Logic.Function.Basic

namespace Circular

variable {α : Type*} {n : ℕ} [NeZero n]

/-- The slot `k` places behind `i`. -/
def slot (i : Fin n) (k : ℕ) : Fin n := Fin.ofNat n (i + k)

/-- The `count` elements from `head` on, in order. -/
def contents (slots : Fin n → α) (head : Fin n) (count : ℕ) : List α :=
  (List.range count).map fun k => slots (slot head k)

@[simp] theorem slot_zero (i : Fin n) : slot i 0 = i := by
  apply Fin.ext
  simp [slot, Fin.ofNat, Nat.mod_eq_of_lt i.isLt]

/-- Going `j` and then `k` places is going `j + k` places. -/
theorem slot_slot (i : Fin n) (j k : ℕ) : slot (slot i j) k = slot i (j + k) := by
  apply Fin.ext
  simp [slot, Fin.ofNat, Nat.add_assoc]

/-- Fewer than `n` places behind `i` no slot is met twice. -/
theorem slot_ne_slot (i : Fin n) {j k : ℕ} (hjk : j < k) (hk : k < n) : slot i j ≠ slot i k := by
  intro h
  have hmod : (i + j) % n = (i + k) % n := congrArg Fin.val h
  have hi := i.isLt
  rcases Nat.lt_or_ge (i + k) n with hlt | hge
  · rw [Nat.mod_eq_of_lt hlt, Nat.mod_eq_of_lt (by omega)] at hmod
    omega
  · have hk' : (i + k) % n = i + k - n := by
      rw [Nat.mod_eq_sub_mod hge, Nat.mod_eq_of_lt (by omega)]
    rcases Nat.lt_or_ge (i + j) n with hjlt | hjge
    · rw [hk', Nat.mod_eq_of_lt hjlt] at hmod
      omega
    · rw [hk', Nat.mod_eq_sub_mod hjge, Nat.mod_eq_of_lt (by omega)] at hmod
      omega

/-- The last element stands `count` places behind the head. -/
theorem contents_succ (slots : Fin n → α) (head : Fin n) (count : ℕ) :
    contents slots head (count + 1) = contents slots head count ++ [slots (slot head count)] := by
  simp [contents, List.range_succ]

/-- **Push.**  With a free slot left, writing behind the last element appends. -/
theorem contents_push (slots : Fin n → α) (head : Fin n) {count : ℕ} (hcount : count < n)
    (x : α) :
    contents (Function.update slots (slot head count) x) head (count + 1)
      = contents slots head count ++ [x] := by
  rw [contents_succ, Function.update_self]
  congr 1
  apply List.map_congr_left
  intro k hk
  exact Function.update_of_ne (slot_ne_slot head (List.mem_range.mp hk) hcount) x slots

/-- **Pop.**  The element at the head comes first, the rest starts one slot on. -/
theorem contents_pop (slots : Fin n → α) (head : Fin n) (count : ℕ) :
    contents slots head (count + 1) = slots head :: contents slots (slot head 1) count := by
  rw [contents, List.range_succ_eq_map, List.map_cons, List.map_map, slot_zero]
  congr 1
  apply List.map_congr_left
  intro k _
  simp [slot_slot, Nat.add_comm]

end Circular
