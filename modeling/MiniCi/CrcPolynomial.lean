/-
# Cyclic redundancy checks as remainders

Bits are the coefficients of a polynomial over the field with two elements, highest degree first.
A reflected register holds the highest degree in its lowest bit (`reg`), so a shift multiplies by
`X` modulo the generator (`reg_shiftBits`), and a register that has taken a message holds the
remainder of the message and of what it started with (`reg_foldl`).

Two messages of one length that differ in a window as wide as the register at most leave different
registers, if the generator has a constant term (`foldl_ne_of_window`): their difference is a
power of `X` and a polynomial of lower degree than the generator.
-/
import MiniCi.Crc
import Mathlib.Algebra.Field.ZMod
import Mathlib.Data.List.GetD
import Mathlib.RingTheory.AdjoinRoot

namespace Crc

open Polynomial

/-! ## Bits as polynomials -/

/-- A bit as a coefficient. -/
def bit (b : Bool) : ZMod 2 := if b then 1 else 0

@[simp] theorem bit_false : bit false = 0 := rfl

@[simp] theorem bit_true : bit true = 1 := rfl

theorem bit_xor : ∀ a b : Bool, bit (a ^^ b) = bit a + bit b := by decide

theorem bit_and : ∀ a b : Bool, bit (a && b) = bit a * bit b := by decide

theorem bit_injective : Function.Injective bit := by decide

/-- The polynomial of a message, the first bit at the highest degree. -/
noncomputable def ofBits : List Bool → (ZMod 2)[X]
  | [] => 0
  | b :: l => C (bit b) * X ^ l.length + ofBits l

theorem ofBits_append (l l' : List Bool) :
    ofBits (l ++ l') = ofBits l * X ^ l'.length + ofBits l' := by
  induction l with
  | nil => simp [ofBits]
  | cons b l ih =>
    rw [List.cons_append, ofBits, ih, ofBits, List.length_append]
    ring

theorem coeff_ofBits (l : List Bool) (j : ℕ) :
    (ofBits l).coeff j = bit (l.reverse.getD j false) := by
  induction l with
  | nil => simp [ofBits]
  | cons b l ih =>
    rw [ofBits, coeff_add, coeff_C_mul_X_pow, ih, List.reverse_cons]
    simp only [List.getD_eq_getElem?_getD]
    rcases lt_trichotomy j l.length with hj | rfl | hj
    · rw [if_neg hj.ne, zero_add, List.getElem?_append_left (by rwa [List.length_reverse])]
    · rw [if_pos rfl, List.getElem?_append_right (by rw [List.length_reverse]),
        List.getElem?_eq_none (by rw [List.length_reverse])]
      simp
    · rw [if_neg hj.ne', zero_add, List.getElem?_eq_none (by rw [List.length_reverse]; omega),
        List.getElem?_eq_none (by simp; omega)]

theorem degree_ofBits_lt (l : List Bool) : (ofBits l).degree < l.length := by
  rw [degree_lt_iff_coeff_zero]
  intro j hj
  rw [coeff_ofBits, List.getD_eq_default _ _ (by rwa [List.length_reverse])]
  rfl

/-- Bits of one number are determined by their polynomial. -/
theorem ofBits_injective {l l' : List Bool} (hlen : l.length = l'.length)
    (h : ofBits l = ofBits l') : l = l' := by
  apply List.reverse_injective
  apply List.ext_getElem
  · simpa using hlen
  intro j hj hj'
  have hcoeff := congrArg (fun f => f.coeff j) h
  simp only [coeff_ofBits, List.getD_eq_getElem _ _ hj, List.getD_eq_getElem _ _ hj'] at hcoeff
  exact bit_injective hcoeff

/-! ## Registers -/

section Register

variable {w k : ℕ}

/-- The polynomial of a word, the lowest bit at degree 0. -/
noncomputable def ofWord (c : BitVec w) : (ZMod 2)[X] :=
  ∑ i ∈ Finset.range w, C (bit (c.getLsbD i)) * X ^ i

/-- The polynomial of a reflected register, the lowest bit at the highest degree. -/
noncomputable def reg (c : BitVec w) : (ZMod 2)[X] := ofWord c.reverse

theorem coeff_ofWord (c : BitVec w) (j : ℕ) : (ofWord c).coeff j = bit (c.getLsbD j) := by
  unfold ofWord
  simp only [finsetSum_coeff, coeff_C_mul_X_pow]
  rw [Finset.sum_ite_eq]
  split_ifs with hj
  · rfl
  · rw [BitVec.getLsbD_of_ge c j (by simpa using hj)]
    rfl

theorem coeff_reg (c : BitVec w) (j : ℕ) : (reg c).coeff j = bit (c.getMsbD j) := by
  rw [reg, coeff_ofWord, BitVec.getLsbD_reverse]

theorem degree_reg_lt (c : BitVec w) : (reg c).degree < w := by
  rw [degree_lt_iff_coeff_zero]
  intro j hj
  rw [coeff_reg, BitVec.getMsbD_of_ge c j hj]
  rfl

theorem reg_injective {c d : BitVec w} (h : reg c = reg d) : c = d := by
  apply BitVec.eq_of_getMsbD_eq
  intro j _
  apply bit_injective
  rw [← coeff_reg, ← coeff_reg, h]

theorem reg_xor (c d : BitVec w) : reg (c ^^^ d) = reg c + reg d := by
  ext j
  rw [coeff_add, coeff_reg, coeff_reg, coeff_reg, BitVec.getMsbD_xor, bit_xor]

/-- A word of the message stands at the top of the register. -/
theorem reg_setWidth (hk : k ≤ w) (b : BitVec k) : reg (b.setWidth w) = X ^ (w - k) * reg b := by
  ext j
  rw [coeff_reg, mul_comm, coeff_mul_X_pow', BitVec.getMsbD_setWidth]
  split_ifs with hj
  · rw [coeff_reg, decide_eq_true hj, Bool.true_and]
    congr 2
    omega
  · rw [decide_eq_false hj, Bool.false_and]
    rfl

/-- The bits of a word of the message, lowest first. -/
def bitsOf (b : BitVec k) : List Bool := (List.range k).map b.getLsbD

@[simp] theorem length_bitsOf (b : BitVec k) : (bitsOf b).length = k := by simp [bitsOf]

theorem ofBits_bitsOf (b : BitVec k) : ofBits (bitsOf b) = reg b := by
  ext j
  rw [coeff_ofBits, coeff_reg, BitVec.getMsbD_eq_getLsbD]
  by_cases hj : j < k
  · rw [List.getD_eq_getElem _ _ (by simpa using hj), List.getElem_reverse, decide_eq_true hj]
    simp [bitsOf]
  · rw [List.getD_eq_default _ _ (by simpa using hj), decide_eq_false hj]
    rfl

end Register

/-! ## Shifting -/

section Shift

variable {w k : ℕ}

/-- One shift, as a division step: the generator without its highest degree is `g`. -/
def shiftBits (g c : BitVec w) : BitVec w := (c >>> 1) ^^^ (if c.getLsbD 0 then g else 0)

/-- The generator whose lower degrees are in the register `g`. -/
noncomputable def generator (g : BitVec w) : (ZMod 2)[X] := X ^ w + reg g

theorem generator_monic (g : BitVec w) : (generator g).Monic :=
  monic_X_pow_add (degree_reg_lt g)

theorem degree_generator (g : BitVec w) : (generator g).degree = w := by
  rw [generator, degree_add_eq_left_of_degree_lt, degree_X_pow]
  rw [degree_X_pow]
  exact degree_reg_lt g

theorem getMsbD_shiftBits (g c : BitVec w) (j : ℕ) :
    (shiftBits g c).getMsbD j =
      ((decide (j < w) && (!decide (j < 1) && c.getMsbD (j - 1))) ^^
        (c.getLsbD 0 && g.getMsbD j)) := by
  rw [shiftBits, BitVec.getMsbD_xor, BitVec.getMsbD_ushiftRight]
  cases c.getLsbD 0 <;> simp

/-- **A shift multiplies by `X`, and subtracts the generator where the degree is too high.** -/
theorem reg_shiftBits (g c : BitVec w) :
    reg (shiftBits g c) = X * reg c + C (bit (c.getLsbD 0)) * generator g := by
  ext j
  rw [coeff_reg, getMsbD_shiftBits, bit_xor, bit_and, coeff_add, coeff_C_mul, generator, coeff_add,
    coeff_X_pow, coeff_reg]
  rcases j with _ | j
  · cases w with
    | zero => simp
    | succ w => simp [coeff_reg, bit_and]
  · rw [coeff_X_mul, coeff_reg]
    by_cases hj : j + 1 < w
    · simp [hj, hj.ne, bit_and]
    · rw [decide_eq_false hj, BitVec.getMsbD_of_ge g (j + 1) (by omega)]
      by_cases heq : j + 1 = w
      · -- the bit that leaves the register is the coefficient the generator takes away
        have hlast : c.getMsbD j = c.getLsbD 0 := by
          rw [BitVec.getMsbD_eq_getLsbD, decide_eq_true (by omega), Bool.true_and]
          congr 1
          omega
        rw [hlast, if_pos heq]
        simp [CharTwo.add_self_eq_zero]
      · rw [BitVec.getMsbD_of_ge c j (by omega), if_neg heq]
        simp

theorem mk_reg_shiftBits (g c : BitVec w) :
    AdjoinRoot.mk (generator g) (reg (shiftBits g c)) =
      AdjoinRoot.root (generator g) * AdjoinRoot.mk (generator g) (reg c) := by
  rw [reg_shiftBits, map_add, map_mul, map_mul, AdjoinRoot.mk_self, AdjoinRoot.mk_X, mul_zero,
    add_zero]

theorem mk_reg_iterate (g c : BitVec w) (n : ℕ) :
    AdjoinRoot.mk (generator g) (reg ((shiftBits g)^[n] c)) =
      AdjoinRoot.root (generator g) ^ n * AdjoinRoot.mk (generator g) (reg c) := by
  induction n generalizing c with
  | zero => simp
  | succ n ih =>
    rw [Function.iterate_succ_apply, ih, mk_reg_shiftBits]
    ring

/-- Take a word of the message. -/
def stepBits (g c : BitVec w) (b : BitVec k) : BitVec w :=
  (shiftBits g)^[k] (c ^^^ b.setWidth w)

theorem mk_reg_stepBits (hk : k ≤ w) (g c : BitVec w) (b : BitVec k) :
    AdjoinRoot.mk (generator g) (reg (stepBits g c b)) =
      AdjoinRoot.mk (generator g) (X ^ w * reg b + X ^ k * reg c) := by
  rw [stepBits, mk_reg_iterate, reg_xor, reg_setWidth hk, ← AdjoinRoot.mk_X, ← map_pow, ← map_mul]
  apply congrArg (AdjoinRoot.mk (generator g))
  rw [mul_add, ← mul_assoc, ← pow_add, Nat.add_sub_cancel' hk]
  ring

/-- The bits of a message. -/
def messageBits (p : List (BitVec k)) : List Bool := p.flatMap bitsOf

theorem length_messageBits (p : List (BitVec k)) : (messageBits p).length = p.length * k := by
  simp [messageBits]

/-- Messages of one length are determined by their bits. -/
theorem messageBits_injective {p q : List (BitVec k)} (hlen : p.length = q.length)
    (h : messageBits p = messageBits q) : p = q := by
  induction p generalizing q with
  | nil => exact (List.length_eq_zero_iff.mp hlen.symm).symm
  | cons b p ih =>
    cases q with
    | nil => cases hlen
    | cons b' q =>
      have hbits : ∀ (a : BitVec k) r, messageBits (a :: r) = bitsOf a ++ messageBits r :=
        fun _ _ => rfl
      rw [hbits, hbits] at h
      obtain ⟨hhead, htail⟩ := List.append_inj h (by simp)
      have hb : b = b' := by
        apply reg_injective
        rw [← ofBits_bitsOf, ← ofBits_bitsOf, hhead]
      rw [hb, ih (Nat.succ.inj hlen) htail]

/-- What is left of a message, and of what stood in the register before it. -/
noncomputable def remainder (G before : (ZMod 2)[X]) (w : ℕ) (bits : List Bool) : (ZMod 2)[X] :=
  (X ^ w * ofBits bits + X ^ bits.length * before) %ₘ G

theorem mk_reg_foldl (hk : k ≤ w) (g c : BitVec w) (p : List (BitVec k)) :
    AdjoinRoot.mk (generator g) (reg (p.foldl (stepBits g) c)) =
      AdjoinRoot.mk (generator g)
        (X ^ w * ofBits (messageBits p) + X ^ (messageBits p).length * reg c) := by
  induction p generalizing c with
  | nil => simp [messageBits, ofBits]
  | cons b p ih =>
    have hbits : messageBits (b :: p) = bitsOf b ++ messageBits p := rfl
    rw [List.foldl_cons, ih, map_add, map_mul _ (X ^ (messageBits p).length), mk_reg_stepBits hk,
      ← map_mul, ← map_add, hbits, ofBits_append, List.length_append, length_bitsOf,
      ofBits_bitsOf]
    apply congrArg (AdjoinRoot.mk (generator g))
    ring

/-- **The register holds the remainder of the message.** -/
theorem reg_foldl (hk : k ≤ w) (g c : BitVec w) (p : List (BitVec k)) :
    reg (p.foldl (stepBits g) c) = remainder (generator g) (reg c) w (messageBits p) := by
  have hmk := congrArg (AdjoinRoot.modByMonicHom (generator_monic g)) (mk_reg_foldl hk g c p)
  rw [AdjoinRoot.modByMonicHom_mk, AdjoinRoot.modByMonicHom_mk] at hmk
  rw [remainder, ← hmk, eq_comm, modByMonic_eq_self_iff (generator_monic g), degree_generator]
  exact degree_reg_lt _

end Shift

/-! ## Windows -/

section Window

variable {w k : ℕ}

/-- The bits differ within `n` bits from some place on, at most. -/
def DifferWithin (n : ℕ) (l l' : List Bool) : Prop :=
  ∃ start, ∀ i, l[i]? ≠ l'[i]? → start ≤ i ∧ i < start + n

/-- Messages that differ within a window are the same before and after it. -/
theorem DifferWithin.exists_window {n : ℕ} {l l' : List Bool} (h : DifferWithin n l l')
    (hlen : l.length = l'.length) :
    ∃ a m m' b, l = a ++ m ++ b ∧ l' = a ++ m' ++ b ∧ m.length = m'.length ∧ m.length ≤ n := by
  obtain ⟨start, hdiffer⟩ := h
  have hsame : ∀ i, (i < start ∨ start + n ≤ i) → l[i]? = l'[i]? := by
    intro i hi
    by_contra hne
    obtain ⟨hle, hlt⟩ := hdiffer i hne
    omega
  have htake : l.take start = l'.take start := by
    apply List.ext_getElem?
    intro i
    rw [List.getElem?_take, List.getElem?_take]
    split_ifs with hi
    · exact hsame i (Or.inl hi)
    · rfl
  have hdrop : l.drop (start + n) = l'.drop (start + n) := by
    apply List.ext_getElem?
    intro i
    rw [List.getElem?_drop, List.getElem?_drop]
    exact hsame _ (Or.inr (Nat.le_add_right _ _))
  have hsplit : ∀ s : List Bool,
      s = s.take start ++ (s.drop start).take n ++ s.drop (start + n) := by
    intro s
    rw [List.append_assoc, ← List.drop_drop, List.take_append_drop, List.take_append_drop]
  refine ⟨l.take start, (l.drop start).take n, (l'.drop start).take n, l.drop (start + n),
    hsplit l, ?_, ?_, ?_⟩
  · rw [htake, hdrop]
    exact hsplit l'
  · simp [hlen]
  · simp

/-- **A short window is caught.**  The remainders of two messages that differ within the width of
the register differ, if the generator has a constant term. -/
theorem foldl_ne_of_window (hk : k ≤ w) {g : BitVec w} (hg : (generator g).coeff 0 ≠ 0)
    (c : BitVec w) {p q : List (BitVec k)} (hlen : p.length = q.length)
    (hne : p ≠ q) (hwindow : DifferWithin w (messageBits p) (messageBits q)) :
    p.foldl (stepBits g) c ≠ q.foldl (stepBits g) c := by
  intro heq
  have hbits : (messageBits p).length = (messageBits q).length := by
    rw [length_messageBits, length_messageBits, hlen]
  obtain ⟨a, m, m', b, hp, hq, hm, hmw⟩ := hwindow.exists_window hbits
  -- the generator divides the difference of the messages
  have hmk := mk_reg_foldl hk g c p
  rw [heq, mk_reg_foldl hk g c q, hbits, eq_comm, AdjoinRoot.mk_eq_mk, add_sub_add_right_eq_sub,
    ← mul_sub, hp, hq] at hmk
  simp only [ofBits_append, hm] at hmk
  have hdifference : X ^ w * ((ofBits a * X ^ m'.length + ofBits m) * X ^ b.length + ofBits b -
      ((ofBits a * X ^ m'.length + ofBits m') * X ^ b.length + ofBits b)) =
      X ^ (w + b.length) * (ofBits m - ofBits m') := by
    rw [pow_add]
    ring
  rw [hdifference] at hmk
  -- no power of `X` has a factor in common with it
  have hcoprime : IsCoprime (generator g) (X ^ (w + b.length)) := by
    apply IsCoprime.pow_right
    apply IsCoprime.symm
    rw [irreducible_X.coprime_iff_not_dvd, X_dvd_iff]
    exact hg
  have hdvd := hcoprime.dvd_of_dvd_mul_left hmk
  have hdegree : (ofBits m - ofBits m').degree < (generator g).degree := by
    have hwidth : (m.length : WithBot ℕ) ≤ w := by exact_mod_cast hmw
    rw [degree_generator]
    apply (degree_sub_le _ _).trans_lt
    apply max_lt
    · exact (degree_ofBits_lt m).trans_le hwidth
    · exact (degree_ofBits_lt m').trans_le (hm ▸ hwidth)
  have hzero : ofBits m - ofBits m' = 0 := eq_zero_of_dvd_of_degree_lt hdvd hdegree
  apply hne
  apply messageBits_injective hlen
  rw [hp, hq, ofBits_injective hm (sub_eq_zero.mp hzero)]

end Window

/-! ## Reading a register off a polynomial -/

/-- The reflected register of a polynomial. -/
def toReg (w : ℕ) (f : (ZMod 2)[X]) : BitVec w :=
  (BitVec.ofBoolListBE ((List.range w).map fun j => decide (f.coeff j = 1))).cast (by simp)

theorem decide_bit_eq_one : ∀ b : Bool, decide (bit b = 1) = b := by decide

theorem toReg_reg {w : ℕ} (c : BitVec w) : toReg w (reg c) = c := by
  apply BitVec.eq_of_getMsbD_eq
  intro j hj
  rw [toReg, BitVec.getMsbD_cast, BitVec.getMsbD_ofBoolListBE, List.getD_eq_getElem _ _ (by simpa),
    List.getElem_map, List.getElem_range, coeff_reg, decide_bit_eq_one]

/-! ## The bit loops -/

section Words

variable (poly crc : UInt32)

theorem toBitVec_neg_low_bit :
    (-(crc &&& 1)).toBitVec = if crc.toBitVec.getLsbD 0 then BitVec.allOnes 32 else 0 := by
  rw [UInt32.toBitVec_neg, UInt32.toBitVec_and, UInt32.toBitVec_one,
    BitVec.and_one_eq_setWidth_ofBool_getLsbD]
  cases crc.toBitVec.getLsbD 0 <;> decide

theorem toBitVec_shift : (shift poly crc).toBitVec = shiftBits poly.toBitVec crc.toBitVec := by
  rw [shift, shiftBits, UInt32.toBitVec_xor, UInt32.toBitVec_and, toBitVec_neg_low_bit]
  congr 1
  split_ifs
  · exact BitVec.and_allOnes
  · exact BitVec.and_zero

theorem toBitVec_iterate_shift (n : ℕ) :
    ((shift poly)^[n] crc).toBitVec = (shiftBits poly.toBitVec)^[n] crc.toBitVec := by
  induction n generalizing crc with
  | zero => rfl
  | succ n ih => rw [Function.iterate_succ_apply, Function.iterate_succ_apply, ih, toBitVec_shift]

theorem toBitVec_step (b : UInt8) :
    (step poly crc b).toBitVec = stepBits poly.toBitVec crc.toBitVec b.toBitVec := by
  rw [step, toBitVec_iterate_shift, UInt32.toBitVec_xor, UInt8.toBitVec_toUInt32]
  rfl

/-- A register that takes bytes. -/
theorem toBitVec_update (p : List UInt8) :
    (update poly crc p).toBitVec =
      (p.map UInt8.toBitVec).foldl (stepBits poly.toBitVec) crc.toBitVec := by
  induction p generalizing crc with
  | nil => rfl
  | cons b p ih => rw [update, List.foldl_cons, ← update, ih, toBitVec_step]; rfl

end Words

end Crc
