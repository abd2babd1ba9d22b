/-
# C strings over byte lists

A `const char *` is the list of bytes from the pointer on, and the string it denotes
is what stands before the first NUL (`str`).  A list that holds no NUL reads as if one
followed it; where the end of the object matters, `Terminated` says that there is a
NUL inside.

The functions of `<string.h>` and `<stdio.h>` are defined on bytes as the C standard
describes them, and each has one lemma that says what it does to the string.
-/
import Mathlib.Data.List.Chain
import Mathlib.Data.List.TakeWhile
import Mathlib.Data.Int.Order.Basic

namespace CStr

/-- Bytes in memory, from some address on. -/
abbrev Bytes := List UInt8

/-- The bytes of a string literal. -/
def ascii (s : String) : Bytes := s.toList.map fun c => UInt8.ofNat c.toNat

/-- The bytes of a string literal with other characters than those of ASCII. -/
def utf8 (s : String) : Bytes := s.toList.flatMap String.utf8EncodeChar

/-- The string at a pointer: the bytes before the first NUL. -/
def str (p : Bytes) : Bytes := p.takeWhile (· ≠ 0)

/-- There is a NUL inside the object. -/
abbrev Terminated (p : Bytes) : Prop := (0 : UInt8) ∈ p

/-! ## The string at a pointer -/

@[simp] theorem str_nil : str [] = [] := rfl

theorem str_cons (c : UInt8) (p : Bytes) : str (c :: p) = if c = 0 then [] else c :: str p := by
  by_cases h : c = 0 <;> simp [str, h]

@[simp] theorem str_cons_zero (p : Bytes) : str (0 :: p) = [] := rfl

/-- A string holds no NUL. -/
theorem ne_zero_of_mem_str {p : Bytes} {c : UInt8} (h : c ∈ str p) : c ≠ 0 := by
  simpa using List.mem_takeWhile_imp h

/-- Bytes without a NUL are a string. -/
theorem str_eq_self {p : Bytes} (h : 0 ∉ p) : str p = p := by
  rw [str, List.takeWhile_eq_self_iff]
  intro c hc
  simpa using fun h0 : c = 0 => h (h0 ▸ hc)

theorem str_str (p : Bytes) : str (str p) = str p :=
  str_eq_self fun h => ne_zero_of_mem_str h rfl

/-- What follows a string and its NUL is not read. -/
theorem str_append_zero {p : Bytes} (h : 0 ∉ p) (q : Bytes) : str (p ++ 0 :: q) = p := by
  induction p with
  | nil => rfl
  | cons c p ih =>
    simp only [List.mem_cons, not_or] at h
    rw [List.cons_append, str_cons, if_neg (Ne.symm h.1), ih h.2]

/-- A string that ends inside an object does not depend on what follows the object. -/
theorem str_append_of_terminated {p : Bytes} (h : Terminated p) (q : Bytes) :
    str (p ++ q) = str p := by
  induction p with
  | nil => cases h
  | cons c p ih =>
    rw [List.cons_append, str_cons, str_cons]
    by_cases hc : c = 0
    · rw [if_pos hc, if_pos hc]
    · rw [if_neg hc, if_neg hc, ih ((List.mem_cons.mp h).resolve_left (Ne.symm hc))]

/-- A string that does not end inside an object runs on behind it. -/
theorem str_append_of_not_terminated {p : Bytes} (h : ¬ Terminated p) (q : Bytes) :
    str (p ++ q) = p ++ str q := by
  induction p with
  | nil => rfl
  | cons c p ih =>
    simp only [Terminated, List.mem_cons, not_or] at h
    rw [List.cons_append, str_cons, if_neg (Ne.symm h.1), ih h.2, List.cons_append]

/-- A terminated object leaves room for the NUL. -/
theorem length_str_lt {p : Bytes} (h : Terminated p) : (str p).length < p.length := by
  induction p with
  | nil => cases h
  | cons c p ih =>
    rw [str_cons]
    by_cases hc : c = 0
    · simp [hc]
    · rw [if_neg hc]
      have := ih ((List.mem_cons.mp h).resolve_left (Ne.symm hc))
      simpa using this

/-! ## `strncpy` -/

/-- `strncpy(dst, src, n)`: the `n` bytes written, padded with NULs. -/
def strncpy : Bytes → ℕ → Bytes
  | _, 0 => []
  | [], n + 1 => List.replicate (n + 1) 0
  | c :: src, n + 1 => if c = 0 then List.replicate (n + 1) 0 else c :: strncpy src n

theorem strncpy_eq (src : Bytes) (n : ℕ) :
    strncpy src n = (str src).take n ++ List.replicate (n - (str src).length) 0 := by
  induction n generalizing src with
  | zero => simp [strncpy]
  | succ n ih =>
    cases src with
    | nil => simp [strncpy]
    | cons c src =>
      rw [strncpy, str_cons]
      by_cases hc : c = 0
      · simp [hc]
      · simp [hc, ih]

@[simp] theorem length_strncpy (src : Bytes) (n : ℕ) : (strncpy src n).length = n := by
  rw [strncpy_eq, List.length_append, List.length_take, List.length_replicate]
  omega

/-- A buffer of `n + 1` bytes filled by `strncpy` of `n` and a closing NUL holds the first
`n` bytes of the string. -/
theorem str_strncpy_append_zero (src : Bytes) (n : ℕ) :
    str (strncpy src n ++ [0]) = (str src).take n := by
  have hnul : (0 : UInt8) ∉ (str src).take n := fun h =>
    ne_zero_of_mem_str (List.mem_of_mem_take h) rfl
  rw [strncpy_eq, List.append_assoc]
  rcases hk : n - (str src).length with _ | k
  · exact str_append_zero hnul []
  · exact str_append_zero hnul _

/-! ## Character arrays -/

/-- The contents of a `char[n]`. -/
structure Buf (n : ℕ) where
  bytes : Bytes
  length_bytes : bytes.length = n
  deriving DecidableEq

/-- The string in a character array. -/
def Buf.str {n : ℕ} (b : Buf n) : Bytes := CStr.str b.bytes

/-- An array of NULs. -/
def Buf.zero (n : ℕ) : Buf n := ⟨List.replicate n 0, List.length_replicate⟩

/-- `buf[0] = '\0'`. -/
def Buf.clear {n : ℕ} (b : Buf n) : Buf n := ⟨b.bytes.set 0 0, by simp [b.length_bytes]⟩

@[simp] theorem Buf.str_clear {n : ℕ} (b : Buf n) : b.clear.str = [] := by
  show CStr.str (b.bytes.set 0 0) = []
  cases b.bytes with
  | nil => rfl
  | cons c p => exact str_cons_zero p

@[simp] theorem Buf.str_zero (n : ℕ) : (Buf.zero n).str = [] := by
  show CStr.str (List.replicate n 0) = []
  cases n with
  | zero => rfl
  | succ n => exact str_cons_zero _

/-- The first `n` bytes at an address, with NULs for what lies beyond the object. -/
def Buf.ofBytes (n : ℕ) (p : Bytes) : Buf n :=
  ⟨p.take n ++ List.replicate (n - p.length) 0, by
    rw [List.length_append, List.length_take, List.length_replicate]
    omega⟩

/-- `strncpy(dst, src, n)` followed by `dst[n] = '\0'`. -/
def Buf.ofStr (n : ℕ) (src : Bytes) : Buf (n + 1) := ⟨strncpy src n ++ [0], by simp⟩

@[simp] theorem Buf.str_ofStr (n : ℕ) (src : Bytes) :
    (Buf.ofStr n src).str = (CStr.str src).take n :=
  str_strncpy_append_zero src n

/-- `strncpy(dst, src, n)` into an array of `n` bytes: nothing closes a string of `n` bytes
or more. -/
def Buf.strncpy (n : ℕ) (src : Bytes) : Buf n := ⟨CStr.strncpy src n, length_strncpy src n⟩

@[simp] theorem Buf.str_strncpy (n : ℕ) (src : Bytes) :
    (Buf.strncpy n src).str = (CStr.str src).take n := by
  have hnul : (0 : UInt8) ∉ (CStr.str src).take n := fun h =>
    ne_zero_of_mem_str (List.mem_of_mem_take h) rfl
  show CStr.str (CStr.strncpy src n) = _
  rw [strncpy_eq]
  rcases hk : n - (CStr.str src).length with _ | k
  · rw [List.replicate_zero, List.append_nil, str_eq_self hnul]
  · exact str_append_zero hnul _

theorem Buf.length_str_le {n : ℕ} (b : Buf n) : b.str.length ≤ n := by
  have hle : (CStr.str b.bytes).length ≤ b.bytes.length := (List.takeWhile_sublist _).length_le
  rwa [b.length_bytes] at hle

/-- Copying an array into one of the same size copies its string. -/
@[simp] theorem Buf.str_strncpy_bytes {n : ℕ} (b : Buf n) :
    (Buf.strncpy n b.bytes).str = b.str := by
  rw [Buf.str_strncpy]
  exact List.take_of_length_le b.length_str_le

theorem Buf.bytes_ofBytes {n : ℕ} {p : Bytes} (h : p.length = n) : (Buf.ofBytes n p).bytes = p := by
  simp [Buf.ofBytes, ← h]

theorem Buf.ext_bytes {n : ℕ} {b c : Buf n} (h : b.bytes = c.bytes) : b = c := by
  cases b
  cases c
  simpa using h

/-- Reading an array back, whatever follows it. -/
theorem Buf.ofBytes_append {n : ℕ} (b : Buf n) (q : Bytes) : Buf.ofBytes n (b.bytes ++ q) = b := by
  apply Buf.ext_bytes
  have hlen : n - (b.bytes ++ q).length = 0 := by
    rw [List.length_append, b.length_bytes]
    omega
  show (b.bytes ++ q).take n ++ List.replicate (n - (b.bytes ++ q).length) 0 = b.bytes
  rw [hlen, List.replicate_zero, List.append_nil]
  exact List.take_left' b.length_bytes

/-- In a string that `strncpy` has written a NUL is followed by NULs only. -/
theorem Buf.isChain_ofStr (n : ℕ) (src : Bytes) :
    (Buf.ofStr n src).bytes.IsChain fun x y => x = 0 → y = 0 := by
  have hbytes : (Buf.ofStr n src).bytes =
      (CStr.str src).take n ++ List.replicate (n - (CStr.str src).length + 1) 0 := by
    show CStr.strncpy src n ++ [0] = _
    rw [strncpy_eq, List.append_assoc, ← List.replicate_succ']
  have hstr : ∀ c ∈ (CStr.str src).take n, c ≠ 0 := fun c hc =>
    ne_zero_of_mem_str (List.mem_of_mem_take hc)
  rw [hbytes, List.isChain_append]
  refine ⟨?_, List.isChain_replicate_of_rel _ fun h => h, ?_⟩
  · apply List.Pairwise.isChain
    apply List.pairwise_of_forall_mem_list
    intro x hx y _ hzero
    exact absurd hzero (hstr x hx)
  · intro x hx y _ hzero
    exact absurd hzero (hstr x (List.mem_of_getLast? hx))

/-! ## `strncmp` -/

/-- `strncmp(p, q, n)`. -/
def strncmp : Bytes → Bytes → ℕ → ℤ
  | _, _, 0 => 0
  | p, q, n + 1 =>
    if p.headD 0 = q.headD 0 then
      if p.headD 0 = 0 then 0 else strncmp p.tail q.tail n
    else (p.headD 0).toNat - (q.headD 0).toNat

theorem str_of_headD_eq_zero {p : Bytes} (h : p.headD 0 = 0) : str p = [] := by
  cases p with
  | nil => rfl
  | cons c p => simp only [List.headD_cons] at h; rw [h, str_cons_zero]

theorem str_of_headD_ne_zero {p : Bytes} (h : p.headD 0 ≠ 0) : str p = p.headD 0 :: str p.tail := by
  cases p with
  | nil => exact absurd rfl h
  | cons c p => simp only [List.headD_cons] at h ⊢; rw [str_cons, if_neg h, List.tail_cons]

/-- `strncmp` finds no difference iff the strings agree in their first `n` bytes. -/
theorem strncmp_eq_zero_iff (p q : Bytes) (n : ℕ) :
    strncmp p q n = 0 ↔ (str p).take n = (str q).take n := by
  induction n generalizing p q with
  | zero => simp [strncmp]
  | succ n ih =>
    rw [strncmp]
    by_cases hpq : p.headD 0 = q.headD 0
    · rw [if_pos hpq]
      by_cases hp : p.headD 0 = 0
      · have hq : q.headD 0 = 0 := hpq ▸ hp
        rw [if_pos hp, str_of_headD_eq_zero hp, str_of_headD_eq_zero hq]
        simp
      · have hq : q.headD 0 ≠ 0 := fun h => hp (hpq.trans h)
        rw [if_neg hp, ih, str_of_headD_ne_zero hp, str_of_headD_ne_zero hq, hpq,
          List.take_succ_cons, List.take_succ_cons, List.cons.injEq, eq_self, true_and]
    · rw [if_neg hpq]
      have hne : ((p.headD 0).toNat : ℤ) - (q.headD 0).toNat ≠ 0 := fun h =>
        hpq (UInt8.toNat_inj.mp (by omega))
      refine iff_of_false hne fun h => hpq ?_
      -- the strings differ in their first byte, or one of them ends there
      by_cases hp : p.headD 0 = 0
      · by_cases hq : q.headD 0 = 0
        · rw [hp, hq]
        · rw [str_of_headD_eq_zero hp, str_of_headD_ne_zero hq] at h
          simp at h
      · by_cases hq : q.headD 0 = 0
        · rw [str_of_headD_ne_zero hp, str_of_headD_eq_zero hq] at h
          simp at h
        · rw [str_of_headD_ne_zero hp, str_of_headD_ne_zero hq] at h
          simp only [List.take_succ_cons, List.cons.injEq] at h
          exact h.1

/-- `strncmp` of two arrays over their whole length compares the strings in them. -/
theorem Buf.strncmp_eq_zero_iff {n : ℕ} (b c : Buf n) :
    strncmp b.bytes c.bytes n = 0 ↔ b.str = c.str := by
  rw [CStr.strncmp_eq_zero_iff]
  show b.str.take n = c.str.take n ↔ _
  rw [List.take_of_length_le b.length_str_le, List.take_of_length_le c.length_str_le]

/-! ## `strcspn` -/

/-- `strcspn`: how many bytes of the string stand before the first of `reject`. -/
def strcspn (p reject : Bytes) : ℕ := ((str p).takeWhile fun c => c ∉ reject).length

/-- `p[strcspn(p, reject)] = '\0'` cuts the string there. -/
theorem str_set_strcspn (p reject : Bytes) :
    str (p.set (strcspn p reject) 0) = (str p).takeWhile fun c => c ∉ reject := by
  unfold strcspn
  induction p with
  | nil => rfl
  | cons c p ih =>
    rw [str_cons]
    by_cases hc : c = 0
    · rw [if_pos hc]
      rfl
    · rw [if_neg hc]
      by_cases hreject : c ∈ reject
      · rw [List.takeWhile_cons_of_neg (by simpa using hreject)]
        rfl
      · rw [List.takeWhile_cons_of_pos (by simpa using hreject), List.length_cons,
          List.set_cons_succ, str_cons, if_neg hc, ih]

/-! ## `snprintf` -/

/-- The string `snprintf(buf, size, ...)` leaves in `buf` when the formatted text is `text`. -/
def snprintf (size : ℕ) (text : Bytes) : Bytes := text.take (size - 1)

/-- A text that fits is not cut. -/
theorem snprintf_eq_self {size : ℕ} {text : Bytes} (h : text.length < size) :
    snprintf size text = text :=
  List.take_of_length_le (by omega)

/-- The `%u` conversion. -/
def decimal (n : ℕ) : Bytes := (Nat.toDigits 10 n).map fun c => UInt8.ofNat c.toNat

/-- The `%d` conversion. -/
def decimalInt (n : ℤ) : Bytes := if n < 0 then ascii "-" ++ decimal n.natAbs else decimal n.natAbs

/-- The bytes `'0'` to `'9'`. -/
def IsDigit (c : UInt8) : Prop := 48 ≤ c ∧ c ≤ 57

instance (c : UInt8) : Decidable (IsDigit c) := inferInstanceAs (Decidable (_ ∧ _))

theorem isDigit_of_mem_decimal {n : ℕ} {c : UInt8} (h : c ∈ decimal n) : IsDigit c := by
  obtain ⟨d, hd, rfl⟩ := List.mem_map.mp h
  have hdig := Nat.isDigit_of_mem_toDigits (by decide) (by decide) hd
  simp only [Char.isDigit, Bool.and_eq_true, decide_eq_true_eq] at hdig
  have h48 : 48 ≤ d.toNat := hdig.1
  have h57 : d.toNat ≤ 57 := hdig.2
  constructor
  · rw [UInt8.le_iff_toNat_le, UInt8.toNat_ofNat']
    show 48 ≤ d.toNat % 256
    omega
  · rw [UInt8.le_iff_toNat_le, UInt8.toNat_ofNat']
    show d.toNat % 256 ≤ 57
    omega

/-! ## `atoi` -/

/-- `isspace` in the C locale. -/
def IsSpace (c : UInt8) : Prop := c = 32 ∨ 9 ≤ c ∧ c ≤ 13

instance (c : UInt8) : Decidable (IsSpace c) := inferInstanceAs (Decidable (_ ∨ _))

/-- The number that the digits at the front of a string denote. -/
def digitsValue (p : Bytes) : ℕ :=
  (p.takeWhile fun c => IsDigit c).foldl (fun acc c => acc * 10 + (c.toNat - 48)) 0

/-- `strtol(p, NULL, 10)` where `long` has 64 bits: white space, a sign, and digits; what does
not fit is cut off at the bounds. -/
def strtol (p : Bytes) : ℤ :=
  let q := p.dropWhile fun c => IsSpace c
  let value : ℤ :=
    if q.headD 0 = 45 then -digitsValue q.tail
    else if q.headD 0 = 43 then digitsValue q.tail
    else digitsValue q
  max (-9223372036854775808) (min 9223372036854775807 value)

/-- `atoi`: `strtol`, converted to a 32-bit `int`. -/
def atoi (p : Bytes) : ℤ := Int.bmod (strtol p) 4294967296

end CStr
