/-
# Scanning a C string

`sscanf` with the conversions `%n[^...]`, and the loop that steps a pointer behind the next
occurrence of a character with `strchr`.  A pointer into a string is the rest of the string.

`scanPair_eq_some` says which strings such a format accepts, `pointers_append` how the
pointers of a loop go through a text that is put together from parts; and a number that
`%u` has printed is read back by `atoi`.
-/
import MiniCi.CStr

namespace CStr

/-! ## `%n[^...]` -/

/-- `%n[^...]`: as many bytes as there are up to one of `stop`, at least one and at most `n`;
and the rest. -/
def scanSet (n : ℕ) (stop p : Bytes) : Option (Bytes × Bytes) :=
  let v := (p.takeWhile fun c => c ∉ stop).take n
  if v = [] then none else some (v, p.drop v.length)

/-- A character of the format that stands for itself. -/
def scanChar (c : UInt8) : Bytes → Option Bytes
  | [] => none
  | d :: p => if d = c then some p else none

/-- `sscanf(p, "%n[^c]c%m[^...]", k, v)`, when it assigns both. -/
def scanPair (n : ℕ) (c : UInt8) (m : ℕ) (stop p : Bytes) : Option (Bytes × Bytes) :=
  (scanSet n [c] p).bind fun (k, q) =>
    (scanChar c q).bind fun q => (scanSet m stop q).map fun (v, _) => (k, v)

section

variable {n m : ℕ} {c : UInt8} {stop p q v w : Bytes}

theorem scanSet_map_fst (n : ℕ) (stop p : Bytes) :
    (scanSet n stop p).map Prod.fst
      = if (p.takeWhile fun c => c ∉ stop).take n = [] then none
        else some ((p.takeWhile fun c => c ∉ stop).take n) := by
  dsimp only [scanSet]
  split_ifs <;> rfl

/-- A text that holds no stop goes on behind it. -/
theorem takeWhile_append_of_free (h : ∀ c ∈ p, c ∉ stop) :
    (p ++ q).takeWhile (fun c => c ∉ stop) = p ++ q.takeWhile fun c => c ∉ stop := by
  induction p with
  | nil => rfl
  | cons d p ih =>
    have hd := h d List.mem_cons_self
    rw [List.cons_append, List.takeWhile_cons_of_pos (by simpa using hd),
      ih fun c hc => h c (List.mem_cons_of_mem _ hc), List.cons_append]

/-- And ends at a stop. -/
theorem takeWhile_append_stop (h : ∀ c ∈ p, c ∉ stop) (hc : c ∈ stop) :
    (p ++ c :: q).takeWhile (fun c => c ∉ stop) = p := by
  rw [takeWhile_append_of_free h, List.takeWhile_cons_of_neg (by simpa using hc), List.append_nil]

/-- `%n[^...]` in front of a stop reads all there is. -/
theorem scanSet_append_stop (hne : p ≠ []) (hlen : p.length ≤ n) (h : ∀ c ∈ p, c ∉ stop)
    (hc : c ∈ stop) : scanSet n stop (p ++ c :: q) = some (p, c :: q) := by
  simp only [scanSet, takeWhile_append_stop h hc, List.take_of_length_le hlen, if_neg hne,
    List.drop_left]

/-- Or up to the end of the string. -/
theorem scanSet_all (hne : p ≠ []) (hlen : p.length ≤ n) (h : ∀ c ∈ p, c ∉ stop) :
    scanSet n stop p = some (p, []) := by
  have hall := takeWhile_append_of_free (q := []) h
  rw [List.append_nil, List.takeWhile_nil, List.append_nil] at hall
  simp only [scanSet, hall, List.take_of_length_le hlen, if_neg hne, List.drop_length]

/-- What `%n[^...]` has read stands in front of the rest. -/
theorem scanSet_eq_some (h : scanSet n stop p = some (v, q)) :
    p = v ++ q ∧ v ≠ [] ∧ v.length ≤ n ∧ (∀ c ∈ v, c ∉ stop) ∧
      v = (p.takeWhile fun c => c ∉ stop).take n := by
  unfold scanSet at h
  simp only at h
  split_ifs at h with hne
  obtain ⟨rfl, rfl⟩ := Prod.mk.inj (Option.some.inj h)
  refine ⟨?_, hne, List.length_take_le _ _, ?_, rfl⟩
  · have hpre : (p.takeWhile fun c => c ∉ stop).take n <+: p :=
      (List.take_prefix _ _).trans (List.takeWhile_prefix _)
    exact (List.prefix_iff_eq_append.mp hpre).symm
  · intro c hc
    simpa using List.mem_takeWhile_imp (List.mem_of_mem_take hc)

/-- **What a pair format accepts.** -/
theorem scanPair_eq_some {k : Bytes} :
    scanPair n c m stop p = some (k, v) ↔
      ∃ q, p = k ++ c :: q ∧ k ≠ [] ∧ k.length ≤ n ∧ c ∉ k ∧
        (scanSet m stop q).map Prod.fst = some v := by
  unfold scanPair
  constructor
  · intro h
    obtain ⟨⟨k', q⟩, hkey, h⟩ := Option.bind_eq_some_iff.mp h
    obtain ⟨q', hchar, h⟩ := Option.bind_eq_some_iff.mp h
    obtain ⟨⟨v', r⟩, hval, heq⟩ := Option.map_eq_some_iff.mp h
    obtain ⟨rfl, rfl⟩ := Prod.mk.inj heq
    obtain ⟨hp, hne, hlen, hfree, -⟩ := scanSet_eq_some hkey
    cases q with
    | nil => cases hchar
    | cons d q =>
      simp only [scanChar] at hchar
      split_ifs at hchar with hd
      obtain rfl := Option.some.inj hchar
      refine ⟨q, hd ▸ hp, hne, hlen, fun hmem => ?_, by rw [hval]; rfl⟩
      exact hfree c hmem (List.mem_singleton.mpr rfl)
  · rintro ⟨q, rfl, hne, hlen, hfree, hval⟩
    have hkey : scanSet n [c] (k ++ c :: q) = some (k, c :: q) := by
      refine scanSet_append_stop hne hlen (fun d hd hmem => hfree ?_) (List.mem_singleton.mpr rfl)
      rwa [← List.mem_singleton.mp hmem]
    obtain ⟨⟨v', r⟩, hval', rfl⟩ := Option.map_eq_some_iff.mp hval
    simp [hkey, scanChar, hval']

/-- Up to the first separator. -/
theorem takeWhile_append_cons {k : Bytes} (h : c ∉ k) (r : Bytes) :
    (k ++ c :: r).takeWhile (· ≠ c) = k := by
  have hpass : ∀ d ∈ k, decide (d ≠ c) = true := by
    intro d hd
    rw [decide_eq_true_eq]
    rintro rfl
    exact h hd
  rw [List.takeWhile_append_of_pos hpass, List.takeWhile_cons_of_neg (by simp), List.append_nil]

/-- A key ends at the first separator. -/
theorem key_unique {k k' : Bytes} {r r' : Bytes} (hk : c ∉ k) (hk' : c ∉ k')
    (h : k ++ c :: r = k' ++ c :: r') : k = k' := by
  rw [← takeWhile_append_cons hk r, h, takeWhile_append_cons hk']

/-- Behind a key and its separator the value is scanned. -/
theorem scanPair_key {k : Bytes} (hk : k ≠ []) (hklen : k.length ≤ n) (hkfree : c ∉ k) :
    scanPair n c m stop (k ++ c :: q) = ((scanSet m stop q).map Prod.fst).map fun v => (k, v) := by
  have hkey : scanSet n [c] (k ++ c :: q) = some (k, c :: q) := by
    refine scanSet_append_stop hk hklen (fun d hd hmem => hkfree ?_) (List.mem_singleton.mpr rfl)
    rwa [← List.mem_singleton.mp hmem]
  simp only [scanPair, hkey, Option.bind_some, scanChar, if_true, Option.map_map]
  rfl

/-- There is no empty key. -/
theorem scanPair_nil_key (q : Bytes) : scanPair n c m stop (c :: q) = none := by
  have hkey : scanSet n [c] (c :: q) = none := by
    rw [scanSet, List.takeWhile_cons_of_neg (by simp), List.take_nil]
    rfl
  rw [scanPair, hkey]
  rfl

/-- What follows a stop is not scanned. -/
theorem scanSet_stop_append {d : UInt8} (hd : d ∈ stop) :
    (scanSet m stop (p ++ d :: q)).map Prod.fst = (scanSet m stop p).map Prod.fst := by
  have htake : (p ++ d :: q).takeWhile (fun c => c ∉ stop) = p.takeWhile fun c => c ∉ stop := by
    induction p with
    | nil => simp [hd]
    | cons e p ih =>
      by_cases he : e ∈ stop
      · rw [List.cons_append, List.takeWhile_cons_of_neg (by simpa using he),
          List.takeWhile_cons_of_neg (by simpa using he)]
      · rw [List.cons_append, List.takeWhile_cons_of_pos (by simpa using he),
          List.takeWhile_cons_of_pos (by simpa using he), ih]
  rw [scanSet_map_fst, scanSet_map_fst, htake]

/-- Where the separator comes first, what follows a stop does not matter. -/
theorem scanPair_stop_append {d : UInt8} (hc : c ∈ p) (hd : d ∈ stop) :
    scanPair n c m stop (p ++ d :: q) = scanPair n c m stop p := by
  obtain ⟨k, r, rfl, hk⟩ := List.eq_append_cons_of_mem hc
  rw [List.append_assoc, List.cons_append]
  by_cases hkey : k ≠ [] ∧ k.length ≤ n
  · rw [scanPair_key hkey.1 hkey.2 hk, scanPair_key hkey.1 hkey.2 hk, scanSet_stop_append hd]
  · -- the key is empty, or too long: neither text is accepted
    have hnone : ∀ r', scanPair n c m stop (k ++ c :: r') = none := by
      intro r'
      rw [Option.eq_none_iff_forall_ne_some]
      rintro ⟨k', v⟩ heq
      obtain ⟨r'', hp, hne, hlen, hfree, -⟩ := scanPair_eq_some.mp heq
      rw [key_unique hk hfree hp] at hkey
      exact hkey ⟨hne, hlen⟩
    rw [hnone, hnone]

end

/-! ## Stepping with `strchr` -/

/-- The rests of a string behind each occurrence of a character. -/
def behind (c : UInt8) : Bytes → List Bytes
  | [] => []
  | d :: p => if d = c then p :: behind c p else behind c p

/-- The pointers of a loop that starts at `p` and goes on with `p = strchr(p, c) + 1`. -/
def pointers (c : UInt8) (p : Bytes) : List Bytes := p :: behind c p

section

variable {c : UInt8}

theorem behind_append (c : UInt8) (p q : Bytes) :
    behind c (p ++ q) = (behind c p).map (· ++ q) ++ behind c q := by
  induction p with
  | nil => rfl
  | cons d p ih =>
    rw [List.cons_append, behind, behind]
    split_ifs
    · rw [ih, List.map_cons, List.cons_append]
    · exact ih

theorem behind_of_not_mem {p : Bytes} (h : c ∉ p) : behind c p = [] := by
  induction p with
  | nil => rfl
  | cons d p ih =>
    simp only [List.mem_cons, not_or] at h
    rw [behind, if_neg (Ne.symm h.1), ih h.2]

/-- A text that is put together at the character is gone through part by part. -/
theorem pointers_append (c : UInt8) (p q : Bytes) :
    pointers c (p ++ c :: q) = (pointers c p).map (· ++ c :: q) ++ pointers c q := by
  rw [pointers, behind_append, behind, if_pos rfl, pointers, List.map_cons, List.cons_append,
    pointers]

/-- A part without the character has one pointer. -/
theorem pointers_of_not_mem {p : Bytes} (h : c ∉ p) : pointers c p = [p] := by
  rw [pointers, behind_of_not_mem h]

/-- What stands behind a character is a part of the string. -/
theorem mem_of_mem_behind {p r : Bytes} (hr : r ∈ behind c p) : ∀ d ∈ r, d ∈ p := by
  induction p with
  | nil => cases hr
  | cons e p ih =>
    rw [behind] at hr
    intro d hd
    split_ifs at hr
    · rcases List.mem_cons.mp hr with rfl | hr
      · exact List.mem_cons_of_mem _ hd
      · exact List.mem_cons_of_mem _ (ih hr d hd)
    · exact List.mem_cons_of_mem _ (ih hr d hd)

/-- And shorter than the string. -/
theorem length_lt_of_mem_behind {p r : Bytes} (hr : r ∈ behind c p) : r.length < p.length := by
  induction p with
  | nil => cases hr
  | cons e p ih =>
    rw [behind] at hr
    rw [List.length_cons]
    split_ifs at hr
    · rcases List.mem_cons.mp hr with rfl | hr
      · exact Nat.lt_succ_self _
      · exact (ih hr).trans (Nat.lt_succ_self _)
    · exact (ih hr).trans (Nat.lt_succ_self _)

end

/-! ## Numbers -/

/-- The digits that `%u` prints denote the number. -/
theorem digitsValue_decimal (n : ℕ) : digitsValue (decimal n) = n := by
  have hall : (decimal n).takeWhile (fun c => IsDigit c) = decimal n := by
    rw [List.takeWhile_eq_self_iff]
    intro c hc
    simpa using isDigit_of_mem_decimal hc
  have hvalue : ∀ (l : List Char), (∀ d ∈ l, d.isDigit) → ∀ acc : ℕ,
      (l.map fun d => UInt8.ofNat d.toNat).foldl (fun acc c => acc * 10 + (c.toNat - 48)) acc
        = Nat.ofDigitChars 10 l acc := by
    intro l
    induction l with
    | nil => intro _ acc; simp
    | cons d l ih =>
      intro hl acc
      have hd := hl d List.mem_cons_self
      simp only [Char.isDigit, Bool.and_eq_true, decide_eq_true_eq] at hd
      have h57 : d.toNat ≤ 57 := hd.2
      have hbyte : (UInt8.ofNat d.toNat).toNat = d.toNat := by
        rw [UInt8.toNat_ofNat']
        show d.toNat % 256 = d.toNat
        omega
      rw [List.map_cons, List.foldl_cons, ih fun e he => hl e (List.mem_cons_of_mem _ he),
        Nat.ofDigitChars_cons, hbyte, Nat.mul_comm]
      rfl
  unfold digitsValue
  rw [hall, decimal, hvalue _ (fun d hd => Nat.isDigit_of_mem_toDigits (by decide) (by decide) hd)]
  exact Nat.ofDigitChars_ten_toDigits

theorem decimal_injective : Function.Injective decimal := by
  intro a b h
  rw [← digitsValue_decimal a, h, digitsValue_decimal]

/-- A number ends where there is no digit any more. -/
theorem decimal_append_inj {m n : ℕ} {p q : Bytes} (hp : ¬ IsDigit (p.headD 0))
    (hq : ¬ IsDigit (q.headD 0)) (h : decimal m ++ p = decimal n ++ q) : m = n ∧ p = q := by
  have hend : ∀ r : Bytes, ¬ IsDigit (r.headD 0) → r.takeWhile (fun c => IsDigit c) = [] := by
    intro r hr
    cases r with
    | nil => rfl
    | cons c r => exact List.takeWhile_cons_of_neg (by simpa using hr)
  have hdigits : ∀ (k : ℕ) (r : Bytes), ¬ IsDigit (r.headD 0) →
      (decimal k ++ r).takeWhile (fun c => IsDigit c) = decimal k := by
    intro k r hr
    have hall : ∀ c ∈ decimal k, decide (IsDigit c) = true := fun c hc =>
      decide_eq_true (isDigit_of_mem_decimal hc)
    rw [List.takeWhile_append_of_pos hall, hend r hr, List.append_nil]
  have hsame : decimal m = decimal n := by
    rw [← hdigits m p hp, h, hdigits n q hq]
  obtain rfl := decimal_injective hsame
  exact ⟨rfl, List.append_cancel_left h⟩

theorem decimal_ne_nil (n : ℕ) : decimal n ≠ [] := by
  rw [decimal, ne_eq, List.map_eq_nil_iff]
  exact Nat.toDigits_ne_nil

/-- `atoi` reads a number of 32 bits back, modulo `2 ^ 32`. -/
theorem atoi_decimal {n : ℕ} (h : n < 4294967296) : atoi (decimal n) = Int.bmod n 4294967296 := by
  obtain ⟨c, p, hcp⟩ := List.exists_cons_of_ne_nil (decimal_ne_nil n)
  have hc : IsDigit c := isDigit_of_mem_decimal (n := n) (by rw [hcp]; exact List.mem_cons_self)
  have hspace : ¬ IsSpace c := by
    obtain ⟨h48, -⟩ := hc
    rw [UInt8.le_iff_toNat_le] at h48
    rintro (rfl | ⟨-, h13⟩)
    · exact absurd h48 (by decide)
    · rw [UInt8.le_iff_toNat_le] at h13
      exact absurd (h48.trans h13) (by decide)
  have hdrop : (decimal n).dropWhile (fun c => IsSpace c) = decimal n := by
    rw [hcp, List.dropWhile_cons_of_neg (by simpa using hspace)]
  have hsign : (decimal n).headD 0 ≠ 45 ∧ (decimal n).headD 0 ≠ 43 := by
    rw [hcp, List.headD_cons]
    obtain ⟨h48, -⟩ := hc
    constructor <;>
    · rintro rfl
      exact absurd h48 (by decide)
  have hval : strtol (decimal n) = n := by
    unfold strtol
    simp only [hdrop, if_neg hsign.1, if_neg hsign.2, digitsValue_decimal]
    omega
  rw [atoi, hval]

/-- Stored in a `uint32_t`, or in a `uint16_t` that it fits, it is the number itself. -/
theorem ofInt_atoi_decimal32 (x : UInt32) : UInt32.ofInt (atoi (decimal x.toNat)) = x := by
  have hlt := x.toNat_lt
  rw [atoi_decimal hlt, UInt32.ofInt]
  have hmod : (Int.bmod x.toNat 4294967296 % 2 ^ 32).toNat = x.toNat := by
    rw [Int.bmod]
    split_ifs <;> omega
  rw [hmod, UInt32.ofNat_toNat]

theorem ofInt_atoi_decimal16 (x : UInt16) : UInt16.ofInt (atoi (decimal x.toNat)) = x := by
  have hlt := x.toNat_lt
  rw [atoi_decimal (by omega), UInt16.ofInt]
  have hmod : (Int.bmod x.toNat 4294967296 % 2 ^ 16).toNat = x.toNat := by
    rw [Int.bmod]
    split_ifs <;> omega
  rw [hmod, UInt16.ofNat_toNat]

end CStr
