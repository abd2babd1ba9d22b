/-
# The two ends of a byte stream

A stream socket whose peer has sent some bytes and closed its side.  `recv` returns at
least one byte while there are any, but how many is up to the network: `frag` says how
many more than one the next calls find.

`gather` is the loop that receives up to a given number of bytes through a buffer, until
the peer's bytes are used up.  Whatever the fragmentation, it returns what is there
(`gather_eq`).

A `Sink` is the other end, of a socket or of a file: each `write` takes at least one byte or
fails, and `writeAll` is the loop that goes on until all is written (`writeAll_eq`).  A call
that is interrupted and made again counts as one call.

`gatherTo` is the loop of `gather` with one `write` of each piece to a `Sink`, whatever that
takes: the sink gets no byte that was not received (`gatherTo_sublist`), and all that was received
if every `write` takes all (`gatherTo_eq`).
-/
import Mathlib.Data.List.Basic

namespace ByteStream

/-- The bytes not yet received, and the fragments they will arrive in. -/
structure Stream where
  rest : List UInt8
  frag : ℕ → ℕ

/-- `recv` with room for `len` bytes. -/
def Stream.recv (s : Stream) (len : ℕ) : List UInt8 × Stream :=
  (s.rest.take (min len (s.frag 0 + 1)),
    { rest := s.rest.drop (min len (s.frag 0 + 1)), frag := fun i => s.frag (i + 1) })

/-- `recv` of `len` bytes with `MSG_WAITALL`. -/
def Stream.recvWaitAll (s : Stream) (len : ℕ) : List UInt8 × Stream :=
  (s.rest.take len, { s with rest := s.rest.drop len })

/-- The loop `while (remain > 0) { n = recv(fd, buf, min(remain, size)); if (n <= 0) break;
remain -= n; }`, with `fuel` rounds at most: the bytes received. -/
def gather (size : ℕ) : ℕ → ℕ → Stream → List UInt8 × Stream
  | 0, _, s => ([], s)
  | fuel + 1, remain, s =>
    if remain = 0 then ([], s)
    else
      let (got, s') := s.recv (min remain size)
      if got = [] then ([], s')
      else
        let (more, s'') := gather size fuel (remain - got.length) s'
        (got ++ more, s'')

/-- A `recv` with room returns nothing only at the end of the stream. -/
theorem Stream.recv_eq_nil_iff (s : Stream) {len : ℕ} (hlen : 0 < len) :
    (s.recv len).1 = [] ↔ s.rest = [] := by
  rw [Stream.recv, List.take_eq_nil_iff]
  refine or_iff_right ?_
  have hpos : 0 < min len (s.frag 0 + 1) := by omega
  exact Nat.ne_of_gt hpos

/-- Taking a part of what is asked for, and then the rest of it. -/
theorem take_append_take_drop {k n : ℕ} (hk : k ≤ n) (p : List UInt8) :
    p.take k ++ (p.drop k).take (n - (p.take k).length) = p.take n ∧
      (p.drop k).drop (n - (p.take k).length) = p.drop n := by
  rw [List.length_take]
  rcases Nat.le_total k p.length with hkp | hkp
  · have hn : k + (n - k) = n := by omega
    rw [Nat.min_eq_left hkp, ← List.take_add, List.drop_drop, hn]
    exact ⟨rfl, rfl⟩
  · rw [List.take_of_length_le hkp, List.take_of_length_le (by omega : p.length ≤ n),
      List.drop_eq_nil_of_le hkp, List.drop_eq_nil_of_le (by omega : p.length ≤ n)]
    simp

/-- **The loop does not depend on the fragmentation.**  It returns the first `remain` bytes,
or all there are, and leaves the others. -/
theorem gather_eq {size : ℕ} (hsize : 0 < size) {fuel remain : ℕ} (hfuel : remain ≤ fuel)
    (s : Stream) :
    (gather size fuel remain s).1 = s.rest.take remain ∧
      (gather size fuel remain s).2.rest = s.rest.drop remain := by
  -- induction on the rounds left; each receives at least one byte
  induction fuel generalizing remain s with
  | zero =>
    obtain rfl : remain = 0 := by omega
    exact ⟨rfl, rfl⟩
  | succ fuel ih =>
    rw [gather]
    by_cases hremain : remain = 0
    · subst hremain
      exact ⟨rfl, rfl⟩
    · rw [if_neg hremain]
      have hpos : 0 < min remain size := by omega
      by_cases hnil : (s.recv (min remain size)).1 = []
      · -- the peer has sent nothing more
        have hrest := (s.recv_eq_nil_iff hpos).mp hnil
        simp [hrest, Stream.recv]
      · -- some bytes arrive, and the loop goes on for what is missing
        have hgot : 0 < (s.recv (min remain size)).1.length := List.length_pos_iff.mpr hnil
        have hle : remain - (s.recv (min remain size)).1.length ≤ fuel := by omega
        obtain ⟨hmore, hleft⟩ := ih hle (s.recv (min remain size)).2
        have hk : min (min remain size) (s.frag 0 + 1) ≤ remain := by omega
        simp only [if_neg hnil, hmore, hleft]
        exact take_append_take_drop hk s.rest

/-- The loop that receives exactly `len` bytes; `none` when the peer has sent fewer. -/
def Stream.recvAll (s : Stream) (len : ℕ) : Option (List UInt8 × Stream) :=
  let (got, s') := gather len len len s
  if got.length = len then some (got, s') else none

/-- What has arrived is received, and nothing behind it. -/
theorem Stream.recvAll_append {s : Stream} {p q : List UInt8} (hs : s.rest = p ++ q) {len : ℕ}
    (hlen : p.length = len) : ∃ s', s.recvAll len = some (p, s') ∧ s'.rest = q := by
  subst hlen
  rcases Nat.eq_zero_or_pos p.length with h0 | hpos
  · obtain rfl := List.length_eq_zero_iff.mp h0
    exact ⟨s, rfl, hs⟩
  · obtain ⟨hgot, hrest⟩ := gather_eq hpos (Nat.le_refl p.length) s
    rw [hs, List.take_left] at hgot
    rw [hs, List.drop_left] at hrest
    refine ⟨(gather p.length p.length p.length s).2, ?_, hrest⟩
    rw [Stream.recvAll]
    simp only [hgot, if_true]

/-- What is received is what comes first. -/
theorem Stream.recvAll_eq_some {s s' : Stream} {len : ℕ} {p : List UInt8}
    (h : s.recvAll len = some (p, s')) : p.length = len ∧ s.rest = p ++ s'.rest := by
  rw [Stream.recvAll] at h
  simp only at h
  split_ifs at h with hlen
  obtain ⟨rfl, rfl⟩ := Prod.mk.inj (Option.some.inj h)
  refine ⟨hlen, ?_⟩
  rcases Nat.eq_zero_or_pos len with rfl | hpos
  · rfl
  · obtain ⟨hgot, hrest⟩ := gather_eq hpos (Nat.le_refl len) s
    rw [hgot, hrest, List.take_append_drop]

/-! ## Writing -/

/-- The bytes written so far, and how many more than one the next calls take; `none` for a
call that fails. -/
structure Sink where
  sent : List UInt8
  takes : ℕ → Option ℕ

/-- No call fails. -/
def Sink.Open (s : Sink) : Prop := ∀ k, s.takes k ≠ none

/-- `write` of `p`: the number of bytes taken, `none` for an error. -/
def Sink.write (s : Sink) (p : List UInt8) : Option ℕ × Sink :=
  match s.takes 0 with
  | some more => (some (min p.length (more + 1)),
      { sent := s.sent ++ p.take (min p.length (more + 1)), takes := fun k => s.takes (k + 1) })
  | none => (none, { s with takes := fun k => s.takes (k + 1) })

/-- The loop `while (sent < len) { n = write(fd, p + sent, len - sent); if (n <= 0) return -1;
sent += n; }`, with `fuel` rounds at most. -/
def writeLoop : ℕ → List UInt8 → Sink → Bool × Sink
  | 0, p, s => (p.isEmpty, s)
  | fuel + 1, p, s =>
    if p = [] then (true, s)
    else
      match s.write p with
      | (some n, s') => writeLoop fuel (p.drop n) s'
      | (none, s') => (false, s')

/-- Write all of `p`; `false` when a call fails. -/
def Sink.writeAll (s : Sink) (p : List UInt8) : Bool × Sink := writeLoop p.length p s

/-- The loop takes a part of `p`, and all of it iff no call fails. -/
theorem writeLoop_spec (fuel : ℕ) (p : List UInt8) (s : Sink) :
    ∃ k ≤ p.length, (writeLoop fuel p s).2.sent = s.sent ++ p.take k ∧
      ((writeLoop fuel p s).1 = true ↔ k = p.length) := by
  -- induction on the rounds left
  induction fuel generalizing p s with
  | zero =>
    refine ⟨0, Nat.zero_le _, by simp [writeLoop], ?_⟩
    rw [writeLoop, List.isEmpty_iff_length_eq_zero, eq_comm]
  | succ fuel ih =>
    rw [writeLoop]
    by_cases hp : p = []
    · subst hp
      exact ⟨0, Nat.le_refl 0, by simp, by simp⟩
    · rw [if_neg hp, Sink.write]
      cases s.takes 0 with
      | none =>
        refine ⟨0, Nat.zero_le _, by simp, ?_⟩
        exact iff_of_false Bool.false_ne_true (Ne.symm (mt List.length_eq_zero_iff.mp hp))
      | some more =>
        obtain ⟨k, hk, hsent, hok⟩ := ih (p.drop (min p.length (more + 1)))
          ⟨s.sent ++ p.take (min p.length (more + 1)), fun k => s.takes (k + 1)⟩
        rw [List.length_drop] at hk hok
        refine ⟨min p.length (more + 1) + k, by omega, ?_, ?_⟩
        · rw [hsent, List.take_add, List.append_assoc]
        · rw [hok]
          omega

/-- What has been sent when all of `p` was to be written. -/
theorem Sink.writeAll_spec (s : Sink) (p : List UInt8) :
    ∃ k ≤ p.length, (s.writeAll p).2.sent = s.sent ++ p.take k ∧
      ((s.writeAll p).1 = true ↔ k = p.length) :=
  writeLoop_spec p.length p s

/-- If no call fails, all of `p` has been sent. -/
theorem Sink.sent_of_writeAll {s s' : Sink} {p : List UInt8} (h : s.writeAll p = (true, s')) :
    s'.sent = s.sent ++ p := by
  obtain ⟨k, -, hsent, hok⟩ := s.writeAll_spec p
  rw [h] at hsent hok
  rw [hsent, hok.mp rfl, List.take_length]

/-- If a call fails, a proper part of `p` has been sent. -/
theorem Sink.sent_of_writeAll_false {s s' : Sink} {p : List UInt8}
    (h : s.writeAll p = (false, s')) : ∃ k < p.length, s'.sent = s.sent ++ p.take k := by
  obtain ⟨k, hk, hsent, hok⟩ := s.writeAll_spec p
  rw [h] at hsent hok
  exact ⟨k, Nat.lt_of_le_of_ne hk fun heq => Bool.false_ne_true (hok.mpr heq), hsent⟩

/-- The loop only adds to what has been sent. -/
theorem writeLoop_length_le (fuel : ℕ) (p : List UInt8) (s : Sink) :
    s.sent.length ≤ (writeLoop fuel p s).2.sent.length := by
  obtain ⟨k, -, hsent, -⟩ := writeLoop_spec fuel p s
  rw [hsent, List.length_append]
  exact Nat.le_add_right _ _

/-- The first `n` bytes of `p` get out iff they do where nothing else is to be written. -/
theorem writeLoop_take_iff {fuel fuel' n : ℕ} {p : List UInt8} (hn : n ≤ p.length)
    (hfuel : p.length ≤ fuel) (hfuel' : n ≤ fuel') (s : Sink) :
    (writeLoop fuel' (p.take n) s).1 = true ↔
      s.sent.length + n ≤ (writeLoop fuel p s).2.sent.length := by
  -- induction on the rounds of the shorter loop, which makes the same calls
  induction fuel' generalizing fuel n p s with
  | zero =>
    obtain rfl : n = 0 := by omega
    exact iff_of_true rfl (writeLoop_length_le fuel p s)
  | succ fuel' ih =>
    by_cases h0 : n = 0
    · subst h0
      exact iff_of_true (by simp [writeLoop]) (writeLoop_length_le fuel p s)
    · obtain ⟨fuel, rfl⟩ : ∃ k, fuel = k + 1 := Nat.exists_eq_succ_of_ne_zero (by omega)
      have hp : p ≠ [] := by
        rintro rfl
        exact h0 (Nat.le_zero.mp hn)
      have hlen : (p.take n).length = n := List.length_take_of_le hn
      have htake : p.take n ≠ [] := by
        rw [Ne, List.take_eq_nil_iff, not_or]
        exact ⟨h0, hp⟩
      rw [writeLoop, writeLoop, if_neg htake, if_neg hp, Sink.write, Sink.write, hlen]
      rcases s.takes 0 with _ | more
      · refine iff_of_false Bool.false_ne_true ?_
        show ¬ s.sent.length + n ≤ s.sent.length
        omega
      · show (writeLoop fuel' ((p.take n).drop (min n (more + 1)))
            ⟨s.sent ++ (p.take n).take (min n (more + 1)), fun k => s.takes (k + 1)⟩).1 = true ↔
          s.sent.length + n ≤ (writeLoop fuel (p.drop (min p.length (more + 1)))
            ⟨s.sent ++ p.take (min p.length (more + 1)), fun k => s.takes (k + 1)⟩).2.sent.length
        by_cases hmore : more + 1 ≤ n
        · -- both calls take the same
          have hmin : min n (more + 1) = more + 1 := Nat.min_eq_right hmore
          have hmin' : min p.length (more + 1) = more + 1 :=
            Nat.min_eq_right (Nat.le_trans hmore hn)
          have hn' : n - (more + 1) ≤ (p.drop (more + 1)).length := by
            rw [List.length_drop]
            omega
          have hfuel'' : (p.drop (more + 1)).length ≤ fuel := by
            rw [List.length_drop]
            omega
          have hrest := ih hn' hfuel'' (by omega)
            ⟨s.sent ++ p.take (more + 1), fun k => s.takes (k + 1)⟩
          rw [hmin, hmin', List.drop_take, List.take_take, Nat.min_eq_left hmore, hrest]
          have hsent : (s.sent ++ p.take (more + 1)).length = s.sent.length + (more + 1) := by
            rw [List.length_append, List.length_take_of_le (Nat.le_trans hmore hn)]
          show (s.sent ++ p.take (more + 1)).length + (n - (more + 1)) ≤ _ ↔ _
          rw [hsent, Nat.add_assoc, Nat.add_sub_cancel' hmore]
        · -- the shorter loop is through, and the longer one has taken `n` bytes or more
          have hmin : min n (more + 1) = n := Nat.min_eq_left (by omega)
          have hdrop : (p.take n).drop n = [] := List.drop_eq_nil_of_le (List.length_take_le _ _)
          rw [hmin, hdrop]
          refine iff_of_true ?_ ?_
          · cases fuel' <;> rfl
          · refine Nat.le_trans ?_ (writeLoop_length_le fuel _ _)
            show _ ≤ (s.sent ++ p.take (min p.length (more + 1))).length
            rw [List.length_append, List.length_take]
            omega

/-- The first `n` bytes of `p` get out iff they can be written alone. -/
theorem Sink.writeAll_take_iff (s : Sink) {p : List UInt8} {n : ℕ} (hn : n ≤ p.length) :
    (s.writeAll (p.take n)).1 = true ↔ s.sent.length + n ≤ (s.writeAll p).2.sent.length :=
  writeLoop_take_iff hn (Nat.le_refl _) (Nat.le_of_eq (List.length_take_of_le hn).symm) s

/-- The loop does not depend on how much each call takes. -/
theorem writeLoop_eq {fuel : ℕ} {p : List UInt8} (hfuel : p.length ≤ fuel) {s : Sink}
    (hs : s.Open) :
    (writeLoop fuel p s).1 = true ∧ (writeLoop fuel p s).2.sent = s.sent ++ p ∧
      (writeLoop fuel p s).2.Open := by
  -- induction on the rounds left; each takes at least one byte of `p`
  induction fuel generalizing p s with
  | zero =>
    obtain rfl : p = [] := List.length_eq_zero_iff.mp (by omega)
    exact ⟨rfl, (List.append_nil _).symm, hs⟩
  | succ fuel ih =>
    rw [writeLoop]
    by_cases hp : p = []
    · rw [if_pos hp, hp]
      exact ⟨rfl, (List.append_nil _).symm, hs⟩
    · obtain ⟨more, hmore⟩ := Option.ne_none_iff_exists'.mp (hs 0)
      have hpos : 0 < p.length := List.length_pos_iff.mpr hp
      rw [if_neg hp, Sink.write, hmore]
      have hle : (p.drop (min p.length (more + 1))).length ≤ fuel := by
        rw [List.length_drop]
        omega
      have hrest : Sink.Open
          ⟨s.sent ++ p.take (min p.length (more + 1)), fun k => s.takes (k + 1)⟩ :=
        fun k => hs (k + 1)
      obtain ⟨hok, hsent, hopen⟩ := ih hle hrest
      refine ⟨hok, ?_, hopen⟩
      rw [hsent, List.append_assoc]
      exact congrArg _ (List.take_append_drop _ p)

/-- **A sink on which no call fails takes everything.** -/
theorem Sink.writeAll_eq {s : Sink} (hs : s.Open) (p : List UInt8) :
    ∃ s', s.writeAll p = (true, s') ∧ s'.sent = s.sent ++ p ∧ s'.Open := by
  obtain ⟨hok, hsent, hopen⟩ := writeLoop_eq (Nat.le_refl p.length) hs
  exact ⟨(s.writeAll p).2, Prod.ext hok rfl, hsent, hopen⟩

/-! ## Receiving into a file -/

/-- A call that takes all of what it is given, up to `len` bytes. -/
def TakesAll (len : ℕ) (takes : Option ℕ) : Prop := ∃ more ∈ takes, len ≤ more + 1

instance (len : ℕ) (takes : Option ℕ) : Decidable (TakesAll len takes) :=
  inferInstanceAs (Decidable (∃ _ ∈ takes, _))

/-- The loop of `gather` with `write(out, buf, n)` for each piece, whose result is not looked
at: what has been written then, and what is left of the stream. -/
def gatherTo (size : ℕ) : ℕ → ℕ → Sink → Stream → Sink × Stream
  | 0, _, out, s => (out, s)
  | fuel + 1, remain, out, s =>
    if remain = 0 then (out, s)
    else
      let (got, s') := s.recv (min remain size)
      if got = [] then (out, s')
      else gatherTo size fuel (remain - got.length) (out.write got).2 s'

/-- A write of `p` adds a part of it. -/
theorem Sink.exists_sent_write (s : Sink) (p : List UInt8) :
    ∃ k, (s.write p).2.sent = s.sent ++ p.take k := by
  unfold Sink.write
  cases s.takes 0 with
  | none => exact ⟨0, (List.append_nil _).symm⟩
  | some more => exact ⟨_, rfl⟩

/-- What is written is received, in this order, but parts of it may be missing. -/
theorem gatherTo_sublist (size fuel remain : ℕ) (out : Sink) (s : Stream) :
    ∃ p, (gatherTo size fuel remain out s).1.sent = out.sent ++ p ∧
      p.Sublist (gather size fuel remain s).1 := by
  -- induction on the rounds left; each adds a part of the piece it received
  induction fuel generalizing remain out s with
  | zero => exact ⟨[], (List.append_nil _).symm, .slnil⟩
  | succ fuel ih =>
    rw [gatherTo, gather]
    simp only
    split_ifs with hremain hnil
    · exact ⟨[], (List.append_nil _).symm, .slnil⟩
    · exact ⟨[], (List.append_nil _).symm, .slnil⟩
    · obtain ⟨k, hk⟩ := out.exists_sent_write (s.recv (min remain size)).1
      obtain ⟨p, hsent, hp⟩ := ih (remain - (s.recv (min remain size)).1.length)
        (out.write (s.recv (min remain size)).1).2 (s.recv (min remain size)).2
      refine ⟨(s.recv (min remain size)).1.take k ++ p, ?_, (List.take_sublist k _).append hp⟩
      rw [hsent, hk, List.append_assoc]

/-- **If every `write` takes all, the file has what is received.** -/
theorem gatherTo_eq {size : ℕ} (fuel remain : ℕ) {out : Sink}
    (hout : ∀ k, TakesAll size (out.takes k)) (s : Stream) :
    (gatherTo size fuel remain out s).1.sent = out.sent ++ (gather size fuel remain s).1 := by
  -- induction on the rounds left; a piece is no longer than the buffer
  induction fuel generalizing remain out s with
  | zero => exact (List.append_nil _).symm
  | succ fuel ih =>
    rw [gatherTo, gather]
    simp only
    split_ifs with hremain hnil
    · exact (List.append_nil _).symm
    · exact (List.append_nil _).symm
    · obtain ⟨more, hmore, hle⟩ := hout 0
      have hlen : (s.recv (min remain size)).1.length ≤ more + 1 := by
        rw [Stream.recv, List.length_take]
        omega
      have hwrite : (out.write (s.recv (min remain size)).1).2 =
          ⟨out.sent ++ (s.recv (min remain size)).1, fun k => out.takes (k + 1)⟩ := by
        rw [Sink.write, Option.mem_def.mp hmore]
        simp only [Nat.min_eq_left hlen, List.take_length]
      rw [hwrite, ih _ fun k => hout (k + 1), List.append_assoc]

end ByteStream
