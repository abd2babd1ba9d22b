/-
# The checksum of a file

`crc32_buf`, `_pull_crc32` and the loops of `send_one_file` and `do_pull_mode` take the bytes of a
file into a register of 32 bits.  However the file is cut, they come to the same value
(`crcs_agree`): the complement of the remainder of the file modulo the polynomial 0x04C11DB7, with
0xFFFFFFFF before it.

That polynomial has a constant term.  So a file that has been changed within 32 bits has another
checksum, and a client that receives it with the checksum of the original removes it
(`short_corruption_caught`).
-/
import MiniCi.CrcPolynomial
import MiniCi.PullFailure

namespace MiniCi

open CStr ByteStream Polynomial

/-! ## The standard checksum -/

/-- The bits of a file, lowest first within each byte. -/
def fileBits (p : Bytes) : List Bool := Crc.messageBits (p.map UInt8.toBitVec)

/-- The polynomial of the checksum: degree 32, and the bits of 0x04C11DB7 below. -/
noncomputable def crcPolynomial : (ZMod 2)[X] := X ^ 32 + Crc.ofWord 0x04C11DB7#32

/-- The remainder of a file, with 0xFFFFFFFF before it. -/
noncomputable def crcRemainder (p : Bytes) : (ZMod 2)[X] :=
  Crc.remainder crcPolynomial (Crc.ofWord 0xFFFFFFFF#32) 32 (fileBits p)

/-- CRC-32: the complement of the remainder, reflected. -/
noncomputable def crc32 (p : Bytes) : UInt32 := ~~~UInt32.ofBitVec (Crc.toReg 32 (crcRemainder p))

/-- `_pull_crc32`. -/
def _pull_crc32 (p : Bytes) : UInt32 := ~~~Crc.update 0xEDB88320 0xFFFFFFFF p

/-- 0xEDB88320 is 0x04C11DB7 read from the other end. -/
theorem generator_eq : Crc.generator (0xEDB88320 : UInt32).toBitVec = crcPolynomial := by
  have hreverse : (0xEDB88320 : UInt32).toBitVec.reverse = 0x04C11DB7#32 := by decide +kernel
  rw [Crc.generator, Crc.reg, hreverse, crcPolynomial]

/-- **The bit loop computes the standard checksum.** -/
theorem crc32_buf_eq (p : Bytes) : crc32_buf p = crc32 p := by
  have hinitial : (0xFFFFFFFF : UInt32).toBitVec.reverse = 0xFFFFFFFF#32 := by decide +kernel
  have hreg : crcRemainder p =
      Crc.reg (Crc.update 0xEDB88320 0xFFFFFFFF p).toBitVec := by
    rw [Crc.toBitVec_update, Crc.reg_foldl (by decide), generator_eq, Crc.reg, hinitial,
      crcRemainder, fileBits]
  rw [crc32, hreg, Crc.toReg_reg, crc32_buf]

example : crc32_buf (ascii "123456789") = 0xCBF43926 := by decide +kernel

/-- A file may be cut anywhere. -/
theorem foldl_crcUpdate (chunks : List Bytes) (crc : UInt32) :
    chunks.foldl crcUpdate crc = crcUpdate crc chunks.flatten := by
  induction chunks generalizing crc with
  | nil => rfl
  | cons chunk chunks ih =>
    rw [List.foldl_cons, ih, List.flatten_cons, crcUpdate, crcUpdate, crcUpdate, Crc.update_append]

/-- The checksums of the bytes `p` are the same. -/
structure CrcsAgree (p : Bytes) : Prop where
  client_buf : crc32_buf p = crc32 p
  server_buf : _pull_crc32 p = crc32 p
  chunks : ∀ chunks : List Bytes, chunks.flatten = p →
    ~~~chunks.foldl crcUpdate 0xFFFFFFFF = crc32 p
  /-- `send_one_file`, however `read` cuts the file -/
  sender : ∀ (file : DirEnt) (env : FileEnv) (filename : Bytes) (index total : UInt8)
    (sock sock' : Sink), file.content = p →
    ¬ FileReadFails (· ≠ []) file env filename index total sock →
    send_one_file file env filename index total sock = (true, sock') →
    ∃ chunks, ChunksOf p chunks ∧
      sock'.sent = sock.sent ++ ((metaHeader file filename index total).encode ++
        (chunkPackets 0 chunks ++ (endHeader (crc32 p)).encode))
  /-- `do_pull_mode`, when the bytes `p` of a file have come, however they were cut -/
  receiver : ∀ (env : PullEnv) (dir : Dir) (stream : Bytes) (es : List PullPacket)
    (c : PullClient) (q path : Bytes), Rounds env (.initial dir) stream es c q →
    ∀ r ∈ since path es, transfer r = (p, none) → ~~~c.crc_accum = crc32 p

/-- **All computations of the checksum agree.** -/
theorem crcs_agree (p : Bytes) : CrcsAgree p where
  client_buf := crc32_buf_eq p
  server_buf := crc32_buf_eq p
  chunks := by
    rintro chunks rfl
    rw [foldl_crcUpdate, ← crc32_buf_eq]
    rfl
  sender := by
    rintro file env filename index total sock sock' rfl hread h
    obtain ⟨content, chunks, hchunks, hsent, hall⟩ := send_one_file_true h
    obtain rfl := hall hread
    rw [← crc32_buf_eq]
    exact ⟨chunks, hchunks, hsent⟩
  receiver := by
    intro env dir stream es c q path hrounds r hr htransfer
    have hstate := (transferInv_rounds hrounds).transfers path r hr
    rw [htransfer] at hstate
    obtain ⟨-, hcrc, -⟩ := hstate
    rw [hcrc, ← crc32_buf_eq]
    rfl

/-! ## Corrupted files -/

theorem crcPolynomial_coeff_zero : crcPolynomial.coeff 0 ≠ 0 := by
  rw [crcPolynomial, coeff_add, coeff_X_pow, Crc.coeff_ofWord]
  decide

/-- A change within 32 bits changes the checksum. -/
theorem crc32_buf_ne {p q : Bytes} (hlen : q.length = p.length) (hne : q ≠ p)
    (hwindow : Crc.DifferWithin 32 (fileBits p) (fileBits q)) : crc32_buf q ≠ crc32_buf p := by
  intro heq
  have hupdate : Crc.update 0xEDB88320 0xFFFFFFFF p = Crc.update 0xEDB88320 0xFFFFFFFF q :=
    (UInt32.not_inj.mp heq).symm
  have hcoeff : (Crc.generator (0xEDB88320 : UInt32).toBitVec).coeff 0 ≠ 0 := by
    rw [generator_eq]
    exact crcPolynomial_coeff_zero
  have hbytes : Function.Injective UInt8.toBitVec := fun _ _ => UInt8.eq_of_toBitVec_eq
  have hfoldl := Crc.foldl_ne_of_window (by decide) hcoeff (0xFFFFFFFF : UInt32).toBitVec
    (p := p.map UInt8.toBitVec) (q := q.map UInt8.toBitVec) (by simp [hlen])
    (fun h => hne (hbytes.list_map h).symm) hwindow
  rw [← Crc.toBitVec_update, ← Crc.toBitVec_update, hupdate] at hfoldl
  exact hfoldl rfl

/-- The client that has received `q` for `p`, with the checksum of `p`, removes it. -/
structure CorruptionCaught (p q : Bytes) : Prop where
  checksum : crc32_buf q ≠ crc32_buf p
  /-- at the `RES_FILE_END` -/
  rejected : ∀ (env : PullEnv) (dir : Dir) (stream : Bytes) (es : List PullPacket)
    (c : PullClient) (s path : Bytes), Rounds env (.initial dir) stream es c s →
    ∀ r ∈ since path es, transfer r = (q, none) →
    takePacket env c (.file_end (crc32_buf p)) = (true, { c with
      out_fd := none, state := PULL_STATE_WAIT_META, dir := c.dir.unlink path
      ops := c.ops ++ [.unlink path] })
  /-- when `do_pull_mode` has returned, unless another `RES_FILE_META` has named it again -/
  removed : ∀ (env : PullEnv) (dir : Dir) (sock : Stream) (es : List PullPacket)
    (c : PullClient) (s path : Bytes), Download env dir sock es c s →
    ∀ r ∈ since path es, transfer r = (q, some (.file_end (crc32_buf p))) →
    (do_pull_mode env dir sock).2.dir.content path = none

/-- **A corruption within 32 bits is caught.** -/
theorem short_corruption_caught {p q : Bytes} (hlen : q.length = p.length) (hne : q ≠ p)
    (hwindow : Crc.DifferWithin 32 (fileBits p) (fileBits q)) : CorruptionCaught p q where
  checksum := crc32_buf_ne hlen hne hwindow
  rejected := by
    intro env dir stream es c s path hrounds r hr htransfer
    have hinv := transferInv_rounds hrounds
    obtain ⟨hfd, hcrc, -⟩ := hinv.open_of_none hr (by rw [htransfer])
    obtain ⟨hout, -⟩ := hinv.current path hfd
    rw [htransfer] at hcrc
    have hdiffer : crc32_buf p ≠ ~~~c.crc_accum := by
      rw [hcrc]
      exact (crc32_buf_ne hlen hne hwindow).symm
    rw [takePacket, takeEnd, hfd, if_neg (Option.some_ne_none path)]
    simp only [if_pos hdiffer, hout]
  removed := by
    intro env dir sock es c s path hdownload r hr htransfer
    rw [hdownload.content_of_end hr (by rw [htransfer]), htransfer,
      if_neg (crc32_buf_ne hlen hne hwindow).symm]

/-- Two characters of a file are swapped. -/
theorem swapped_caught : CorruptionCaught (ascii "int main(void)") (ascii "int mian(void)") := by
  refine short_corruption_caught (by decide) (by decide) ⟨40, ?_⟩
  have hbits : ∀ i < 112, (fileBits (ascii "int main(void)"))[i]? ≠
      (fileBits (ascii "int mian(void)"))[i]? → 40 ≤ i ∧ i < 40 + 32 := by decide +kernel
  intro i hi
  apply hbits i _ hi
  by_contra hlarge
  apply hi
  rw [List.getElem?_eq_none, List.getElem?_eq_none]
  · exact Nat.le_of_not_lt hlarge
  · exact Nat.le_of_not_lt hlarge

end MiniCi
