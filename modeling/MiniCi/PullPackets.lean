/-
# The download, packet by packet

What a round of the receive loop does depends on the bytes to come only through the packet
they begin with.  `parsePacket` splits a packet of a file off the stream, as far as its format
goes, and `takePacket` is what the client does with it; together they are the loop
(`pullStep_of_parse`, `pullStep_of_parse_none`).

So a download is a list of packets taken one after the other (`Rounds`) and a last round
(`LastRound`), which is a packet that is refused, a `RES_FILE_DONE`, or anything else.
-/
import MiniCi.PullClient

namespace MiniCi

open CStr ByteStream

/-! ## Packets -/

/-- A packet of a file, with what the client keeps of it. -/
inductive PullPacket where
  | file_meta (path : Bytes) (is_executable : UInt8)
  | chunk (data : Bytes)
  | file_end (checksum : UInt32)
  deriving DecidableEq

/-- Split off the first `len` bytes. -/
def splitOff (len : ℕ) (p : Bytes) : Option (Bytes × Bytes) :=
  if len ≤ p.length then some (p.take len, p.drop len) else none

/-- A common header with the right magic number. -/
def parseHeader (p : Bytes) : Option (CommonHeader × Bytes) :=
  match splitOff sizeofCommonHeader p with
  | none => none
  | some (b, q) =>
    if (CommonHeader.decode b).magic ≠ MAGIC_NUMBER then none
    else some (CommonHeader.decode b, q)

/-- The name in a `FileMetaHeader`. -/
def FileMetaHeader.name (h : FileMetaHeader) : Bytes :=
  str (h.filename.bytes.take (MAX_FILENAME - 1))

/-- What follows the common header of a `RES_FILE_META`. -/
def parseMeta (ch : CommonHeader) (p : Bytes) : Option (PullPacket × Bytes) :=
  if ch.header_size.toNat ≠ sizeofFileMetaHeader then none
  else
    match splitOff (sizeofFileMetaHeader - sizeofCommonHeader) p with
    | none => none
    | some (b, q) =>
      let hdr := FileMetaHeader.decode ch b
      if is_safe_filename hdr.name = false then none
      else some (.file_meta (ascii "./" ++ hdr.name) hdr.is_executable, q)

/-- What follows the common header of a `RES_FILE_CHUNK`. -/
def parseChunk (ch : CommonHeader) (p : Bytes) : Option (PullPacket × Bytes) :=
  if ch.header_size.toNat ≠ sizeofFileChunkHeader then none
  else
    match splitOff (sizeofFileChunkHeader - sizeofCommonHeader) p with
    | none => none
    | some (b, q) =>
      let csz := (FileChunkHeader.decode ch b).chunk_size.toNat
      if csz = 0 ∨ FILE_CHUNK_SIZE * 2 < csz then none
      else (splitOff csz q).map fun (data, q) => (.chunk data, q)

/-- What follows the common header of a `RES_FILE_END`. -/
def parseEnd (ch : CommonHeader) (p : Bytes) : Option (PullPacket × Bytes) :=
  if ch.header_size.toNat ≠ sizeofFileEndHeader then none
  else
    (splitOff (sizeofFileEndHeader - sizeofCommonHeader) p).map fun (b, q) =>
      (.file_end (FileEndHeader.decode ch b).checksum, q)

/-- The packet of a file that the bytes begin with, and what follows it. -/
def parsePacket (p : Bytes) : Option (PullPacket × Bytes) :=
  match parseHeader p with
  | none => none
  | some (ch, q) =>
    if ch.pkt_type = RES_FILE_META then parseMeta ch q
    else if ch.pkt_type = RES_FILE_CHUNK then parseChunk ch q
    else if ch.pkt_type = RES_FILE_END then parseEnd ch q
    else none

/-- The bytes begin with the common header of a `RES_FILE_DONE`. -/
def DoneAt (p : Bytes) : Prop :=
  ∃ h ∈ parseHeader p, h.1.pkt_type = RES_FILE_DONE ∧ sizeofCommonHeader ≤ h.1.header_size.toNat

instance (p : Bytes) : Decidable (DoneAt p) := inferInstanceAs (Decidable (∃ _ ∈ parseHeader p, _))

/-- Open a file. -/
def takeMeta (env : PullEnv) (c : PullClient) (path : Bytes) (is_executable : UInt8) :
    Bool × PullClient :=
  let opened := env.opens c.ops.length
  let c := { c with out_exec := is_executable, out_path := path
                    ops := c.ops ++ [FsOp.create path] }
  if opened = false then (false, { c with out_fd := none })
  else
    (true, { c with
      state := PULL_STATE_WAIT_CHUNK, out_fd := some path, crc_accum := 0xFFFFFFFF
      dir := c.dir.create env.umask path })

/-- Write a chunk to the open file. -/
def takeChunk (env : PullEnv) (c : PullClient) (data : Bytes) : Bool × PullClient :=
  match c.state, c.out_fd with
  | PULL_STATE_WAIT_CHUNK, some path =>
    if env.mallocs c.ops.length = false then (false, c.discard)
    else
      match storeChunk env c path data with
      | (false, c) => (false, c.discard)
      | (true, c) => (true, c)
  | _, _ => (false, c.discard)

/-- Close the open file, and remove it if it is damaged. -/
def takeEnd (env : PullEnv) (c : PullClient) (checksum : UInt32) : Bool × PullClient :=
  if c.out_fd = none then (false, c.discard)
  else
    let c := { c with out_fd := none, state := PULL_STATE_WAIT_META }
    if checksum ≠ ~~~c.crc_accum then
      (true, { c with dir := c.dir.unlink c.out_path, ops := c.ops ++ [.unlink c.out_path] })
    else
      let c := { c with files_done := c.files_done + 1 }
      if c.out_exec ≠ 0 then
        (true, { c with
          dir := if env.chmods c.ops.length then c.dir.chmod c.out_path 0o755 else c.dir
          ops := c.ops ++ [.chmod c.out_path 0o755] })
      else (true, c)

/-- What the client does with a packet of a file: whether the loop goes on, and the client
then. -/
def takePacket (env : PullEnv) (c : PullClient) : PullPacket → Bool × PullClient
  | .file_meta path is_executable => takeMeta env c path is_executable
  | .chunk data => takeChunk env c data
  | .file_end checksum => takeEnd env c checksum

/-! ## Receiving is splitting off -/

section Receive

variable {env : PullEnv} {c : PullClient} {ch : CommonHeader} {sock : Stream}

/-- What is received is split off the bytes to come, however they are fragmented. -/
theorem recvAll_of_splitOff {len : ℕ} {b q : Bytes} (h : splitOff len sock.rest = some (b, q)) :
    ∃ sock', sock.recvAll len = some (b, sock') ∧ sock'.rest = q := by
  unfold splitOff at h
  split_ifs at h with hlen
  obtain ⟨rfl, rfl⟩ := Prod.mk.inj (Option.some.inj h)
  exact Stream.recvAll_append (List.take_append_drop len sock.rest).symm
    (List.length_take_of_le hlen)

theorem recvAll_of_splitOff_none {len : ℕ} (h : splitOff len sock.rest = none) :
    sock.recvAll len = none := by
  unfold splitOff at h
  split_ifs at h with hlen
  by_contra hne
  obtain ⟨⟨b, sock'⟩, hsome⟩ := Option.ne_none_iff_exists'.mp hne
  obtain ⟨hb, hrest⟩ := Stream.recvAll_eq_some hsome
  rw [hrest, List.length_append, hb] at hlen
  omega

theorem recv_common_header_of_parse {q : Bytes} (h : parseHeader sock.rest = some (ch, q)) :
    ∃ sock', recv_common_header sock = some (ch, sock') ∧ sock'.rest = q := by
  unfold parseHeader at h
  cases hsplit : splitOff sizeofCommonHeader sock.rest with
  | none => simp only [hsplit] at h; cases h
  | some s =>
    obtain ⟨b, q'⟩ := s
    obtain ⟨sock', hrecv, hrest⟩ := recvAll_of_splitOff hsplit
    simp only [hsplit] at h
    split_ifs at h with hmagic
    obtain ⟨rfl, rfl⟩ := Prod.mk.inj (Option.some.inj h)
    refine ⟨sock', ?_, hrest⟩
    rw [recv_common_header, hrecv]
    exact if_neg hmagic

theorem recv_common_header_of_parse_none (h : parseHeader sock.rest = none) :
    recv_common_header sock = none := by
  unfold parseHeader at h
  cases hsplit : splitOff sizeofCommonHeader sock.rest with
  | none => rw [recv_common_header, recvAll_of_splitOff_none hsplit]
  | some s =>
    obtain ⟨b, q⟩ := s
    obtain ⟨sock', hrecv, -⟩ := recvAll_of_splitOff hsplit
    simp only [hsplit] at h
    split_ifs at h with hmagic
    rw [recv_common_header, hrecv]
    exact if_pos hmagic

/-- What a round comes to when a packet has been taken or refused and `q` is to come. -/
def Took (q : Bytes) (r : PullStep) : Bool × PullClient → Prop
  | (true, c') => ∃ sock', sock'.rest = q ∧ r = .next c' sock'
  | (false, c') => r = .finish 1 c'

/-- A name leaves room in `out_path`. -/
theorem length_path_lt (h : FileMetaHeader) : (ascii "./" ++ h.name).length < 512 := by
  have hname : h.name.length ≤ (h.filename.bytes.take (MAX_FILENAME - 1)).length :=
    (List.takeWhile_sublist _).length_le
  have htake : (h.filename.bytes.take (MAX_FILENAME - 1)).length ≤ MAX_FILENAME - 1 :=
    List.length_take_le _ _
  have hmax : MAX_FILENAME = 128 := rfl
  have htwo : (ascii "./").length = 2 := by decide
  rw [List.length_append]
  omega

theorem recvMeta_of_parse {e : PullPacket} {q : Bytes}
    (h : parseMeta ch sock.rest = some (e, q)) :
    Took q (recvMeta env c ch sock) (takePacket env c e) := by
  unfold parseMeta at h
  split_ifs at h with hsize
  cases hsplit : splitOff (sizeofFileMetaHeader - sizeofCommonHeader) sock.rest with
  | none => simp only [hsplit] at h; cases h
  | some s =>
    obtain ⟨b, q'⟩ := s
    obtain ⟨sock', hrecv, hrest⟩ := recvAll_of_splitOff hsplit
    simp only [hsplit] at h
    split_ifs at h with hsafe
    obtain ⟨rfl, rfl⟩ := Prod.mk.inj (Option.some.inj h)
    have hlt := length_path_lt (FileMetaHeader.decode ch b)
    have hsnprintf := snprintf_eq_self hlt
    have hfits := not_le.mpr hlt
    unfold recvMeta
    rw [if_neg hsize, hrecv]
    unfold FileMetaHeader.name at hsafe hfits hsnprintf ⊢
    simp only [if_neg hsafe, if_neg hfits, hsnprintf]
    unfold takePacket takeMeta
    by_cases hopen : env.opens c.ops.length = false
    · simp only [if_pos hopen]
      rfl
    · simp only [if_neg hopen]
      exact ⟨sock', hrest, rfl⟩

theorem recvMeta_of_parse_none (h : parseMeta ch sock.rest = none) :
    recvMeta env c ch sock = c.recv_error := by
  unfold parseMeta at h
  unfold recvMeta
  split_ifs at h with hsize
  · rw [if_pos hsize]
  · rw [if_neg hsize]
    cases hsplit : splitOff (sizeofFileMetaHeader - sizeofCommonHeader) sock.rest with
    | none => rw [recvAll_of_splitOff_none hsplit]
    | some s =>
      obtain ⟨b, q⟩ := s
      obtain ⟨sock', hrecv, -⟩ := recvAll_of_splitOff hsplit
      simp only [hsplit] at h
      split_ifs at h with hsafe
      rw [hrecv]
      exact if_pos hsafe

theorem recvChunk_of_parse {e : PullPacket} {q : Bytes}
    (h : parseChunk ch sock.rest = some (e, q)) :
    Took q (recvChunk env c ch sock) (takePacket env c e) := by
  unfold parseChunk at h
  split_ifs at h with hsize
  cases hsplit : splitOff (sizeofFileChunkHeader - sizeofCommonHeader) sock.rest with
  | none => simp only [hsplit] at h; cases h
  | some s =>
    obtain ⟨b, q'⟩ := s
    obtain ⟨sock₁, hrecv₁, hrest₁⟩ := recvAll_of_splitOff hsplit
    simp only [hsplit] at h
    split_ifs at h with hcsz
    obtain ⟨⟨data, q''⟩, hdata, heq⟩ := Option.map_eq_some_iff.mp h
    obtain ⟨rfl, rfl⟩ := Prod.mk.inj heq
    rw [← hrest₁] at hdata
    obtain ⟨sock₂, hrecv₂, hrest₂⟩ := recvAll_of_splitOff hdata
    unfold recvChunk takePacket takeChunk
    rcases hstate : c.state with _ | _
    · -- a chunk that is not expected is refused before its header is read
      rfl
    · rcases hfd : c.out_fd with _ | path
      · rfl
      · simp only [if_neg hsize, hrecv₁, if_neg hcsz, hrecv₂]
        by_cases hmalloc : env.mallocs c.ops.length = false
        · simp only [if_pos hmalloc]
          rfl
        · simp only [if_neg hmalloc]
          rcases storeChunk env c path data with ⟨written, c'⟩
          cases written with
          | false => rfl
          | true => exact ⟨sock₂, hrest₂, rfl⟩

theorem recvChunk_of_parse_none (h : parseChunk ch sock.rest = none) :
    recvChunk env c ch sock = c.recv_error := by
  unfold parseChunk at h
  unfold recvChunk
  split
  · split_ifs at h with hsize
    · rw [if_pos hsize]
    · rw [if_neg hsize]
      cases hsplit : splitOff (sizeofFileChunkHeader - sizeofCommonHeader) sock.rest with
      | none => rw [recvAll_of_splitOff_none hsplit]
      | some s =>
        obtain ⟨b, q⟩ := s
        obtain ⟨sock₁, hrecv₁, hrest₁⟩ := recvAll_of_splitOff hsplit
        simp only [hsplit] at h
        rw [hrecv₁]
        split_ifs at h with hcsz
        · exact if_pos hcsz
        · have hnone := Option.map_eq_none_iff.mp h
          rw [← hrest₁] at hnone
          simp only [if_neg hcsz, recvAll_of_splitOff_none hnone, ite_self]
  · rfl

theorem recvEnd_of_parse {e : PullPacket} {q : Bytes}
    (h : parseEnd ch sock.rest = some (e, q)) :
    Took q (recvEnd env c ch sock) (takePacket env c e) := by
  unfold parseEnd at h
  split_ifs at h with hsize
  obtain ⟨⟨b, q'⟩, hsplit, heq⟩ := Option.map_eq_some_iff.mp h
  obtain ⟨rfl, rfl⟩ := Prod.mk.inj heq
  obtain ⟨sock', hrecv, hrest⟩ := recvAll_of_splitOff hsplit
  unfold recvEnd takePacket takeEnd
  by_cases hfd : c.out_fd = none
  · simp only [if_pos hfd]
    rfl
  · simp only [if_neg hfd, if_neg hsize, hrecv]
    by_cases hcrc : (FileEndHeader.decode ch b).checksum ≠ ~~~c.crc_accum
    · simp only [if_pos hcrc]
      exact ⟨sock', hrest, rfl⟩
    · simp only [if_neg hcrc]
      by_cases hexec : c.out_exec ≠ 0
      · simp only [if_pos hexec]
        exact ⟨sock', hrest, rfl⟩
      · simp only [if_neg hexec]
        exact ⟨sock', hrest, rfl⟩

theorem recvEnd_of_parse_none (h : parseEnd ch sock.rest = none) :
    recvEnd env c ch sock = c.recv_error := by
  unfold parseEnd at h
  unfold recvEnd
  by_cases hfd : c.out_fd = none
  · rw [if_pos hfd]
  · rw [if_neg hfd]
    split_ifs at h with hsize
    · rw [if_pos hsize]
    · rw [if_neg hsize, recvAll_of_splitOff_none (Option.map_eq_none_iff.mp h)]

/-! ## A round is a packet -/

/-- **A round that finds a packet of a file takes or refuses it.** -/
theorem pullStep_of_parse (env : PullEnv) (c : PullClient) {e : PullPacket} {q : Bytes}
    (h : parsePacket sock.rest = some (e, q)) :
    Took q (pullStep env c sock) (takePacket env c e) := by
  unfold parsePacket at h
  cases hheader : parseHeader sock.rest with
  | none => simp only [hheader] at h; cases h
  | some s =>
    obtain ⟨ch, q'⟩ := s
    obtain ⟨sock', hrecv, rfl⟩ := recv_common_header_of_parse hheader
    simp only [hheader] at h
    rw [pullStep, hrecv]
    unfold recvPacket
    split_ifs at h with hmeta hchunk hend
    · simp only [if_pos hmeta]
      exact recvMeta_of_parse h
    · simp only [if_neg hmeta, if_pos hchunk]
      exact recvChunk_of_parse h
    · simp only [if_neg hmeta, if_neg hchunk, if_pos hend]
      exact recvEnd_of_parse h

/-- **A round that finds none is the last**: it returns 0 at a `RES_FILE_DONE` and leaves the
loop with an error elsewhere. -/
theorem pullStep_of_parse_none (env : PullEnv) (c : PullClient)
    (h : parsePacket sock.rest = none) :
    pullStep env c sock = if DoneAt sock.rest then .finish 0 c else c.recv_error := by
  unfold parsePacket at h
  cases hheader : parseHeader sock.rest with
  | none =>
    have hdone : ¬ DoneAt sock.rest := by simp [DoneAt, hheader]
    rw [pullStep, recv_common_header_of_parse_none hheader, if_neg hdone]
  | some s =>
    obtain ⟨ch, q'⟩ := s
    obtain ⟨sock', hrecv, rfl⟩ := recv_common_header_of_parse hheader
    simp only [hheader] at h
    have hdone : DoneAt sock.rest ↔
        ch.pkt_type = RES_FILE_DONE ∧ sizeofCommonHeader ≤ ch.header_size.toNat := by
      simp [DoneAt, hheader]
    rw [pullStep, hrecv]
    simp only [hdone]
    unfold recvPacket
    split_ifs at h with hmeta hchunk hend
    · have hnot : ¬ ch.pkt_type = RES_FILE_DONE := by rw [hmeta]; decide
      rw [if_pos hmeta, if_neg fun hd => hnot hd.1, recvMeta_of_parse_none h]
    · have hnot : ¬ ch.pkt_type = RES_FILE_DONE := by rw [hchunk]; decide
      rw [if_neg hmeta, if_pos hchunk, if_neg fun hd => hnot hd.1, recvChunk_of_parse_none h]
    · have hnot : ¬ ch.pkt_type = RES_FILE_DONE := by rw [hend]; decide
      rw [if_neg hmeta, if_neg hchunk, if_pos hend, if_neg fun hd => hnot hd.1,
        recvEnd_of_parse_none h]
    · rw [if_neg hmeta, if_neg hchunk, if_neg hend]
      by_cases hd : ch.pkt_type = RES_FILE_DONE
      · rw [if_pos hd, recvDone]
        by_cases hsize : ch.header_size.toNat < sizeofCommonHeader
        · rw [if_pos hsize, if_neg fun hd' => absurd hd'.2 (by omega)]
        · rw [if_neg hsize, if_pos ⟨hd, by omega⟩]
      · have hnot : ¬ (ch.pkt_type = RES_FILE_DONE ∧
            sizeofCommonHeader ≤ ch.header_size.toNat) := fun hd' => hd hd'.1
        rw [if_neg hd, if_neg hnot]
        by_cases herr : ch.pkt_type = RES_FILE_ERROR
        · rw [if_pos herr, recvFileError]
          split_ifs <;> rfl
        · rw [if_neg herr]

/-- A `RES_FILE_DONE` is no packet of a file. -/
theorem parsePacket_of_doneAt {p : Bytes} (h : DoneAt p) : parsePacket p = none := by
  obtain ⟨⟨ch, q⟩, hheader, hdone, -⟩ := h
  have hheader' : parseHeader p = some (ch, q) := hheader
  unfold parsePacket
  simp only [hheader']
  have hdone' : ch.pkt_type = RES_FILE_DONE := hdone
  rw [hdone', if_neg (by decide), if_neg (by decide), if_neg (by decide)]

end Receive

/-! ## Downloads -/

/-- From the state `c` with the bytes `p` to come, the client takes the packets `es`; then it is
in the state `c₁` with the bytes `p₁` to come. -/
inductive Rounds (env : PullEnv) : PullClient → Bytes → List PullPacket → PullClient → Bytes → Prop
  | nil (c : PullClient) (p : Bytes) : Rounds env c p [] c p
  | cons {c c' c₁ : PullClient} {p q p₁ : Bytes} {e : PullPacket} {es : List PullPacket} :
      parsePacket p = some (e, q) → takePacket env c e = (true, c') → Rounds env c' q es c₁ p₁ →
      Rounds env c p (e :: es) c₁ p₁

/-- The last round, from the state `c` with the bytes `p` to come: the code returned and the
client then. -/
inductive LastRound (env : PullEnv) (c : PullClient) (p : Bytes) : ℕ → PullClient → Prop
  | refused {e : PullPacket} {q : Bytes} {c' : PullClient} :
      parsePacket p = some (e, q) → takePacket env c e = (false, c') → LastRound env c p 1 c'
  | done : DoneAt p → LastRound env c p 0 c
  | broken : parsePacket p = none → ¬ DoneAt p → LastRound env c p 1 c.discard

/-- The loop returns after some number of rounds. -/
inductive LoopReturns (env : PullEnv) : PullClient → Stream → ℕ → PullClient → Prop
  | finish {c c' : PullClient} {sock : Stream} {code : ℕ} :
      pullStep env c sock = .finish code c' → LoopReturns env c sock code c'
  | next {c c₁ c' : PullClient} {sock sock₁ : Stream} {code : ℕ} :
      pullStep env c sock = .next c₁ sock₁ → LoopReturns env c₁ sock₁ code c' →
      LoopReturns env c sock code c'

section Downloads

variable {env : PullEnv} {c c₁ : PullClient} {p p₁ : Bytes} {es : List PullPacket}

/-- A packet is some bytes off the stream. -/
theorem length_of_parse {sock : Stream} {e : PullPacket} {q : Bytes} {c' : PullClient}
    (h : parsePacket sock.rest = some (e, q)) (htake : takePacket env c e = (true, c')) :
    ∃ sock', sock'.rest = q ∧ pullStep env c sock = .next c' sock' ∧
      sock'.rest.length < sock.rest.length := by
  have htook := pullStep_of_parse env c h
  rw [htake] at htook
  obtain ⟨sock', hrest, hstep⟩ := htook
  have hlen := pullStep_next_length hstep
  have hsize : sizeofCommonHeader = 8 := rfl
  exact ⟨sock', hrest, hstep, by omega⟩

/-- **The loop returns, and what it does is a download.** -/
theorem pullRun_rounds (env : PullEnv) (c : PullClient) (sock : Stream) :
    LoopReturns env c sock (pullRun env c sock).1 (pullRun env c sock).2 ∧
      ∃ es c₁ p₁, Rounds env c sock.rest es c₁ p₁ ∧
        LastRound env c₁ p₁ (pullRun env c sock).1 (pullRun env c sock).2 := by
  generalize hn : sock.rest.length = n
  -- induction on the bytes to come, of which each packet takes some
  induction n using Nat.strong_induction_on generalizing c sock with
  | _ n ih =>
    cases hparse : parsePacket sock.rest with
    | none =>
      have hstep := pullStep_of_parse_none env c hparse
      by_cases hdone : DoneAt sock.rest
      · rw [if_pos hdone] at hstep
        rw [pullRun_of_finish hstep]
        exact ⟨.finish hstep, [], c, sock.rest, .nil c _, .done hdone⟩
      · rw [if_neg hdone] at hstep
        rw [pullRun_of_finish hstep]
        exact ⟨.finish hstep, [], c, sock.rest, .nil c _, .broken hparse hdone⟩
    | some s =>
      obtain ⟨e, q⟩ := s
      cases htake : takePacket env c e with
      | mk goesOn c' =>
        cases goesOn with
        | true =>
          obtain ⟨sock', rfl, hstep, hlt⟩ := length_of_parse hparse htake
          rw [pullRun_of_next hstep]
          obtain ⟨hreturns, es, c₁, p₁, hrounds, hlast⟩ := ih _ (hn ▸ hlt) c' sock' rfl
          exact ⟨.next hstep hreturns, e :: es, c₁, p₁, .cons hparse htake hrounds, hlast⟩
        | false =>
          have hstep := pullStep_of_parse env c hparse
          rw [htake] at hstep
          rw [pullRun_of_finish hstep]
          exact ⟨.finish hstep, [], c, sock.rest, .nil c _, .refused hparse htake⟩

/-- A download determines what is returned. -/
theorem Rounds.pullRun_eq {sock : Stream} {code : ℕ} {c' : PullClient}
    (h : Rounds env c p es c₁ p₁) (hp : sock.rest = p) (hlast : LastRound env c₁ p₁ code c') :
    pullRun env c sock = (code, c') := by
  induction h generalizing sock with
  | nil c p =>
    subst hp
    cases hlast with
    | refused hparse htake =>
      have hstep := pullStep_of_parse env c hparse
      rw [htake] at hstep
      exact pullRun_of_finish hstep
    | done hdone =>
      have hstep := pullStep_of_parse_none env c' (parsePacket_of_doneAt hdone)
      rw [if_pos hdone] at hstep
      exact pullRun_of_finish hstep
    | broken hparse hdone =>
      have hstep := pullStep_of_parse_none env c hparse
      rw [if_neg hdone] at hstep
      exact pullRun_of_finish hstep
  | cons hparse htake _ ih =>
    subst hp
    obtain ⟨sock', hrest, hstep, -⟩ := length_of_parse hparse htake
    exact (pullRun_of_next hstep).trans (ih hrest hlast)

/-- A round that is the last does not go on. -/
theorem LastRound.not_taken {code : ℕ} {c' c'' : PullClient} {e : PullPacket} {q : Bytes}
    (h : LastRound env c p code c') (hparse : parsePacket p = some (e, q)) :
    takePacket env c e ≠ (true, c'') := by
  cases h with
  | refused hparse' htake =>
    obtain ⟨rfl, rfl⟩ := Prod.mk.inj (Option.some.inj (hparse.symm.trans hparse'))
    rw [htake]
    exact fun h => nomatch h
  | done hdone => exact absurd (parsePacket_of_doneAt hdone) (by simp [hparse])
  | broken hnone _ => exact absurd hnone (by simp [hparse])

/-- There is only one download. -/
theorem Rounds.unique {es' : List PullPacket} {c₂ c' c'' : PullClient} {p₂ : Bytes} {code code' : ℕ}
    (h : Rounds env c p es c₁ p₁) (hlast : LastRound env c₁ p₁ code c')
    (h' : Rounds env c p es' c₂ p₂) (hlast' : LastRound env c₂ p₂ code' c'') :
    es = es' ∧ c₁ = c₂ ∧ p₁ = p₂ := by
  induction h generalizing es' with
  | nil c p =>
    cases h' with
    | nil => exact ⟨rfl, rfl, rfl⟩
    | cons hparse htake _ => exact absurd htake (hlast.not_taken hparse)
  | cons hparse htake _ ih =>
    cases h' with
    | nil => exact absurd htake (hlast'.not_taken hparse)
    | cons hparse' htake' hrounds' =>
      obtain ⟨rfl, rfl⟩ := Prod.mk.inj (Option.some.inj (hparse.symm.trans hparse'))
      obtain ⟨-, rfl⟩ := Prod.mk.inj (htake.symm.trans htake')
      obtain ⟨rfl, rfl, rfl⟩ := ih hlast hrounds'
      exact ⟨rfl, rfl, rfl⟩

end Downloads

/-- The client has connected and sent its request. -/
def PullEnv.Requests (env : PullEnv) : Prop :=
  env.connected = true ∧ (Sink.writeAll ⟨[], env.sends⟩ getFilesRequest.encode).1 = true

instance (env : PullEnv) : Decidable env.Requests := inferInstanceAs (Decidable (_ ∧ _))

/-- `do_pull_mode` takes the packets `es` and leaves its loop in the state `c₁` with the bytes `p₁`
to come. -/
structure Download (env : PullEnv) (dir : Dir) (sock : Stream) (es : List PullPacket)
    (c₁ : PullClient) (p₁ : Bytes) : Prop where
  requests : env.Requests
  rounds : Rounds env (.initial dir) sock.rest es c₁ p₁
  last : ∃ code c', LastRound env c₁ p₁ code c'

/-- Without a request nothing happens. -/
theorem do_pull_mode_of_not_requests {env : PullEnv} (h : ¬ env.Requests) (dir : Dir)
    (sock : Stream) : do_pull_mode env dir sock = (1, .initial dir) := by
  unfold do_pull_mode
  by_cases hconnected : env.connected = false
  · rw [if_pos hconnected]
  · rw [if_neg hconnected]
    rcases hsent : Sink.writeAll ⟨[], env.sends⟩ getFilesRequest.encode with ⟨sent, out⟩
    cases sent with
    | false => rfl
    | true => exact absurd ⟨by simpa using hconnected, by rw [hsent]⟩ h

theorem do_pull_mode_of_requests {env : PullEnv} (h : env.Requests) (dir : Dir) (sock : Stream) :
    do_pull_mode env dir sock = pullRun env (.initial dir) sock := by
  obtain ⟨hconnected, hsent⟩ := h
  unfold do_pull_mode
  rw [hconnected, if_neg (by decide)]
  rcases hout : Sink.writeAll ⟨[], env.sends⟩ getFilesRequest.encode with ⟨sent, out⟩
  rw [hout] at hsent
  cases hsent
  rfl

/-- **With a request there is a download, and only one.** -/
theorem exists_download {env : PullEnv} (h : env.Requests) (dir : Dir) (sock : Stream) :
    ∃ es c₁ p₁, Download env dir sock es c₁ p₁ := by
  obtain ⟨-, es, c₁, p₁, hrounds, hlast⟩ := pullRun_rounds env (.initial dir) sock
  exact ⟨es, c₁, p₁, h, hrounds, _, _, hlast⟩

/-- What a download consists of determines it. -/
theorem Rounds.download {env : PullEnv} {dir : Dir} {sock : Stream} {es : List PullPacket}
    {c₁ c' : PullClient} {p₁ : Bytes} {code : ℕ} (hrequests : env.Requests)
    (h : Rounds env (.initial dir) sock.rest es c₁ p₁) (hlast : LastRound env c₁ p₁ code c') :
    Download env dir sock es c₁ p₁ ∧ do_pull_mode env dir sock = (code, c') :=
  ⟨⟨hrequests, h, code, c', hlast⟩,
    (do_pull_mode_of_requests hrequests dir sock).trans (h.pullRun_eq rfl hlast)⟩

/-- **The last round of a download is what `do_pull_mode` returns.** -/
theorem Download.lastRound {env : PullEnv} {dir : Dir} {sock : Stream} {es : List PullPacket}
    {c₁ : PullClient} {p₁ : Bytes} (h : Download env dir sock es c₁ p₁) :
    LastRound env c₁ p₁ (do_pull_mode env dir sock).1 (do_pull_mode env dir sock).2 := by
  obtain ⟨hrequests, hrounds, code, c', hlast⟩ := h
  rw [(hrounds.download hrequests hlast).2]
  exact hlast

theorem Download.unique {env : PullEnv} {dir : Dir} {sock : Stream} {es es' : List PullPacket}
    {c₁ c₂ : PullClient} {p₁ p₂ : Bytes} (h : Download env dir sock es c₁ p₁)
    (h' : Download env dir sock es' c₂ p₂) : es = es' ∧ c₁ = c₂ ∧ p₁ = p₂ :=
  h.rounds.unique h.lastRound h'.rounds h'.lastRound

end MiniCi
