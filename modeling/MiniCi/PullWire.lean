/-
# What a failing server puts on the wire

A file that has been sent is a `RES_FILE_META`, some first bytes of the file in chunks, and a
`RES_FILE_END` with their checksum; they are all of the file unless a `read` has failed, which
`send_one_file` takes for the end of the file (`SentAs`).  A file that is given up has left some
whole packets and a cut one (`GivenUp`), and bytes of a `RES_FILE_ERROR` follow.

Whatever the client takes of such a stream keeps the transfers in order, and it meets a
`RES_FILE_DONE` at the end only, or behind a cut packet in the text of the `RES_FILE_ERROR`
(`StaysOrderly`).
-/
import MiniCi.CutPackets
import MiniCi.PullExit

namespace MiniCi

open CStr ByteStream

/-! ## Failures -/

/-- A file as `handle_file_pull` has collected it. -/
abbrev DistFile := Buf MAX_FILENAME × DirEnt

/-- The name under which a file is sent. -/
def distName (f : DistFile) : Bytes := f.1.str.take (MAX_FILENAME - 1)

/-- Where the client puts it. -/
def distPath (f : DistFile) : Bytes := ascii "./" ++ distName f

/-- The chunk loop of `send_one_file` gets to a `read` that fails, where the rest of the file is
`At`. -/
inductive ReadFails (At : Bytes → Prop) : Bytes → (ℕ → Option ℕ) → UInt32 → Sink → Prop
  | now {rest : Bytes} {reads : ℕ → Option ℕ} {offset : UInt32} {sock : Sink} :
      reads 0 = none → At rest → ReadFails At rest reads offset sock
  | later {rest chunk : Bytes} {reads : ℕ → Option ℕ} {offset : UInt32} {sock sock₁ sock₂ : Sink}
      {more : ℕ} :
      reads 0 = some more → rest.take (min FILE_CHUNK_SIZE (more + 1)) = chunk → chunk ≠ [] →
      sock.writeAll (chunkHeader chunk offset).encode = (true, sock₁) →
      sock₁.writeAll chunk = (true, sock₂) →
      ReadFails At (rest.drop chunk.length) (fun k => reads (k + 1)) (offset + .ofNat chunk.length)
        sock₂ →
      ReadFails At rest reads offset sock

/-- `send_one_file` gets to its chunk loop, with the socket `sock₁`. -/
structure FileBegins (file : DirEnt) (env : FileEnv) (filename : Bytes) (index total : UInt8)
    (sock sock₁ : Sink) : Prop where
  opened : env.opened = true
  fstat : env.fstat = true
  size : file.content.length ≤ MAX_FILE_SIZE_BYTES
  sent : sock.writeAll (metaHeader file filename index total).encode = (true, sock₁)
  malloc : env.malloc = true

/-- `send_one_file` gets to a `read` that fails. -/
def FileReadFails (At : Bytes → Prop) (file : DirEnt) (env : FileEnv) (filename : Bytes)
    (index total : UInt8) (sock : Sink) : Prop :=
  ∃ sock₁, FileBegins file env filename index total sock sock₁ ∧
    ReadFails At file.content env.reads 0 sock₁

/-- A `read` fails in one of the files from the one with index `i` on. -/
inductive SomeReadFails (At : Bytes → Prop) (env : ℕ → FileEnv) (total : UInt8) :
    ℕ → List DistFile → Sink → Prop
  | here {i : ℕ} {f : DistFile} {files : List DistFile} {sock : Sink} :
      FileReadFails At f.2 (env i) f.1.bytes (.ofNat (i + 1)) total sock →
      SomeReadFails At env total i (f :: files) sock
  | later {i : ℕ} {f : DistFile} {files : List DistFile} {sock sock₁ : Sink} :
      send_one_file f.2 (env i) f.1.bytes (.ofNat (i + 1)) total sock = (true, sock₁) →
      SomeReadFails At env total (i + 1) files sock₁ →
      SomeReadFails At env total i (f :: files) sock

/-- The message for a file that cannot be sent. -/
def failureMessage (f : DistFile) : Bytes := utf8 "파일 전송 실패: " ++ distName f

/-- One of the files from the one with index `i` on cannot be sent: the message, and the socket
before it. -/
inductive FileFails (env : ℕ → FileEnv) (total : UInt8) :
    ℕ → List DistFile → Sink → Bytes → Sink → Prop
  | here {i : ℕ} {f : DistFile} {files : List DistFile} {sock sock' : Sink} :
      send_one_file f.2 (env i) f.1.bytes (.ofNat (i + 1)) total sock = (false, sock') →
      FileFails env total i (f :: files) sock (failureMessage f) sock'
  | later {i : ℕ} {f : DistFile} {files : List DistFile} {sock sock₁ sock' : Sink}
      {message : Bytes} :
      send_one_file f.2 (env i) f.1.bytes (.ofNat (i + 1)) total sock = (true, sock₁) →
      FileFails env total (i + 1) files sock₁ message sock' →
      FileFails env total i (f :: files) sock message sock'

/-! ## What has been sent -/

/-- The packets of files, of each of which a `content` that is `Ok` has been read. -/
inductive SentAs (Ok : DistFile → Bytes → Prop) (total : UInt8) : ℕ → List DistFile → Bytes → Prop
  | nil (i : ℕ) : SentAs Ok total i [] []
  | cons {i : ℕ} {f : DistFile} {files : List DistFile} {content p : Bytes} {chunks : List Bytes} :
      ChunksOf content chunks → Ok f content → SentAs Ok total (i + 1) files p →
      SentAs Ok total i (f :: files) ((metaHeader f.2 f.1.bytes (.ofNat (i + 1)) total).encode ++
        (chunkPackets 0 chunks ++ ((endHeader (~~~crcUpdate 0xFFFFFFFF content)).encode ++ p)))

/-- What has been sent of a file that is given up. -/
inductive GivenUp (Ok : Bytes → Prop) (file : DirEnt) (filename : Bytes) (index total : UInt8) :
    Bytes → Prop
  | in_meta {k : ℕ} : k < sizeofFileMetaHeader →
      GivenUp Ok file filename index total ((metaHeader file filename index total).encode.take k)
  | in_chunk {content chunk : Bytes} {chunks : List Bytes} {offset : UInt32} {k : ℕ} :
      ChunksOf content chunks → chunk.length ≤ FILE_CHUNK_SIZE →
      k < ((chunkHeader chunk offset).encode ++ chunk).length →
      GivenUp Ok file filename index total ((metaHeader file filename index total).encode ++
        (chunkPackets 0 chunks ++ ((chunkHeader chunk offset).encode ++ chunk).take k))
  | in_end {content : Bytes} {chunks : List Bytes} {checksum : UInt32} {k : ℕ} :
      ChunksOf content chunks → Ok content → k < sizeofFileEndHeader →
      GivenUp Ok file filename index total ((metaHeader file filename index total).encode ++
        (chunkPackets 0 chunks ++ (endHeader checksum).encode.take k))

/-- What has been sent of the files when one of them is given up. -/
inductive AbortedAs (Ok : DistFile → Bytes → Prop) (total : UInt8) :
    ℕ → List DistFile → Bytes → Prop
  | here {i : ℕ} {f : DistFile} {files : List DistFile} {p : Bytes} :
      GivenUp (Ok f) f.2 f.1.bytes (.ofNat (i + 1)) total p →
      AbortedAs Ok total i (f :: files) p
  | later {i : ℕ} {f : DistFile} {files : List DistFile} {content p : Bytes}
      {chunks : List Bytes} :
      ChunksOf content chunks → Ok f content → AbortedAs Ok total (i + 1) files p →
      AbortedAs Ok total i (f :: files) ((metaHeader f.2 f.1.bytes (.ofNat (i + 1)) total).encode ++
        (chunkPackets 0 chunks ++ ((endHeader (~~~crcUpdate 0xFFFFFFFF content)).encode ++ p)))

section Sent

variable {reads : ℕ → Option ℕ} {crc crc' offset : UInt32} {sock sock' : Sink}

/-- A chunk more. -/
theorem ChunksOf.cons {chunk content : Bytes} {chunks : List Bytes} (hne : chunk ≠ [])
    (hfits : chunk.length ≤ FILE_CHUNK_SIZE) (h : ChunksOf content chunks) :
    ChunksOf (chunk ++ content) (chunk :: chunks) := by
  constructor
  · rw [List.flatten_cons, h.flatten]
  · exact List.forall_mem_cons.mpr ⟨hne, h.nonempty⟩
  · exact List.forall_mem_cons.mpr ⟨hfits, h.fits⟩

theorem chunksOf_nil : ChunksOf [] [] := by
  constructor
  · rfl
  · intro c hc
    cases hc
  · intro c hc
    cases hc

/-- The chunk that the next round sends. -/
structure NextChunk (rest : Bytes) (reads : ℕ → Option ℕ) (chunk : Bytes) : Prop where
  read : ∃ more, reads 0 = some more ∧ rest.take (min FILE_CHUNK_SIZE (more + 1)) = chunk
  ne : chunk ≠ []
  fits : chunk.length ≤ FILE_CHUNK_SIZE
  cut : chunk ++ rest.drop chunk.length = rest

/-- The ways in which a round of the chunk loop ends. -/
inductive ChunkRound (fuel : ℕ) (rest : Bytes) (reads : ℕ → Option ℕ) (crc offset : UInt32)
    (sock : Sink) : Bool → UInt32 → Sink → Prop
  | read_fails : reads 0 = none → ChunkRound fuel rest reads crc offset sock true crc sock
  | at_end : rest = [] → ChunkRound fuel rest reads crc offset sock true crc sock
  | header_cut {chunk : Bytes} {sock₁ : Sink} : NextChunk rest reads chunk →
      sock.writeAll (chunkHeader chunk offset).encode = (false, sock₁) →
      ChunkRound fuel rest reads crc offset sock false (crcUpdate crc chunk) sock₁
  | data_cut {chunk : Bytes} {sock₁ sock₂ : Sink} : NextChunk rest reads chunk →
      sock.writeAll (chunkHeader chunk offset).encode = (true, sock₁) →
      sock₁.writeAll chunk = (false, sock₂) →
      ChunkRound fuel rest reads crc offset sock false (crcUpdate crc chunk) sock₂
  | sent {chunk : Bytes} {sock₁ sock₂ sock' : Sink} {ok : Bool} {crc' : UInt32} :
      NextChunk rest reads chunk →
      sock.writeAll (chunkHeader chunk offset).encode = (true, sock₁) →
      sock₁.writeAll chunk = (true, sock₂) →
      send_chunks fuel (rest.drop chunk.length) (fun k => reads (k + 1)) (crcUpdate crc chunk)
        (offset + .ofNat chunk.length) sock₂ = (ok, crc', sock') →
      ChunkRound fuel rest reads crc offset sock ok crc' sock'

theorem send_chunks_cases {fuel : ℕ} {rest : Bytes} {ok : Bool}
    (h : send_chunks (fuel + 1) rest reads crc offset sock = (ok, crc', sock')) :
    ChunkRound fuel rest reads crc offset sock ok crc' sock' := by
  rw [send_chunks] at h
  rcases hmore : reads 0 with _ | more
  · simp only [hmore] at h
    cases h
    exact .read_fails hmore
  · simp only [hmore] at h
    by_cases hrest : rest = []
    · subst hrest
      rw [List.take_nil, if_pos rfl] at h
      cases h
      exact .at_end rfl
    · obtain ⟨hne, hfits, hcut⟩ := read_chunk hrest more
      have hnext : NextChunk rest reads (rest.take (min FILE_CHUNK_SIZE (more + 1))) :=
        ⟨⟨more, hmore, rfl⟩, hne, hfits, hcut⟩
      rw [if_neg hne] at h
      generalize rest.take (min FILE_CHUNK_SIZE (more + 1)) = chunk at h hnext
      rcases hw₁ : sock.writeAll (chunkHeader chunk offset).encode with ⟨ok₁, sock₁⟩
      simp only [hw₁] at h
      cases ok₁ with
      | false =>
        cases h
        exact .header_cut hnext hw₁
      | true =>
        rcases hw₂ : sock₁.writeAll chunk with ⟨ok₂, sock₂⟩
        simp only [hw₂] at h
        cases ok₂ with
        | false =>
          cases h
          exact .data_cut hnext hw₁ hw₂
        | true => exact .sent hnext hw₁ hw₂ h

/-- What a chunk that has been sent adds to the stream. -/
theorem sent_of_chunk {chunk : Bytes} {sock₁ sock₂ : Sink}
    (hw₁ : sock.writeAll (chunkHeader chunk offset).encode = (true, sock₁))
    (hw₂ : sock₁.writeAll chunk = (true, sock₂)) :
    sock₂.sent = sock.sent ++ ((chunkHeader chunk offset).encode ++ chunk) := by
  rw [Sink.sent_of_writeAll hw₂, Sink.sent_of_writeAll hw₁, List.append_assoc]

/-- If the chunk loop ends well, it has sent some first bytes of the file, and all of them unless a
`read` has failed before the end. -/
theorem send_chunks_true {fuel : ℕ} {rest : Bytes} (hfuel : rest.length ≤ fuel)
    (h : send_chunks fuel rest reads crc offset sock = (true, crc', sock')) :
    ∃ content chunks, ChunksOf content chunks ∧
      sock'.sent = sock.sent ++ chunkPackets offset chunks ∧ crc' = crcUpdate crc content ∧
      (¬ ReadFails (· ≠ []) rest reads offset sock → content = rest) := by
  have hnothing : ∀ rest reads (crc offset : UInt32) (sock : Sink),
      (¬ ReadFails (· ≠ []) rest reads offset sock → [] = rest) →
      ∃ content chunks, ChunksOf content chunks ∧
        sock.sent = sock.sent ++ chunkPackets offset chunks ∧ crc = crcUpdate crc content ∧
        (¬ ReadFails (· ≠ []) rest reads offset sock → content = rest) :=
    fun _ _ _ _ _ hrest => ⟨[], [], chunksOf_nil, (List.append_nil _).symm, rfl, hrest⟩
  -- induction on the rounds left; a round takes at least one byte off the file
  induction fuel generalizing rest reads crc offset sock with
  | zero =>
    cases h
    obtain rfl : rest = [] := List.length_eq_zero_iff.mp (by omega)
    exact hnothing _ _ _ _ _ fun _ => rfl
  | succ fuel ih =>
    cases send_chunks_cases h with
    | read_fails hmore =>
      apply hnothing
      intro hread
      by_contra hrest
      exact hread (.now hmore (Ne.symm hrest))
    | at_end hrest => exact hnothing _ _ _ _ _ fun _ => hrest.symm
    | @sent chunk _ _ _ _ _ hnext hw₁ hw₂ hloop =>
      obtain ⟨more, hmore, hchunk⟩ := hnext.read
      have hle : (rest.drop chunk.length).length ≤ fuel := by
        have hpos : 0 < chunk.length := List.length_pos_iff.mpr hnext.ne
        rw [List.length_drop]
        omega
      obtain ⟨content, chunks, hchunks, hsent, hcrc, hall⟩ := ih hle hloop
      refine ⟨chunk ++ content, chunk :: chunks, hchunks.cons hnext.ne hnext.fits, ?_, ?_, ?_⟩
      · rw [hsent, sent_of_chunk hw₁ hw₂, chunkPackets]
        simp only [List.append_assoc]
      · rw [hcrc, crcUpdate, crcUpdate, crcUpdate, Crc.update_append]
      · intro hread
        rw [hall fun hlater => hread (.later hmore hchunk hnext.ne hw₁ hw₂ hlater)]
        exact hnext.cut

/-- If the chunk loop ends with an error, it has sent some chunks and a part of the next. -/
theorem send_chunks_false {fuel : ℕ} {rest : Bytes}
    (h : send_chunks fuel rest reads crc offset sock = (false, crc', sock')) :
    ∃ content chunks chunk offset' k, ChunksOf content chunks ∧
      chunk.length ≤ FILE_CHUNK_SIZE ∧ k < ((chunkHeader chunk offset').encode ++ chunk).length ∧
      sock'.sent = sock.sent ++ (chunkPackets offset chunks ++
        ((chunkHeader chunk offset').encode ++ chunk).take k) := by
  induction fuel generalizing rest reads crc offset sock with
  | zero => cases h
  | succ fuel ih =>
    cases send_chunks_cases h with
    | @header_cut chunk _ hnext hw₁ =>
      obtain ⟨k, hk, hsent⟩ := Sink.sent_of_writeAll_false hw₁
      refine ⟨[], [], chunk, offset, k, chunksOf_nil, hnext.fits, ?_, ?_⟩
      · rw [List.length_append]
        omega
      · rw [hsent, List.take_append_of_le_length (Nat.le_of_lt hk)]
        rfl
    | @data_cut chunk _ _ hnext hw₁ hw₂ =>
      obtain ⟨k, hk, hsent⟩ := Sink.sent_of_writeAll_false hw₂
      refine ⟨[], [], chunk, offset, (chunkHeader chunk offset).encode.length + k,
        chunksOf_nil, hnext.fits, ?_, ?_⟩
      · rw [List.length_append]
        omega
      · rw [hsent, Sink.sent_of_writeAll hw₁, List.take_length_add_append, List.append_assoc]
        rfl
    | @sent chunk _ _ _ _ _ hnext hw₁ hw₂ hloop =>
      obtain ⟨content, chunks, chunk', offset', k, hchunks, hfits', hk, hsent⟩ := ih hloop
      refine ⟨chunk ++ content, chunk :: chunks, chunk', offset', k,
        hchunks.cons hnext.ne hnext.fits, hfits', hk, ?_⟩
      rw [hsent, sent_of_chunk hw₁ hw₂, chunkPackets]
      simp only [List.append_assoc]

/-- The ways in which `send_one_file` returns. -/
inductive OneFileReturns (file : DirEnt) (env : FileEnv) (filename : Bytes) (index total : UInt8)
    (sock : Sink) : Bool → Sink → Prop
  | nothing_sent : OneFileReturns file env filename index total sock false sock
  | meta_cut {sock' : Sink} :
      sock.writeAll (metaHeader file filename index total).encode = (false, sock') →
      OneFileReturns file env filename index total sock false sock'
  | no_buffer {sock' : Sink} :
      sock.writeAll (metaHeader file filename index total).encode = (true, sock') →
      OneFileReturns file env filename index total sock false sock'
  | chunk_cut {sock₁ sock' : Sink} {crc : UInt32} :
      FileBegins file env filename index total sock sock₁ →
      send_chunks file.content.length file.content env.reads 0xFFFFFFFF 0 sock₁ =
        (false, crc, sock') →
      OneFileReturns file env filename index total sock false sock'
  | at_end {sock₁ sock₂ sock' : Sink} {crc : UInt32} {ok : Bool} :
      FileBegins file env filename index total sock sock₁ →
      send_chunks file.content.length file.content env.reads 0xFFFFFFFF 0 sock₁ =
        (true, crc, sock₂) →
      sock₂.writeAll (endHeader (~~~crc)).encode = (ok, sock') →
      OneFileReturns file env filename index total sock ok sock'

section OneFile

variable {file : DirEnt} {env : FileEnv} {filename : Bytes} {index total : UInt8}

theorem send_one_file_cases {ok : Bool}
    (h : send_one_file file env filename index total sock = (ok, sock')) :
    OneFileReturns file env filename index total sock ok sock' := by
  unfold send_one_file at h
  by_cases hopened : env.opened = false
  · rw [if_pos hopened] at h
    obtain ⟨rfl, rfl⟩ := Prod.mk.inj h
    exact .nothing_sent
  by_cases hfstat : env.fstat = false
  · rw [if_neg hopened, if_pos hfstat] at h
    obtain ⟨rfl, rfl⟩ := Prod.mk.inj h
    exact .nothing_sent
  by_cases hsize : MAX_FILE_SIZE_BYTES < file.content.length
  · rw [if_neg hopened, if_neg hfstat, if_pos hsize] at h
    obtain ⟨rfl, rfl⟩ := Prod.mk.inj h
    exact .nothing_sent
  rw [if_neg hopened, if_neg hfstat, if_neg hsize] at h
  rcases hmeta : sock.writeAll (metaHeader file filename index total).encode with ⟨sent, sock₁⟩
  simp only [hmeta] at h
  cases sent with
  | false =>
    obtain ⟨rfl, rfl⟩ := Prod.mk.inj h
    exact .meta_cut hmeta
  | true =>
    by_cases hmalloc : env.malloc = false
    · simp only [if_pos hmalloc] at h
      obtain ⟨rfl, rfl⟩ := Prod.mk.inj h
      exact .no_buffer hmeta
    · have hbegins : FileBegins file env filename index total sock sock₁ :=
        { opened := Bool.eq_true_of_not_eq_false hopened
          fstat := Bool.eq_true_of_not_eq_false hfstat
          size := Nat.le_of_not_lt hsize
          sent := hmeta
          malloc := Bool.eq_true_of_not_eq_false hmalloc }
      simp only [if_neg hmalloc] at h
      rcases hloop : send_chunks file.content.length file.content env.reads 0xFFFFFFFF 0 sock₁ with
        ⟨send_ok, crc, sock₂⟩
      simp only [hloop] at h
      cases send_ok with
      | false =>
        obtain ⟨rfl, rfl⟩ := Prod.mk.inj h
        exact .chunk_cut hbegins hloop
      | true => exact .at_end hbegins hloop h

/-- A file that has been sent: some first bytes of it, and all of them unless a `read` has failed
before the end. -/
theorem send_one_file_true
    (h : send_one_file file env filename index total sock = (true, sock')) :
    ∃ content chunks, ChunksOf content chunks ∧
      sock'.sent = sock.sent ++ ((metaHeader file filename index total).encode ++
        (chunkPackets 0 chunks ++ (endHeader (~~~crcUpdate 0xFFFFFFFF content)).encode)) ∧
      (¬ FileReadFails (· ≠ []) file env filename index total sock → content = file.content) := by
  cases send_one_file_cases h with
  | at_end hbegins hloop hend =>
    obtain ⟨content, chunks, hchunks, hsent, rfl, hall⟩ := send_chunks_true (Nat.le_refl _) hloop
    refine ⟨content, chunks, hchunks, ?_, ?_⟩
    · rw [Sink.sent_of_writeAll hend, hsent, Sink.sent_of_writeAll hbegins.sent]
      simp only [List.append_assoc]
    · intro hread
      exact hall fun hfails => hread ⟨_, hbegins, hfails⟩

/-- What has been sent of a file that is given up. -/
theorem send_one_file_false {Ok : Bytes → Prop}
    (hok : ∀ content,
      (¬ FileReadFails (· ≠ []) file env filename index total sock → content = file.content) →
      Ok content)
    (h : send_one_file file env filename index total sock = (false, sock')) :
    ∃ p, sock'.sent = sock.sent ++ p ∧ GivenUp Ok file filename index total p := by
  cases send_one_file_cases h with
  | nothing_sent =>
    have hnone : (0 : ℕ) < sizeofFileMetaHeader := by decide
    exact ⟨_, (List.append_nil _).symm, .in_meta hnone⟩
  | meta_cut hmeta =>
    obtain ⟨k, hk, hsent⟩ := Sink.sent_of_writeAll_false hmeta
    rw [FileMetaHeader.length_encode] at hk
    exact ⟨_, hsent, .in_meta hk⟩
  | no_buffer hmeta =>
    have hfits : ([] : Bytes).length ≤ FILE_CHUNK_SIZE := Nat.zero_le _
    have hnone : 0 < ((chunkHeader [] 0).encode ++ []).length := Nat.succ_pos _
    refine ⟨_, ?_, .in_chunk chunksOf_nil hfits hnone⟩
    rw [Sink.sent_of_writeAll hmeta, List.take_zero, chunkPackets, List.append_nil, List.append_nil]
  | chunk_cut hbegins hloop =>
    obtain ⟨content, chunks, chunk, offset, k, hchunks, hfits, hk, hsent⟩ :=
      send_chunks_false hloop
    refine ⟨_, ?_, .in_chunk hchunks hfits hk⟩
    rw [hsent, Sink.sent_of_writeAll hbegins.sent, List.append_assoc]
  | @at_end _ _ _ crc _ hbegins hloop hend =>
    obtain ⟨content, chunks, hchunks, hsent, -, hall⟩ := send_chunks_true (Nat.le_refl _) hloop
    obtain ⟨k, hk, hsent'⟩ := Sink.sent_of_writeAll_false hend
    have hcontent : Ok content := by
      apply hok
      intro hread
      exact hall fun hfails => hread ⟨_, hbegins, hfails⟩
    have hk' : k < sizeofFileEndHeader := hk
    refine ⟨(metaHeader file filename index total).encode ++
      (chunkPackets 0 chunks ++ (endHeader (~~~crc)).encode.take k), ?_,
      .in_end hchunks hcontent hk'⟩
    rw [hsent', hsent, Sink.sent_of_writeAll hbegins.sent, List.append_assoc, List.append_assoc]

end OneFile

section Files

variable {env : ℕ → FileEnv} {total : UInt8} {i : ℕ} {files : List DistFile}

/-- All of the file has been read, if `All` holds. -/
def ReadAll (All : Prop) (f : DistFile) (content : Bytes) : Prop := All → content = f.2.content

/-- The first file is sent and the loop goes on, or it fails and the loop ends. -/
theorem send_files_cases {f : DistFile} {ok : Bool}
    (h : send_files env total i (f :: files) sock = (ok, sock')) :
    (∃ sock₁, send_one_file f.2 (env i) f.1.bytes (.ofNat (i + 1)) total sock = (true, sock₁) ∧
        send_files env total (i + 1) files sock₁ = (ok, sock')) ∨
      (∃ sock₁, send_one_file f.2 (env i) f.1.bytes (.ofNat (i + 1)) total sock = (false, sock₁)) ∧
        ok = false := by
  rw [send_files] at h
  rcases hfile : send_one_file f.2 (env i) f.1.bytes (.ofNat (i + 1)) total sock with ⟨sent, sock₁⟩
  rw [hfile] at h
  cases sent with
  | false => exact .inr ⟨⟨sock₁, rfl⟩, (Prod.mk.inj h).1.symm⟩
  | true => exact .inl ⟨sock₁, rfl, h⟩

/-- If all files are sent, their packets are. -/
theorem send_files_true (All : Prop)
    (hall : All → ¬ SomeReadFails (· ≠ []) env total i files sock)
    (h : send_files env total i files sock = (true, sock')) :
    ∃ p, SentAs (ReadAll All) total i files p ∧ sock'.sent = sock.sent ++ p := by
  induction files generalizing i sock with
  | nil =>
    obtain ⟨-, rfl⟩ := Prod.mk.inj h
    exact ⟨[], .nil i, (List.append_nil _).symm⟩
  | cons f files ih =>
    rcases send_files_cases h with ⟨sock₁, hfile, hrest⟩ | ⟨-, hok⟩
    · obtain ⟨content, chunks, hchunks, hsent, hcontent⟩ := send_one_file_true hfile
      have hread : ReadAll All f content := fun ha => hcontent fun hfails => hall ha (.here hfails)
      obtain ⟨p, hp, hsent'⟩ := ih (fun ha hfails => hall ha (.later hfile hfails)) hrest
      refine ⟨_, .cons hchunks hread hp, ?_⟩
      rw [hsent', hsent]
      simp only [List.append_assoc]
    · cases hok

/-- Otherwise one of them fails, and a `RES_FILE_ERROR` is sent. -/
theorem send_files_false (h : send_files env total i files sock = (false, sock')) :
    ∃ message sock₁, FileFails env total i files sock message sock₁ := by
  induction files generalizing i sock with
  | nil => cases h
  | cons f files ih =>
    rcases send_files_cases h with ⟨sock₁, hfile, hrest⟩ | ⟨⟨sock₁, hfile⟩, -⟩
    · obtain ⟨message, sock₂, hfails⟩ := ih hrest
      exact ⟨message, sock₂, .later hfile hfails⟩
    · exact ⟨_, sock₁, .here hfile⟩

theorem FileFails.send_files_eq {message : Bytes}
    (h : FileFails env total i files sock message sock') :
    send_files env total i files sock = (false, send_pull_error sock' message) := by
  induction h with
  | here hfile =>
    rw [send_files, hfile]
    rfl
  | later hfile _ ih =>
    rw [send_files, hfile]
    exact ih

theorem FileFails.aborted {All : Prop} {message : Bytes}
    (h : FileFails env total i files sock message sock')
    (hall : All → ¬ SomeReadFails (· ≠ []) env total i files sock) :
    ∃ p, sock'.sent = sock.sent ++ p ∧ AbortedAs (ReadAll All) total i files p := by
  induction h with
  | @here i f files sock sock' hfile =>
    have hok : ∀ content, (¬ FileReadFails (· ≠ []) f.2 (env i) f.1.bytes (.ofNat (i + 1)) total
        sock → content = f.2.content) → ReadAll All f content :=
      fun content hcontent ha => hcontent fun hfails => hall ha (.here hfails)
    obtain ⟨p, hsent, hp⟩ := send_one_file_false hok hfile
    exact ⟨p, hsent, .here hp⟩
  | @later i f files sock sock₁ sock' message hfile _ ih =>
    obtain ⟨content, chunks, hchunks, hsent, hcontent⟩ := send_one_file_true hfile
    have hread : ReadAll All f content := fun ha => hcontent fun hfails => hall ha (.here hfails)
    obtain ⟨p, hsent', hp⟩ := ih fun ha hfails => hall ha (.later hfile hfails)
    refine ⟨_, ?_, .later hchunks hread hp⟩
    rw [hsent', hsent]
    simp only [List.append_assoc]

end Files

/-- Of the `RES_FILE_ERROR` some first bytes are sent. -/
theorem send_pull_error_sent (sock : Sink) (message : Bytes) :
    ∃ m, (send_pull_error sock message).sent = sock.sent ++ errorBytes message m := by
  obtain ⟨m, -, hsent, -⟩ := sock.writeAll_spec (errorHeader message).encode
  exact ⟨m, hsent⟩

end Sent

/-! ## Streams in which the transfers are in order -/

/-- The packets that keep the transfers in order, from and to the open file with its bytes so far:
no file is opened while another one is, and each is closed with a content that is `Good`. -/
inductive Orderly (Good : Bytes → Bytes → Prop) :
    Option (Bytes × Bytes) → List PullPacket → Option (Bytes × Bytes) → Prop
  | nil (opened : Option (Bytes × Bytes)) : Orderly Good opened [] opened
  | opens {path : Bytes} {exec : UInt8} {es : List PullPacket} {opened : Option (Bytes × Bytes)} :
      Orderly Good (some (path, [])) es opened →
      Orderly Good none (.file_meta path exec :: es) opened
  | stores {path content data : Bytes} {es : List PullPacket} {opened : Option (Bytes × Bytes)} :
      Orderly Good (some (path, content ++ data)) es opened →
      Orderly Good (some (path, content)) (.chunk data :: es) opened
  | closes {path content : Bytes} {checksum : UInt32} {es : List PullPacket}
      {opened : Option (Bytes × Bytes)} :
      Good path content → Orderly Good none es opened →
      Orderly Good (some (path, content)) (.file_end checksum :: es) opened

/-- Whatever the client takes of the bytes `p` is in order, and where it leads to a
`RES_FILE_DONE`, the bytes to come are `Final`. -/
def StaysOrderly (Good : Bytes → Bytes → Prop) (Final : Bytes → Prop)
    (opened : Option (Bytes × Bytes)) (p : Bytes) : Prop :=
  ∀ es q, Parses p es q → (DoneAt q → Final q) ∧ ∃ opened', Orderly Good opened es opened'

section Order

variable {Good : Bytes → Bytes → Prop} {Final Final' : Bytes → Prop}
  {opened : Option (Bytes × Bytes)} {p q : Bytes}

theorem StaysOrderly.mono (h : StaysOrderly Good Final opened p) (himp : ∀ q, Final q → Final' q) :
    StaysOrderly Good Final' opened p := by
  intro es q hparses
  obtain ⟨hdone, horder⟩ := h es q hparses
  exact ⟨fun hd => himp q (hdone hd), horder⟩

/-- The client takes nothing. -/
theorem staysOrderly_of_none (hparse : parsePacket p = none) (hdone : DoneAt p → Final p) :
    StaysOrderly Good Final opened p := by
  intro es q hparses
  cases hparses with
  | nil => exact ⟨hdone, opened, .nil opened⟩
  | cons hfirst _ =>
    rw [hparse] at hfirst
    cases hfirst

theorem BrokenAt.staysOrderly (h : BrokenAt p) : StaysOrderly Good Final opened p :=
  staysOrderly_of_none h.no_packet fun hdone => absurd hdone h.not_done

/-- A packet that keeps the order, and then others that do. -/
theorem staysOrderly_cons {e : PullPacket} {opened' : Option (Bytes × Bytes)}
    (hdone : ¬ DoneAt p) (hparse : parsePacket p = some (e, q))
    (horder : ∀ es o, Orderly Good opened' es o → Orderly Good opened (e :: es) o)
    (hq : StaysOrderly Good Final opened' q) : StaysOrderly Good Final opened p := by
  intro es r hparses
  cases hparses with
  | nil => exact ⟨fun hd => absurd hd hdone, opened, .nil opened⟩
  | cons hfirst hrest =>
    obtain ⟨rfl, rfl⟩ := Prod.mk.inj (Option.some.inj (hparse.symm.trans hfirst))
    obtain ⟨hfinal, o, ho⟩ := hq _ _ hrest
    exact ⟨hfinal, o, horder _ _ ho⟩

theorem staysOrderly_meta {f : DistFile} {index total : UInt8}
    (hq : is_safe_filename (distName f) = true →
      StaysOrderly Good Final (some (distPath f, [])) q) :
    StaysOrderly Good Final none ((metaHeader f.2 f.1.bytes index total).encode ++ q) := by
  have htype : RES_FILE_META ≠ RES_FILE_DONE := by decide
  have hdone : ¬ DoneAt ((metaHeader f.2 f.1.bytes index total).encode ++ q) := by
    rw [FileMetaHeader.encode, List.append_assoc]
    exact not_doneAt_encode rfl htype _
  have hparse := parsePacket_meta q f.2 f.1 index total
  by_cases hsafe : is_safe_filename (distName f) = false
  · rw [← distName, if_pos hsafe] at hparse
    exact BrokenAt.staysOrderly ⟨hparse, hdone⟩
  · rw [← distName, if_neg hsafe] at hparse
    apply staysOrderly_cons hdone hparse
    · intro es o ho
      exact .opens ho
    · exact hq (Bool.eq_true_of_not_eq_false hsafe)

theorem staysOrderly_chunk {path content chunk : Bytes} {offset : UInt32} (hne : chunk ≠ [])
    (hfits : chunk.length ≤ FILE_CHUNK_SIZE)
    (hq : StaysOrderly Good Final (some (path, content ++ chunk)) q) :
    StaysOrderly Good Final (some (path, content))
      ((chunkHeader chunk offset).encode ++ (chunk ++ q)) := by
  have htype : RES_FILE_CHUNK ≠ RES_FILE_DONE := by decide
  have hdone : ¬ DoneAt ((chunkHeader chunk offset).encode ++ (chunk ++ q)) := by
    rw [FileChunkHeader.encode, List.append_assoc]
    exact not_doneAt_encode rfl htype _
  apply staysOrderly_cons hdone (parsePacket_chunk q hne hfits offset)
  · intro es o ho
    exact .stores ho
  · exact hq

theorem staysOrderly_end {path content : Bytes} {checksum : UInt32} (hgood : Good path content)
    (hq : StaysOrderly Good Final none q) :
    StaysOrderly Good Final (some (path, content)) ((endHeader checksum).encode ++ q) := by
  have htype : RES_FILE_END ≠ RES_FILE_DONE := by decide
  have hdone : ¬ DoneAt ((endHeader checksum).encode ++ q) := by
    rw [FileEndHeader.encode, List.append_assoc]
    exact not_doneAt_encode rfl htype _
  apply staysOrderly_cons hdone (parsePacket_end q checksum)
  · intro es o ho
    exact .closes hgood ho
  · exact hq

/-- A packet that is cut, and the bytes of a `RES_FILE_ERROR`: only these can pass for a
`RES_FILE_DONE`. -/
theorem CutShort.staysOrderly {Like : PullPacket → Prop} {message : Bytes} {m : ℕ}
    (h : CutShort Like (errorBytes message m) p)
    (hlike : ∀ e, Like e → ∃ opened', Orderly Good opened [e] opened') :
    StaysOrderly Good (fun q => ∃ j, q = (errorBytes message m).drop j) opened p := by
  intro es r hparses
  cases hparses with
  | nil => exact ⟨fun hd => absurd hd h.not_done, opened, .nil opened⟩
  | cons hfirst hrest =>
    obtain ⟨hlike', j, rfl⟩ := h.packet _ _ hfirst
    -- nothing more is found in the `RES_FILE_ERROR`
    cases hrest with
    | nil => exact ⟨fun _ => ⟨j, rfl⟩, hlike _ hlike'⟩
    | cons hsecond _ =>
      rw [parsePacket_drop_error] at hsecond
      cases hsecond

/-! ### Files -/

theorem staysOrderly_chunks {path content sofar : Bytes} {chunks : List Bytes} {offset : UInt32}
    (hchunks : ChunksOf content chunks)
    (hq : StaysOrderly Good Final (some (path, sofar ++ content)) q) :
    StaysOrderly Good Final (some (path, sofar)) (chunkPackets offset chunks ++ q) := by
  induction chunks generalizing content sofar offset with
  | nil =>
    obtain rfl : [] = content := hchunks.flatten
    rwa [List.append_nil] at hq
  | cons chunk chunks ih =>
    obtain ⟨hne, hnonempty⟩ := List.forall_mem_cons.mp hchunks.nonempty
    obtain ⟨hfits, hfits'⟩ := List.forall_mem_cons.mp hchunks.fits
    have hcontent : content = chunk ++ chunks.flatten := hchunks.flatten.symm
    rw [chunkPackets, List.append_assoc, List.append_assoc]
    apply staysOrderly_chunk hne hfits
    apply ih ⟨rfl, hnonempty, hfits'⟩
    rwa [List.append_assoc, ← hcontent]

variable {Ok : DistFile → Bytes → Prop} {total : UInt8} {i : ℕ} {files : List DistFile}
  {message : Bytes} {m : ℕ}

/-- A file that is given up. -/
theorem GivenUp.staysOrderly {f : DistFile} {index : UInt8}
    (h : GivenUp (Ok f) f.2 f.1.bytes index total p)
    (hgood : ∀ content, Ok f content → Good (distPath f) content) :
    StaysOrderly Good (fun q => ∃ j, q = (errorBytes message m).drop j) none
      (p ++ errorBytes message m) := by
  cases h with
  | in_meta hk =>
    apply (cutShort_meta f.2 f.1.bytes index total hk message m).staysOrderly
    rintro e ⟨path, exec, rfl⟩
    exact ⟨_, .opens (.nil _)⟩
  | in_chunk hchunks hfits hk =>
    rw [List.append_assoc, List.append_assoc]
    apply staysOrderly_meta
    intro _
    apply staysOrderly_chunks hchunks
    apply (cutShort_chunk hfits _ hk message m).staysOrderly
    rintro e ⟨data, rfl⟩
    exact ⟨_, .stores (.nil _)⟩
  | in_end hchunks hok hk =>
    rw [List.append_assoc, List.append_assoc]
    apply staysOrderly_meta
    intro _
    apply staysOrderly_chunks hchunks
    apply (cutShort_end _ hk message m).staysOrderly
    rintro e ⟨checksum, rfl⟩
    exact ⟨_, .closes (hgood _ hok) (.nil _)⟩

/-- **The files up to one that is given up.** -/
theorem AbortedAs.staysOrderly (h : AbortedAs Ok total i files p)
    (hgood : ∀ f ∈ files, ∀ content, Ok f content → Good (distPath f) content) :
    StaysOrderly Good (fun q => ∃ j, q = (errorBytes message m).drop j) none
      (p ++ errorBytes message m) := by
  induction h with
  | here hup => exact hup.staysOrderly (hgood _ List.mem_cons_self)
  | later hchunks hok _ ih =>
    rw [List.append_assoc, List.append_assoc, List.append_assoc]
    apply staysOrderly_meta
    intro _
    apply staysOrderly_chunks hchunks
    apply staysOrderly_end (hgood _ List.mem_cons_self _ hok)
    exact ih fun f hf => hgood f (List.mem_cons_of_mem _ hf)

/-- **All files**: the client gets to what follows them if their names are safe. -/
theorem SentAs.staysOrderly (h : SentAs Ok total i files p)
    (hgood : ∀ f ∈ files, ∀ content, Ok f content → Good (distPath f) content)
    (hq : parsePacket q = none) :
    StaysOrderly Good (fun r => r = q ∧ ∀ f ∈ files, is_safe_filename (distName f) = true) none
      (p ++ q) := by
  induction h with
  | nil => exact staysOrderly_of_none hq fun _ => ⟨rfl, fun f hf => nomatch hf⟩
  | cons hchunks hok _ ih =>
    rw [List.append_assoc, List.append_assoc, List.append_assoc]
    apply staysOrderly_meta
    intro hsafe
    apply staysOrderly_chunks hchunks
    apply staysOrderly_end (hgood _ List.mem_cons_self _ hok)
    have hrest := ih fun f hf => hgood f (List.mem_cons_of_mem _ hf)
    apply hrest.mono
    rintro r ⟨rfl, hsafes⟩
    exact ⟨rfl, List.forall_mem_cons.mpr ⟨hsafe, hsafes⟩⟩

/-! ### What the client takes -/

/-- Some packets and then others. -/
theorem Parses.append {r : Bytes} {es es' : List PullPacket} (h : Parses p es q)
    (h' : Parses q es' r) : Parses p (es ++ es') r := by
  induction h with
  | nil => exact h'
  | cons hparse _ ih => exact .cons hparse (ih h')

theorem exists_parses_chunks {content : Bytes} {chunks : List Bytes} (offset : UInt32)
    (hchunks : ChunksOf content chunks) (q : Bytes) :
    ∃ es, Parses (chunkPackets offset chunks ++ q) es q := by
  induction chunks generalizing content offset with
  | nil => exact ⟨[], .nil q⟩
  | cons chunk chunks ih =>
    obtain ⟨hne, hnonempty⟩ := List.forall_mem_cons.mp hchunks.nonempty
    obtain ⟨hfits, hfits'⟩ := List.forall_mem_cons.mp hchunks.fits
    obtain ⟨es, hes⟩ := ih (offset + .ofNat chunk.length) ⟨rfl, hnonempty, hfits'⟩
    rw [chunkPackets, List.append_assoc, List.append_assoc]
    exact ⟨_, .cons (parsePacket_chunk _ hne hfits offset) hes⟩

/-- If the names of the files are safe, the client does get to what follows. -/
theorem SentAs.exists_parses (h : SentAs Ok total i files p)
    (hsafe : ∀ f ∈ files, is_safe_filename (distName f) = true) (q : Bytes) :
    ∃ es, Parses (p ++ q) es q := by
  induction h with
  | nil => exact ⟨[], .nil q⟩
  | @cons i f files content p chunks hchunks _ _ ih =>
    obtain ⟨hf, hfiles⟩ := List.forall_mem_cons.mp hsafe
    obtain ⟨es, hes⟩ := ih hfiles
    obtain ⟨es', hes'⟩ := exists_parses_chunks 0 hchunks
      ((endHeader (~~~crcUpdate 0xFFFFFFFF content)).encode ++ (p ++ q))
    have hmeta := parsePacket_meta (chunkPackets 0 chunks ++
      ((endHeader (~~~crcUpdate 0xFFFFFFFF content)).encode ++ (p ++ q))) f.2 f.1
      (.ofNat (i + 1)) total
    rw [← distName, if_neg (by rw [hf]; decide)] at hmeta
    rw [List.append_assoc, List.append_assoc, List.append_assoc]
    exact ⟨_, .cons hmeta (hes'.append (.cons (parsePacket_end _ _) hes))⟩

end Order

end MiniCi
