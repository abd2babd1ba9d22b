/-
# The download is a round trip

When nothing fails on either side, the client that reads what the server sends ends with the
files of the server in its directory (`pull_round_trip`), for every way `read` cuts the files
into chunks and the network cuts the stream.

`Takes env c p c'` says that the client in the state `c` reads the bytes `p` and is in the
state `c'` then, whatever follows.  It is shown for a packet of each type and composed along
the chunks of a file and the files of the directory.
-/
import MiniCi.CutPackets
import MiniCi.Submission

namespace MiniCi

open CStr ByteStream

/-! ## The files of the week -/

/-- The regular files of a directory whose names do not start with a dot. -/
def listed (ents : List DirEnt) : List DirEnt :=
  ents.filter fun ent => ent.d_name.headD 0 ≠ 46 ∧ ent.s_isreg = true

/-- A file that can be downloaded under its own name. -/
structure Servable (file : DirEnt) : Prop where
  no_nul : 0 ∉ file.d_name
  short : file.d_name.length ≤ MAX_FILENAME - 1
  safe : is_safe_filename file.d_name = true
  size : file.content.length ≤ MAX_FILE_SIZE_BYTES

/-- A directory with 1 to `MAX_DIST_FILES` such files under different names. -/
structure Distributable (ents : List DirEnt) : Prop where
  nonempty : listed ents ≠ []
  atMost : (listed ents).length ≤ MAX_DIST_FILES
  distinct : ((listed ents).map DirEnt.d_name).Nodup
  servable : ∀ file ∈ listed ents, Servable file

/-- Where the client puts a file. -/
def clientPath (file : DirEnt) : Bytes := ascii "./" ++ file.d_name

theorem clientPath_injective {file file' : DirEnt} (h : clientPath file = clientPath file') :
    file.d_name = file'.d_name :=
  List.append_cancel_left h

/-- What a file is collected as. -/
def collected (file : DirEnt) : Buf MAX_FILENAME × DirEnt :=
  (fileName file.d_name, file)

theorem listed_cons (ent : DirEnt) (ents : List DirEnt) :
    listed (ent :: ents) = if ent.d_name.headD 0 ≠ 46 ∧ ent.s_isreg = true
      then ent :: listed ents else listed ents := by
  rw [listed, List.filter_cons]
  simp only [decide_eq_true_eq]
  rfl

/-- `handle_file_pull` collects the first files of the directory. -/
theorem collect_files_take (ents : List DirEnt) (k : ℕ) :
    collect_files ents k = ((listed ents).take (MAX_DIST_FILES - k)).map collected := by
  induction ents generalizing k with
  | nil =>
    show [] = ([].take _).map collected
    rw [List.take_nil, List.map_nil]
  | cons ent ents ih =>
    rw [collect_files, listed_cons]
    by_cases hroom : k < MAX_DIST_FILES
    · rw [if_pos hroom]
      by_cases hdot : ent.d_name.headD 0 = 46
      · rw [if_pos hdot, if_neg fun h => h.1 hdot, ih k]
      · rw [if_neg hdot]
        by_cases hreg : ent.s_isreg = false
        · rw [if_pos hreg, if_neg fun h => absurd (h.2.symm.trans hreg) (by decide), ih k]
        · have hsub : MAX_DIST_FILES - k = MAX_DIST_FILES - (k + 1) + 1 := by omega
          rw [if_neg hreg, if_pos ⟨hdot, by simpa using hreg⟩, ih (k + 1), hsub,
            List.take_succ_cons, List.map_cons]
          rfl
    · have hzero : MAX_DIST_FILES - k = 0 := by omega
      rw [if_neg hroom, hzero, List.take_zero, List.map_nil]

/-- It collects all of them if there is room. -/
theorem collect_files_eq {ents : List DirEnt} {k : ℕ}
    (hk : k + (listed ents).length ≤ MAX_DIST_FILES) :
    collect_files ents k = (listed ents).map collected := by
  rw [collect_files_take, List.take_of_length_le (by omega)]

/-! ## What the client takes -/

/-- The client in the state `c` reads `p` and is in the state `c'` then. -/
def Takes (env : PullEnv) (c : PullClient) (p : Bytes) (c' : PullClient) : Prop :=
  ∀ sock q, sock.rest = p ++ q → ∃ sock', sock'.rest = q ∧ pullRun env c sock = pullRun env c' sock'

section Packets

variable {env : PullEnv} {c c' c'' : PullClient}

theorem takes_nil : Takes env c [] c := fun sock _ h => ⟨sock, h, rfl⟩

/-- What is taken one after the other is taken together. -/
theorem Takes.append {p p' : Bytes} (h : Takes env c p c') (h' : Takes env c' p' c'') :
    Takes env c (p ++ p') c'' := by
  intro sock q hsock
  obtain ⟨sock₁, hrest₁, hrun₁⟩ := h sock (p' ++ q) (by rw [hsock, List.append_assoc])
  obtain ⟨sock₂, hrest₂, hrun₂⟩ := h' sock₁ q hrest₁
  exact ⟨sock₂, hrest₂, hrun₁.trans hrun₂⟩

/-- A packet begins with its common header. -/
theorem pullStep_serverHeader (env : PullEnv) (c : PullClient) {pkt_type : UInt8} {header_size : ℕ}
    {sock : Stream} {q : Bytes}
    (hsock : sock.rest = (serverHeader pkt_type header_size).encode ++ q) :
    ∃ sock', sock'.rest = q ∧
      pullStep env c sock = recvPacket env c (serverHeader pkt_type header_size) sock' := by
  obtain ⟨sock', hrecv, hrest⟩ := Stream.recvAll_append hsock (CommonHeader.length_encode _)
  refine ⟨sock', hrest, ?_⟩
  have hmagic : ¬ (serverHeader pkt_type header_size).magic ≠ MAGIC_NUMBER := fun h => h rfl
  rw [pullStep, recv_common_header, hrecv]
  simp only [CommonHeader.decode_encode, if_neg hmagic]

theorem recvPacket_meta (sock : Stream) :
    recvPacket env c (serverHeader RES_FILE_META sizeofFileMetaHeader) sock
      = recvMeta env c (serverHeader RES_FILE_META sizeofFileMetaHeader) sock :=
  if_pos rfl

theorem recvPacket_chunk (sock : Stream) :
    recvPacket env c (serverHeader RES_FILE_CHUNK sizeofFileChunkHeader) sock
      = recvChunk env c (serverHeader RES_FILE_CHUNK sizeofFileChunkHeader) sock :=
  (if_neg (by decide)).trans (if_pos rfl)

theorem recvPacket_end (sock : Stream) :
    recvPacket env c (serverHeader RES_FILE_END sizeofFileEndHeader) sock
      = recvEnd env c (serverHeader RES_FILE_END sizeofFileEndHeader) sock :=
  (if_neg (by decide)).trans ((if_neg (by decide)).trans (if_pos rfl))

/-- The client after a `FileMetaHeader`. -/
def PullClient.opened (c : PullClient) (umask : ℕ) (file : DirEnt) : PullClient :=
  { c with
    state := PULL_STATE_WAIT_CHUNK, out_fd := some (clientPath file), out_path := clientPath file
    out_exec := if file.s_ixusr then 1 else 0, crc_accum := 0xFFFFFFFF
    dir := c.dir.create umask (clientPath file), ops := c.ops ++ [.create (clientPath file)] }

/-- The name in a `FileMetaHeader` is the name of the file. -/
theorem metaHeader_filename {file : DirEnt} (hfile : Servable file) (index total : UInt8) :
    str ((metaHeader file (collected file).1.bytes index total).filename.bytes.take
      (MAX_FILENAME - 1)) = file.d_name := by
  have hcollected : (collected file).1.str = file.d_name := by
    show (fileName file.d_name).str = file.d_name
    rw [str_fileName, str_eq_self hfile.no_nul, List.take_of_length_le hfile.short]
  show (metaHeader file (collected file).1.bytes index total).name = file.d_name
  rw [metaHeader_name, hcollected, List.take_of_length_le hfile.short]

theorem takes_meta {file : DirEnt} (hfile : Servable file) (henv : env.NoFailure)
    (index total : UInt8) :
    Takes env c (metaHeader file (collected file).1.bytes index total).encode
      (c.opened env.umask file) := by
  intro sock q hsock
  rw [FileMetaHeader.encode, List.append_assoc] at hsock
  obtain ⟨sock₁, hrest₁, hstep⟩ := pullStep_serverHeader env c hsock
  obtain ⟨sock₂, hrecv₂, hrest₂⟩ := Stream.recvAll_append hrest₁ (FileMetaHeader.length_fields _)
  refine ⟨sock₂, hrest₂, pullRun_of_next (hstep.trans ?_)⟩
  have hname := metaHeader_filename hfile index total
  have hshort : (clientPath file).length < 512 := by
    have hlen : file.d_name.length ≤ 127 := hfile.short
    have htwo : (ascii "./").length = 2 := by decide
    rw [clientPath, List.length_append]
    omega
  have hpath : snprintf 512 (clientPath file) = clientPath file := snprintf_eq_self hshort
  have hfits : ¬ 512 ≤ (clientPath file).length := by omega
  have hsize : ¬ (serverHeader RES_FILE_META sizeofFileMetaHeader).header_size.toNat
      ≠ sizeofFileMetaHeader := by decide
  have hdecode : FileMetaHeader.decode (serverHeader RES_FILE_META sizeofFileMetaHeader)
      (metaHeader file (collected file).1.bytes index total).fields
        = metaHeader file (collected file).1.bytes index total :=
    FileMetaHeader.decode_fields (metaHeader file (collected file).1.bytes index total)
  have hsafe : ¬ is_safe_filename file.d_name = false := by simp [hfile.safe]
  have hopens : ¬ env.opens c.ops.length = false := by simp [henv.opens]
  rw [recvPacket_meta, recvMeta, if_neg hsize, hrecv₂]
  simp only [hdecode, hname, if_neg hsafe]
  rw [← clientPath, if_neg hfits, if_neg hopens, hpath]
  rfl

/-- The client after a chunk. -/
def PullClient.stored (c : PullClient) (path chunk : Bytes) : PullClient :=
  { c with
    crc_accum := crcUpdate c.crc_accum chunk, dir := c.dir.append path chunk
    ops := c.ops ++ [.write path chunk] }

theorem storeChunk_eq (henv : env.NoFailure) (path chunk : Bytes) :
    storeChunk env c path chunk = (true, c.stored path chunk) := by
  have hopen : Sink.Open ⟨[], env.writes c.ops.length⟩ := henv.writes c.ops.length
  obtain ⟨out, hwritten, hsent, -⟩ := Sink.writeAll_eq hopen chunk
  rw [List.nil_append] at hsent
  simp only [storeChunk, hwritten, hsent]
  rfl

theorem takes_chunk (henv : env.NoFailure) {path chunk : Bytes}
    (hstate : c.state = PULL_STATE_WAIT_CHUNK) (hfd : c.out_fd = some path) (hne : chunk ≠ [])
    (hfits : chunk.length ≤ FILE_CHUNK_SIZE) (offset : UInt32) :
    Takes env c ((chunkHeader chunk offset).encode ++ chunk) (c.stored path chunk) := by
  intro sock q hsock
  rw [FileChunkHeader.encode, List.append_assoc, List.append_assoc] at hsock
  obtain ⟨sock₁, hrest₁, hstep⟩ := pullStep_serverHeader env c hsock
  obtain ⟨sock₂, hrecv₂, hrest₂⟩ := Stream.recvAll_append hrest₁ (FileChunkHeader.length_fields _)
  obtain ⟨sock₃, hrecv₃, hrest₃⟩ := Stream.recvAll_append hrest₂ rfl
  refine ⟨sock₃, hrest₃, pullRun_of_next (hstep.trans ?_)⟩
  have hsize : ¬ (serverHeader RES_FILE_CHUNK sizeofFileChunkHeader).header_size.toNat
      ≠ sizeofFileChunkHeader := by decide
  have hdecode : FileChunkHeader.decode (serverHeader RES_FILE_CHUNK sizeofFileChunkHeader)
      (chunkHeader chunk offset).fields = chunkHeader chunk offset :=
    FileChunkHeader.decode_fields (chunkHeader chunk offset)
  have hmax : FILE_CHUNK_SIZE = 65536 := rfl
  have hcsz : (chunkHeader chunk offset).chunk_size.toNat = chunk.length := by
    show (UInt32.ofNat chunk.length).toNat = chunk.length
    rw [UInt32.toNat_ofNat']
    omega
  have hpos : 0 < chunk.length := List.length_pos_iff.mpr hne
  have hok : ¬ (chunk.length = 0 ∨ FILE_CHUNK_SIZE * 2 < chunk.length) := by omega
  have hmalloc : ¬ env.mallocs c.ops.length = false := by simp [henv.mallocs]
  rw [recvPacket_chunk, recvChunk]
  simp only [hstate, hfd, if_neg hsize, hrecv₂, hdecode, hcsz, if_neg hok, if_neg hmalloc, hrecv₃,
    storeChunk_eq henv]

/-- From `c` to `c'`, the bytes `data` have been written to the file `path`. -/
structure Stored (path data : Bytes) (c c' : PullClient) : Prop where
  out_fd : c'.out_fd = c.out_fd
  out_path : c'.out_path = c.out_path
  out_exec : c'.out_exec = c.out_exec
  files_done : c'.files_done = c.files_done
  crc_accum : c'.crc_accum = crcUpdate c.crc_accum data
  dir : c'.dir = c.dir.append path data
  ops : ∃ new, c'.ops = c.ops ++ new ∧ ∀ op ∈ new, op.path = path

/-- The chunks of a file are written one after the other. -/
theorem takes_chunks (henv : env.NoFailure) {path : Bytes} {chunks : List Bytes}
    (hne : ∀ chunk ∈ chunks, chunk ≠ []) (hfits : ∀ chunk ∈ chunks, chunk.length ≤ FILE_CHUNK_SIZE)
    (hstate : c.state = PULL_STATE_WAIT_CHUNK) (hfd : c.out_fd = some path) (offset : UInt32) :
    ∃ c', Takes env c (chunkPackets offset chunks) c' ∧ Stored path chunks.flatten c c' := by
  induction chunks generalizing c offset with
  | nil =>
    refine ⟨c, takes_nil, rfl, rfl, rfl, rfl, rfl, ?_, [], (List.append_nil _).symm, by simp⟩
    exact (Dir.append_nil _ _).symm
  | cons chunk chunks ih =>
    obtain ⟨hne₀, hne'⟩ := List.forall_mem_cons.mp hne
    obtain ⟨hfits₀, hfits'⟩ := List.forall_mem_cons.mp hfits
    have hchunk := takes_chunk henv hstate hfd hne₀ hfits₀ offset
    obtain ⟨c', htakes, hstored⟩ := ih (c := c.stored path chunk) hne' hfits' hstate hfd
      (offset + .ofNat chunk.length)
    obtain ⟨new, hnew, hpath⟩ := hstored.ops
    refine ⟨c', ?_, hstored.out_fd, hstored.out_path, hstored.out_exec, hstored.files_done, ?_, ?_,
      .write path chunk :: new, ?_, ?_⟩
    · rw [chunkPackets, ← List.append_assoc]
      exact hchunk.append htakes
    · rw [hstored.crc_accum, List.flatten_cons]
      exact (Crc.update_append _ _ _ _).symm
    · rw [hstored.dir, List.flatten_cons]
      exact Dir.append_append _ _ _ _
    · rw [hnew]
      exact List.append_assoc _ _ _
    · exact List.forall_mem_cons.mpr ⟨rfl, hpath⟩

/-- The client after the end of a file that has arrived intact. -/
def PullClient.closed (c : PullClient) : PullClient :=
  { c with
    state := PULL_STATE_WAIT_META, out_fd := none, files_done := c.files_done + 1
    dir := if c.out_exec ≠ 0 then c.dir.chmod c.out_path 0o755 else c.dir
    ops := if c.out_exec ≠ 0 then c.ops ++ [.chmod c.out_path 0o755] else c.ops }

theorem closed_dir_self {f : DirFile} (h : c.dir c.out_path = some f) :
    ∃ g, c.closed.dir c.out_path = some g ∧ g.content = f.content ∧
      (c.out_exec ≠ 0 → g.mode = 0o755) := by
  by_cases hexec : c.out_exec ≠ 0
  · refine ⟨{ f with mode := 0o755 }, ?_, rfl, fun _ => rfl⟩
    simp only [PullClient.closed, if_pos hexec]
    exact Dir.chmod_self h _
  · refine ⟨f, ?_, rfl, fun h => absurd h hexec⟩
    simp only [PullClient.closed, if_neg hexec]
    exact h

theorem closed_dir_of_ne {path : Bytes} (h : path ≠ c.out_path) :
    c.closed.dir path = c.dir path := by
  by_cases hexec : c.out_exec ≠ 0
  · simp only [PullClient.closed, if_pos hexec]
    exact Dir.chmod_of_ne h _
  · simp only [PullClient.closed, if_neg hexec]

theorem closed_ops (c : PullClient) :
    ∃ new, c.closed.ops = c.ops ++ new ∧ ∀ op ∈ new, op.path = c.out_path := by
  by_cases hexec : c.out_exec ≠ 0
  · refine ⟨[.chmod c.out_path 0o755], ?_, ?_⟩
    · simp only [PullClient.closed, if_pos hexec]
    · exact List.forall_mem_singleton.mpr rfl
  · refine ⟨[], ?_, by simp⟩
    simp only [PullClient.closed, if_neg hexec, List.append_nil]

theorem takes_end (henv : env.NoFailure) (hfd : c.out_fd ≠ none) {checksum : UInt32}
    (hchecksum : checksum = ~~~c.crc_accum) : Takes env c (endHeader checksum).encode c.closed := by
  intro sock q hsock
  rw [FileEndHeader.encode, List.append_assoc] at hsock
  obtain ⟨sock₁, hrest₁, hstep⟩ := pullStep_serverHeader env c hsock
  obtain ⟨sock₂, hrecv₂, hrest₂⟩ := Stream.recvAll_append hrest₁ (FileEndHeader.length_fields _)
  refine ⟨sock₂, hrest₂, pullRun_of_next (hstep.trans ?_)⟩
  have hsize : ¬ (serverHeader RES_FILE_END sizeofFileEndHeader).header_size.toNat
      ≠ sizeofFileEndHeader := by decide
  have hdecode : FileEndHeader.decode (serverHeader RES_FILE_END sizeofFileEndHeader)
      (endHeader checksum).fields = endHeader checksum :=
    FileEndHeader.decode_fields (endHeader checksum)
  have hequal : ¬ (endHeader checksum).checksum ≠ ~~~c.crc_accum := fun h => h hchecksum
  rw [recvPacket_end, recvEnd, if_neg hfd, if_neg hsize, hrecv₂]
  simp only [hdecode, if_neg hequal, henv.chmods, if_true]
  by_cases hexec : c.out_exec ≠ 0
  · rw [if_pos hexec]
    simp only [PullClient.closed, if_pos hexec]
  · rw [if_neg hexec]
    simp only [PullClient.closed, if_neg hexec]

/-- The end of the download. -/
theorem pullRun_done {total : UInt8} {sock : Stream}
    (hsock : sock.rest = (doneHeader total).encode) :
    pullRun env c sock = (0, c) := by
  rw [FileEndHeader.encode] at hsock
  obtain ⟨sock₁, -, hstep⟩ := pullStep_serverHeader env c hsock
  have hdone : recvPacket env c (serverHeader RES_FILE_DONE sizeofFileEndHeader) sock₁
      = recvDone c (serverHeader RES_FILE_DONE sizeofFileEndHeader) :=
    (if_neg (by decide)).trans
      ((if_neg (by decide)).trans ((if_neg (by decide)).trans (if_pos rfl)))
  have hsize : ¬ (serverHeader RES_FILE_DONE sizeofFileEndHeader).header_size.toNat
      < sizeofCommonHeader := by decide
  refine pullRun_of_finish (hstep.trans (hdone.trans ?_))
  rw [recvDone, if_neg hsize]

end Packets

/-- The server hands the request of the client to `handle_file_pull`. -/
theorem receive_client_getFilesRequest (mkdtemp opened : Bool)
    (writes : ℕ → Option ℕ) (frag : ℕ → ℕ) :
    receive_client mkdtemp opened writes ⟨getFilesRequest.encode, frag⟩ =
      .pull getFilesRequest.student_id :=
  rfl

/-! ## Files -/

/-- From `c` to `c'`, the files have been received, and no other has been touched. -/
structure Delivered (files : List DirEnt) (c c' : PullClient) : Prop where
  files_done : c'.files_done = c.files_done + files.length
  present : ∀ file ∈ files, ∃ f, c'.dir (clientPath file) = some f ∧ f.content = file.content ∧
    (file.s_ixusr = true → f.mode = 0o755)
  others : ∀ path, (∀ file ∈ files, path ≠ clientPath file) → c'.dir path = c.dir path
  ops : ∃ new, c'.ops = c.ops ++ new ∧ ∀ op ∈ new, ∃ file ∈ files, op.path = clientPath file

theorem delivered_nil (c : PullClient) : Delivered [] c c :=
  ⟨rfl, by simp, fun _ _ => rfl, [], (List.append_nil _).symm, by simp⟩

/-- One file and then others under different names. -/
theorem Delivered.cons {file : DirEnt} {files : List DirEnt} {c c' c'' : PullClient}
    (h : Delivered [file] c c') (h' : Delivered files c' c'')
    (hdistinct : ∀ file' ∈ files, file.d_name ≠ file'.d_name) :
    Delivered (file :: files) c c'' := by
  obtain ⟨new, hnew, hpath⟩ := h.ops
  obtain ⟨new', hnew', hpath'⟩ := h'.ops
  refine ⟨?_, ?_, fun path hother => ?_, new ++ new', ?_, ?_⟩
  · rw [h'.files_done, h.files_done]
    simp only [List.length_cons, List.length_nil]
    omega
  · refine List.forall_mem_cons.mpr ⟨?_, h'.present⟩
    -- the later files go elsewhere
    have hkept := h'.others (clientPath file) fun file' hmem heq =>
      hdistinct file' hmem (clientPath_injective heq)
    rw [hkept]
    exact h.present file (List.mem_singleton_self _)
  · obtain ⟨hfile, hfiles⟩ := List.forall_mem_cons.mp hother
    rw [h'.others path hfiles]
    exact h.others path (by simpa using hfile)
  · rw [hnew', hnew, List.append_assoc]
  · intro op hop
    rcases List.mem_append.mp hop with hop | hop
    · obtain ⟨file', hmem, heq⟩ := hpath op hop
      obtain rfl := List.mem_singleton.mp hmem
      exact ⟨_, List.mem_cons_self, heq⟩
    · obtain ⟨file', hmem, heq⟩ := hpath' op hop
      exact ⟨file', List.mem_cons_of_mem _ hmem, heq⟩

/-- A file that has been opened, filled and closed is received. -/
theorem delivered_closed {umask : ℕ} {file : DirEnt} {c c' : PullClient}
    (h : Stored (clientPath file) file.content (c.opened umask file) c') :
    Delivered [file] c c'.closed := by
  have hpath : c'.out_path = clientPath file := h.out_path
  have hexec : c'.out_exec = if file.s_ixusr then 1 else 0 := h.out_exec
  obtain ⟨mode, hmode⟩ := c.dir.create_self umask (clientPath file)
  have hself : c'.dir (clientPath file) = some ⟨file.content, mode⟩ := by
    rw [h.dir]
    exact Dir.append_self hmode _
  have hother : ∀ path, path ≠ clientPath file → c'.dir path = c.dir path := by
    intro path hne
    rw [h.dir, Dir.append_of_ne hne]
    exact Dir.create_of_ne hne umask
  -- the count, the file, the other files and the operations
  refine ⟨?_, ?_, fun path hne => ?_, ?_⟩
  · show c'.files_done + 1 = _
    rw [h.files_done]
    rfl
  · obtain ⟨f, hf, hcontent, hmode'⟩ := closed_dir_self (hpath ▸ hself)
    refine List.forall_mem_singleton.mpr ⟨f, hpath ▸ hf, hcontent, fun hx => hmode' ?_⟩
    rw [hexec, if_pos hx]
    decide
  · have hpath' : path ≠ clientPath file := hne file (List.mem_singleton_self _)
    rw [closed_dir_of_ne (hpath ▸ hpath'), hother path hpath']
  · obtain ⟨new, hnew, hops⟩ := h.ops
    obtain ⟨new', hnew', hops'⟩ := closed_ops c'
    refine ⟨.create (clientPath file) :: (new ++ new'), ?_, ?_⟩
    · rw [hnew', hnew]
      simp only [PullClient.opened, List.append_assoc, List.cons_append, List.nil_append]
    · have hfile : ∀ op : FsOp, op.path = clientPath file →
          ∃ f ∈ [file], op.path = clientPath f :=
        fun op hop => ⟨file, List.mem_singleton_self _, hop⟩
      refine List.forall_mem_cons.mpr ⟨hfile _ rfl, fun op hop => hfile op ?_⟩
      rcases List.mem_append.mp hop with hop | hop
      · exact hops op hop
      · exact (hops' op hop).trans hpath

/-- **One file is a round trip.** -/
theorem takes_file {env : PullEnv} (henv : env.NoFailure) (c : PullClient) {file : DirEnt}
    (hfile : Servable file) {chunks : List Bytes} (hchunks : ChunksOf file.content chunks)
    (index total : UInt8) :
    ∃ c', Takes env c (filePackets file (collected file).1.bytes index total chunks) c' ∧
      Delivered [file] c c' := by
  obtain ⟨c₁, htakes, hstored⟩ := takes_chunks (c := c.opened env.umask file) henv
    hchunks.nonempty hchunks.fits rfl rfl 0
  rw [hchunks.flatten] at hstored
  have hfd : c₁.out_fd ≠ none := by
    rw [hstored.out_fd]
    exact Option.some_ne_none _
  have hend := takes_end henv hfd (congrArg (~~~ ·) hstored.crc_accum.symm)
  exact ⟨c₁.closed, (takes_meta hfile henv index total).append (htakes.append hend),
    delivered_closed hstored⟩

/-- **The files are a round trip.** -/
theorem takes_files {env : PullEnv} (henv : env.NoFailure) {files : List DirEnt}
    (hservable : ∀ file ∈ files, Servable file) (hdistinct : (files.map DirEnt.d_name).Nodup)
    {total : UInt8} {i : ℕ} {p : Bytes} (hp : PacketsOf total i (files.map collected) p)
    (c : PullClient) : ∃ c', Takes env c p c' ∧ Delivered files c c' := by
  induction files generalizing i p c with
  | nil =>
    cases hp
    exact ⟨c, takes_nil, delivered_nil c⟩
  | cons file files ih =>
    obtain ⟨hfile, hfiles⟩ := List.forall_mem_cons.mp hservable
    obtain ⟨hnew, hnodup⟩ := List.nodup_cons.mp hdistinct
    cases hp with
    | cons hchunks hrest =>
      obtain ⟨c₁, htakes₁, hdelivered₁⟩ := takes_file henv c hfile hchunks (.ofNat (i + 1)) total
      obtain ⟨c₂, htakes₂, hdelivered₂⟩ := ih hfiles hnodup hrest c₁
      refine ⟨c₂, htakes₁.append htakes₂, hdelivered₁.cons hdelivered₂ fun file' hmem heq => ?_⟩
      exact hnew (List.mem_map.mpr ⟨file', hmem, heq.symm⟩)

/-- **The download is a round trip.**  When no call fails on either side, `do_pull_mode`
fed with what `handle_file_pull` sends for a directory of 1 to `MAX_DIST_FILES` files returns
0 and has counted all files; each is in the directory of the client with the content it has
on the server, and executable when it is so there; and nothing else has changed or been
named in a call.  This holds for every way `read` cuts the files and `send` and `recv` cut
the stream. -/
theorem pull_round_trip (hw : HwState) {opendir : Bytes → Option (List DirEnt)}
    {ents : List DirEnt} (hopendir : opendir (distDir hw) = some ents)
    (hents : Distributable ents) {senv : ℕ → FileEnv} (hsenv : ∀ i, (senv i).NoFailure)
    {sends : ℕ → Option ℕ} (hsends : ∀ k, sends k ≠ none) {env : PullEnv} (henv : env.NoFailure)
    (dir : Dir) (frag : ℕ → ℕ) :
    ∃ c, do_pull_mode env dir ⟨(handle_file_pull hw opendir senv ⟨[], sends⟩).sent, frag⟩ = (0, c) ∧
      Delivered (listed ents) (.initial dir) c := by
  have hcollect : collect_files ents 0 = (listed ents).map collected :=
    collect_files_eq (by rw [Nat.zero_add]; exact hents.atMost)
  have hne : collect_files ents 0 ≠ [] := by
    rw [hcollect]
    exact fun hnil => hents.nonempty (List.map_eq_nil_iff.mp hnil)
  have hsize : ∀ f ∈ collect_files ents 0, f.2.content.length ≤ MAX_FILE_SIZE_BYTES := by
    rw [hcollect]
    exact List.forall_mem_map.mpr fun file hmem => (hents.servable file hmem).size
  obtain ⟨p, hp, hsent⟩ :=
    handle_file_pull_sends hopendir hne hsize hsenv (show Sink.Open ⟨[], sends⟩ from hsends)
  rw [hcollect] at hp
  obtain ⟨c, htakes, hdelivered⟩ :=
    takes_files henv hents.servable hents.distinct hp (.initial dir)
  rw [List.nil_append] at hsent
  obtain ⟨sock, hrest, hrun⟩ := htakes ⟨_, frag⟩ _ hsent
  refine ⟨c, ?_, hdelivered⟩
  -- connecting and sending the request go through
  have hrequest : Sink.Open ⟨[], env.sends⟩ := henv.sends
  obtain ⟨out, hwritten, -, -⟩ := Sink.writeAll_eq hrequest getFilesRequest.encode
  have hconnected : ¬ env.connected = false := by simp [henv.connected]
  rw [do_pull_mode, if_neg hconnected, hwritten]
  exact hrun.trans (pullRun_done hrest)

/-- A directory with a script, an empty file and two entries that are not sent. -/
def someEnts : List DirEnt :=
  [⟨ascii ".", false, true, []⟩, ⟨ascii "run.sh", true, true, ascii "gcc hello.c"⟩,
    ⟨ascii "old", false, true, []⟩, ⟨ascii "hello.c", true, false, []⟩]

theorem someEnts_distributable : Distributable someEnts := by
  refine ⟨by decide, by decide, by decide, fun file hmem => ?_⟩
  have hlisted : listed someEnts = [⟨ascii "run.sh", true, true, ascii "gcc hello.c"⟩,
      ⟨ascii "hello.c", true, false, []⟩] := rfl
  rw [hlisted] at hmem
  rcases List.mem_cons.mp hmem with rfl | hmem
  · exact ⟨by decide, by decide, by decide, by decide⟩
  · obtain rfl := List.mem_singleton.mp hmem
    exact ⟨by decide, by decide, by decide, by decide⟩

/-- The script is read byte by byte and arrives in one piece. -/
theorem pull_round_trip_two :
    ∃ c, do_pull_mode ⟨0o022, true, fun _ => some 7, fun _ => true, fun _ => true,
          fun _ _ => some 1, fun _ => true⟩ (fun _ => none)
        ⟨(handle_file_pull .initial (fun _ => some someEnts)
          (fun _ => ⟨true, true, true, fun _ => some 0⟩) ⟨[], fun _ => some 99⟩).sent,
          fun _ => 1000⟩ = (0, c) ∧
      Delivered (listed someEnts) (.initial fun _ => none) c := by
  have hsome : ∀ (n k : ℕ), (fun _ : ℕ => some n) k ≠ none := fun _ _ => Option.some_ne_none _
  exact pull_round_trip .initial rfl someEnts_distributable
    (fun _ => ⟨rfl, rfl, rfl, hsome 0⟩) (hsome 99)
    ⟨rfl, hsome 7, fun _ => rfl, fun _ => rfl, fun _ => hsome 1, fun _ => rfl⟩ _ _

end MiniCi
