/-
# Sending the files of the week (`handle_file_pull`)

The server opens the distribution directory of the current week, collects up to
`MAX_DIST_FILES` regular files whose names do not start with a dot, and sends each as a
`FileMetaHeader`, its bytes in chunks as `read` returns them, and a `FileEndHeader` with
their CRC; after the last file comes a `FileEndHeader` of type `RES_FILE_DONE`.  A failure
ends the download with a `FileErrorHeader`; but an error of `read` ends the file.

When nothing fails, it sends the packets of the files, for some way of cutting each into
chunks (`handle_file_pull_sends`).
-/
import MiniCi.ByteStream
import MiniCi.Crc
import MiniCi.ServerCtx

namespace MiniCi

open CStr ByteStream

/-! ## The directory and the environment -/

/-- An entry of the distribution directory.  `s_isreg` is false when `stat` fails, and
`s_ixusr` is the execute bit of the owner. -/
structure DirEnt where
  d_name : Bytes
  s_isreg : Bool
  s_ixusr : Bool
  content : Bytes
  deriving DecidableEq

/-- How the calls of `send_one_file` turn out.  `reads` says how many more than one the next
`read`s find, and `none` is an error. -/
structure FileEnv where
  opened : Bool
  fstat : Bool
  malloc : Bool
  reads : ℕ → Option ℕ

/-- No call fails. -/
structure FileEnv.NoFailure (env : FileEnv) : Prop where
  opened : env.opened = true
  fstat : env.fstat = true
  malloc : env.malloc = true
  reads : ∀ k, env.reads k ≠ none

/-! ## Headers -/

/-- The common header of a packet of the server. -/
def serverHeader (pkt_type : UInt8) (header_size : ℕ) : CommonHeader :=
  ⟨MAGIC_NUMBER, PROTO_VERSION, pkt_type, .ofNat header_size⟩

/-- `strncpy(dst, src, MAX_FILENAME - 1)` into an array whose last byte is a NUL. -/
def fileName (src : Bytes) : Buf MAX_FILENAME := Buf.ofStr (MAX_FILENAME - 1) src

@[simp] theorem str_fileName (src : Bytes) :
    (fileName src).str = (str src).take (MAX_FILENAME - 1) :=
  Buf.str_ofStr _ src

/-- The `FileMetaHeader` of a file. -/
def metaHeader (file : DirEnt) (filename : Bytes) (index total : UInt8) : FileMetaHeader :=
  { serverHeader RES_FILE_META sizeofFileMetaHeader with
    filename := fileName filename
    file_size := .ofNat file.content.length
    is_executable := if file.s_ixusr then 1 else 0
    file_index := index
    total_files := total }

/-- The `FileChunkHeader` of a chunk. -/
def chunkHeader (chunk : Bytes) (offset : UInt32) : FileChunkHeader :=
  { serverHeader RES_FILE_CHUNK sizeofFileChunkHeader with
    chunk_size := .ofNat chunk.length, offset }

/-- The `FileEndHeader` of a file. -/
def endHeader (checksum : UInt32) : FileEndHeader :=
  { serverHeader RES_FILE_END sizeofFileEndHeader with checksum, total_files := 0 }

/-- The `FileEndHeader` after the last file. -/
def doneHeader (total : UInt8) : FileEndHeader :=
  { serverHeader RES_FILE_DONE sizeofFileEndHeader with checksum := 0, total_files := total }

/-- The `FileErrorHeader` with a message. -/
def errorHeader (message : Bytes) : FileErrorHeader :=
  { serverHeader RES_FILE_ERROR sizeofFileErrorHeader with message := .ofStr 127 message }

/-! ## Sending -/

/-- `MAX_FILE_SIZE_BYTES`. -/
def MAX_FILE_SIZE_BYTES : ℕ := 100 * 1024 * 1024

/-- One round of the CRC loops of the server and the client. -/
def crcUpdate (crc : UInt32) (p : Bytes) : UInt32 := Crc.update 0xEDB88320 crc p

/-- The loop of `send_one_file` over the chunks, with `fuel` rounds at most: `send_ok`, the
CRC and the socket. -/
def send_chunks : ℕ → Bytes → (ℕ → Option ℕ) → UInt32 → UInt32 → Sink → Bool × UInt32 × Sink
  | 0, _, _, crc, _, sock => (true, crc, sock)
  | fuel + 1, rest, reads, crc, offset, sock =>
    match reads 0 with
    | none => (true, crc, sock)  -- `read` returns -1, and the loop ends as at the end of file
    | some more =>
      let chunk := rest.take (min FILE_CHUNK_SIZE (more + 1))
      if chunk = [] then (true, crc, sock)
      else
        let crc := crcUpdate crc chunk
        -- the chunk is in the CRC whether or not it can be sent
        match sock.writeAll (chunkHeader chunk offset).encode with
        | (false, sock) => (false, crc, sock)
        | (true, sock) =>
          match sock.writeAll chunk with
          | (false, sock) => (false, crc, sock)
          | (true, sock) =>
            send_chunks fuel (rest.drop chunk.length) (fun k => reads (k + 1)) crc
              (offset + .ofNat chunk.length) sock

/-- `send_one_file`; `false` for `-1`. -/
def send_one_file (file : DirEnt) (env : FileEnv) (filename : Bytes) (index total : UInt8)
    (sock : Sink) : Bool × Sink :=
  if env.opened = false then (false, sock)
  else if env.fstat = false then (false, sock)
  else if MAX_FILE_SIZE_BYTES < file.content.length then (false, sock)
  else
    match sock.writeAll (metaHeader file filename index total).encode with
    | (false, sock) => (false, sock)
    | (true, sock) =>
      if env.malloc = false then (false, sock)
      else
        match send_chunks file.content.length file.content env.reads 0xFFFFFFFF 0 sock with
        | (false, _, sock) => (false, sock)
        | (true, crc, sock) => sock.writeAll (endHeader (~~~crc)).encode

/-- `send_pull_error`. -/
def send_pull_error (sock : Sink) (message : Bytes) : Sink :=
  (sock.writeAll (errorHeader message).encode).2

/-- `dist_dir`. -/
def distDir (hw : HwState) : Bytes := snprintf 512 (DIST_ROOT ++ ascii "/" ++ hw.current_hw.str)

/-- The loop over `readdir`: the names and the files collected.  The path of an entry of
`dist_dir` always fits into `full`, so that it leads to this entry. -/
def collect_files : List DirEnt → ℕ → List (Buf MAX_FILENAME × DirEnt)
  | [], _ => []
  | ent :: ents, file_count =>
    if file_count < MAX_DIST_FILES then
      if ent.d_name.headD 0 = 46 then collect_files ents file_count
      else if ent.s_isreg = false then collect_files ents file_count
      else (fileName ent.d_name, ent) :: collect_files ents (file_count + 1)
    else []

/-- The loop of `handle_file_pull` over the files from the one with index `i` on; `false`
after an error packet. -/
def send_files (env : ℕ → FileEnv) (total : UInt8) :
    ℕ → List (Buf MAX_FILENAME × DirEnt) → Sink → Bool × Sink
  | _, [], sock => (true, sock)
  | i, (file_name, file) :: files, sock =>
    match send_one_file file (env i) file_name.bytes (.ofNat (i + 1)) total sock with
    | (true, sock) => send_files env total (i + 1) files sock
    | (false, sock) =>
      (false, send_pull_error sock
        (utf8 "파일 전송 실패: " ++ file_name.str.take (MAX_FILENAME - 1)))

/-- `handle_file_pull`: what becomes of the socket. -/
def handle_file_pull (hw : HwState) (opendir : Bytes → Option (List DirEnt))
    (env : ℕ → FileEnv) (sock : Sink) : Sink :=
  let dist_dir := distDir hw
  match opendir dist_dir with
  | none => send_pull_error sock
      (utf8 "배포 폴더 없음: " ++ dist_dir.take 80 ++ utf8 " (교수님께 문의)")
  | some ents =>
    let files := collect_files ents 0
    if files = [] then
      send_pull_error sock
        (utf8 "배포 파일 없음: " ++ dist_dir.take 80 ++ utf8 " (아직 업로드 전)")
    else
      match send_files env (.ofNat files.length) 0 files sock with
      | (false, sock) => sock
      | (true, sock) => (sock.writeAll (doneHeader (.ofNat files.length)).encode).2

/-! ## What is sent when nothing fails -/

/-- A file is cut into chunks that fit the buffer. -/
structure ChunksOf (content : Bytes) (chunks : List Bytes) : Prop where
  flatten : chunks.flatten = content
  nonempty : ∀ c ∈ chunks, c ≠ []
  fits : ∀ c ∈ chunks, c.length ≤ FILE_CHUNK_SIZE

/-- The packets of the chunks of a file from `offset` on. -/
def chunkPackets : UInt32 → List Bytes → Bytes
  | _, [] => []
  | offset, c :: cs =>
    (chunkHeader c offset).encode ++ (c ++ chunkPackets (offset + .ofNat c.length) cs)

/-- The packets of a file. -/
def filePackets (file : DirEnt) (filename : Bytes) (index total : UInt8) (chunks : List Bytes) :
    Bytes :=
  (metaHeader file filename index total).encode ++ (chunkPackets 0 chunks
    ++ (endHeader (~~~crcUpdate 0xFFFFFFFF file.content)).encode)

/-- A `read` before the end of the file returns a chunk of it. -/
theorem read_chunk {rest : Bytes} (hrest : rest ≠ []) (more : ℕ) :
    rest.take (min FILE_CHUNK_SIZE (more + 1)) ≠ [] ∧
      (rest.take (min FILE_CHUNK_SIZE (more + 1))).length ≤ FILE_CHUNK_SIZE ∧
      rest.take (min FILE_CHUNK_SIZE (more + 1))
        ++ rest.drop (rest.take (min FILE_CHUNK_SIZE (more + 1))).length = rest := by
  have hsize : FILE_CHUNK_SIZE = 65536 := rfl
  refine ⟨?_, ?_, List.prefix_iff_eq_append.mp (List.take_prefix _ _)⟩
  · rw [Ne, List.take_eq_nil_iff, not_or]
    exact ⟨by omega, hrest⟩
  · rw [List.length_take]
    omega

/-- The chunk loop sends the file in chunks and takes the CRC of all of it. -/
theorem send_chunks_eq {fuel : ℕ} {rest : Bytes} (hfuel : rest.length ≤ fuel)
    {reads : ℕ → Option ℕ} (hreads : ∀ k, reads k ≠ none) (crc offset : UInt32) {sock : Sink}
    (hsock : sock.Open) :
    ∃ chunks sock', ChunksOf rest chunks ∧
      send_chunks fuel rest reads crc offset sock = (true, crcUpdate crc rest, sock') ∧
      sock'.sent = sock.sent ++ chunkPackets offset chunks ∧ sock'.Open := by
  -- induction on the rounds left; a round takes at least one byte off the file
  induction fuel generalizing rest reads crc offset sock with
  | zero =>
    obtain rfl : rest = [] := List.length_eq_zero_iff.mp (by omega)
    exact ⟨[], sock, ⟨rfl, by simp, by simp⟩, rfl, (List.append_nil _).symm, hsock⟩
  | succ fuel ih =>
    obtain ⟨more, hmore⟩ := Option.ne_none_iff_exists'.mp (hreads 0)
    rw [send_chunks, hmore]
    by_cases hrest : rest = []
    · -- the end of the file
      subst hrest
      exact ⟨[], sock, ⟨rfl, by simp, by simp⟩, by simp [crcUpdate],
        (List.append_nil _).symm, hsock⟩
    · obtain ⟨hne, hfits, hcut⟩ := read_chunk hrest more
      simp only [if_neg hne]
      generalize rest.take (min FILE_CHUNK_SIZE (more + 1)) = chunk at hne hfits hcut
      obtain ⟨sock₁, hw₁, hsent₁, hopen₁⟩ :=
        Sink.writeAll_eq hsock (chunkHeader chunk offset).encode
      obtain ⟨sock₂, hw₂, hsent₂, hopen₂⟩ := Sink.writeAll_eq hopen₁ chunk
      have hle : (rest.drop chunk.length).length ≤ fuel := by
        have hpos : 0 < chunk.length := List.length_pos_iff.mpr hne
        rw [List.length_drop]
        omega
      obtain ⟨chunks, sock', hchunks, heq, hsent, hopen⟩ := ih hle (fun k => hreads (k + 1))
        (crcUpdate crc chunk) (offset + .ofNat chunk.length) hopen₂
      refine ⟨chunk :: chunks, sock', ⟨?_, ?_, ?_⟩, ?_, ?_, hopen⟩
      · rw [List.flatten_cons, hchunks.flatten, hcut]
      · exact List.forall_mem_cons.mpr ⟨hne, hchunks.nonempty⟩
      · exact List.forall_mem_cons.mpr ⟨hfits, hchunks.fits⟩
      · have hcrc : crcUpdate (crcUpdate crc chunk) (rest.drop chunk.length)
            = crcUpdate crc rest := by
          rw [crcUpdate, crcUpdate, ← Crc.update_append, hcut, crcUpdate]
        simp only [hw₁, hw₂, heq, hcrc]
      · rw [hsent, hsent₂, hsent₁, chunkPackets]
        simp only [List.append_assoc]

/-- **What `handle_file_pull` sends when nothing fails**, one file. -/
theorem send_one_file_eq {file : DirEnt} (hsize : file.content.length ≤ MAX_FILE_SIZE_BYTES)
    {env : FileEnv} (henv : env.NoFailure) (filename : Bytes) (index total : UInt8) {sock : Sink}
    (hsock : sock.Open) :
    ∃ chunks sock', ChunksOf file.content chunks ∧
      send_one_file file env filename index total sock = (true, sock') ∧
      sock'.sent = sock.sent ++ filePackets file filename index total chunks ∧ sock'.Open := by
  have hlimit : ¬ MAX_FILE_SIZE_BYTES < file.content.length := by omega
  obtain ⟨sock₁, hw₁, hsent₁, hopen₁⟩ :=
    Sink.writeAll_eq hsock (metaHeader file filename index total).encode
  obtain ⟨chunks, sock₂, hchunks, heq, hsent₂, hopen₂⟩ :=
    send_chunks_eq (Nat.le_refl _) henv.reads 0xFFFFFFFF 0 hopen₁
  obtain ⟨sock₃, hw₃, hsent₃, hopen₃⟩ :=
    Sink.writeAll_eq hopen₂ (endHeader (~~~crcUpdate 0xFFFFFFFF file.content)).encode
  refine ⟨chunks, sock₃, hchunks, ?_, ?_, hopen₃⟩
  · simp [send_one_file, henv.opened, henv.fstat, henv.malloc, hlimit, hw₁, heq, hw₃]
  · rw [hsent₃, hsent₂, hsent₁, filePackets]
    simp only [List.append_assoc]

/-- The packets of the files of a list, each cut into chunks in some way. -/
inductive PacketsOf (total : UInt8) : ℕ → List (Buf MAX_FILENAME × DirEnt) → Bytes → Prop where
  | nil (i : ℕ) : PacketsOf total i [] []
  | cons {i : ℕ} {file_name : Buf MAX_FILENAME} {file : DirEnt} {chunks : List Bytes}
      {files : List (Buf MAX_FILENAME × DirEnt)} {p : Bytes} :
      ChunksOf file.content chunks → PacketsOf total (i + 1) files p →
      PacketsOf total i ((file_name, file) :: files)
        (filePackets file file_name.bytes (.ofNat (i + 1)) total chunks ++ p)

/-- All files are sent one after the other. -/
theorem send_files_eq {files : List (Buf MAX_FILENAME × DirEnt)}
    (hsize : ∀ f ∈ files, f.2.content.length ≤ MAX_FILE_SIZE_BYTES) {env : ℕ → FileEnv}
    (henv : ∀ i, (env i).NoFailure) (total : UInt8) (i : ℕ) {sock : Sink} (hsock : sock.Open) :
    ∃ p sock', PacketsOf total i files p ∧ send_files env total i files sock = (true, sock') ∧
      sock'.sent = sock.sent ++ p ∧ sock'.Open := by
  induction files generalizing i sock with
  | nil => exact ⟨[], sock, .nil i, rfl, (List.append_nil _).symm, hsock⟩
  | cons f files ih =>
    obtain ⟨file_name, file⟩ := f
    obtain ⟨hfile, hfiles⟩ := List.forall_mem_cons.mp hsize
    obtain ⟨chunks, sock₁, hchunks, heq₁, hsent₁, hopen₁⟩ :=
      send_one_file_eq hfile (henv i) file_name.bytes (.ofNat (i + 1)) total hsock
    obtain ⟨p, sock₂, hp, heq₂, hsent₂, hopen₂⟩ := ih hfiles (i + 1) hopen₁
    refine ⟨_, sock₂, .cons hchunks hp, ?_, ?_, hopen₂⟩
    · rw [send_files, heq₁]
      exact heq₂
    · rw [hsent₂, hsent₁, List.append_assoc]

/-- **What `handle_file_pull` sends when nothing fails**: the packets of the files it has
collected, and that there are no more. -/
theorem handle_file_pull_sends {hw : HwState} {opendir : Bytes → Option (List DirEnt)}
    {ents : List DirEnt} (hopendir : opendir (distDir hw) = some ents)
    (hne : collect_files ents 0 ≠ [])
    (hsize : ∀ f ∈ collect_files ents 0, f.2.content.length ≤ MAX_FILE_SIZE_BYTES)
    {env : ℕ → FileEnv} (henv : ∀ i, (env i).NoFailure) {sock : Sink} (hsock : sock.Open) :
    ∃ p, PacketsOf (.ofNat (collect_files ents 0).length) 0 (collect_files ents 0) p ∧
      (handle_file_pull hw opendir env sock).sent
        = sock.sent ++ (p ++ (doneHeader (.ofNat (collect_files ents 0).length)).encode) := by
  obtain ⟨p, sock₁, hp, heq, hsent₁, hopen₁⟩ :=
    send_files_eq hsize henv (.ofNat (collect_files ents 0).length) 0 hsock
  obtain ⟨sock₂, hw₂, hsent₂, -⟩ :=
    Sink.writeAll_eq hopen₁ (doneHeader (.ofNat (collect_files ents 0).length)).encode
  refine ⟨p, hp, ?_⟩
  rw [handle_file_pull, hopendir]
  simp only [if_neg hne, heq, hw₂]
  rw [hsent₂, hsent₁, List.append_assoc]

end MiniCi
