/-
# Receiving the files of the week (`do_pull_mode`)

The client asks for the files and takes packets until it returns: a `FileMetaHeader` opens
the file it names in the current directory, a `FileChunkHeader` is followed by bytes for the
open file, a `FileEndHeader` closes it and compares the CRC, and `RES_FILE_DONE` and
`RES_FILE_ERROR` end the download with 0 and 1.  Whatever else arrives ends it with 1, and
what is open then is removed.

A round of the loop takes at least the eight bytes of a common header, so the loop ends
(`pullStep_next_length`), and how many rounds it is given beyond that makes no difference
(`pullRun_of_next`).
-/
import MiniCi.ByteStream
import MiniCi.Crc
import MiniCi.Protocol
import Mathlib.Logic.Function.Basic

namespace MiniCi

open CStr ByteStream

/-! ## The current directory -/

/-- A file. -/
structure DirFile where
  content : Bytes
  mode : ℕ
  deriving DecidableEq

/-- The files, by the path the client names them by. -/
abbrev Dir := Bytes → Option DirFile

/-- The calls that name a file, or write to one. -/
inductive FsOp where
  | create (path : Bytes)
  | write (path data : Bytes)
  | chmod (path : Bytes) (mode : ℕ)
  | unlink (path : Bytes)
  deriving DecidableEq

/-- The file an operation is about. -/
def FsOp.path : FsOp → Bytes
  | .create path => path
  | .write path _ => path
  | .chmod path _ => path
  | .unlink path => path

/-- `open(path, O_WRONLY | O_CREAT | O_TRUNC, 0644)`. -/
def Dir.create (dir : Dir) (umask : ℕ) (path : Bytes) : Dir :=
  Function.update dir path (some
    { content := []
      mode := match dir path with
        | some f => f.mode
        | none => 0o644 &&& (0o777 ^^^ umask) })

/-- `write` at the end of a file. -/
def Dir.append (dir : Dir) (path data : Bytes) : Dir :=
  Function.update dir path ((dir path).map fun f => { f with content := f.content ++ data })

/-- `chmod`. -/
def Dir.chmod (dir : Dir) (path : Bytes) (mode : ℕ) : Dir :=
  Function.update dir path ((dir path).map fun f => { f with mode })

/-- `unlink`, of a file that the client has opened: its directory lets it remove what it writes
there, which is assumed throughout. -/
def Dir.unlink (dir : Dir) (path : Bytes) : Dir := Function.update dir path none

section Dir

variable {dir : Dir} {path path' : Bytes}

theorem Dir.create_self (dir : Dir) (umask : ℕ) (path : Bytes) :
    ∃ mode, dir.create umask path path = some ⟨[], mode⟩ :=
  ⟨_, Function.update_self _ _ _⟩

theorem Dir.create_of_ne (h : path' ≠ path) (umask : ℕ) :
    dir.create umask path path' = dir path' :=
  Function.update_of_ne h _ _

theorem Dir.append_self {f : DirFile} (h : dir path = some f) (data : Bytes) :
    dir.append path data path = some { f with content := f.content ++ data } := by
  rw [Dir.append, Function.update_self, h]
  rfl

theorem Dir.append_of_ne (h : path' ≠ path) (data : Bytes) :
    dir.append path data path' = dir path' :=
  Function.update_of_ne h _ _

/-- Appending nothing. -/
theorem Dir.append_nil (dir : Dir) (path : Bytes) : dir.append path [] = dir := by
  simp [Dir.append]

/-- Appending twice is appending once. -/
theorem Dir.append_append (dir : Dir) (path p q : Bytes) :
    (dir.append path p).append path q = dir.append path (p ++ q) := by
  simp [Dir.append, Option.map_map, Function.comp_def]

theorem Dir.chmod_self {f : DirFile} (h : dir path = some f) (mode : ℕ) :
    dir.chmod path mode path = some { f with mode } := by
  rw [Dir.chmod, Function.update_self, h]
  rfl

theorem Dir.chmod_of_ne (h : path' ≠ path) (mode : ℕ) : dir.chmod path mode path' = dir path' :=
  Function.update_of_ne h _ _

end Dir

/-- How the calls of `do_pull_mode` turn out: making the connection, the `send`s of the
request and, by the number of file operations before, `open`, `malloc`, the `write`s of a
chunk and `chmod`.  `unlink` is assumed to succeed (`Dir.unlink`). -/
structure PullEnv where
  umask : ℕ
  connected : Bool
  sends : ℕ → Option ℕ
  opens : ℕ → Bool
  mallocs : ℕ → Bool
  writes : ℕ → ℕ → Option ℕ
  chmods : ℕ → Bool

/-- No call fails. -/
structure PullEnv.NoFailure (env : PullEnv) : Prop where
  connected : env.connected = true
  sends : ∀ k, env.sends k ≠ none
  opens : ∀ k, env.opens k = true
  mallocs : ∀ k, env.mallocs k = true
  writes : ∀ i k, env.writes i k ≠ none
  chmods : ∀ k, env.chmods k = true

/-! ## The state of the client -/

/-- `PullState`. -/
inductive PullState where
  | PULL_STATE_WAIT_META
  | PULL_STATE_WAIT_CHUNK
  deriving DecidableEq

export PullState (PULL_STATE_WAIT_META PULL_STATE_WAIT_CHUNK)

/-- The local variables of `do_pull_mode`, the files, and the operations so far.  `out_fd` is
the file the descriptor is open on, `none` for `-1`. -/
structure PullClient where
  state : PullState
  out_fd : Option Bytes
  out_path : Bytes
  out_exec : UInt8
  crc_accum : UInt32
  files_done : ℕ
  dir : Dir
  ops : List FsOp

/-- The client before the first packet. -/
def PullClient.initial (dir : Dir) : PullClient :=
  { state := PULL_STATE_WAIT_META, out_fd := none, out_path := [], out_exec := 0
    crc_accum := 0xFFFFFFFF, files_done := 0, dir, ops := [] }

/-- `if (out_fd >= 0) { close(out_fd); unlink(out_path); }`. -/
def PullClient.discard (c : PullClient) : PullClient :=
  match c.out_fd with
  | none => c
  | some _ =>
    { c with out_fd := none, dir := c.dir.unlink c.out_path
             ops := c.ops ++ [.unlink c.out_path] }

/-- What one round of the loop comes to. -/
inductive PullStep where
  | next (c : PullClient) (sock : Stream)
  | finish (code : ℕ) (c : PullClient)

/-- `goto recv_error`. -/
def PullClient.recv_error (c : PullClient) : PullStep := .finish 1 c.discard

/-! ## The packets -/

/-- `is_safe_filename`. -/
def is_safe_filename (name : Bytes) : Bool :=
  if name.headD 0 = 0 then false
  else if 47 ∈ str name then false
  else if 92 ∈ str name then false
  else if str name = ascii ".." then false
  else if strncmp name (ascii "../") 3 = 0 then false
  else if ascii "/../" <:+: str name then false
  else if ascii "\\..\\" <:+: str name then false
  else true

/-- `RES_FILE_META`.  The last byte of `meta.filename` is overwritten by a NUL. -/
def recvMeta (env : PullEnv) (c : PullClient) (ch : CommonHeader) (sock : Stream) : PullStep :=
  if ch.header_size.toNat ≠ sizeofFileMetaHeader then c.recv_error
  else
    match sock.recvAll (sizeofFileMetaHeader - sizeofCommonHeader) with
    | none => c.recv_error
    | some (p, sock) =>
      let hdr := FileMetaHeader.decode ch p
      let filename := str (hdr.filename.bytes.take (MAX_FILENAME - 1))
      if is_safe_filename filename = false then c.recv_error
      else
        let path := ascii "./" ++ filename
        -- the state is not looked at: an open file is left open
        let c := { c with out_exec := hdr.is_executable, out_path := snprintf 512 path }
        if 512 ≤ path.length then c.recv_error
        else
          let opened := env.opens c.ops.length
          let c := { c with ops := c.ops ++ [FsOp.create c.out_path] }
          if opened = false then { c with out_fd := none }.recv_error
          else
            .next { c with
              state := PULL_STATE_WAIT_CHUNK, out_fd := some c.out_path, crc_accum := 0xFFFFFFFF
              dir := c.dir.create env.umask c.out_path } sock

/-- Take the bytes of a chunk into the CRC and write them to the open file; `false` when a
`write` fails. -/
def storeChunk (env : PullEnv) (c : PullClient) (path buf : Bytes) : Bool × PullClient :=
  let (written, out) := Sink.writeAll ⟨[], env.writes c.ops.length⟩ buf
  (written, { c with
    crc_accum := Crc.update 0xEDB88320 c.crc_accum buf
    dir := c.dir.append path out.sent, ops := c.ops ++ [.write path out.sent] })

/-- `RES_FILE_CHUNK`. -/
def recvChunk (env : PullEnv) (c : PullClient) (ch : CommonHeader) (sock : Stream) : PullStep :=
  match c.state, c.out_fd with
  | PULL_STATE_WAIT_CHUNK, some path =>
    if ch.header_size.toNat ≠ sizeofFileChunkHeader then c.recv_error
    else
      match sock.recvAll (sizeofFileChunkHeader - sizeofCommonHeader) with
      | none => c.recv_error
      | some (p, sock) =>
        let csz := (FileChunkHeader.decode ch p).chunk_size.toNat
        if csz = 0 ∨ FILE_CHUNK_SIZE * 2 < csz then c.recv_error
        else if env.mallocs c.ops.length = false then c.recv_error
        else
          match sock.recvAll csz with
          | none => c.recv_error
          | some (buf, sock) =>
            match storeChunk env c path buf with
            | (false, c) => c.recv_error
            | (true, c) => .next c sock
  | _, _ => c.recv_error

/-- `RES_FILE_END`. -/
def recvEnd (env : PullEnv) (c : PullClient) (ch : CommonHeader) (sock : Stream) : PullStep :=
  if c.out_fd = none then c.recv_error
  else if ch.header_size.toNat ≠ sizeofFileEndHeader then c.recv_error
  else
    match sock.recvAll (sizeofFileEndHeader - sizeofCommonHeader) with
    | none => c.recv_error
    | some (p, sock) =>
      let c := { c with out_fd := none, state := PULL_STATE_WAIT_META }
      if (FileEndHeader.decode ch p).checksum ≠ ~~~c.crc_accum then
        -- a damaged file is removed, and the download goes on
        .next { c with dir := c.dir.unlink c.out_path, ops := c.ops ++ [.unlink c.out_path] } sock
      else
        let c := { c with files_done := c.files_done + 1 }
        if c.out_exec ≠ 0 then
          .next { c with
            dir := if env.chmods c.ops.length then c.dir.chmod c.out_path 0o755 else c.dir
            ops := c.ops ++ [.chmod c.out_path 0o755] } sock
        else .next c sock

/-- `RES_FILE_DONE`.  What follows the common header is not looked at. -/
def recvDone (c : PullClient) (ch : CommonHeader) : PullStep :=
  if ch.header_size.toNat < sizeofCommonHeader then c.recv_error else .finish 0 c

/-- `RES_FILE_ERROR`.  The message is only printed. -/
def recvFileError (c : PullClient) (ch : CommonHeader) : PullStep :=
  if ch.header_size.toNat ≠ sizeofFileErrorHeader then c.recv_error else .finish 1 c.discard

/-- The `switch` over the packet types. -/
def recvPacket (env : PullEnv) (c : PullClient) (ch : CommonHeader) (sock : Stream) : PullStep :=
  if ch.pkt_type = RES_FILE_META then recvMeta env c ch sock
  else if ch.pkt_type = RES_FILE_CHUNK then recvChunk env c ch sock
  else if ch.pkt_type = RES_FILE_END then recvEnd env c ch sock
  else if ch.pkt_type = RES_FILE_DONE then recvDone c ch
  else if ch.pkt_type = RES_FILE_ERROR then recvFileError c ch
  else c.recv_error

/-- `recv_common_header`. -/
def recv_common_header (sock : Stream) : Option (CommonHeader × Stream) :=
  match sock.recvAll sizeofCommonHeader with
  | none => none
  | some (p, sock) =>
    let ch := CommonHeader.decode p
    if ch.magic ≠ MAGIC_NUMBER then none else some (ch, sock)

/-- One round of the loop. -/
def pullStep (env : PullEnv) (c : PullClient) (sock : Stream) : PullStep :=
  match recv_common_header sock with
  | none => c.recv_error
  | some (ch, sock) => recvPacket env c ch sock

/-- The receive loop, with `fuel` rounds at most, and what it returns. -/
def pullLoop (env : PullEnv) : ℕ → PullClient → Stream → ℕ × PullClient
  | 0, c, _ => (1, c.discard)
  | fuel + 1, c, sock =>
    match pullStep env c sock with
    | .next c sock => pullLoop env fuel c sock
    | .finish code c => (code, c)

/-- The receive loop: no round without a byte. -/
def pullRun (env : PullEnv) (c : PullClient) (sock : Stream) : ℕ × PullClient :=
  pullLoop env sock.rest.length c sock

/-- The request of the client. -/
def getFilesRequest : GetFilesHeader :=
  { magic := MAGIC_NUMBER, version := PROTO_VERSION, pkt_type := PKT_GET_FILES
    header_size := .ofNat sizeofGetFilesHeader
    student_id := .ofStr (MAX_STUDENT_ID - 1) (ascii "anonymous") }

/-- `do_pull_mode` in a directory, with what the server sends: the code returned and the
client then. -/
def do_pull_mode (env : PullEnv) (dir : Dir) (sock : Stream) : ℕ × PullClient :=
  if env.connected = false then (1, .initial dir)
  else
    match Sink.writeAll ⟨[], env.sends⟩ getFilesRequest.encode with
    | (false, _) => (1, .initial dir)
    | (true, _) => pullRun env (.initial dir) sock

/-! ## The loop ends -/

section Loop

variable {env : PullEnv} {c c' : PullClient} {ch : CommonHeader} {sock sock' : Stream}

/-- Receiving takes the bytes received off the stream. -/
theorem length_rest_recvAll {len : ℕ} {p : Bytes} (h : sock.recvAll len = some (p, sock')) :
    sock'.rest.length + len = sock.rest.length := by
  obtain ⟨hlen, hrest⟩ := Stream.recvAll_eq_some h
  rw [hrest, List.length_append, hlen, Nat.add_comm]

theorem recvMeta_next_length (h : recvMeta env c ch sock = .next c' sock') :
    sock'.rest.length ≤ sock.rest.length := by
  unfold recvMeta at h
  split_ifs at h
  · cases h
  · split at h
    · cases h
    · rename_i hrecv
      have hlen := length_rest_recvAll hrecv
      simp only at h
      split_ifs at h
      all_goals cases h
      omega

theorem recvChunk_next_length (h : recvChunk env c ch sock = .next c' sock') :
    sock'.rest.length ≤ sock.rest.length := by
  unfold recvChunk at h
  split at h
  · split at h
    · cases h
    · split at h
      · cases h
      · rename_i hrecv
        have hlen := length_rest_recvAll hrecv
        simp only at h
        split at h
        · cases h
        · split at h
          · cases h
          · split at h
            · cases h
            · rename_i hbuf
              have hlen' := length_rest_recvAll hbuf
              split at h
              · cases h
              · cases h
                omega
  · cases h

theorem recvEnd_next_length (h : recvEnd env c ch sock = .next c' sock') :
    sock'.rest.length ≤ sock.rest.length := by
  unfold recvEnd at h
  split_ifs at h
  · cases h
  · cases h
  · split at h
    · cases h
    · rename_i hrecv
      have hlen := length_rest_recvAll hrecv
      simp only at h
      split_ifs at h
      all_goals
        cases h
        omega

theorem length_rest_recv_common_header (h : recv_common_header sock = some (ch, sock')) :
    sock'.rest.length + sizeofCommonHeader = sock.rest.length := by
  unfold recv_common_header at h
  split at h
  · cases h
  · rename_i hrecv
    simp only at h
    split_ifs at h
    cases h
    exact length_rest_recvAll hrecv

theorem recvPacket_next_length (h : recvPacket env c ch sock = .next c' sock') :
    sock'.rest.length ≤ sock.rest.length := by
  unfold recvPacket at h
  split_ifs at h
  · exact recvMeta_next_length h
  · exact recvChunk_next_length h
  · exact recvEnd_next_length h
  · unfold recvDone at h
    split_ifs at h
    all_goals cases h
  · unfold recvFileError at h
    split_ifs at h
    all_goals cases h
  · cases h

/-- **A round that goes on has taken at least a common header.** -/
theorem pullStep_next_length (h : pullStep env c sock = .next c' sock') :
    sock'.rest.length + sizeofCommonHeader ≤ sock.rest.length := by
  unfold pullStep at h
  split at h
  · cases h
  · rename_i hrecv
    have hlen := length_rest_recv_common_header hrecv
    have hle := recvPacket_next_length h
    omega

/-- Without a byte to come, the loop ends with an error. -/
theorem pullStep_of_rest_nil (hrest : sock.rest = []) : pullStep env c sock = c.recv_error := by
  have hnone : recv_common_header sock = none := by
    by_contra hne
    obtain ⟨⟨ch, sock'⟩, hsome⟩ := Option.ne_none_iff_exists'.mp hne
    have hlen := length_rest_recv_common_header hsome
    rw [hrest] at hlen
    exact absurd hlen (by simp [sizeofCommonHeader])
  rw [pullStep, hnone]

/-- More rounds than there are bytes to come make no difference. -/
theorem pullLoop_eq_pullRun {fuel : ℕ} (hfuel : sock.rest.length ≤ fuel) :
    pullLoop env fuel c sock = pullRun env c sock := by
  unfold pullRun
  generalize hn : sock.rest.length = n at hfuel
  -- induction on the bytes to come, of which each round takes some
  induction n using Nat.strong_induction_on generalizing fuel c sock with
  | _ n ih =>
    cases fuel with
    | zero =>
      obtain rfl : n = 0 := by omega
      rfl
    | succ fuel =>
      cases n with
      | zero =>
        simp only [pullLoop, pullStep_of_rest_nil (List.length_eq_zero_iff.mp hn),
          PullClient.recv_error]
      | succ n =>
        rw [pullLoop, pullLoop]
        cases hstep : pullStep env c sock with
        | finish code c' => rfl
        | next c' sock' =>
          have hlen := pullStep_next_length hstep
          have hsize : sizeofCommonHeader = 8 := rfl
          -- both loops go on with fewer bytes to come than rounds left
          show pullLoop env fuel c' sock' = pullLoop env n c' sock'
          have hlt : sock'.rest.length < n + 1 := by omega
          exact (ih _ hlt rfl (by omega)).trans (ih _ hlt rfl (by omega)).symm

/-- A round of the loop. -/
theorem pullRun_of_next (h : pullStep env c sock = .next c' sock') :
    pullRun env c sock = pullRun env c' sock' := by
  have hlen := pullStep_next_length h
  have hloop : pullLoop env (sock.rest.length + 1) c sock
      = pullLoop env sock.rest.length c' sock' := by
    rw [pullLoop, h]
  rw [← pullLoop_eq_pullRun (Nat.le_succ _), hloop, pullLoop_eq_pullRun (by omega)]

/-- The last round of the loop. -/
theorem pullRun_of_finish {code : ℕ} (h : pullStep env c sock = .finish code c') :
    pullRun env c sock = (code, c') := by
  rw [← pullLoop_eq_pullRun (Nat.le_succ _), pullLoop, h]

end Loop

end MiniCi
