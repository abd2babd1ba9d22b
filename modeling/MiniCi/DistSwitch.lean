/-
# The distribution switch (`CMD_TOGGLE_DIST`)

`CMD_TOGGLE_DIST` turns `dist_paused` over and replies that the distribution is blocked or
allowed.  Nothing else looks at the variable: `handle_client` hands every request for files to
`handle_file_pull`.

Any number of workers handle requests while the main thread carries out commands.  A request that
finds the distribution blocked is answered without files only if there are none, if the first one
cannot be opened, or if not even the type of the first packet gets out (`honoursSwitch_iff`).
-/
import MiniCi.ContextRuns
import MiniCi.PullFailure
import MiniCi.History

namespace MiniCi

open CStr ByteStream Runs

/-! ## The system -/

/-- Where a worker is: `handle_client` has been called; a request for files has been received, and
`handle_file_pull` called; it has made `dist_dir`, of the week that the server was on. -/
inductive PullWorker where
  | called
  | received
  | located (hw : HwState)

/-- The context and the workers. -/
structure DistServer where
  ctx : ControlContext
  workers : ℕ → Option PullWorker

/-- A command or a lock section of a worker with a submission, or a step of a worker with a request
for files.  The answer is one step, since nothing of the context is looked at while it is sent. -/
inductive DistAction where
  | context (a : ContextAction)
  | call (worker : ℕ)
  | receive (worker : ℕ) (mkdtemp opened : Bool) (writes : ℕ → Option ℕ) (sock : Stream)
  | locate (worker : ℕ)
  | answer (worker : ℕ) (opendir : Bytes → Option (List DirEnt)) (env : ℕ → FileEnv)
    (sends : ℕ → Option ℕ)

/-- The server with a worker in another place. -/
def DistServer.set (s : DistServer) (worker : ℕ) (w : Option PullWorker) : DistServer :=
  { s with workers := Function.update s.workers worker w }

/-- The server behind an action; `none` if the worker is somewhere else. -/
def distStep (s : DistServer) : DistAction → Option DistServer
  | .context a => (contextStep s.ctx a).map fun ctx => { s with ctx }
  | .call worker =>
    match s.workers worker with
    | none => some (s.set worker (some .called))
    | some _ => none
  | .receive worker mkdtemp opened writes sock =>
    match s.workers worker with
    | some .called =>
      match receive_client mkdtemp opened writes sock with
      | .pull _ => some (s.set worker (some .received))
      | _ => some (s.set worker none)  -- no request for files
    | _ => none
  | .locate worker =>
    match s.workers worker with
    | some .received => some (s.set worker (some (.located s.ctx.hw)))
    | _ => none
  | .answer worker _ _ _ =>
    match s.workers worker with
    | some (.located _) => some (s.set worker none)
    | _ => none

/-- The server has just been started. -/
def DistServer.start (env : SetHwEnv) (disk : Disk) (dirs : Dirs) : DistServer :=
  { ctx := ctx_init env disk dirs, workers := fun _ => none }

/-! ## Requests and their answers -/

/-- A request for files: the worker, the state in which `handle_client` is called for it, what
happens from then on, and what `handle_file_pull` finds. -/
structure PullRequest where
  worker : ℕ
  start : DistServer
  mid : List DistAction
  hw : HwState
  opendir : Bytes → Option (List DirEnt)
  env : ℕ → FileEnv
  sends : ℕ → Option ℕ

/-- The run handles the request. -/
def HandledIn (s₀ : DistServer) (run : List DistAction) (r : PullRequest) : Prop :=
  ∃ pre post s,
    run = pre ++ .call r.worker :: (r.mid ++ .answer r.worker r.opendir r.env r.sends :: post) ∧
    .call r.worker ∉ r.mid ∧ exec distStep s₀ pre = some r.start ∧
    exec distStep r.start (.call r.worker :: r.mid) = some s ∧
    s.workers r.worker = some (.located r.hw)

/-- The files that there are to send. -/
def PullRequest.files (r : PullRequest) : List DistFile := distFiles r.hw r.opendir

/-- The connection, before anything has been sent. -/
def PullRequest.sock (r : PullRequest) : Sink := ⟨[], r.sends⟩

/-- What is sent. -/
def PullRequest.answer (r : PullRequest) : Bytes :=
  (handle_file_pull r.hw r.opendir r.env r.sock).sent

/-- `offsetof(CommonHeader, header_size)`: the bytes up to the type of a packet. -/
def offsetofHeaderSize : ℕ := 6

/-- Behind packets of files in the bytes, a packet of type `t` begins. -/
def HoldsPacket (t : UInt8) (p : Bytes) : Prop :=
  ∃ es q, Parses p es q ∧ q.take 4 = Wire.be32 MAGIC_NUMBER ∧ q[5]? = some t

/-- No packet of the bytes brings a file, or says that all files have been brought. -/
def WithoutFiles (p : Bytes) : Prop :=
  ∀ t ∈ [RES_FILE_META, RES_FILE_CHUNK, RES_FILE_DONE], ¬ HoldsPacket t p

/-- If there are files and nothing fails, they are sent. -/
def Served (r : PullRequest) : Prop :=
  r.files ≠ [] → (∀ f ∈ r.files, f.2.content.length ≤ MAX_FILE_SIZE_BYTES) →
    (∀ i, (r.env i).NoFailure) → r.sock.Open →
    ∃ p, PacketsOf (.ofNat r.files.length) 0 r.files p ∧
      r.answer = p ++ (doneHeader (.ofNat r.files.length)).encode

/-- A request that is taken up while the distribution is blocked is answered without files, and one
that is handled while it is allowed is served. -/
structure HonoursSwitch (s₀ : DistServer) (run : List DistAction) : Prop where
  blocked : ∀ r, HandledIn s₀ run r → r.start.ctx.dist_paused = 1 → WithoutFiles r.answer
  allowed : ∀ r, HandledIn s₀ run r →
    Always distStep (fun s => s.ctx.dist_paused = 0) r.start (.call r.worker :: r.mid) → Served r

/-! ## The condition -/

/-- `send_one_file` gets to its `RES_FILE_META`. -/
structure FileOpens (file : DirEnt) (env : FileEnv) : Prop where
  opened : env.opened = true
  fstat : env.fstat = true
  size : file.content.length ≤ MAX_FILE_SIZE_BYTES

/-- There is a file, the first one can be opened, and its `RES_FILE_META` can be sent up to the type
of the packet. -/
def FirstMetaGoesOut (files : List DistFile) (env : ℕ → FileEnv) (sock : Sink) : Prop :=
  ∃ f ∈ files.head?, FileOpens f.2 (env 0) ∧
    (sock.writeAll ((metaHeader f.2 f.1.bytes (.ofNat 1) (.ofNat files.length)).encode.take
      offsetofHeaderSize)).1 = true

/-- A request that is taken up while the distribution is blocked finds nothing to send, or nothing
that can be sent. -/
def BlockedFindsNothing (s₀ : DistServer) (run : List DistAction) : Prop :=
  ∀ r, HandledIn s₀ run r → r.start.ctx.dist_paused = 1 →
    ¬ FirstMetaGoesOut r.files r.env r.sock

/-! ## The first packet -/

section

variable {p q : Bytes} {t : UInt8}

/-- The type of a packet of a file is its sixth byte. -/
theorem type_of_parsePacket {e : PullPacket} (h : parsePacket p = some (e, q)) :
    p[5]? = some RES_FILE_META ∨ p[5]? = some RES_FILE_CHUNK ∨ p[5]? = some RES_FILE_END := by
  obtain ⟨hlen, -, htype⟩ := ofFile_of_parsePacket h
  have h8 : sizeofCommonHeader = 8 := rfl
  have hlt : 5 < p.length := by omega
  have hfive : (CommonHeader.decode (p.take sizeofCommonHeader)).pkt_type = p[5] := by
    show (p.take 8).getD 5 0 = p[5]
    rw [List.getD_eq_getElem?_getD, List.getElem?_take_of_lt (by decide),
      List.getElem?_eq_getElem hlt]
    rfl
  rw [hfive] at htype
  rw [List.getElem?_eq_getElem hlt]
  rcases htype with ⟨hmeta, -⟩ | ⟨hchunk, -⟩ | ⟨hend, -⟩
  · exact Or.inl (congrArg some hmeta)
  · exact Or.inr (Or.inl (congrArg some hchunk))
  · exact Or.inr (Or.inr (congrArg some hend))

/-- Bytes that begin like a `RES_FILE_META`. -/
theorem holdsPacket_meta (file : DirEnt) (filename : Bytes) (index total : UInt8) (r : Bytes) :
    HoldsPacket RES_FILE_META
      ((metaHeader file filename index total).encode.take offsetofHeaderSize ++ r) :=
  ⟨[], _, .nil _, rfl, rfl⟩

/-- The first six bytes of a `RES_FILE_ERROR`. -/
theorem mem_of_errorBytes {message : Bytes} {m i : ℕ} (hi : i < offsetofHeaderSize)
    (h : (errorBytes message m)[i]? = some t) :
    t ∈ Wire.be32 MAGIC_NUMBER ++ [PROTO_VERSION, RES_FILE_ERROR] := by
  have hfirst : (errorHeader message).encode.take offsetofHeaderSize
      = Wire.be32 MAGIC_NUMBER ++ [PROTO_VERSION, RES_FILE_ERROR] := rfl
  rw [errorBytes, List.getElem?_take] at h
  split_ifs at h
  rw [← List.getElem?_take_of_lt hi, hfirst] at h
  exact List.mem_of_getElem? h

/-- Bytes that end before the type of a packet, and then a `RES_FILE_ERROR`. -/
theorem withoutFiles_of_short (hp : p.length < offsetofHeaderSize) (message : Bytes) (m : ℕ) :
    WithoutFiles (p ++ errorBytes message m) := by
  have hsix : offsetofHeaderSize = 6 := rfl
  have hfile : ∀ t ∈ [RES_FILE_META, RES_FILE_CHUNK, RES_FILE_DONE],
      t ∉ Wire.be32 MAGIC_NUMBER ++ [PROTO_VERSION, RES_FILE_ERROR] := by decide +kernel
  have htype : ∀ t, (p ++ errorBytes message m)[5]? = some t →
      t ∈ Wire.be32 MAGIC_NUMBER ++ [PROTO_VERSION, RES_FILE_ERROR] := by
    intro t ht
    rw [List.getElem?_append_right (by omega)] at ht
    exact mem_of_errorBytes (by omega) ht
  rintro t ht ⟨es, q, hparses, -, hq⟩
  cases hparses with
  | nil => exact hfile t ht (htype t hq)
  | cons hparse _ =>
    rcases type_of_parsePacket hparse with h | h | h <;> exact absurd (htype _ h) (by decide)

end

/-! ## What `handle_file_pull` begins with -/

section

variable {file : DirEnt} {filename : Bytes} {index total : UInt8} {sock sock₁ : Sink}

/-- A file that cannot be opened. -/
theorem send_one_file_of_not_opens {env : FileEnv} (h : ¬ FileOpens file env) :
    send_one_file file env filename index total sock = (false, sock) := by
  unfold send_one_file
  by_cases hopened : env.opened = false
  · rw [if_pos hopened]
  by_cases hfstat : env.fstat = false
  · rw [if_neg hopened, if_pos hfstat]
  by_cases hsize : MAX_FILE_SIZE_BYTES < file.content.length
  · rw [if_neg hopened, if_neg hfstat, if_pos hsize]
  · exact absurd ⟨Bool.eq_true_of_not_eq_false hopened, Bool.eq_true_of_not_eq_false hfstat,
      Nat.le_of_not_lt hsize⟩ h

/-- A file whose `RES_FILE_META` cannot be sent. -/
theorem send_one_file_of_meta_cut {env : FileEnv} (h : FileOpens file env)
    (hmeta : sock.writeAll (metaHeader file filename index total).encode = (false, sock₁)) :
    send_one_file file env filename index total sock = (false, sock₁) := by
  obtain ⟨hopened, hfstat, hsize⟩ := h
  unfold send_one_file
  rw [hopened, hfstat, if_neg Bool.true_eq_false.mp, if_neg Bool.true_eq_false.mp,
    if_neg (Nat.not_lt.mpr hsize), hmeta]

/-- Behind the `RES_FILE_META` more may follow. -/
theorem prefix_of_meta_sent {env : FileEnv} (h : FileOpens file env)
    (hmeta : sock.writeAll (metaHeader file filename index total).encode = (true, sock₁)) :
    sock₁.sent <+: (send_one_file file env filename index total sock).2.sent := by
  obtain ⟨hopened, hfstat, hsize⟩ := h
  unfold send_one_file
  rw [hopened, hfstat, if_neg Bool.true_eq_false.mp, if_neg Bool.true_eq_false.mp,
    if_neg (Nat.not_lt.mpr hsize), hmeta]
  by_cases hmalloc : env.malloc = false
  · simp only [if_pos hmalloc]
    exact List.prefix_rfl
  · simp only [if_neg hmalloc]
    rcases hloop : send_chunks file.content.length file.content env.reads 0xFFFFFFFF 0 sock₁ with
      ⟨send_ok, crc, sock₂⟩
    cases send_ok with
    | false =>
      obtain ⟨_, _, _, _, _, -, -, -, hsent⟩ := send_chunks_false hloop
      exact ⟨_, hsent.symm⟩
    | true =>
      obtain ⟨_, _, -, hsent, -, -⟩ := send_chunks_true (Nat.le_refl _) hloop
      obtain ⟨k, -, hend, -⟩ := sock₂.writeAll_spec (endHeader (~~~crc)).encode
      rw [hsent, List.append_assoc] at hend
      exact ⟨_, hend.symm⟩

/-- What `send_one_file` sends begins with what can be sent of the `RES_FILE_META`. -/
theorem prefix_send_one_file {env : FileEnv} (h : FileOpens file env) (filename : Bytes)
    (index total : UInt8) (sock : Sink) :
    (sock.writeAll (metaHeader file filename index total).encode).2.sent <+:
      (send_one_file file env filename index total sock).2.sent := by
  rcases hmeta : sock.writeAll (metaHeader file filename index total).encode with ⟨ok, sock₁⟩
  cases ok with
  | false =>
    rw [send_one_file_of_meta_cut h hmeta]
  | true => exact prefix_of_meta_sent h hmeta

/-- What `send_files` adds to. -/
theorem prefix_send_files (env : ℕ → FileEnv) (total : UInt8) (i : ℕ) (files : List DistFile)
    (sock : Sink) : sock.sent <+: (send_files env total i files sock).2.sent := by
  rcases hfiles : send_files env total i files sock with ⟨ok, sock'⟩
  cases ok with
  | true =>
    obtain ⟨p, -, hsent⟩ := send_files_true False (fun h => h.elim) hfiles
    exact ⟨p, hsent.symm⟩
  | false =>
    obtain ⟨message, sock₁, hfails⟩ := send_files_false hfiles
    have hall : False → ¬ SomeReadFails (· ≠ []) env total i files sock := fun h => h.elim
    obtain ⟨p, hp, -⟩ := hfails.aborted hall
    obtain ⟨m, hm⟩ := send_pull_error_sent sock₁ message
    rw [hfails.send_files_eq] at hfiles
    obtain ⟨-, rfl⟩ := Prod.mk.inj hfiles
    exact ⟨p ++ errorBytes message m, by rw [hm, hp, List.append_assoc]⟩

end

section

variable {hw : HwState} {opendir : Bytes → Option (List DirEnt)} {env : ℕ → FileEnv}
  {sends : ℕ → Option ℕ} {f : DistFile} {files : List DistFile}

/-- The answer begins with what is sent of the first file. -/
theorem prefix_handle_file_pull (hfiles : distFiles hw opendir = f :: files)
    (env : ℕ → FileEnv) (sock : Sink) :
    (send_one_file f.2 (env 0) f.1.bytes (.ofNat 1) (.ofNat (f :: files).length) sock).2.sent <+:
      (handle_file_pull hw opendir env sock).sent := by
  have hne : distFiles hw opendir ≠ [] := by
    rw [hfiles]
    exact List.cons_ne_nil f files
  have hall : (send_files env (.ofNat (f :: files).length) 0 (f :: files) sock).2.sent <+:
      (handle_file_pull hw opendir env sock).sent := by
    rw [handle_file_pull_of_ne hne, hfiles]
    rcases send_files env (.ofNat (f :: files).length) 0 (f :: files) sock with ⟨ok, sock₁⟩
    cases ok with
    | false => exact List.prefix_rfl
    | true =>
      obtain ⟨k, -, hsent, -⟩ :=
        sock₁.writeAll_spec (doneHeader (.ofNat (f :: files).length)).encode
      exact ⟨_, hsent.symm⟩
  refine List.IsPrefix.trans ?_ hall
  rw [send_files]
  show (send_one_file f.2 (env 0) f.1.bytes (.ofNat (0 + 1)) _ sock).2.sent <+: _
  rcases send_one_file f.2 (env 0) f.1.bytes (.ofNat (0 + 1)) (.ofNat (f :: files).length) sock
    with ⟨ok, sock₁⟩
  cases ok with
  | false =>
    obtain ⟨m, hsent⟩ := send_pull_error_sent sock₁
      (utf8 "파일 전송 실패: " ++ f.1.str.take (MAX_FILENAME - 1))
    exact ⟨_, hsent.symm⟩
  | true => exact prefix_send_files env _ _ _ sock₁

/-- The first file is given up. -/
theorem handle_file_pull_of_file_fails {sock sock₁ : Sink}
    (hfiles : distFiles hw opendir = f :: files)
    (h : send_one_file f.2 (env 0) f.1.bytes (.ofNat 1) (.ofNat (f :: files).length) sock
      = (false, sock₁)) :
    handle_file_pull hw opendir env sock = send_pull_error sock₁ (failureMessage f) := by
  have hne : distFiles hw opendir ≠ [] := by
    rw [hfiles]
    exact List.cons_ne_nil f files
  have hfails : FileFails env (.ofNat (f :: files).length) 0 (f :: files) sock (failureMessage f)
      sock₁ := .here h
  rw [handle_file_pull_of_ne hne, hfiles, hfails.send_files_eq]

/-- If the first `RES_FILE_META` goes out, the answer begins with it. -/
theorem answer_of_meta_goes_out (hfiles : distFiles hw opendir = f :: files)
    (hopens : FileOpens f.2 (env 0))
    (hmeta : (Sink.writeAll ⟨[], sends⟩ ((metaHeader f.2 f.1.bytes (.ofNat 1)
      (.ofNat (f :: files).length)).encode.take offsetofHeaderSize)).1 = true) :
    ∃ r, (handle_file_pull hw opendir env ⟨[], sends⟩).sent =
      (metaHeader f.2 f.1.bytes (.ofNat 1) (.ofNat (f :: files).length)).encode.take
        offsetofHeaderSize ++ r := by
  have hlen : offsetofHeaderSize ≤ (metaHeader f.2 f.1.bytes (.ofNat 1)
      (.ofNat (f :: files).length)).encode.length := by
    rw [FileMetaHeader.length_encode]
    decide
  rw [Sink.writeAll_take_iff _ hlen] at hmeta
  have hprefix := (prefix_send_one_file hopens f.1.bytes (.ofNat 1)
    (.ofNat (f :: files).length) ⟨[], sends⟩).trans
      (prefix_handle_file_pull hfiles env ⟨[], sends⟩)
  obtain ⟨k, -, hsent, -⟩ := Sink.writeAll_spec ⟨[], sends⟩
    (metaHeader f.2 f.1.bytes (.ofNat 1) (.ofNat (f :: files).length)).encode
  rw [hsent] at hmeta hprefix
  have hk : offsetofHeaderSize ≤ k := by
    rw [List.nil_append, List.length_take] at hmeta
    simp only [List.length_nil] at hmeta
    omega
  obtain ⟨r, hr⟩ := (List.take_prefix_take_left hk).trans hprefix
  exact ⟨r, hr.symm⟩

/-- Otherwise the answer ends before the type of a packet, or a `RES_FILE_ERROR` follows there. -/
theorem answer_of_not_meta_goes_out
    (h : ¬ FirstMetaGoesOut (distFiles hw opendir) env ⟨[], sends⟩) :
    ∃ p message m, p.length < offsetofHeaderSize ∧
      (handle_file_pull hw opendir env ⟨[], sends⟩).sent = p ++ errorBytes message m := by
  rcases hfiles : distFiles hw opendir with _ | ⟨f, files⟩
  · obtain ⟨message, heq⟩ := handle_file_pull_of_nil hfiles env ⟨[], sends⟩
    obtain ⟨m, hsent⟩ := send_pull_error_sent ⟨[], sends⟩ message
    rw [heq]
    exact ⟨[], message, m, by decide, hsent⟩
  · suffices hfails : ∃ sock₁, sock₁.sent.length < offsetofHeaderSize ∧
        send_one_file f.2 (env 0) f.1.bytes (.ofNat 1) (.ofNat (f :: files).length) ⟨[], sends⟩
          = (false, sock₁) by
      obtain ⟨sock₁, hshort, hfile⟩ := hfails
      obtain ⟨m, hsent⟩ := send_pull_error_sent sock₁ (failureMessage f)
      rw [handle_file_pull_of_file_fails hfiles hfile]
      exact ⟨sock₁.sent, failureMessage f, m, hshort, hsent⟩
    by_cases hopens : FileOpens f.2 (env 0)
    · have hlen : offsetofHeaderSize ≤ (metaHeader f.2 f.1.bytes (.ofNat 1)
          (.ofNat (f :: files).length)).encode.length := by
        rw [FileMetaHeader.length_encode]
        decide
      have hcut : ¬ offsetofHeaderSize ≤ (Sink.writeAll ⟨[], sends⟩ (metaHeader f.2 f.1.bytes
          (.ofNat 1) (.ofNat (f :: files).length)).encode).2.sent.length := by
        intro hle
        apply h
        rw [hfiles]
        refine ⟨f, rfl, hopens, (Sink.writeAll_take_iff _ hlen).mpr ?_⟩
        rw [List.length_nil, Nat.zero_add]
        exact hle
      rcases hmeta : Sink.writeAll ⟨[], sends⟩ (metaHeader f.2 f.1.bytes (.ofNat 1)
        (.ofNat (f :: files).length)).encode with ⟨ok, sock₁⟩
      rw [hmeta] at hcut
      cases ok with
      | false => exact ⟨sock₁, Nat.lt_of_not_le hcut, send_one_file_of_meta_cut hopens hmeta⟩
      | true =>
        rw [Sink.sent_of_writeAll hmeta, List.nil_append] at hcut
        exact absurd hlen hcut
    · exact ⟨⟨[], sends⟩, Nat.succ_pos 5, send_one_file_of_not_opens hopens⟩

/-- **The answer brings no file** iff the first `RES_FILE_META` does not go out. -/
theorem withoutFiles_iff (r : PullRequest) :
    WithoutFiles r.answer ↔ ¬ FirstMetaGoesOut r.files r.env r.sock := by
  constructor
  · rintro hwithout ⟨f, hhead, hopens, hmeta⟩
    obtain ⟨files, hfiles⟩ := List.head?_eq_some_iff.mp hhead
    rw [hfiles] at hmeta
    obtain ⟨rest, hanswer⟩ := answer_of_meta_goes_out hfiles hopens hmeta
    apply hwithout RES_FILE_META (by decide)
    rw [PullRequest.answer, PullRequest.sock, hanswer]
    exact holdsPacket_meta _ _ _ _ rest
  · intro h
    obtain ⟨p, message, m, hshort, hanswer⟩ := answer_of_not_meta_goes_out h
    rw [PullRequest.answer, PullRequest.sock, hanswer]
    exact withoutFiles_of_short hshort message m

/-- Every request is served, if nothing fails. -/
theorem served (r : PullRequest) : Served r := by
  intro hne hsize henv hsock
  rcases hopendir : r.opendir (distDir r.hw) with _ | ents
  · exact absurd (by rw [PullRequest.files, distFiles, hopendir]) hne
  · have hfiles : r.files = collect_files ents 0 := by rw [PullRequest.files, distFiles, hopendir]
    rw [hfiles] at hne hsize ⊢
    exact handle_file_pull_sends hopendir hne hsize henv hsock

end

/-! ## The switch -/

/-- The action is a `CMD_TOGGLE_DIST`. -/
def DistAction.Toggles : DistAction → Prop
  | .context (.request _ req) => req.cmd = CMD_TOGGLE_DIST
  | _ => False

instance : (a : DistAction) → Decidable a.Toggles
  | .context (.request _ req) => inferInstanceAs (Decidable (req.cmd = CMD_TOGGLE_DIST))
  | .context (.record ..) => inferInstanceAs (Decidable False)
  | .context (.append ..) => inferInstanceAs (Decidable False)
  | .call _ => inferInstanceAs (Decidable False)
  | .receive .. => inferInstanceAs (Decidable False)
  | .locate _ => inferInstanceAs (Decidable False)
  | .answer .. => inferInstanceAs (Decidable False)

/-- A switch of the week leaves the distribution as it is. -/
theorem dist_paused_ctx_set_hw (ctx : ControlContext) (week_name : Bytes) (env : SetHwEnv) :
    (ctx_set_hw ctx week_name env).dist_paused = ctx.dist_paused := by
  unfold ctx_set_hw
  split_ifs <;> rfl

theorem dist_paused_ctlSwitch {ctx : ControlContext} {env : CtlEnv} {req : IpcRequest}
    (h : req.cmd ≠ CMD_TOGGLE_DIST) : (ctlSwitch ctx env req).1.dist_paused = ctx.dist_paused := by
  by_cases hset : req.cmd = CMD_SET_HW
  · rw [ctlSwitch_of_set_hw hset]
    by_cases hweek : weekOfPayload req.payload.bytes = []
    · rw [cmdSetHw_of_nil hweek]
    · rw [(cmdSetHw_of_ne_nil ctx env.set_hw hweek).1, dist_paused_ctx_set_hw]
  · by_cases hstudents : req.cmd = CMD_SET_STUDENTS
    · rw [ctlSwitch_of_set_students hstudents, cmdSetStudents]
      split_ifs <;> rfl
    · rw [ctlSwitch_of_other hset hstudents h]

/-- What a step of the context does to the switch. -/
theorem dist_paused_contextStep {ctx ctx' : ControlContext} {a : ContextAction}
    (h : contextStep ctx a = some ctx') :
    ctx'.dist_paused = if (DistAction.context a).Toggles then (if ctx.dist_paused = 0 then 1 else 0)
      else ctx.dist_paused := by
  cases a with
  | record student_id result now =>
    obtain rfl := Option.some.inj h
    rfl
  | append hdr result exec_ms mem_kb week_name now tm written =>
    obtain ⟨⟨csv, disk⟩, -, rfl⟩ := Option.map_eq_some_iff.mp h
    rfl
  | request env req =>
    obtain rfl := Option.some.inj h
    show (ctlSwitch ctx env req).1.dist_paused = if req.cmd = CMD_TOGGLE_DIST then _ else _
    by_cases htoggle : req.cmd = CMD_TOGGLE_DIST
    · rw [if_pos htoggle, ctlSwitch_of_toggle_dist htoggle]
      rfl
    · rw [if_neg htoggle]
      exact dist_paused_ctlSwitch htoggle

/-- A worker with a request for files leaves the context alone. -/
theorem distStep_cases {s s' : DistServer} {a : DistAction} (h : distStep s a = some s') :
    (∃ b, a = .context b ∧ contextStep s.ctx b = some s'.ctx) ∨ ¬ a.Toggles ∧ s'.ctx = s.ctx := by
  cases a with
  | context b =>
    obtain ⟨ctx, hctx, rfl⟩ := Option.map_eq_some_iff.mp h
    exact Or.inl ⟨b, rfl, hctx⟩
  | call worker =>
    rw [distStep] at h
    split at h
    · obtain rfl := Option.some.inj h
      exact Or.inr ⟨id, rfl⟩
    · cases h
  | receive worker mkdtemp opened writes sock =>
    rw [distStep] at h
    split at h
    · split at h
      · obtain rfl := Option.some.inj h
        exact Or.inr ⟨id, rfl⟩
      · obtain rfl := Option.some.inj h
        exact Or.inr ⟨id, rfl⟩
    · cases h
  | locate worker =>
    rw [distStep] at h
    split at h
    · obtain rfl := Option.some.inj h
      exact Or.inr ⟨id, rfl⟩
    · cases h
  | answer worker opendir env sends =>
    rw [distStep] at h
    split at h
    · obtain rfl := Option.some.inj h
      exact Or.inr ⟨id, rfl⟩
    · cases h

/-- **The switch after a run**: blocked iff it has been turned over an odd number of times. -/
theorem dist_paused_of_run {env : SetHwEnv} {disk : Disk} {dirs : Dirs} {run : List DistAction}
    {s : DistServer} (h : exec distStep (.start env disk dirs) run = some s) :
    s.ctx.dist_paused = ((run.countP fun a => a.Toggles) % 2 : ℕ) := by
  refine invariant_of_history (Q := fun run (s : DistServer) =>
    s.ctx.dist_paused = ((run.countP fun a => a.Toggles) % 2 : ℕ)) ?_ ?_ h
  · exact dist_paused_ctx_set_hw _ _ env
  · intro run s a s' _ hpaused hstep
    rw [List.countP_append, List.countP_singleton]
    rcases distStep_cases hstep with ⟨b, rfl, hctx⟩ | ⟨htoggles, hctx⟩
    · rw [dist_paused_contextStep hctx, hpaused]
      by_cases htoggles : (DistAction.context b).Toggles
      · simp only [htoggles, if_true, decide_true]
        split_ifs <;> omega
      · simp only [htoggles, if_false, decide_false]
        rfl
    · simp only [htoggles, decide_false, hctx, hpaused]
      rfl

/-- **The distribution switch is honoured**, in a run of the server, iff each request that is taken
up while the distribution is blocked finds nothing to send, or nothing that can be sent. -/
theorem honoursSwitch_iff (env : SetHwEnv) (disk : Disk) (dirs : Dirs) (run : List DistAction) :
    HonoursSwitch (.start env disk dirs) run ↔ BlockedFindsNothing (.start env disk dirs) run := by
  constructor
  · intro h r hr hpaused
    exact (withoutFiles_iff r).mp (h.blocked r hr hpaused)
  · intro h
    constructor
    · intro r hr hpaused
      exact (withoutFiles_iff r).mpr (h r hr hpaused)
    · intro r _ _
      exact served r

/-- No call fails. -/
def everythingRead : FileEnv :=
  { opened := true, fstat := true, malloc := true, reads := fun _ => some 999 }

/-- The distribution is blocked; then a worker receives a request for files. -/
def requestWhileBlocked : List DistAction :=
  [.context (.request cannotOpen ⟨CMD_TOGGLE_DIST, Buf.zero IPC_MAX_PAYLOAD⟩), .call 0,
    .receive 0 true true (fun _ => some 4095) ⟨getFilesRequest.encode, fun _ => 99⟩, .locate 0,
    .answer 0 (fun _ => some [someDistFile]) (fun _ => everythingRead) fun _ => some 999]

/-- The request for files in it. -/
def blockedRequest : PullRequest :=
  { worker := 0
    start :=
      { ctx := (cmdToggleDist (ctx_init cannotOpen.set_hw (fun _ => none) fun _ => false)).1
        workers := fun _ => none }
    mid := [.receive 0 true true (fun _ => some 4095) ⟨getFilesRequest.encode, fun _ => 99⟩,
      .locate 0]
    hw := ctx_set_hw_paths (ascii "week_1")
    opendir := fun _ => some [someDistFile]
    env := fun _ => everythingRead
    sends := fun _ => some 999 }

/-- It is answered with the file. -/
theorem not_honoursSwitch :
    ¬ HonoursSwitch (.start cannotOpen.set_hw (fun _ => none) fun _ => false)
      requestWhileBlocked := by
  intro h
  have hhandled : HandledIn (.start cannotOpen.set_hw (fun _ => none) fun _ => false)
      requestWhileBlocked blockedRequest := by
    refine ⟨[_], [], _, rfl, ?_, rfl, rfl, rfl⟩
    intro hmem
    cases hmem with
    | tail _ hmem =>
      cases hmem with
      | tail _ hmem => cases hmem
  apply h.blocked blockedRequest hhandled rfl RES_FILE_META (by decide)
  exact ⟨[], _, .nil _, by decide +kernel, by decide +kernel⟩

end MiniCi
