/-
# What a download leaves in the directory

The packets a client takes determine what becomes of each file: `since` is what came after the
last `RES_FILE_META` of a path, and `transfer` what that comes to, the bytes received and the
packet that ended the transfer, if there is one.  The directory is as the transfers say
(`transferInv_rounds`).

Only one file is removed when the loop ends with an error, the open one, and a file is open no
longer when the `RES_FILE_META` of another one has come.  So a file that has not been verified
is left behind by a `RES_FILE_META` or a `RES_FILE_DONE` in mid-file (`leavesVerified_iff`).
-/
import MiniCi.PullPackets
import MiniCi.Submission

namespace MiniCi

open CStr ByteStream

/-! ## Contents -/

/-- The content of a file, if it exists. -/
def Dir.content (dir : Dir) (path : Bytes) : Option Bytes := (dir path).map DirFile.content

section Content

variable (dir : Dir) (path path' : Bytes)

@[simp] theorem Dir.content_create (umask : ℕ) :
    (dir.create umask path).content path' =
      if path' = path then some [] else dir.content path' := by
  unfold Dir.content
  by_cases h : path' = path
  · subst h
    rw [if_pos rfl, Dir.create, Function.update_self]
    rfl
  · rw [if_neg h, Dir.create_of_ne h]

@[simp] theorem Dir.content_append (data : Bytes) :
    (dir.append path data).content path' =
      if path' = path then (dir.content path').map (· ++ data) else dir.content path' := by
  unfold Dir.content
  by_cases h : path' = path
  · subst h
    rw [if_pos rfl, Dir.append, Function.update_self, Option.map_map, Option.map_map]
    rfl
  · rw [if_neg h, Dir.append_of_ne h]

@[simp] theorem Dir.content_chmod (mode : ℕ) :
    (dir.chmod path mode).content path' = dir.content path' := by
  unfold Dir.content
  by_cases h : path' = path
  · subst h
    rw [Dir.chmod, Function.update_self, Option.map_map]
    rfl
  · rw [Dir.chmod_of_ne h]

@[simp] theorem Dir.content_unlink :
    (dir.unlink path).content path' = if path' = path then none else dir.content path' := by
  unfold Dir.content Dir.unlink
  by_cases h : path' = path
  · subst h
    rw [if_pos rfl, Function.update_self]
    rfl
  · rw [if_neg h, Function.update_of_ne h]

end Content

/-! ## Packets that are taken -/

section Taken

variable {env : PullEnv} {c c' : PullClient}

theorem takeMeta_true {path : Bytes} {is_executable : UInt8}
    (h : takeMeta env c path is_executable = (true, c')) :
    env.opens c.ops.length = true ∧
      c' = { c with
        state := PULL_STATE_WAIT_CHUNK, out_fd := some path, out_path := path
        out_exec := is_executable, crc_accum := 0xFFFFFFFF, dir := c.dir.create env.umask path
        ops := c.ops ++ [.create path] } := by
  unfold takeMeta at h
  by_cases hopen : env.opens c.ops.length = false
  · simp only [if_pos hopen] at h
    cases h
  · simp only [if_neg hopen] at h
    exact ⟨Bool.eq_true_of_not_eq_false hopen, (Prod.mk.inj h).2.symm⟩

theorem takeMeta_false {path : Bytes} {is_executable : UInt8}
    (h : takeMeta env c path is_executable = (false, c')) :
    env.opens c.ops.length = false ∧ c'.dir = c.dir := by
  unfold takeMeta at h
  by_cases hopen : env.opens c.ops.length = false
  · simp only [if_pos hopen] at h
    obtain ⟨-, rfl⟩ := Prod.mk.inj h
    exact ⟨hopen, rfl⟩
  · simp only [if_neg hopen] at h
    cases h

theorem takeChunk_true {data : Bytes} (h : takeChunk env c data = (true, c')) :
    ∃ path, c.state = PULL_STATE_WAIT_CHUNK ∧ c.out_fd = some path ∧
      c' = { c with
        crc_accum := Crc.update 0xEDB88320 c.crc_accum data, dir := c.dir.append path data
        ops := c.ops ++ [.write path data] } := by
  unfold takeChunk at h
  split at h
  · rename_i path hstate hfd
    by_cases hmalloc : env.mallocs c.ops.length = false
    · simp only [if_pos hmalloc] at h
      cases h
    · simp only [if_neg hmalloc] at h
      unfold storeChunk at h
      rcases hout : Sink.writeAll ⟨[], env.writes c.ops.length⟩ data with ⟨written, out⟩
      rw [hout] at h
      cases written with
      | false => cases h
      | true =>
        have hsent := Sink.sent_of_writeAll hout
        rw [List.nil_append] at hsent
        obtain ⟨-, rfl⟩ := Prod.mk.inj h
        exact ⟨path, hstate, hfd, by rw [hsent]⟩
  · cases h

/-- A chunk that is refused takes the open file with it. -/
theorem takeChunk_false {data : Bytes} (hpath : ∀ path ∈ c.out_fd, c.out_path = path)
    (h : takeChunk env c data = (false, c')) (path : Bytes) :
    c'.dir.content path = if c.out_fd = some path then none else c.dir.content path := by
  unfold takeChunk at h
  split at h
  · rename_i path' hstate hfd
    have hout := hpath path' hfd
    have hdiscard : c.discard.dir.content path =
        if c.out_fd = some path then none else c.dir.content path := by
      rw [PullClient.discard, hfd]
      simp only [hout, Dir.content_unlink, Option.some.injEq, eq_comm]
    by_cases hmalloc : env.mallocs c.ops.length = false
    · simp only [if_pos hmalloc] at h
      obtain ⟨-, rfl⟩ := Prod.mk.inj h
      exact hdiscard
    · simp only [if_neg hmalloc] at h
      unfold storeChunk at h
      rcases hw : Sink.writeAll ⟨[], env.writes c.ops.length⟩ data with ⟨written, out⟩
      rw [hw] at h
      cases written with
      | true => cases h
      | false =>
        obtain ⟨-, rfl⟩ := Prod.mk.inj h
        simp only [PullClient.discard, hfd, hout, Dir.content_unlink, Dir.content_append,
          Option.some.injEq, eq_comm]
        split_ifs <;> rfl
  · obtain ⟨-, rfl⟩ := Prod.mk.inj h
    rcases hfd : c.out_fd with _ | path'
    · simp [PullClient.discard, hfd]
    · have hout := hpath path' hfd
      simp only [PullClient.discard, hfd, hout, Dir.content_unlink, Option.some.injEq, eq_comm]

theorem takeEnd_true {checksum : UInt32} (h : takeEnd env c checksum = (true, c')) :
    c.out_fd ≠ none ∧ c'.out_fd = none ∧
      (checksum ≠ ~~~c.crc_accum ∧ c'.files_done = c.files_done ∧
          c'.dir = c.dir.unlink c.out_path ∨
        checksum = ~~~c.crc_accum ∧ c'.files_done = c.files_done + 1 ∧
          ∀ path, c'.dir.content path = c.dir.content path) := by
  unfold takeEnd at h
  by_cases hfd : c.out_fd = none
  · simp only [if_pos hfd] at h
    cases h
  · simp only [if_neg hfd] at h
    refine ⟨hfd, ?_⟩
    by_cases hcrc : checksum ≠ ~~~c.crc_accum
    · simp only [if_pos hcrc] at h
      obtain ⟨-, rfl⟩ := Prod.mk.inj h
      exact ⟨rfl, Or.inl ⟨hcrc, rfl, rfl⟩⟩
    · simp only [if_neg hcrc] at h
      by_cases hexec : c.out_exec ≠ 0
      · simp only [if_pos hexec] at h
        obtain ⟨-, rfl⟩ := Prod.mk.inj h
        refine ⟨rfl, Or.inr ⟨not_not.mp hcrc, rfl, fun path => ?_⟩⟩
        simp only
        split_ifs
        · rw [Dir.content_chmod]
        · rfl
      · simp only [if_neg hexec] at h
        obtain ⟨-, rfl⟩ := Prod.mk.inj h
        exact ⟨rfl, Or.inr ⟨not_not.mp hcrc, rfl, fun _ => rfl⟩⟩

theorem takeEnd_false {checksum : UInt32} (h : takeEnd env c checksum = (false, c')) :
    c.out_fd = none ∧ c' = c := by
  unfold takeEnd at h
  by_cases hfd : c.out_fd = none
  · simp only [if_pos hfd] at h
    obtain ⟨-, rfl⟩ := Prod.mk.inj h
    exact ⟨hfd, by rw [PullClient.discard, hfd]⟩
  · simp only [if_neg hfd] at h
    split_ifs at h
    all_goals cases h

end Taken

/-! ## Transfers -/

/-- The packet is the `RES_FILE_META` of a path. -/
def PullPacket.Opens (path : Bytes) : PullPacket → Prop
  | .file_meta path' _ => path' = path
  | _ => False

instance (path : Bytes) (e : PullPacket) : Decidable (e.Opens path) :=
  match e with
  | .file_meta path' _ => inferInstanceAs (Decidable (path' = path))
  | .chunk _ | .file_end _ => inferInstanceAs (Decidable False)

/-- What came after the last `RES_FILE_META` of a path. -/
def since (path : Bytes) : List PullPacket → Option (List PullPacket)
  | [] => none
  | e :: es =>
    match since path es with
    | some r => some r
    | none => if e.Opens path then some es else none

/-- What the packets after a `RES_FILE_META` come to: the bytes received, and the packet that
ended the transfer. -/
def transfer : List PullPacket → Bytes × Option PullPacket
  | [] => ([], none)
  | .chunk data :: es => (data ++ (transfer es).1, (transfer es).2)
  | e :: _ => ([], some e)

/-- One packet more. -/
theorem since_concat (path : Bytes) (es : List PullPacket) (e : PullPacket) :
    since path (es ++ [e]) =
      if e.Opens path then some [] else (since path es).map (· ++ [e]) := by
  induction es with
  | nil => simp [since]
  | cons e' es ih =>
    rw [List.cons_append, since, ih, since]
    by_cases h : e.Opens path
    · simp only [if_pos h]
    · simp only [if_neg h]
      cases since path es with
      | some r => rfl
      | none =>
        simp only [Option.map_none]
        split_ifs <;> rfl

/-- A transfer that has ended is not changed by what comes later. -/
theorem transfer_concat_of_some {r : List PullPacket} {data : Bytes} {x : PullPacket}
    (h : transfer r = (data, some x)) (e : PullPacket) : transfer (r ++ [e]) = (data, some x) := by
  induction r generalizing data with
  | nil => cases h
  | cons e' r ih =>
    cases e' with
    | chunk d =>
      simp only [transfer, Prod.mk.injEq] at h
      obtain ⟨rfl, hx⟩ := h
      simp only [List.cons_append, transfer, ih (Prod.ext rfl hx)]
    | file_meta _ _ => exact h
    | file_end _ => exact h

/-- A transfer that has not ended goes on with a chunk or is ended by another packet. -/
theorem transfer_concat_of_none {r : List PullPacket} {data : Bytes}
    (h : transfer r = (data, none)) (e : PullPacket) :
    transfer (r ++ [e]) = (data ++ (transfer [e]).1, (transfer [e]).2) := by
  induction r generalizing data with
  | nil =>
    obtain ⟨rfl, -⟩ := Prod.mk.inj h
    rfl
  | cons e' r ih =>
    cases e' with
    | chunk d =>
      simp only [transfer, Prod.mk.injEq] at h
      obtain ⟨rfl, hx⟩ := h
      simp only [List.cons_append, transfer, ih (Prod.ext rfl hx), List.append_assoc]
    | file_meta _ _ => cases h
    | file_end _ => cases h

/-- What a transfer that has come to `t` has made of its file. -/
def TransferState (c : PullClient) (path : Bytes) (t : Bytes × Option PullPacket) : Prop :=
  match t.2 with
  | none => c.out_fd = some path ∧ c.crc_accum = Crc.update 0xEDB88320 0xFFFFFFFF t.1 ∧
      c.dir.content path = some t.1
  | some (.file_end checksum) =>
      c.dir.content path = if checksum = crc32_buf t.1 then some t.1 else none
  | some _ => c.dir.content path = some t.1

/-- The client is where the packets it has taken have brought it. -/
structure TransferInv (es : List PullPacket) (c : PullClient) : Prop where
  transfers : ∀ path, ∀ r ∈ since path es, TransferState c path (transfer r)
  current : ∀ path ∈ c.out_fd, c.out_path = path ∧
    ∃ r ∈ since path es, ∃ data, transfer r = (data, none)

theorem transferInv_initial (dir : Dir) : TransferInv [] (.initial dir) :=
  ⟨fun _ _ h => (nomatch h), fun _ h => (nomatch h)⟩

/-- A transfer that has ended only depends on the content of its file. -/
theorem TransferState.of_content {c c' : PullClient} {path : Bytes} {t : Bytes × Option PullPacket}
    (h : TransferState c path t) (hended : t.2 ≠ none)
    (hcontent : c'.dir.content path = c.dir.content path) : TransferState c' path t := by
  obtain ⟨data, last⟩ := t
  rcases last with _ | e
  · exact absurd rfl hended
  · cases e <;> exact hcontent.trans h

/-- The file of a transfer that has not ended is the open one. -/
theorem TransferInv.open_of_none {es : List PullPacket} {c : PullClient} (h : TransferInv es c)
    {path : Bytes} {r : List PullPacket} (hr : r ∈ since path es) (hnone : (transfer r).2 = none) :
    c.out_fd = some path ∧
      c.crc_accum = Crc.update 0xEDB88320 0xFFFFFFFF (transfer r).1 ∧
      c.dir.content path = some (transfer r).1 := by
  have hstate := h.transfers path r hr
  unfold TransferState at hstate
  rw [hnone] at hstate
  exact hstate

section Steps

variable {env : PullEnv} {es : List PullPacket} {c c' : PullClient}

theorem transferInv_meta {path : Bytes} {is_executable : UInt8} (h : TransferInv es c)
    (htake : takeMeta env c path is_executable = (true, c')) :
    TransferInv (es ++ [.file_meta path is_executable]) c' := by
  obtain ⟨-, rfl⟩ := takeMeta_true htake
  constructor
  · intro path' r hr
    rw [since_concat] at hr
    by_cases hpath : path = path'
    · subst hpath
      rw [if_pos (show PullPacket.Opens path (.file_meta path is_executable) from rfl)] at hr
      obtain rfl := Option.some.inj hr
      exact ⟨rfl, rfl, by simp [transfer]⟩
    · rw [if_neg (show ¬ PullPacket.Opens path' (.file_meta path is_executable) from hpath)] at hr
      obtain ⟨r', hr', rfl⟩ := Option.map_eq_some_iff.mp hr
      have hcontent : (c.dir.create env.umask path).content path' = c.dir.content path' := by
        rw [Dir.content_create, if_neg (Ne.symm hpath)]
      rcases hlast : (transfer r').2 with _ | x
      · -- the file is not open any more, but still there
        obtain ⟨-, -, hdata⟩ := h.open_of_none hr' hlast
        rw [transfer_concat_of_none (Prod.ext rfl hlast)]
        show _ = some ((transfer r').1 ++ [])
        rw [List.append_nil]
        exact hcontent.trans hdata
      · rw [transfer_concat_of_some (Prod.ext rfl hlast)]
        have hstate := h.transfers path' r' hr'
        rw [show transfer r' = ((transfer r').1, some x) from Prod.ext rfl hlast] at hstate
        exact hstate.of_content (Option.some_ne_none x) hcontent
  · rintro _ ⟨rfl⟩
    refine ⟨rfl, [], ?_, [], rfl⟩
    rw [since_concat]
    exact if_pos rfl

theorem transferInv_chunk {data : Bytes} (h : TransferInv es c)
    (htake : takeChunk env c data = (true, c')) : TransferInv (es ++ [.chunk data]) c' := by
  obtain ⟨path, -, hfd, rfl⟩ := takeChunk_true htake
  constructor
  · intro path' r hr
    rw [since_concat] at hr
    obtain ⟨r', hr', rfl⟩ := Option.map_eq_some_iff.mp hr
    rcases hlast : (transfer r').2 with _ | x
    · obtain ⟨hopen, hcrc, hdata⟩ := h.open_of_none hr' hlast
      obtain rfl := Option.some.inj (hfd.symm.trans hopen)
      rw [transfer_concat_of_none (Prod.ext rfl hlast)]
      refine ⟨hfd, ?_, ?_⟩
      · simp only [hcrc, transfer, List.append_nil]
        exact (Crc.update_append _ _ _ _).symm
      · simp only [Dir.content_append, hdata, transfer, List.append_nil, if_true, Option.map_some]
    · rw [transfer_concat_of_some (Prod.ext rfl hlast)]
      have hstate := h.transfers path' r' hr'
      rw [show transfer r' = ((transfer r').1, some x) from Prod.ext rfl hlast] at hstate
      refine hstate.of_content (Option.some_ne_none x) ?_
      -- the transfer of the open file has not ended
      have hne : path' ≠ path := by
        rintro rfl
        obtain ⟨-, r, hr, data', hnone⟩ := h.current path' hfd
        obtain rfl := Option.some.inj (hr.symm.trans hr')
        rw [hnone] at hlast
        cases hlast
      simp only [Dir.content_append, if_neg hne]
  · intro path' hfd'
    obtain ⟨hout, r, hr, data', hnone⟩ := h.current path' hfd'
    refine ⟨hout, r ++ [.chunk data], ?_, data' ++ (data ++ []), ?_⟩
    · rw [since_concat]
      exact Option.map_eq_some_iff.mpr ⟨r, hr, rfl⟩
    · rw [transfer_concat_of_none hnone]
      rfl

theorem transferInv_end {checksum : UInt32} (h : TransferInv es c)
    (htake : takeEnd env c checksum = (true, c')) :
    TransferInv (es ++ [.file_end checksum]) c' := by
  obtain ⟨hfd, hclosed, hor⟩ := takeEnd_true htake
  obtain ⟨path, hpath⟩ := Option.ne_none_iff_exists'.mp hfd
  obtain ⟨hout, r, hr, data, hnone⟩ := h.current path hpath
  obtain ⟨-, hcrc, hdata⟩ := h.open_of_none hr (congrArg Prod.snd hnone)
  rw [hnone] at hcrc hdata
  constructor
  · intro path' r' hr'
    rw [since_concat] at hr'
    obtain ⟨r₀, hr₀, rfl⟩ := Option.map_eq_some_iff.mp hr'
    by_cases hsame : path' = path
    · -- the file that is closed
      subst hsame
      obtain rfl := Option.some.inj (hr.symm.trans hr₀)
      rw [transfer_concat_of_none hnone]
      show c'.dir.content path' =
        if checksum = crc32_buf (data ++ []) then some (data ++ []) else none
      rw [List.append_nil]
      rcases hor with ⟨hne, -, hdir⟩ | ⟨heq, -, hdir⟩
      · rw [if_neg (fun heq => hne (heq.trans (by rw [hcrc, crc32_buf]))), hdir, hout,
          Dir.content_unlink, if_pos rfl]
      · rw [if_pos (heq.trans (by rw [hcrc, crc32_buf])), hdir, hdata]
    · have hcontent : c'.dir.content path' = c.dir.content path' := by
        rcases hor with ⟨-, -, hdir⟩ | ⟨-, -, hdir⟩
        · rw [hdir, hout, Dir.content_unlink, if_neg hsame]
        · exact hdir path'
      rcases hlast : (transfer r₀).2 with _ | x
      · obtain ⟨hopen, -, -⟩ := h.open_of_none hr₀ hlast
        exact absurd (Option.some.inj (hopen.symm.trans hpath)) hsame
      · rw [transfer_concat_of_some (Prod.ext rfl hlast)]
        have hstate := h.transfers path' r₀ hr₀
        rw [show transfer r₀ = ((transfer r₀).1, some x) from Prod.ext rfl hlast] at hstate
        exact hstate.of_content (Option.some_ne_none x) hcontent
  · intro path' hfd'
    rw [hclosed] at hfd'
    cases hfd'

/-- **A packet that is taken does to its file what the transfers say.** -/
theorem transferInv_step {e : PullPacket} (h : TransferInv es c)
    (htake : takePacket env c e = (true, c')) : TransferInv (es ++ [e]) c' := by
  cases e with
  | file_meta path is_executable => exact transferInv_meta h htake
  | chunk data => exact transferInv_chunk h htake
  | file_end checksum => exact transferInv_end h htake

theorem transferInv_of_rounds {es' : List PullPacket} {c₁ : PullClient} {p p₁ : Bytes}
    (h : TransferInv es c) (hrounds : Rounds env c p es' c₁ p₁) : TransferInv (es ++ es') c₁ := by
  induction hrounds generalizing es with
  | nil c p => rwa [List.append_nil]
  | cons _ htake _ ih =>
    rw [List.append_cons]
    exact ih (transferInv_step h htake)

/-- **The directory is as the transfers say.** -/
theorem transferInv_rounds {dir : Dir} {c₁ : PullClient} {p p₁ : Bytes}
    (hrounds : Rounds env (.initial dir) p es c₁ p₁) : TransferInv es c₁ :=
  transferInv_of_rounds (transferInv_initial dir) hrounds

end Steps

/-! ## The last round -/

/-- The packet is a `RES_FILE_META`. -/
def PullPacket.IsMeta : PullPacket → Prop
  | .file_meta _ _ => True
  | _ => False

instance (e : PullPacket) : Decidable e.IsMeta :=
  match e with
  | .file_meta _ _ => isTrue trivial
  | .chunk _ | .file_end _ => isFalse id

/-- The bytes to come begin with a `RES_FILE_META` whose file cannot be opened. -/
def OpenFails (env : PullEnv) (c : PullClient) (p : Bytes) : Prop :=
  env.opens c.ops.length = false ∧ ∃ h ∈ parsePacket p, h.1.IsMeta

instance (env : PullEnv) (c : PullClient) (p : Bytes) : Decidable (OpenFails env c p) :=
  inferInstanceAs (Decidable (_ ∧ ∃ _ ∈ parsePacket p, _))

/-- **The last round removes the open file**, unless it is a `RES_FILE_DONE`, or a `RES_FILE_META`
whose file cannot be opened: then `out_fd` is -1. -/
theorem content_of_lastRound {env : PullEnv} {es : List PullPacket} {c c' : PullClient} {p : Bytes}
    {code : ℕ} (h : TransferInv es c) (hlast : LastRound env c p code c') (path : Bytes) :
    c'.dir.content path =
      if c.out_fd = some path ∧ ¬ DoneAt p ∧ ¬ OpenFails env c p then none
      else c.dir.content path := by
  have hpath : ∀ path ∈ c.out_fd, c.out_path = path := fun path hfd => (h.current path hfd).1
  cases hlast with
  | @refused e q _ hparse htake =>
    have hdone : ¬ DoneAt p := fun hd => absurd (parsePacket_of_doneAt hd) (by simp [hparse])
    cases e with
    | file_meta path' exec =>
      obtain ⟨hopens, hdir⟩ := takeMeta_false htake
      have hfails : OpenFails env c p := ⟨hopens, _, hparse, trivial⟩
      rw [if_neg fun hand => hand.2.2 hfails, hdir]
    | chunk data =>
      have hfails : ¬ OpenFails env c p := by simp [OpenFails, hparse, PullPacket.IsMeta]
      rw [takeChunk_false hpath htake path]
      exact if_congr ⟨fun hfd => ⟨hfd, hdone, hfails⟩, And.left⟩ rfl rfl
    | file_end checksum =>
      obtain ⟨hfd, rfl⟩ := takeEnd_false htake
      rw [if_neg fun hand => absurd hand.1 (by simp [hfd])]
  | done hdone => rw [if_neg fun hand => hand.2.1 hdone]
  | broken hparse hdone =>
    have hfails : ¬ OpenFails env c p := by simp [OpenFails, hparse]
    rcases hfd : c.out_fd with _ | path'
    · rw [if_neg (by simp), PullClient.discard, hfd]
    · simp only [PullClient.discard, hfd, hpath path' hfd, Dir.content_unlink]
      exact if_congr ⟨fun heq => ⟨congrArg some heq.symm, hdone, hfails⟩,
        fun hand => (Option.some.inj hand.1).symm⟩ rfl rfl

/-! ## No file is left behind unverified -/

/-- `do_pull_mode` returns; and a file that it has opened for writing and that still exists then
was closed by a `RES_FILE_END` whose checksum is that of the chunks since its `RES_FILE_META`, and
holds them. -/
structure LeavesVerified (env : PullEnv) (dir : Dir) (sock : Stream) : Prop where
  returns : env.Requests → LoopReturns env (.initial dir) sock (do_pull_mode env dir sock).1
    (do_pull_mode env dir sock).2
  verified : ∀ es c₁ p₁, Download env dir sock es c₁ p₁ → ∀ path, ∀ r ∈ since path es,
    ∀ content ∈ (do_pull_mode env dir sock).2.dir.content path,
      transfer r = (content, some (.file_end (crc32_buf content)))

/-- No `RES_FILE_META` comes in the middle of another transfer, unless that file is transferred
once more later; and a download that ends in the middle of a transfer ends neither at a
`RES_FILE_DONE` nor at a `RES_FILE_META` whose file cannot be opened. -/
structure LeavesNothingOpen (env : PullEnv) (es : List PullPacket) (c₁ : PullClient) (p₁ : Bytes) :
    Prop where
  inside : ∀ path, ∀ r ∈ since path es, ∀ path' exec,
    (transfer r).2 ≠ some (.file_meta path' exec)
  ending : ∀ path, ∀ r ∈ since path es, (transfer r).2 = none →
    ¬ DoneAt p₁ ∧ ¬ OpenFails env c₁ p₁

section Verified

variable {env : PullEnv} {dir : Dir} {sock : Stream} {es : List PullPacket} {c₁ : PullClient}
  {p₁ : Bytes}

/-- The last round does nothing to a file whose transfer has ended. -/
theorem Download.content_of_some (h : Download env dir sock es c₁ p₁) {path : Bytes}
    {r : List PullPacket} {e : PullPacket} (hr : r ∈ since path es)
    (hlast : (transfer r).2 = some e) :
    (do_pull_mode env dir sock).2.dir.content path = c₁.dir.content path ∧
      TransferState c₁ path (transfer r) := by
  have hinv := transferInv_rounds h.rounds
  refine ⟨?_, hinv.transfers path r hr⟩
  rw [content_of_lastRound hinv h.lastRound path, if_neg]
  rintro ⟨hfd, -⟩
  obtain ⟨-, r', hr', data, hnone⟩ := hinv.current path hfd
  obtain rfl := Option.some.inj (hr'.symm.trans hr)
  rw [hnone] at hlast
  cases hlast

/-- A file whose transfer is broken off by a `RES_FILE_META` is still there at the end. -/
theorem Download.content_of_meta (h : Download env dir sock es c₁ p₁) {path path' : Bytes}
    {r : List PullPacket} {exec : UInt8} (hr : r ∈ since path es)
    (hlast : (transfer r).2 = some (.file_meta path' exec)) :
    (do_pull_mode env dir sock).2.dir.content path = some (transfer r).1 := by
  obtain ⟨hcontent, hstate⟩ := h.content_of_some hr hlast
  unfold TransferState at hstate
  rw [hlast] at hstate
  exact hcontent.trans hstate

/-- A file whose transfer has not ended is still there at the end iff the last round leaves it. -/
theorem Download.content_of_none (h : Download env dir sock es c₁ p₁) {path : Bytes}
    {r : List PullPacket} (hr : r ∈ since path es) (hlast : (transfer r).2 = none) :
    (do_pull_mode env dir sock).2.dir.content path =
      if ¬ DoneAt p₁ ∧ ¬ OpenFails env c₁ p₁ then none else some (transfer r).1 := by
  have hinv := transferInv_rounds h.rounds
  obtain ⟨hfd, -, hdata⟩ := hinv.open_of_none hr hlast
  rw [content_of_lastRound hinv h.lastRound path, hdata]
  exact if_congr (and_iff_right hfd) rfl rfl

/-- A file whose transfer has been closed is there at the end iff it is verified. -/
theorem Download.content_of_end (h : Download env dir sock es c₁ p₁) {path : Bytes}
    {r : List PullPacket} {checksum : UInt32} (hr : r ∈ since path es)
    (hlast : (transfer r).2 = some (.file_end checksum)) :
    (do_pull_mode env dir sock).2.dir.content path =
      if checksum = crc32_buf (transfer r).1 then some (transfer r).1 else none := by
  obtain ⟨hcontent, hstate⟩ := h.content_of_some hr hlast
  unfold TransferState at hstate
  rw [hlast] at hstate
  exact hcontent.trans hstate

/-- A transfer is never ended by a chunk. -/
theorem transfer_ne_chunk (r : List PullPacket) (data : Bytes) :
    (transfer r).2 ≠ some (.chunk data) := by
  induction r with
  | nil => exact fun h => nomatch h
  | cons e r ih =>
    cases e with
    | chunk _ => exact ih
    | file_meta _ _ => exact fun h => nomatch h
    | file_end _ => exact fun h => nomatch h

/-- A download in which a transfer is left open leaves an unverified file. -/
theorem Download.not_leavesVerified (h : Download env dir sock es c₁ p₁) {path : Bytes}
    {r : List PullPacket} (hr : r ∈ since path es)
    (hopen : (∃ path' exec, (transfer r).2 = some (.file_meta path' exec)) ∨
      (transfer r).2 = none ∧ (DoneAt p₁ ∨ OpenFails env c₁ p₁)) :
    ¬ LeavesVerified env dir sock := by
  intro hverified
  rcases hopen with ⟨path', exec, hlast⟩ | ⟨hlast, hending⟩
  · have hsame := hverified.verified es c₁ p₁ h path r hr _ (h.content_of_meta hr hlast)
    rw [hsame] at hlast
    cases hlast
  · have hcontent := h.content_of_none hr hlast
    rw [if_neg fun hand => hending.elim hand.1 hand.2] at hcontent
    have hsame := hverified.verified es c₁ p₁ h path r hr _ hcontent
    rw [hsame] at hlast
    cases hlast

end Verified

/-- **No file is left behind unverified** iff no transfer is left open. -/
theorem leavesVerified_iff (env : PullEnv) (dir : Dir) (sock : Stream) :
    LeavesVerified env dir sock ↔
      ∀ es c₁ p₁, Download env dir sock es c₁ p₁ → LeavesNothingOpen env es c₁ p₁ := by
  constructor
  · intro hverified es c₁ p₁ h
    constructor
    · intro path r hr path' exec hlast
      exact h.not_leavesVerified hr (Or.inl ⟨path', exec, hlast⟩) hverified
    · intro path r hr hlast
      rw [← not_or]
      intro hending
      exact h.not_leavesVerified hr (Or.inr ⟨hlast, hending⟩) hverified
  · intro hopen
    constructor
    · intro hrequests
      rw [do_pull_mode_of_requests hrequests]
      exact (pullRun_rounds env (.initial dir) sock).1
    · intro es c₁ p₁ h path r hr content hcontent
      have hnothing := hopen es c₁ p₁ h
      rcases hlast : (transfer r).2 with _ | e
      · have hnone := h.content_of_none hr hlast
        rw [if_pos (hnothing.ending path r hr hlast)] at hnone
        rw [hnone] at hcontent
        cases hcontent
      · cases e with
        | file_meta path' exec => exact absurd hlast (hnothing.inside path r hr path' exec)
        | chunk data => exact absurd hlast (transfer_ne_chunk r data)
        | file_end checksum =>
          have hend := h.content_of_end hr hlast
          rw [hend] at hcontent
          split_ifs at hcontent with hcrc
          · obtain rfl := Option.some.inj hcontent
            exact Prod.ext rfl (by rw [hlast, hcrc])
          · cases hcontent

/-! ### A file that is left behind -/

/-- A `RES_FILE_META`. -/
def someMeta : FileMetaHeader :=
  { magic := MAGIC_NUMBER, version := PROTO_VERSION, pkt_type := RES_FILE_META, header_size := 144
    filename := .ofStr 127 (ascii "a.c"), file_size := 60, is_executable := 0, file_index := 1
    total_files := 1 }

/-- A `RES_FILE_DONE`. -/
def someDone (total_files : UInt8) : FileEndHeader :=
  { magic := MAGIC_NUMBER, version := PROTO_VERSION, pkt_type := RES_FILE_DONE, header_size := 16
    checksum := 0, total_files }

/-- No call of the client fails. -/
def nothingFails : PullEnv :=
  { umask := 0o022, connected := true, sends := fun _ => some 99, opens := fun _ => true
    mallocs := fun _ => true, writes := fun _ _ => some 99, chmods := fun _ => true }

/-- A `RES_FILE_DONE` right after a `RES_FILE_META` leaves an empty file. -/
theorem empty_file_left :
    ¬ LeavesVerified nothingFails (fun _ => none)
      ⟨someMeta.encode ++ (someDone 1).encode, fun _ => 99⟩ := by
  have hparse : parsePacket (someMeta.encode ++ (someDone 1).encode) =
      some (.file_meta (ascii "./a.c") 0, (someDone 1).encode) := by decide +kernel
  have hdone : DoneAt (someDone 1).encode := by decide
  have hrounds : Rounds nothingFails (.initial fun _ => none)
      (Stream.mk (someMeta.encode ++ (someDone 1).encode) fun _ => 99).rest
      [.file_meta (ascii "./a.c") 0] _ (someDone 1).encode := .cons hparse rfl (.nil _ _)
  obtain ⟨h, -⟩ := hrounds.download (by decide) (.done hdone)
  have hsince : [] ∈ since (ascii "./a.c") [.file_meta (ascii "./a.c") 0] := rfl
  exact h.not_leavesVerified hsince (Or.inr ⟨rfl, Or.inl hdone⟩)

end MiniCi
