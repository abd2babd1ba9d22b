/-
# Which paths the client names

Whatever a server sends, the client opens, removes and makes executable only paths that are `./`
and one name, and each of them is the whole name of a `RES_FILE_META` of the stream
(`do_pull_mode_stays`).  What it removes or makes executable it has opened for writing before.

`out_path` outlives the packet it came with, so what is known of it is an invariant of the loop
(`ConfinedInv`): as long as a descriptor is open, it is open on `out_path`.
-/
import MiniCi.CutPackets

namespace MiniCi

open CStr ByteStream

/-! ## Paths -/

/-- One component of a path, as a C string. -/
structure Component (name : Bytes) : Prop where
  ne_nil : name ≠ []
  no_nul : 0 ∉ name
  no_slash : 47 ∉ name
  no_backslash : 92 ∉ name
  not_parent : name ≠ ascii ".."

/-- A `RES_FILE_META` of the stream. -/
def MetaIn (stream : Bytes) (hdr : FileMetaHeader) : Prop :=
  ∃ pre ch b post, stream = pre ++ ch ++ b ++ post ∧ ch.length = sizeofCommonHeader ∧
    b.length = sizeofFileMetaHeader - sizeofCommonHeader ∧
    hdr = FileMetaHeader.decode (CommonHeader.decode ch) b

/-- The path is `./` and the whole name of a `RES_FILE_META` of the stream, which is one
component. -/
def Confined (stream path : Bytes) : Prop :=
  ∃ hdr, MetaIn stream hdr ∧ Component hdr.name ∧ path = ascii "./" ++ hdr.name ∧
    path.length < 512

/-- One of the calls has opened the path for writing. -/
def OpenedIn (env : PullEnv) (ops : List FsOp) (path : Bytes) : Prop :=
  ∃ pre post, ops = pre ++ .create path :: post ∧ env.opens pre.length = true

/-- The calls stay in the current directory, and all but `open` are about a path that has been
opened before. -/
structure StaysInDirectory (env : PullEnv) (stream : Bytes) (ops : List FsOp) : Prop where
  confined : ∀ op ∈ ops, Confined stream op.path
  opened : ∀ pre op post, ops = pre ++ op :: post → op ≠ .create op.path →
    OpenedIn env pre op.path

section Paths

variable {env : PullEnv} {stream path name : Bytes} {ops : List FsOp}

theorem component_of_is_safe (h0 : 0 ∉ name) (h : is_safe_filename name = true) :
    Component name := by
  have hstr : str name = name := str_eq_self h0
  unfold is_safe_filename at h
  rw [hstr] at h
  split_ifs at h with hhead hslash hbackslash hparent
  refine ⟨?_, h0, hslash, hbackslash, hparent⟩
  rintro rfl
  exact hhead rfl

theorem OpenedIn.append (h : OpenedIn env ops path) (ops' : List FsOp) :
    OpenedIn env (ops ++ ops') path := by
  obtain ⟨pre, post, rfl, hopen⟩ := h
  exact ⟨pre, post ++ ops', by simp, hopen⟩

theorem OpenedIn.confined (h : OpenedIn env ops path) (hstays : StaysInDirectory env stream ops) :
    Confined stream path := by
  obtain ⟨pre, post, rfl, -⟩ := h
  exact hstays.confined (.create path) (by simp)

theorem staysInDirectory_nil : StaysInDirectory env stream [] where
  confined := by simp
  opened := by simp

/-- One call more. -/
theorem StaysInDirectory.concat {op : FsOp} (h : StaysInDirectory env stream ops)
    (hconfined : Confined stream op.path)
    (hopened : op ≠ .create op.path → OpenedIn env ops op.path) :
    StaysInDirectory env stream (ops ++ [op]) where
  confined := by
    intro op' hop'
    rcases List.mem_append.mp hop' with hop' | hop'
    · exact h.confined op' hop'
    · rw [List.mem_singleton.mp hop']
      exact hconfined
  opened := by
    intro pre op' post heq hne
    rcases List.eq_nil_or_concat post with rfl | ⟨post', last, rfl⟩
    · obtain ⟨rfl, hlast⟩ := List.append_inj' heq rfl
      obtain rfl := List.singleton_inj.mp hlast
      exact hopened hne
    · rw [List.concat_eq_append, ← List.cons_append, ← List.append_assoc] at heq
      obtain ⟨rfl, -⟩ := List.append_inj' heq rfl
      exact h.opened pre op' post' rfl hne

/-- A call about a path that has been opened. -/
theorem StaysInDirectory.concat_opened {op : FsOp} (h : StaysInDirectory env stream ops)
    (hopened : OpenedIn env ops op.path) : StaysInDirectory env stream (ops ++ [op]) :=
  h.concat (hopened.confined h) fun _ => hopened

end Paths

/-! ## Packets of the stream -/

section Parsed

variable {stream p q path : Bytes} {e : PullPacket} {exec : UInt8}

/-- What follows a packet is a later part of the stream. -/
theorem suffix_of_parsePacket (h : parsePacket p = some (e, q)) : q <:+ p := by
  unfold parsePacket at h
  rcases hheader : parseHeader p with _ | ⟨ch, q'⟩
  · simp only [hheader] at h
    cases h
  · obtain ⟨-, -, rfl, -⟩ := parseHeader_eq_some hheader
    simp only [hheader] at h
    split_ifs at h
    · rw [(parseMeta_eq_some h).2]
      exact (List.drop_suffix _ _).trans (List.drop_suffix _ _)
    · rw [(parseChunk_eq_some h).2]
      exact (List.drop_suffix _ _).trans (List.drop_suffix _ _)
    · rw [(parseEnd_eq_some h).2]
      exact (List.drop_suffix _ _).trans (List.drop_suffix _ _)

theorem metaIn_of_suffix (hp : p <:+ stream) (hlen : sizeofCommonHeader ≤ p.length)
    (hlen' : sizeofFileMetaHeader - sizeofCommonHeader ≤ (p.drop sizeofCommonHeader).length) :
    MetaIn stream (FileMetaHeader.decode (CommonHeader.decode (p.take sizeofCommonHeader))
      ((p.drop sizeofCommonHeader).take (sizeofFileMetaHeader - sizeofCommonHeader))) := by
  obtain ⟨pre, rfl⟩ := hp
  refine ⟨pre, p.take sizeofCommonHeader,
    (p.drop sizeofCommonHeader).take (sizeofFileMetaHeader - sizeofCommonHeader),
    (p.drop sizeofCommonHeader).drop (sizeofFileMetaHeader - sizeofCommonHeader), ?_,
    List.length_take_of_le hlen, List.length_take_of_le hlen', rfl⟩
  rw [List.append_assoc, List.take_append_drop, List.append_assoc, List.take_append_drop]

/-- **A `RES_FILE_META` that is taken names a file in the current directory.** -/
theorem confined_of_parsePacket (hp : p <:+ stream)
    (h : parsePacket p = some (.file_meta path exec, q)) : Confined stream path := by
  unfold parsePacket at h
  rcases hheader : parseHeader p with _ | ⟨ch, q'⟩
  · simp only [hheader] at h
    cases h
  · obtain ⟨hlen, rfl, rfl, -⟩ := parseHeader_eq_some hheader
    simp only [hheader] at h
    split_ifs at h
    · unfold parseMeta at h
      split_ifs at h
      rcases hsplit : splitOff (sizeofFileMetaHeader - sizeofCommonHeader)
        (p.drop sizeofCommonHeader) with _ | ⟨b, q''⟩
      · simp only [hsplit] at h
        cases h
      · obtain ⟨hlen', rfl, rfl⟩ := splitOff_eq_some hsplit
        simp only [hsplit] at h
        split_ifs at h with hsafe
        obtain ⟨heq, -⟩ := Prod.mk.inj (Option.some.inj h)
        obtain ⟨rfl, -⟩ := PullPacket.file_meta.inj heq
        have hname : Component _ := component_of_is_safe (fun h0 => ne_zero_of_mem_str h0 rfl)
          (Bool.eq_true_of_not_eq_false hsafe)
        exact ⟨_, metaIn_of_suffix hp hlen hlen', hname, rfl, length_path_lt _⟩
    · obtain ⟨⟨data, hdata⟩, -⟩ := parseChunk_eq_some h
      cases hdata
    · obtain ⟨⟨checksum, hend⟩, -⟩ := parseEnd_eq_some h
      cases hend

end Parsed

/-! ## The loop -/

/-- What is known of the client between two packets. -/
structure ConfinedInv (env : PullEnv) (stream : Bytes) (c : PullClient) : Prop where
  stays : StaysInDirectory env stream c.ops
  out_path : ∀ path ∈ c.out_fd, c.out_path = path ∧ OpenedIn env c.ops path

section Loop

variable {env : PullEnv} {stream p p₁ : Bytes} {c c' c₁ : PullClient} {es : List PullPacket}

theorem confinedInv_initial (dir : Dir) : ConfinedInv env stream (.initial dir) where
  stays := staysInDirectory_nil
  out_path := by intro path h; cases h

/-- A descriptor is open on a path that has been opened. -/
theorem ConfinedInv.opened (h : ConfinedInv env stream c) (hfd : c.out_fd ≠ none) :
    OpenedIn env c.ops c.out_path := by
  obtain ⟨path, hpath⟩ := Option.ne_none_iff_exists'.mp hfd
  obtain ⟨rfl, hopened⟩ := h.out_path path hpath
  exact hopened

theorem ConfinedInv.discard (h : ConfinedInv env stream c) : ConfinedInv env stream c.discard := by
  unfold PullClient.discard
  split
  · exact h
  · rename_i path hfd
    have hopened := h.opened (by rw [hfd]; exact Option.some_ne_none path)
    exact ⟨h.stays.concat_opened hopened, fun path' hpath' => by cases hpath'⟩

theorem ConfinedInv.takeMeta (h : ConfinedInv env stream c) {path : Bytes} {exec : UInt8}
    (hpath : Confined stream path) : ConfinedInv env stream (takeMeta env c path exec).2 := by
  have hstays : StaysInDirectory env stream (c.ops ++ [.create path]) :=
    h.stays.concat hpath fun hne => absurd rfl hne
  unfold MiniCi.takeMeta
  by_cases hopen : env.opens c.ops.length = false
  · simp only [if_pos hopen]
    exact ⟨hstays, fun path' hpath' => by cases hpath'⟩
  · simp only [if_neg hopen]
    refine ⟨hstays, ?_⟩
    intro path' hpath'
    obtain rfl := Option.some.inj hpath'
    exact ⟨rfl, c.ops, [], rfl, Bool.eq_true_of_not_eq_false hopen⟩

theorem ConfinedInv.storeChunk (h : ConfinedInv env stream c) {path : Bytes}
    (hfd : c.out_fd = some path) (buf : Bytes) :
    ConfinedInv env stream (storeChunk env c path buf).2 := by
  obtain ⟨hout, hopened⟩ := h.out_path path hfd
  unfold MiniCi.storeChunk
  refine ⟨h.stays.concat_opened hopened, ?_⟩
  intro path' hpath'
  obtain rfl := Option.some.inj (hfd.symm.trans hpath')
  exact ⟨hout, hopened.append _⟩

theorem ConfinedInv.takeChunk (h : ConfinedInv env stream c) (data : Bytes) :
    ConfinedInv env stream (takeChunk env c data).2 := by
  unfold MiniCi.takeChunk
  split
  · rename_i path hstate hfd
    split_ifs
    · exact h.discard
    · have hstored := h.storeChunk hfd data
      split
      · rename_i c' hstore
        rw [hstore] at hstored
        exact hstored.discard
      · rename_i c' hstore
        rw [hstore] at hstored
        exact hstored
  · exact h.discard

theorem ConfinedInv.takeEnd (h : ConfinedInv env stream c) (checksum : UInt32) :
    ConfinedInv env stream (takeEnd env c checksum).2 := by
  unfold MiniCi.takeEnd
  by_cases hfd : c.out_fd = none
  · simp only [if_pos hfd]
    exact h.discard
  · have hopened := h.opened hfd
    simp only [if_neg hfd]
    -- the descriptor is closed in every case
    split_ifs
    · exact ⟨h.stays.concat_opened hopened, fun path hpath => by cases hpath⟩
    · exact ⟨h.stays.concat_opened hopened, fun path hpath => by cases hpath⟩
    · exact ⟨h.stays.concat_opened hopened, fun path hpath => by cases hpath⟩
    · exact ⟨h.stays, fun path hpath => by cases hpath⟩

theorem ConfinedInv.takePacket (h : ConfinedInv env stream c) {e : PullPacket} {q : Bytes}
    (hp : p <:+ stream) (hparse : parsePacket p = some (e, q)) :
    ConfinedInv env stream (takePacket env c e).2 := by
  cases e with
  | file_meta path exec => exact h.takeMeta (confined_of_parsePacket hp hparse)
  | chunk data => exact h.takeChunk data
  | file_end checksum => exact h.takeEnd checksum

theorem ConfinedInv.rounds (h : ConfinedInv env stream c) (hp : p <:+ stream)
    (hrounds : Rounds env c p es c₁ p₁) : ConfinedInv env stream c₁ ∧ p₁ <:+ stream := by
  induction hrounds with
  | nil c p => exact ⟨h, hp⟩
  | cons hparse htake _ ih =>
    have hnext := h.takePacket hp hparse
    rw [htake] at hnext
    exact ih hnext ((suffix_of_parsePacket hparse).trans hp)

theorem ConfinedInv.lastRound (h : ConfinedInv env stream c) (hp : p <:+ stream) {code : ℕ}
    (hlast : LastRound env c p code c') : ConfinedInv env stream c' := by
  cases hlast with
  | refused hparse htake =>
    have hnext := h.takePacket hp hparse
    rw [htake] at hnext
    exact hnext
  | done _ => exact h
  | broken _ _ => exact h.discard

end Loop

/-- **Whatever the server sends, the client stays in the current directory.** -/
theorem do_pull_mode_stays (env : PullEnv) (dir : Dir) (sock : Stream) :
    StaysInDirectory env sock.rest (do_pull_mode env dir sock).2.ops := by
  by_cases hrequests : env.Requests
  · obtain ⟨es, c₁, p₁, hdownload⟩ := exists_download hrequests dir sock
    obtain ⟨hinv, hp⟩ := (confinedInv_initial dir).rounds List.suffix_rfl hdownload.rounds
    exact (hinv.lastRound hp hdownload.lastRound).stays
  · rw [do_pull_mode_of_not_requests hrequests]
    exact staysInDirectory_nil

end MiniCi
