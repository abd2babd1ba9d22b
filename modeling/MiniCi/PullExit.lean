/-
# What exit code 0 of a download means

The client returns 0 at any common header of type `RES_FILE_DONE`, wherever it stands.  A file
that is damaged is removed and the download goes on; a `RES_FILE_META` in the middle of a transfer
starts another one; the number of files in the `RES_FILE_DONE` is not looked at, nor is anything
behind its common header.

So 0 does not mean that the stream was a sequence of whole transfers, and a `RES_FILE_DONE` after
them with their number, unless none of this has happened (`exitTellsAll_iff`).  Which packets the
client refuses, and for which a call fails, is determined by the packets before them: how many
file operations there were, and what the open file has received (`Taken`).
-/
import MiniCi.PullTransfers

namespace MiniCi

open CStr ByteStream

/-! ## Well-formed streams -/

/-- `n` transfers one after the other, each with the right checksum. -/
inductive WholeTransfers : List PullPacket → ℕ → Prop
  | nil : WholeTransfers [] 0
  | cons (path : Bytes) (is_executable : UInt8) (chunks : List Bytes) {es : List PullPacket}
      {n : ℕ} : WholeTransfers es n →
      WholeTransfers (.file_meta path is_executable ::
        (chunks.map .chunk ++ .file_end (crc32_buf chunks.flatten) :: es)) (n + 1)

/-- The bytes `p` are the packets `es` and then `q`. -/
inductive Parses : Bytes → List PullPacket → Bytes → Prop
  | nil (p : Bytes) : Parses p [] p
  | cons {p q r : Bytes} {e : PullPacket} {es : List PullPacket} :
      parsePacket p = some (e, q) → Parses q es r → Parses p (e :: es) r

/-- The bytes are a `RES_FILE_DONE` for `n` files, and nothing else. -/
structure WholeDone (p : Bytes) (n : ℕ) : Prop where
  done : DoneAt p
  header_size : (CommonHeader.decode p).header_size.toNat = sizeofFileEndHeader
  length : p.length = sizeofFileEndHeader
  total_files : (FileEndHeader.decode (CommonHeader.decode p)
    (p.drop sizeofCommonHeader)).total_files.toNat = n

/-- Whole transfers, and a `RES_FILE_DONE` with their number. -/
def WellFormed (stream : Bytes) : Prop :=
  ∃ es n p, WholeTransfers es n ∧ Parses stream es p ∧ WholeDone p n

/-- `do_pull_mode` returns 0 on well-formed streams and 1 on all others. -/
structure ExitTellsAll (env : PullEnv) (dir : Dir) (sock : Stream) : Prop where
  zero : WellFormed sock.rest → (do_pull_mode env dir sock).1 = 0
  one : ¬ WellFormed sock.rest → (do_pull_mode env dir sock).1 = 1

/-! ## Refused packets and failing calls -/

/-- What the packets so far come to: the number of file operations and, if a file is open, its
`is_executable` and the bytes it has received. -/
structure Taken where
  ops : ℕ
  receiving : Option (UInt8 × Bytes)

/-- Before the first packet. -/
def Taken.nothing : Taken := ⟨0, none⟩

/-- One packet more.  A `RES_FILE_END` removes a damaged file, or makes it executable. -/
def Taken.next (t : Taken) : PullPacket → Taken
  | .file_meta _ exec => ⟨t.ops + 1, some (exec, [])⟩
  | .chunk data => ⟨t.ops + 1, t.receiving.map fun (exec, got) => (exec, got ++ data)⟩
  | .file_end checksum =>
    match t.receiving with
    | none => t
    | some (exec, got) => ⟨if checksum ≠ crc32_buf got ∨ exec ≠ 0 then t.ops + 1 else t.ops, none⟩

/-- A chunk or a `RES_FILE_END` without an open file. -/
def Taken.Refuses (t : Taken) : PullPacket → Prop
  | .file_meta _ _ => False
  | .chunk _ | .file_end _ => t.receiving = none

/-- The `open` of a `RES_FILE_META`, or the `malloc` or a `write` of a chunk, fails. -/
def Taken.Fails (env : PullEnv) (t : Taken) : PullPacket → Prop
  | .file_meta _ _ => env.opens t.ops = false
  | .chunk data => env.mallocs t.ops = false ∨ (Sink.writeAll ⟨[], env.writes t.ops⟩ data).1 = false
  | .file_end _ => False

/-- None of the packets is as `P` says, given the packets before it. -/
def Taken.Never (P : Taken → PullPacket → Prop) : Taken → List PullPacket → Prop
  | _, [] => True
  | t, e :: es => ¬ P t e ∧ Taken.Never P (t.next e) es

/-- The client refuses none of the packets. -/
def NoneRefused (es : List PullPacket) : Prop := Taken.Never Taken.Refuses .nothing es

/-- No call of the client fails for one of the packets. -/
def NoneFails (env : PullEnv) (es : List PullPacket) : Prop :=
  Taken.Never (Taken.Fails env) .nothing es

/-- The packets up to a `RES_FILE_DONE`, and this, show nothing amiss: no `RES_FILE_META` in the
middle of a transfer, no wrong checksum, no transfer without an end, and the whole `RES_FILE_DONE`
with the number of the `RES_FILE_META`s. -/
structure NothingAmiss (es : List PullPacket) (p : Bytes) : Prop where
  inside : ∀ pre path exec r, es = pre ++ .file_meta path exec :: r →
    ∀ path' exec', (transfer r).2 ≠ some (.file_meta path' exec')
  undamaged : ∀ pre path exec r, es = pre ++ .file_meta path exec :: r →
    ∀ checksum, (transfer r).2 = some (.file_end checksum) → checksum = crc32_buf (transfer r).1
  ended : ∀ pre path exec r, es = pre ++ .file_meta path exec :: r → (transfer r).2 ≠ none
  done : WholeDone p (es.countP fun e => e.IsMeta)

/-! ## Packets of whole transfers -/

theorem transfer_chunks (chunks : List Bytes) (r : List PullPacket) :
    transfer (chunks.map .chunk ++ r) = (chunks.flatten ++ (transfer r).1, (transfer r).2) := by
  induction chunks with
  | nil => rfl
  | cons data chunks ih =>
    simp only [List.map_cons, List.cons_append, transfer, ih, List.flatten_cons,
      List.append_assoc]

/-- A transfer that has ended is some chunks and the packet that ended it. -/
theorem exists_chunks_of_transfer {r : List PullPacket} {e : PullPacket}
    (h : (transfer r).2 = some e) :
    ∃ (chunks : List Bytes) (es : List PullPacket), r = chunks.map .chunk ++ e :: es ∧
      (transfer r).1 = chunks.flatten := by
  induction r with
  | nil => cases h
  | cons e' r ih =>
    cases e' with
    | chunk data =>
      obtain ⟨chunks, es, rfl, hdata⟩ := ih h
      exact ⟨data :: chunks, es, rfl, congrArg (data ++ ·) hdata⟩
    | file_meta _ _ =>
      obtain rfl := Option.some.inj h
      exact ⟨[], r, rfl, rfl⟩
    | file_end _ =>
      obtain rfl := Option.some.inj h
      exact ⟨[], r, rfl, rfl⟩

/-- Where a `RES_FILE_META` stands behind the chunks and the end of another transfer. -/
theorem meta_after_chunks {chunks : List Bytes} {checksum : UInt32} {es pre r : List PullPacket}
    {path : Bytes} {exec : UInt8}
    (h : chunks.map .chunk ++ .file_end checksum :: es = pre ++ .file_meta path exec :: r) :
    ∃ pre', es = pre' ++ .file_meta path exec :: r := by
  induction chunks generalizing pre with
  | nil =>
    cases pre with
    | nil => cases h
    | cons e pre => exact ⟨pre, (List.cons.inj h).2⟩
  | cons data chunks ih =>
    cases pre with
    | nil => cases h
    | cons e pre => exact ih (List.cons.inj h).2

/-- Every transfer of a sequence of whole ones is ended with the right checksum. -/
theorem WholeTransfers.transfer_eq {es : List PullPacket} {n : ℕ} (h : WholeTransfers es n)
    {pre r : List PullPacket} {path : Bytes} {exec : UInt8}
    (hes : es = pre ++ .file_meta path exec :: r) :
    (transfer r).2 = some (.file_end (crc32_buf (transfer r).1)) := by
  induction h generalizing pre with
  | nil =>
    rw [eq_comm, List.append_eq_nil_iff] at hes
    cases hes.2
  | cons path' exec' chunks _ ih =>
    cases pre with
    | nil =>
      obtain ⟨-, rfl⟩ := List.cons.inj hes
      rw [transfer_chunks]
      simp [transfer]
    | cons e pre =>
      obtain ⟨pre', hes'⟩ := meta_after_chunks (List.cons.inj hes).2
      exact ih hes'

/-- There are as many `RES_FILE_META`s as transfers. -/
theorem WholeTransfers.countP_eq {es : List PullPacket} {n : ℕ} (h : WholeTransfers es n) :
    es.countP (fun e => e.IsMeta) = n := by
  induction h with
  | nil => rfl
  | cons path exec chunks _ ih =>
    have hchunks : (chunks.map PullPacket.chunk).countP (fun e => e.IsMeta) = 0 := by
      rw [List.countP_eq_zero]
      intro e he
      obtain ⟨data, -, rfl⟩ := List.mem_map.mp he
      exact Bool.false_ne_true
    rw [List.countP_cons, List.countP_append, List.countP_cons, hchunks, ih]
    exact congrArg (· + 1) (Nat.zero_add _)

/-! ## Parsing -/

section Parsing

variable {p q q' : Bytes} {es es' : List PullPacket}

/-- Packets up to something else than a packet are all there are. -/
theorem Parses.covers (h : Parses p es q) (hq : parsePacket q = none) (h' : Parses p es' q') :
    es' <+: es := by
  induction h generalizing es' with
  | nil p =>
    cases h' with
    | nil => exact List.nil_prefix
    | cons hparse _ =>
      rw [hparse] at hq
      cases hq
  | cons hparse _ ih =>
    cases h' with
    | nil => exact List.nil_prefix
    | cons hparse' hparses' =>
      obtain ⟨rfl, rfl⟩ := Prod.mk.inj (Option.some.inj (hparse.symm.trans hparse'))
      exact List.cons_prefix_cons.mpr ⟨rfl, ih hq hparses'⟩

/-- The packets of a stream are determined as far as they go. -/
theorem Parses.unique (h : Parses p es q) (h' : Parses p es' q') (hq : parsePacket q = none)
    (hq' : parsePacket q' = none) : es = es' ∧ q = q' := by
  induction h generalizing es' with
  | nil p =>
    cases h' with
    | nil => exact ⟨rfl, rfl⟩
    | cons hparse _ =>
      rw [hparse] at hq
      cases hq
  | cons hparse _ ih =>
    cases h' with
    | nil =>
      rw [hparse] at hq'
      cases hq'
    | cons hparse' hparses' =>
      obtain ⟨rfl, rfl⟩ := Prod.mk.inj (Option.some.inj (hparse.symm.trans hparse'))
      obtain ⟨rfl, rfl⟩ := ih hparses' hq
      exact ⟨rfl, rfl⟩

/-- What the client takes are the packets of the stream. -/
theorem Rounds.parses {env : PullEnv} {c c₁ : PullClient} (h : Rounds env c p es c₁ q) :
    Parses p es q := by
  induction h with
  | nil c p => exact .nil p
  | cons hparse _ _ ih => exact .cons hparse ih

/-- The code is 0 iff the download ends at a `RES_FILE_DONE`. -/
theorem LastRound.code_eq {env : PullEnv} {c c' : PullClient} {code : ℕ}
    (h : LastRound env c p code c') : code = if DoneAt p then 0 else 1 := by
  cases h with
  | refused hparse _ =>
    rw [if_neg fun hd => absurd (parsePacket_of_doneAt hd) (by simp [hparse])]
  | done hdone => rw [if_pos hdone]
  | broken _ hdone => rw [if_neg hdone]

end Parsing

/-! ## What the client takes -/

/-- A condition that none of some packets meets is met by none of the first of them. -/
theorem Taken.Never.of_prefix {P : Taken → PullPacket → Prop} {t : Taken}
    {es es' : List PullPacket} (h : Taken.Never P t es) (hpre : es' <+: es) :
    Taken.Never P t es' := by
  induction es' generalizing t es with
  | nil => trivial
  | cons e es' ih =>
    obtain ⟨r, rfl⟩ := hpre
    obtain ⟨hnot, hrest⟩ := h
    exact ⟨hnot, ih hrest (List.prefix_append _ _)⟩

/-- The client is where the packets it has taken have brought it. -/
structure Taken.Of (t : Taken) (c : PullClient) : Prop where
  ops : c.ops.length = t.ops
  closed : t.receiving = none → c.out_fd = none
  opened : ∀ exec got, t.receiving = some (exec, got) → c.state = PULL_STATE_WAIT_CHUNK ∧
    c.out_fd ≠ none ∧ c.out_exec = exec ∧ c.crc_accum = Crc.update 0xEDB88320 0xFFFFFFFF got

theorem taken_initial (dir : Dir) : Taken.nothing.Of (.initial dir) := ⟨rfl, fun _ => rfl, nofun⟩

section Take

variable {env : PullEnv} {t : Taken} {c : PullClient}

theorem takes_meta_iff (h : t.Of c) (path : Bytes) (exec : UInt8) :
    (∃ c', takeMeta env c path exec = (true, c')) ↔ env.opens t.ops ≠ false := by
  rw [← h.ops]
  unfold takeMeta
  by_cases hopen : env.opens c.ops.length = false
  · simp [hopen]
  · simp [hopen]

theorem takes_chunk_iff (h : t.Of c) (data : Bytes) :
    (∃ c', takeChunk env c data = (true, c')) ↔ t.receiving ≠ none ∧
      ¬ (env.mallocs t.ops = false ∨ (Sink.writeAll ⟨[], env.writes t.ops⟩ data).1 = false) := by
  rw [← h.ops]
  unfold takeChunk
  rcases hreceiving : t.receiving with _ | ⟨exec, got⟩
  · simp [h.closed hreceiving]
  · obtain ⟨hstate, hfd, -, -⟩ := h.opened exec got hreceiving
    obtain ⟨path, hpath⟩ := Option.ne_none_iff_exists'.mp hfd
    simp only [hstate, hpath]
    by_cases hmalloc : env.mallocs c.ops.length = false
    · simp [hmalloc]
    · unfold storeChunk
      rcases hw : Sink.writeAll ⟨[], env.writes c.ops.length⟩ data with ⟨written, out⟩
      cases written <;> simp [hmalloc]

theorem takes_end_iff (h : t.Of c) (checksum : UInt32) :
    (∃ c', takeEnd env c checksum = (true, c')) ↔ t.receiving ≠ none := by
  unfold takeEnd
  rcases hreceiving : t.receiving with _ | ⟨exec, got⟩
  · simp [h.closed hreceiving]
  · obtain ⟨-, hfd, -, -⟩ := h.opened exec got hreceiving
    simp only [if_neg hfd]
    split_ifs <;> simp

/-- **A packet is taken unless it is refused or a call fails.** -/
theorem takes_iff (h : t.Of c) (e : PullPacket) :
    (∃ c', takePacket env c e = (true, c')) ↔ ¬ t.Refuses e ∧ ¬ t.Fails env e := by
  cases e with
  | file_meta path exec =>
    exact (takes_meta_iff h path exec).trans (by simp [Taken.Refuses, Taken.Fails])
  | chunk data => exact takes_chunk_iff h data
  | file_end checksum =>
    exact (takes_end_iff h checksum).trans (by simp [Taken.Refuses, Taken.Fails])

/-- The client after a packet it has taken. -/
theorem Taken.Of.next (h : t.Of c) {e : PullPacket} {c' : PullClient}
    (htake : takePacket env c e = (true, c')) : (t.next e).Of c' := by
  cases e with
  | file_meta path exec =>
    obtain ⟨-, rfl⟩ := takeMeta_true htake
    refine ⟨by simp [Taken.next, h.ops], nofun, fun exec' got hsome => ?_⟩
    obtain ⟨rfl, rfl⟩ := Prod.mk.inj (Option.some.inj hsome)
    exact ⟨rfl, Option.some_ne_none _, rfl, rfl⟩
  | chunk data =>
    obtain ⟨path, hstate, hfd, rfl⟩ := takeChunk_true htake
    refine ⟨by simp [Taken.next, h.ops], fun hnone => ?_, fun exec got hsome => ?_⟩
    · exact h.closed (Option.map_eq_none_iff.mp hnone)
    · obtain ⟨⟨exec', got'⟩, hreceiving, heq⟩ := Option.map_eq_some_iff.mp hsome
      obtain ⟨rfl, rfl⟩ := Prod.mk.inj heq
      obtain ⟨-, hopen, hexec, hcrc⟩ := h.opened exec' got' hreceiving
      refine ⟨hstate, hopen, hexec, ?_⟩
      rw [Crc.update_append, ← hcrc]
  | file_end checksum =>
    obtain ⟨hopen, hclosed, -⟩ := takeEnd_true htake
    rcases hreceiving : t.receiving with _ | ⟨exec, got⟩
    · exact absurd (h.closed hreceiving) hopen
    · obtain ⟨-, -, hexec, hcrc⟩ := h.opened exec got hreceiving
      have hnext : t.next (.file_end checksum) =
          ⟨if checksum ≠ crc32_buf got ∨ exec ≠ 0 then t.ops + 1 else t.ops, none⟩ := by
        rw [Taken.next, hreceiving]
      rw [hnext]
      refine ⟨?_, fun _ => hclosed, nofun⟩
      unfold takePacket takeEnd at htake
      simp only [if_neg hopen, hcrc, hexec] at htake
      unfold crc32_buf
      -- the operation is the `unlink` of a damaged file or the `chmod` of an executable one
      by_cases hdamaged : checksum ≠ ~~~Crc.update 0xEDB88320 0xFFFFFFFF got
      · simp only [if_pos hdamaged] at htake
        obtain ⟨-, rfl⟩ := Prod.mk.inj htake
        rw [if_pos (Or.inl hdamaged)]
        simp [h.ops]
      · simp only [if_neg hdamaged] at htake
        by_cases hmode : exec ≠ 0
        · simp only [if_pos hmode] at htake
          obtain ⟨-, rfl⟩ := Prod.mk.inj htake
          rw [if_pos (Or.inr hmode)]
          simp [h.ops]
        · simp only [if_neg hmode] at htake
          obtain ⟨-, rfl⟩ := Prod.mk.inj htake
          rw [if_neg (not_or.mpr ⟨hdamaged, hmode⟩)]
          exact h.ops

/-- **Packets are taken iff they are those of the stream, none is refused and no call fails.** -/
theorem rounds_iff (h : t.Of c) {p q : Bytes} {es : List PullPacket} :
    (∃ c₁, Rounds env c p es c₁ q) ↔
      Parses p es q ∧ Taken.Never Taken.Refuses t es ∧ Taken.Never (Taken.Fails env) t es := by
  induction es generalizing t c p with
  | nil =>
    constructor
    · rintro ⟨c₁, hrounds⟩
      exact ⟨hrounds.parses, trivial, trivial⟩
    · rintro ⟨hparses, -, -⟩
      cases hparses
      exact ⟨c, .nil c _⟩
  | cons e es ih =>
    constructor
    · rintro ⟨c₁, hrounds⟩
      cases hrounds with
      | cons hparse htake hrest =>
        obtain ⟨hparses, hrefuses, hfails⟩ := (ih (h.next htake)).mp ⟨c₁, hrest⟩
        obtain ⟨hrefused, hfailed⟩ := (takes_iff h e).mp ⟨_, htake⟩
        exact ⟨.cons hparse hparses, ⟨hrefused, hrefuses⟩, hfailed, hfails⟩
    · rintro ⟨hparses, ⟨hrefused, hrefuses⟩, hfailed, hfails⟩
      cases hparses with
      | cons hparse hrest =>
        obtain ⟨c', htake⟩ := (takes_iff h e).mpr ⟨hrefused, hfailed⟩
        obtain ⟨c₁, hrounds⟩ := (ih (h.next htake)).mpr ⟨hrest, hrefuses, hfails⟩
        exact ⟨c₁, .cons hparse htake hrounds⟩

end Take

/-- `do_pull_mode` returns 0 or 1. -/
theorem do_pull_mode_le_one (env : PullEnv) (dir : Dir) (sock : Stream) :
    (do_pull_mode env dir sock).1 = 0 ∨ (do_pull_mode env dir sock).1 = 1 := by
  by_cases hrequests : env.Requests
  · obtain ⟨es, c₁, p₁, h⟩ := exists_download hrequests dir sock
    rw [h.lastRound.code_eq]
    split_ifs
    · exact Or.inl rfl
    · exact Or.inr rfl
  · exact Or.inr (by rw [do_pull_mode_of_not_requests hrequests])

/-- **The code is 0** iff the request is sent and the packets lead to a `RES_FILE_DONE` with none
refused and no call failing. -/
theorem do_pull_mode_eq_zero_iff (env : PullEnv) (dir : Dir) (sock : Stream) :
    (do_pull_mode env dir sock).1 = 0 ↔
      env.Requests ∧ ∃ es p, Parses sock.rest es p ∧ DoneAt p ∧ NoneRefused es ∧
        NoneFails env es := by
  constructor
  · intro hzero
    by_cases hrequests : env.Requests
    · obtain ⟨es, c₁, p₁, h⟩ := exists_download hrequests dir sock
      rw [h.lastRound.code_eq] at hzero
      split_ifs at hzero with hdone
      obtain ⟨hparses, hrefused, hfails⟩ := (rounds_iff (taken_initial dir)).mp ⟨c₁, h.rounds⟩
      exact ⟨hrequests, es, p₁, hparses, hdone, hrefused, hfails⟩
    · rw [do_pull_mode_of_not_requests hrequests] at hzero
      cases hzero
  · rintro ⟨hrequests, es, p, hparses, hdone, hrefused, hfails⟩
    obtain ⟨c₁, hrounds⟩ := (rounds_iff (taken_initial dir)).mpr ⟨hparses, hrefused, hfails⟩
    rw [do_pull_mode_of_requests hrequests, hrounds.pullRun_eq rfl (.done hdone)]

/-! ## Packets with nothing amiss are whole transfers -/

/-- The packets of whole transfers are refused nowhere. -/
theorem WholeTransfers.never_refused {es : List PullPacket} {n : ℕ} (h : WholeTransfers es n)
    (t : Taken) : Taken.Never Taken.Refuses t es := by
  induction h generalizing t with
  | nil => trivial
  | cons path exec chunks _ ih =>
    refine ⟨id, ?_⟩
    -- up to the `RES_FILE_END` the file is open
    suffices hopen : ∀ t' : Taken, t'.receiving ≠ none → ∀ got : Bytes,
        Taken.Never Taken.Refuses t'
          (chunks.map .chunk ++ .file_end (crc32_buf got) :: _) by
      exact hopen _ (Option.some_ne_none _) _
    intro t' ht' got
    induction chunks generalizing t' with
    | nil => exact ⟨ht', ih _⟩
    | cons data chunks ihchunks =>
      exact ⟨ht', ihchunks _ (by simpa [Taken.next] using ht')⟩

/-- Behind chunks and a `RES_FILE_END` no file is open, and the packets go on. -/
theorem Taken.Never.behind_end {t : Taken} {chunks : List Bytes} {checksum : UInt32}
    {es : List PullPacket} (ht : t.receiving ≠ none)
    (h : Taken.Never Taken.Refuses t (chunks.map .chunk ++ .file_end checksum :: es)) :
    ∃ t' : Taken, t'.receiving = none ∧ Taken.Never Taken.Refuses t' es := by
  induction chunks generalizing t with
  | nil =>
    obtain ⟨⟨exec, got⟩, hreceiving⟩ := Option.ne_none_iff_exists'.mp ht
    refine ⟨t.next (.file_end checksum), ?_, h.2⟩
    rw [Taken.next, hreceiving]
  | cons data chunks ih => exact ih (by simpa [Taken.next] using ht) h.2

/-- Packets of which none is refused are whole transfers, if each transfer is ended with the right
checksum. -/
theorem wholeTransfers_of_never {t : Taken} {es : List PullPacket} (ht : t.receiving = none)
    (h : Taken.Never Taken.Refuses t es)
    (hwhole : ∀ pre path exec r, es = pre ++ .file_meta path exec :: r →
      (transfer r).2 = some (.file_end (crc32_buf (transfer r).1))) :
    WholeTransfers es (es.countP fun e => e.IsMeta) := by
  suffices hex : ∃ n, WholeTransfers es n by
    obtain ⟨n, hn⟩ := hex
    rwa [hn.countP_eq]
  generalize hn : es.length = n
  -- induction on the number of packets, one transfer at a time
  induction n using Nat.strong_induction_on generalizing t es with
  | _ n ih =>
    cases es with
    | nil => exact ⟨0, .nil⟩
    | cons e es =>
      obtain ⟨hrefused, hrest⟩ := h
      cases e with
      | chunk data => exact absurd ht hrefused
      | file_end checksum => exact absurd ht hrefused
      | file_meta path exec =>
        have hended := hwhole [] path exec es rfl
        obtain ⟨chunks, es', hes, hdata⟩ := exists_chunks_of_transfer hended
        rw [hdata] at hes
        rw [hes] at hrest
        obtain ⟨t', ht', hrest'⟩ := hrest.behind_end (Option.some_ne_none _)
        have hlt : es'.length < n := by
          rw [← hn, hes]
          simp only [List.length_cons, List.length_append]
          omega
        have hwhole' : ∀ pre path' exec' r, es' = pre ++ .file_meta path' exec' :: r →
            (transfer r).2 = some (.file_end (crc32_buf (transfer r).1)) := by
          intro pre path' exec' r heq
          apply hwhole (.file_meta path exec :: (chunks.map .chunk ++
            .file_end (crc32_buf chunks.flatten) :: pre)) path' exec' r
          rw [hes, heq]
          simp only [List.cons_append, List.append_assoc]
        obtain ⟨k, hk⟩ := ih _ hlt ht' hrest' hwhole' rfl
        rw [hes]
        exact ⟨k + 1, .cons path exec chunks hk⟩

/-- A stream whose packets up to a `RES_FILE_DONE` are not refused is well formed iff they show
nothing amiss. -/
theorem wellFormed_iff {stream p : Bytes} {es : List PullPacket} (hparses : Parses stream es p)
    (hdone : DoneAt p) (hrefused : NoneRefused es) :
    WellFormed stream ↔ NothingAmiss es p := by
  constructor
  · rintro ⟨es', n, p', hwhole, hparses', hp'⟩
    obtain ⟨rfl, rfl⟩ := hparses.unique hparses' (parsePacket_of_doneAt hdone)
      (parsePacket_of_doneAt hp'.done)
    constructor
    · intro pre path exec r heq path' exec' hmeta
      rw [hwhole.transfer_eq heq] at hmeta
      cases hmeta
    · intro pre path exec r heq checksum hend
      rw [hwhole.transfer_eq heq] at hend
      exact (PullPacket.file_end.inj (Option.some.inj hend)).symm
    · intro pre path exec r heq hnone
      rw [hwhole.transfer_eq heq] at hnone
      cases hnone
    · rw [hwhole.countP_eq]
      exact hp'
  · intro hamiss
    refine ⟨es, _, p, wholeTransfers_of_never rfl hrefused ?_, hparses, hamiss.done⟩
    intro pre path exec r heq
    rcases hlast : (transfer r).2 with _ | e
    · exact absurd hlast (hamiss.ended pre path exec r heq)
    · cases e with
      | file_meta path' exec' => exact absurd hlast (hamiss.inside pre path exec r heq path' exec')
      | chunk data => exact absurd hlast (transfer_ne_chunk r data)
      | file_end checksum => rw [hamiss.undamaged pre path exec r heq checksum hlast]

/-- **Exit code 0 means that everything has arrived** iff on a well-formed stream the request is
sent and no call fails, and packets that lead to a `RES_FILE_DONE`, with none refused and no call
failing, show nothing amiss. -/
theorem exitTellsAll_iff (env : PullEnv) (dir : Dir) (sock : Stream) :
    ExitTellsAll env dir sock ↔
      (WellFormed sock.rest →
        env.Requests ∧ ∀ es p, Parses sock.rest es p → NoneFails env es) ∧
      (env.Requests → ∀ es p, Parses sock.rest es p → DoneAt p → NoneRefused es →
        NoneFails env es → NothingAmiss es p) := by
  constructor
  · intro hexit
    constructor
    · intro hwf
      obtain ⟨hrequests, es, p, hparses, hdone, -, hfails⟩ :=
        (do_pull_mode_eq_zero_iff env dir sock).mp (hexit.zero hwf)
      refine ⟨hrequests, fun es' p' hparses' => ?_⟩
      exact hfails.of_prefix (hparses.covers (parsePacket_of_doneAt hdone) hparses')
    · intro hrequests es p hparses hdone hrefused hfails
      have hzero := (do_pull_mode_eq_zero_iff env dir sock).mpr
        ⟨hrequests, es, p, hparses, hdone, hrefused, hfails⟩
      rw [← wellFormed_iff hparses hdone hrefused]
      by_contra hwf
      rw [hexit.one hwf] at hzero
      cases hzero
  · rintro ⟨hwhole, hamiss⟩
    constructor
    · intro hwf
      obtain ⟨hrequests, hfails⟩ := hwhole hwf
      obtain ⟨es, n, p, htransfers, hparses, hp⟩ := hwf
      exact (do_pull_mode_eq_zero_iff env dir sock).mpr ⟨hrequests, es, p, hparses, hp.done,
        htransfers.never_refused _, hfails es p hparses⟩
    · intro hwf
      refine (do_pull_mode_le_one env dir sock).resolve_left fun hzero => hwf ?_
      obtain ⟨hrequests, es, p, hparses, hdone, hrefused, hfails⟩ :=
        (do_pull_mode_eq_zero_iff env dir sock).mp hzero
      exact (wellFormed_iff hparses hdone hrefused).mpr
        (hamiss hrequests es p hparses hdone hrefused hfails)

/-- A `RES_FILE_END`. -/
def someEnd (checksum : UInt32) : FileEndHeader :=
  { magic := MAGIC_NUMBER, version := PROTO_VERSION, pkt_type := RES_FILE_END, header_size := 16
    checksum, total_files := 0 }

/-- The only file is damaged, and the exit code is 0. -/
theorem damaged_file_exits_zero :
    ¬ ExitTellsAll nothingFails (fun _ => none)
      ⟨someMeta.encode ++ ((someEnd 1).encode ++ (someDone 1).encode), fun _ => 99⟩ := by
  intro hexit
  have hmeta : parsePacket (someMeta.encode ++ ((someEnd 1).encode ++ (someDone 1).encode)) =
      some (.file_meta (ascii "./a.c") 0, (someEnd 1).encode ++ (someDone 1).encode) := by
    decide +kernel
  have hend : parsePacket ((someEnd 1).encode ++ (someDone 1).encode) =
      some (.file_end 1, (someDone 1).encode) := by decide
  have hdone : DoneAt (someDone 1).encode := by decide
  have hparses : Parses (someMeta.encode ++ ((someEnd 1).encode ++ (someDone 1).encode))
      [.file_meta (ascii "./a.c") 0, .file_end 1] (someDone 1).encode :=
    .cons hmeta (.cons hend (.nil _))
  have hrefused : NoneRefused [.file_meta (ascii "./a.c") 0, .file_end 1] :=
    ⟨id, Option.some_ne_none _, trivial⟩
  have hfails : NoneFails nothingFails [.file_meta (ascii "./a.c") 0, .file_end 1] :=
    ⟨nofun, id, trivial⟩
  have hzero := (do_pull_mode_eq_zero_iff nothingFails (fun _ => none) ⟨_, fun _ => 99⟩).mpr
    ⟨by decide, _, _, hparses, hdone, hrefused, hfails⟩
  have hwf : WellFormed (someMeta.encode ++ ((someEnd 1).encode ++ (someDone 1).encode)) := by
    by_contra hwf
    rw [hexit.one hwf] at hzero
    cases hzero
  have hcrc := ((wellFormed_iff hparses hdone hrefused).mp hwf).undamaged [] _ _ _ rfl 1 rfl
  exact absurd hcrc (by decide)

end MiniCi
