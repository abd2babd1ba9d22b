/-
# The packets of the server, whole and cut short

A packet that has been sent as a whole is what the client splits off.  A packet whose sending has
failed is cut somewhere, and the bytes of a `RES_FILE_ERROR` may follow: the client takes them
for the missing part.

If the common header is cut, nothing can be made of it (`brokenAt_of_cut_header`).  Otherwise it
is the header of the packet, so that the client takes a packet of the same type, or none, and what
is left are bytes of the `RES_FILE_ERROR` (`parsePacket_cut`).  No packet of a file begins inside
these (`parsePacket_drop_error`).
-/
import MiniCi.PullServer
import MiniCi.PullPackets

namespace MiniCi

open CStr ByteStream Wire

/-! ## Splitting off -/

theorem splitOff_append {p : Bytes} {len : ℕ} (h : p.length = len) (q : Bytes) :
    splitOff len (p ++ q) = some (p, q) := by
  subst h
  unfold splitOff
  rw [if_pos (by rw [List.length_append]; omega), List.take_left, List.drop_left]

theorem splitOff_eq_some {p b q : Bytes} {len : ℕ} (h : splitOff len p = some (b, q)) :
    len ≤ p.length ∧ b = p.take len ∧ q = p.drop len := by
  unfold splitOff at h
  split_ifs at h with hlen
  obtain ⟨rfl, rfl⟩ := Prod.mk.inj (Option.some.inj h)
  exact ⟨hlen, rfl, rfl⟩

/-- Behind what was cut, something else is dropped. -/
theorem drop_cut {p : Bytes} {k n : ℕ} (hk : k ≤ p.length) (hn : k ≤ n) (q : Bytes) :
    (p.take k ++ q).drop n = q.drop (n - k) := by
  have hlen : (p.take k).length = k := List.length_take_of_le hk
  have hnil : (p.take k).drop n = [] := List.drop_eq_nil_of_le (by omega)
  rw [List.drop_append, hlen, hnil, List.nil_append]

/-! ## Common headers -/

/-- The common header of a packet of a file. -/
def CommonHeader.OfFile (h : CommonHeader) : Prop :=
  h.magic = MAGIC_NUMBER ∧
    (h.pkt_type = RES_FILE_META ∧ h.header_size.toNat = sizeofFileMetaHeader ∨
      h.pkt_type = RES_FILE_CHUNK ∧ h.header_size.toNat = sizeofFileChunkHeader ∨
      h.pkt_type = RES_FILE_END ∧ h.header_size.toNat = sizeofFileEndHeader)

/-- A common header at which the client returns 0. -/
def CommonHeader.OfDone (h : CommonHeader) : Prop :=
  h.magic = MAGIC_NUMBER ∧ h.pkt_type = RES_FILE_DONE ∧
    sizeofCommonHeader ≤ h.header_size.toNat

instance (h : CommonHeader) : Decidable h.OfFile := inferInstanceAs (Decidable (_ ∧ _))

instance (h : CommonHeader) : Decidable h.OfDone := inferInstanceAs (Decidable (_ ∧ _))

/-- The client leaves its loop with an error at these bytes. -/
structure BrokenAt (p : Bytes) : Prop where
  no_packet : parsePacket p = none
  not_done : ¬ DoneAt p

section Headers

variable {p q : Bytes} {ch : CommonHeader}

theorem parseHeader_encode (hmagic : ch.magic = MAGIC_NUMBER) (q : Bytes) :
    parseHeader (ch.encode ++ q) = some (ch, q) := by
  unfold parseHeader
  rw [splitOff_append ch.length_encode]
  simp only [CommonHeader.decode_encode, hmagic, ne_eq, not_true_eq_false, if_false]

/-- The common header is the first eight bytes. -/
theorem parseHeader_eq_some (h : parseHeader p = some (ch, q)) :
    sizeofCommonHeader ≤ p.length ∧ ch = CommonHeader.decode (p.take sizeofCommonHeader) ∧
      q = p.drop sizeofCommonHeader ∧ ch.magic = MAGIC_NUMBER := by
  unfold parseHeader at h
  rcases hsplit : splitOff sizeofCommonHeader p with _ | ⟨b, q'⟩
  · simp only [hsplit] at h
    cases h
  · obtain ⟨hlen, rfl, rfl⟩ := splitOff_eq_some hsplit
    simp only [hsplit] at h
    split_ifs at h with hmagic
    obtain ⟨rfl, rfl⟩ := Prod.mk.inj (Option.some.inj h)
    exact ⟨hlen, rfl, rfl, not_not.mp hmagic⟩

/-- Where a packet of a file is found, its common header is. -/
theorem ofFile_of_parsePacket {e : PullPacket} (h : parsePacket p = some (e, q)) :
    sizeofCommonHeader ≤ p.length ∧ (CommonHeader.decode (p.take sizeofCommonHeader)).OfFile := by
  unfold parsePacket at h
  rcases hheader : parseHeader p with _ | ⟨ch, q'⟩
  · simp only [hheader] at h
    cases h
  · obtain ⟨hlen, rfl, -, hmagic⟩ := parseHeader_eq_some hheader
    simp only [hheader] at h
    refine ⟨hlen, hmagic, ?_⟩
    split_ifs at h with hmeta hchunk hend
    · unfold parseMeta at h
      split_ifs at h with hsize
      exact Or.inl ⟨hmeta, not_not.mp hsize⟩
    · unfold parseChunk at h
      split_ifs at h with hsize
      exact Or.inr (Or.inl ⟨hchunk, not_not.mp hsize⟩)
    · unfold parseEnd at h
      split_ifs at h with hsize
      exact Or.inr (Or.inr ⟨hend, not_not.mp hsize⟩)

theorem ofDone_of_doneAt (h : DoneAt p) :
    sizeofCommonHeader ≤ p.length ∧ (CommonHeader.decode (p.take sizeofCommonHeader)).OfDone := by
  obtain ⟨⟨ch, q⟩, hheader, htype, hsize⟩ := h
  obtain ⟨hlen, rfl, -, hmagic⟩ := parseHeader_eq_some hheader
  exact ⟨hlen, hmagic, htype, hsize⟩

/-- The client can make nothing of bytes that begin with neither header. -/
theorem brokenAt_of_header
    (hfile : sizeofCommonHeader ≤ p.length →
      ¬ (CommonHeader.decode (p.take sizeofCommonHeader)).OfFile)
    (hdone : sizeofCommonHeader ≤ p.length →
      ¬ (CommonHeader.decode (p.take sizeofCommonHeader)).OfDone) : BrokenAt p := by
  constructor
  · by_contra hne
    obtain ⟨⟨e, q⟩, hparse⟩ := Option.ne_none_iff_exists'.mp hne
    obtain ⟨hlen, hof⟩ := ofFile_of_parsePacket hparse
    exact hfile hlen hof
  · intro h
    obtain ⟨hlen, hof⟩ := ofDone_of_doneAt h
    exact hdone hlen hof

/-- A `RES_FILE_DONE` is at the first eight bytes, whatever follows. -/
theorem not_doneAt_encode (hmagic : ch.magic = MAGIC_NUMBER) (htype : ch.pkt_type ≠ RES_FILE_DONE)
    (q : Bytes) : ¬ DoneAt (ch.encode ++ q) := by
  rintro ⟨h, hheader, hdone, -⟩
  have heq : parseHeader (ch.encode ++ q) = some h := hheader
  rw [parseHeader_encode hmagic] at heq
  obtain rfl := Option.some.inj heq
  exact htype hdone

end Headers

/-! ## Whole packets -/

section Whole

variable (q : Bytes)

theorem parsePacket_meta_header : parsePacket
    ((serverHeader RES_FILE_META sizeofFileMetaHeader).encode ++ q) =
      parseMeta (serverHeader RES_FILE_META sizeofFileMetaHeader) q := by
  unfold parsePacket
  rw [parseHeader_encode rfl]
  exact if_pos rfl

theorem parsePacket_chunk_header : parsePacket
    ((serverHeader RES_FILE_CHUNK sizeofFileChunkHeader).encode ++ q) =
      parseChunk (serverHeader RES_FILE_CHUNK sizeofFileChunkHeader) q := by
  unfold parsePacket
  rw [parseHeader_encode rfl]
  exact (if_neg (by decide)).trans (if_pos rfl)

theorem parsePacket_end_header : parsePacket
    ((serverHeader RES_FILE_END sizeofFileEndHeader).encode ++ q) =
      parseEnd (serverHeader RES_FILE_END sizeofFileEndHeader) q := by
  unfold parsePacket
  rw [parseHeader_encode rfl]
  exact (if_neg (by decide)).trans ((if_neg (by decide)).trans (if_pos rfl))

/-- The name that the client reads in the `RES_FILE_META` of a file. -/
theorem metaHeader_name (file : DirEnt) (file_name : Buf MAX_FILENAME) (index total : UInt8) :
    (metaHeader file file_name.bytes index total).name = file_name.str.take (MAX_FILENAME - 1) := by
  have hfield : (metaHeader file file_name.bytes index total).filename.bytes.take
      (MAX_FILENAME - 1) = strncpy file_name.bytes (MAX_FILENAME - 1) :=
    List.take_left' (length_strncpy _ _)
  rw [FileMetaHeader.name, hfield]
  exact Buf.str_strncpy _ _

/-- The `RES_FILE_META` of a file is taken as such if its name is safe. -/
theorem parsePacket_meta (file : DirEnt) (file_name : Buf MAX_FILENAME) (index total : UInt8) :
    parsePacket ((metaHeader file file_name.bytes index total).encode ++ q) =
      if is_safe_filename (file_name.str.take (MAX_FILENAME - 1)) = false then none
      else some (.file_meta (ascii "./" ++ file_name.str.take (MAX_FILENAME - 1))
        (if file.s_ixusr then 1 else 0), q) := by
  have hname := metaHeader_name file file_name index total
  have hlen : (metaHeader file file_name.bytes index total).fields.length =
      sizeofFileMetaHeader - sizeofCommonHeader := FileMetaHeader.length_fields _
  have hdecode : FileMetaHeader.decode (serverHeader RES_FILE_META sizeofFileMetaHeader)
      (metaHeader file file_name.bytes index total).fields =
        metaHeader file file_name.bytes index total :=
    FileMetaHeader.decode_fields (metaHeader file file_name.bytes index total)
  rw [FileMetaHeader.encode, List.append_assoc]
  refine (parsePacket_meta_header _).trans ?_
  unfold parseMeta
  rw [if_neg (by decide), splitOff_append hlen]
  simp only [hdecode, hname]
  rfl

theorem chunk_size_chunkHeader {chunk : Bytes} (hfits : chunk.length ≤ FILE_CHUNK_SIZE)
    (offset : UInt32) : (chunkHeader chunk offset).chunk_size.toNat = chunk.length := by
  have hsize : FILE_CHUNK_SIZE = 65536 := rfl
  apply UInt32.toNat_ofNat_of_lt'
  rw [UInt32.size]
  omega

theorem parsePacket_chunk {chunk : Bytes} (hne : chunk ≠ [])
    (hfits : chunk.length ≤ FILE_CHUNK_SIZE) (offset : UInt32) :
    parsePacket ((chunkHeader chunk offset).encode ++ (chunk ++ q)) = some (.chunk chunk, q) := by
  have hsize : FILE_CHUNK_SIZE = 65536 := rfl
  have hpos : 0 < chunk.length := List.length_pos_iff.mpr hne
  have hdecode : FileChunkHeader.decode (serverHeader RES_FILE_CHUNK sizeofFileChunkHeader)
      (chunkHeader chunk offset).fields = chunkHeader chunk offset :=
    FileChunkHeader.decode_fields (chunkHeader chunk offset)
  have hcsz := chunk_size_chunkHeader hfits offset
  rw [FileChunkHeader.encode, List.append_assoc]
  refine (parsePacket_chunk_header _).trans ?_
  unfold parseChunk
  rw [if_neg (by decide), splitOff_append (FileChunkHeader.length_fields _)]
  simp only [hdecode, hcsz]
  rw [if_neg (by omega), splitOff_append rfl]
  rfl

theorem parsePacket_end (checksum : UInt32) :
    parsePacket ((endHeader checksum).encode ++ q) = some (.file_end checksum, q) := by
  have hdecode : FileEndHeader.decode (serverHeader RES_FILE_END sizeofFileEndHeader)
      (endHeader checksum).fields = endHeader checksum :=
    FileEndHeader.decode_fields (endHeader checksum)
  rw [FileEndHeader.encode, List.append_assoc]
  refine (parsePacket_end_header _).trans ?_
  unfold parseEnd
  rw [if_neg (by decide), splitOff_append (FileEndHeader.length_fields _)]
  simp only [Option.map_some, hdecode]
  rfl

end Whole

/-! ## The bytes of a `RES_FILE_ERROR` -/

/-- The first `m` bytes of a `RES_FILE_ERROR`. -/
def errorBytes (message : Bytes) (m : ℕ) : Bytes := (errorHeader message).encode.take m

/-- A common header with the right magic number begins with an M. -/
theorem head_of_magic : ∀ {b : Bytes}, b.length = sizeofCommonHeader →
    (CommonHeader.decode b).magic = MAGIC_NUMBER → b.head? = some 0x4D
  | [x, y, z, w, _, _, _, _], _, h => by
    have hmagic : (ntohl [x, y, z, w]).toNat = 0x4D494E49 := congrArg UInt32.toNat h
    have hx := x.toNat_lt
    have hy := y.toNat_lt
    have hz := z.toNat_lt
    have hw := w.toNat_lt
    simp only [ntohl, ofBytes, List.foldl_cons, List.foldl_nil, UInt32.toNat_ofNat',
      Nat.reducePow] at hmagic
    have hx77 : x.toNat = 77 := by omega
    exact congrArg some (UInt8.toNat_inj.mp hx77)

/-- A `header_size` in which a NUL is followed by a NUL is zero or large. -/
theorem header_size_of_isChain : ∀ {b : Bytes}, b.length = sizeofCommonHeader →
    b.IsChain (fun x y => x = 0 → y = 0) → (CommonHeader.decode b).header_size.toNat < 256 →
    (CommonHeader.decode b).header_size.toNat = 0
  | [a, b, c, d, e, f, x, y], _, hchain, hlt => by
    have hzero : x = 0 → y = 0 := List.isChain_pair.mp (hchain.drop 6)
    have hx := x.toNat_lt
    have hy := y.toNat_lt
    have hsize : (CommonHeader.decode [a, b, c, d, e, f, x, y]).header_size.toNat =
        x.toNat * 256 + y.toNat := by
      show (ntohs [x, y]).toNat = _
      simp only [ntohs, ofBytes, List.foldl_cons, List.foldl_nil, UInt16.toNat_ofNat',
        Nat.reducePow]
      omega
    rw [hsize] at hlt ⊢
    have hx0 : x = 0 := UInt8.toNat_inj.mp (by rw [UInt8.toNat_zero]; omega)
    rw [hx0, hzero hx0]
    rfl

section Error

variable {j : ℕ}

/-- The eight bytes from `j` on are those of the whole packet. -/
theorem take_drop_errorBytes (message : Bytes) (m j : ℕ)
    (h : sizeofCommonHeader ≤ ((errorBytes message m).drop j).length) :
    ((errorBytes message m).drop j).take sizeofCommonHeader =
      ((errorHeader message).encode.drop j).take sizeofCommonHeader := by
  unfold errorBytes at h ⊢
  rw [List.drop_take] at h ⊢
  rw [List.length_take] at h
  rw [List.take_take]
  congr 1
  omega

/-- The `RES_FILE_ERROR` itself. -/
theorem brokenAt_errorBytes (message : Bytes) (m : ℕ) : BrokenAt (errorBytes message m) := by
  have hheader : sizeofCommonHeader ≤ (errorBytes message m).length →
      CommonHeader.decode ((errorBytes message m).take sizeofCommonHeader) =
        serverHeader RES_FILE_ERROR sizeofFileErrorHeader := by
    intro h
    have htake := take_drop_errorBytes message m 0 h
    rw [List.drop_zero, List.drop_zero] at htake
    rw [htake, FileErrorHeader.encode, List.take_left' (CommonHeader.length_encode _),
      CommonHeader.decode_encode]
    rfl
  apply brokenAt_of_header
  · intro h
    rw [hheader h]
    decide
  · intro h
    rw [hheader h]
    decide

/-- In the common header the only M is the first byte. -/
theorem head_drop_error (message : Bytes) (hpos : 0 < j) (hj : j < sizeofCommonHeader) :
    (((errorHeader message).encode.drop j).take sizeofCommonHeader).head? ≠ some 0x4D := by
  have hbytes : ∀ i < sizeofCommonHeader, 0 < i →
      (serverHeader RES_FILE_ERROR sizeofFileErrorHeader).encode[i]? ≠ some 0x4D := by decide
  have hlen : j < (serverHeader RES_FILE_ERROR sizeofFileErrorHeader).encode.length := hj
  have hget : (errorHeader message).encode[j]? =
      (serverHeader RES_FILE_ERROR sizeofFileErrorHeader).encode[j]? :=
    List.getElem?_append_left hlen
  rw [List.head?_take, if_neg (by decide), List.head?_drop, hget]
  exact hbytes j hj hpos

/-- **No packet of a file begins in a `RES_FILE_ERROR`**, wherever it is cut. -/
theorem parsePacket_drop_error (message : Bytes) (m j : ℕ) :
    parsePacket ((errorBytes message m).drop j) = none := by
  rcases Nat.eq_zero_or_pos j with rfl | hpos
  · rw [List.drop_zero]
    exact (brokenAt_errorBytes message m).no_packet
  · by_contra hne
    obtain ⟨⟨e, q⟩, hparse⟩ := Option.ne_none_iff_exists'.mp hne
    obtain ⟨hlen, hmagic, hor⟩ := ofFile_of_parsePacket hparse
    have hb := List.length_take_of_le hlen
    rw [take_drop_errorBytes message m j hlen] at hmagic hor hb
    rcases Nat.lt_or_ge j sizeofCommonHeader with hj | hj
    · exact head_drop_error message hpos hj (head_of_magic hb hmagic)
    · -- in the message a NUL is followed by NULs only, and `header_size` would begin with one
      have hdrop : (errorHeader message).encode.drop j =
          (errorHeader message).message.bytes.drop (j - sizeofCommonHeader) := by
        rw [FileErrorHeader.encode, List.drop_append, CommonHeader.length_encode,
          List.drop_eq_nil_of_le (by rw [CommonHeader.length_encode]; exact hj), List.nil_append]
      rw [hdrop] at hor hb
      have hchain := ((Buf.isChain_ofStr 127 message).drop (j - sizeofCommonHeader)).take
        sizeofCommonHeader
      have hsize := header_size_of_isChain hb hchain
      rcases hor with ⟨-, heq⟩ | ⟨-, heq⟩ | ⟨-, heq⟩
      all_goals
        rw [heq] at hsize
        exact absurd (hsize (by decide)) (by decide)

end Error

/-! ## Packets cut short -/

/-- The packet types of a file with the sizes of their headers. -/
def fileHeaders : List (UInt8 × ℕ) :=
  [(RES_FILE_META, sizeofFileMetaHeader), (RES_FILE_CHUNK, sizeofFileChunkHeader),
    (RES_FILE_END, sizeofFileEndHeader)]

section Cut

variable {k : ℕ} {message q : Bytes} {m : ℕ} {e : PullPacket}

/-- A common header that is cut and the common header of a `RES_FILE_ERROR` make no other one. -/
theorem cut_header_not_of : ∀ h ∈ fileHeaders, ∀ k < sizeofCommonHeader,
    ¬ (CommonHeader.decode ((serverHeader h.1 h.2).encode.take k ++
      (serverHeader RES_FILE_ERROR sizeofFileErrorHeader).encode.take
        (sizeofCommonHeader - k))).OfFile ∧
    ¬ (CommonHeader.decode ((serverHeader h.1 h.2).encode.take k ++
      (serverHeader RES_FILE_ERROR sizeofFileErrorHeader).encode.take
        (sizeofCommonHeader - k))).OfDone := by
  decide

/-- **The client can make nothing of a packet that is cut in its common header.** -/
theorem brokenAt_of_cut_header {h : UInt8 × ℕ} (hh : h ∈ fileHeaders)
    (hk : k < sizeofCommonHeader) (message : Bytes) (m : ℕ) :
    BrokenAt ((serverHeader h.1 h.2).encode.take k ++ errorBytes message m) := by
  have hcut : ((serverHeader h.1 h.2).encode.take k).length = k :=
    List.length_take_of_le (Nat.le_of_lt hk)
  have htake : sizeofCommonHeader ≤ ((serverHeader h.1 h.2).encode.take k ++
        errorBytes message m).length →
      ((serverHeader h.1 h.2).encode.take k ++ errorBytes message m).take sizeofCommonHeader =
        (serverHeader h.1 h.2).encode.take k ++
          (serverHeader RES_FILE_ERROR sizeofFileErrorHeader).encode.take
            (sizeofCommonHeader - k) := by
    intro hlen
    rw [List.length_append, hcut, errorBytes, List.length_take] at hlen
    have hmin : min (sizeofCommonHeader - k) m = sizeofCommonHeader - k := by omega
    have hle : sizeofCommonHeader - k ≤
        (serverHeader RES_FILE_ERROR sizeofFileErrorHeader).encode.length :=
      Nat.sub_le _ _
    have herror : (errorHeader message).encode.take (sizeofCommonHeader - k) =
        (serverHeader RES_FILE_ERROR sizeofFileErrorHeader).encode.take (sizeofCommonHeader - k) :=
      List.take_append_of_le_length hle
    rw [List.take_append, hcut, List.take_of_length_le (by omega), errorBytes, List.take_take, hmin,
      herror]
  obtain ⟨hfile, hdone⟩ := cut_header_not_of h hh k hk
  apply brokenAt_of_header
  · intro hlen
    rwa [htake hlen]
  · intro hlen
    rwa [htake hlen]

/-- At the bytes `p` the client takes a packet that is `Like` the one that was cut, or none, and
no `RES_FILE_DONE`; what is left then are some last bytes of `t`. -/
structure CutShort (Like : PullPacket → Prop) (t p : Bytes) : Prop where
  not_done : ¬ DoneAt p
  packet : ∀ e q, parsePacket p = some (e, q) → Like e ∧ ∃ j, q = t.drop j

theorem BrokenAt.cutShort {p : Bytes} (h : BrokenAt p) (Like : PullPacket → Prop) (t : Bytes) :
    CutShort Like t p := by
  constructor
  · exact h.not_done
  · intro e q hparse
    rw [h.no_packet] at hparse
    cases hparse

/-- It is enough to look at packets whose common header is not cut. -/
theorem cutShort_of_body {h : UInt8 × ℕ} (hh : h ∈ fileHeaders) {Like : PullPacket → Prop}
    {body : Bytes} (hbody : sizeofCommonHeader ≤ k → ∀ e q,
      parsePacket ((serverHeader h.1 h.2).encode ++
        (body.take (k - sizeofCommonHeader) ++ errorBytes message m)) = some (e, q) →
      Like e ∧ ∃ j, q = (errorBytes message m).drop j) :
    CutShort Like (errorBytes message m)
      (((serverHeader h.1 h.2).encode ++ body).take k ++ errorBytes message m) := by
  rcases Nat.lt_or_ge k sizeofCommonHeader with hk | hk
  · rw [List.take_append_of_le_length (Nat.le_of_lt hk)]
    exact (brokenAt_of_cut_header hh hk message m).cutShort _ _
  · have htype : ∀ h ∈ fileHeaders, h.1 ≠ RES_FILE_DONE := by decide
    rw [List.take_append, List.take_of_length_le (by rw [CommonHeader.length_encode]; exact hk),
      CommonHeader.length_encode, List.append_assoc]
    constructor
    · exact not_doneAt_encode rfl (htype h hh) _
    · exact hbody hk

/-! ### What follows a packet -/

theorem parseMeta_eq_some {ch : CommonHeader} {p : Bytes} (h : parseMeta ch p = some (e, q)) :
    (∃ path exec, e = .file_meta path exec) ∧
      q = p.drop (sizeofFileMetaHeader - sizeofCommonHeader) := by
  unfold parseMeta at h
  split_ifs at h
  rcases hsplit : splitOff (sizeofFileMetaHeader - sizeofCommonHeader) p with _ | ⟨b, q'⟩
  · simp only [hsplit] at h
    cases h
  · obtain ⟨-, -, rfl⟩ := splitOff_eq_some hsplit
    simp only [hsplit] at h
    split_ifs at h
    obtain ⟨rfl, rfl⟩ := Prod.mk.inj (Option.some.inj h)
    exact ⟨⟨_, _, rfl⟩, rfl⟩

theorem parseChunk_eq_some {ch : CommonHeader} {p : Bytes} (h : parseChunk ch p = some (e, q)) :
    (∃ data, e = .chunk data) ∧
      q = p.drop (sizeofFileChunkHeader - sizeofCommonHeader + (FileChunkHeader.decode ch
        (p.take (sizeofFileChunkHeader - sizeofCommonHeader))).chunk_size.toNat) := by
  unfold parseChunk at h
  split_ifs at h
  rcases hsplit : splitOff (sizeofFileChunkHeader - sizeofCommonHeader) p with _ | ⟨b, q'⟩
  · simp only [hsplit] at h
    cases h
  · obtain ⟨-, rfl, rfl⟩ := splitOff_eq_some hsplit
    simp only [hsplit] at h
    split_ifs at h
    obtain ⟨⟨data, q''⟩, hdata, heq⟩ := Option.map_eq_some_iff.mp h
    obtain ⟨rfl, rfl⟩ := Prod.mk.inj heq
    obtain ⟨-, -, rfl⟩ := splitOff_eq_some hdata
    exact ⟨⟨data, rfl⟩, List.drop_drop⟩

theorem parseEnd_eq_some {ch : CommonHeader} {p : Bytes} (h : parseEnd ch p = some (e, q)) :
    (∃ checksum, e = .file_end checksum) ∧
      q = p.drop (sizeofFileEndHeader - sizeofCommonHeader) := by
  unfold parseEnd at h
  split_ifs at h
  obtain ⟨⟨b, q'⟩, hsplit, heq⟩ := Option.map_eq_some_iff.mp h
  obtain ⟨rfl, rfl⟩ := Prod.mk.inj heq
  obtain ⟨-, -, rfl⟩ := splitOff_eq_some hsplit
  exact ⟨⟨_, rfl⟩, rfl⟩

/-! ### The three packets of a file -/

/-- A `RES_FILE_META` that is cut. -/
theorem cutShort_meta (file : DirEnt) (filename : Bytes) (index total : UInt8)
    (hk : k < sizeofFileMetaHeader) (message : Bytes) (m : ℕ) :
    CutShort (fun e => ∃ path exec, e = .file_meta path exec) (errorBytes message m)
      ((metaHeader file filename index total).encode.take k ++ errorBytes message m) := by
  apply cutShort_of_body (h := (RES_FILE_META, sizeofFileMetaHeader)) (by decide)
  intro _ e q hparse
  rw [parsePacket_meta_header] at hparse
  obtain ⟨hmeta, rfl⟩ := parseMeta_eq_some hparse
  have hlen := (metaHeader file filename index total).length_fields
  refine ⟨hmeta, _, drop_cut ?_ ?_ _⟩
  · omega
  · omega

/-- A `RES_FILE_END` that is cut. -/
theorem cutShort_end (checksum : UInt32) (hk : k < sizeofFileEndHeader) (message : Bytes) (m : ℕ) :
    CutShort (fun e => ∃ checksum, e = .file_end checksum) (errorBytes message m)
      ((endHeader checksum).encode.take k ++ errorBytes message m) := by
  apply cutShort_of_body (h := (RES_FILE_END, sizeofFileEndHeader)) (by decide)
  intro _ e q hparse
  rw [parsePacket_end_header] at hparse
  obtain ⟨hend, rfl⟩ := parseEnd_eq_some hparse
  have hlen := (endHeader checksum).length_fields
  refine ⟨hend, _, drop_cut ?_ ?_ _⟩
  · omega
  · omega

/-- A `RES_FILE_CHUNK` that is cut, in its header or in its bytes. -/
theorem cutShort_chunk {chunk : Bytes} (hfits : chunk.length ≤ FILE_CHUNK_SIZE) (offset : UInt32)
    (hk : k < ((chunkHeader chunk offset).encode ++ chunk).length) (message : Bytes) (m : ℕ) :
    CutShort (fun e => ∃ data, e = .chunk data) (errorBytes message m)
      (((chunkHeader chunk offset).encode ++ chunk).take k ++ errorBytes message m) := by
  rw [FileChunkHeader.encode, List.append_assoc] at hk ⊢
  apply cutShort_of_body (h := (RES_FILE_CHUNK, sizeofFileChunkHeader)) (by decide)
  intro _ e q hparse
  rw [parsePacket_chunk_header] at hparse
  obtain ⟨hchunk, rfl⟩ := parseChunk_eq_some hparse
  have hlen := (chunkHeader chunk offset).length_fields
  have hle : sizeofCommonHeader ≤ sizeofFileChunkHeader := by decide
  have hbody : ((chunkHeader chunk offset).fields ++ chunk).length =
      sizeofFileChunkHeader - sizeofCommonHeader + chunk.length := by
    rw [List.length_append, hlen]
  rw [List.length_append, hbody, CommonHeader.length_encode] at hk
  refine ⟨hchunk, _, drop_cut (by omega) ?_ _⟩
  rcases Nat.lt_or_ge (k - sizeofCommonHeader) (sizeofFileChunkHeader - sizeofCommonHeader) with
    hheader | hheader
  · omega
  · -- the header of the chunk is whole, and so its size is the right one
    have htake : (((chunkHeader chunk offset).fields ++ chunk).take (k - sizeofCommonHeader) ++
        errorBytes message m).take (sizeofFileChunkHeader - sizeofCommonHeader) =
          (chunkHeader chunk offset).fields := by
      rw [List.take_append_of_le_length (by rw [List.length_take]; omega), List.take_take,
        Nat.min_eq_left hheader, List.take_left' hlen]
    have hdecode : FileChunkHeader.decode (serverHeader RES_FILE_CHUNK sizeofFileChunkHeader)
        (chunkHeader chunk offset).fields = chunkHeader chunk offset :=
      FileChunkHeader.decode_fields (chunkHeader chunk offset)
    rw [htake, hdecode, chunk_size_chunkHeader hfits]
    omega

end Cut

end MiniCi
