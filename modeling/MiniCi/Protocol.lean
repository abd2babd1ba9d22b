/-
# The wire protocol (`include/protocol.h`)

Constants and packed headers shared by the client and the server.  Multi-byte integer
fields are held in host order, that is after `ntohl` or `ntohs`; character arrays are
held byte by byte, since nothing on the wire says that they contain a NUL.
-/
import Mathlib.Data.List.GetD
import MiniCi.Wire

namespace MiniCi

open CStr Wire

/-! ## Constants -/

def MAGIC_NUMBER : UInt32 := 0x4D494E49
def PROTO_VERSION : UInt8 := 3
def MAX_STUDENT_ID : ℕ := 16
def MAX_FILENAME : ℕ := 128
def MAX_WEEK_NAME : ℕ := 32
def FILE_CHUNK_SIZE : ℕ := 64 * 1024
def DIST_ROOT : Bytes := ascii "dist"
def MAX_DIST_FILES : ℕ := 64

/-! ## Packet types -/

def PKT_SUBMIT : UInt8 := 1
def PKT_GET_FILES : UInt8 := 3

def RES_RESULT : UInt8 := 1
def RES_FILE_META : UInt8 := 10
def RES_FILE_CHUNK : UInt8 := 11
def RES_FILE_END : UInt8 := 12
def RES_FILE_DONE : UInt8 := 13
def RES_FILE_ERROR : UInt8 := 14

/-- `GradeResult`. -/
inductive GradeResult where
  | GRADE_AC
  | GRADE_WA
  | GRADE_TLE
  | GRADE_RE
  | GRADE_CE
  deriving DecidableEq, Repr

export GradeResult (GRADE_AC GRADE_WA GRADE_TLE GRADE_RE GRADE_CE)

/-- The value of a `GradeResult` as it is stored in a `uint8_t`. -/
def GradeResult.code : GradeResult → UInt8
  | GRADE_AC => 0
  | GRADE_WA => 1
  | GRADE_TLE => 2
  | GRADE_RE => 3
  | GRADE_CE => 4

theorem GradeResult.code_injective : Function.Injective GradeResult.code := by
  intro r r' h
  cases r <;> cases r' <;> first | rfl | exact absurd h (by decide)

/-! ## Headers -/

/-- The first eight bytes of every packet. -/
structure CommonHeader where
  magic : UInt32
  version : UInt8
  pkt_type : UInt8
  header_size : UInt16
  deriving DecidableEq

/-- `sizeof(CommonHeader)`. -/
def sizeofCommonHeader : ℕ := 8

/-- The eight bytes of a common header on the wire. -/
def CommonHeader.encode (h : CommonHeader) : Bytes :=
  be32 h.magic ++ [h.version, h.pkt_type] ++ be16 h.header_size

/-- Read the common header off the first eight bytes. -/
def CommonHeader.decode (p : Bytes) : CommonHeader :=
  { magic := ntohl (p.take 4)
    version := p.getD 4 0
    pkt_type := p.getD 5 0
    header_size := ntohs ((p.drop 6).take 2) }

/-- `SubmitHeader`, the header of a submission; the source code follows it. -/
structure SubmitHeader extends CommonHeader where
  student_id : Buf MAX_STUDENT_ID
  filename : Buf MAX_FILENAME
  file_size : UInt32
  checksum : UInt32
  deriving DecidableEq

/-- `sizeof(SubmitHeader)`. -/
def sizeofSubmitHeader : ℕ := 160

/-- The 160 bytes of a `SubmitHeader` on the wire. -/
def SubmitHeader.encode (h : SubmitHeader) : Bytes :=
  h.toCommonHeader.encode ++ (h.student_id.bytes ++ (h.filename.bytes ++
    (be32 h.file_size ++ be32 h.checksum)))

/-- Read a `SubmitHeader` off its 160 bytes. -/
def SubmitHeader.decode (p : Bytes) : SubmitHeader :=
  { CommonHeader.decode p with
    student_id := Buf.ofBytes MAX_STUDENT_ID (p.drop 8)
    filename := Buf.ofBytes MAX_FILENAME (p.drop 24)
    file_size := ntohl ((p.drop 152).take 4)
    checksum := ntohl ((p.drop 156).take 4) }

/-- What a `const char *` to `student_id` can see of a received header: the rest of the
packed struct, with `file_size` already converted to host order and `checksum` as it
came. -/
def SubmitHeader.fromStudentId (h : SubmitHeader) : Bytes :=
  h.student_id.bytes ++ h.filename.bytes ++ le32 h.file_size ++ be32 h.checksum

/-- `ResultHeader`, the reply to a submission. -/
structure ResultHeader extends CommonHeader where
  student_id : Buf MAX_STUDENT_ID
  filename : Buf MAX_FILENAME
  result : UInt8
  exec_time_ms : UInt32
  memory_kb : UInt32
  submitted_count : UInt16
  total_students : UInt16
  student_submit_count : UInt16
  week_name : Buf MAX_WEEK_NAME
  deriving DecidableEq

/-- `sizeof(ResultHeader)`. -/
def sizeofResultHeader : ℕ := 329

/-- The numbers of a `ResultHeader`, with `_pad` being zero. -/
def ResultHeader.numbers (h : ResultHeader) : Bytes :=
  h.result :: (be32 h.exec_time_ms ++ be32 h.memory_kb ++ be16 h.submitted_count ++
    be16 h.total_students ++ be16 h.student_submit_count ++ [0, 0])

/-- The 329 bytes of a `ResultHeader` on the wire, `message` being empty. -/
def ResultHeader.encode (h : ResultHeader) : Bytes :=
  h.toCommonHeader.encode ++ (h.student_id.bytes ++ (h.filename.bytes ++ (h.numbers ++
    (h.week_name.bytes ++ List.replicate 128 0))))

/-- Read a `ResultHeader` off its 329 bytes. -/
def ResultHeader.decode (p : Bytes) : ResultHeader :=
  { CommonHeader.decode p with
    student_id := Buf.ofBytes MAX_STUDENT_ID (p.drop 8)
    filename := Buf.ofBytes MAX_FILENAME (p.drop 24)
    result := p.getD 152 0
    exec_time_ms := ntohl ((p.drop 153).take 4)
    memory_kb := ntohl ((p.drop 157).take 4)
    submitted_count := ntohs ((p.drop 161).take 2)
    total_students := ntohs ((p.drop 163).take 2)
    student_submit_count := ntohs ((p.drop 165).take 2)
    week_name := Buf.ofBytes MAX_WEEK_NAME (p.drop 169) }

/-! ## Headers of the file download -/

/-- `GetFilesHeader`, the request for the files of the week. -/
structure GetFilesHeader extends CommonHeader where
  student_id : Buf MAX_STUDENT_ID
  deriving DecidableEq

/-- `sizeof(GetFilesHeader)`. -/
def sizeofGetFilesHeader : ℕ := 24

/-- The 24 bytes of a `GetFilesHeader` on the wire. -/
def GetFilesHeader.encode (h : GetFilesHeader) : Bytes :=
  h.toCommonHeader.encode ++ h.student_id.bytes

/-- `FileMetaHeader`, before the chunks of each file. -/
structure FileMetaHeader extends CommonHeader where
  filename : Buf MAX_FILENAME
  file_size : UInt32
  is_executable : UInt8
  file_index : UInt8
  total_files : UInt8
  deriving DecidableEq

/-- `sizeof(FileMetaHeader)`. -/
def sizeofFileMetaHeader : ℕ := 144

/-- What follows the common header of a `FileMetaHeader`, `_pad` being zero. -/
def FileMetaHeader.fields (h : FileMetaHeader) : Bytes :=
  h.filename.bytes ++ (be32 h.file_size ++ [h.is_executable, h.file_index, h.total_files, 0])

/-- The 144 bytes of a `FileMetaHeader` on the wire. -/
def FileMetaHeader.encode (h : FileMetaHeader) : Bytes := h.toCommonHeader.encode ++ h.fields

/-- Read what follows the common header of a `FileMetaHeader` off its 136 bytes. -/
def FileMetaHeader.decode (ch : CommonHeader) (p : Bytes) : FileMetaHeader :=
  { ch with
    filename := Buf.ofBytes MAX_FILENAME p
    file_size := ntohl ((p.drop 128).take 4)
    is_executable := p.getD 132 0
    file_index := p.getD 133 0
    total_files := p.getD 134 0 }

/-- `FileChunkHeader`, before the bytes of a chunk. -/
structure FileChunkHeader extends CommonHeader where
  chunk_size : UInt32
  offset : UInt32
  deriving DecidableEq

/-- `sizeof(FileChunkHeader)`. -/
def sizeofFileChunkHeader : ℕ := 16

/-- What follows the common header of a `FileChunkHeader`. -/
def FileChunkHeader.fields (h : FileChunkHeader) : Bytes := be32 h.chunk_size ++ be32 h.offset

/-- The sixteen bytes of a `FileChunkHeader` on the wire. -/
def FileChunkHeader.encode (h : FileChunkHeader) : Bytes := h.toCommonHeader.encode ++ h.fields

/-- Read what follows the common header of a `FileChunkHeader` off its eight bytes. -/
def FileChunkHeader.decode (ch : CommonHeader) (p : Bytes) : FileChunkHeader :=
  { ch with chunk_size := ntohl (p.take 4), offset := ntohl ((p.drop 4).take 4) }

/-- `FileEndHeader`, after the chunks of a file and, with `RES_FILE_DONE`, after the last
file. -/
structure FileEndHeader extends CommonHeader where
  checksum : UInt32
  total_files : UInt8
  deriving DecidableEq

/-- `sizeof(FileEndHeader)`. -/
def sizeofFileEndHeader : ℕ := 16

/-- What follows the common header of a `FileEndHeader`, `_pad` being zero. -/
def FileEndHeader.fields (h : FileEndHeader) : Bytes := be32 h.checksum ++ [h.total_files, 0, 0, 0]

/-- The sixteen bytes of a `FileEndHeader` on the wire. -/
def FileEndHeader.encode (h : FileEndHeader) : Bytes := h.toCommonHeader.encode ++ h.fields

/-- Read what follows the common header of a `FileEndHeader` off its eight bytes. -/
def FileEndHeader.decode (ch : CommonHeader) (p : Bytes) : FileEndHeader :=
  { ch with checksum := ntohl (p.take 4), total_files := p.getD 4 0 }

/-- `FileErrorHeader`, instead of what a failed request would have sent. -/
structure FileErrorHeader extends CommonHeader where
  message : Buf 128
  deriving DecidableEq

/-- `sizeof(FileErrorHeader)`. -/
def sizeofFileErrorHeader : ℕ := 136

/-- The 136 bytes of a `FileErrorHeader` on the wire. -/
def FileErrorHeader.encode (h : FileErrorHeader) : Bytes :=
  h.toCommonHeader.encode ++ h.message.bytes

/-! ## What is read is what was written -/

@[simp] theorem CommonHeader.length_encode (h : CommonHeader) :
    h.encode.length = sizeofCommonHeader := rfl

theorem CommonHeader.decode_encode_append (h : CommonHeader) (q : Bytes) :
    CommonHeader.decode (h.encode ++ q) = h := by
  show CommonHeader.mk (ntohl (be32 h.magic)) h.version h.pkt_type (ntohs (be16 h.header_size)) = h
  rw [ntohl_be32, ntohs_be16]

@[simp] theorem CommonHeader.decode_encode (h : CommonHeader) :
    CommonHeader.decode h.encode = h := by
  have happend := h.decode_encode_append []
  rwa [List.append_nil] at happend

theorem SubmitHeader.length_encode (h : SubmitHeader) : h.encode.length = sizeofSubmitHeader := by
  simp only [SubmitHeader.encode, List.length_append, h.student_id.length_bytes,
    h.filename.length_bytes]
  rfl

theorem ResultHeader.length_encode (h : ResultHeader) : h.encode.length = sizeofResultHeader := by
  have hnumbers : h.numbers.length = 17 := rfl
  simp only [ResultHeader.encode, List.length_append, h.student_id.length_bytes,
    h.filename.length_bytes, h.week_name.length_bytes, hnumbers, List.length_replicate]
  rfl

/-- What is behind the id and the file name that follow a common header. -/
theorem drop_names (ch : CommonHeader) (student_id : Buf MAX_STUDENT_ID)
    (filename : Buf MAX_FILENAME) (q : Bytes) (k : ℕ) :
    (ch.encode ++ (student_id.bytes ++ (filename.bytes ++ q))).drop (152 + k) = q.drop k := by
  have hnames : (ch.encode ++ (student_id.bytes ++ filename.bytes)).length = 152 := by
    simp only [List.length_append, student_id.length_bytes, filename.length_bytes]
    rfl
  rw [← List.append_assoc student_id.bytes, ← List.append_assoc, List.drop_append, hnames,
    List.drop_eq_nil_of_le (by omega), List.nil_append, Nat.add_sub_cancel_left]

theorem drop_filename (ch : CommonHeader) (student_id : Buf MAX_STUDENT_ID) (q : Bytes) :
    (ch.encode ++ (student_id.bytes ++ q)).drop 24 = q := by
  rw [← List.append_assoc]
  apply List.drop_left'
  rw [List.length_append, student_id.length_bytes]
  rfl

@[simp] theorem SubmitHeader.decode_encode (h : SubmitHeader) :
    SubmitHeader.decode h.encode = h := by
  have hid : h.encode.drop 8 = h.student_id.bytes ++ (h.filename.bytes ++
      (be32 h.file_size ++ be32 h.checksum)) := rfl
  have hname : h.encode.drop 24 = h.filename.bytes ++ (be32 h.file_size ++ be32 h.checksum) :=
    drop_filename _ _ _
  have hsize : h.encode.drop 152 = be32 h.file_size ++ be32 h.checksum := drop_names _ _ _ _ 0
  have hsum : h.encode.drop 156 = be32 h.checksum := drop_names _ _ _ _ 4
  rw [SubmitHeader.decode, hid, hname, hsize, hsum, Buf.ofBytes_append, Buf.ofBytes_append,
    SubmitHeader.encode, CommonHeader.decode_encode_append]
  show SubmitHeader.mk h.toCommonHeader h.student_id h.filename (ntohl (be32 h.file_size))
    (ntohl (be32 h.checksum)) = h
  rw [ntohl_be32, ntohl_be32]

@[simp] theorem ResultHeader.decode_encode (h : ResultHeader) :
    ResultHeader.decode h.encode = h := by
  have hdrop : ∀ k, h.encode.drop (152 + k) =
      (h.numbers ++ (h.week_name.bytes ++ List.replicate 128 0)).drop k := drop_names _ _ _ _
  have hid : h.encode.drop 8 = h.student_id.bytes ++ (h.filename.bytes ++ (h.numbers ++
    (h.week_name.bytes ++ List.replicate 128 0))) := rfl
  have hname : h.encode.drop 24 = h.filename.bytes ++ (h.numbers ++
    (h.week_name.bytes ++ List.replicate 128 0)) := drop_filename _ _ _
  have hweek : h.encode.drop 169 = h.week_name.bytes ++ List.replicate 128 0 := hdrop 17
  have hresult : h.encode.getD 152 0 = h.result := by
    rw [List.getD_eq_getElem?_getD, ← List.head?_drop, hdrop 0]
    rfl
  rw [ResultHeader.decode, hid, hname, hresult, hdrop 1, hdrop 5, hdrop 9, hdrop 11, hdrop 13,
    hweek, Buf.ofBytes_append, Buf.ofBytes_append, Buf.ofBytes_append, ResultHeader.encode,
    CommonHeader.decode_encode_append]
  show ResultHeader.mk h.toCommonHeader h.student_id h.filename h.result
    (ntohl (be32 h.exec_time_ms)) (ntohl (be32 h.memory_kb)) (ntohs (be16 h.submitted_count))
    (ntohs (be16 h.total_students)) (ntohs (be16 h.student_submit_count)) h.week_name = h
  rw [ntohl_be32, ntohl_be32, ntohs_be16, ntohs_be16, ntohs_be16]

theorem FileMetaHeader.length_fields (h : FileMetaHeader) :
    h.fields.length = sizeofFileMetaHeader - sizeofCommonHeader := by
  rw [FileMetaHeader.fields, List.length_append, h.filename.length_bytes]
  rfl

theorem FileMetaHeader.length_encode (h : FileMetaHeader) :
    h.encode.length = sizeofFileMetaHeader := by
  rw [FileMetaHeader.encode, List.length_append, FileMetaHeader.length_fields]
  rfl

@[simp] theorem FileMetaHeader.decode_fields (h : FileMetaHeader) :
    FileMetaHeader.decode h.toCommonHeader h.fields = h := by
  have hlen : h.filename.bytes.length = 128 := h.filename.length_bytes
  have hsize : ntohl (be32 h.file_size) = h.file_size := ntohl_be32 _
  have hdrop : h.fields.drop 128 = be32 h.file_size ++
      [h.is_executable, h.file_index, h.total_files, 0] := List.drop_left' hlen
  have hget : ∀ k, h.fields.getD (128 + k) 0 = (be32 h.file_size ++
      [h.is_executable, h.file_index, h.total_files, 0]).getD k 0 := by
    intro k
    rw [FileMetaHeader.fields, List.getD_append_right _ _ _ _ (by omega), hlen,
      Nat.add_sub_cancel_left]
  rw [FileMetaHeader.decode, FileMetaHeader.fields, Buf.ofBytes_append, ← FileMetaHeader.fields,
    hdrop, hget 4, hget 5, hget 6]
  show FileMetaHeader.mk h.toCommonHeader h.filename (ntohl (be32 h.file_size)) _ _ _ = h
  rw [hsize]
  rfl

theorem FileChunkHeader.length_fields (h : FileChunkHeader) :
    h.fields.length = sizeofFileChunkHeader - sizeofCommonHeader := rfl

@[simp] theorem FileChunkHeader.decode_fields (h : FileChunkHeader) :
    FileChunkHeader.decode h.toCommonHeader h.fields = h := by
  show FileChunkHeader.mk h.toCommonHeader (ntohl (be32 h.chunk_size)) (ntohl (be32 h.offset)) = h
  rw [ntohl_be32, ntohl_be32]

theorem FileEndHeader.length_fields (h : FileEndHeader) :
    h.fields.length = sizeofFileEndHeader - sizeofCommonHeader := rfl

@[simp] theorem FileEndHeader.decode_fields (h : FileEndHeader) :
    FileEndHeader.decode h.toCommonHeader h.fields = h := by
  show FileEndHeader.mk h.toCommonHeader (ntohl (be32 h.checksum)) h.total_files = h
  rw [ntohl_be32]

end MiniCi
