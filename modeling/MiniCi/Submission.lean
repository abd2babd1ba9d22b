/-
# Receiving a submission

`handle_client` reads eight bytes, looks at the packet type, reads the rest of a
`SubmitHeader` and then up to `file_size` bytes of source, and goes on to compile whatever
it got.  It looks neither at `magic`, `version` and `header_size` nor at `checksum`, takes
any packet type but `PKT_GET_FILES` for a submission, fills a header that ends early up with
zeros, and takes the end of the stream for the end of the source.  Nor does it look at the
`write`s of `source.c`: of a piece of which only a part is written, or none, the rest is lost.

So what reaches the compiler is every stream of more than eight bytes that is no request for
files; an intact submission is one of them.
-/
import MiniCi.ByteStream
import MiniCi.Crc
import MiniCi.WeekServer

namespace MiniCi

open CStr ByteStream

/-! ## The source -/

/-- `crc32_buf`. -/
def crc32_buf (p : Bytes) : UInt32 := ~~~Crc.update 0xEDB88320 0xFFFFFFFF p

/-- What `handle_client` makes of a connection: it closes it, hands it to
`handle_file_pull`, or compiles `source.c`, which is missing when it cannot be opened. -/
inductive Received where
  | closed
  | pull (student_id : Buf MAX_STUDENT_ID)
  | submission (hdr : SubmitHeader) (source : Option Bytes)

/-- The receiving part of `handle_client`.  `mkdtemp` and `opened` say whether the work
directory and `source.c` could be created, `writes` what the `write`s of the source take. -/
def receive_client (mkdtemp opened : Bool) (writes : ℕ → Option ℕ) (s : Stream) : Received :=
  let (first, s) := s.recvWaitAll sizeofCommonHeader
  if first = [] then .closed
  else if (Buf.ofBytes sizeofCommonHeader first).bytes.getD 5 0 = PKT_GET_FILES then
    let (more, _) := s.recvWaitAll (sizeofGetFilesHeader - sizeofCommonHeader)
    if more = [] then .closed else .pull (.ofBytes MAX_STUDENT_ID more)
  else
    let (more, s) := s.recvWaitAll (sizeofSubmitHeader - sizeofCommonHeader)
    if more = [] then .closed
    else
      let hdr := SubmitHeader.decode ((Buf.ofBytes sizeofCommonHeader first).bytes
        ++ (Buf.ofBytes (sizeofSubmitHeader - sizeofCommonHeader) more).bytes)
      if mkdtemp then
        let remain := hdr.file_size.toNat
        .submission hdr
          (if opened then some (gatherTo 4096 remain remain ⟨[], writes⟩ s).1.sent else none)
      else .closed

/-- The part of `ServerContext` that grading reads and writes, and the files. -/
structure ServerContext where
  hw : HwState
  tracker : TrackerState
  csv : CsvState
  disk : Disk

/-- What the environment contributes to one run of `handle_client`: the system calls that
may fail, the verdict of the compiler and the program, the clock. -/
structure ClientEnv where
  mkdtemp : Bool
  opened : Bool
  writes : ℕ → Option ℕ
  grade : GradeResult
  exec_ms : UInt32
  mem_kb : UInt32
  now : ℤ
  tm : Tm
  written : Option ℕ

/-- `build_and_send_result`, with nothing happening in between; `none` as in
`ctx_write_csv`. -/
def build_and_send_result (ctx : ServerContext) (hdr : SubmitHeader) (env : ClientEnv)
    (task_hw : Buf MAX_WEEK_NAME) : Option (ServerContext × ResultHeader) :=
  let g : Graded := ⟨hdr, env.grade, env.exec_ms, env.mem_kb, none⟩
  if strncmp ctx.hw.current_hw.bytes task_hw.bytes MAX_WEEK_NAME = 0 then
    let (my_submit_count, tracker) :=
      ctx_record_submission ctx.tracker hdr.student_id.bytes env.grade env.now
    (ctx_write_csv ctx.csv ctx.disk hdr.fromStudentId env.grade env.exec_ms env.mem_kb
        task_hw.bytes env.now env.tm env.written).map fun (csv, disk) =>
      ({ ctx with tracker, csv, disk }, resultHeader task_hw g my_submit_count tracker)
  else some (ctx, resultHeader task_hw g 0 ctx.tracker)

/-- `handle_client`, with nothing happening in between.  A request for files only reads the
context. -/
def handle_client (ctx : ServerContext) (env : ClientEnv) (s : Stream) : Option ServerContext :=
  let task_hw := Buf.strncpy MAX_WEEK_NAME ctx.hw.current_hw.bytes
  match receive_client env.mkdtemp env.opened env.writes s with
  | .closed => some ctx
  | .pull _ => some ctx
  | .submission hdr _ => (build_and_send_result ctx hdr env task_hw).map Prod.fst

/-! ## Intact submissions -/

/-- The stream is a full `SubmitHeader` with the values `send_source` puts in it, followed by
exactly `file_size` bytes with the checksum of the header. -/
structure Intact (stream : Bytes) : Prop where
  full : sizeofSubmitHeader ≤ stream.length
  magic : (SubmitHeader.decode stream).magic = MAGIC_NUMBER
  version : (SubmitHeader.decode stream).version = PROTO_VERSION
  pkt_type : (SubmitHeader.decode stream).pkt_type = PKT_SUBMIT
  header_size : (SubmitHeader.decode stream).header_size.toNat = sizeofSubmitHeader
  payload : (stream.drop sizeofSubmitHeader).length = (SubmitHeader.decode stream).file_size.toNat
  checksum : crc32_buf (stream.drop sizeofSubmitHeader) = (SubmitHeader.decode stream).checksum

/-- `handle_client` compiles only intact submissions, and nothing else changes the tracker
or a gradebook. -/
structure GradesOnlyIntact (stream : Bytes) : Prop where
  compiled : ∀ mkdtemp opened writes frag hdr source,
    receive_client mkdtemp opened writes ⟨stream, frag⟩ = .submission hdr source → Intact stream
  unchanged : ¬ Intact stream → ∀ ctx env frag, handle_client ctx env ⟨stream, frag⟩ = some ctx

/-! ## What is received -/

/-- A stream of at most eight bytes is closed. -/
theorem receive_client_of_length_le {stream : Bytes} (h : stream.length ≤ sizeofCommonHeader)
    (mkdtemp opened : Bool) (writes : ℕ → Option ℕ) (frag : ℕ → ℕ) :
    receive_client mkdtemp opened writes ⟨stream, frag⟩ = .closed := by
  have hnil : stream.drop sizeofCommonHeader = [] := List.drop_eq_nil_of_le h
  simp only [receive_client, Stream.recvWaitAll, hnil, List.take_nil, if_true, ite_self]

/-- Eight bytes are received as they are. -/
theorem bytes_first {stream : Bytes} (h : sizeofCommonHeader < stream.length) :
    (Buf.ofBytes sizeofCommonHeader (stream.take sizeofCommonHeader)).bytes
      = stream.take sizeofCommonHeader := by
  refine Buf.bytes_ofBytes ?_
  rw [List.length_take]
  omega

theorem getD_take_five {stream : Bytes} (h : sizeofCommonHeader < stream.length) :
    (Buf.ofBytes sizeofCommonHeader (stream.take sizeofCommonHeader)).bytes.getD 5 0
      = stream.getD 5 0 := by
  have h8 : 5 < sizeofCommonHeader := by decide
  rw [bytes_first h]
  simp [List.getD_eq_getElem?_getD, List.getElem?_take_of_lt h8]

/-- A request for files is not compiled. -/
theorem receive_client_of_pull {stream : Bytes} (h : stream.getD 5 0 = PKT_GET_FILES)
    (mkdtemp opened : Bool) (writes : ℕ → Option ℕ) (frag : ℕ → ℕ) (hdr : SubmitHeader)
    (source : Option Bytes) :
    receive_client mkdtemp opened writes ⟨stream, frag⟩ ≠ .submission hdr source := by
  intro hr
  rcases Nat.lt_or_ge sizeofCommonHeader stream.length with hlt | hle
  · have h5 : (Buf.ofBytes sizeofCommonHeader
        ((Stream.mk stream frag).recvWaitAll sizeofCommonHeader).1).bytes.getD 5 0
          = PKT_GET_FILES := (getD_take_five hlt).trans h
    unfold receive_client at hr
    generalize (Stream.mk stream frag).recvWaitAll sizeofCommonHeader = r at hr h5
    obtain ⟨first, s⟩ := r
    simp only [if_pos h5] at hr
    split at hr
    · cases hr
    · generalize s.recvWaitAll (sizeofGetFilesHeader - sizeofCommonHeader) = r at hr
      split at hr <;> cases hr
  · rw [receive_client_of_length_le hle] at hr
    cases hr

/-- Everything else is. -/
theorem receive_client_of_lt {stream : Bytes} (hlen : sizeofCommonHeader < stream.length)
    (htype : stream.getD 5 0 ≠ PKT_GET_FILES) (opened : Bool) (writes : ℕ → Option ℕ)
    (frag : ℕ → ℕ) :
    ∃ hdr source, receive_client true opened writes ⟨stream, frag⟩ = .submission hdr source := by
  have hfirst : stream.take sizeofCommonHeader ≠ [] := by
    intro hnil
    have := congrArg List.length hnil
    rw [List.length_take, List.length_nil] at this
    have h8 : sizeofCommonHeader = 8 := rfl
    omega
  have hmore : (stream.drop sizeofCommonHeader).take (sizeofSubmitHeader - sizeofCommonHeader)
      ≠ [] := by
    intro hnil
    have := congrArg List.length hnil
    rw [List.length_take, List.length_drop, List.length_nil] at this
    have h8 : sizeofCommonHeader = 8 := rfl
    have h160 : sizeofSubmitHeader = 160 := rfl
    omega
  simp only [receive_client, Stream.recvWaitAll, getD_take_five hlen, if_neg hfirst, if_neg htype,
    if_neg hmore, if_true]
  exact ⟨_, _, rfl⟩

/-! ## What is graded -/

/-- What is not compiled changes nothing. -/
theorem handle_client_of_not_submission {ctx : ServerContext} {env : ClientEnv} {s : Stream}
    (h : ∀ hdr source,
      receive_client env.mkdtemp env.opened env.writes s ≠ .submission hdr source) :
    handle_client ctx env s = some ctx := by
  unfold handle_client
  rcases hr : receive_client env.mkdtemp env.opened env.writes s with _ | _ | ⟨hdr, source⟩
  · rfl
  · rfl
  · exact absurd hr (h hdr source)

/-- **Only intact submissions are graded, of a stream that is closed early, asks for files or
is intact.**  For a stream of at most eight bytes, for a request for files and for an intact
submission, whatever the fragmentation, the writes and the environment, `handle_client` compiles
only intact submissions and leaves the context as it is otherwise; and for no other stream. -/
theorem grades_only_intact_iff (stream : Bytes) :
    GradesOnlyIntact stream ↔
      stream.length ≤ sizeofCommonHeader ∨ stream.getD 5 0 = PKT_GET_FILES ∨ Intact stream := by
  constructor
  · intro h
    by_contra hnot
    simp only [not_or, not_le] at hnot
    obtain ⟨hlen, htype, hintact⟩ := hnot
    obtain ⟨hdr, source, hr⟩ := receive_client_of_lt hlen htype true (fun _ => none) fun _ => 0
    exact hintact (h.compiled true true (fun _ => none) (fun _ => 0) hdr source hr)
  · rintro (hlen | htype | hintact)
    · have hclosed := receive_client_of_length_le hlen
      refine ⟨fun _ _ _ _ _ _ hr => ?_, fun _ ctx env frag => ?_⟩
      · rw [hclosed] at hr
        cases hr
      · refine handle_client_of_not_submission fun hdr source => ?_
        rw [hclosed]
        exact Received.noConfusion
    · exact ⟨fun _ _ _ _ _ _ hr => absurd hr (receive_client_of_pull htype _ _ _ _ _ _),
        fun _ ctx env frag => handle_client_of_not_submission
          (receive_client_of_pull htype _ _ _ _)⟩
    · exact ⟨fun _ _ _ _ _ _ _ => hintact, fun hnot => absurd hintact hnot⟩

/-- Nine bytes and no source are compiled and recorded as an attempt. -/
theorem grades_nine_bytes : ¬ GradesOnlyIntact (List.replicate 9 1) ∧
    (handle_client ⟨.initial, .initial, noCsv, fun _ => none⟩
        ⟨true, true, fun _ => some 4095, GRADE_CE, 0, 0, 20, someTm, some 511⟩
        ⟨List.replicate 9 1, fun _ => 0⟩).map
      (fun ctx => (ctx.tracker.students.records.map fun r => r.submit_count).head?) =
        some (some 1) := by
  refine ⟨fun h => ?_, by decide +kernel⟩
  have hlen : sizeofCommonHeader < (List.replicate 9 (1 : UInt8)).length := by decide
  obtain ⟨hdr, source, hr⟩ :=
    receive_client_of_lt hlen (by decide) true (fun _ => none) fun _ => 0
  exact absurd (h.compiled true true (fun _ => none) (fun _ => 0) hdr source hr).full (by decide)

end MiniCi
