/-
# A submission is a round trip

What `send_source` sends is what `handle_client` receives, name, id and source, and the reply that
`build_and_send_result` makes of the grade is what the status bar of the client shows
(`submission_round_trip`), for every way the network cuts the stream in either direction.

The server reads the header in two parts and the client reads the reply in one; both are read back
from what was written by `SubmitHeader.decode_encode` and `ResultHeader.decode_encode`.
-/
import MiniCi.SubmitClient
import MiniCi.Tracker

namespace MiniCi

open CStr ByteStream

/-! ## What the server receives -/

/-- The submission that the server goes on with: whose it is, what it is called, and what is in
`source.c`. -/
structure ReceivedAs (student_id filepath file : Bytes) (hdr : SubmitHeader)
    (source : Option Bytes) : Prop where
  student_id : hdr.student_id.str = str student_id
  filename : hdr.filename.str = (lastComponent (str filepath)).take (MAX_FILENAME - 1)
  source : source = some file

/-- What the server makes of a submission: its header, and in `source.c` what the `write`s take of
the pieces its source arrives in. -/
theorem receive_client_writes (hdr : SubmitHeader) (htype : hdr.pkt_type ≠ PKT_GET_FILES)
    (q : Bytes) (mkdtemp opened : Bool) (writes : ℕ → Option ℕ) (frag : ℕ → ℕ) :
    receive_client mkdtemp opened writes ⟨hdr.encode ++ q, frag⟩ =
      if mkdtemp then
        .submission hdr (if opened then
          some (gatherTo 4096 hdr.file_size.toNat hdr.file_size.toNat ⟨[], writes⟩ ⟨q, frag⟩).1.sent
        else none)
      else .closed := by
  have hfirst : (hdr.encode ++ q).take sizeofCommonHeader = hdr.toCommonHeader.encode := rfl
  have hrest : (hdr.encode ++ q).drop sizeofCommonHeader =
      hdr.encode.drop sizeofCommonHeader ++ q := rfl
  have hlen : (hdr.encode.drop sizeofCommonHeader).length =
      sizeofSubmitHeader - sizeofCommonHeader := by
    rw [List.length_drop, SubmitHeader.length_encode]
  have hmore : hdr.encode.drop sizeofCommonHeader ≠ [] := by
    intro hnil
    rw [hnil] at hlen
    exact absurd hlen (by decide)
  have hfive : (Buf.ofBytes sizeofCommonHeader hdr.toCommonHeader.encode).bytes.getD 5 0 =
      hdr.pkt_type := by
    rw [Buf.bytes_ofBytes (CommonHeader.length_encode _)]
    rfl
  have hhdr : SubmitHeader.decode ((Buf.ofBytes sizeofCommonHeader hdr.toCommonHeader.encode).bytes
      ++ (Buf.ofBytes (sizeofSubmitHeader - sizeofCommonHeader)
        (hdr.encode.drop sizeofCommonHeader)).bytes) = hdr := by
    rw [Buf.bytes_ofBytes (CommonHeader.length_encode _), Buf.bytes_ofBytes hlen]
    exact SubmitHeader.decode_encode hdr
  have hne : hdr.toCommonHeader.encode ≠ [] := List.cons_ne_nil _ _
  unfold receive_client
  simp only [Stream.recvWaitAll, hfirst, hrest, List.take_left' hlen, List.drop_left' hlen, hfive,
    if_neg htype, if_neg hmore, hhdr, if_neg hne]

/-- A submission is received as it was written, and nothing behind it, if the `write`s of its
source take all. -/
theorem receive_client_encode (hdr : SubmitHeader) (htype : hdr.pkt_type ≠ PKT_GET_FILES)
    {source : Bytes} (hsize : hdr.file_size.toNat = source.length) (q : Bytes)
    {writes : ℕ → Option ℕ} (hwrites : ∀ k, TakesAll 4096 (writes k)) (frag : ℕ → ℕ) :
    receive_client true true writes ⟨hdr.encode ++ (source ++ q), frag⟩ =
      .submission hdr (some source) := by
  have hsource : (gatherTo 4096 hdr.file_size.toNat hdr.file_size.toNat ⟨[], writes⟩
      ⟨source ++ q, frag⟩).1.sent = source := by
    rw [gatherTo_eq _ _ hwrites, (gather_eq (by decide) (Nat.le_refl _) _).1, hsize]
    exact List.take_left
  rw [receive_client_writes hdr htype, if_pos rfl, if_pos rfl, hsource]

/-- The file size in the header is right up to 4 GB. -/
theorem file_size_submitHeader (student_id filepath : Bytes) {file : Bytes}
    (hmax : file.length ≤ MAX_SOURCE_SIZE) :
    (submitHeader student_id filepath file).file_size.toNat = file.length := by
  have hlimit : MAX_SOURCE_SIZE = 1048576 := rfl
  show (UInt32.ofNat file.length).toNat = file.length
  rw [UInt32.toNat_ofNat']
  omega

/-- **The header that `send_source` fills is the submission that is meant.** -/
theorem receivedAs_submitHeader {student_id : Bytes} (hid : ClientId student_id)
    (filepath file : Bytes) :
    ReceivedAs student_id filepath file (submitHeader student_id filepath file) (some file) := by
  constructor
  · show (Buf.ofStr (MAX_STUDENT_ID - 1) student_id).str = str student_id
    rw [Buf.str_ofStr]
    exact List.take_of_length_le hid.2.1
  · have hstr : str (base_name filepath) = base_name filepath := by
      apply str_eq_self
      rw [base_name_eq]
      exact fun h0 => ne_zero_of_mem_str (List.rtakeWhile_suffix _ _ |>.subset h0) rfl
    show (Buf.ofStr (MAX_FILENAME - 1) (base_name filepath)).str = _
    rw [Buf.str_ofStr, hstr, base_name_eq]
  · rfl

/-! ## What the client shows -/

/-- The status bar shows the grade and the counters of a reply. -/
structure ShowsResult (status : ClientStatus) (task_hw : Buf MAX_WEEK_NAME) (g : Graded)
    (my_submit_count : UInt16) (t : TrackerState) : Prop where
  week : status.week.str = task_hw.str
  submitted : status.submitted = t.submitted_count
  total : status.total = t.total_students
  last_result : status.last_result.str = grade_str g.grade
  last_exec_ms : status.last_exec_ms = g.exec_ms
  my_submit_count : status.my_submit_count = my_submit_count

/-- The grade goes over the wire as a number, and comes back as its name. -/
theorem gnames_code (grade : GradeResult) :
    (Buf.ofStr 7 (gnames.getD (if grade.code < 5 then grade.code else 4).toNat [])).str =
      grade_str grade := by
  cases grade <;> decide

/-- **A reply is shown as it was made**, for a week that is a string. -/
theorem showsResult_on_result_received {task_hw : Buf MAX_WEEK_NAME}
    (hweek : Terminated task_hw.bytes) (g : Graded) (my_submit_count : UInt16) (t : TrackerState) :
    ShowsResult (on_result_received (resultHeader task_hw g my_submit_count t)) task_hw g
      my_submit_count t := by
  constructor
  · have hlen : task_hw.str.length ≤ MAX_WEEK_NAME - 1 := by
      have hlt := length_str_lt hweek
      rw [task_hw.length_bytes] at hlt
      exact Nat.le_sub_one_of_lt hlt
    show (Buf.ofStr (MAX_WEEK_NAME - 1) (Buf.strncpy MAX_WEEK_NAME task_hw.bytes).bytes).str = _
    rw [Buf.str_ofStr]
    show (Buf.strncpy MAX_WEEK_NAME task_hw.bytes).str.take (MAX_WEEK_NAME - 1) = task_hw.str
    rw [Buf.str_strncpy_bytes, List.take_of_length_le hlen]
  · rfl
  · rfl
  · exact gnames_code g.grade
  · rfl
  · rfl

/-- A reply that has been received in full. -/
theorem recv_result_encode (g_status : ClientStatus) (sock : Sink) (r : ResultHeader)
    (frag : ℕ → ℕ) :
    recv_result g_status sock ⟨r.encode, frag⟩ = ⟨true, on_result_received r, r, sock⟩ := by
  have htake : r.encode.take sizeofResultHeader = r.encode :=
    List.take_of_length_le (Nat.le_of_eq r.length_encode)
  have hdecode : ResultHeader.decode (Buf.ofBytes sizeofResultHeader r.encode).bytes = r := by
    rw [Buf.bytes_ofBytes r.length_encode, ResultHeader.decode_encode]
  unfold recv_result
  simp only [Stream.recvWaitAll, htake, hdecode]
  exact if_neg fun h => h r.length_encode

/-! ## Both ways -/

/-- Where the sending of a submission leads: the server receives it, however the stream is cut, if
the `write`s of its source take all, and whatever grade, time, counters and week the reply is made
of, the client shows them. -/
structure RoundTrip (send : Stream → SubmitRun) (student_id filepath file wire : Bytes) : Prop where
  sent : ∀ reply, (send reply).sock.sent = wire
  received : ∀ writes : ℕ → Option ℕ, (∀ k, TakesAll 4096 (writes k)) → ∀ frag, ∃ hdr source,
    receive_client true true writes ⟨wire, frag⟩ = .submission hdr source ∧
      ReceivedAs student_id filepath file hdr source
  shown : ∀ {task_hw : Buf MAX_WEEK_NAME}, Terminated task_hw.bytes → ∀ (g : Graded)
    (my_submit_count : UInt16) (t : TrackerState) (frag : ℕ → ℕ),
    (send ⟨(resultHeader task_hw g my_submit_count t).encode, frag⟩).ok = true ∧
      ShowsResult (send ⟨(resultHeader task_hw g my_submit_count t).encode, frag⟩).g_status task_hw
        g my_submit_count t

/-- **A submission is a round trip**, for every id the client lets through, every path and every
file of 1 to 1048576 bytes, and for every way the calls cut the file and the stream. -/
theorem submission_round_trip {env : SubmitEnv} (henv : env.NoFailure) {file : Bytes}
    (hne : file ≠ []) (hmax : file.length ≤ MAX_SOURCE_SIZE) {sends : ℕ → Option ℕ}
    (hsends : ∀ k, sends k ≠ none) {student_id : Bytes} (hid : ClientId student_id)
    (filepath : Bytes) (g_status : ClientStatus) (out_res : ResultHeader) :
    ∃ wire, RoundTrip (send_source env g_status out_res student_id filepath file ⟨[], sends⟩)
      student_id filepath file wire := by
  obtain ⟨sock, hsent, hsend⟩ := send_source_eq henv hne hmax
    (show Sink.Open ⟨[], sends⟩ from hsends) g_status out_res student_id filepath
  refine ⟨(submitHeader student_id filepath file).encode ++ file, ?_, ?_, ?_⟩
  · intro reply
    rw [hsend, sock_recv_result]
    exact hsent
  · intro writes hwrites frag
    have hreceive := receive_client_encode (submitHeader student_id filepath file)
      (show PKT_SUBMIT ≠ PKT_GET_FILES by decide)
      (file_size_submitHeader student_id filepath hmax) [] hwrites frag
    rw [List.append_nil] at hreceive
    exact ⟨_, _, hreceive, receivedAs_submitHeader hid filepath file⟩
  · intro task_hw hweek g my_submit_count t frag
    rw [hsend, recv_result_encode]
    exact ⟨rfl, showsResult_on_result_received hweek g my_submit_count t⟩

/-- A file of nine bytes goes out byte by byte, and its name is what follows the backslash. -/
theorem submission_round_trip_hello :
    (∃ wire, RoundTrip (send_source ⟨true, true, true, fun _ => some 3, true⟩ .initial (.decode [])
        (ascii "20240123") (ascii "hw/week_1\\hello.c") (ascii "int main;") ⟨[], fun _ => some 0⟩)
      (ascii "20240123") (ascii "hw/week_1\\hello.c") (ascii "int main;") wire) ∧
      lastComponent (ascii "hw/week_1\\hello.c") = ascii "hello.c" ∧
      Terminated HwState.initial.current_hw.bytes := by
  refine ⟨submission_round_trip ⟨rfl, rfl, rfl, fun _ => Option.some_ne_none 3, rfl⟩ (by decide)
    (by decide) (fun _ => Option.some_ne_none 0) ?_ _ _ _, by decide +kernel, by decide⟩
  exact ⟨by decide, by decide, by decide +kernel⟩

/-! ## The reply of `handle_client` -/

/-- `build_and_send_result` answers with the counters it leaves. -/
theorem exists_resultHeader {ctx ctx' : ServerContext} {hdr : SubmitHeader} {env : ClientEnv}
    {task_hw : Buf MAX_WEEK_NAME} {resp : ResultHeader}
    (h : build_and_send_result ctx hdr env task_hw = some (ctx', resp)) :
    ∃ my_submit_count, resp = resultHeader task_hw
      ⟨hdr, env.grade, env.exec_ms, env.mem_kb, none⟩ my_submit_count ctx'.tracker := by
  unfold build_and_send_result at h
  split_ifs at h
  · obtain ⟨⟨csv, disk⟩, -, heq⟩ := Option.map_eq_some_iff.mp h
    obtain ⟨rfl, rfl⟩ := Prod.mk.inj heq
    exact ⟨_, rfl⟩
  · obtain ⟨rfl, rfl⟩ := Prod.mk.inj (Option.some.inj h)
    exact ⟨0, rfl⟩

/-- A string that is shorter than the array keeps its NUL. -/
theorem terminated_strncpy {n : ℕ} {src : Bytes} (h : (str src).length < n) :
    Terminated (Buf.strncpy n src).bytes := by
  obtain ⟨k, hk⟩ : ∃ k, n - (str src).length = k + 1 := Nat.exists_eq_succ_of_ne_zero (by omega)
  show 0 ∈ strncpy src n
  rw [strncpy_eq, hk]
  exact List.mem_append_right _ List.mem_cons_self

/-- The copy of `current_hw` that `handle_client` takes is a string. -/
theorem terminated_task_hw (week_name : Bytes) :
    Terminated (Buf.strncpy MAX_WEEK_NAME (ctx_set_hw_paths week_name).current_hw.bytes).bytes := by
  apply terminated_strncpy
  show (Buf.ofStr (MAX_WEEK_NAME - 1) week_name).str.length < MAX_WEEK_NAME
  rw [Buf.str_ofStr]
  exact Nat.lt_of_le_of_lt (List.length_take_le _ _) (by decide)

/-- The client shows what grading a submission has led to. -/
theorem showsResult_of_build_and_send_result {ctx ctx' : ServerContext} {week_name : Bytes}
    (hweek : ctx.hw = ctx_set_hw_paths week_name) {hdr : SubmitHeader} {env : ClientEnv}
    {resp : ResultHeader}
    (h : build_and_send_result ctx hdr env
      (.strncpy MAX_WEEK_NAME ctx.hw.current_hw.bytes) = some (ctx', resp)) :
    ∃ my_submit_count, ShowsResult (on_result_received resp)
      (.strncpy MAX_WEEK_NAME ctx.hw.current_hw.bytes)
      ⟨hdr, env.grade, env.exec_ms, env.mem_kb, none⟩ my_submit_count ctx'.tracker := by
  obtain ⟨my_submit_count, rfl⟩ := exists_resultHeader h
  refine ⟨my_submit_count, showsResult_on_result_received ?_ _ _ _⟩
  rw [hweek]
  exact terminated_task_hw week_name

end MiniCi
