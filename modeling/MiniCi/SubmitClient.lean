/-
# Submitting a file (`client/client.c`, `send_source`)

The client reads the file, sends a `SubmitHeader` and the bytes behind it, and waits for a
`ResultHeader`, from which `on_result_received` sets what the status bar shows.  The name in the
header is what follows the last `/` or `\` of the path, of which `strrchr` finds each alone
(`base_name_eq`).

What `print_result_card` and the progress lines print is left out.
-/
import MiniCi.Submission
import Mathlib.Data.List.DropRight

namespace MiniCi

open CStr ByteStream

/-! ## The name of a file -/

/-- `strrchr`, for a `c` that is no NUL: where the last `c` of the string is. -/
def strrchr : Bytes → UInt8 → Option ℕ
  | [], _ => none
  | d :: p, c =>
    if d = 0 then none
    else
      match strrchr p c with
      | some i => some (i + 1)
      | none => if d = c then some 0 else none

/-- `bname` of `send_source`. -/
def base_name (filepath : Bytes) : Bytes :=
  let bname := strrchr filepath 47
  let bname_win := strrchr filepath 92
  let bname := if bname_win ≠ none ∧ (bname = none ∨ bname.getD 0 < bname_win.getD 0)
    then bname_win else bname
  match bname with
  | some i => (str filepath).drop (i + 1)
  | none => str filepath

/-- What follows the last `/` or `\` of a path, all of it if there is none. -/
def lastComponent (path : Bytes) : Bytes := path.rtakeWhile fun c => c ≠ 47 ∧ c ≠ 92

section BaseName

variable {p pre post : Bytes} {c : UInt8} {i : ℕ}

theorem strrchr_eq_none (h : strrchr p c = none) : c ∉ str p := by
  induction p with
  | nil => exact List.not_mem_nil
  | cons d p ih =>
    rw [strrchr] at h
    rw [str_cons]
    by_cases hd : d = 0
    · rw [if_pos hd]
      exact List.not_mem_nil
    · rw [if_neg hd] at h ⊢
      rcases hp : strrchr p c with _ | i
      · simp only [hp] at h
        split_ifs at h with hc
        rw [List.mem_cons, not_or]
        exact ⟨fun heq => hc heq.symm, ih hp⟩
      · simp only [hp] at h
        cases h

/-- The string has a `c` there, and none behind it. -/
theorem strrchr_eq_some (h : strrchr p c = some i) :
    ∃ pre post, str p = pre ++ c :: post ∧ pre.length = i ∧ c ∉ post := by
  induction p generalizing i with
  | nil => cases h
  | cons d p ih =>
    rw [strrchr] at h
    rw [str_cons]
    by_cases hd : d = 0
    · rw [if_pos hd] at h
      cases h
    · rw [if_neg hd] at h ⊢
      rcases hp : strrchr p c with _ | j
      · simp only [hp] at h
        split_ifs at h with hc
        obtain rfl := Option.some.inj h
        subst hc
        exact ⟨[], str p, rfl, rfl, strrchr_eq_none hp⟩
      · simp only [hp] at h
        obtain rfl := Option.some.inj h
        obtain ⟨pre, post, heq, hlen, hpost⟩ := ih hp
        exact ⟨d :: pre, post, by rw [heq, List.cons_append], by rw [List.length_cons, hlen], hpost⟩

theorem lastComponent_append (hc : c = 47 ∨ c = 92) (h47 : 47 ∉ post) (h92 : 92 ∉ post) :
    lastComponent (pre ++ c :: post) = post := by
  have hpost : ∀ d ∈ post.reverse, decide (d ≠ 47 ∧ d ≠ 92) = true := by
    intro d hd
    rw [List.mem_reverse] at hd
    exact decide_eq_true ⟨fun h => h47 (h ▸ hd), fun h => h92 (h ▸ hd)⟩
  have hsep : ¬ decide (c ≠ 47 ∧ c ≠ 92) = true := by
    rw [decide_eq_true_eq]
    rintro ⟨h, h'⟩
    exact hc.elim h h'
  unfold lastComponent List.rtakeWhile
  rw [List.reverse_append, List.reverse_cons, List.append_assoc,
    List.takeWhile_append_of_pos hpost, List.singleton_append, List.takeWhile_cons, if_neg hsep,
    List.append_nil, List.reverse_reverse]

theorem lastComponent_eq_self (h47 : 47 ∉ p) (h92 : 92 ∉ p) : lastComponent p = p := by
  unfold lastComponent
  rw [List.rtakeWhile_eq_self_iff]
  intro d hd
  exact decide_eq_true ⟨fun h => h47 (h ▸ hd), fun h => h92 (h ▸ hd)⟩

/-- If the last `d` stands before a `c`, none stands behind it. -/
theorem not_mem_of_strrchr {d : UInt8} (hp : str p = pre ++ c :: post)
    (h : ∀ j, strrchr p d = some j → j ≤ pre.length) : d ∉ post := by
  rcases hd : strrchr p d with _ | j
  · have hnot := strrchr_eq_none hd
    rw [hp] at hnot
    exact fun hmem => hnot (List.mem_append_right _ (List.mem_cons_of_mem _ hmem))
  · obtain ⟨pre', post', hp', hlen, hpost⟩ := strrchr_eq_some hd
    have hle := h j hd
    intro hmem
    rcases List.append_eq_append_iff.mp (hp.symm.trans hp') with
      ⟨between, hpre, hrest⟩ | ⟨between, -, hrest⟩
    · -- both stand at the same place
      rw [hpre, List.length_append] at hlen
      obtain rfl : between = [] := List.length_eq_zero_iff.mp (by omega)
      exact hpost ((List.cons.inj hrest).2 ▸ hmem)
    · rcases between with _ | ⟨x, between⟩
      · exact hpost ((List.cons.inj hrest).2 ▸ hmem)
      · rw [(List.cons.inj hrest).2] at hpost
        exact hpost (List.mem_append_right _ (List.mem_cons_of_mem _ hmem))

/-- What is behind a separator is the last component if neither stands further on. -/
theorem drop_eq_lastComponent (hc : c = 47 ∨ c = 92) (hi : strrchr p c = some i)
    (h47 : ∀ j, strrchr p 47 = some j → j ≤ i) (h92 : ∀ j, strrchr p 92 = some j → j ≤ i) :
    (str p).drop (i + 1) = lastComponent (str p) := by
  obtain ⟨pre, post, hp, rfl, -⟩ := strrchr_eq_some hi
  have hdrop : (pre ++ c :: post).drop (pre.length + 1) = post := by
    rw [← List.drop_drop, List.drop_left]
    rfl
  rw [hp, hdrop, lastComponent_append hc (not_mem_of_strrchr hp h47) (not_mem_of_strrchr hp h92)]

theorem le_of_strrchr {k : ℕ} (h : strrchr p c = some i) (hik : i ≤ k) (j : ℕ)
    (hj : strrchr p c = some j) : j ≤ k := by
  rw [h] at hj
  rwa [← Option.some.inj hj]

/-- **The name is what follows the last separator**, whichever of the two it is. -/
theorem base_name_eq (filepath : Bytes) : base_name filepath = lastComponent (str filepath) := by
  have hnever : ∀ {c : UInt8} {k : ℕ}, strrchr filepath c = none →
      ∀ j, strrchr filepath c = some j → j ≤ k := by
    intro c k hnone j hj
    rw [hnone] at hj
    cases hj
  unfold base_name
  rcases hs : strrchr filepath 47 with _ | i
  · rcases hb : strrchr filepath 92 with _ | j
    · exact (lastComponent_eq_self (strrchr_eq_none hs) (strrchr_eq_none hb)).symm
    · exact drop_eq_lastComponent (.inr rfl) hb (hnever hs) (le_of_strrchr hb (Nat.le_refl j))
  · rcases hb : strrchr filepath 92 with _ | j
    · exact drop_eq_lastComponent (.inl rfl) hs (le_of_strrchr hs (Nat.le_refl i)) (hnever hb)
    · rcases Nat.lt_or_ge i j with hlt | hge
      · have hback : (some j : Option ℕ) ≠ none ∧
            ((some i : Option ℕ) = none ∨ (some i).getD 0 < (some j).getD 0) :=
          ⟨Option.some_ne_none j, .inr hlt⟩
        simp only [if_pos hback]
        exact drop_eq_lastComponent (.inr rfl) hb (le_of_strrchr hs (Nat.le_of_lt hlt))
          (le_of_strrchr hb (Nat.le_refl j))
      · have hslash : ¬ ((some j : Option ℕ) ≠ none ∧
            ((some i : Option ℕ) = none ∨ (some i).getD 0 < (some j).getD 0)) := by
          rintro ⟨-, hnone | hlt⟩
          · cases hnone
          · exact absurd hlt (Nat.not_lt.mpr hge)
        simp only [if_neg hslash]
        exact drop_eq_lastComponent (.inl rfl) hs (le_of_strrchr hs (Nat.le_refl i))
          (le_of_strrchr hb hge)

end BaseName

/-! ## The status bar -/

/-- `g_status`. -/
structure ClientStatus where
  week : Buf MAX_WEEK_NAME
  submitted : UInt16
  total : UInt16
  last_result : Buf 8
  last_exec_ms : UInt32
  my_submit_count : UInt16
  deriving DecidableEq

/-- `g_status` when the program starts. -/
def ClientStatus.initial : ClientStatus :=
  { week := .ofStr (MAX_WEEK_NAME - 1) (ascii "week_1"), submitted := 0, total := 0
    last_result := .ofStr 7 (ascii "---"), last_exec_ms := 0, my_submit_count := 0 }

/-- `gnames`. -/
def gnames : List Bytes := [ascii "AC", ascii "WA", ascii "TLE", ascii "RE", ascii "CE"]

/-- `on_result_received`, which sets all of `g_status`. -/
def on_result_received (r : ResultHeader) : ClientStatus :=
  let gr := if r.result < 5 then r.result else 4
  { week := .ofStr (MAX_WEEK_NAME - 1) r.week_name.bytes
    submitted := r.submitted_count
    total := r.total_students
    last_result := .ofStr 7 (gnames.getD gr.toNat [])
    last_exec_ms := r.exec_time_ms
    my_submit_count := r.student_submit_count }

/-! ## Sending -/

/-- The largest file that is sent. -/
def MAX_SOURCE_SIZE : ℕ := 1024 * 1024

/-- How the calls of `send_source` before the first `send` turn out; `connected` is about
`socket`, `inet_pton` and `connect`.  `reads` says how many more than one the next `read`s find,
and `none` is an error. -/
structure SubmitEnv where
  opened : Bool
  fstat : Bool
  malloc : Bool
  reads : ℕ → Option ℕ
  connected : Bool

/-- No call fails. -/
structure SubmitEnv.NoFailure (env : SubmitEnv) : Prop where
  opened : env.opened = true
  fstat : env.fstat = true
  malloc : env.malloc = true
  reads : ∀ k, env.reads k ≠ none
  connected : env.connected = true

/-- The loop of `send_source` over `read`, with `fuel` rounds at most: the bytes read. -/
def read_source : ℕ → Bytes → (ℕ → Option ℕ) → Bytes
  | 0, _, _ => []
  | fuel + 1, rest, reads =>
    match reads 0 with
    | none => []
    | some more =>
      let got := rest.take (more + 1)
      if got = [] then []
      else got ++ read_source fuel (rest.drop got.length) fun k => reads (k + 1)

/-- The header that `send_source` fills. -/
def submitHeader (student_id filepath payload : Bytes) : SubmitHeader :=
  { magic := MAGIC_NUMBER, version := PROTO_VERSION, pkt_type := PKT_SUBMIT
    header_size := .ofNat sizeofSubmitHeader
    student_id := .ofStr (MAX_STUDENT_ID - 1) student_id
    filename := .ofStr (MAX_FILENAME - 1) (base_name filepath)
    file_size := .ofNat payload.length, checksum := crc32_buf payload }

/-- What `send_source` leaves behind; `ok` is false for `-1`. -/
structure SubmitRun where
  ok : Bool
  g_status : ClientStatus
  out_res : ResultHeader
  sock : Sink

/-- `send_source` from its `recv` on.  `out_res` has been cleared, and keeps what has come of the
reply. -/
def recv_result (g_status : ClientStatus) (sock : Sink) (reply : Stream) : SubmitRun :=
  let (got, _) := reply.recvWaitAll sizeofResultHeader
  let out_res := ResultHeader.decode (Buf.ofBytes sizeofResultHeader got).bytes
  if got.length ≠ sizeofResultHeader then ⟨false, g_status, out_res, sock⟩
  else ⟨true, on_result_received out_res, out_res, sock⟩

/-- `send_source` of a `file` into `sock`, with what the server answers. -/
def send_source (env : SubmitEnv) (g_status : ClientStatus) (out_res : ResultHeader)
    (student_id filepath file : Bytes) (sock : Sink) (reply : Stream) : SubmitRun :=
  if env.opened = false then ⟨false, g_status, out_res, sock⟩
  else if env.fstat = false then ⟨false, g_status, out_res, sock⟩
  else if file.length = 0 ∨ MAX_SOURCE_SIZE < file.length then ⟨false, g_status, out_res, sock⟩
  else if env.malloc = false then ⟨false, g_status, out_res, sock⟩
  else
    let payload := read_source file.length file env.reads
    if payload.length ≠ file.length then ⟨false, g_status, out_res, sock⟩
    else if env.connected = false then ⟨false, g_status, out_res, sock⟩
    else
      match sock.writeAll (submitHeader student_id filepath payload).encode with
      | (false, sock) => ⟨false, g_status, out_res, sock⟩
      | (true, sock) =>
        match sock.writeAll payload with
        | (false, sock) => ⟨false, g_status, out_res, sock⟩
        | (true, sock) => recv_result g_status sock reply

/-! ## What is sent when nothing fails -/

/-- The file is read as it is, however `read` cuts it. -/
theorem read_source_eq {fuel : ℕ} {rest : Bytes} (hfuel : rest.length ≤ fuel)
    {reads : ℕ → Option ℕ} (hreads : ∀ k, reads k ≠ none) : read_source fuel rest reads = rest := by
  -- induction on the rounds left; a round takes at least one byte off the file
  induction fuel generalizing rest reads with
  | zero => exact (List.length_eq_zero_iff.mp (Nat.le_zero.mp hfuel)).symm
  | succ fuel ih =>
    obtain ⟨more, hmore⟩ := Option.ne_none_iff_exists'.mp (hreads 0)
    rw [read_source, hmore]
    by_cases hrest : rest = []
    · rw [hrest]
      rfl
    · have hpos : 0 < rest.length := List.length_pos_iff.mpr hrest
      have hgot : rest.take (more + 1) ≠ [] := by
        rw [Ne, List.take_eq_nil_iff, not_or]
        exact ⟨Nat.succ_ne_zero more, hrest⟩
      have hle : (rest.drop (rest.take (more + 1)).length).length ≤ fuel := by
        rw [List.length_drop, List.length_take]
        omega
      simp only [if_neg hgot]
      rw [ih hle fun k => hreads (k + 1)]
      exact (List.prefix_iff_eq_append.mp (List.take_prefix _ _))

@[simp] theorem sock_recv_result (g_status : ClientStatus) (sock : Sink) (reply : Stream) :
    (recv_result g_status sock reply).sock = sock := by
  unfold recv_result
  dsimp only
  split <;> rfl

/-- **If nothing fails, the header and the file are sent**, and then the client waits. -/
theorem send_source_eq {env : SubmitEnv} (henv : env.NoFailure) {file : Bytes} (hne : file ≠ [])
    (hmax : file.length ≤ MAX_SOURCE_SIZE) {sock : Sink} (hsock : sock.Open)
    (g_status : ClientStatus) (out_res : ResultHeader) (student_id filepath : Bytes) :
    ∃ sock', sock'.sent = sock.sent ++ ((submitHeader student_id filepath file).encode ++ file) ∧
      ∀ reply, send_source env g_status out_res student_id filepath file sock reply =
        recv_result g_status sock' reply := by
  obtain ⟨sock₁, hw₁, hsent₁, hopen₁⟩ :=
    Sink.writeAll_eq hsock (submitHeader student_id filepath file).encode
  obtain ⟨sock₂, hw₂, hsent₂, -⟩ := Sink.writeAll_eq hopen₁ file
  refine ⟨sock₂, by rw [hsent₂, hsent₁, List.append_assoc], ?_⟩
  intro reply
  have hopened : ¬ env.opened = false := by simp [henv.opened]
  have hfstat : ¬ env.fstat = false := by simp [henv.fstat]
  have hmalloc : ¬ env.malloc = false := by simp [henv.malloc]
  have hconnected : ¬ env.connected = false := by simp [henv.connected]
  have hsize : ¬ (file.length = 0 ∨ MAX_SOURCE_SIZE < file.length) := by
    have hpos : 0 < file.length := List.length_pos_iff.mpr hne
    omega
  have hread : read_source file.length file env.reads = file :=
    read_source_eq (Nat.le_refl _) henv.reads
  rw [send_source, if_neg hopened, if_neg hfstat, if_neg hsize, if_neg hmalloc]
  simp only [hread, if_neg hconnected, hw₁, hw₂]
  exact if_neg fun h => h rfl

end MiniCi
