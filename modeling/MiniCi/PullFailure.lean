/-
# What a failure of the server comes to at the client

What a failing server has sent keeps the transfers in order, so that the client leaves no files
behind but those of the server, if no `read` has failed before the end of its file: the server
sends a `RES_FILE_END` for what it has read then, with the right checksum.

The client returns 1 unless it finds a `RES_FILE_DONE`.  It does if all files have been sent and
at least the common header of the `RES_FILE_DONE` has: the client looks at nothing else.  And it
does if the text of the `RES_FILE_ERROR` holds one right behind the bytes that it has taken for
the rest of a packet that was cut.  These are the only cases (`failure_told_iff`).
-/
import MiniCi.PullWire

namespace MiniCi

open CStr ByteStream

/-! ## Orderly streams at the client -/

section Client

variable {Good : Bytes → Bytes → Prop} {opened opened' : Option (Bytes × Bytes)} {path : Bytes}
  {es r : List PullPacket}

theorem since_cons {e : PullPacket} (hr : since path (e :: es) = some r) :
    since path es = some r ∨ e.Opens path ∧ es = r := by
  rw [since] at hr
  rcases hlater : since path es with _ | r'
  · simp only [hlater] at hr
    split_ifs at hr with hopens
    exact Or.inr ⟨hopens, Option.some.inj hr⟩
  · simp only [hlater] at hr
    exact Or.inl hr

/-- What came after the last `RES_FILE_META` of a path is in order. -/
theorem Orderly.of_since (h : Orderly Good opened es opened') (hr : since path es = some r) :
    Orderly Good (some (path, [])) r opened' := by
  induction h with
  | nil => cases hr
  | opens horder ih =>
    rcases since_cons hr with hlater | ⟨hopens, rfl⟩
    · exact ih hlater
    · obtain rfl := hopens
      exact horder
  | stores _ ih =>
    rcases since_cons hr with hlater | ⟨hopens, -⟩
    · exact ih hlater
    · cases hopens
  | closes _ _ ih =>
    rcases since_cons hr with hlater | ⟨hopens, -⟩
    · exact ih hlater
    · cases hopens

/-- No `RES_FILE_META` has ended a transfer. -/
theorem Orderly.transfer_ne_meta {content : Bytes}
    (h : Orderly Good (some (path, content)) r opened) (path' : Bytes) (exec : UInt8) :
    (transfer r).2 ≠ some (.file_meta path' exec) := by
  induction r generalizing content with
  | nil => exact fun heq => nomatch heq
  | cons e r ih =>
    cases h with
    | stores hrest => exact ih hrest
    | closes _ _ => exact fun heq => nomatch heq

/-- A transfer that has been closed has brought something good. -/
theorem Orderly.good_of_end {content : Bytes} {checksum : UInt32}
    (h : Orderly Good (some (path, content)) r opened)
    (hend : (transfer r).2 = some (.file_end checksum)) :
    Good path (content ++ (transfer r).1) := by
  induction r generalizing content with
  | nil => cases hend
  | cons e r ih =>
    cases h with
    | stores hrest =>
      have hgood := ih hrest hend
      rwa [List.append_assoc] at hgood
    | closes hgood _ =>
      show Good path (content ++ [])
      rwa [List.append_nil]

/-- A transfer that has not ended leaves its file open. -/
theorem Orderly.open_of_none {content : Bytes}
    (h : Orderly Good (some (path, content)) r opened) (hnone : (transfer r).2 = none) :
    opened ≠ none := by
  induction r generalizing content with
  | nil =>
    cases h
    exact Option.some_ne_none _
  | cons e r ih =>
    cases h with
    | stores hrest => exact ih hrest hnone
    | closes _ _ => cases hnone

/-- Before a `RES_FILE_META` no file is open. -/
theorem Orderly.closed_of_meta {path' : Bytes} {exec : UInt8}
    (h : Orderly Good opened (es ++ [.file_meta path' exec]) opened') :
    Orderly Good opened es none := by
  induction es generalizing opened with
  | nil =>
    cases h
    exact .nil none
  | cons e es ih =>
    cases h with
    | opens hrest => exact .opens (ih hrest)
    | stores hrest => exact .stores (ih hrest)
    | closes hgood hrest => exact .closes hgood (ih hrest)

/-- The packets of an orderly stream are refused nowhere. -/
theorem Orderly.never_refused (h : Orderly Good opened es opened') {t : Taken}
    (ht : opened ≠ none → t.receiving ≠ none) : Taken.Never Taken.Refuses t es := by
  induction h generalizing t with
  | nil => trivial
  | opens _ ih => exact ⟨id, ih fun _ => Option.some_ne_none _⟩
  | stores _ ih =>
    have hreceiving := ht (Option.some_ne_none _)
    exact ⟨hreceiving, ih fun _ => by simpa [Taken.next] using hreceiving⟩
  | closes _ _ ih => exact ⟨ht (Option.some_ne_none _), ih fun hne => absurd rfl hne⟩

/-- If no call of the client fails, none fails for a packet. -/
theorem never_fails {env : PullEnv} (henv : env.NoFailure) (t : Taken) (es : List PullPacket) :
    Taken.Never (Taken.Fails env) t es := by
  induction es generalizing t with
  | nil => trivial
  | cons e es ih =>
    refine ⟨fun hfails => ?_, ih _⟩
    cases e with
    | file_meta path exec =>
      have hopens := henv.opens t.ops
      rw [show env.opens t.ops = false from hfails] at hopens
      cases hopens
    | chunk data =>
      rcases hfails with hmalloc | hwrite
      · have hmallocs := henv.mallocs t.ops
        rw [hmalloc] at hmallocs
        cases hmallocs
      · obtain ⟨out, hwritten, -⟩ := Sink.writeAll_eq (s := ⟨[], env.writes t.ops⟩)
          (henv.writes t.ops) data
        rw [hwritten] at hwrite
        cases hwrite
    | file_end checksum => exact hfails

/-- A client for which no call fails has sent its request. -/
theorem PullEnv.NoFailure.requests {env : PullEnv} (henv : env.NoFailure) : env.Requests := by
  obtain ⟨out, hsent, -⟩ := Sink.writeAll_eq (s := ⟨[], env.sends⟩) henv.sends
    getFilesRequest.encode
  exact ⟨henv.connected, by rw [hsent]⟩

/-- **A client for which no call fails returns 0 wherever an orderly stream leads it to a
`RES_FILE_DONE`.** -/
theorem Orderly.exits_zero {env : PullEnv} (henv : env.NoFailure) {sock : Stream} {q : Bytes}
    (h : Orderly Good none es opened) (hparses : Parses sock.rest es q) (hdone : DoneAt q)
    (dir : Dir) : (do_pull_mode env dir sock).1 = 0 :=
  (do_pull_mode_eq_zero_iff env dir sock).mpr ⟨henv.requests, es, q, hparses, hdone,
    h.never_refused fun hne => absurd rfl hne, never_fails henv _ es⟩

end Client

/-! ## What the server has sent -/

/-- The files that `handle_file_pull` sends; none if the directory cannot be opened. -/
def distFiles (hw : HwState) (opendir : Bytes → Option (List DirEnt)) : List DistFile :=
  match opendir (distDir hw) with
  | none => []
  | some ents => collect_files ents 0

/-- What `handle_file_pull` has sent, if of each file a content that is `Ok` has been read. -/
inductive Wire (Ok : DistFile → Bytes → Prop) (files : List DistFile) (env : ℕ → FileEnv)
    (sock : Sink) : Bytes → Prop
  | no_files {message : Bytes} {m : ℕ} : files = [] → Wire Ok files env sock (errorBytes message m)
  | aborted {message p : Bytes} {m : ℕ} {sock₁ : Sink} : files ≠ [] →
      FileFails env (.ofNat files.length) 0 files sock message sock₁ →
      AbortedAs Ok (.ofNat files.length) 0 files p → sock₁.sent = p →
      (send_pull_error sock₁ message).sent = p ++ errorBytes message m →
      Wire Ok files env sock (p ++ errorBytes message m)
  | sent {p : Bytes} {k : ℕ} {sock₁ : Sink} : files ≠ [] →
      send_files env (.ofNat files.length) 0 files sock = (true, sock₁) →
      SentAs Ok (.ofNat files.length) 0 files p → sock₁.sent = p → k ≤ sizeofFileEndHeader →
      (sock₁.writeAll (doneHeader (.ofNat files.length)).encode).2.sent =
        p ++ (doneHeader (.ofNat files.length)).encode.take k →
      Wire Ok files env sock (p ++ (doneHeader (.ofNat files.length)).encode.take k)

section Server

variable {hw : HwState} {opendir : Bytes → Option (List DirEnt)} {env : ℕ → FileEnv}

theorem handle_file_pull_of_nil (h : distFiles hw opendir = []) (env : ℕ → FileEnv) (sock : Sink) :
    ∃ message, handle_file_pull hw opendir env sock = send_pull_error sock message := by
  unfold distFiles at h
  unfold handle_file_pull
  rcases hopendir : opendir (distDir hw) with _ | ents
  · exact ⟨_, by simp only [hopendir]; rfl⟩
  · simp only [hopendir] at h ⊢
    exact ⟨_, if_pos h⟩

theorem handle_file_pull_of_ne (h : distFiles hw opendir ≠ []) (env : ℕ → FileEnv) (sock : Sink) :
    handle_file_pull hw opendir env sock =
      match send_files env (.ofNat (distFiles hw opendir).length) 0 (distFiles hw opendir) sock with
      | (false, sock) => sock
      | (true, sock) =>
        (sock.writeAll (doneHeader (.ofNat (distFiles hw opendir).length)).encode).2 := by
  unfold distFiles at h ⊢
  unfold handle_file_pull
  rcases hopendir : opendir (distDir hw) with _ | ents
  · simp only [hopendir] at h
    exact absurd rfl h
  · simp only [hopendir] at h ⊢
    exact if_neg h

/-- The ways in which `handle_file_pull` returns. -/
theorem wire_of_handle_file_pull (All : Prop) {sends : ℕ → Option ℕ}
    (hall : All → ¬ SomeReadFails (· ≠ []) env (.ofNat (distFiles hw opendir).length) 0
      (distFiles hw opendir) ⟨[], sends⟩) :
    Wire (ReadAll All) (distFiles hw opendir) env ⟨[], sends⟩
      (handle_file_pull hw opendir env ⟨[], sends⟩).sent := by
  by_cases hnil : distFiles hw opendir = []
  · obtain ⟨message, heq⟩ := handle_file_pull_of_nil hnil env ⟨[], sends⟩
    obtain ⟨m, hsent⟩ := send_pull_error_sent ⟨[], sends⟩ message
    rw [heq, hsent]
    exact .no_files hnil
  · rw [handle_file_pull_of_ne hnil]
    rcases hfiles : send_files env (.ofNat (distFiles hw opendir).length) 0
      (distFiles hw opendir) ⟨[], sends⟩ with ⟨ok, sock₁⟩
    cases ok with
    | false =>
      obtain ⟨message, sock₂, hfile⟩ := send_files_false hfiles
      obtain ⟨p, hp, haborted⟩ := hfile.aborted hall
      obtain ⟨m, hm⟩ := send_pull_error_sent sock₂ message
      obtain rfl : sock₁ = send_pull_error sock₂ message := by
        rw [hfile.send_files_eq] at hfiles
        exact (Prod.mk.inj hfiles).2.symm
      rw [List.nil_append] at hp
      rw [hp] at hm
      show Wire _ _ _ _ (send_pull_error sock₂ message).sent
      rw [hm]
      exact .aborted hnil hfile haborted hp hm
    | true =>
      obtain ⟨p, hp, hsent⟩ := send_files_true All hall hfiles
      obtain ⟨k, hk, hdone, -⟩ := sock₁.writeAll_spec
        (doneHeader (.ofNat (distFiles hw opendir).length)).encode
      rw [List.nil_append] at hsent
      rw [hsent] at hdone
      show Wire _ _ _ _ (sock₁.writeAll _).2.sent
      rw [hdone]
      exact .sent hnil hfiles hp hsent hk hdone

end Server

/-! ## Failures that are told -/

/-- A file of the server with this path and this content. -/
def ServedAs (files : List DistFile) (path content : Bytes) : Prop :=
  ∃ f ∈ files, path = distPath f ∧ content = f.2.content

/-- `do_pull_mode` returns 1, and every file that it has opened for writing and that exists then is
a file of the server. -/
structure FailureTold (files : List DistFile) (client : PullEnv) (dir : Dir) (sock : Stream) :
    Prop where
  code : (do_pull_mode client dir sock).1 = 1
  identical : ∀ es c₁ p₁, Download client dir sock es c₁ p₁ → ∀ path, ∀ r ∈ since path es,
    ∀ content ∈ (do_pull_mode client dir sock).2.dir.content path, ServedAs files path content

/-- Something fails when `handle_file_pull` sends these files. -/
inductive ServerFails (files : List DistFile) (env : ℕ → FileEnv) (sock : Sink) : Prop
  | no_files : files = [] → ServerFails files env sock
  | read : SomeReadFails (fun _ => True) env (.ofNat files.length) 0 files sock →
      ServerFails files env sock
  | file {sock' : Sink} : send_files env (.ofNat files.length) 0 files sock = (false, sock') →
      ServerFails files env sock
  | done {sock₁ sock' : Sink} : send_files env (.ofNat files.length) 0 files sock = (true, sock₁) →
      sock₁.writeAll (doneHeader (.ofNat files.length)).encode = (false, sock') →
      ServerFails files env sock

/-- No `read` fails before the end of its file; of the `RES_FILE_DONE` behind files with safe names
not even the common header is sent; and the bytes of a `RES_FILE_ERROR` do not pass for a
`RES_FILE_DONE` behind the packet that is cut. -/
structure FailureShows (files : List DistFile) (env : ℕ → FileEnv) (sock : Sink) : Prop where
  read : ¬ SomeReadFails (· ≠ []) env (.ofNat files.length) 0 files sock
  done : files ≠ [] → (∀ f ∈ files, is_safe_filename (distName f) = true) →
    ∀ sock₁, send_files env (.ofNat files.length) 0 files sock = (true, sock₁) →
      (sock₁.writeAll (doneHeader (.ofNat files.length)).encode).2.sent.length <
        sock₁.sent.length + sizeofCommonHeader
  message : ∀ message sock₁, FileFails env (.ofNat files.length) 0 files sock message sock₁ →
    ∀ es q, Parses (send_pull_error sock₁ message).sent es q →
      q.length ≤ (send_pull_error sock₁ message).sent.length - sock₁.sent.length → ¬ DoneAt q

/-- **A stream in order without a `RES_FILE_DONE` tells the failure.** -/
theorem StaysOrderly.failureTold {files : List DistFile} {sock : Stream}
    (h : StaysOrderly (ServedAs files) (fun _ => False) none sock.rest) (client : PullEnv)
    (dir : Dir) : FailureTold files client dir sock := by
  constructor
  · by_cases hrequests : client.Requests
    · obtain ⟨es, c₁, p₁, hdownload⟩ := exists_download hrequests dir sock
      obtain ⟨hdone, -⟩ := h es p₁ hdownload.rounds.parses
      rw [hdownload.lastRound.code_eq, if_neg hdone]
    · rw [do_pull_mode_of_not_requests hrequests]
  · intro es c₁ p₁ hdownload path r hr content hcontent
    have hparses := hdownload.rounds.parses
    obtain ⟨hdone, opened, horder⟩ := h es p₁ hparses
    have htransfer := horder.of_since hr
    rcases hlast : (transfer r).2 with _ | e
    · -- the open file is removed
      have hopen : ¬ OpenFails client c₁ p₁ := by
        rintro ⟨-, ⟨e, q⟩, hparse, hmeta⟩
        cases e with
        | chunk data => exact hmeta
        | file_end checksum => exact hmeta
        | file_meta path' exec =>
          obtain ⟨-, opened', horder'⟩ := h _ _ (hparses.append (.cons hparse (.nil q)))
          exact (horder'.closed_of_meta.of_since hr).open_of_none hlast rfl
      rw [hdownload.content_of_none hr hlast, if_pos ⟨hdone, hopen⟩] at hcontent
      cases hcontent
    · cases e with
      | file_meta path' exec => exact absurd hlast (htransfer.transfer_ne_meta path' exec)
      | chunk data => exact absurd hlast (transfer_ne_chunk r data)
      | file_end checksum =>
        rw [hdownload.content_of_end hr hlast] at hcontent
        split_ifs at hcontent
        · obtain rfl := Option.some.inj hcontent
          exact htransfer.good_of_end hlast
        · cases hcontent

/-! ### The `RES_FILE_DONE` -/

section Done

variable (total : UInt8) (k : ℕ)

theorem take_done_header (hk : sizeofCommonHeader ≤ k) :
    (doneHeader total).encode.take k = (serverHeader RES_FILE_DONE sizeofFileEndHeader).encode ++
      (doneHeader total).fields.take (k - sizeofCommonHeader) := by
  rw [FileEndHeader.encode, List.take_append, CommonHeader.length_encode,
    List.take_of_length_le (by rw [CommonHeader.length_encode]; exact hk)]
  rfl

/-- A `RES_FILE_DONE` is found in its first bytes iff the common header is whole. -/
theorem doneAt_take_iff : DoneAt ((doneHeader total).encode.take k) ↔ sizeofCommonHeader ≤ k := by
  constructor
  · intro h
    have hlen := (ofDone_of_doneAt h).1
    rw [List.length_take] at hlen
    omega
  · intro hk
    have hsize : sizeofCommonHeader ≤
        (serverHeader RES_FILE_DONE sizeofFileEndHeader).header_size.toNat := by decide
    rw [take_done_header total k hk]
    exact ⟨_, parseHeader_encode rfl _, rfl, hsize⟩

theorem parsePacket_take_done : parsePacket ((doneHeader total).encode.take k) = none := by
  rcases Nat.lt_or_ge k sizeofCommonHeader with hk | hk
  · by_contra hne
    obtain ⟨⟨e, q⟩, hparse⟩ := Option.ne_none_iff_exists'.mp hne
    have hlen := (ofFile_of_parsePacket hparse).1
    rw [List.length_take] at hlen
    omega
  · exact parsePacket_of_doneAt ((doneAt_take_iff total k).mpr hk)

end Done

/-! ### Where the client returns 0 -/

section Told

variable {hw : HwState} {opendir : Bytes → Option (List DirEnt)} {env : ℕ → FileEnv}
  {sends : ℕ → Option ℕ}

theorem nothingFails_noFailure : nothingFails.NoFailure := by
  constructor
  · rfl
  · intro k
    exact Option.some_ne_none _
  · intro k
    rfl
  · intro k
    rfl
  · intro i k
    exact Option.some_ne_none _
  · intro k
    rfl

/-- What the server has sent is in order, whatever fails. -/
theorem Wire.staysOrderly {Ok : DistFile → Bytes → Prop} {files : List DistFile} {sock : Sink}
    {w : Bytes} (h : Wire Ok files env sock w) :
    StaysOrderly (fun _ _ => True) (fun _ => True) none w := by
  cases h with
  | no_files _ => exact (brokenAt_errorBytes _ _).staysOrderly
  | aborted _ _ haborted _ _ =>
    exact (haborted.staysOrderly fun _ _ _ _ => trivial).mono fun _ _ => trivial
  | sent _ _ hsent _ _ _ =>
    exact (hsent.staysOrderly (fun _ _ _ _ => trivial) (parsePacket_take_done _ _)).mono
      fun _ _ => trivial

/-- A client for which no call fails returns 0 wherever it finds a `RES_FILE_DONE` in what the
server has sent. -/
theorem exits_zero_of_parses {client : PullEnv} (hclient : client.NoFailure) (dir : Dir)
    (frag : ℕ → ℕ) {es : List PullPacket} {q : Bytes}
    (hparses : Parses (handle_file_pull hw opendir env ⟨[], sends⟩).sent es q) (hdone : DoneAt q) :
    (do_pull_mode client dir ⟨(handle_file_pull hw opendir env ⟨[], sends⟩).sent, frag⟩).1 = 0 := by
  have hwire : Wire (ReadAll False) (distFiles hw opendir) env ⟨[], sends⟩
      (handle_file_pull hw opendir env ⟨[], sends⟩).sent :=
    wire_of_handle_file_pull False fun h => h.elim
  obtain ⟨-, opened, horder⟩ := hwire.staysOrderly es q hparses
  exact horder.exits_zero hclient hparses hdone dir

/-- **Once all files have been sent, the exit code says only whether the common header of the
`RES_FILE_DONE` has come**, whatever the server has read of the files. -/
theorem done_passes {client : PullEnv} (hclient : client.NoFailure) (dir : Dir) (frag : ℕ → ℕ)
    (hne : distFiles hw opendir ≠ [])
    (hsafe : ∀ f ∈ distFiles hw opendir, is_safe_filename (distName f) = true) {sock₁ : Sink}
    (hfiles : send_files env (.ofNat (distFiles hw opendir).length) 0 (distFiles hw opendir)
      ⟨[], sends⟩ = (true, sock₁))
    (hdone : sock₁.sent.length + sizeofCommonHeader ≤
      (sock₁.writeAll (doneHeader (.ofNat (distFiles hw opendir).length)).encode).2.sent.length) :
    (do_pull_mode client dir ⟨(handle_file_pull hw opendir env ⟨[], sends⟩).sent, frag⟩).1 = 0 := by
  obtain ⟨p, hp, hsent⟩ := send_files_true False (fun h => h.elim) hfiles
  obtain ⟨k, hk, hsent', -⟩ := sock₁.writeAll_spec
    (doneHeader (.ofNat (distFiles hw opendir).length)).encode
  rw [List.nil_append] at hsent
  rw [hsent', List.length_append, List.length_take] at hdone
  have hk8 : sizeofCommonHeader ≤ k := by omega
  have hwire : (handle_file_pull hw opendir env ⟨[], sends⟩).sent =
      p ++ (doneHeader (.ofNat (distFiles hw opendir).length)).encode.take k := by
    rw [handle_file_pull_of_ne hne, hfiles, ← hsent, ← hsent']
  obtain ⟨es, hes⟩ := hp.exists_parses hsafe
    ((doneHeader (.ofNat (distFiles hw opendir).length)).encode.take k)
  rw [← hwire] at hes
  exact exits_zero_of_parses hclient dir frag hes ((doneAt_take_iff _ _).mpr hk8)

/-- If the failure shows, what has been sent is in order and leads to no `RES_FILE_DONE`. -/
theorem staysOrderly_of_failureShows
    (hshows : FailureShows (distFiles hw opendir) env ⟨[], sends⟩) :
    StaysOrderly (ServedAs (distFiles hw opendir)) (fun _ => False) none
      (handle_file_pull hw opendir env ⟨[], sends⟩).sent := by
  have hgood : ∀ f ∈ distFiles hw opendir, ∀ content, ReadAll True f content →
      ServedAs (distFiles hw opendir) (distPath f) content :=
    fun f hf content hread => ⟨f, hf, rfl, hread trivial⟩
  have hwire := wire_of_handle_file_pull True fun _ => hshows.read
  generalize (handle_file_pull hw opendir env ⟨[], sends⟩).sent = w at hwire
  cases hwire with
  | no_files _ => exact (brokenAt_errorBytes _ _).staysOrderly
  | aborted hne hfile haborted hp hm =>
    intro es q hparses
    obtain ⟨hfinal, horder⟩ := haborted.staysOrderly hgood es q hparses
    refine ⟨?_, horder⟩
    intro hdone
    obtain ⟨j, rfl⟩ := hfinal hdone
    rw [← hm] at hparses
    refine hshows.message _ _ hfile es _ hparses ?_ hdone
    rw [hm, hp, List.length_append, List.length_drop]
    omega
  | sent hne hfiles hsent hp hk hdone =>
    intro es q hparses
    obtain ⟨hfinal, horder⟩ := hsent.staysOrderly hgood (parsePacket_take_done _ _) es q hparses
    refine ⟨?_, horder⟩
    intro hdoneAt
    obtain ⟨rfl, hsafe⟩ := hfinal hdoneAt
    have hk8 := (doneAt_take_iff _ _).mp hdoneAt
    have hshort := hshows.done hne hsafe _ hfiles
    have hk16 : ∀ total, (doneHeader total).encode.length = sizeofFileEndHeader := fun _ => rfl
    rw [hdone, hp, List.length_append, List.length_take, hk16] at hshort
    omega

/-- **The failure of a server is told** if it shows, and only if it does unless a `read` has failed
before the end of its file. -/
theorem failure_told_iff (hw : HwState) (opendir : Bytes → Option (List DirEnt))
    (env : ℕ → FileEnv) (sends : ℕ → Option ℕ) :
    (ServerFails (distFiles hw opendir) env ⟨[], sends⟩ →
      ¬ SomeReadFails (· ≠ []) env (.ofNat (distFiles hw opendir).length) 0 (distFiles hw opendir)
        ⟨[], sends⟩ ∧
      ∀ client dir frag, FailureTold (distFiles hw opendir) client dir
        ⟨(handle_file_pull hw opendir env ⟨[], sends⟩).sent, frag⟩) ↔
    (ServerFails (distFiles hw opendir) env ⟨[], sends⟩ →
      FailureShows (distFiles hw opendir) env ⟨[], sends⟩) := by
  constructor
  · intro h hfails
    obtain ⟨hread, htold⟩ := h hfails
    have hcode := (htold nothingFails (fun _ => none) fun _ => 0).code
    constructor
    · exact hread
    · intro hne hsafe sock₁ hfiles
      by_contra hdone
      rw [done_passes nothingFails_noFailure _ _ hne hsafe hfiles (Nat.le_of_not_lt hdone)] at hcode
      cases hcode
    · intro message sock₁ hfile es q hparses _ hdone
      have hne : distFiles hw opendir ≠ [] := by
        intro hnil
        rw [hnil] at hfile
        cases hfile
      have hwire : handle_file_pull hw opendir env ⟨[], sends⟩ = send_pull_error sock₁ message := by
        rw [handle_file_pull_of_ne hne, hfile.send_files_eq]
      rw [← hwire] at hparses
      rw [exits_zero_of_parses nothingFails_noFailure _ _ hparses hdone] at hcode
      cases hcode
  · intro h hfails
    have hshows := h hfails
    refine ⟨hshows.read, ?_⟩
    intro client dir frag
    exact (staysOrderly_of_failureShows hshows).failureTold client dir

end Told

/-! ### A failure that is not told -/

/-- The state of a server for one week. -/
def someHw : HwState :=
  { current_hw := .ofStr 31 (ascii "week1"), ans_path := [], submit_dir := [] }

/-- A file of three bytes. -/
def someDistFile : DirEnt :=
  { d_name := ascii "a.c", s_isreg := true, s_ixusr := false, content := ascii "abc" }

/-- The file can be read up to its first byte. -/
def secondReadFails : FileEnv :=
  { opened := true, fstat := true, malloc := true
    reads := fun k => if k = 0 then some 0 else none }

/-- A `read` that fails behind the first byte passes for the end of the file, and the exit code
is 0. -/
theorem failed_read_exits_zero :
    ServerFails (distFiles someHw fun _ => some [someDistFile]) (fun _ => secondReadFails)
        ⟨[], fun _ => some 999⟩ ∧
      ¬ FailureTold (distFiles someHw fun _ => some [someDistFile]) nothingFails (fun _ => none)
        ⟨(handle_file_pull someHw (fun _ => some [someDistFile]) (fun _ => secondReadFails)
          ⟨[], fun _ => some 999⟩).sent, fun _ => 99⟩ := by
  constructor
  · have hopen : Sink.Open ⟨[], fun _ => some 999⟩ := fun _ => Option.some_ne_none _
    obtain ⟨sock₁, hmeta, -, hopen₁⟩ := Sink.writeAll_eq hopen
      (metaHeader someDistFile (fileName someDistFile.d_name).bytes 1 1).encode
    obtain ⟨sock₂, hheader, -, hopen₂⟩ := Sink.writeAll_eq hopen₁
      (chunkHeader (ascii "a") 0).encode
    obtain ⟨sock₃, hdata, -, -⟩ := Sink.writeAll_eq hopen₂ (ascii "a")
    apply ServerFails.read
    apply SomeReadFails.here
    refine ⟨sock₁, ?_, .later rfl rfl (by decide) hheader hdata (.now rfl trivial)⟩
    exact { opened := rfl, fstat := rfl, size := by decide, sent := hmeta, malloc := rfl }
  · intro htold
    have hzero : (do_pull_mode nothingFails (fun _ => none)
        ⟨(handle_file_pull someHw (fun _ => some [someDistFile]) (fun _ => secondReadFails)
          ⟨[], fun _ => some 999⟩).sent, fun _ => 99⟩).1 = 0 := by decide +kernel
    rw [htold.code] at hzero
    cases hzero

end MiniCi
