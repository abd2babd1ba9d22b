/-
# A session of the client (`client/client.c`, `main`)

The client submits every file it was started with, one after the other, and then lists them.  With
the arrow keys a file is selected; the enter key opens it in the editor, and submits it once more
if its modification time has changed.

A call of `send_source` that fails before its `recv` leaves the result of the file as it is, and
one that fails in it leaves what has come.  The results start out as zeros, and a zero is
`GRADE_AC` (`listed_as_accepted_iff`).

What is drawn besides the list is left out, and so are the two loops that wait for a line end and
for a key; at the end of the input neither of them returns.
-/
import MiniCi.SubmitClient
import MiniCi.Runs

namespace MiniCi

open CStr ByteStream Runs

/-! ## One submission -/

/-- A call of `send_source`: how its calls turn out, the file as it is at that moment, the socket,
and what the server answers. -/
structure Attempt where
  env : SubmitEnv
  file : Bytes
  sock : Sink
  reply : Stream

def Attempt.run (a : Attempt) (g_status : ClientStatus) (out_res : ResultHeader)
    (student_id filepath : Bytes) : SubmitRun :=
  send_source a.env g_status out_res student_id filepath a.file a.sock a.reply

/-- What `recv` returns, if it is called. -/
def Attempt.received (a : Attempt) (student_id filepath : Bytes) : Option Bytes :=
  if a.env.opened = false then none
  else if a.env.fstat = false then none
  else if a.file.length = 0 ∨ MAX_SOURCE_SIZE < a.file.length then none
  else if a.env.malloc = false then none
  else
    let payload := read_source a.file.length a.file a.env.reads
    if payload.length ≠ a.file.length then none
    else if a.env.connected = false then none
    else
      match a.sock.writeAll (submitHeader student_id filepath payload).encode with
      | (false, _) => none
      | (true, sock) =>
        match sock.writeAll payload with
        | (false, _) => none
        | (true, _) => some (a.reply.recvWaitAll sizeofResultHeader).1

/-- The result that `recv` leaves in a cleared variable. -/
def resultOfBytes (got : Bytes) : ResultHeader :=
  .decode (Buf.ofBytes sizeofResultHeader got).bytes

/-- The result if the reply is complete. -/
def completeReply (got : Bytes) : Option ResultHeader :=
  if got.length = sizeofResultHeader then some (resultOfBytes got) else none

section Attempts

variable (a : Attempt) (g_status : ClientStatus) (out_res : ResultHeader)
  (student_id filepath : Bytes)

/-- **What a call of `send_source` leaves behind**: the result as it was if `recv` is not reached,
and else the reply, of which only a complete one gets into the status bar. -/
theorem Attempt.run_eq :
    ((a.run g_status out_res student_id filepath).out_res,
      (a.run g_status out_res student_id filepath).g_status) =
    (((a.received student_id filepath).map resultOfBytes).getD out_res,
      (((a.received student_id filepath).bind completeReply).map on_result_received).getD
        g_status) := by
  unfold Attempt.run send_source Attempt.received
  by_cases hopened : a.env.opened = false
  · simp only [if_pos hopened, Option.map_none, Option.bind_none, Option.getD_none]
  by_cases hfstat : a.env.fstat = false
  · simp only [if_neg hopened, if_pos hfstat, Option.map_none, Option.bind_none, Option.getD_none]
  by_cases hsize : a.file.length = 0 ∨ MAX_SOURCE_SIZE < a.file.length
  · simp only [if_neg hopened, if_neg hfstat, if_pos hsize, Option.map_none, Option.bind_none,
      Option.getD_none]
  by_cases hmalloc : a.env.malloc = false
  · simp only [if_neg hopened, if_neg hfstat, if_neg hsize, if_pos hmalloc, Option.map_none,
      Option.bind_none, Option.getD_none]
  simp only [if_neg hopened, if_neg hfstat, if_neg hsize, if_neg hmalloc]
  generalize read_source a.file.length a.file a.env.reads = payload
  by_cases hread : payload.length ≠ a.file.length
  · simp only [if_pos hread, Option.map_none, Option.bind_none, Option.getD_none]
  by_cases hconnected : a.env.connected = false
  · simp only [if_neg hread, if_pos hconnected, Option.map_none, Option.bind_none, Option.getD_none]
  simp only [if_neg hread, if_neg hconnected]
  rcases a.sock.writeAll (submitHeader student_id filepath payload).encode with ⟨_ | _, sock₁⟩
  · rfl
  dsimp only
  rcases sock₁.writeAll payload with ⟨_ | _, sock₂⟩
  · rfl
  -- the reply has been waited for
  unfold recv_result
  dsimp only
  generalize (a.reply.recvWaitAll sizeofResultHeader).1 = got
  dsimp only [Option.map_some, Option.bind_some, Option.getD_some, completeReply]
  by_cases hlen : got.length = sizeofResultHeader
  · rw [if_neg (not_not.mpr hlen), if_pos hlen]
    rfl
  · rw [if_pos hlen, if_neg hlen]
    rfl

theorem Attempt.run_out_res :
    (a.run g_status out_res student_id filepath).out_res =
      ((a.received student_id filepath).map resultOfBytes).getD out_res :=
  congrArg Prod.fst (a.run_eq g_status out_res student_id filepath)

theorem Attempt.run_g_status :
    (a.run g_status out_res student_id filepath).g_status =
      (((a.received student_id filepath).bind completeReply).map on_result_received).getD
        g_status :=
  congrArg Prod.snd (a.run_eq g_status out_res student_id filepath)

end Attempts

/-! ## The loop of `main` -/

/-- The most files the client submits; further ones are left alone. -/
def MAX_FILES : ℕ := 50

/-- What the client works with: the id it has asked for, and the files it was started with. -/
structure ClientArgs where
  student_id : Bytes
  files : List Bytes
  files_ne : files ≠ []

def ClientArgs.num_files (args : ClientArgs) : ℕ := min args.files.length MAX_FILES

theorem ClientArgs.num_files_pos (args : ClientArgs) : 0 < args.num_files :=
  lt_min (List.length_pos_iff.mpr args.files_ne) (by decide)

/-- The variables of `main` that the loop reads and writes, and `g_status`. -/
structure ClientSession where
  g_status : ClientStatus
  results : List ResultHeader
  selected : ℕ
  key_hint : Bytes

def keysHint : Bytes := ascii "Keys: UP/DOWN move | ENTER open editor | q quit"

def unknownKeyHint : Bytes := ascii "Unknown key. Use UP/DOWN, ENTER, or q."

/-- A result of zeros. -/
def ResultHeader.zero : ResultHeader := .decode []

/-- `send_source(student_id, argv[i + 1], &results[i])`. -/
def submitFile (args : ClientArgs) (s : ClientSession) (i : ℕ) (a : Attempt) : ClientSession :=
  let r := a.run s.g_status (s.results.getD i .zero) args.student_id (args.files.getD i [])
  { s with g_status := r.g_status, results := s.results.set i r.out_res }

/-- The first `n` files have been submitted. -/
def submitBatch (args : ClientArgs) (batch : ℕ → Attempt) : ℕ → ClientSession
  | 0 =>
    { g_status := .initial, results := List.replicate MAX_FILES .zero, selected := 0
      key_hint := keysHint }
  | n + 1 => submitFile args (submitBatch args batch n) n (batch n)

/-- What `wgetch` returns; and for the enter key the modification time of the file before and after
the editor, and the call of `send_source` that is made if they differ. -/
structure KeyEvent where
  ch : ℤ
  st_before : ℤ
  st_after : ℤ
  attempt : Attempt

def KEY_UP : ℤ := 259

def KEY_DOWN : ℤ := 258

def KEY_ENTER : ℤ := 343

/-- A round of the loop, from `wgetch` on; the loop ends with `q`. -/
def tui_round (args : ClientArgs) (s : ClientSession) (e : KeyEvent) : Option ClientSession :=
  if e.ch = 113 ∨ e.ch = 81 then none
  else if e.ch = KEY_UP ∧ 0 < s.selected then
    some { s with selected := s.selected - 1, key_hint := keysHint }
  else if e.ch = KEY_DOWN ∧ s.selected < args.num_files - 1 then
    some { s with selected := s.selected + 1, key_hint := keysHint }
  else if e.ch = 10 ∨ e.ch = KEY_ENTER then
    let s := if e.st_before ≠ e.st_after then submitFile args s s.selected e.attempt else s
    some { s with key_hint := keysHint }
  else some { s with key_hint := unknownKeyHint }

/-- The screen before the keys are read. -/
def ClientSession.start (args : ClientArgs) (batch : ℕ → Attempt) : ClientSession :=
  submitBatch args batch args.num_files

/-- What the list says of a file. -/
def ClientSession.listed (s : ClientSession) (i : ℕ) : Bytes :=
  let r := (s.results.getD i .zero).result
  gnames.getD (if r < 5 then r else 4).toNat []

/-! ## What has been submitted -/

/-- The submissions of a session so far, each with the index of its file. -/
abbrev Submissions := List (ℕ × Attempt)

/-- Where a key moves the selection, of `n` files. -/
def moved (n selected : ℕ) (ch : ℤ) : ℕ :=
  if ch = KEY_UP then selected - 1
  else if ch = KEY_DOWN then min (selected + 1) (n - 1)
  else selected

/-- A file has been edited: the enter key was pressed, and the modification time has changed. -/
def KeyEvent.Edits (e : KeyEvent) : Prop :=
  (e.ch = 10 ∨ e.ch = KEY_ENTER) ∧ e.st_before ≠ e.st_after

instance (e : KeyEvent) : Decidable e.Edits := inferInstanceAs (Decidable (_ ∧ _))

/-- What is submitted on the keys: the file selected at that moment, each time it is edited. -/
def edits (n : ℕ) : ℕ → List KeyEvent → Submissions
  | _, [] => []
  | selected, e :: es =>
    (if e.Edits then [(selected, e.attempt)] else []) ++ edits n (moved n selected e.ch) es

/-- Every file once, and then those that have been edited. -/
def submissions (args : ClientArgs) (batch : ℕ → Attempt) (keys : List KeyEvent) : Submissions :=
  ((List.range args.num_files).map fun i => (i, batch i)) ++ edits args.num_files 0 keys

/-- The reply that a submission has got, if it came to that. -/
def replyTo (args : ClientArgs) (sub : ℕ × Attempt) : Option Bytes :=
  sub.2.received args.student_id (args.files.getD sub.1 [])

/-- The last reply to a file. -/
def lastReply (args : ClientArgs) (subs : Submissions) (i : ℕ) : Option Bytes :=
  ((subs.filter fun sub => sub.1 = i).filterMap (replyTo args)).getLast?

/-- The last reply that is complete. -/
def lastComplete (args : ClientArgs) (subs : Submissions) : Option ResultHeader :=
  (subs.filterMap fun sub => (replyTo args sub).bind completeReply).getLast?

/-- The session shows the replies to what has been submitted, and a file is selected. -/
structure ShowsReplies (args : ClientArgs) (s : ClientSession) (subs : Submissions) : Prop where
  selected : s.selected < args.num_files
  length_results : s.results.length = MAX_FILES
  results : ∀ i, s.results.getD i .zero = ((lastReply args subs i).map resultOfBytes).getD .zero
  g_status : s.g_status = ((lastComplete args subs).map on_result_received).getD .initial

section Session

variable {args : ClientArgs} {batch : ℕ → Attempt} {s t : ClientSession} {subs : Submissions}
  {e : KeyEvent} {keys : List KeyEvent} {i n : ℕ}

theorem getD_set_self {α : Type*} {l : List α} (h : i < l.length) (x d : α) :
    (l.set i x).getD i d = x := by
  rw [List.getD_eq_getElem _ _ (by rwa [List.length_set]), List.getElem_set_self]

theorem getD_set_ne {α : Type*} {l : List α} {j : ℕ} (h : i ≠ j) (x d : α) :
    (l.set i x).getD j d = l.getD j d := by
  rw [List.getD_eq_getElem?_getD, List.getD_eq_getElem?_getD, List.getElem?_set_ne h]

theorem getLast?_filterMap_concat {α β : Type*} (f : α → Option β) (l : List α) (x : α) :
    ((l ++ [x]).filterMap f).getLast? = (f x).or (l.filterMap f).getLast? := by
  rw [List.filterMap_append]
  rcases h : f x with _ | y
  · rw [List.filterMap_cons_none h, List.filterMap_nil, List.append_nil, Option.none_or]
  · rw [List.filterMap_cons_some h, List.filterMap_nil, List.getLast?_concat, Option.some_or]

theorem lastReply_append_self (a : Attempt) :
    lastReply args (subs ++ [(i, a)]) i = (replyTo args (i, a)).or (lastReply args subs i) := by
  unfold lastReply
  rw [List.filter_append, List.filter_singleton, decide_eq_true rfl, cond_true,
    getLast?_filterMap_concat]

theorem lastReply_append_ne {j : ℕ} (h : i ≠ j) (a : Attempt) :
    lastReply args (subs ++ [(i, a)]) j = lastReply args subs j := by
  unfold lastReply
  rw [List.filter_append, List.filter_singleton, decide_eq_false h, cond_false, List.append_nil]

theorem lastComplete_append (a : Attempt) :
    lastComplete args (subs ++ [(i, a)]) =
      ((replyTo args (i, a)).bind completeReply).or (lastComplete args subs) :=
  getLast?_filterMap_concat (fun sub => (replyTo args sub).bind completeReply) subs (i, a)

theorem getD_or {α β : Type*} (x y : Option α) (f : α → β) (d : β) :
    ((x.or y).map f).getD d = (x.map f).getD ((y.map f).getD d) := by
  cases x <;> rfl

/-- **One submission**: its reply is the last to its file, and the other files keep theirs. -/
theorem ShowsReplies.submitFile (h : ShowsReplies args s subs) (hi : i < MAX_FILES) (a : Attempt) :
    ShowsReplies args (submitFile args s i a) (subs ++ [(i, a)]) := by
  constructor
  · exact h.selected
  · exact (List.length_set ..).trans h.length_results
  · intro j
    show (s.results.set i _).getD j .zero = _
    by_cases hj : i = j
    · subst hj
      rw [getD_set_self (h.length_results.symm ▸ hi), Attempt.run_out_res, h.results i,
        lastReply_append_self, getD_or]
      rfl
    · rw [getD_set_ne hj, lastReply_append_ne hj]
      exact h.results j
  · show (a.run s.g_status _ _ _).g_status = _
    rw [Attempt.run_g_status, h.g_status, lastComplete_append, getD_or]
    rfl

theorem showsReplies_zero : ShowsReplies args (submitBatch args batch 0) [] := by
  refine ⟨args.num_files_pos, List.length_replicate, ?_, rfl⟩
  intro i
  show (List.replicate MAX_FILES ResultHeader.zero).getD i .zero = .zero
  rw [List.getD_eq_getElem?_getD, List.getElem?_replicate]
  split <;> rfl

/-- Before the keys are read, each file has been submitted once. -/
theorem showsReplies_submitBatch (hn : n ≤ MAX_FILES) :
    ShowsReplies args (submitBatch args batch n) ((List.range n).map fun i => (i, batch i)) := by
  induction n with
  | zero => exact showsReplies_zero
  | succ n ih =>
    rw [List.range_succ, List.map_append]
    exact (ih (Nat.le_of_succ_le hn)).submitFile hn (batch n)

/-- **One key**: it moves the selection within the files, and submits the file that was edited. -/
theorem ShowsReplies.tui_round (h : ShowsReplies args s subs) (hs : tui_round args s e = some t) :
    t.selected = moved args.num_files s.selected e.ch ∧
      ShowsReplies args t (subs ++ if e.Edits then [(s.selected, e.attempt)] else []) := by
  have hpos := args.num_files_pos
  have hsel := h.selected
  have hle : args.num_files ≤ MAX_FILES := Nat.min_le_right _ _
  have hup : KEY_UP = 259 := rfl
  have hdown : KEY_DOWN = 258 := rfl
  have henter : KEY_ENTER = 343 := rfl
  -- the hint does not matter, nor does the selection as long as it is a file
  have keep : ∀ (selected : ℕ) (key_hint : Bytes), selected < args.num_files →
      ShowsReplies args { s with selected := selected, key_hint := key_hint } subs :=
    fun _ _ hlt => ⟨hlt, h.length_results, h.results, h.g_status⟩
  unfold MiniCi.tui_round at hs
  split_ifs at hs with hquit hkup hkdown hkenter hmtime
  · obtain rfl := Option.some.inj hs
    have hedit : ¬ e.Edits := fun hed => by
      have := hed.1
      omega
    rw [if_neg hedit, List.append_nil]
    exact ⟨(if_pos hkup.1).symm, keep _ _ (by omega)⟩
  · obtain rfl := Option.some.inj hs
    have hedit : ¬ e.Edits := fun hed => by
      have := hed.1
      omega
    have hne : ¬ e.ch = KEY_UP := by omega
    rw [if_neg hedit, List.append_nil, moved, if_neg hne, if_pos hkdown.1]
    have hlt : s.selected + 1 ≤ args.num_files - 1 := hkdown.2
    exact ⟨(Nat.min_eq_left hlt).symm, keep _ _ (by omega)⟩
  · obtain rfl := Option.some.inj hs
    have hneup : ¬ e.ch = KEY_UP := by omega
    have hnedown : ¬ e.ch = KEY_DOWN := by omega
    have hed : e.Edits := ⟨hkenter, hmtime⟩
    rw [if_pos hed, moved, if_neg hneup, if_neg hnedown]
    have hsub := h.submitFile (Nat.lt_of_lt_of_le hsel hle) e.attempt
    exact ⟨rfl, ⟨hsub.selected, hsub.length_results, hsub.results, hsub.g_status⟩⟩
  · obtain rfl := Option.some.inj hs
    have hneup : ¬ e.ch = KEY_UP := by omega
    have hnedown : ¬ e.ch = KEY_DOWN := by omega
    have hedit : ¬ e.Edits := fun hed => hmtime hed.2
    rw [if_neg hedit, List.append_nil, moved, if_neg hneup, if_neg hnedown]
    exact ⟨rfl, keep _ _ hsel⟩
  · obtain rfl := Option.some.inj hs
    have hedit : ¬ e.Edits := fun hed => hkenter hed.1
    rw [if_neg hedit, List.append_nil]
    refine ⟨?_, keep _ _ hsel⟩
    -- an arrow that has nowhere to go
    show s.selected = moved args.num_files s.selected e.ch
    unfold moved
    split_ifs <;> omega

/-- **All keys**: what is submitted on them comes behind what was submitted before. -/
theorem ShowsReplies.exec (h : ShowsReplies args s subs)
    (hrun : exec (MiniCi.tui_round args) s keys = some t) :
    ShowsReplies args t (subs ++ edits args.num_files s.selected keys) := by
  induction keys generalizing s subs with
  | nil =>
    obtain rfl := Option.some.inj hrun
    rwa [edits, List.append_nil]
  | cons e keys ih =>
    obtain ⟨s', hs, hrest⟩ := (exec_cons_eq_some _).mp hrun
    obtain ⟨hsel, hround⟩ := h.tui_round hs
    rw [edits, ← List.append_assoc, ← hsel]
    exact ih hround hrest

@[simp] theorem selected_submitBatch (n : ℕ) : (submitBatch args batch n).selected = 0 := by
  induction n with
  | zero => rfl
  | succ n ih => exact ih

/-- The grade is one byte of the reply, and zero if the reply is cut before it. -/
theorem result_resultOfBytes (got : Bytes) : (resultOfBytes got).result = got.getD 152 0 := by
  show (got.take sizeofResultHeader ++ List.replicate (sizeofResultHeader - got.length) 0).getD
    152 0 = got.getD 152 0
  have hsize : 152 < sizeofResultHeader := by decide
  rw [List.getD_eq_getElem?_getD, List.getD_eq_getElem?_getD]
  rcases Nat.lt_or_ge 152 got.length with hlt | hge
  · rw [List.getElem?_append_left (by rw [List.length_take]; omega), List.getElem?_take,
      if_pos hsize]
  · rw [List.getElem?_append_right (by rw [List.length_take]; omega),
      List.getElem?_eq_none hge, List.getElem?_replicate]
    split <;> rfl

theorem gnames_eq_accepted (r : UInt8) :
    gnames.getD (if r < 5 then r else 4).toNat [] = ascii "AC" ↔ r = 0 := by
  by_cases hr : r < 5
  · rw [if_pos hr, ← UInt8.toNat_inj]
    have hlt : r.toNat < 5 := UInt8.lt_iff_toNat_lt.mp hr
    have hall : ∀ k < 5, gnames.getD k [] = ascii "AC" ↔ k = 0 := by decide
    exact hall r.toNat hlt
  · rw [if_neg hr]
    refine iff_of_false (by decide) ?_
    rintro rfl
    exact hr (by decide)

/-- A file that has had no reply is listed as if it were accepted. -/
theorem ShowsReplies.listed_eq_iff (h : ShowsReplies args s subs) :
    s.listed i = ascii "AC" ↔ ∀ got ∈ lastReply args subs i, got.getD 152 0 = 0 := by
  unfold ClientSession.listed
  rw [gnames_eq_accepted, h.results i]
  rcases lastReply args subs i with _ | got
  · exact iff_of_true rfl fun _ h => nomatch h
  · rw [Option.map_some, Option.getD_some, result_resultOfBytes]
    exact ⟨fun h0 _ hgot => Option.some.inj hgot ▸ h0, fun h0 => h0 got rfl⟩

end Session

/-- A session does what it is for. -/
structure SessionShows (args : ClientArgs) (batch : ℕ → Attempt) (keys : List KeyEvent)
    (s : ClientSession) : Prop where
  replies : ShowsReplies args s (submissions args batch keys)
  listed_as_accepted_iff : ∀ i, s.listed i = ascii "AC" ↔
    ∀ got ∈ lastReply args (submissions args batch keys) i, got.getD 152 0 = 0

/-- **A session shows the last reply to each file**, and in the status bar the last complete one;
a file is listed as accepted if and only if its last reply says so, is cut before the grade, or has
never come. -/
theorem session_shows {args : ClientArgs} {batch : ℕ → Attempt} {keys : List KeyEvent}
    {s : ClientSession} (hrun : exec (tui_round args) (.start args batch) keys = some s) :
    SessionShows args batch keys s := by
  have hstart : ShowsReplies args (.start args batch)
      ((List.range args.num_files).map fun i => (i, batch i)) :=
    showsReplies_submitBatch (Nat.min_le_right _ _)
  have hzero : (ClientSession.start args batch).selected = 0 := selected_submitBatch _
  have hreplies := hstart.exec hrun
  rw [hzero] at hreplies
  exact ⟨hreplies, fun _ => hreplies.listed_eq_iff⟩

/-- The first file finds no server.  The second ends with a signal, is edited, and gets the first
hundred bytes of its second reply. -/
def twoFiles : ClientArgs :=
  { student_id := ascii "20240123", files := [ascii "a.c", ascii "b.c"]
    files_ne := List.cons_ne_nil _ _ }

def twoAttempts (connected : Bool) (cut : ℕ) : Attempt :=
  { env := ⟨true, true, true, fun _ => some 0, connected⟩, file := ascii "x"
    sock := ⟨[], fun _ => some 50⟩
    reply := ⟨({ ResultHeader.zero with result := 3 } : ResultHeader).encode.take cut, fun _ => 0⟩ }

theorem session_shows_two :
    ∃ s, exec (tui_round twoFiles) (.start twoFiles fun i => twoAttempts (i == 1) 329)
        [⟨KEY_DOWN, 0, 0, twoAttempts true 0⟩, ⟨10, 1, 2, twoAttempts true 100⟩] = some s ∧
      SessionShows twoFiles (fun i => twoAttempts (i == 1) 329)
        [⟨KEY_DOWN, 0, 0, twoAttempts true 0⟩, ⟨10, 1, 2, twoAttempts true 100⟩] s ∧
      s.listed 0 = ascii "AC" ∧ s.listed 1 = ascii "AC" ∧
      s.g_status.last_result.str = ascii "RE" :=
  ⟨_, rfl, session_shows rfl, by decide +kernel, by decide +kernel, by decide +kernel⟩

end MiniCi
