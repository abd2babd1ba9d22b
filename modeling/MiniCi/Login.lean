/-
# Logging in (`client/client.c`, `prompt_student_id`)

The client asks for a student id until `fgets` brings one: 7 to 15 digits, up to the first carriage
return, newline or NUL of the buffer.  The buffer has 64 bytes, so a longer line comes in pieces of
63, each of which is taken for a line of its own; and at the end of the file the loop goes on.

`prompt_student_id_iff` says what the login ends with.  Hence when it is what a user would expect
(`login_whole_iff`).
-/
import MiniCi.SubmitClient
import MiniCi.Tracker
import MiniCi.Lines

namespace MiniCi

open CStr Lines

/-! ## The loop -/

/-- The standard streams of the client: what there is to read, and what has been printed. -/
structure Console where
  stdin : Bytes
  stdout : Bytes
  stderr : Bytes
  deriving DecidableEq

/-- `sizeof(buf)`. -/
def sizeofLoginBuf : ℕ := 64

/-- What the client asks with. -/
def loginPrompt : Bytes :=
  ascii "\n+----------------------------------+\n" ++
    ascii "|   Mini CI -- Student Login       |\n" ++
    ascii "+----------------------------------+\n" ++
    ascii "  Student ID (e.g. 20240123): "

/-- `buf`, of which `fgets` has filled `got`, with the line end cut off. -/
def loginBuf (got : Bytes) : Bytes :=
  let buf := (Buf.ofBytes sizeofLoginBuf got).bytes
  buf.set (strcspn buf (ascii "\r\n")) 0

/-- A round of `prompt_student_id`: `out_id` if the loop ends with it. -/
def prompt_round (max_len : ℕ) (c : Console) : Option (Buf (max_len - 1 + 1)) × Console :=
  let c := { c with stdout := c.stdout ++ loginPrompt }
  match fgets 10 sizeofLoginBuf c.stdin with
  -- `continue`, also at the end of the file
  | none => (none, c)
  | some (got, rest) =>
    let c := { c with stdin := rest }
    let buf := loginBuf got
    let slen := (str buf).length
    if slen < 7 ∨ max_len ≤ slen then
      (none, { c with stderr := c.stderr ++
        (ascii "  Error: ID must be 7~" ++ decimal (max_len - 1) ++ ascii " digits.\n") })
    else if (str buf).all (fun d => IsDigit d) = false then
      (none, { c with stderr := c.stderr ++ ascii "  Error: digits only.\n" })
    else
      let out_id := Buf.ofStr (max_len - 1) buf
      (some out_id, { c with stdout := c.stdout ++
        (ascii "  [OK] ID [" ++ out_id.str ++ ascii "] registered.\n\n") })

/-- `prompt_student_id`, with `fuel` rounds at most. -/
def prompt_student_id (max_len : ℕ) : ℕ → Console → Option (Buf (max_len - 1 + 1) × Console)
  | 0, _ => none
  | fuel + 1, c =>
    match prompt_round max_len c with
    | (some out_id, c) => some (out_id, c)
    | (none, c) => prompt_student_id max_len fuel c

/-- The client has just been started. -/
def Console.initial (stdin : Bytes) : Console := { stdin := stdin, stdout := [], stderr := [] }

/-! ## What a round looks at -/

/-- What the checks see of bytes: up to a NUL, a carriage return or a newline. -/
def seen (p : Bytes) : Bytes := (str p).takeWhile fun c => c ∉ ascii "\r\n"

/-- What passes the checks. -/
def IsStudentId (max_len : ℕ) (id : Bytes) : Prop :=
  7 ≤ id.length ∧ id.length < max_len ∧ ∀ d ∈ id, IsDigit d

instance (max_len : ℕ) (id : Bytes) : Decidable (IsStudentId max_len id) :=
  have : Decidable (∀ d ∈ id, IsDigit d) := List.decidableBAll IsDigit id
  inferInstanceAs (Decidable (_ ∧ _ ∧ _))

/-- A piece that the client takes for an id. -/
def Accepts (max_len : ℕ) (p : Bytes) : Prop := IsStudentId max_len (seen p)

instance (max_len : ℕ) (p : Bytes) : Decidable (Accepts max_len p) :=
  inferInstanceAs (Decidable (IsStudentId _ _))

section Round

variable {max_len fuel : ℕ} {c c' : Console} {got rest p t : Bytes}
  {out_id : Buf (max_len - 1 + 1)}

theorem str_take (p : Bytes) (n : ℕ) : str (p.take n) = (str p).take n :=
  List.take_takeWhile.symm

theorem seen_take (p : Bytes) (n : ℕ) : seen (p.take n) = (seen p).take n := by
  unfold seen
  rw [str_take, List.take_takeWhile]

/-- An id does not reach the end of the buffer. -/
theorem accepts_take {n : ℕ} (h : max_len ≤ n) :
    Accepts max_len (p.take n) ↔ Accepts max_len p := by
  unfold Accepts
  rw [seen_take]
  rcases Nat.le_total (seen p).length n with hle | hle
  · rw [List.take_of_length_le hle]
  · refine iff_of_false ?_ ?_
    · rintro ⟨-, hlt, -⟩
      rw [List.length_take] at hlt
      omega
    · rintro ⟨-, hlt, -⟩
      omega

theorem not_accepts_nil : ¬ Accepts max_len [] := by
  rintro ⟨hlen, -, -⟩
  simp [seen] at hlen

/-- `fgets` leaves room for the NUL. -/
theorem length_lt_of_fgets {s : Bytes} (h : fgets 10 sizeofLoginBuf s = some (got, rest)) :
    got.length < sizeofLoginBuf := by
  have hne : s ≠ [] := by
    rintro rfl
    cases h
  rw [fgets_of_ne_nil hne] at h
  obtain ⟨rfl, -⟩ := Prod.mk.inj (Option.some.inj h)
  rw [List.length_take, sizeofLoginBuf]
  omega

theorem str_loginBuf (h : got.length < sizeofLoginBuf) : str (loginBuf got) = seen got := by
  have hfill : str (Buf.ofBytes sizeofLoginBuf got).bytes = str got := by
    show str (got.take sizeofLoginBuf ++ List.replicate (sizeofLoginBuf - got.length) 0) = _
    rw [List.take_of_length_le (Nat.le_of_lt h)]
    obtain ⟨k, hk⟩ := Nat.exists_eq_succ_of_ne_zero (Nat.sub_ne_zero_of_lt h)
    rw [hk, List.replicate_succ]
    by_cases hterm : Terminated got
    · exact str_append_of_terminated hterm _
    · rw [str_append_zero hterm, str_eq_self hterm]
  show str ((Buf.ofBytes sizeofLoginBuf got).bytes.set _ 0) = seen got
  rw [str_set_strcspn, hfill]
  rfl

theorem prompt_round_of_none (h : fgets 10 sizeofLoginBuf c.stdin = none) :
    prompt_round max_len c = (none, { c with stdout := c.stdout ++ loginPrompt }) := by
  simp only [prompt_round, h]

theorem prompt_round_of_refused (h : fgets 10 sizeofLoginBuf c.stdin = some (got, rest))
    (hid : ¬ Accepts max_len got) :
    ∃ c', prompt_round max_len c = (none, c') ∧ c'.stdin = rest := by
  have hstr := str_loginBuf (length_lt_of_fgets h)
  simp only [prompt_round, h, hstr]
  split_ifs with hlen hdigits
  · exact ⟨_, rfl, rfl⟩
  · exact ⟨_, rfl, rfl⟩
  · rw [not_or, Nat.not_lt, Nat.not_le] at hlen
    rw [Bool.not_eq_false, List.all_eq_true] at hdigits
    exact absurd ⟨hlen.1, hlen.2, fun d hd => of_decide_eq_true (hdigits d hd)⟩ hid

theorem prompt_round_of_accepts (h : fgets 10 sizeofLoginBuf c.stdin = some (got, rest))
    (hid : Accepts max_len got) :
    ∃ out_id c', prompt_round max_len c = (some out_id, c') ∧ c'.stdin = rest ∧
      out_id.str = seen got := by
  have hstr := str_loginBuf (length_lt_of_fgets h)
  obtain ⟨hmin, hmax, hdigits⟩ := hid
  have hlen : ¬ ((seen got).length < 7 ∨ max_len ≤ (seen got).length) := by omega
  have hall : ¬ (seen got).all (fun d => IsDigit d) = false := by
    rw [Bool.not_eq_false, List.all_eq_true]
    exact fun d hd => decide_eq_true (hdigits d hd)
  simp only [prompt_round, h, hstr, if_neg hlen, if_neg hall]
  refine ⟨_, _, rfl, rfl, ?_⟩
  rw [Buf.str_ofStr, hstr, List.take_of_length_le (by omega)]

/-! ## The login as a search for a piece -/

theorem first_of_prompt (h : prompt_student_id max_len fuel c = some (out_id, c')) :
    ∃ p, First 10 sizeofLoginBuf (Accepts max_len) c.stdin p c'.stdin ∧ out_id.str = seen p := by
  induction fuel generalizing c with
  | zero => cases h
  | succ fuel ih =>
    rw [prompt_student_id] at h
    rcases hread : fgets 10 sizeofLoginBuf c.stdin with _ | ⟨got, rest⟩
    · rw [prompt_round_of_none hread] at h
      exact ih (c := { c with stdout := c.stdout ++ loginPrompt }) h
    · by_cases hid : Accepts max_len got
      · obtain ⟨out, c₁, hround, hstdin, hstr⟩ := prompt_round_of_accepts hread hid
        rw [hround] at h
        obtain ⟨rfl, rfl⟩ := Prod.mk.inj (Option.some.inj h)
        exact ⟨got, hstdin ▸ .here hread hid, hstr⟩
      · obtain ⟨c₁, hround, hstdin⟩ := prompt_round_of_refused hread hid
        rw [hround] at h
        obtain ⟨p, hfirst, hstr⟩ := ih h
        exact ⟨p, .later hread hid (hstdin ▸ hfirst), hstr⟩

theorem prompt_of_first {s : Bytes} (h : First 10 sizeofLoginBuf (Accepts max_len) s p t)
    (hc : c.stdin = s) :
    ∃ fuel out_id c', prompt_student_id max_len fuel c = some (out_id, c') ∧ c'.stdin = t ∧
      out_id.str = seen p := by
  induction h generalizing c with
  | here hread hid =>
    obtain ⟨out, c₁, hround, hstdin, hstr⟩ := prompt_round_of_accepts (hc.symm ▸ hread) hid
    exact ⟨1, out, c₁, by rw [prompt_student_id, hround], hstdin, hstr⟩
  | later hread hid _ ih =>
    obtain ⟨c₁, hround, hstdin⟩ := prompt_round_of_refused (hc.symm ▸ hread) hid
    obtain ⟨fuel, out, c₂, hrun, hrest⟩ := ih hstdin
    exact ⟨fuel + 1, out, c₂, by rw [prompt_student_id, hround]; exact hrun, hrest⟩

/-- **What the login ends with**: the first piece of a line that passes the checks, wherever in
its line it starts. -/
theorem prompt_student_id_iff {id : Bytes} :
    (∃ fuel out_id c', prompt_student_id max_len fuel c = some (out_id, c') ∧
        out_id.str = id ∧ c'.stdin = t) ↔
      ∃ pre l post i,
        IsFirst 10 sizeofLoginBuf (Accepts max_len) c.stdin pre l post i ∧
          id = seen (piece 63 l i) ∧ t = l.drop ((i + 1) * 63) ++ post.flatten := by
  constructor
  · rintro ⟨fuel, out_id, c', hrun, rfl, rfl⟩
    obtain ⟨p, hfirst, hstr⟩ := first_of_prompt hrun
    obtain ⟨pre, l, post, i, hpiece, rfl, hrest⟩ := (first_iff (by decide)).mp hfirst
    exact ⟨pre, l, post, i, hpiece, hstr, hrest⟩
  · rintro ⟨pre, l, post, i, hpiece, rfl, rfl⟩
    obtain ⟨fuel, out, c', hrun, hstdin, hstr⟩ := prompt_of_first (hpiece.first (by decide)) rfl
    exact ⟨fuel, out, c', hrun, hstr, hstdin⟩

/-- **What has been registered is an id of a student**, as the records of the server take it. -/
theorem clientId_of_prompt {out_id : Buf MAX_STUDENT_ID}
    (h : prompt_student_id MAX_STUDENT_ID fuel c = some (out_id, c')) : ClientId out_id.bytes := by
  obtain ⟨p, hfirst, hstr⟩ := first_of_prompt h
  have hseen : str out_id.bytes = seen p := hstr
  obtain ⟨hmin, hmax, hdigits⟩ := hfirst.accepted
  rw [ClientId, hseen]
  exact ⟨hmin, Nat.le_of_lt_succ hmax, hdigits⟩

/-- Every submission of the session carries all of it. -/
theorem student_id_submitHeader {out_id : Buf MAX_STUDENT_ID}
    (h : prompt_student_id MAX_STUDENT_ID fuel c = some (out_id, c')) (filepath payload : Bytes) :
    (submitHeader out_id.bytes filepath payload).student_id.str = out_id.str := by
  show (Buf.ofStr (MAX_STUDENT_ID - 1) out_id.bytes).str = out_id.str
  rw [Buf.str_ofStr]
  exact List.take_of_length_le (clientId_of_prompt h).2.1

/-- At the end of the file the client asks for ever. -/
theorem prompt_student_id_eof (h : c.stdin = []) (fuel : ℕ) :
    prompt_student_id max_len fuel c = none := by
  rcases hrun : prompt_student_id max_len fuel c with _ | ⟨out, c'⟩
  · rfl
  · obtain ⟨p, hfirst, -⟩ := first_of_prompt hrun
    rw [h] at hfirst
    exact absurd hfirst not_first_nil

end Round

/-! ## When it takes a whole line -/

/-- A line up to its carriage return or newline. -/
def content (line : Bytes) : Bytes := line.takeWhile fun c => c ∉ ascii "\r\n"

/-- What a user expects of the login on a standard input that ends: it ends, and what it takes is
an id and all of the line in which it stops reading. -/
structure TakesWholeLine (stdin : Bytes) : Prop where
  ends : ∃ fuel, (prompt_student_id MAX_STUDENT_ID fuel (.initial stdin)).isSome
  digits : ∀ fuel out_id c,
    prompt_student_id MAX_STUDENT_ID fuel (.initial stdin) = some (out_id, c) →
      7 ≤ out_id.str.length ∧ out_id.str.length ≤ 15 ∧ ∀ d ∈ out_id.str, IsDigit d
  whole : ∀ fuel out_id c,
    prompt_student_id MAX_STUDENT_ID fuel (.initial stdin) = some (out_id, c) →
      ∃ pre line post left, lines 10 stdin = pre ++ line :: post ∧
        c.stdin = left ++ post.flatten ∧ left.length < line.length ∧ out_id.str = content line

/-- A line is an id, and before it there is no line with bytes that pass for one, neither at its
start nor a multiple of 63 bytes further on. -/
def WholeLineFirst (stdin : Bytes) : Prop :=
  ∃ pre line post, lines 10 stdin = pre ++ line :: post ∧
    IsStudentId MAX_STUDENT_ID (content line) ∧
      ∀ l ∈ pre, ∀ j, ¬ Accepts MAX_STUDENT_ID (l.drop (j * 63))

/-- A piece of at least so many bytes passes for an id iff the line does from there on. -/
theorem accepts_piece (l : Bytes) (j : ℕ) :
    Accepts MAX_STUDENT_ID (piece 63 l j) ↔ Accepts MAX_STUDENT_ID (l.drop (j * 63)) :=
  accepts_take (by decide)

theorem passedOver_iff (l : Bytes) : PassedOver (Accepts MAX_STUDENT_ID) (sizeofLoginBuf - 1) l ↔
    ∀ j, ¬ Accepts MAX_STUDENT_ID (l.drop (j * 63)) := by
  constructor
  · intro h j
    rcases Nat.lt_or_ge (j * 63) l.length with hlt | hge
    · exact fun hid => h j hlt ((accepts_piece l j).mpr hid)
    · rw [List.drop_of_length_le hge]
      exact not_accepts_nil
  · intro h j _ hid
    exact h j ((accepts_piece l j).mp hid)

/-- Digits up to the end of the line are seen as they are. -/
theorem seen_of_content {line : Bytes} (h : ∀ d ∈ content line, IsDigit d) :
    seen line = content line := by
  induction line with
  | nil => rfl
  | cons c line ih =>
    unfold seen content at *
    by_cases hend : c ∈ ascii "\r\n"
    · have hc : c ≠ 0 := by
        rintro rfl
        exact absurd hend (by decide)
      rw [str_cons, if_neg hc, List.takeWhile_cons_of_neg (by simpa using hend),
        List.takeWhile_cons_of_neg (by simpa using hend)]
    · rw [List.takeWhile_cons_of_pos (by simpa using hend), List.forall_mem_cons] at h
      have hc : c ≠ 0 := by
        rintro rfl
        exact absurd h.1 (by decide)
      rw [str_cons, if_neg hc, List.takeWhile_cons_of_pos (by simpa using hend),
        List.takeWhile_cons_of_pos (by simpa using hend), ih h.2]

/-- A line that is an id has the first acceptable piece if no line before it has one. -/
theorem isFirst_of_content {stdin line : Bytes} {pre post : List Bytes}
    (hlines : lines 10 stdin = pre ++ line :: post)
    (hid : IsStudentId MAX_STUDENT_ID (content line))
    (hpre : ∀ l ∈ pre, ∀ j, ¬ Accepts MAX_STUDENT_ID (l.drop (j * 63))) :
    IsFirst 10 sizeofLoginBuf (Accepts MAX_STUDENT_ID) stdin pre line post 0 := by
  obtain ⟨-, -, -, hne⟩ := of_lines_eq_cons (lines_flatten_of_append hlines)
  have hpos : 0 < line.length := List.length_pos_iff.mpr hne
  have haccepts : Accepts MAX_STUDENT_ID line := by
    unfold Accepts
    rwa [seen_of_content hid.2.2]
  exact
    { lines_eq := hlines
      before := fun l hl => (passedOver_iff l).mpr (hpre l hl)
      inside := by omega
      sooner := fun j hj => absurd hj (Nat.not_lt_zero j)
      ok := (accepts_piece line 0).mpr (by simpa using haccepts) }

/-- What is seen of its first piece is all of it. -/
theorem seen_piece_zero {line : Bytes} (hid : IsStudentId MAX_STUDENT_ID (content line)) :
    seen (piece 63 line 0) = content line := by
  have hshort : (content line).length ≤ 63 := Nat.le_of_lt (hid.2.1.trans (by decide))
  rw [piece, Nat.zero_mul, List.drop_zero, seen_take, seen_of_content hid.2.2]
  exact List.take_of_length_le hshort

/-- The line in which the login stops reading is the one with the first acceptable piece. -/
theorem line_of_isFirst {stdin line line' left : Bytes} {pre post pre' post' : List Bytes}
    {ok : Bytes → Prop} {i : ℕ} (hlines : lines 10 stdin = pre ++ line :: post)
    (hlt : left.length < line.length) (h : IsFirst 10 sizeofLoginBuf ok stdin pre' line' post' i)
    (hleft : left ++ post.flatten = line'.drop ((i + 1) * 63) ++ post'.flatten) :
    line = line' := by
  have hinside := h.inside
  have hlt' : (line'.drop ((i + 1) * 63)).length < line'.length := by
    rw [List.length_drop]
    omega
  have hlen := congrArg List.length hleft
  rw [List.length_append, List.length_append] at hlen
  apply line_unique (m := left.length + post.flatten.length) (hlines.symm.trans h.lines_eq)
  · omega
  · rw [List.flatten_cons, List.length_append]
    omega
  · omega
  · rw [List.flatten_cons, List.length_append]
    omega

/-- **The login takes a whole line iff the first bytes that pass for an id are one.** -/
theorem login_whole_iff (stdin : Bytes) : TakesWholeLine stdin ↔ WholeLineFirst stdin := by
  have h16 : MAX_STUDENT_ID = 16 := rfl
  constructor
  · rintro ⟨⟨fuel, hsome⟩, hdigits, hwhole⟩
    obtain ⟨⟨out_id, c⟩, hrun⟩ := Option.isSome_iff_exists.mp hsome
    obtain ⟨hmin, hmax, hall⟩ := hdigits fuel out_id c hrun
    obtain ⟨pre, line, post, left, hlines, hleft, hlt, hid⟩ := hwhole fuel out_id c hrun
    obtain ⟨pre', line', post', i, hfirst, -, hrest⟩ :=
      prompt_student_id_iff.mp ⟨fuel, out_id, c, hrun, rfl, rfl⟩
    have hline : line = line' := line_of_isFirst hlines hlt hfirst (hleft.symm.trans hrest)
    refine ⟨pre', line', post', hfirst.lines_eq, ?_, fun l hl => ?_⟩
    · rw [← hline, ← hid]
      exact ⟨hmin, by omega, hall⟩
    · exact (passedOver_iff l).mp (hfirst.before l hl)
  · rintro ⟨pre, line, post, hlines, hid, hpre⟩
    have hfirst := isFirst_of_content hlines hid hpre
    have hend : ∀ fuel out_id c,
        prompt_student_id MAX_STUDENT_ID fuel (.initial stdin) = some (out_id, c) →
          out_id.str = content line ∧ c.stdin = line.drop 63 ++ post.flatten := by
      intro fuel out_id c hrun
      obtain ⟨p, hp, hstr⟩ := first_of_prompt hrun
      obtain ⟨rfl, hrest⟩ := hp.unique (hfirst.first (by decide))
      exact ⟨by rw [hstr]; exact seen_piece_zero hid, by rw [hrest]; rfl⟩
    constructor
    · obtain ⟨fuel, out_id, c, hrun, -⟩ :=
        prompt_of_first (c := .initial stdin) (hfirst.first (by decide)) rfl
      exact ⟨fuel, by rw [hrun]; rfl⟩
    · intro fuel out_id c hrun
      rw [(hend fuel out_id c hrun).1]
      exact ⟨hid.1, Nat.le_of_lt_succ hid.2.1, hid.2.2⟩
    · intro fuel out_id c hrun
      obtain ⟨hstr, hrest⟩ := hend fuel out_id c hrun
      have hpos := hfirst.inside
      refine ⟨pre, line, post, line.drop 63, hlines, hrest, ?_, hstr⟩
      rw [List.length_drop]
      omega

/-- What `stress_test.sh` gives the client to read. -/
def stressInput : Bytes := ascii "n\n"

/-- A line with an id behind its first 63 bytes. -/
def longLine : Bytes := List.replicate 63 120 ++ ascii "20240123\n"

/-- The client that `stress_test.sh` waits for asks for ever, and of the long line the end is taken
for an id. -/
theorem stress_test_never_ends : ¬ TakesWholeLine stressInput ∧ ¬ TakesWholeLine longLine := by
  constructor
  · rintro ⟨⟨fuel, hsome⟩, -, -⟩
    obtain ⟨⟨out_id, c⟩, hrun⟩ := Option.isSome_iff_exists.mp hsome
    obtain ⟨p, hfirst, -⟩ := first_of_prompt hrun
    -- `n` is no id, and then there is nothing left to read
    have hread : fgets 10 sizeofLoginBuf stressInput = some (stressInput, []) := rfl
    have hrefused : ¬ Accepts MAX_STUDENT_ID stressInput := by decide
    have hpass : Reads 10 sizeofLoginBuf stressInput [stressInput] [] := .cons hread (.nil [])
    exact not_first_nil ((first_of_reads hpass (by simpa using hrefused)).mp hfirst)
  · rintro ⟨-, -, hwhole⟩
    have hlater : First 10 sizeofLoginBuf (Accepts MAX_STUDENT_ID) (ascii "20240123\n")
        (ascii "20240123\n") [] := .here rfl (by decide)
    have hlen : (seen (List.replicate 63 120)).length = 63 := rfl
    have hrefused : ¬ Accepts MAX_STUDENT_ID (List.replicate 63 120) := by
      rintro ⟨-, hlt, -⟩
      rw [hlen] at hlt
      exact absurd hlt (by decide)
    have hread : fgets 10 sizeofLoginBuf longLine =
        some (List.replicate 63 120, ascii "20240123\n") := rfl
    obtain ⟨fuel, out_id, c, hrun, -, hstr⟩ :=
      prompt_of_first (c := .initial longLine) (.later hread hrefused hlater) rfl
    obtain ⟨pre, line, post, left, hlines, -, -, hid⟩ := hwhole fuel out_id c hrun
    have hone : lines 10 longLine = [longLine] := rfl
    have hmem : line ∈ lines 10 longLine := by simp [hlines]
    rw [hone, List.mem_singleton] at hmem
    rw [hmem] at hid
    exact absurd (hstr.symm.trans hid) (by decide)

end MiniCi
