/-
# When a download is the whole assignment

`handle_file_pull` collects the first `MAX_DIST_FILES` files of the directory, and each of them
travels under the first `MAX_FILENAME - 1` bytes of its name (`cutFile`).  The client returns 0 for
whatever it is sent under safe names, and so a file more or a longer name is not noticed by anyone:
the download is whole if and only if there is neither (`pull_whole_iff`).

The client stops at a name with a backslash, and then it does not return 0.
-/
import MiniCi.PullRoundTrip
import MiniCi.PullFailure

namespace MiniCi

open CStr ByteStream

/-! ## Directories -/

/-- `NAME_MAX` of Linux. -/
def NAME_MAX : ℕ := 255

/-- A name that Linux allows in a directory. -/
structure LegalName (name : Bytes) : Prop where
  ne_nil : name ≠ []
  no_nul : 0 ∉ name
  no_slash : 47 ∉ name
  length_le : name.length ≤ NAME_MAX

instance (name : Bytes) : Decidable (LegalName name) :=
  decidable_of_iff (name ≠ [] ∧ 0 ∉ name ∧ 47 ∉ name ∧ name.length ≤ NAME_MAX)
    ⟨fun ⟨hne, hnul, hslash, hlen⟩ => ⟨hne, hnul, hslash, hlen⟩,
      fun h => ⟨h.ne_nil, h.no_nul, h.no_slash, h.length_le⟩⟩

/-- A directory of files of at most `MAX_FILE_SIZE_BYTES` bytes. -/
structure LegalDir (ents : List DirEnt) : Prop where
  legal : ∀ ent ∈ ents, LegalName ent.d_name
  distinct : (ents.map DirEnt.d_name).Nodup
  size : ∀ ent ∈ ents, ent.content.length ≤ MAX_FILE_SIZE_BYTES

/-- Every file of the week is in the directory of the client, under its own name. -/
def HasAll (ents : List DirEnt) (dir : Dir) : Prop :=
  ∀ file ∈ listed ents, ∃ f, dir (clientPath file) = some f ∧ f.content = file.content

/-- A file under the name it is sent with. -/
def cutFile (file : DirEnt) : DirEnt := { file with d_name := file.d_name.take (MAX_FILENAME - 1) }

section Directories

variable {ents : List DirEnt} {file : DirEnt}

theorem mem_listed (hmem : file ∈ listed ents) :
    file ∈ ents ∧ file.d_name.headD 0 ≠ 46 ∧ file.s_isreg = true := by
  obtain ⟨hents, hlisted⟩ := List.mem_filter.mp hmem
  exact ⟨hents, of_decide_eq_true hlisted⟩

theorem LegalDir.nodup_listed (h : LegalDir ents) : ((listed ents).map DirEnt.d_name).Nodup :=
  h.distinct.sublist (List.filter_sublist.map _)

/-- A file is collected as it is under the name it is sent with. -/
theorem collected_cutFile (h0 : 0 ∉ file.d_name) :
    (collected (cutFile file)).1 = (collected file).1 := by
  have hcut : 0 ∉ file.d_name.take (MAX_FILENAME - 1) := fun h => h0 (List.mem_of_mem_take h)
  apply Buf.ext_bytes
  show strncpy (file.d_name.take (MAX_FILENAME - 1)) (MAX_FILENAME - 1) ++ [0] =
    strncpy file.d_name (MAX_FILENAME - 1) ++ [0]
  have hpad : MAX_FILENAME - 1 - min (MAX_FILENAME - 1) file.d_name.length =
      MAX_FILENAME - 1 - file.d_name.length := by
    omega
  rw [strncpy_eq, strncpy_eq, str_eq_self hcut, str_eq_self h0, List.take_take, Nat.min_self,
    List.length_take, hpad]

/-- Of the names of the files only those with a backslash are not safe. -/
theorem is_safe_filename_iff {name : Bytes} (hname : LegalName name) (hdot : name.headD 0 ≠ 46) :
    is_safe_filename name = true ↔ 92 ∉ name := by
  have hstr : str name = name := str_eq_self hname.no_nul
  obtain ⟨c, rest, rfl⟩ := List.exists_cons_of_ne_nil hname.ne_nil
  have hc0 : c ≠ 0 := fun h => hname.no_nul (h ▸ List.mem_cons_self)
  have hc46 : c ≠ 46 := hdot
  have hparent : c :: rest ≠ ascii ".." := fun h => hc46 (List.cons.inj h).1
  have hparents : strncmp (c :: rest) (ascii "../") 3 ≠ 0 := by
    intro h
    rw [strncmp_eq_zero_iff, hstr] at h
    exact hc46 (List.cons.inj h).1
  have hslashes : ¬ ascii "/../" <:+: c :: rest := fun h =>
    hname.no_slash (h.subset (by decide))
  have hbackslashes : ascii "\\..\\" <:+: c :: rest → 92 ∈ c :: rest := fun h =>
    h.subset (by decide)
  unfold is_safe_filename
  rw [hstr, if_neg (show (c :: rest).headD 0 ≠ 0 from hc0), if_neg hname.no_slash]
  by_cases hback : 92 ∈ c :: rest
  · rw [if_pos hback]
    exact ⟨fun h => absurd h (by decide), fun h => absurd hback h⟩
  · rw [if_neg hback, if_neg hparent, if_neg hparents, if_neg hslashes,
      if_neg fun h => hback (hbackslashes h)]
    exact ⟨fun _ => hback, fun _ => rfl⟩

theorem LegalName.take {name : Bytes} (hname : LegalName name) :
    LegalName (name.take (MAX_FILENAME - 1)) := by
  obtain ⟨c, rest, rfl⟩ := List.exists_cons_of_ne_nil hname.ne_nil
  constructor
  · exact List.cons_ne_nil _ _
  · exact fun h => hname.no_nul (List.mem_of_mem_take h)
  · exact fun h => hname.no_slash (List.mem_of_mem_take h)
  · exact (List.length_take_le' _ _).trans hname.length_le

/-- The name a file is sent with is not safe. -/
def Refused (file : DirEnt) : Prop := 92 ∈ file.d_name.take (MAX_FILENAME - 1)

instance (file : DirEnt) : Decidable (Refused file) := inferInstanceAs (Decidable (_ ∈ _))

theorem is_safe_filename_cutFile (hname : LegalName file.d_name)
    (hdot : file.d_name.headD 0 ≠ 46) :
    is_safe_filename (cutFile file).d_name = true ↔ ¬ Refused file := by
  have hhead : (file.d_name.take (MAX_FILENAME - 1)).headD 0 = file.d_name.headD 0 := by
    obtain ⟨c, rest, heq⟩ := List.exists_cons_of_ne_nil hname.ne_nil
    rw [heq]
    rfl
  exact is_safe_filename_iff hname.take (hhead ▸ hdot)

/-- The file can be downloaded under the name it is sent with. -/
theorem servable_cutFile (hents : LegalDir ents) (hmem : file ∈ listed ents)
    (hsafe : ¬ Refused file) : Servable (cutFile file) := by
  obtain ⟨hent, hdot, -⟩ := mem_listed hmem
  have hname := hents.legal file hent
  constructor
  · exact hname.take.no_nul
  · exact List.length_take_le _ _
  · exact (is_safe_filename_cutFile hname hdot).mpr hsafe
  · exact hents.size file hent

end Directories

/-! ## The client -/

section Client

variable {env : PullEnv} {c : PullClient} {file : DirEnt} {files : List DirEnt} {total : UInt8}

/-- The client returns 1 at a file whose name is not safe. -/
theorem pullRun_refused (hname : LegalName file.d_name) (hdot : file.d_name.headD 0 ≠ 46)
    (hrefused : Refused file) {index : UInt8} {sock : Stream} {q : Bytes}
    (hsock : sock.rest = (metaHeader file (collected file).1.bytes index total).encode ++ q) :
    (pullRun env c sock).1 = 1 := by
  have hsent : (collected file).1.str.take (MAX_FILENAME - 1) = (cutFile file).d_name := by
    show (fileName file.d_name).str.take (MAX_FILENAME - 1) = file.d_name.take (MAX_FILENAME - 1)
    rw [str_fileName, str_eq_self hname.no_nul, List.take_take, Nat.min_self]
  have hunsafe : is_safe_filename (cutFile file).d_name = false := by
    rw [← Bool.not_eq_true, is_safe_filename_cutFile hname hdot]
    exact fun h => h hrefused
  have hparse : parsePacket sock.rest = none := by
    rw [hsock, parsePacket_meta, hsent, if_pos hunsafe]
  have hdone : ¬ DoneAt sock.rest := by
    rw [hsock, FileMetaHeader.encode, List.append_assoc]
    exact not_doneAt_encode rfl (show RES_FILE_META ≠ RES_FILE_DONE by decide) _
  have hstep := pullStep_of_parse_none env c hparse
  rw [if_neg hdone] at hstep
  rw [pullRun_of_finish hstep]

/-- Nothing but the files has changed, under the names they are sent with. -/
def OthersKept (files : List DirEnt) (dir dir' : Dir) : Prop :=
  ∀ path, (∀ file ∈ files, path ≠ clientPath (cutFile file)) → dir' path = dir path

/-- A file that can be downloaded is received under the name it is sent with. -/
theorem takes_cutFile (henv : env.NoFailure) (c : PullClient) (hfile : Servable (cutFile file))
    (h0 : 0 ∉ file.d_name) {chunks : List Bytes} (hchunks : ChunksOf file.content chunks)
    (index total : UInt8) :
    ∃ c', Takes env c (filePackets file (collected file).1.bytes index total chunks) c' ∧
      OthersKept [file] c.dir c'.dir := by
  obtain ⟨c', htakes, hdelivered⟩ := takes_file henv c hfile hchunks index total
  rw [collected_cutFile h0] at htakes
  refine ⟨c', htakes, ?_⟩
  intro path hother
  apply hdelivered.others
  intro file' hmem
  rw [List.mem_singleton.mp hmem]
  exact hother file (List.mem_singleton_self _)

/-- What the client makes of the packets of the files: it takes them all, or refuses one. -/
theorem takes_or_refuses {ents : List DirEnt} (henv : env.NoFailure) (hents : LegalDir ents)
    (hfiles : ∀ file ∈ files, file ∈ listed ents) {i : ℕ} {p : Bytes}
    (hp : PacketsOf total i (files.map collected) p) (c : PullClient) :
    ((∀ file ∈ files, ¬ Refused file) ∧ ∃ c', Takes env c p c' ∧ OthersKept files c.dir c'.dir) ∨
      ((∃ file ∈ files, Refused file) ∧
        ∀ sock q, sock.rest = p ++ q → (pullRun env c sock).1 = 1) := by
  -- induction on the files, with the client as the files before have left it
  induction files generalizing i p c with
  | nil =>
    cases hp
    refine .inl ⟨by simp, c, takes_nil, ?_⟩
    intro path _
    rfl
  | cons file files ih =>
    obtain ⟨hfile, hrest⟩ := List.forall_mem_cons.mp hfiles
    obtain ⟨hent, hdot, -⟩ := mem_listed hfile
    have hname := hents.legal file hent
    cases hp with
    | @cons _ _ _ chunks _ p' hchunks hp' =>
      by_cases hrefused : Refused file
      · refine .inr ⟨⟨file, List.mem_cons_self, hrefused⟩, ?_⟩
        intro sock q hsock
        rw [filePackets, List.append_assoc, List.append_assoc] at hsock
        exact pullRun_refused hname hdot hrefused hsock
      · obtain ⟨c₁, htakes₁, hkept₁⟩ := takes_cutFile henv c
          (servable_cutFile hents hfile hrefused) hname.no_nul hchunks (.ofNat (i + 1)) total
        rcases ih hrest hp' c₁ with ⟨hsafe, c₂, htakes₂, hkept₂⟩ | ⟨⟨file', hmem, hrefused'⟩, hrun⟩
        · refine .inl ⟨List.forall_mem_cons.mpr ⟨hrefused, hsafe⟩, c₂, htakes₁.append htakes₂, ?_⟩
          intro path hother
          obtain ⟨hne, hothers⟩ := List.forall_mem_cons.mp hother
          rw [hkept₂ path hothers]
          exact hkept₁ path (List.forall_mem_singleton.mpr hne)
        · refine .inr ⟨⟨file', List.mem_cons_of_mem _ hmem, hrefused'⟩, ?_⟩
          intro sock q hsock
          rw [List.append_assoc] at hsock
          obtain ⟨sock₁, hrest₁, heq⟩ := htakes₁ sock _ hsock
          rw [heq]
          exact hrun sock₁ q hrest₁

end Client

/-! ## The download -/

section Download

variable {hw : HwState} {opendir : Bytes → Option (List DirEnt)} {ents : List DirEnt}
  {senv : ℕ → FileEnv} {sends : ℕ → Option ℕ} {env : PullEnv}

/-- A client whose request goes through is in its receive loop. -/
theorem do_pull_mode_eq (henv : env.NoFailure) (dir : Dir) (sock : Stream) :
    do_pull_mode env dir sock = pullRun env (.initial dir) sock :=
  do_pull_mode_of_requests henv.requests dir sock

variable (hw opendir sends) in
/-- **What comes of a download for which no call fails**: the client returns 0 and has touched
nothing but the first files, or there is one among them that it refuses. -/
theorem do_pull_mode_of_legal (hopendir : opendir (distDir hw) = some ents)
    (hents : LegalDir ents) (hne : listed ents ≠ []) (hsenv : ∀ i, (senv i).NoFailure)
    (hsends : ∀ k, sends k ≠ none) (henv : env.NoFailure) (dir : Dir) (frag : ℕ → ℕ) :
    ((∀ file ∈ (listed ents).take MAX_DIST_FILES, ¬ Refused file) ∧
        ∃ c, do_pull_mode env dir
            ⟨(handle_file_pull hw opendir senv ⟨[], sends⟩).sent, frag⟩ = (0, c) ∧
          OthersKept ((listed ents).take MAX_DIST_FILES) dir c.dir) ∨
      ((∃ file ∈ (listed ents).take MAX_DIST_FILES, Refused file) ∧
        (do_pull_mode env dir
          ⟨(handle_file_pull hw opendir senv ⟨[], sends⟩).sent, frag⟩).1 = 1) := by
  have hcollect : collect_files ents 0 = ((listed ents).take MAX_DIST_FILES).map collected :=
    collect_files_take ents 0
  have hfiles : ∀ file ∈ (listed ents).take MAX_DIST_FILES, file ∈ listed ents :=
    fun file hmem => List.mem_of_mem_take hmem
  have hcollected : collect_files ents 0 ≠ [] := by
    rw [hcollect]
    intro hnil
    rcases List.take_eq_nil_iff.mp (List.map_eq_nil_iff.mp hnil) with hzero | hnil'
    · exact absurd hzero (by decide)
    · exact hne hnil'
  have hsize : ∀ f ∈ collect_files ents 0, f.2.content.length ≤ MAX_FILE_SIZE_BYTES := by
    rw [hcollect]
    exact List.forall_mem_map.mpr fun file hmem => hents.size file (mem_listed (hfiles file hmem)).1
  obtain ⟨p, hp, hsent⟩ :=
    handle_file_pull_sends hopendir hcollected hsize hsenv (show Sink.Open ⟨[], sends⟩ from hsends)
  rw [List.nil_append] at hsent
  rw [do_pull_mode_eq henv]
  rw [hcollect] at hp
  rcases takes_or_refuses henv hents hfiles hp (.initial dir) with
    ⟨hsafe, c, htakes, hkept⟩ | ⟨hrefused, hrun⟩
  · obtain ⟨sock, hrest, hrun⟩ := htakes ⟨_, frag⟩ _ hsent
    exact .inl ⟨hsafe, c, hrun.trans (pullRun_done hrest), hkept⟩
  · exact .inr ⟨hrefused, hrun ⟨_, frag⟩ _ hsent⟩

/-- A file that the client has after a download into an empty directory is one of the first, and
its name has not been cut. -/
theorem exists_cutFile_of_kept {files : List DirEnt} {dir : Dir} {file : DirEnt} {f : DirFile}
    (hkept : OthersKept files (fun _ => none) dir) (hfile : dir (clientPath file) = some f) :
    ∃ file' ∈ files, file.d_name = file'.d_name.take (MAX_FILENAME - 1) := by
  by_contra hnot
  have hnone : dir (clientPath file) = none := by
    apply hkept
    intro file' hmem heq
    exact hnot ⟨file', hmem, clientPath_injective heq⟩
  rw [hnone] at hfile
  cases hfile

/-- **If the first files leave an empty directory with all, there are no others**, and their names
are short. -/
theorem fits_of_hasAll (hents : LegalDir ents) {dir : Dir}
    (hkept : OthersKept ((listed ents).take MAX_DIST_FILES) (fun _ => none) dir)
    (hall : HasAll ents dir) :
    (listed ents).length ≤ MAX_DIST_FILES ∧
      ∀ file ∈ listed ents, file.d_name.length ≤ MAX_FILENAME - 1 := by
  have hcut : ∀ file ∈ listed ents, ∃ file' ∈ (listed ents).take MAX_DIST_FILES,
      file.d_name = file'.d_name.take (MAX_FILENAME - 1) := by
    intro file hmem
    obtain ⟨f, hf, -⟩ := hall file hmem
    exact exists_cutFile_of_kept hkept hf
  have hshort : ∀ file ∈ listed ents, file.d_name.length ≤ MAX_FILENAME - 1 := by
    intro file hmem
    obtain ⟨file', -, heq⟩ := hcut file hmem
    rw [heq]
    exact List.length_take_le _ _
  refine ⟨?_, hshort⟩
  -- the names are different, and all are names of the first files
  have hsubset : (listed ents).map DirEnt.d_name ⊆
      ((listed ents).take MAX_DIST_FILES).map DirEnt.d_name := by
    intro name hname
    obtain ⟨file, hmem, rfl⟩ := List.mem_map.mp hname
    obtain ⟨file', hmem', heq⟩ := hcut file hmem
    rw [heq, List.take_of_length_le (hshort file' (List.mem_of_mem_take hmem'))]
    exact List.mem_map_of_mem hmem'
  have hlen := (hents.nodup_listed.subperm hsubset).length_le
  rw [List.length_map, List.length_map] at hlen
  exact hlen.trans (List.length_take_le _ _)

/-- A directory of few files with short and safe names can be downloaded. -/
theorem distributable_of_fits (hents : LegalDir ents) (hne : listed ents ≠ [])
    (hmost : (listed ents).length ≤ MAX_DIST_FILES)
    (hshort : ∀ file ∈ listed ents, file.d_name.length ≤ MAX_FILENAME - 1)
    (hsafe : ∀ file ∈ listed ents, ¬ Refused file) : Distributable ents := by
  refine ⟨hne, hmost, hents.nodup_listed, ?_⟩
  intro file hmem
  have hself : cutFile file = file := by
    unfold cutFile
    rw [List.take_of_length_le (hshort file hmem)]
  rw [← hself]
  exact servable_cutFile hents hmem (hsafe file hmem)

/-- **When a download that returns 0 is the whole assignment.**  Whatever there is in the directory
of the client, a download for which no call fails leaves all files of the week there if it returns
0, and this holds exactly when one of the first `MAX_DIST_FILES` files is refused, or there are no
more files than that and no name is cut. -/
theorem pull_whole_iff (hopendir : opendir (distDir hw) = some ents) (hents : LegalDir ents)
    (hsenv : ∀ i, (senv i).NoFailure) (hsends : ∀ k, sends k ≠ none) (henv : env.NoFailure)
    (frag : ℕ → ℕ) :
    (∀ dir,
      (do_pull_mode env dir ⟨(handle_file_pull hw opendir senv ⟨[], sends⟩).sent, frag⟩).1 = 0 →
      HasAll ents (do_pull_mode env dir
        ⟨(handle_file_pull hw opendir senv ⟨[], sends⟩).sent, frag⟩).2.dir) ↔
    (∃ file ∈ (listed ents).take MAX_DIST_FILES, Refused file) ∨
      ((listed ents).length ≤ MAX_DIST_FILES ∧
        ∀ file ∈ listed ents, file.d_name.length ≤ MAX_FILENAME - 1) := by
  by_cases hne : listed ents = []
  · -- nothing is to be downloaded
    constructor
    · intro _
      right
      rw [hne]
      exact ⟨Nat.zero_le _, by simp⟩
    · intro _ dir _ file hmem
      rw [hne] at hmem
      cases hmem
  · constructor
    · intro hwhole
      rcases do_pull_mode_of_legal _ _ _ hopendir hents hne hsenv hsends henv (fun _ => none) frag
        with ⟨-, c, hrun, hkept⟩ | ⟨hrefused, -⟩
      · have hall := hwhole fun _ => none
        rw [hrun] at hall
        exact .inr (fits_of_hasAll hents hkept (hall rfl))
      · exact .inl hrefused
    · intro hfits dir hzero
      rcases do_pull_mode_of_legal _ _ _ hopendir hents hne hsenv hsends henv dir frag with
        ⟨hsafe, -⟩ | ⟨-, hone⟩
      · rcases hfits with ⟨file, hmem, hrefused⟩ | ⟨hmost, hshort⟩
        · exact absurd hrefused (hsafe file hmem)
        · rw [List.take_of_length_le hmost] at hsafe
          obtain ⟨c, hrun, hdelivered⟩ := pull_round_trip hw hopendir
            (distributable_of_fits hents hne hmost hshort hsafe) hsenv hsends henv dir frag
          rw [hrun]
          intro file hmem
          obtain ⟨f, hf, hcontent, -⟩ := hdelivered.present file hmem
          exact ⟨f, hf, hcontent⟩
      · rw [hone] at hzero
        exact absurd hzero (by decide)

end Download

/-- The server reads whole chunks. -/
def nothingFailsThere : ℕ → FileEnv := fun _ => ⟨true, true, true, fun _ => some FILE_CHUNK_SIZE⟩

theorem nothingFailsThere_noFailure (i : ℕ) : (nothingFailsThere i).NoFailure :=
  ⟨rfl, rfl, rfl, fun _ => Option.some_ne_none _⟩

theorem someEnts_legal : LegalDir someEnts := ⟨by decide, by decide, by decide⟩

/-- The two files of `someEnts` arrive, wherever the client is. -/
theorem pull_whole_iff_two :
    (listed someEnts).length = 2 ∧
      ∀ dir, (do_pull_mode nothingFails dir
          ⟨(handle_file_pull .initial (fun _ => some someEnts) nothingFailsThere
            ⟨[], fun _ => some 99⟩).sent, fun _ => 1000⟩).1 = 0 →
        HasAll someEnts (do_pull_mode nothingFails dir
          ⟨(handle_file_pull .initial (fun _ => some someEnts) nothingFailsThere
            ⟨[], fun _ => some 99⟩).sent, fun _ => 1000⟩).2.dir := by
  have hfits : (listed someEnts).length ≤ MAX_DIST_FILES ∧
      ∀ file ∈ listed someEnts, file.d_name.length ≤ MAX_FILENAME - 1 := by decide
  exact ⟨by decide, (pull_whole_iff rfl someEnts_legal nothingFailsThere_noFailure
    (fun _ => Option.some_ne_none _) nothingFails_noFailure _).mpr (.inr hfits)⟩

/-- A directory of 65 empty files `q00` to `q64`. -/
def manyEnts : List DirEnt :=
  (List.range 65).map fun n => ⟨[113, .ofNat (48 + n / 10), .ofNat (48 + n % 10)], true, false, []⟩

theorem manyEnts_legal : LegalDir manyEnts :=
  ⟨by decide +kernel, by decide +kernel, by decide +kernel⟩

/-- Of 65 files the last does not arrive, and the client returns 0. -/
theorem last_file_missing :
    LegalDir manyEnts ∧
      (do_pull_mode nothingFails (fun _ => none)
        ⟨(handle_file_pull .initial (fun _ => some manyEnts) nothingFailsThere
          ⟨[], fun _ => some 99⟩).sent, fun _ => 1000⟩).1 = 0 ∧
      ¬ HasAll manyEnts (do_pull_mode nothingFails (fun _ => none)
        ⟨(handle_file_pull .initial (fun _ => some manyEnts) nothingFailsThere
          ⟨[], fun _ => some 99⟩).sent, fun _ => 1000⟩).2.dir := by
  have hne : listed manyEnts ≠ [] := by decide +kernel
  have hmany : ¬ (listed manyEnts).length ≤ MAX_DIST_FILES := by decide +kernel
  have hsafe : ∀ file ∈ (listed manyEnts).take MAX_DIST_FILES, ¬ Refused file := by decide +kernel
  rcases do_pull_mode_of_legal .initial (fun _ => some manyEnts) (fun _ => some 99) rfl
      manyEnts_legal hne nothingFailsThere_noFailure (fun _ => Option.some_ne_none _)
      nothingFails_noFailure (fun _ => none) (fun _ => 1000) with
    ⟨-, c, hrun, hkept⟩ | ⟨⟨file, hmem, hrefused⟩, -⟩
  · rw [hrun]
    refine ⟨manyEnts_legal, rfl, ?_⟩
    intro hall
    exact hmany (fits_of_hasAll manyEnts_legal hkept hall).1
  · exact absurd hrefused (hsafe file hmem)

end MiniCi
