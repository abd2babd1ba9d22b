/-
# The work directories

`handle_client` makes a directory under `/tmp` for each submission, and `safe_rmdir` removes it
with all that the compiler and the program have left in it.  Workers do this side by side, and
others use `/tmp` as well.  `mkdtemp` may hand out a name again as soon as the directory is gone,
which may be before `nftw` has returned to the worker who removed it.

`safe_rmdir` stops at the first entry that it cannot remove.  That is a directory that it cannot
read, which `nftw` reports as `FTW_DNR` and `unlink` does not take; or what is in a directory that
it cannot search or write; or something whose path, which `nftw` hands over from the root on, is too
long for a system call.
-/
import MiniCi.CStr
import MiniCi.FileTree
import MiniCi.JobQueue
import MiniCi.Runs
import Mathlib.Logic.Function.Basic

namespace MiniCi

open CStr FileTree Runs

/-! ## `safe_rmdir` -/

def PATH_MAX : ℕ := 4096

/-- The path that `nftw` hands over. -/
def fullPath (work_dir : Bytes) (path : List Bytes) : Bytes :=
  work_dir ++ path.flatMap fun name => ascii "/" ++ name

/-- It is short enough, with its NUL. -/
def fits (work_dir : Bytes) (path : List Bytes) : Bool := (fullPath work_dir path).length < PATH_MAX

def unlink (work_dir : Bytes) (path : List Bytes) :
    Option (Node Bytes) → Option (Option (Node Bytes)) :=
  removeAt (fun t => fits work_dir path && t.notDir) path

def rmdir (work_dir : Bytes) (path : List Bytes) :
    Option (Node Bytes) → Option (Option (Node Bytes)) :=
  removeAt (fun t => fits work_dir path && t.emptyDir) path

/-- `safe_remove_cb`, for a path below the work directory. -/
def safe_remove_cb (work_dir : Bytes) (v : List Bytes × TypeFlag) (s : Option (Node Bytes)) :
    Option (Option (Node Bytes)) :=
  if v.2 = .FTW_DP ∨ v.2 = .FTW_D then rmdir work_dir v.1 s else unlink work_dir v.1 s

/-- `safe_rmdir`: what is left of what hung at the path.  Where a path has got too long for `nftw`
itself, the calls for what is below fail as well. -/
def safe_rmdir (work_dir : Bytes) (s : Option (Node Bytes)) : Option (Node Bytes) :=
  match s with
  | some t => (nftw (safe_remove_cb work_dir) (walk t) (some t)).2
  | none => none

/-- Which entries `safe_remove_cb` can remove. -/
def cbAccepts (work_dir : Bytes) (path : List Bytes) (typeflag : TypeFlag) (t : Node Bytes) :
    Bool :=
  fits work_dir path &&
    if typeflag = .FTW_DP ∨ typeflag = .FTW_D then t.emptyDir else t.notDir

theorem safe_remove_cb_eq (work_dir : Bytes) :
    safe_remove_cb work_dir = removing (cbAccepts work_dir) := by
  funext v s
  unfold safe_remove_cb removing cbAccepts rmdir unlink
  split_ifs <;> rfl

theorem removesCalled_cbAccepts (work_dir : Bytes) :
    RemovesCalled (fits work_dir) (cbAccepts work_dir) :=
  ⟨fun _ _ => rfl, fun _ _ => rfl, fun _ _ => rfl, fun _ _ => rfl⟩

theorem nftw_safe_remove_cb (work_dir : Bytes) {t : Node Bytes} (h : Wf t) :
    (removable (fits work_dir) t = true ∧
      nftw (safe_remove_cb work_dir) (walk t) (some t) = (true, none)) ∨
    (removable (fits work_dir) t = false ∧
      ∃ t', nftw (safe_remove_cb work_dir) (walk t) (some t) = (false, some t')) := by
  rw [safe_remove_cb_eq]
  exact outcome_of_wf h _ _ (removesCalled_cbAccepts work_dir)

/-- **`safe_rmdir` removes a tree iff it is removable**: every directory in it can be read, and one
that is not empty also searched and written, and every path is short enough.  Whatever it leaves is
where it was. -/
theorem safe_rmdir_removes_iff (work_dir : Bytes) (t : {t : Node Bytes // Wf t}) :
    (safe_rmdir work_dir (some t.1) = none ↔ removable (fits work_dir) t.1 = true) ∧
      ∀ path, kindAt path (safe_rmdir work_dir (some t.1)) = none ∨
        kindAt path (safe_rmdir work_dir (some t.1)) = kindAt path (some t.1) := by
  constructor
  · show (nftw (safe_remove_cb work_dir) (walk t.1) (some t.1)).2 = none ↔ _
    rcases nftw_safe_remove_cb work_dir t.2 with ⟨hremoved, hrun⟩ | ⟨hstays, t', hrun⟩
    · rw [hrun]
      exact iff_of_true rfl hremoved
    · rw [hrun]
      exact iff_of_false (Option.some_ne_none t') (by rw [hstays]; exact Bool.false_ne_true)
  · intro path
    unfold safe_rmdir
    rw [safe_remove_cb_eq]
    exact kindAt_nftw (walk t.1) (some t.1) path

/-! ## The workers -/

/-- Where a worker stands with its work directory.  `removing`: in `nftw`, with the calls still to
come. -/
inductive WorkspaceAt where
  | idle
  | working (work_dir : Bytes)
  | removing (work_dir : Bytes) (todo : List (List Bytes × TypeFlag))

/-- The directory that a worker has to itself. -/
def WorkspaceAt.dir : WorkspaceAt → Option Bytes
  | idle => none
  | working work_dir => some work_dir
  | removing _ [] => none
  | removing work_dir (_ :: _) => some work_dir

/-- What hangs at the names of `/tmp`, and the workers.  `others` is not in the source: what would
hang there if the server had never run. -/
structure TmpServer (n : ℕ) where
  tmp : Bytes → Option (Node Bytes)
  worker : Fin n → WorkspaceAt
  others : Bytes → Option (Node Bytes)

/-- A step of a worker: `mkdtemp`; what the worker, the compiler or the program leaves in the
directory; the call of `safe_rmdir`; one call of `safe_remove_cb`, or the return.  Or somebody
else uses `/tmp`. -/
inductive TmpAction (n : ℕ) where
  | mkdtemp (i : Fin n) (name : Bytes)
  | fill (i : Fin n) (t : {t : Node Bytes // Wf t})
  | cleanup (i : Fin n)
  | remove (i : Fin n)
  | outside (name : Bytes) (s : Option (Node Bytes))

variable {n : ℕ}

/-- The path of a directory in `/tmp`. -/
def tmpPath (name : Bytes) : Bytes := ascii "/tmp/" ++ name

/-- A worker goes on, with something at a name of `/tmp`. -/
def TmpServer.set (s : TmpServer n) (i : Fin n) (w : WorkspaceAt) (name : Bytes)
    (t : Option (Node Bytes)) : TmpServer n :=
  { s with tmp := Function.update s.tmp name t, worker := Function.update s.worker i w }

@[simp] theorem worker_set (s : TmpServer n) (i : Fin n) (w : WorkspaceAt) (name : Bytes)
    (t : Option (Node Bytes)) : (s.set i w name t).worker = Function.update s.worker i w := rfl

@[simp] theorem tmp_set (s : TmpServer n) (i : Fin n) (w : WorkspaceAt) (name : Bytes)
    (t : Option (Node Bytes)) : (s.set i w name t).tmp = Function.update s.tmp name t := rfl

/-- One step.  The directories of the workers have mode `0700`, so nobody else touches them. -/
def tmpStep (s : TmpServer n) : TmpAction n → Option (TmpServer n)
  | .mkdtemp i name =>
    match s.worker i, s.tmp name with
    | .idle, none => some (s.set i (.working name) name (some (.dir ⟨true, true, true⟩ [])))
    | _, _ => none
  | .fill i t =>
    match s.worker i with
    | .working work_dir => some (s.set i (.working work_dir) work_dir (some t.1))
    | _ => none
  | .cleanup i =>
    match s.worker i with
    | .working work_dir =>
      let todo := (s.tmp work_dir).elim [] walk
      some (s.set i (.removing work_dir todo) work_dir (s.tmp work_dir))
    | _ => none
  | .remove i =>
    match s.worker i with
    | .removing _ [] => some { s with worker := Function.update s.worker i .idle }
    | .removing work_dir (v :: todo) =>
      match safe_remove_cb (tmpPath work_dir) v (s.tmp work_dir) with
      | some t => some (s.set i (.removing work_dir todo) work_dir t)
      | none => some { s with worker := Function.update s.worker i .idle }
    | _ => none
  | .outside name t =>
    if ∃ i, (s.worker i).dir = some name then none
    else some { s with
      tmp := Function.update s.tmp name t, others := Function.update s.others name t }

/-- The server is started. -/
def TmpServer.start (n : ℕ) (tmp : Bytes → Option (Node Bytes)) : TmpServer n :=
  { tmp, worker := fun _ => .idle, others := tmp }

/-- `safe_rmdir` is called for a tree that it can remove. -/
def CleansRemovable (s : TmpServer n) : TmpAction n → Prop
  | .cleanup i =>
    match s.worker i with
    | .working work_dir => ∀ t ∈ s.tmp work_dir, removable (fits (tmpPath work_dir)) t = true
    | _ => True
  | _ => True

instance (s : TmpServer n) (a : TmpAction n) : Decidable (CleansRemovable s a) := by
  unfold CleansRemovable
  split
  · split <;> infer_instance
  · infer_instance

/-- Each worker has its own directory, and everything else in `/tmp` is as if the server had never
run. -/
structure LeavesNoTrace (s : TmpServer n) : Prop where
  distinct : ∀ i j d, (s.worker i).dir = some d → (s.worker j).dir = some d → i = j
  elsewhere : ∀ d, (∀ i, (s.worker i).dir ≠ some d) → s.tmp d = s.others d

/-! ## The invariant -/

/-- What hangs at the name of a worker's directory: something, and in `nftw` something that the
calls to come remove. -/
def WorkspaceAt.Owns (tmp : Bytes → Option (Node Bytes)) : WorkspaceAt → Prop
  | idle => True
  | working work_dir => ∃ t, tmp work_dir = some t ∧ Wf t
  | removing _ [] => True
  | removing work_dir (v :: todo) =>
    nftw (safe_remove_cb (tmpPath work_dir)) (v :: todo) (tmp work_dir) = (true, none)

/-- The invariant. -/
structure TmpInv (s : TmpServer n) : Prop extends LeavesNoTrace s where
  owns : ∀ i, (s.worker i).Owns s.tmp
  unknown : ∀ i d, (s.worker i).dir = some d → s.others d = none

theorem WorkspaceAt.Owns.isSome {w : WorkspaceAt} {tmp : Bytes → Option (Node Bytes)} {d : Bytes}
    (h : w.Owns tmp) (hd : w.dir = some d) : ∃ t, tmp d = some t := by
  cases w with
  | idle => cases hd
  | working work_dir =>
    obtain rfl := Option.some.inj hd
    obtain ⟨t, ht, -⟩ := h
    exact ⟨t, ht⟩
  | removing work_dir todo =>
    cases todo with
    | nil => cases hd
    | cons v todo =>
      obtain rfl := Option.some.inj hd
      cases htmp : tmp work_dir with
      | some t => exact ⟨t, rfl⟩
      | none =>
        rw [WorkspaceAt.Owns, htmp, nftw, safe_remove_cb_eq, removing_none] at h
        cases h

/-- What a worker has is looked up under its own name only. -/
theorem WorkspaceAt.Owns.congr {w : WorkspaceAt} {tmp tmp' : Bytes → Option (Node Bytes)}
    (h : w.Owns tmp) (heq : ∀ d, w.dir = some d → tmp' d = tmp d) : w.Owns tmp' := by
  cases w with
  | idle => trivial
  | working work_dir =>
    obtain ⟨t, ht, hwf⟩ := h
    exact ⟨t, (heq work_dir rfl).trans ht, hwf⟩
  | removing work_dir todo =>
    cases todo with
    | nil => trivial
    | cons v todo =>
      rw [WorkspaceAt.Owns, heq work_dir rfl]
      exact h

/-- A worker's step that concerns one name, which is its own or nobody's. -/
theorem TmpInv.set {s : TmpServer n} (h : TmpInv s) {i : Fin n} {w : WorkspaceAt} {name : Bytes}
    {t : Option (Node Bytes)} (hname : ∀ j, (s.worker j).dir = some name → j = i)
    (hold : ∀ d, (s.worker i).dir = some d → d = name)
    (hdir : w.dir = some name ∨ w.dir = none ∧ t = none)
    (howns : w.Owns (Function.update s.tmp name t)) (hothers : s.others name = none) :
    TmpInv (s.set i w name t) := by
  have hw : ∀ d, w.dir = some d → d = name := by
    intro d hd
    rcases hdir with hdir | ⟨hdir, -⟩
    · exact Option.some.inj (hd.symm.trans hdir)
    · rw [hdir] at hd
      cases hd
  have hworker : ∀ j, j ≠ i → (s.set i w name t).worker j = s.worker j := by
    intro j hj
    rw [worker_set, Function.update_of_ne hj]
  have hself : (s.set i w name t).worker i = w := by rw [worker_set, Function.update_self]
  have hne : ∀ j d, j ≠ i → (s.worker j).dir = some d → d ≠ name :=
    fun j d hj hd heq => hj (hname j (heq ▸ hd))
  refine ⟨⟨?_, ?_⟩, ?_, ?_⟩
  · intro j k d hj hk
    by_cases hji : j = i <;> by_cases hki : k = i
    · rw [hji, hki]
    · rw [hji, hself] at hj
      rw [hworker k hki] at hk
      exact absurd (hw d hj) (hne k d hki hk)
    · rw [hki, hself] at hk
      rw [hworker j hji] at hj
      exact absurd (hw d hk) (hne j d hji hj)
    · rw [hworker j hji] at hj
      rw [hworker k hki] at hk
      exact h.distinct j k d hj hk
  · intro d hd
    by_cases heq : d = name
    · subst heq
      have hnone := hd i
      rw [hself] at hnone
      rcases hdir with hdir | ⟨-, rfl⟩
      · exact absurd hdir hnone
      · rw [tmp_set, Function.update_self]
        exact hothers.symm
    · rw [tmp_set, Function.update_of_ne heq]
      refine h.elsewhere d fun j hj => ?_
      by_cases hji : j = i
      · subst hji
        exact heq (hold d hj)
      · have hj' := hd j
        rw [hworker j hji] at hj'
        exact hj' hj
  · intro j
    by_cases hji : j = i
    · rw [hji, hself]
      exact howns
    · rw [hworker j hji]
      refine (h.owns j).congr fun d hd => ?_
      rw [tmp_set, Function.update_of_ne (hne j d hji hd)]
  · intro j d hj
    by_cases hji : j = i
    · rw [hji, hself] at hj
      rw [hw d hj]
      exact hothers
    · rw [hworker j hji] at hj
      exact h.unknown j d hj

/-- A worker that is through. -/
theorem TmpInv.release {s : TmpServer n} (h : TmpInv s) {i : Fin n}
    (hdir : (s.worker i).dir = none) :
    TmpInv { s with worker := Function.update s.worker i .idle } := by
  have hsame : ∀ j, (Function.update s.worker i .idle j).dir = (s.worker j).dir := by
    intro j
    by_cases hj : j = i
    · rw [hj, Function.update_self, hdir]
      rfl
    · rw [Function.update_of_ne hj]
  refine ⟨⟨fun j k d hj hk => ?_, fun d hd => ?_⟩, fun j => ?_, fun j d hj => ?_⟩
  · exact h.distinct j k d ((hsame j).symm.trans hj) ((hsame k).symm.trans hk)
  · exact h.elsewhere d fun j hj => hd j ((hsame j).trans hj)
  · by_cases hj : j = i
    · show (Function.update s.worker i .idle j).Owns s.tmp
      rw [hj, Function.update_self]
      trivial
    · show (Function.update s.worker i .idle j).Owns s.tmp
      rw [Function.update_of_ne hj]
      exact h.owns j
  · exact h.unknown j d ((hsame j).symm.trans hj)

theorem walk_ne_nil (t : Node Bytes) : walk t ≠ [] := by
  cases t with
  | file => rw [walk]; exact List.cons_ne_nil _ _
  | symlink target => rw [walk]; exact List.cons_ne_nil _ _
  | dir a es =>
    rw [walk]
    split_ifs
    · exact List.append_ne_nil_of_right_ne_nil _ (List.cons_ne_nil _ _)
    · exact List.cons_ne_nil _ _

/-- `mkdtemp` finds a name that is nobody's. -/
theorem TmpInv.unowned {s : TmpServer n} (h : TmpInv s) {name : Bytes} (hfree : s.tmp name = none)
    (j : Fin n) : (s.worker j).dir ≠ some name := by
  intro hj
  obtain ⟨t, ht⟩ := (h.owns j).isSome hj
  rw [hfree] at ht
  cases ht

theorem tmpInv_remove {s s' : TmpServer n} (h : TmpInv s) {i : Fin n}
    (hstep : tmpStep s (.remove i) = some s') : TmpInv s' := by
  have howns := h.owns i
  have hunknown := h.unknown i
  have hname : ∀ d, (s.worker i).dir = some d → ∀ j, (s.worker j).dir = some d → j = i :=
    fun d hi j hj => h.distinct j i d hj hi
  unfold tmpStep at hstep
  cases hw : s.worker i with
  | idle => simp [hw] at hstep
  | working work_dir => simp [hw] at hstep
  | removing work_dir todo =>
    rw [hw] at howns hunknown hname
    cases todo with
    | nil =>
      simp only [hw, Option.some.injEq] at hstep
      subst hstep
      exact h.release (by rw [hw]; rfl)
    | cons v todo =>
      rw [WorkspaceAt.Owns, nftw] at howns
      cases hcall : safe_remove_cb (tmpPath work_dir) v (s.tmp work_dir) with
      | none =>
        rw [hcall] at howns
        cases howns
      | some t =>
        rw [hcall] at howns
        simp only [hw, hcall, Option.some.injEq] at hstep
        subst hstep
        refine h.set (hname work_dir rfl) ?_ ?_ ?_ (hunknown work_dir rfl)
        · rw [hw]
          exact fun d hd => (Option.some.inj hd).symm
        · cases todo with
          | nil => exact Or.inr ⟨rfl, (Prod.mk.inj howns).2⟩
          | cons w todo => exact Or.inl rfl
        · cases todo with
          | nil => trivial
          | cons w todo =>
            rw [WorkspaceAt.Owns, Function.update_self]
            exact howns

/-- **Every step keeps the invariant.** -/
theorem tmpInv_step (s : TmpServer n) (a : TmpAction n) (s' : TmpServer n) (h : TmpInv s)
    (hclean : CleansRemovable s a) (hstep : tmpStep s a = some s') : TmpInv s' := by
  cases a with
  | mkdtemp i name =>
    unfold tmpStep at hstep
    cases hw : s.worker i <;> cases hfree : s.tmp name <;> simp only [hw, hfree] at hstep <;>
      cases hstep
    have hnobody := h.unowned hfree
    refine h.set (fun j hj => absurd hj (hnobody j)) ?_ (Or.inl rfl) ?_ ?_
    · rw [hw]
      exact fun d hd => nomatch hd
    · exact ⟨_, Function.update_self _ _ _, .dir _ [] List.nodup_nil fun e he => nomatch he⟩
    · exact (h.elsewhere name hnobody).symm.trans hfree
  | fill i t =>
    unfold tmpStep at hstep
    cases hw : s.worker i <;> simp only [hw] at hstep <;> cases hstep
    refine h.set (fun j hj => h.distinct j i _ hj (by rw [hw]; rfl)) ?_ (Or.inl rfl) ?_
      (h.unknown i _ (by rw [hw]; rfl))
    · rw [hw]
      exact fun d hd => (Option.some.inj hd).symm
    · exact ⟨t.1, Function.update_self _ _ _, t.2⟩
  | cleanup i =>
    have howns := h.owns i
    unfold tmpStep at hstep
    cases hw : s.worker i with
    | idle => simp [hw] at hstep
    | removing work_dir todo => simp [hw] at hstep
    | working work_dir =>
      rw [hw] at howns
      obtain ⟨t, ht, hwf⟩ := howns
      have hremovable : removable (fits (tmpPath work_dir)) t = true := by
        rw [CleansRemovable, hw] at hclean
        exact hclean t ht
      simp only [hw, ht, Option.elim_some, Option.some.injEq] at hstep
      subst hstep
      obtain ⟨v, vs, hvs⟩ := List.exists_cons_of_ne_nil (walk_ne_nil t)
      refine h.set (fun j hj => h.distinct j i _ hj (by rw [hw]; rfl)) ?_ ?_ ?_
        (h.unknown i _ (by rw [hw]; rfl))
      · rw [hw]
        exact fun d hd => (Option.some.inj hd).symm
      · rw [hvs]
        exact Or.inl rfl
      · rw [hvs, WorkspaceAt.Owns, Function.update_self, ← hvs]
        rcases nftw_safe_remove_cb (tmpPath work_dir) hwf with ⟨-, hrun⟩ | ⟨hnot, -⟩
        · exact hrun
        · rw [hremovable] at hnot
          cases hnot
  | remove i => exact tmpInv_remove h hstep
  | outside name t =>
    unfold tmpStep at hstep
    simp only at hstep
    split_ifs at hstep with hnobody
    obtain rfl := Option.some.inj hstep
    have hne : ∀ i d, (s.worker i).dir = some d → d ≠ name :=
      fun i d hd heq => hnobody ⟨i, heq ▸ hd⟩
    refine ⟨⟨h.distinct, fun d hd => ?_⟩, fun j => ?_, fun j d hj => ?_⟩
    · show Function.update s.tmp name t d = Function.update s.others name t d
      by_cases heq : d = name
      · rw [heq, Function.update_self, Function.update_self]
      · rw [Function.update_of_ne heq, Function.update_of_ne heq]
        exact h.elsewhere d hd
    · exact (h.owns j).congr fun d hd => Function.update_of_ne (hne j d hd) t s.tmp
    · show Function.update s.others name t d = none
      rw [Function.update_of_ne (hne j d hj)]
      exact h.unknown j d hj

theorem tmpInv_start (tmp : Bytes → Option (Node Bytes)) : TmpInv (TmpServer.start n tmp) :=
  ⟨⟨fun _ _ _ h _ => (nomatch h), fun _ _ => rfl⟩, fun _ => trivial, fun _ _ h => (nomatch h)⟩

/-- **The workers leave no trace in `/tmp`.**  Over any interleaving of workers that make, fill and
remove their directories, call by call, with whatever others do in `/tmp`, as long as each tree is
removable when it is to be removed: no two workers share a directory, and all but the directories in
use is as if the server had never run. -/
theorem leaves_no_trace (n : ℕ) (tmp : Bytes → Option (Node Bytes)) (as : List (TmpAction n))
    (hclean : Along tmpStep CleansRemovable (.start n tmp) as) :
    Always tmpStep LeavesNoTrace (.start n tmp) as :=
  (always_of_invariant (tmpInv_start tmp) tmpInv_step hclean).imp fun _ h => h.toLeavesNoTrace

/-- A submission that leaves its source, the program, an output and a link. -/
def someWorkspace : {t : Node Bytes // Wf t} :=
  ⟨.dir ⟨true, true, true⟩ [(ascii "source.c", .file), (ascii "test.out", .file),
      (ascii "output.txt", .file), (ascii "link", .symlink [ascii "etc", ascii "passwd"])],
    .dir _ _ (by decide) (by
      simp only [List.forall_mem_cons]
      exact ⟨.file, .file, .file, .symlink _, fun e he => nomatch he⟩)⟩

/-- Two workers grade a submission each, at the same time; the second finds nothing to remove but
the directory. -/
def twoWorkspaces : List (TmpAction NUM_THREADS) :=
  [.mkdtemp 0 (ascii "ci_workspace_a1b2c3"), .mkdtemp 1 (ascii "ci_workspace_d4e5f6"),
    .fill 0 someWorkspace, .cleanup 0, .cleanup 1, .remove 0, .remove 0, .remove 1, .remove 1,
    .remove 0, .remove 0, .remove 0, .remove 0]

theorem leaves_no_trace_two :
    Along tmpStep CleansRemovable (.start NUM_THREADS fun _ => none) twoWorkspaces ∧
      (exec tmpStep (.start NUM_THREADS fun _ => none) twoWorkspaces).isSome = true ∧
      Always tmpStep LeavesNoTrace (.start NUM_THREADS fun _ => none) twoWorkspaces := by
  have hclean : Along tmpStep CleansRemovable (.start NUM_THREADS fun _ => none) twoWorkspaces := by
    decide +kernel
  exact ⟨hclean, by decide +kernel, leaves_no_trace NUM_THREADS _ _ hclean⟩

end MiniCi
