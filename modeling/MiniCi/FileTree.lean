/-
# Removing a tree of files

What hangs at a name of a file system: a file, a symbolic link or a directory, of which it is said
what may be done with it.  An entry can be removed if the directories on the way to it can be
searched and the one it is in can be written.  `walk` lists what `nftw` visits under
`FTW_DEPTH | FTW_PHYS`, from the bottom up and without following links, and `nftw` calls a function
for each until one call fails.

A function that removes what it is called for, as far as its path `fits`, removes the whole tree if
that is `removable`: every directory can be read, and one that is not empty also searched and
written, and every path fits.  Else it leaves some of it (`outcome_of_wf`).  Wherever it stops, what
is left is where it was (`kindAt_nftw`).
-/
import Mathlib.Data.List.Basic

namespace FileTree

/-! ## Trees -/

/-- What may be done with a directory: list it, change it, get at what is in it. -/
structure Access where
  read : Bool
  write : Bool
  search : Bool
  deriving DecidableEq

/-- What hangs at a name. -/
inductive Node (N : Type*) where
  | file
  | symlink (target : List N)
  | dir (access : Access) (entries : List (N × Node N))

/-- The kind of an entry. -/
inductive Kind (N : Type*) where
  | file
  | symlink (target : List N)
  | dir

section

variable {N : Type*} [DecidableEq N]

namespace Node

def kind : Node N → Kind N
  | file => .file
  | symlink target => .symlink target
  | dir _ _ => .dir

/-- What `unlink` removes. -/
def notDir : Node N → Bool
  | dir _ _ => false
  | _ => true

/-- What `rmdir` removes. -/
def emptyDir : Node N → Bool
  | dir _ [] => true
  | _ => false

end Node

/-- What hangs at a name of a directory. -/
def entry (n : N) : List (N × Node N) → Option (Node N)
  | [] => none
  | (m, t) :: es => if m = n then some t else entry n es

/-- The directory with something else, or nothing, at a name that it has. -/
def setEntry (n : N) (s : Option (Node N)) : List (N × Node N) → List (N × Node N)
  | [] => []
  | e :: es =>
    if e.1 = n then (s.map (Prod.mk n)).toList ++ setEntry n s es else e :: setEntry n s es

/-- Remove what hangs at a path if it is `ok` to; `none` is a failure.  The directories on the path
are searched, and the last one is written. -/
def removeAt (ok : Node N → Bool) : List N → Option (Node N) → Option (Option (Node N))
  | _, none => none
  | [], some t => if ok t then some none else none
  | n :: p, some (.dir a es) =>
    if a.search ∧ (p = [] → a.write) then
      (removeAt ok p (entry n es)).map fun s => some (.dir a (setEntry n s es))
    else none
  | _ :: _, some _ => none

/-- The kind of what hangs at a path. -/
def kindAt : List N → Option (Node N) → Option (Kind N)
  | _, none => none
  | [], some t => some t.kind
  | n :: p, some (.dir _ es) => kindAt p (entry n es)
  | _ :: _, some _ => none

/-- No directory has a name twice. -/
inductive Wf : Node N → Prop where
  | file : Wf .file
  | symlink (target : List N) : Wf (.symlink target)
  | dir (a : Access) (es : List (N × Node N)) (hnodup : (es.map Prod.fst).Nodup)
    (hall : ∀ e ∈ es, Wf e.2) : Wf (.dir a es)

mutual

/-- Every directory can be read, and searched and written unless it is empty; and every path
`fits`. -/
def removable (fits : List N → Bool) : Node N → Bool
  | .file => fits []
  | .symlink _ => fits []
  | .dir a es =>
    a.read && fits [] && (es.isEmpty || a.search && a.write) && removableEntries fits es

def removableEntries (fits : List N → Bool) : List (N × Node N) → Bool
  | [] => true
  | (n, t) :: es => removable (fun p => fits (n :: p)) t && removableEntries fits es

end

/-! ## `nftw` -/

/-- What `nftw` says of an entry.  Of a directory whose entries come first it is `FTW_DP`, of one
that cannot be read `FTW_DNR`, and of what is in one that cannot be searched `FTW_NS`. -/
inductive TypeFlag where
  | FTW_F
  | FTW_SL
  | FTW_D
  | FTW_DNR
  | FTW_DP
  | FTW_NS
  deriving DecidableEq

mutual

/-- What is visited, in order: a directory behind what is in it. -/
def walk : Node N → List (List N × TypeFlag)
  | .file => [([], .FTW_F)]
  | .symlink _ => [([], .FTW_SL)]
  | .dir a es =>
    if a.read then walkEntries a.search es ++ [([], .FTW_DP)] else [([], .FTW_DNR)]

def walkEntries (search : Bool) : List (N × Node N) → List (List N × TypeFlag)
  | [] => []
  | (n, t) :: es =>
    (if search then walk t else [([], .FTW_NS)]).map (fun v => (n :: v.1, v.2)) ++
      walkEntries search es

end

/-- The calls in order, until one fails. -/
def nftw {σ : Type*} (fn : List N × TypeFlag → σ → Option σ) :
    List (List N × TypeFlag) → σ → Bool × σ
  | [], s => (true, s)
  | v :: vs, s =>
    match fn v s with
    | some s' => nftw fn vs s'
    | none => (false, s)

/-- A function that removes what it is called for, if that is `ok`. -/
def removing (ok : List N → TypeFlag → Node N → Bool) (v : List N × TypeFlag)
    (s : Option (Node N)) : Option (Option (Node N)) :=
  removeAt (ok v.1 v.2) v.1 s

omit [DecidableEq N] in
theorem nftw_append {σ : Type*} (fn : List N × TypeFlag → σ → Option σ)
    (vs ws : List (List N × TypeFlag)) (s : σ) :
    nftw fn (vs ++ ws) s = if (nftw fn vs s).1 then nftw fn ws (nftw fn vs s).2
      else nftw fn vs s := by
  induction vs generalizing s with
  | nil => rfl
  | cons v vs ih =>
    rw [List.cons_append, nftw, nftw]
    cases fn v s with
    | none => rfl
    | some s' => exact ih s'

/-! ## Directories -/

section Entries

variable {n : N} {e : N × Node N} {es : List (N × Node N)}

theorem setEntry_cons_of_eq (he : e.1 = n) (s : Option (Node N)) :
    setEntry n s (e :: es) = (s.map (Prod.mk n)).toList ++ setEntry n s es := by
  rw [setEntry, if_pos he]

theorem setEntry_cons_of_ne (he : e.1 ≠ n) (s : Option (Node N)) :
    setEntry n s (e :: es) = e :: setEntry n s es := by
  rw [setEntry, if_neg he]

theorem setEntry_of_notMem (h : n ∉ es.map Prod.fst) (s : Option (Node N)) :
    setEntry n s es = es := by
  induction es with
  | nil => rfl
  | cons e es ih =>
    rw [List.map_cons, List.mem_cons, not_or] at h
    rw [setEntry_cons_of_ne (fun he => h.1 he.symm), ih h.2]

theorem entry_setEntry_self (h : entry n es ≠ none) (s : Option (Node N)) :
    entry n (setEntry n s es) = s := by
  have hnone : ∀ es : List (N × Node N), entry n (setEntry n none es) = none := by
    intro es
    induction es with
    | nil => rfl
    | cons e es ih =>
      by_cases he : e.1 = n
      · rw [setEntry_cons_of_eq he]
        exact ih
      · rw [setEntry_cons_of_ne he, entry, if_neg he, ih]
  induction es with
  | nil => exact absurd rfl h
  | cons e es ih =>
    by_cases he : e.1 = n
    · cases s with
      | none => exact hnone (e :: es)
      | some t =>
        rw [setEntry_cons_of_eq he]
        exact if_pos rfl
    · rw [entry, if_neg he] at h
      rw [setEntry_cons_of_ne he, entry, if_neg he, ih h]

theorem entry_setEntry_of_ne {m : N} (hmn : m ≠ n) (s : Option (Node N)) :
    entry m (setEntry n s es) = entry m es := by
  induction es with
  | nil => rfl
  | cons e es ih =>
    by_cases he : e.1 = n
    · have hem : ¬ e.1 = m := fun h => hmn (h.symm.trans he)
      rw [setEntry_cons_of_eq he, entry, if_neg hem]
      cases s with
      | none => exact ih
      | some t => exact (if_neg hmn.symm).trans ih
    · rw [setEntry_cons_of_ne he, entry, entry, ih]

/-- Setting a name twice is setting it once, unless it was taken away in between. -/
theorem setEntry_setEntry (s : Option (Node N)) (t : Node N) :
    setEntry n s (setEntry n (some t) es) = setEntry n s es := by
  induction es with
  | nil => rfl
  | cons e es ih =>
    by_cases he : e.1 = n
    · rw [setEntry_cons_of_eq he, setEntry_cons_of_eq he, Option.map_some, Option.toList_some,
        List.singleton_append, setEntry_cons_of_eq (e := (n, t)) rfl, ih]
    · rw [setEntry_cons_of_ne he, setEntry_cons_of_ne he, setEntry_cons_of_ne he, ih]

end Entries

/-! ## Removing -/

section Removing

variable {fits : List N → Bool} {ok : List N → TypeFlag → Node N → Bool} {a : Access}

/-- Nothing can be removed where there is nothing. -/
theorem removing_none (v : List N × TypeFlag) : removing ok v none = none := by
  rw [removing, removeAt]

/-- What is removed below a name: the entry itself only if its directory can be written. -/
def below (n : N) (write : Bool) (ok : List N → TypeFlag → Node N → Bool) (p : List N)
    (typeflag : TypeFlag) (t : Node N) : Bool :=
  (write || !p.isEmpty) && ok (n :: p) typeflag t

/-- A call for something below a name of a directory that can be searched. -/
theorem removing_under {n : N} {es : List (N × Node N)} (hsearch : a.search = true)
    (v : List N × TypeFlag) :
    removing ok (n :: v.1, v.2) (some (.dir a es)) =
      (removing (below n a.write ok) v (entry n es)).map
        fun s => some (.dir a (setEntry n s es)) := by
  obtain ⟨p, typeflag⟩ := v
  rw [removing, removing, removeAt]
  by_cases hlast : p = [] → a.write = true
  · have hwrite : (a.write || !p.isEmpty) = true := by
      cases p with
      | nil => rw [hlast rfl]; rfl
      | cons m p => exact Bool.or_true _
    have hsame : below n a.write ok p typeflag = ok (n :: p) typeflag := by
      funext t
      rw [below, hwrite, Bool.true_and]
    rw [if_pos ⟨hsearch, hlast⟩, hsame]
  · rw [if_neg fun h => hlast h.2]
    obtain ⟨rfl, hwrite⟩ := Classical.not_imp.mp hlast
    cases entry n es with
    | none => rw [removeAt]; rfl
    | some t =>
      have hno : ¬ below n a.write ok [] typeflag t = true := by
        rw [below, eq_false_of_ne_true hwrite]
        exact Bool.false_ne_true
      rw [removeAt, if_neg hno]
      rfl

/-- What is called for below a name of a directory happens there. -/
theorem nftw_under {n : N} {es : List (N × Node N)} (hsearch : a.search = true)
    (hn : entry n es ≠ none) (vs : List (List N × TypeFlag)) (s : Option (Node N)) :
    nftw (removing ok) (vs.map fun v => (n :: v.1, v.2)) (some (.dir a (setEntry n s es)))
      = ((nftw (removing (below n a.write ok)) vs s).1,
        some (.dir a (setEntry n (nftw (removing (below n a.write ok)) vs s).2 es))) := by
  induction vs generalizing s with
  | nil => rfl
  | cons v vs ih =>
    have hstep : removing ok (n :: v.1, v.2) (some (.dir a (setEntry n s es)))
        = (removing (below n a.write ok) v s).map
          fun s' => some (.dir a (setEntry n s' (setEntry n s es))) := by
      rw [removing_under hsearch, entry_setEntry_self hn]
    rw [List.map_cons, nftw, hstep, nftw]
    cases s with
    | none => rw [removing_none]; rfl
    | some t =>
      cases removing (below n a.write ok) v (some t) with
      | none => rfl
      | some s' =>
        rw [Option.map_some]
        simp only [setEntry_setEntry]
        exact ih s'

/-- An entry whose path fits is removed when it is called for unless it is a directory that is not
empty yet; what cannot be read is called for as if it was none. -/
structure RemovesCalled (fits : List N → Bool) (ok : List N → TypeFlag → Node N → Bool) : Prop where
  file : ∀ p t, ok p .FTW_F t = (fits p && t.notDir)
  symlink : ∀ p t, ok p .FTW_SL t = (fits p && t.notDir)
  unreadable : ∀ p t, ok p .FTW_DNR t = (fits p && t.notDir)
  dir : ∀ p t, ok p .FTW_DP t = (fits p && t.emptyDir)

omit [DecidableEq N] in
theorem RemovesCalled.below (hok : RemovesCalled fits ok) (n : N) (write : Bool) :
    RemovesCalled (fun p => (write || !p.isEmpty) && fits (n :: p)) (below n write ok) := by
  refine ⟨fun p t => ?_, fun p t => ?_, fun p t => ?_, fun p t => ?_⟩
  · rw [FileTree.below, hok.file, Bool.and_assoc]
  · rw [FileTree.below, hok.symlink, Bool.and_assoc]
  · rw [FileTree.below, hok.unreadable, Bool.and_assoc]
  · rw [FileTree.below, hok.dir, Bool.and_assoc]

omit [DecidableEq N] in
/-- What is removed fits. -/
theorem fits_of_removable {t : Node N} (h : removable fits t = true) : fits [] = true := by
  cases t with
  | file => rwa [removable] at h
  | symlink target => rwa [removable] at h
  | dir a es =>
    rw [removable] at h
    simp only [Bool.and_eq_true] at h
    exact h.1.1.2

omit [DecidableEq N] in
/-- To be removed from a directory is to be removable, if the directory can be written. -/
theorem removable_below (n : N) (write : Bool) (t : Node N) :
    removable (fun p => (write || !p.isEmpty) && fits (n :: p)) t =
      (write && removable (fun p => fits (n :: p)) t) := by
  cases write with
  | true => simp only [Bool.true_or, Bool.true_and]
  | false =>
    rw [Bool.false_and]
    by_contra hne
    have hfits := fits_of_removable (eq_true_of_ne_false hne)
    exact Bool.false_ne_true hfits

/-- What the walk through a tree comes to. -/
def Outcome (fits : List N → Bool) (ok : List N → TypeFlag → Node N → Bool) (t : Node N) : Prop :=
  (removable fits t = true ∧ nftw (removing ok) (walk t) (some t) = (true, none)) ∨
    (removable fits t = false ∧ ∃ t', nftw (removing ok) (walk t) (some t) = (false, some t'))

/-- What is called for once. -/
theorem outcome_leaf {t : Node N} {flag : TypeFlag} (hwalk : walk t = [([], flag)])
    (h : ok [] flag t = removable fits t) : Outcome fits ok t := by
  rw [Outcome, hwalk, nftw, removing, removeAt, ← h]
  cases hok : ok [] flag t with
  | true => exact Or.inl ⟨rfl, rfl⟩
  | false => exact Or.inr ⟨rfl, t, rfl⟩

/-- What is in a directory that cannot be searched stays. -/
theorem nftw_walkEntries_of_not_search {e : N × Node N} {es : List (N × Node N)}
    (hsearch : a.search = false) :
    nftw (removing ok) (walkEntries false (e :: es)) (some (.dir a (e :: es))) =
      (false, some (.dir a (e :: es))) := by
  obtain ⟨n, t⟩ := e
  have hno : ¬ (a.search = true ∧ (([] : List N) = [] → a.write = true)) := by
    rw [hsearch]
    exact fun h => Bool.false_ne_true h.1
  have hfail : removing ok ([n], .FTW_NS) (some (.dir a ((n, t) :: es))) = none := by
    rw [removing, removeAt, if_neg hno]
  have hwalk : walkEntries false ((n, t) :: es) = ([n], .FTW_NS) :: walkEntries false es := by
    rw [walkEntries]
    rfl
  rw [hwalk, nftw, hfail]

/-- The entries of a directory that can be searched go one after the other. -/
theorem nftw_walkEntries (hok : RemovesCalled fits ok) (hsearch : a.search = true)
    {es : List (N × Node N)} (hnodup : (es.map Prod.fst).Nodup)
    (hall : ∀ e ∈ es, ∀ fits ok, RemovesCalled fits ok → Outcome fits ok e.2) :
    ((es.isEmpty || a.write) && removableEntries fits es) = true ∧
      nftw (removing ok) (walkEntries true es) (some (.dir a es)) = (true, some (.dir a [])) ∨
    ((es.isEmpty || a.write) && removableEntries fits es) = false ∧
      ∃ es', nftw (removing ok) (walkEntries true es) (some (.dir a es)) =
        (false, some (.dir a es')) := by
  induction es with
  | nil => exact Or.inl ⟨by rw [removableEntries]; rfl, by rw [walkEntries]; rfl⟩
  | cons e es ih =>
    obtain ⟨n, t⟩ := e
    rw [List.map_cons, List.nodup_cons] at hnodup
    have hn : entry n ((n, t) :: es) ≠ none := by
      rw [entry, if_pos rfl]
      exact Option.some_ne_none t
    have hset : ∀ s, setEntry n s ((n, t) :: es) = (s.map (Prod.mk n)).toList ++ es := by
      intro s
      rw [setEntry_cons_of_eq (e := (n, t)) rfl, setEntry_of_notMem hnodup.1]
    -- below the first name everything happens as if the walk were there alone
    have hunder : nftw (removing ok) ((walk t).map fun v => (n :: v.1, v.2))
        (some (.dir a (setEntry n (some t) ((n, t) :: es)))) = _ :=
      nftw_under hsearch hn (walk t) (some t)
    rw [hset] at hunder
    rw [walkEntries, if_pos rfl, nftw_append, removableEntries]
    have hfirst := hall (n, t) List.mem_cons_self _ _ (hok.below n a.write)
    rw [Outcome, removable_below] at hfirst
    rcases hfirst with ⟨hremoved, hrun⟩ | ⟨hstays, t', hrun⟩
    · obtain ⟨hwrite, hremovable⟩ := Bool.and_eq_true_iff.mp hremoved
      rw [hrun, hset] at hunder
      have hgone : nftw (removing ok) ((walk t).map fun v => (n :: v.1, v.2))
          (some (.dir a ((n, t) :: es))) = (true, some (.dir a es)) := hunder
      rw [hgone, if_pos rfl]
      have hrest := ih hnodup.2 fun e he => hall e (List.mem_cons_of_mem _ he)
      rw [hwrite, Bool.or_true, Bool.true_and] at hrest ⊢
      rw [hremovable, Bool.true_and]
      exact hrest
    · rw [hrun, hset] at hunder
      have hstop : nftw (removing ok) ((walk t).map fun v => (n :: v.1, v.2))
          (some (.dir a ((n, t) :: es))) = (false, some (.dir a ((n, t') :: es))) := hunder
      refine Or.inr ⟨?_, (n, t') :: es, ?_⟩
      · show (a.write && (removable (fun p => fits (n :: p)) t && removableEntries fits es)) = false
        rw [← Bool.and_assoc, hstays, Bool.false_and]
      · rw [hstop, if_neg Bool.false_ne_true]

/-- **A tree is removed if it is removable**, and else some of it stays. -/
theorem outcome_of_wf {t : Node N} (h : Wf t) (fits : List N → Bool)
    (ok : List N → TypeFlag → Node N → Bool) (hok : RemovesCalled fits ok) :
    Outcome fits ok t := by
  induction h generalizing fits ok with
  | file =>
    refine outcome_leaf (by rw [walk]) ?_
    rw [hok.file, removable]
    exact Bool.and_true _
  | symlink target =>
    refine outcome_leaf (by rw [walk]) ?_
    rw [hok.symlink, removable]
    exact Bool.and_true _
  | dir a es hnodup hall ih =>
    cases hread : a.read with
    | false =>
      have hwalk : walk (.dir a es) = [([], .FTW_DNR)] := by
        rw [walk, hread]
        rfl
      refine outcome_leaf hwalk ?_
      rw [hok.unreadable, removable, hread, Node.notDir, Bool.and_false]
      rfl
    | true =>
      have hwalk : walk (.dir a es) = walkEntries a.search es ++ [([], .FTW_DP)] := by
        rw [walk, if_pos hread]
      -- the directory is removed when it is empty, if its path fits
      have hlast : nftw (removing ok) [([], .FTW_DP)] (some (.dir a [])) =
          if fits [] then (true, none) else (false, some (.dir a [])) := by
        rw [nftw, removing, removeAt, hok.dir, Node.emptyDir, Bool.and_true]
        cases fits [] <;> rfl
      rw [Outcome, hwalk, nftw_append, removable, hread, Bool.true_and]
      cases hsearch : a.search with
      | false =>
        cases es with
        | nil =>
          have hnil : nftw (removing ok) (walkEntries false []) (some (.dir a [])) =
              (true, some (.dir a [])) := by
            rw [walkEntries]
            rfl
          rw [hnil, if_pos rfl, hlast, removableEntries]
          cases fits [] with
          | true => exact Or.inl ⟨rfl, rfl⟩
          | false => exact Or.inr ⟨rfl, .dir a [], rfl⟩
        | cons e es =>
          rw [nftw_walkEntries_of_not_search hsearch, if_neg Bool.false_ne_true]
          refine Or.inr ⟨?_, .dir a (e :: es), rfl⟩
          show (fits [] && (false && a.write) && _) = false
          rw [Bool.false_and, Bool.and_false, Bool.false_and]
      | true =>
        rw [Bool.true_and, Bool.and_assoc]
        rcases nftw_walkEntries hok hsearch hnodup ih with ⟨hremoved, hrun⟩ | ⟨hstays, es', hrun⟩
        · rw [hrun, if_pos rfl, hlast, hremoved, Bool.and_true]
          cases fits [] with
          | true => exact Or.inl ⟨rfl, rfl⟩
          | false => exact Or.inr ⟨rfl, .dir a [], rfl⟩
        · rw [hrun, if_neg Bool.false_ne_true, hstays, Bool.and_false]
          exact Or.inr ⟨rfl, .dir a es', rfl⟩

/-- Removing an entry leaves the others as they are. -/
theorem kindAt_removeAt {accepts : Node N → Bool} {p : List N} {s s' : Option (Node N)}
    (h : removeAt accepts p s = some s') (q : List N) :
    kindAt q s' = if p <+: q then none else kindAt q s := by
  induction p generalizing s s' q with
  | nil =>
    rw [if_pos (List.nil_prefix)]
    cases s with
    | none => rw [removeAt] at h; cases h
    | some t =>
      rw [removeAt] at h
      split_ifs at h
      obtain rfl := Option.some.inj h
      rw [kindAt]
  | cons n p ih =>
    match s, h with
    | none, h => rw [removeAt] at h; cases h
    | some .file, h => cases h
    | some (.symlink _), h => cases h
    | some (.dir a es), h =>
      rw [removeAt] at h
      split_ifs at h with hallowed
      obtain ⟨s₁, hs₁, rfl⟩ := Option.map_eq_some_iff.mp h
      have hn : entry n es ≠ none := by
        intro hnone
        rw [hnone, removeAt] at hs₁
        cases hs₁
      cases q with
      | nil => rfl
      | cons m q =>
        by_cases hm : m = n
        · subst hm
          rw [kindAt, entry_setEntry_self hn, ih hs₁ q, kindAt]
          simp only [List.cons_prefix_cons, true_and]
        · have hnot : ¬ n :: p <+: m :: q := fun hpre => hm (List.cons_prefix_cons.mp hpre).1.symm
          rw [kindAt, entry_setEntry_of_ne hm, if_neg hnot, kindAt]

/-- Wherever the calls stop, what is left is where it was. -/
theorem kindAt_nftw (vs : List (List N × TypeFlag)) (s : Option (Node N)) (q : List N) :
    kindAt q (nftw (removing ok) vs s).2 = none ∨
      kindAt q (nftw (removing ok) vs s).2 = kindAt q s := by
  induction vs generalizing s with
  | nil => exact Or.inr rfl
  | cons v vs ih =>
    rw [nftw]
    cases h : removing ok v s with
    | none => exact Or.inr rfl
    | some s' =>
      have hkind := kindAt_removeAt h q
      rcases ih s' with hnone | heq
      · exact Or.inl hnone
      · show kindAt q (nftw (removing ok) vs s').2 = none ∨
          kindAt q (nftw (removing ok) vs s').2 = _
        rw [heq, hkind]
        split_ifs
        · exact Or.inl rfl
        · exact Or.inr rfl

end Removing

end

end FileTree
