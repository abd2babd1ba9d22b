/-
# From the file to the grade

The workers of a `Classroom` grade what they have received as the environment says.  Here the grade
is made as `handle_client` makes it: the source is compiled and run, the end of the run either
decides the grade or leads to `compare_output`, and that reads the output of this run and the file
at the path which `ans_path` held when the run was over.

The compiler and the program are children of the server, which several workers wait for at a time;
neither `fork` is looked at, so one that fails makes its worker wait for the child of another.  And
a program may write to the output of another one whose descriptor it has inherited.  Without these
two a worker is told of its own children (`Children.waitpid_own`), and in every interleaving of the
class each client is shown the grade of a run of what was received of its own file, compared with
the answers of a week (`graded_as_sent`).

What a source leads to when it is compiled and run is a parameter, and so is what there is on the
disk at the path of an answer file.  As in a `Classroom`, the connections and the files that are
being received are taken to be left alone by the programs.
-/
import MiniCi.Children
import MiniCi.Classroom
import MiniCi.Verdict

namespace MiniCi

open CStr ByteStream Runs

/-! ## The source -/

/-- The status of the wrapper. -/
def Trial.status (t : Trial) : WaitStatus :=
  wrapperStatus (runInner (cpuLimit t.timeout_seconds) t.monitor t.task t.moments t.fate).2

/-- `final_exec` and `final_mem`. -/
def Rusage.consumed (usage : Rusage) : UInt32 × UInt32 :=
  (.ofNat usage.user_ms, .ofNat usage.ru_maxrss)

/-- Where `handle_client` goes on to when `wait4` has returned.  Only a wrapper that has exited with
`0` needs a comparison; for every other status `diff_res` does not matter. -/
def verdict (i : Fin NUM_THREADS) (hdr : SubmitHeader) (status : WaitStatus) (usage : Rusage) :
    WeekAction NUM_THREADS :=
  if status = .exited 0 then .expect i hdr usage.consumed.1 usage.consumed.2
  else .fail i hdr (gradeOfStatus status 0) usage.consumed.1 usage.consumed.2

/-- How far a worker is with a submission, and the variables `status` and `usage`, `none` as long as
they are not set; an error of `waitpid` leaves them as they are. -/
inductive Exam where
  | idle
  /-- it waits for `gcc`, whose `fork` may have failed -/
  | compiling (t : Trial) (forked : Bool)
  | compiled (t : Trial) (status : Option WaitStatus)
  /-- it waits for the wrapper, and `status` is that of `gcc` -/
  | running (t : Trial) (forked : Bool)
  | ran (t : Trial) (status : WaitStatus) (usage : Option Rusage)
  | comparing (t : Trial)

/-- It has forked and not yet gone on. -/
def Exam.awaits : Exam → Bool
  | .idle => false
  | .comparing _ => false
  | _ => true

/-- Something is written to `output.txt`, once it is there. -/
def Exam.write (text : Bytes) : Exam → Exam
  | .running t forked => .running { t with actual_file := t.actual_file.map (· ++ text) } forked
  | .ran t status usage => .ran { t with actual_file := t.actual_file.map (· ++ text) } status usage
  | .comparing t => .comparing { t with actual_file := t.actual_file.map (· ++ text) }
  | exam => exam

/-- A class, what each worker does with its submission, and the children. -/
structure ExamRoom where
  room : Classroom
  exam : Fin NUM_THREADS → Exam
  kids : Children.Table (Fin NUM_THREADS) (WaitStatus × Rusage)

def ExamRoom.initial (csv : CsvState) (disk : Disk) : ExamRoom :=
  { room := .initial csv disk, exam := fun _ => .idle, kids := fun _ => none }

inductive ExamAction where
  /-- `fork` for `gcc`; the trial is what becomes of the source -/
  | compile (i : Fin NUM_THREADS) (t : Trial) (ok : Bool)
  /-- `fork` for the wrapper; the trial is what becomes of the program -/
  | run (i : Fin NUM_THREADS) (t : Trial) (ok : Bool)
  /-- the child of a worker ends -/
  | exits (i : Fin NUM_THREADS)
  /-- `waitpid` or `wait4` of a worker returns, with the child of this one or an error -/
  | wait (i : Fin NUM_THREADS) (taken : Option (Fin NUM_THREADS))
  /-- the worker goes on with the status -/
  | grade (i : Fin NUM_THREADS)
  /-- the output is compared with what `fopen` finds -/
  | compare (i : Fin NUM_THREADS) (expected_file : Option Bytes)
  /-- a program writes to the output of this worker -/
  | program (i : Fin NUM_THREADS) (text : Bytes)
  /-- anything else -/
  | other (a : ClassAction)

/-- The sections of the class that bring a grade. -/
def ClassAction.grades : ClassAction → Bool
  | .week (.expect _ _ _ _) => true
  | .week (.compare _ _) => true
  | .week (.fail _ _ _ _ _) => true
  | _ => false

/-- The submission a worker has received. -/
def ExamRoom.submitted (s : ExamRoom) (i : Fin NUM_THREADS) : Option SubmitHeader :=
  (s.room.intake i).bind (·.received.submitted)

/-- One step, with `isspace` of the locale.  A worker that would go on with a variable that is not
set ends the run. -/
def examStep (isspace : UInt8 → Bool) (s : ExamRoom) : ExamAction → Option ExamRoom
  | .compile i t ok =>
    match s.exam i, s.room.server.workers i, s.submitted i with
    | .idle, .started _, some _ =>
      some { s with
        exam := Function.update s.exam i (.compiling t ok)
        kids := Children.fork s.kids i ok (t.gcc, t.usage) }
    | _, _, _ => none
  | .run i t ok =>
    match s.exam i with
    | .compiled _ (some (.exited 0)) =>
      some { s with
        exam := Function.update s.exam i (.running t ok)
        kids := Children.fork s.kids i ok (t.status, t.usage) }
    | _ => none
  | .exits i => (Children.exits s.kids i).map fun kids => { s with kids }
  | .wait i taken =>
    match s.exam i with
    | .compiling t forked =>
      (Children.waitpid s.kids i forked taken).map fun (report, kids) =>
        { s with kids, exam := Function.update s.exam i (.compiled t (report.map Prod.fst)) }
    | .running t forked =>
      (Children.waitpid s.kids i forked taken).map fun (report, kids) =>
        { s with
          kids
          exam := Function.update s.exam i
            (.ran t ((report.map Prod.fst).getD (.exited 0)) (report.map Prod.snd)) }
    | _ => none
  | .grade i =>
    match s.exam i, s.submitted i with
    | .compiled _ (some gcc), some hdr =>
      if gcc ≠ .exited 0 then
        (classStep s.room (.week (.fail i hdr GRADE_CE 0 0))).map fun room =>
          { s with room, exam := Function.update s.exam i .idle }
      else none
    | .ran t status (some usage), some hdr =>
      (classStep s.room (.week (verdict i hdr status usage))).map fun room =>
        { s with
          room
          exam := Function.update s.exam i (if status = .exited 0 then .comparing t else .idle) }
    | _, _ => none
  | .compare i expected_file =>
    match s.exam i with
    | .comparing t =>
      (classStep s.room (.week (.compare i (compare_output isspace t.actual_file
        expected_file)))).map fun room => { s with room, exam := Function.update s.exam i .idle }
    | _ => none
  | .program i text => some { s with exam := Function.update s.exam i ((s.exam i).write text) }
  | .other a =>
    if a.grades then none else (classStep s.room a).map fun room => { s with room }

/-! ## The world -/

section World

variable (isspace : UInt8 → Bool) (outcome : Option Bytes → Trial → Prop)
  (onDisk : Bytes → Option Bytes → Prop)

/-- The file that a worker is about to compare with. -/
def Worker.expected_path : Worker → Option Bytes
  | .comparing _ _ _ _ expected_path => some expected_path
  | _ => none

/-- No `fork` fails and no program writes to the output of another.  Compiling and running a source
leads to one of its outcomes, and only a program that has been compiled is run; an answer file is as
it may be on the disk, and there is room in the queue. -/
def Happens (s : ExamRoom) : ExamAction → Prop
  | .compile i t ok => ok = true ∧ ∀ k ∈ s.room.intake i, outcome k.received.source t
  | .run i t ok =>
    ok = true ∧ t.gcc = .exited 0 ∧ ∀ k ∈ s.room.intake i, outcome k.received.source t
  | .compare i expected_file =>
    ∀ expected_path ∈ (s.room.server.workers i).expected_path, onDisk expected_path expected_file
  | .program _ _ => False
  | .other a => RoomInQueue s.room a
  | _ => True

instance [∀ source t, Decidable (outcome source t)] [∀ p file, Decidable (onDisk p file)]
    (s : ExamRoom) : ∀ a, Decidable (Happens outcome onDisk s a)
  | .compile i t ok =>
    inferInstanceAs (Decidable (ok = true ∧ ∀ k ∈ s.room.intake i, outcome k.received.source t))
  | .run i t ok => inferInstanceAs (Decidable
      (ok = true ∧ t.gcc = .exited 0 ∧ ∀ k ∈ s.room.intake i, outcome k.received.source t))
  | .compare i expected_file =>
    inferInstanceAs (Decidable (∀ p ∈ (s.room.server.workers i).expected_path,
      onDisk p expected_file))
  | .program _ _ => .isFalse not_false
  | .other a => inferInstanceAs (Decidable (RoomInQueue s.room a))
  | .exits _ | .wait _ _ | .grade _ => .isTrue trivial

/-- The grade of a trial.  There was a comparison iff the wrapper exited with `0`, and then it was
with the answers of a week. -/
structure Judged (t : Trial) (g : Graded) : Prop where
  grade : g.grade = (t.final isspace).1
  consumed : (g.exec_ms, g.mem_kb) = (t.final isspace).2
  compared : g.expected_path.isSome ↔ t.gcc = .exited 0 ∧ t.status = .exited 0
  expected : ∀ expected_path ∈ g.expected_path,
    (∃ week_name, expected_path = (ctx_set_hw_paths week_name).ans_path) ∧
      onDisk expected_path t.expected_file

/-- The grade comes from compiling and running the source. -/
def GradeOf (source : Option Bytes) (g : Graded) : Prop :=
  ∃ t, outcome source t ∧ ∃ expected_file, Judged isspace onDisk { t with expected_file } g

/-- What a worker that examines a source knows, and which child it has. -/
def Exam.Knows (source : Option Bytes) (kid : Option (Children.Child (WaitStatus × Rusage))) :
    Exam → Prop
  | .idle => kid = none
  | .compiling t forked =>
    forked = true ∧ outcome source t ∧ ∃ ended, kid = some ⟨(t.gcc, t.usage), ended⟩
  | .compiled t status => kid = none ∧ outcome source t ∧ status = some t.gcc
  | .running t forked =>
    forked = true ∧ outcome source t ∧ t.gcc = .exited 0 ∧
      ∃ ended, kid = some ⟨(t.status, t.usage), ended⟩
  | .ran t status usage =>
    kid = none ∧ outcome source t ∧ t.gcc = .exited 0 ∧ status = t.status ∧ usage = some t.usage
  | .comparing t => kid = none ∧ outcome source t ∧ t.gcc = .exited 0 ∧ t.status = .exited 0

/-- Where the worker is meanwhile in the lock sections of `handle_client`. -/
def Worker.Examines (source : Option Bytes) : Worker → Exam → Prop
  | .started _, .comparing _ => False
  | .started _, _ => True
  | .comparing _ _ exec_ms mem_kb expected_path, .comparing t =>
    (exec_ms, mem_kb) = t.usage.consumed ∧
      ∃ week_name, expected_path = (ctx_set_hw_paths week_name).ans_path
  | .graded _ g, .idle => GradeOf isspace outcome onDisk source g
  | .matched _ g, .idle => GradeOf isspace outcome onDisk source g
  | .recorded _ g _, .idle => GradeOf isspace outcome onDisk source g
  | .checked _ g _ _ _, .idle => GradeOf isspace outcome onDisk source g
  | .idle, .idle => True
  | _, _ => False

/-- The source of the submission a worker has. -/
def ExamRoom.source (s : ExamRoom) (i : Fin NUM_THREADS) : Option Bytes :=
  (s.room.intake i).bind (·.received.source)

/-- What holds of one worker. -/
structure AtExam (s : ExamRoom) (i : Fin NUM_THREADS) : Prop where
  knows : (s.exam i).Knows outcome (s.source i) (s.kids i)
  worker : (s.room.server.workers i).Examines isspace outcome onDisk (s.source i) (s.exam i)
  submitted : s.exam i ≠ .idle → s.submitted i ≠ none

structure ExamInv (s : ExamRoom) : Prop where
  classInv : ClassInv s.room
  workers : ∀ i, AtExam isspace outcome onDisk s i
  answers : ∀ a ∈ s.room.answers, GradeOf isspace outcome onDisk a.source a.g

end World

/-! ## One submission -/

section Grade

variable (isspace : UInt8 → Bool) {t : Trial}

theorem final_of_gcc (h : t.gcc ≠ .exited 0) : t.final isspace = (GRADE_CE, 0, 0) := by
  rw [Trial.final, if_pos h]

theorem final_of_ran (h : t.gcc = .exited 0) :
    t.final isspace =
      (gradeOfStatus t.status (compare_output isspace t.actual_file t.expected_file),
        t.usage.consumed) := by
  rw [Trial.final, if_neg (not_not.mpr h)]
  rfl

/-- Only a wrapper that exits with `0` is graded by what its program has written. -/
theorem gradeOfStatus_of_ne {status : WaitStatus} (h : status ≠ .exited 0) (d d' : ℤ) :
    gradeOfStatus status d = gradeOfStatus status d' := by
  cases status with
  | signaled sig => rfl
  | exited code =>
    have hcode : code ≠ 0 := fun hzero => h (congrArg _ hzero)
    simp only [gradeOfStatus, if_pos hcode]

end Grade

section Judged

variable {isspace : UInt8 → Bool} {outcome : Option Bytes → Trial → Prop}
  {onDisk : Bytes → Option Bytes → Prop} {t : Trial} {i : Fin NUM_THREADS} {hdr : SubmitHeader}

/-- A source that does not compile. -/
theorem judged_of_gcc (h : t.gcc ≠ .exited 0) :
    Judged isspace onDisk t ⟨hdr, GRADE_CE, 0, 0, none⟩ := by
  have hfinal := final_of_gcc isspace h
  refine ⟨by rw [hfinal], by rw [hfinal], ?_, nofun⟩
  exact ⟨fun hsome => (by cases hsome), fun hran => absurd hran.1 h⟩

/-- A run whose end decides the grade. -/
theorem judged_of_end (hgcc : t.gcc = .exited 0) (hstatus : t.status ≠ .exited 0) :
    Judged isspace onDisk t
      ⟨hdr, gradeOfStatus t.status 0, t.usage.consumed.1, t.usage.consumed.2, none⟩ := by
  have hfinal := final_of_ran isspace hgcc
  refine ⟨?_, by rw [hfinal], ?_, nofun⟩
  · rw [hfinal]
    exact gradeOfStatus_of_ne hstatus 0 _
  · exact ⟨fun hsome => (by cases hsome), fun hran => absurd hran.2 hstatus⟩

/-- A run that is graded by its output. -/
theorem judged_of_compare (hgcc : t.gcc = .exited 0) (hstatus : t.status = .exited 0)
    {exec_ms mem_kb : UInt32} (hconsumed : (exec_ms, mem_kb) = t.usage.consumed) {week_name : Bytes}
    {expected_path : Bytes} (hpath : expected_path = (ctx_set_hw_paths week_name).ans_path)
    {expected_file : Option Bytes} (hdisk : onDisk expected_path expected_file) :
    Judged isspace onDisk { t with expected_file }
      ⟨hdr, gradeOfDiff (compare_output isspace t.actual_file expected_file), exec_ms, mem_kb,
        some expected_path⟩ := by
  have hfinal := final_of_ran (t := { t with expected_file }) isspace hgcc
  have hsame : Trial.status { t with expected_file } = .exited 0 := hstatus
  refine ⟨?_, ?_, ⟨fun _ => ⟨hgcc, hsame⟩, fun _ => rfl⟩, ?_⟩
  · rw [hfinal, hsame]
    rfl
  · rw [hfinal]
    exact hconsumed
  · rintro _ ⟨rfl⟩
    exact ⟨⟨week_name, hpath⟩, hdisk⟩

end Judged

/-! ## The class -/

section Steps

variable {isspace : UInt8 → Bool} {outcome : Option Bytes → Trial → Prop}
  {onDisk : Bytes → Option Bytes → Prop} {s s' : ExamRoom} {i : Fin NUM_THREADS}

/-- A worker that has forked is in no lock section. -/
theorem Worker.Examines.started {source : Option Bytes} {w : Worker} {exam : Exam}
    (h : w.Examines isspace outcome onDisk source exam) (hexam : exam.awaits = true) :
    ∃ task_hw, w = .started task_hw := by
  cases w <;> cases exam <;> first | exact ⟨_, rfl⟩ | exact False.elim h | exact nomatch hexam

/-- One that has a grade, or no submission, examines nothing. -/
theorem Worker.Examines.exam_eq_idle {source : Option Bytes} {w : Worker} {exam : Exam}
    (h : w.Examines isspace outcome onDisk source exam) (hstarted : w.starting = none)
    (hcomparing : w.expected_path = none) : exam = .idle := by
  cases w <;> cases exam <;>
    first | rfl | exact False.elim h | exact absurd hstarted (Option.some_ne_none _) |
      exact absurd hcomparing (Option.some_ne_none _)

theorem AtExam.of {exam : Exam} {kid : Option (Children.Child (WaitStatus × Rusage))} {w : Worker}
    (hexam : s.exam i = exam) (hkid : s.kids i = kid) (hw : s.room.server.workers i = w)
    (hknows : exam.Knows outcome (s.source i) kid)
    (hworker : w.Examines isspace outcome onDisk (s.source i) exam)
    (hsubmitted : exam ≠ .idle → s.submitted i ≠ none) : AtExam isspace outcome onDisk s i := by
  subst hexam hkid hw
  exact ⟨hknows, hworker, hsubmitted⟩

/-- What is not touched stays. -/
theorem AtExam.frame (h : AtExam isspace outcome onDisk s i)
    (hw : s'.room.server.workers i = s.room.server.workers i)
    (hintake : s'.room.intake i = s.room.intake i) (hexam : s'.exam i = s.exam i)
    (hkid : s'.kids i = s.kids i) : AtExam isspace outcome onDisk s' i := by
  have hsource : s'.source i = s.source i := by rw [ExamRoom.source, hintake, ExamRoom.source]
  have hsubmitted : s'.submitted i = s.submitted i := by
    rw [ExamRoom.submitted, hintake, ExamRoom.submitted]
  refine .of hexam hkid hw ?_ ?_ ?_
  · rw [hsource]
    exact h.knows
  · rw [hsource]
    exact h.worker
  · rw [hsubmitted]
    exact h.submitted

/-- A worker that examines nothing has no child. -/
theorem AtExam.kid_of_idle (h : AtExam isspace outcome onDisk s i) (hexam : s.exam i = .idle) :
    s.kids i = none := by
  have hknows := h.knows
  rw [hexam] at hknows
  exact hknows

theorem examInv_initial (csv : CsvState) (disk : Disk) :
    ExamInv isspace outcome onDisk (.initial csv disk) :=
  ⟨classInv_initial csv disk, fun _ => ⟨rfl, trivial, fun h => absurd rfl h⟩,
    fun _ ha => absurd ha List.not_mem_nil⟩

/-- A step of one worker. -/
theorem ExamInv.update (h : ExamInv isspace outcome onDisk s) (hclass : ClassInv s'.room)
    (hworkers : ∀ j ≠ i, s'.room.server.workers j = s.room.server.workers j)
    (hintake : ∀ j ≠ i, s'.room.intake j = s.room.intake j)
    (hexam : ∀ j ≠ i, s'.exam j = s.exam j) (hkids : ∀ j ≠ i, s'.kids j = s.kids j)
    (hi : AtExam isspace outcome onDisk s' i)
    (hanswers : s'.room.answers = s.room.answers) : ExamInv isspace outcome onDisk s' := by
  refine ⟨hclass, fun j => ?_, by rw [hanswers]; exact h.answers⟩
  by_cases hj : j = i
  · rw [hj]
    exact hi
  · exact (h.workers j).frame (hworkers j hj) (hintake j hj) (hexam j hj) (hkids j hj)

/-- A worker goes on, and the class stays as it is. -/
theorem ExamInv.alone (h : ExamInv isspace outcome onDisk s) {exam : Exam}
    {kids : Children.Table (Fin NUM_THREADS) (WaitStatus × Rusage)}
    (hkids : ∀ j ≠ i, kids j = s.kids j) (hknows : exam.Knows outcome (s.source i) (kids i))
    (hworker : (s.room.server.workers i).Examines isspace outcome onDisk (s.source i) exam)
    (hsubmitted : s.submitted i ≠ none) :
    ExamInv isspace outcome onDisk { s with exam := Function.update s.exam i exam, kids } :=
  h.update (i := i) h.classInv (fun _ _ => rfl) (fun _ _ => rfl)
    (fun _ hj => Function.update_of_ne hj _ _) hkids
    (.of (Function.update_self ..) rfl rfl hknows hworker fun _ => hsubmitted) rfl

/-- A section of the server in which one worker goes on. -/
theorem ExamInv.move (h : ExamInv isspace outcome onDisk s)
    {server : WeekServer NUM_THREADS} {w : Worker} {exam : Exam}
    (hclass : ClassInv { s.room with server })
    (hworkers : server.workers = Function.update s.room.server.workers i w)
    (hknows : exam.Knows outcome (s.source i) (s.kids i))
    (hw : w.Examines isspace outcome onDisk (s.source i) exam)
    (hsubmitted : exam ≠ .idle → s.submitted i ≠ none) :
    ExamInv isspace outcome onDisk
      { s with room := { s.room with server }, exam := Function.update s.exam i exam } := by
  refine h.update (i := i) hclass ?_ (fun _ _ => rfl) ?_ (fun _ _ => rfl) ?_ rfl
  · intro j hj
    show server.workers j = _
    rw [hworkers, Function.update_of_ne hj]
  · intro j hj
    exact Function.update_of_ne hj _ _
  · refine .of (Function.update_self ..) rfl ?_ hknows hw hsubmitted
    show server.workers i = w
    rw [hworkers, Function.update_self]

/-- `fork` for the compiler. -/
theorem ExamInv.compile (h : ExamInv isspace outcome onDisk s) {t : Trial} {ok : Bool}
    (hworld : Happens outcome onDisk s (.compile i t ok))
    (hstep : examStep isspace s (.compile i t ok) = some s') :
    ExamInv isspace outcome onDisk s' := by
  obtain ⟨rfl, hout⟩ := hworld
  simp only [examStep] at hstep
  split at hstep
  · rename_i hexam hworker hsubmitted
    obtain rfl := Option.some.inj hstep
    obtain ⟨k, hk, -⟩ := Option.bind_eq_some_iff.mp hsubmitted
    refine h.alone (fun j hj => Children.fork_of_ne _ hj _ _) ⟨rfl, ?_, false, ?_⟩ ?_ ?_
    · rw [ExamRoom.source, hk]
      exact hout k hk
    · exact Children.fork_self ..
    · rw [hworker]
      trivial
    · rw [hsubmitted]
      exact Option.some_ne_none _
  · cases hstep

/-- `fork` for the wrapper. -/
theorem ExamInv.run (h : ExamInv isspace outcome onDisk s) {t : Trial} {ok : Bool}
    (hworld : Happens outcome onDisk s (.run i t ok))
    (hstep : examStep isspace s (.run i t ok) = some s') : ExamInv isspace outcome onDisk s' := by
  obtain ⟨rfl, hgcc, hout⟩ := hworld
  simp only [examStep] at hstep
  split at hstep
  · rename_i t' hexam
    obtain rfl := Option.some.inj hstep
    have hwork := h.workers i
    have hsubmitted := hwork.submitted (by rw [hexam]; nofun)
    have hworker := hwork.worker
    rw [hexam] at hworker
    refine h.alone (fun j hj => Children.fork_of_ne _ hj _ _) ⟨rfl, ?_, hgcc, false, ?_⟩ ?_
      hsubmitted
    · obtain ⟨hdr, hhdr⟩ := Option.ne_none_iff_exists'.mp hsubmitted
      obtain ⟨k, hk, -⟩ := Option.bind_eq_some_iff.mp hhdr
      rw [ExamRoom.source, hk]
      exact hout k hk
    · exact Children.fork_self ..
    · obtain ⟨task_hw, hw⟩ := hworker.started rfl
      rw [hw]
      trivial
  · cases hstep

/-- A child ends. -/
theorem ExamInv.exits (h : ExamInv isspace outcome onDisk s)
    (hstep : examStep isspace s (.exits i) = some s') : ExamInv isspace outcome onDisk s' := by
  obtain ⟨kids, hkids, rfl⟩ := Option.map_eq_some_iff.mp hstep
  obtain ⟨report, hkid, rfl⟩ := Children.exits_cases hkids
  have hwork := h.workers i
  have hknows := hwork.knows
  rw [hkid] at hknows
  refine h.update (i := i) h.classInv (fun _ _ => rfl) (fun _ _ => rfl) (fun _ _ => rfl)
    (fun _ hj => Function.update_of_ne hj _ _)
    (.of rfl (Function.update_self ..) rfl ?_ hwork.worker hwork.submitted) rfl
  show (s.exam i).Knows outcome (s.source i) _
  cases hexam : s.exam i with
  | idle =>
    rw [hexam] at hknows
    cases hknows
  | compiling t forked =>
    rw [hexam] at hknows
    obtain ⟨hforked, hout, ended, hown⟩ := hknows
    obtain ⟨rfl, -⟩ := Children.Child.mk.inj (Option.some.inj hown)
    exact ⟨hforked, hout, true, rfl⟩
  | compiled t status =>
    rw [hexam] at hknows
    cases hknows.1
  | running t forked =>
    rw [hexam] at hknows
    obtain ⟨hforked, hout, hgcc, ended, hown⟩ := hknows
    obtain ⟨rfl, -⟩ := Children.Child.mk.inj (Option.some.inj hown)
    exact ⟨hforked, hout, hgcc, true, rfl⟩
  | ran t status usage =>
    rw [hexam] at hknows
    cases hknows.1
  | comparing t =>
    rw [hexam] at hknows
    cases hknows.1

/-- **A worker is told of its own child.** -/
theorem ExamInv.wait (h : ExamInv isspace outcome onDisk s) {taken : Option (Fin NUM_THREADS)}
    (hstep : examStep isspace s (.wait i taken) = some s') :
    ExamInv isspace outcome onDisk s' := by
  have hwork := h.workers i
  have hknows := hwork.knows
  have hworker := hwork.worker
  simp only [examStep] at hstep
  split at hstep
  · rename_i t forked hexam
    obtain ⟨⟨report, kids⟩, hwait, rfl⟩ := Option.map_eq_some_iff.mp hstep
    have hsubmitted := hwork.submitted (by rw [hexam]; nofun)
    rw [hexam] at hknows hworker
    obtain ⟨rfl, hout, ended, hown⟩ := hknows
    obtain ⟨rfl, rfl⟩ := Children.waitpid_own hown hwait
    refine h.alone (fun _ hj => Function.update_of_ne hj _ _)
      ⟨Function.update_self .., hout, rfl⟩ ?_ hsubmitted
    obtain ⟨task_hw, hw⟩ := hworker.started rfl
    rw [hw]
    trivial
  · rename_i t forked hexam
    obtain ⟨⟨report, kids⟩, hwait, rfl⟩ := Option.map_eq_some_iff.mp hstep
    have hsubmitted := hwork.submitted (by rw [hexam]; nofun)
    rw [hexam] at hknows hworker
    obtain ⟨rfl, hout, hgcc, ended, hown⟩ := hknows
    obtain ⟨rfl, rfl⟩ := Children.waitpid_own hown hwait
    refine h.alone (fun _ hj => Function.update_of_ne hj _ _)
      ⟨Function.update_self .., hout, hgcc, rfl, rfl⟩ ?_ hsubmitted
    obtain ⟨task_hw, hw⟩ := hworker.started rfl
    rw [hw]
    trivial
  · cases hstep

/-- Going on with the status. -/
theorem ExamInv.grade (h : ExamInv isspace outcome onDisk s)
    (hstep : examStep isspace s (.grade i) = some s') : ExamInv isspace outcome onDisk s' := by
  have hknows := (h.workers i).knows
  simp only [examStep] at hstep
  split at hstep
  · rename_i t gcc hdr hexam hsubmitted
    rw [hexam] at hknows
    obtain ⟨hkid, hout, hgcc⟩ := hknows
    obtain rfl := Option.some.inj hgcc
    split_ifs at hstep with hne
    obtain ⟨room, hroom, rfl⟩ := Option.map_eq_some_iff.mp hstep
    have hclass := h.classInv.step _ (.week (.fail i hdr GRADE_CE 0 0)) _ trivial hroom
    obtain ⟨-, server, hserver, rfl⟩ := week_cases hroom
    obtain ⟨task_hw, -, rfl⟩ := fail_cases hserver
    exact h.move hclass rfl hkid ⟨t, hout, t.expected_file, judged_of_gcc hne⟩
      fun hidle => absurd rfl hidle
  · rename_i t status usage hdr hexam hsubmitted
    rw [hexam] at hknows
    obtain ⟨hkid, hout, hgcc, rfl, husage⟩ := hknows
    obtain rfl := Option.some.inj husage
    obtain ⟨room, hroom, rfl⟩ := Option.map_eq_some_iff.mp hstep
    have hclass := h.classInv.step _ (.week (verdict i hdr t.status t.usage)) _ trivial hroom
    obtain ⟨-, server, hserver, rfl⟩ := week_cases hroom
    unfold verdict at hserver
    split_ifs at hserver ⊢ with hstatus
    · obtain ⟨task_hw, -, rfl⟩ := expect_cases hserver
      obtain ⟨week_name, hhw⟩ := h.classInv.hw
      exact h.move hclass rfl ⟨hkid, hout, hgcc, hstatus⟩ ⟨rfl, week_name, by rw [hhw]⟩
        fun _ => by rw [hsubmitted]; exact Option.some_ne_none _
    · obtain ⟨task_hw, -, rfl⟩ := fail_cases hserver
      exact h.move hclass rfl hkid ⟨t, hout, t.expected_file, judged_of_end hgcc hstatus⟩
        fun hidle => absurd rfl hidle
  · cases hstep

/-- Comparing the output. -/
theorem ExamInv.compare (h : ExamInv isspace outcome onDisk s) {expected_file : Option Bytes}
    (hworld : Happens outcome onDisk s (.compare i expected_file))
    (hstep : examStep isspace s (.compare i expected_file) = some s') :
    ExamInv isspace outcome onDisk s' := by
  have hwork := h.workers i
  have hknows := hwork.knows
  have hworker := hwork.worker
  simp only [examStep] at hstep
  split at hstep
  · rename_i t hexam
    obtain ⟨room, hroom, rfl⟩ := Option.map_eq_some_iff.mp hstep
    have hclass := h.classInv.step _ (.week (.compare i _)) _ trivial hroom
    obtain ⟨-, server, hserver, rfl⟩ := week_cases hroom
    obtain ⟨task_hw, hdr, exec_ms, mem_kb, expected_path, hcomparing, rfl⟩ := compare_cases hserver
    rw [hexam] at hknows hworker
    rw [hcomparing] at hworker
    obtain ⟨hkid, hout, hgcc, hstatus⟩ := hknows
    obtain ⟨hconsumed, week_name, hpath⟩ := hworker
    exact h.move hclass rfl hkid ⟨t, hout, expected_file,
      judged_of_compare hgcc hstatus hconsumed hpath (hworld _ (by rw [hcomparing]; rfl))⟩
      fun hidle => absurd rfl hidle
  · cases hstep

/-- The sections of the class that bring no grade. -/
theorem ExamInv.week (h : ExamInv isspace outcome onDisk s) {a : WeekAction NUM_THREADS}
    (hgrades : (ClassAction.week a).grades = false) {room : Classroom} (hclass : ClassInv room)
    (hroom : classStep s.room (.week a) = some room) :
    ExamInv isspace outcome onDisk { s with room } := by
  obtain ⟨hpermits, server, hserver, rfl⟩ := week_cases hroom
  have hmove : ∀ (i : Fin NUM_THREADS) (w : Worker),
      server.workers = Function.update s.room.server.workers i w →
      w.Examines isspace outcome onDisk (s.source i) (s.exam i) →
      ExamInv isspace outcome onDisk { s with room := { s.room with server } } := by
    intro i w hworkers hw
    have hmoved := h.move hclass hworkers (h.workers i).knows hw (h.workers i).submitted
    rwa [Function.update_eq_self] at hmoved
  have hsame : server.workers = s.room.server.workers →
      ExamInv isspace outcome onDisk { s with room := { s.room with server } } := fun hworkers =>
    ⟨hclass, fun j => (h.workers j).frame (congrFun hworkers j) rfl rfl rfl, h.answers⟩
  cases a with
  | set_hw _ =>
    obtain ⟨-, rfl | ⟨-, -, rfl⟩⟩ := set_hw_cases hserver
    all_goals exact hsame rfl
  | reset =>
    obtain ⟨_, -, rfl⟩ := reset_cases hserver
    exact hsame rfl
  | open_csv _ _ _ =>
    obtain ⟨_, -, rfl⟩ := open_csv_cases hserver
    exact hsame rfl
  | set_students _ =>
    obtain ⟨-, rfl⟩ := set_students_cases hserver
    exact hsame rfl
  | snapshot i =>
    obtain ⟨hidle, rfl⟩ := snapshot_cases hserver
    have hworker := (h.workers i).worker
    rw [hidle] at hworker
    refine hmove i _ rfl ?_
    rw [hworker.exam_eq_idle rfl rfl]
    trivial
  | leave i => exact hpermits.elim
  | expect _ _ _ _ => cases hgrades
  | compare _ _ => cases hgrades
  | fail _ _ _ _ _ => cases hgrades
  | check i =>
    have hworker := (h.workers i).worker
    obtain ⟨_, _, hgraded, ⟨-, rfl⟩ | ⟨-, rfl⟩⟩ := check_cases hserver
    all_goals
      rw [hgraded] at hworker
      have hidle := hworker.exam_eq_idle rfl rfl
      rw [hidle] at hworker
      refine hmove i _ rfl ?_
      rw [hidle]
      exact hworker
  | record i _ => exact hpermits.elim
  | write_csv i _ _ _ =>
    have hworker := (h.workers i).worker
    obtain ⟨_, _, _, _, _, hrecorded, -, rfl⟩ := write_csv_cases hserver
    rw [hrecorded] at hworker
    have hidle := hworker.exam_eq_idle rfl rfl
    rw [hidle] at hworker
    refine hmove i _ rfl ?_
    rw [hidle]
    exact hworker
  | reply i => exact hpermits.elim

/-- The steps of the class that bring no grade. -/
theorem ExamInv.other (h : ExamInv isspace outcome onDisk s) {a : ClassAction}
    (hworld : Happens outcome onDisk s (.other a))
    (hstep : examStep isspace s (.other a) = some s') : ExamInv isspace outcome onDisk s' := by
  simp only [examStep] at hstep
  split_ifs at hstep with hgrades
  obtain ⟨room, hroom, rfl⟩ := Option.map_eq_some_iff.mp hstep
  have hclass := h.classInv.step _ a _ hworld hroom
  have hsame : room.server = s.room.server → room.intake = s.room.intake →
      room.answers = s.room.answers → ExamInv isspace outcome onDisk { s with room } := by
    intro hserver hintake hanswers
    refine ⟨hclass, fun j => (h.workers j).frame ?_ (congrFun hintake j) rfl rfl, ?_⟩
    · rw [hserver]
    · rw [hanswers]
      exact h.answers
  cases a with
  | connect wire =>
    obtain rfl := connect_cases hroom
    exact hsame rfl rfl rfl
  | take i =>
    obtain ⟨-, _, _, -, rfl⟩ := take_cases hroom
    exact hsame rfl rfl rfl
  | receive i _ _ _ _ =>
    have hnone := intake_of_receive hroom
    obtain ⟨_, task_hw, -, hstarted, rfl⟩ := receive_cases hroom
    -- nothing was examined, since nothing had been received
    have hidle : s.exam i = .idle := by
      by_contra hbusy
      refine (h.workers i).submitted hbusy ?_
      rw [ExamRoom.submitted, hnone]
      rfl
    refine h.update (i := i) hclass (fun _ _ => rfl) (fun _ hj => Function.update_of_ne hj _ _)
      (fun _ _ => rfl) (fun _ _ => rfl) ?_ rfl
    exact .of hidle ((h.workers i).kid_of_idle hidle) hstarted rfl trivial fun hbusy =>
      absurd rfl hbusy
  | leave i =>
    obtain ⟨_, k, server, -, hk, hnone, hserver, rfl⟩ := leave_cases_class hroom
    obtain ⟨_, -, rfl⟩ := leave_cases hserver
    -- it has received no submission
    have hidle : s.exam i = .idle := by
      by_contra hbusy
      refine (h.workers i).submitted hbusy ?_
      rw [ExamRoom.submitted, hk]
      exact hnone
    refine h.update (i := i) hclass (fun _ hj => Function.update_of_ne hj _ _)
      (fun _ hj => Function.update_of_ne hj _ _) (fun _ _ => rfl) (fun _ _ => rfl) ?_ rfl
    exact .of hidle ((h.workers i).kid_of_idle hidle) (Function.update_self ..) rfl trivial
      fun hbusy => absurd rfl hbusy
  | record i _ =>
    obtain ⟨_, server, -, hserver, rfl⟩ := record_cases_class hroom
    obtain ⟨_, _, hmatched, rfl⟩ := record_cases_week hserver
    have hworker := (h.workers i).worker
    rw [hmatched] at hworker
    have hidle := hworker.exam_eq_idle rfl rfl
    rw [hidle] at hworker
    refine h.update (i := i) hclass (fun _ hj => Function.update_of_ne hj _ _) (fun _ _ => rfl)
      (fun _ _ => rfl) (fun _ _ => rfl) ?_ rfl
    exact .of hidle ((h.workers i).kid_of_idle hidle) (Function.update_self ..) rfl hworker
      fun hbusy => absurd rfl hbusy
  | reply i =>
    obtain ⟨_, k, _, g, _, _, _, server, -, hk, hchecked, hserver, rfl⟩ := reply_cases_class hroom
    obtain ⟨_, _, _, _, _, -, rfl⟩ := reply_cases hserver
    have hworker := (h.workers i).worker
    rw [hchecked] at hworker
    have hidle := hworker.exam_eq_idle rfl rfl
    rw [hidle, ExamRoom.source, hk] at hworker
    refine ⟨hclass, fun j => ?_, fun a ha => ?_⟩
    · by_cases hj : j = i
      · subst hj
        exact .of hidle ((h.workers j).kid_of_idle hidle) (Function.update_self ..) rfl trivial
          fun hbusy => absurd rfl hbusy
      · exact (h.workers j).frame (Function.update_of_ne hj _ _) (Function.update_of_ne hj _ _) rfl
          rfl
    · rcases List.mem_append.mp ha with hold | hnew
      · exact h.answers a hold
      · obtain rfl := List.mem_singleton.mp hnew
        exact hworker
  | week a =>
    exact h.week (Bool.eq_false_iff.mpr hgrades) hclass hroom

theorem ExamInv.step (s : ExamRoom) (a : ExamAction) (s' : ExamRoom)
    (h : ExamInv isspace outcome onDisk s) (hworld : Happens outcome onDisk s a)
    (hstep : examStep isspace s a = some s') : ExamInv isspace outcome onDisk s' := by
  cases a with
  | compile i t ok => exact h.compile hworld hstep
  | run i t ok => exact h.run hworld hstep
  | exits i => exact h.exits hstep
  | wait i taken => exact h.wait hstep
  | grade i => exact h.grade hstep
  | compare i expected_file => exact h.compare hworld hstep
  | program i text => exact hworld.elim
  | other a => exact h.other hworld hstep

end Steps

/-! ## What the client is shown -/

/-- A client is shown the grade of a run of its file, and what the run has consumed; of a part of
the file if a `write` to `source.c` has not taken all, and of no file if that could not be
opened. -/
def GradedAsSent (isspace : UInt8 → Bool) (outcome : Option Bytes → Trial → Prop)
    (onDisk : Bytes → Option Bytes → Prop) (file : Bytes) (a : Answer) : Prop :=
  a.OfFile file ∧ ∃ t expected_file,
    outcome a.source t ∧ Judged isspace onDisk { t with expected_file } a.g ∧
    ∀ g_status sock frag, ∃ r, recv_result g_status sock ⟨a.header.encode, frag⟩ = r ∧
      r.ok = true ∧
      r.g_status.last_result.str =
        grade_str (Trial.final isspace { t with expected_file }).1 ∧
      (r.out_res.exec_time_ms, r.out_res.memory_kb) =
        (Trial.final isspace { t with expected_file }).2

/-- An answer to a submission of the client is about its file. -/
theorem ExamInv.gradedAsSent {isspace : UInt8 → Bool} {outcome : Option Bytes → Trial → Prop}
    {onDisk : Bytes → Option Bytes → Prop} {s : ExamRoom} (h : ExamInv isspace outcome onDisk s)
    {a : Answer} (ha : a ∈ s.room.answers) {student_id filepath file : Bytes}
    (hsent : SentBy (wireOf s.room.wires a.sock) student_id filepath file) :
    GradedAsSent isspace outcome onDisk file a := by
  obtain ⟨t, hout, expected_file, hjudged⟩ := h.answers a ha
  have hown := h.classInv.answers a ha
  have hto := hown.answersTo hsent
  obtain ⟨k, -, -, -, -, task_hw, my_submit_count, tracker, hweek, hheader⟩ := hown
  refine ⟨hto.source, t, expected_file, hout, hjudged, fun g_status sock frag => ?_⟩
  refine ⟨_, rfl, ?_⟩
  rw [recv_result_encode, hheader]
  have hshown := showsResult_on_result_received hweek a.g my_submit_count tracker
  refine ⟨rfl, ?_, hjudged.consumed⟩
  rw [← hjudged.grade]
  exact hshown.last_result

/-- **Every client is shown the grade of its own file.**  Whatever the clients send, the programs do
and the professor switches to, in whatever order, as long as the queue does not overflow, no `fork`
fails and no program writes to the output of another: what a client of a submission is shown is the
grade of a run of what was received of its file, and if that was graded by its output, then by
comparing it with what was on the disk at the path of the answers of a week. -/
theorem graded_as_sent {isspace : UInt8 → Bool} {outcome : Option Bytes → Trial → Prop}
    {onDisk : Bytes → Option Bytes → Prop} {csv : CsvState} {disk : Disk} {as : List ExamAction}
    {s : ExamRoom}
    (hworld : Along (examStep isspace) (Happens outcome onDisk) (.initial csv disk) as)
    (hrun : exec (examStep isspace) (.initial csv disk) as = some s) :
    ∀ a ∈ s.room.answers, ∀ student_id filepath file,
      SentBy (wireOf s.room.wires a.sock) student_id filepath file →
      GradedAsSent isspace outcome onDisk file a := by
  intro a ha student_id filepath file hsent
  have hinv := invariant (examInv_initial csv disk) ExamInv.step hworld hrun
  exact hinv.gradedAsSent ha hsent

/-- This file prints `6`. -/
def printsSix (source : Option Bytes) (t : Trial) : Prop :=
  source = some (ascii "int main;") ∧ t.gcc = .exited 0 ∧ t.fate = .exited 0 ∧
    t.actual_file = some (ascii "6\n")

instance (source : Option Bytes) (t : Trial) : Decidable (printsSix source t) :=
  inferInstanceAs (Decidable (_ ∧ _))

/-- It is sent, run and compared with `6`. -/
def oneExam : List ExamAction :=
  let hdr := submitHeader (ascii "20240123") (ascii "hw/a.c") (ascii "int main;")
  let t := { someTrial with moments := [.tick 3000000], actual_file := some (ascii "6\n") }
  [.other (.connect (hdr.encode ++ ascii "int main;")), .other (.take 1),
    .other (.week (.snapshot 1)), .other (.receive 1 true true (fun _ => some 4095) fun _ => 0),
    .compile 1 t true, .exits 1, .wait 1 (some 1), .run 1 t true, .exits 1, .wait 1 (some 1),
    .grade 1, .compare 1 (some (ascii "6")), .other (.week (.check 1)), .other (.record 1 20),
    .other (.week (.write_csv 1 20 someTm (some 511))), .other (.reply 1)]

theorem graded_as_sent_six :
    ∃ s, exec (examStep fun c => IsSpace c) (.initial noCsv fun _ => none) oneExam = some s ∧
      ∃ a ∈ s.room.answers, a.g.grade = GRADE_AC ∧
        GradedAsSent (fun c => IsSpace c) printsSix (fun _ file => file = some (ascii "6"))
          (ascii "int main;") a := by
  have hend : (exec (examStep fun c => IsSpace c) (.initial noCsv fun _ => none) oneExam).map
      (fun s => (s.room.answers.map fun a => (a.sock, a.g.grade), s.room.wires)) =
      some ([(0, GRADE_AC)], [(submitHeader (ascii "20240123") (ascii "hw/a.c")
        (ascii "int main;")).encode ++ ascii "int main;"]) := by
    decide +kernel
  obtain ⟨s, hs, heq⟩ := Option.map_eq_some_iff.mp hend
  obtain ⟨hanswers, hwires⟩ := Prod.mk.inj heq
  obtain ⟨a, ha, hpair⟩ : ∃ a ∈ s.room.answers, (a.sock, a.g.grade) = (0, GRADE_AC) :=
    List.mem_map.mp (hanswers ▸ List.mem_singleton_self _)
  obtain ⟨hsock, hgrade⟩ := Prod.mk.inj hpair
  refine ⟨s, hs, a, ha, hgrade, graded_as_sent (by decide +kernel) hs a ha (ascii "20240123")
    (ascii "hw/a.c") (ascii "int main;") ⟨by decide +kernel, by decide, ?_⟩⟩
  rw [hsock, hwires]
  rfl

end MiniCi
