/-
# Week switches as single steps

The sequential reading of a week switch: a `WeekSpec` switches the week and resets the
tracker in one step, checks the week and records a submission in one step, and answers a
submission with the counters of its own week.  `Linearized` compares a state of the server
with one of these.
-/
import MiniCi.WeekServer

namespace MiniCi

open CStr

/-! ## The sequential server -/

/-- Where a worker is, when a submission is recorded at one instant. -/
inductive SpecWorker where
  | idle
  | started (task_hw : Buf MAX_WEEK_NAME)
  | graded (task_hw : Buf MAX_WEEK_NAME) (g : Graded)
  | recorded (task_hw : Buf MAX_WEEK_NAME) (g : Graded) (my_submit_count : UInt16)

/-- The state: the week and the tracker of that week, the workers, and a history of the
weeks switched to, the submissions recorded and the replies sent. -/
structure WeekSpec (n : ℕ) where
  week : Buf MAX_WEEK_NAME
  tracker : TrackerState
  workers : Fin n → SpecWorker
  switched : List (Buf MAX_WEEK_NAME)
  booked : List (Buf MAX_WEEK_NAME × Graded)
  replies : List Reply

def WeekSpec.initial (n : ℕ) : WeekSpec n :=
  { week := HwState.initial.current_hw, tracker := .initial, workers := fun _ => .idle
    switched := [], booked := [], replies := [] }

variable {n : ℕ}

/-- Worker `i` gets to `w`. -/
def WeekSpec.move (t : WeekSpec n) (i : Fin n) (w : SpecWorker) : WeekSpec n :=
  { t with workers := Function.update t.workers i w }

/-- A step of the sequential server. -/
inductive SpecAction (n : ℕ) where
  | set_hw (week_name : Bytes)
  | set_students (count : UInt16)
  | snapshot (i : Fin n)
  | leave (i : Fin n)
  | grade (i : Fin n) (g : Graded)
  | record (i : Fin n) (now : ℤ)
  | reply (i : Fin n)

/-- The step function.  A reply waits until the week is that of its submission. -/
def specStep (t : WeekSpec n) : SpecAction n → Option (WeekSpec n)
  | .set_hw week_name =>
    if ValidWeekName week_name then
      let week := (ctx_set_hw_paths week_name).current_hw
      some { t with week, tracker := ctx_set_hw_reset t.tracker, switched := t.switched ++ [week] }
    else some t
  | .set_students count => some { t with tracker := { t.tracker with total_students := count } }
  | .snapshot i =>
    match t.workers i with
    | .idle => some (t.move i (.started (.strncpy MAX_WEEK_NAME t.week.bytes)))
    | _ => none
  | .leave i =>
    match t.workers i with
    | .started _ => some (t.move i .idle)
    | _ => none
  | .grade i g =>
    match t.workers i with
    | .started task_hw => some (t.move i (.graded task_hw g))
    | _ => none
  | .record i now =>
    match t.workers i with
    | .graded task_hw g =>
      if t.week.str = task_hw.str then
        let (my_submit_count, tracker) :=
          ctx_record_submission t.tracker g.hdr.student_id.bytes g.grade now
        some { t.move i (.recorded task_hw g my_submit_count) with
          tracker, booked := t.booked ++ [(task_hw, g)] }
      else some (t.move i (.recorded task_hw g 0))
    | _ => none
  | .reply i =>
    match t.workers i with
    | .recorded task_hw g my_submit_count =>
      if t.week.str = task_hw.str then
        some { t.move i .idle with
          replies := t.replies ++
            [⟨resultHeader task_hw g my_submit_count t.tracker, g.expected_path⟩] }
      else none
    | _ => none

/-- The run of the sequential server `t` leaves the same tracker as the server, after the
same completed switches, the same records and the same replies, in the same orders. -/
structure Linearized (s : WeekServer n) (t : WeekSpec n) : Prop where
  tracker : t.tracker = s.tracker
  switched : t.switched = s.switched
  booked : t.booked = s.booked
  replies : t.replies = s.replies

/-- The server is in a state that some sequential execution gets to. -/
def Linearizable (s : WeekServer n) : Prop :=
  ∃ bs t, Runs.exec specStep (.initial n) bs = some t ∧ Linearized s t

end MiniCi
