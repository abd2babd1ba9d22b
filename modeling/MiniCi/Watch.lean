/-
# Watch mode (`inotify_watch.c`)

`inotify_watch` grades the files once, and then each time they have been saved and nothing has
been saved for `DEBOUNCE_MS` after it.  Its loop waits with `epoll` for two descriptors.  When
inotify has events it reads them and arms the timer; when the timer has expired it reads the
timer and runs the client.

`epoll_wait` reports the descriptors that are readable when it returns, in any order, and the loop
handles one after the other.  So what has been reported of the second need not hold any more when
its turn comes.  `watchStep` has one step for each thing the loop does, and between any two of
them files are saved, the timer expires, or the user presses Ctrl+C.
-/
import MiniCi.CStr
import MiniCi.History

namespace MiniCi

open CStr

/-! ## The two descriptors -/

/-- The descriptors that `epoll` watches. -/
inductive Fd where
  | ifd | tfd
  deriving DecidableEq

/-- A one-shot timer: what `tfd` stands for.  `expired` while the expiration has not been read. -/
inductive Timer where
  | disarmed | armed | expired
  deriving DecidableEq

/-- `arm_debounce`: `timerfd_settime` sets the timer anew and forgets an unread expiration. -/
def arm_debounce (_ : Timer) : Timer := .armed

/-- `read(tfd, &expirations, ..)`: the number of expirations, `none` for `EAGAIN`. -/
def Timer.read : Timer → Option ℕ × Timer
  | .expired => (some 1, .disarmed)
  | t => (none, t)

/-- `struct inotify_event`: the fields that the loop looks at.  The name has at most `NAME_MAX`
bytes and is padded. -/
structure InotifyEvent where
  wd : ℤ
  name : Bytes
  length_name : name.length ≤ 256
  deriving DecidableEq

/-- `sizeof(struct inotify_event) + ie->len`. -/
def InotifyEvent.size (e : InotifyEvent) : ℕ := 16 + e.name.length

def EVENT_BUF_LEN : ℕ := 10 * (16 + 256)

/-- `read(ifd, buf, room)`: as many events as fit, and what stays in the queue. -/
def readEvents : ℕ → List InotifyEvent → List InotifyEvent × List InotifyEvent
  | _, [] => ([], [])
  | room, e :: queue =>
    if e.size ≤ room then
      let (events, rest) := readEvents (room - e.size) queue
      (e :: events, rest)
    else ([], e :: queue)

/-! ## The loop -/

/-- An entry of `watches`. -/
structure WatchEntry where
  wd : ℤ
  path : Bytes
  deriving DecidableEq

/-- Where the loop is.  In front of `epoll_wait` it has no entry of `events` left to handle. -/
inductive WatchAt where
  /-- the entries of `events` still to handle -/
  | handling (rest : List Fd)
  /-- inotify has been read, `arm_debounce` is next -/
  | arming (rest : List Fd)
  /-- in `run_client`, the client is running -/
  | grading (rest : List Fd)
  /-- behind the loop -/
  | left
  deriving DecidableEq

/-- The program and its descriptors: the events not read yet, the timer, and the texts printed
before each grading, without the time. -/
structure Watcher where
  g_running : Bool
  loc : WatchAt
  queue : List InotifyEvent
  timer : Timer
  changed_file : Buf 256
  notices : List Bytes
  deriving DecidableEq

/-- The first grading has been started. -/
def Watcher.initial : Watcher :=
  { g_running := true, loc := .grading [], queue := [], timer := .disarmed
    changed_file := .zero 256, notices := [] }

/-- What `epoll` reports. -/
def Watcher.Ready (s : Watcher) : Fd → Prop
  | .ifd => s.queue ≠ []
  | .tfd => s.timer = .expired

instance (s : Watcher) : DecidablePred s.Ready
  | .ifd => inferInstanceAs (Decidable (_ ≠ _))
  | .tfd => inferInstanceAs (Decidable (_ = _))

/-- `epoll_wait` returns readable descriptors, each once, and none only when there is none. -/
def Watcher.Reports (s : Watcher) (events : List Fd) : Prop :=
  events.Nodup ∧ (∀ fd ∈ events, s.Ready fd) ∧ (events = [] → ¬ s.Ready .ifd ∧ ¬ s.Ready .tfd)

instance (s : Watcher) (events : List Fd) : Decidable (s.Reports events) :=
  inferInstanceAs (Decidable (_ ∧ _ ∧ _))

/-- The loop over `watches` for an event: the path of the file is noted. -/
def noteEvent (watches : List WatchEntry) (changed_file : Buf 256) (ie : InotifyEvent) : Buf 256 :=
  match watches.find? fun w => w.wd = ie.wd with
  | some w => .ofStr 255 w.path
  | none => changed_file

/-- What is printed before a grading. -/
def gradingNotice (changed_file : Buf 256) : Bytes :=
  if changed_file.str ≠ [] then
    ascii " \x1b[1;33m" ++ changed_file.str ++ ascii "\x1b[0m" ++ utf8 " 변경 감지 → 채점 시작...\n\n"
  else utf8 " 변경 감지 → 채점 시작...\n\n"

/-- A step: of the kernel and the user, or of the loop. -/
inductive WatchAction where
  /-- an inotify event; one that equals the last unread one is merged with it and is none -/
  | change (ie : InotifyEvent)
  | expire
  | sigint
  /-- the loop: `epoll_wait` returns `events`; `events` is read from `ifd`; the timer is armed;
  `tfd` is read and the client is started; the client has ended; `g_running` is 0 -/
  | epoll_wait (events : List Fd)
  | read_ifd (events : List InotifyEvent)
  | arm_debounce
  | run_client
  | client_exit
  | leave
  deriving DecidableEq

/-- One step of watch mode. -/
def watchStep (watches : List WatchEntry) (s : Watcher) : WatchAction → Option Watcher
  | .change ie => some { s with queue := s.queue ++ [ie] }
  | .expire => if s.timer = .armed then some { s with timer := .expired } else none
  | .sigint => some { s with g_running := false }
  | .epoll_wait events =>
    if s.loc = .handling [] ∧ s.g_running = true ∧ s.Reports events then
      some { s with loc := .handling events }
    else none
  | .read_ifd events =>
    match s.loc with
    | .handling (.ifd :: rest) =>
      if events = (readEvents EVENT_BUF_LEN s.queue).1 then
        -- `if (len <= 0) continue;`
        if events = [] then some { s with loc := .handling rest }
        else some { s with
          loc := .arming rest, queue := (readEvents EVENT_BUF_LEN s.queue).2
          changed_file := events.foldl (noteEvent watches) s.changed_file }
      else none
    | _ => none
  | .arm_debounce =>
    match s.loc with
    | .arming rest => some { s with loc := .handling rest, timer := MiniCi.arm_debounce s.timer }
    | _ => none
  | .run_client =>
    match s.loc with
    | .handling (.tfd :: rest) =>
      -- what the `read` returns is not looked at
      some { s with
        loc := .grading rest, timer := s.timer.read.2
        notices := s.notices ++ [gradingNotice s.changed_file] }
    | _ => none
  | .client_exit =>
    match s.loc with
    | .grading rest => some { s with loc := .handling rest, changed_file := s.changed_file.clear }
    | _ => none
  | .leave =>
    if s.loc = .handling [] ∧ s.g_running = false then some { s with loc := .left } else none

/-! ## What a step does -/

/-- The steps of watch mode, one constructor for each way a step can go. -/
inductive Watched (watches : List WatchEntry) (s : Watcher) : WatchAction → Watcher → Prop
  | change (ie : InotifyEvent) :
      Watched watches s (.change ie) { s with queue := s.queue ++ [ie] }
  | expire (htimer : s.timer = .armed) :
      Watched watches s .expire { s with timer := .expired }
  | sigint : Watched watches s .sigint { s with g_running := false }
  | epoll_wait {events : List Fd} (hloc : s.loc = .handling []) (hrunning : s.g_running = true)
      (hreports : s.Reports events) :
      Watched watches s (.epoll_wait events) { s with loc := .handling events }
  | read_nothing {rest : List Fd} (hloc : s.loc = .handling (.ifd :: rest))
      (hread : (readEvents EVENT_BUF_LEN s.queue).1 = []) :
      Watched watches s (.read_ifd []) { s with loc := .handling rest }
  | read_ifd {rest : List Fd} {events : List InotifyEvent} (hloc : s.loc = .handling (.ifd :: rest))
      (hread : (readEvents EVENT_BUF_LEN s.queue).1 = events) (hne : events ≠ []) :
      Watched watches s (.read_ifd events) { s with
        loc := .arming rest, queue := (readEvents EVENT_BUF_LEN s.queue).2
        changed_file := events.foldl (noteEvent watches) s.changed_file }
  | arm_debounce {rest : List Fd} (hloc : s.loc = .arming rest) :
      Watched watches s .arm_debounce { s with loc := .handling rest, timer := .armed }
  | run_client {rest : List Fd} (hloc : s.loc = .handling (.tfd :: rest)) :
      Watched watches s .run_client { s with
        loc := .grading rest, timer := s.timer.read.2
        notices := s.notices ++ [gradingNotice s.changed_file] }
  | client_exit {rest : List Fd} (hloc : s.loc = .grading rest) :
      Watched watches s .client_exit { s with
        loc := .handling rest, changed_file := s.changed_file.clear }
  | leave (hloc : s.loc = .handling []) (hrunning : s.g_running = false) :
      Watched watches s .leave { s with loc := .left }

variable {watches : List WatchEntry} {s s' : Watcher} {a : WatchAction}

theorem watched_of_step (h : watchStep watches s a = some s') : Watched watches s a s' := by
  cases a with
  | change ie =>
    obtain rfl := Option.some.inj h
    exact .change ie
  | expire =>
    simp only [watchStep] at h
    split_ifs at h with htimer
    obtain rfl := Option.some.inj h
    exact .expire htimer
  | sigint =>
    obtain rfl := Option.some.inj h
    exact .sigint
  | epoll_wait events =>
    simp only [watchStep] at h
    split_ifs at h with hwait
    obtain rfl := Option.some.inj h
    exact .epoll_wait hwait.1 hwait.2.1 hwait.2.2
  | read_ifd events =>
    simp only [watchStep] at h
    split at h
    · next rest hloc =>
      split_ifs at h with hread hempty
      · obtain rfl := Option.some.inj h
        subst hempty
        exact .read_nothing hloc hread.symm
      · obtain rfl := Option.some.inj h
        exact .read_ifd hloc hread.symm hempty
    · cases h
  | arm_debounce =>
    simp only [watchStep] at h
    split at h
    · next rest hloc =>
      obtain rfl := Option.some.inj h
      exact .arm_debounce hloc
    · cases h
  | run_client =>
    simp only [watchStep] at h
    split at h
    · next rest hloc =>
      obtain rfl := Option.some.inj h
      exact .run_client hloc
    · cases h
  | client_exit =>
    simp only [watchStep] at h
    split at h
    · next rest hloc =>
      obtain rfl := Option.some.inj h
      exact .client_exit hloc
    · cases h
  | leave =>
    simp only [watchStep] at h
    split_ifs at h with hleave
    obtain rfl := Option.some.inj h
    exact .leave hleave.1 hleave.2

/-! ## The queue -/

theorem readEvents_append (room : ℕ) (queue : List InotifyEvent) :
    (readEvents room queue).1 ++ (readEvents room queue).2 = queue := by
  induction queue generalizing room with
  | nil => rfl
  | cons e queue ih =>
    rw [readEvents]
    split_ifs with hfits
    · exact congrArg (e :: ·) (ih _)
    · rfl

/-- There is room for one event. -/
theorem readEvents_ne_nil {queue : List InotifyEvent} (h : queue ≠ []) :
    (readEvents EVENT_BUF_LEN queue).1 ≠ [] := by
  cases queue with
  | nil => exact absurd rfl h
  | cons e queue =>
    have hfits : e.size ≤ EVENT_BUF_LEN := by
      have hname := e.length_name
      rw [InotifyEvent.size, EVENT_BUF_LEN]
      omega
    rw [readEvents, if_pos hfits]
    exact List.cons_ne_nil _ _

/-- The event that a step queues. -/
def WatchAction.queued : WatchAction → List InotifyEvent
  | .change ie => [ie]
  | _ => []

/-- The events that a step reads. -/
def WatchAction.taken : WatchAction → List InotifyEvent
  | .read_ifd events => events
  | _ => []

/-- **No event is lost**: the loop reads them in the order in which they have come. -/
theorem queued_eq {past : List WatchAction}
    (hrun : Runs.exec (watchStep watches) .initial past = some s) :
    past.flatMap WatchAction.queued = past.flatMap WatchAction.taken ++ s.queue := by
  refine Runs.invariant_of_history (Q := fun past (s : Watcher) =>
    past.flatMap WatchAction.queued = past.flatMap WatchAction.taken ++ s.queue) rfl ?_ hrun
  intro past u a u' _ ih hstep
  rw [List.flatMap_append, List.flatMap_append, List.flatMap_singleton, List.flatMap_singleton, ih]
  cases watched_of_step hstep with
  | read_ifd hloc hread hne =>
    subst hread
    simp [WatchAction.queued, WatchAction.taken, readEvents_append]
  | _ => simp [WatchAction.queued, WatchAction.taken]

/-! ## What is printed -/

/-- A name that may be in `changed_file`: none, or the path of a file that is watched. -/
def NamesWatched (watches : List WatchEntry) (name : Bytes) : Prop :=
  name = [] ∨ ∃ w ∈ watches, name = (str w.path).take 255

theorem namesWatched_noteEvent {changed_file : Buf 256} (h : NamesWatched watches changed_file.str)
    (ie : InotifyEvent) : NamesWatched watches (noteEvent watches changed_file ie).str := by
  unfold noteEvent
  split
  · next w hw => exact .inr ⟨w, List.mem_of_find?_eq_some hw, Buf.str_ofStr 255 w.path⟩
  · exact h

theorem namesWatched_foldl {changed_file : Buf 256} (h : NamesWatched watches changed_file.str)
    (events : List InotifyEvent) :
    NamesWatched watches (events.foldl (noteEvent watches) changed_file).str := by
  induction events generalizing changed_file with
  | nil => exact h
  | cons ie events ih => exact ih (namesWatched_noteEvent h ie)

/-- **A grading is announced with a file that is watched**, or with none. -/
theorem notices_of_run {run : List WatchAction}
    (hrun : Runs.exec (watchStep watches) .initial run = some s) :
    ∀ notice ∈ s.notices,
      ∃ name : Buf 256, NamesWatched watches name.str ∧ notice = gradingNotice name := by
  refine (Runs.invariant_of_step (Q := fun s : Watcher =>
    NamesWatched watches s.changed_file.str ∧ ∀ notice ∈ s.notices,
      ∃ name : Buf 256, NamesWatched watches name.str ∧ notice = gradingNotice name)
    ⟨.inl (Buf.str_zero 256), fun notice h => absurd h List.not_mem_nil⟩ ?_ hrun).2
  rintro u a u' ⟨hname, hnotices⟩ hstep
  cases watched_of_step hstep with
  | read_ifd => exact ⟨namesWatched_foldl hname _, hnotices⟩
  | run_client =>
    refine ⟨hname, fun notice hmem => ?_⟩
    rcases List.mem_append.mp hmem with hold | hnew
    · exact hnotices notice hold
    · exact ⟨u.changed_file, hname, List.mem_singleton.mp hnew⟩
  | client_exit => exact ⟨.inl (Buf.str_clear _), hnotices⟩
  | _ => exact ⟨hname, hnotices⟩

end MiniCi
