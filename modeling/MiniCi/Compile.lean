/-
# The compile stage of `handle_client`

`handle_client` forks `gcc` with both its outputs redirected to a pipe, closes its own write
end, waits for `gcc` to exit, and only then reads up to 255 bytes of what `gcc` has written.
A pipe holds a fixed number of bytes, and `gcc` blocks while it is full; so the two wait for
each other as soon as `gcc` writes more than fits (`never_deadlocks_iff`).
-/
import MiniCi.Pipes
import MiniCi.Runs

namespace MiniCi

open Pipes

/-! ## State -/

/-- The processes of the compile stage. -/
inductive CompileProc where
  | worker
  | gcc
  deriving DecidableEq

/-- Where `handle_client` is: before `fork`, after it, in `waitpid`, after it, and behind the
compile stage, with `err_msg` when the compilation has failed. -/
inductive CompileAt where
  | piped | forked | waiting
  | reaped (status : UInt8)
  | done (err_msg : Option (List UInt8))
  deriving DecidableEq

/-- Where `gcc` is; `writing` knows what is still to be written. -/
inductive GccAt where
  | unborn
  | writing (rest : List UInt8)
  | exited
  deriving DecidableEq

/-- A run of the compiler: what it writes to its two outputs, and its exit code. -/
structure Compiler where
  output : List UInt8
  status : UInt8

/-- The pipe, the worker and the compiler. -/
structure CompileStage where
  pipefd : Pipe CompileProc
  worker : CompileAt
  gcc : GccAt

/-- After `pipe(pipefd)`. -/
def CompileStage.initial : CompileStage :=
  { pipefd := .connect .worker .worker, worker := .piped, gcc := .unborn }

/-! ## Steps -/

/-- A step of the worker or of the compiler. -/
inductive CompileAction where
  /-- `fork` -/
  | fork
  /-- `close(pipefd[1])`, on to `waitpid` -/
  | closeWrite
  /-- `waitpid` returns -/
  | reap
  /-- `read` of the error message, or on to the execution -/
  | finish
  /-- the compiler: `close(pipefd[0])` -/
  | gccCloseRead
  /-- the pipe takes `k` bytes -/
  | gccWrite (k : ℕ)
  /-- the compiler exits -/
  | gccExit
  deriving DecidableEq

/-- One step, with a pipe that holds up to `cap` bytes. -/
def compileStep (cap : ℕ) (gcc : Compiler) (s : CompileStage) :
    CompileAction → Option CompileStage
  | .fork =>
    if s.worker = .piped then
      some { pipefd := s.pipefd.fork .worker .gcc, worker := .forked, gcc := .writing gcc.output }
    else none
  | .closeWrite =>
    if s.worker = .forked then
      some { s with pipefd := s.pipefd.closeWrite .worker, worker := .waiting }
    else none
  | .reap =>
    if s.worker = .waiting ∧ s.gcc = .exited then some { s with worker := .reaped gcc.status }
    else none
  | .finish =>
    match s.worker with
    | .reaped status =>
      if status ≠ 0 then
        (s.pipefd.read 255).map fun (err_msg, q) =>
          { s with pipefd := q.closeRead .worker, worker := .done (some err_msg) }
      else some { s with pipefd := s.pipefd.closeRead .worker, worker := .done none }
    | _ => none
  | .gccCloseRead =>
    match s.gcc with
    | .writing _ => some { s with pipefd := s.pipefd.closeRead .gcc }
    | _ => none
  | .gccWrite k =>
    match s.gcc with
    | .writing rest =>
      -- a write blocks while the pipe is full
      if 0 < k ∧ k ≤ rest.length ∧ s.pipefd.buf.length + k ≤ cap then
        (s.pipefd.write (rest.take k)).map fun q =>
          { s with pipefd := q, gcc := .writing (rest.drop k) }
      else none
    | _ => none
  | .gccExit =>
    if s.gcc = .writing [] then some { s with pipefd := s.pipefd.exit .gcc, gcc := .exited }
    else none

/-! ## The property -/

/-- The compiler is blocked on the full pipe. -/
def CompileStage.GccBlocked (cap : ℕ) (s : CompileStage) : Prop :=
  cap ≤ s.pipefd.buf.length ∧ ∃ rest, rest ≠ [] ∧ s.gcc = .writing rest

/-- The worker waits for a compiler that waits for the worker. -/
def CompileStage.Deadlock (cap : ℕ) (s : CompileStage) : Prop :=
  s.GccBlocked cap ∧ s.worker = .waiting

/-- No interleaving gets to a deadlock. -/
def NeverDeadlocks (cap : ℕ) (gcc : Compiler) : Prop :=
  ∀ as, Runs.Always (compileStep cap gcc) (fun s => ¬ s.Deadlock cap) .initial as

/-- A deadlock is for good: the compiler may still close its read end, and nothing else. -/
theorem deadlock_stuck {cap : ℕ} {gcc : Compiler} {s s' : CompileStage} {a : CompileAction}
    (h : s.Deadlock cap) (hstep : compileStep cap gcc s a = some s') : s'.Deadlock cap := by
  obtain ⟨⟨hfull, rest, hne, hgcc⟩, hworker⟩ := h
  cases a with
  | fork => simp [compileStep, hworker] at hstep
  | closeWrite => simp [compileStep, hworker] at hstep
  | reap => simp [compileStep, hgcc] at hstep
  | finish => simp [compileStep, hworker] at hstep
  | gccCloseRead =>
    simp only [compileStep, hgcc, Option.some.injEq] at hstep
    subst hstep
    exact ⟨⟨hfull, rest, hne, rfl⟩, hworker⟩
  | gccWrite k =>
    have hblocked : ¬ (0 < k ∧ k ≤ rest.length ∧ s.pipefd.buf.length + k ≤ cap) := by omega
    simp only [compileStep, hgcc, if_neg hblocked] at hstep
    cases hstep
  | gccExit => simp [compileStep, hgcc, hne] at hstep

/-! ## Output that fits -/

/-- `waitpid` has returned. -/
def CompileAt.Waited : CompileAt → Prop
  | .reaped _ => True
  | .done _ => True
  | _ => False

/-- As long as the compiler runs, the worker has not read, and what the compiler has written
is in the pipe. -/
structure CompileInv (gcc : Compiler) (s : CompileStage) : Prop where
  piped : s.worker = .piped → s.gcc = .unborn ∧ s.pipefd.buf = []
  waited : s.worker.Waited → s.gcc = .exited
  written : ∀ rest, s.gcc = .writing rest →
    s.pipefd.buf.length + rest.length = gcc.output.length

theorem compileInv_initial (gcc : Compiler) : CompileInv gcc .initial :=
  ⟨fun _ => ⟨rfl, rfl⟩, fun h => absurd h id, fun _ h => nomatch h⟩

/-- Every step keeps the bytes written and the bytes to be written together. -/
theorem compileInv_step {cap : ℕ} {gcc : Compiler} (s : CompileStage) (a : CompileAction)
    (s' : CompileStage) (h : CompileInv gcc s) (hstep : compileStep cap gcc s a = some s') :
    CompileInv gcc s' := by
  obtain ⟨hpiped, hwaited, hwritten⟩ := h
  cases a with
  | fork =>
    simp only [compileStep] at hstep
    split_ifs at hstep with hat
    obtain rfl := Option.some.inj hstep
    refine ⟨by simp, fun h => absurd h id, ?_⟩
    intro rest hrest
    obtain rfl := GccAt.writing.inj hrest
    have hnil := (hpiped hat).2
    simp [Pipe.fork, hnil]
  | closeWrite =>
    simp only [compileStep] at hstep
    split_ifs at hstep
    obtain rfl := Option.some.inj hstep
    exact ⟨by simp, fun h => absurd h id, hwritten⟩
  | reap =>
    simp only [compileStep] at hstep
    split_ifs at hstep with hat
    obtain rfl := Option.some.inj hstep
    exact ⟨by simp, fun _ => hat.2, hwritten⟩
  | finish =>
    simp only [compileStep] at hstep
    split at hstep
    · rename_i status hreaped
      -- the worker reads when the compiler has exited
      have hexited : s.gcc = .exited := hwaited (by rw [hreaped]; trivial)
      have hnot : ∀ rest, s.gcc ≠ .writing rest := by simp [hexited]
      split_ifs at hstep
      · obtain ⟨⟨err_msg, q⟩, -, rfl⟩ := Option.map_eq_some_iff.mp hstep
        exact ⟨by simp, fun _ => hexited, fun rest hrest => absurd hrest (hnot rest)⟩
      · obtain rfl := Option.some.inj hstep
        exact ⟨by simp, fun _ => hexited, fun rest hrest => absurd hrest (hnot rest)⟩
    · cases hstep
  | gccCloseRead =>
    simp only [compileStep] at hstep
    split at hstep
    · obtain rfl := Option.some.inj hstep
      exact ⟨hpiped, hwaited, hwritten⟩
    · cases hstep
  | gccWrite k =>
    simp only [compileStep] at hstep
    split at hstep
    · rename_i rest hgcc
      split_ifs at hstep with hroom
      obtain ⟨q, hq, rfl⟩ := Option.map_eq_some_iff.mp hstep
      have hbuf := Pipe.buf_write hq
      refine ⟨?_, ?_, ?_⟩
      · intro hat
        have hunborn := (hpiped hat).1
        rw [hgcc] at hunborn
        cases hunborn
      · intro hat
        have hexited := hwaited hat
        rw [hgcc] at hexited
        cases hexited
      · intro rest' hrest
        obtain rfl := GccAt.writing.inj hrest
        have hlen := hwritten rest hgcc
        rw [hbuf, List.length_append, List.length_take, List.length_drop]
        omega
    · cases hstep
  | gccExit =>
    simp only [compileStep] at hstep
    split_ifs at hstep with hgcc
    obtain rfl := Option.some.inj hstep
    refine ⟨?_, fun _ => rfl, by simp⟩
    intro hat
    have hunborn := (hpiped hat).1
    rw [hgcc] at hunborn
    cases hunborn

/-- A pipe that holds all of the output is never full while there is more. -/
theorem CompileInv.not_deadlock {cap : ℕ} {gcc : Compiler} {s : CompileStage}
    (h : CompileInv gcc s) (hfits : gcc.output.length ≤ cap) : ¬ s.Deadlock cap := by
  rintro ⟨⟨hfull, rest, hne, hgcc⟩, -⟩
  have hlen := h.written rest hgcc
  have hpos : 0 < rest.length := List.length_pos_iff.mpr hne
  omega

/-! ## Output that does not fit -/

/-- The worker gets to `waitpid` before the compiler has written anything. -/
theorem exec_to_waiting (cap : ℕ) (gcc : Compiler) :
    Runs.exec (compileStep cap gcc) .initial [.fork, .closeWrite] =
      some { pipefd := ⟨[], {.gcc, .worker}, {.gcc}⟩, worker := .waiting
             gcc := .writing gcc.output } := by
  have hwriters : ({.gcc, .worker} : Finset CompileProc).erase .worker = {.gcc} := by decide
  simp [Runs.exec, compileStep, CompileStage.initial, Pipe.connect, Pipe.fork, Pipe.closeWrite,
    hwriters]

/-- A compiler that writes more than the pipe holds fills it while the worker waits. -/
theorem deadlock_of_overflow {cap : ℕ} {gcc : Compiler} (h : cap < gcc.output.length) :
    ∃ as s, Runs.exec (compileStep cap gcc) .initial as = some s ∧ s.Deadlock cap := by
  rcases Nat.eq_zero_or_pos cap with rfl | hpos
  · refine ⟨_, _, exec_to_waiting 0 gcc, ⟨Nat.le_refl 0, gcc.output, ?_, rfl⟩, rfl⟩
    exact List.length_pos_iff.mp h
  · have hroom : 0 < cap ∧ cap ≤ gcc.output.length ∧ 0 + cap ≤ cap := by omega
    have hlen : (gcc.output.take cap).length = cap := by
      rw [List.length_take]
      omega
    have hmore : gcc.output.drop cap ≠ [] := by
      rw [Ne, List.drop_eq_nil_iff]
      omega
    refine ⟨[.fork, .closeWrite] ++ [.gccWrite cap],
      { pipefd := ⟨gcc.output.take cap, {.gcc, .worker}, {.gcc}⟩, worker := .waiting
        gcc := .writing (gcc.output.drop cap) }, ?_, ⟨?_, _, hmore, rfl⟩, rfl⟩
    · rw [Runs.exec_concat_eq_some]
      refine ⟨_, exec_to_waiting cap gcc, ?_⟩
      simp only [compileStep, List.length_nil, if_pos hroom]
      rfl
    · show cap ≤ (gcc.output.take cap).length
      omega

/-- **The compile stage never deadlocks iff the pipe holds all of the output.**  For every
capacity of the pipe and every compiler, no interleaving of the worker with the compiler gets
to a state in which the compiler is blocked on the full pipe and the worker in `waitpid` if
and only if what the compiler writes in all is no more than the pipe holds. -/
theorem never_deadlocks_iff (cap : ℕ) (gcc : Compiler) :
    NeverDeadlocks cap gcc ↔ gcc.output.length ≤ cap := by
  constructor
  · intro h
    by_contra hover
    obtain ⟨as, s, hrun, hdead⟩ := deadlock_of_overflow (Nat.lt_of_not_le hover)
    exact (h as).at_end s hrun hdead
  · intro hfits as
    have hinv : Runs.Always (compileStep cap gcc) (CompileInv gcc) .initial as := by
      intro pre _ s hrun
      exact Runs.invariant_of_step (compileInv_initial gcc) compileInv_step hrun
    exact hinv.imp fun s hs => hs.not_deadlock hfits

/-- One byte more than a pipe of 64 KiB holds. -/
theorem deadlock_of_65537 : ¬ NeverDeadlocks 65536 ⟨List.replicate 65537 10, 1⟩ := by
  intro h
  have hover : 65536 < (Compiler.mk (List.replicate 65537 10) 1).output.length := by
    rw [List.length_replicate]
    omega
  obtain ⟨as, s, hrun, hdead⟩ := deadlock_of_overflow hover
  exact (h as).at_end s hrun hdead

end MiniCi
