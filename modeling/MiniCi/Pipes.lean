/-
# Pipes and the processes that hold them

A pipe, or one direction of a stream socket, is the bytes in it and the processes that hold
its two ends.  `fork` lets a child hold what its parent holds, `exit` lets go of both ends.
Writing without a reader is an error (and `SIGPIPE` for the writer); reading blocks while
the pipe is empty and somebody could still write.

`SameFor x q q'` says that the process `x` sees no difference between `q` and `q'`.
-/
import Mathlib.Data.Finset.Insert
import Mathlib.Data.Finset.Erase

namespace Pipes

/-- The bytes in a pipe and the holders of its ends. -/
structure Pipe (ρ : Type*) where
  buf : List UInt8
  readers : Finset ρ
  writers : Finset ρ

namespace Pipe

variable {ρ : Type*} [DecidableEq ρ]

/-- A pipe nobody holds. -/
def closed : Pipe ρ := ⟨[], ∅, ∅⟩

/-- A new pipe with one writer and one reader. -/
def connect (writer reader : ρ) : Pipe ρ := ⟨[], {reader}, {writer}⟩

/-- `close` of the read end. -/
def closeRead (q : Pipe ρ) (p : ρ) : Pipe ρ := { q with readers := q.readers.erase p }

/-- `close` of the write end. -/
def closeWrite (q : Pipe ρ) (p : ρ) : Pipe ρ := { q with writers := q.writers.erase p }

/-- The process `p` ends. -/
def exit (q : Pipe ρ) (p : ρ) : Pipe ρ := (q.closeRead p).closeWrite p

/-- `parent` forks `child`. -/
def fork (q : Pipe ρ) (parent child : ρ) : Pipe ρ :=
  { q with
    readers := if parent ∈ q.readers then insert child q.readers else q.readers
    writers := if parent ∈ q.writers then insert child q.writers else q.writers }

/-- `write`; `none` is `EPIPE`. -/
def write (q : Pipe ρ) (data : List UInt8) : Option (Pipe ρ) :=
  if q.readers = ∅ then none else some { q with buf := q.buf ++ data }

/-- `read` of at most `len` bytes; `none` while it blocks, no bytes at the end. -/
def read (q : Pipe ρ) (len : ℕ) : Option (List UInt8 × Pipe ρ) :=
  if q.buf = [] ∧ q.writers ≠ ∅ then none
  else some (q.buf.take len, { q with buf := q.buf.drop len })

/-- Reading an empty pipe that somebody can write to blocks. -/
theorem read_eq_none {q : Pipe ρ} (hbuf : q.buf = []) {p : ρ} (hp : p ∈ q.writers) (len : ℕ) :
    q.read len = none :=
  if_pos ⟨hbuf, Finset.ne_empty_of_mem hp⟩

/-- `read` blocks iff the pipe is empty and somebody can write. -/
theorem read_eq_none_iff {q : Pipe ρ} {len : ℕ} :
    q.read len = none ↔ q.buf = [] ∧ q.writers ≠ ∅ := by
  unfold read
  split_ifs with hblocks <;> simp [hblocks]

/-- A `read` that returns takes bytes off the pipe, or finds it closed for writing. -/
theorem read_eq_some {q q' : Pipe ρ} {len : ℕ} {data : List UInt8}
    (h : q.read len = some (data, q')) :
    data = q.buf.take len ∧ q' = { q with buf := q.buf.drop len } ∧
      (q.buf ≠ [] ∨ q.writers = ∅) := by
  unfold read at h
  split_ifs at h with hblocks
  obtain ⟨rfl, rfl⟩ := Prod.mk.inj (Option.some.inj h)
  exact ⟨rfl, rfl, by tauto⟩

/-- Writing to a pipe with a reader succeeds. -/
theorem write_eq_some {q : Pipe ρ} {p : ρ} (hp : p ∈ q.readers) (data : List UInt8) :
    q.write data = some { q with buf := q.buf ++ data } :=
  if_neg (Finset.ne_empty_of_mem hp)

/-- What is written comes behind what is in the pipe. -/
theorem buf_write {q q' : Pipe ρ} {data : List UInt8} (h : q.write data = some q') :
    q'.buf = q.buf ++ data := by
  unfold write at h
  split_ifs at h
  rw [← Option.some.inj h]

theorem writers_write {q q' : Pipe ρ} {data : List UInt8} (h : q.write data = some q') :
    q'.writers = q.writers := by
  unfold write at h
  split_ifs at h
  rw [← Option.some.inj h]

/-- A fork takes no read end from anybody. -/
theorem mem_readers_fork {q : Pipe ρ} {x : ρ} (hx : x ∈ q.readers) (parent child : ρ) :
    x ∈ (q.fork parent child).readers := by
  unfold fork
  show x ∈ if parent ∈ q.readers then insert child q.readers else q.readers
  split_ifs
  · exact Finset.mem_insert_of_mem hx
  · exact hx

/-- A fork takes no write end from anybody. -/
theorem mem_writers_fork {q : Pipe ρ} {x : ρ} (hx : x ∈ q.writers) (parent child : ρ) :
    x ∈ (q.fork parent child).writers := by
  unfold fork
  show x ∈ if parent ∈ q.writers then insert child q.writers else q.writers
  split_ifs
  · exact Finset.mem_insert_of_mem hx
  · exact hx

/-- The child of a reader is a reader. -/
theorem child_reads {q : Pipe ρ} {parent : ρ} (hparent : parent ∈ q.readers) (child : ρ) :
    child ∈ (q.fork parent child).readers := by
  simp [fork, hparent]

end Pipe

/-! ## What a process sees -/

variable {ρ : Type*}

/-- From `q` to `q'`, the bytes stay, and `x` holds what it held. -/
structure SameFor (x : ρ) (q q' : Pipe ρ) : Prop where
  buf : q'.buf = q.buf
  readers : x ∈ q'.readers ↔ x ∈ q.readers
  writers : x ∈ q'.writers ↔ x ∈ q.writers

theorem sameFor_refl (x : ρ) (q : Pipe ρ) : SameFor x q q := ⟨rfl, Iff.rfl, Iff.rfl⟩

variable [DecidableEq ρ]

theorem sameFor_closeRead {x p : ρ} (hne : x ≠ p) (q : Pipe ρ) : SameFor x q (q.closeRead p) :=
  ⟨rfl, by simp [Pipe.closeRead, hne], Iff.rfl⟩

theorem sameFor_exit {x p : ρ} (hne : x ≠ p) (q : Pipe ρ) : SameFor x q (q.exit p) :=
  ⟨rfl, by simp [Pipe.exit, Pipe.closeRead, Pipe.closeWrite, hne],
    by simp [Pipe.exit, Pipe.closeRead, Pipe.closeWrite, hne]⟩

theorem sameFor_fork {x child : ρ} (hne : x ≠ child) (parent : ρ) (q : Pipe ρ) :
    SameFor x q (q.fork parent child) := by
  refine ⟨rfl, ?_, ?_⟩ <;>
  · simp only [Pipe.fork]
    split_ifs <;> simp [hne]

end Pipes
