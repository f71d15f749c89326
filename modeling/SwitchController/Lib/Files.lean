import Mathlib.Data.List.Basic
import Mathlib.Logic.Function.Basic

/-!
# Files and buffered writers

A file is written through a buffer: a write goes to the buffer, and the buffer goes to the
disk when the runtime sees fit – some of it, at any time – and in any case when the writer
is closed. `FileStore.Writer.flush` takes the number of bytes that go, so a program that
interleaves it with its own writes has been looked at under every policy of buffering.

Each writer has its own position in its file. Two of them on one file overwrite each other;
one that has the file to itself *backs* it (`FileStore.Writer.Backs`): the disk holds the
beginning of what was written, the buffer holds the rest, and closing it leaves exactly
what was written (`FileStore.Writer.Backs.close`).
-/

namespace FileStore

variable {N : Type*} [DecidableEq N]

/-- The contents of the files there are. -/
abbrev Disk (N : Type*) := N → Option (List UInt8)

/-- A file opened for writing is emptied. -/
def Disk.truncate (disk : Disk N) (name : N) : Disk N := Function.update disk name (some [])

/-- **Bytes written over a file** from a position on; a gap before them is filled with
zeros. -/
def overwrite (content : List UInt8) (pos : ℕ) (data : List UInt8) : List UInt8 :=
  if data = [] then content
  else content.take pos ++ List.replicate (pos - content.length) 0 ++ data ++
    content.drop (pos + data.length)

/-- **A buffered writer.** -/
structure Writer (N : Type*) where
  /-- The name of the file. -/
  name : N
  /-- Where the next byte goes. -/
  pos : ℕ
  /-- What is still in the buffer. -/
  pending : List UInt8

/-- A writer on a file that has just been opened. -/
def Writer.new (name : N) : Writer N := ⟨name, 0, []⟩

/-- A write, to the buffer. -/
def Writer.write (w : Writer N) (data : List UInt8) : Writer N :=
  { w with pending := w.pending ++ data }

/-- **Some of the buffer goes to the disk.** -/
def Writer.flush (w : Writer N) (n : ℕ) (disk : Disk N) : Writer N × Disk N :=
  ({ w with pos := w.pos + (w.pending.take n).length, pending := w.pending.drop n },
    Function.update disk w.name
      ((disk w.name).map fun content => overwrite content w.pos (w.pending.take n)))

/-- Closing a writer empties its buffer. -/
def Writer.close (w : Writer N) (disk : Disk N) : Disk N := (w.flush w.pending.length disk).2

variable {w : Writer N} {disk disk' : Disk N} {written : List UInt8}

theorem flush_of_ne {name : N} (h : name ≠ w.name) (n : ℕ) : (w.flush n disk).2 name = disk name :=
  Function.update_of_ne h _ _

theorem close_of_ne {name : N} (h : name ≠ w.name) : w.close disk name = disk name :=
  flush_of_ne h _

/-- At the end of a file nothing is overwritten. -/
theorem overwrite_length (content data : List UInt8) :
    overwrite content content.length data = content ++ data := by
  rw [overwrite]
  split
  · rename_i h
    rw [h, List.append_nil]
  · simp

/-- **A writer backs its file**: the disk has the beginning of what was written, the buffer
the rest. -/
def Writer.Backs (w : Writer N) (disk : Disk N) (written : List UInt8) : Prop :=
  ∃ done, disk w.name = some done ∧ w.pos = done.length ∧ written = done ++ w.pending

theorem backs_new (disk : Disk N) (name : N) : (Writer.new name).Backs (disk.truncate name) [] :=
  ⟨[], Function.update_self _ _ _, rfl, rfl⟩

omit [DecidableEq N] in
theorem Writer.Backs.write (h : w.Backs disk written) (data : List UInt8) :
    (w.write data).Backs disk (written ++ data) := by
  obtain ⟨done, hdisk, hpos, rfl⟩ := h
  exact ⟨done, hdisk, hpos, List.append_assoc _ _ _⟩

/-- Whenever the buffer goes to the disk, the file goes on where it stopped. -/
theorem Writer.Backs.flush (h : w.Backs disk written) (n : ℕ) :
    (w.flush n disk).1.Backs (w.flush n disk).2 written := by
  obtain ⟨done, hdisk, hpos, rfl⟩ := h
  refine ⟨done ++ w.pending.take n, ?_, ?_, ?_⟩
  · change Function.update disk w.name _ w.name = _
    rw [Function.update_self, hdisk, hpos]
    exact congrArg some (overwrite_length _ _)
  · change w.pos + (w.pending.take n).length = _
    rw [hpos, List.length_append]
  · rw [List.append_assoc]
    exact congrArg (done ++ ·) (List.take_append_drop n w.pending).symm

omit [DecidableEq N] in
theorem Writer.Backs.of_eq (h : w.Backs disk written) (hd : disk' w.name = disk w.name) :
    w.Backs disk' written := by
  obtain ⟨done, hdisk, hrest⟩ := h
  exact ⟨done, hd.trans hdisk, hrest⟩

/-- **A closed file is what was written to it.** -/
theorem Writer.Backs.close (h : w.Backs disk written) : w.close disk w.name = some written := by
  obtain ⟨done, hdisk, -, hwritten⟩ := h.flush w.pending.length
  have hempty : (w.flush w.pending.length disk).1.pending = [] := List.drop_length
  rw [hempty, List.append_nil] at hwritten
  rw [hwritten]
  exact hdisk

end FileStore
