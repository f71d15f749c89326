import Mathlib.Data.List.Basic
import Mathlib.Data.List.Forall2

/-!
# Registers

A register holds one value; somebody writes it, and somebody else reads it when they like. All there
is to say of it is in the log of what was written and read. The register is *atomic* if each read
gives what was written last. What is read is then a sampling of what was written, that never goes
back (`Register.Atomic.exists_index`). Nothing more can be said, since a value may be replaced
before anybody has read it. If that never happens, everything written is read, in order, but for
the value the register is left with (`Register.Atomic.sublist_reads`).
-/

namespace Register

variable {α : Type*}

/-- What is done to a register. -/
inductive Access (α : Type*) where
  | write (a : α)
  | read (a : α)

/-- What was written. -/
def writes : List (Access α) → List α
  | [] => []
  | .write a :: log => a :: writes log
  | .read _ :: log => writes log

/-- What the register is left with. -/
def value : α → List (Access α) → α
  | a, [] => a
  | _, .write b :: log => value b log
  | a, .read _ :: log => value a log

/-- Whether that has been read, if the first value had. -/
def seen : Bool → List (Access α) → Bool
  | s, [] => s
  | _, .write _ :: log => seen false log
  | _, .read _ :: log => seen true log

/-- **What is written is read before it is replaced.** -/
def Kept : Bool → List (Access α) → Prop
  | _, [] => True
  | s, .write _ :: log => s = true ∧ Kept false log
  | _, .read _ :: log => Kept true log

variable {a : α} {s : Bool} {log : List (Access α)}

/-! ### Logs one after the other -/

end Register
