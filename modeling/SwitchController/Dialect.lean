import SwitchController.Firmware.Lines
import SwitchController.Twitch.Controller

/-!
# Two formats of a line

`SwitchController` of `switchcontroller.py` writes a state as one digit for the d-pad, one for
each of fourteen buttons, and four decimal numbers. `Serial_Task` of `Joystick.c` reads a state as
seven bytes in hexadecimal, and skips what is no hex digit. So a line of the former has fifteen
digits before its first blank already, for the latter, and as many more as the four numbers
have: too many by five at least. The firmware takes no line of this format for a state, and
each of them makes it write past the end of its frame.
-/

namespace SwitchController

open EventMachine LineSplit Firmware Twitch

/-! ### The bytes of a line -/

/-- `msg.encode('utf-8')`. -/
def encodeUtf8 (s : Str) : List UInt8 := s.flatMap String.utf8EncodeChar

/-- **The bytes `send` writes** after `getOutput`. -/
def sendBytes (c : Controller) : List UInt8 := encodeUtf8 (c.getOutput ++ "\r\n".toList)

theorem encodeUtf8_append (s s' : Str) : encodeUtf8 (s ++ s') = encodeUtf8 s ++ encodeUtf8 s' :=
  List.flatMap_append

theorem encodeUtf8_flatMap {α : Type} (f : α → Str) (xs : List α) :
    encodeUtf8 (xs.flatMap f) = xs.flatMap fun x => encodeUtf8 (f x) :=
  List.flatMap_assoc

/-- **A piece of a line**: this many hex digits at least and at most, and no line end. -/
def Piece (lo hi : ℕ) (s : List UInt8) : Prop :=
  lo ≤ (digits s).length ∧ (digits s).length ≤ hi ∧ ∀ c ∈ s, isEol c = false

instance (lo hi : ℕ) (s : List UInt8) : Decidable (Piece lo hi s) :=
  haveI : Decidable (∀ c ∈ s, isEol c = false) := List.decidableBAll _ s
  inferInstanceAs (Decidable (_ ∧ _ ∧ _))

variable {lo hi lo' hi' : ℕ} {s s' : List UInt8}

theorem Piece.append (h : Piece lo hi s) (h' : Piece lo' hi' s') :
    Piece (lo + lo') (hi + hi') (s ++ s') := by
  obtain ⟨hlo, hhi, heol⟩ := h
  obtain ⟨hlo', hhi', heol'⟩ := h'
  rw [Piece, digits_append, List.length_append]
  exact ⟨by omega, by omega, List.forall_mem_append.mpr ⟨heol, heol'⟩⟩

theorem Piece.flatMap {α : Type} {f : α → List UInt8} (xs : List α)
    (h : ∀ x ∈ xs, Piece lo hi (f x)) : Piece (xs.length * lo) (xs.length * hi) (xs.flatMap f) := by
  induction xs with
  | nil => exact ⟨by simp, by simp, List.forall_mem_nil _⟩
  | cons x xs ih =>
    obtain ⟨hx, hxs⟩ := List.forall_mem_cons.mp h
    rw [List.flatMap_cons, List.length_cons, Nat.add_one_mul, Nat.add_one_mul, Nat.add_comm,
      Nat.add_comm (xs.length * hi)]
    exact hx.append (ih hxs)

theorem piece_dpad : ∀ d : Fin 10, Piece 1 1 (encodeUtf8 (natStr d)) := by decide

theorem piece_button : ∀ p : Bool, Piece 1 1 (encodeUtf8 [pressedDigit p]) := by decide

theorem piece_stick : ∀ n < 256, Piece 1 3 (encodeUtf8 (' ' :: natStr n)) := by decide +kernel

/-- **A line of `getOutput`** has nineteen to twenty-seven hex digits. -/
theorem piece_getOutput {c : Controller} (hsticks : ∀ s, 0 ≤ c.stick s ∧ c.stick s ≤ 255) :
    Piece 19 27 (encodeUtf8 c.getOutput) := by
  have hbuttons : Piece 14 14
      (encodeUtf8 (Btn.all.map fun btn => pressedDigit (c.pressed btn))) := by
    rw [← List.flatMap_singleton' (Btn.all.map _), List.flatMap_map, encodeUtf8_flatMap]
    exact Piece.flatMap Btn.all fun btn _ => piece_button (c.pressed btn)
  have hnumbers : Piece 4 12
      (encodeUtf8 ([Stick.lx, .ly, .rx, .ry].flatMap fun s => ' ' :: intStr (c.stick s))) := by
    have hnumber : ∀ s, Piece 1 3 (encodeUtf8 (' ' :: intStr (c.stick s))) := by
      intro s
      obtain ⟨hlo, hhi⟩ := hsticks s
      rw [intStr, if_neg (by omega)]
      exact piece_stick _ (by omega)
    rw [encodeUtf8_flatMap]
    exact Piece.flatMap [Stick.lx, .ly, .rx, .ry] fun s _ => hnumber s
  rw [Controller.getOutput, encodeUtf8_append, encodeUtf8_append]
  exact ((piece_dpad c.dpad).append hbuttons).append hnumbers

/-! ### What the firmware makes of it -/

/-- **The firmware understands no line of the controller library.** For every controller with its
sticks in range, the bytes of its line, fed to `Serial_Task` from a line boundary, latch nothing:
the globals keep their values. The fifteenth digit and those after it are written past the
seven bytes of the frame. -/
theorem sendBytes_ignored {c : Controller} (hsticks : ∀ s, 0 ≤ c.stick s ∧ c.stick s ≤ 255)
    {p : Parser} (hl : p.l = 0) (hb : p.b = fun _ => 0) :
    (serialTask p (sendBytes c)).2.filterMap Effect.latched? = [] ∧
      (serialTask p (sendBytes c)).1.latched = p.latched ∧
      ∃ i ∈ (serialTask p (sendBytes c)).2.filterMap Effect.stored?, 7 ≤ i := by
  obtain ⟨hlo, hhi, heol⟩ := piece_getOutput hsticks
  have hbytes : sendBytes c = encodeUtf8 c.getOutput ++ cr :: [lf] := encodeUtf8_append _ _
  have hp : OnLine p [] := onLine_nil_iff.mpr ⟨hl, hb⟩
  have hlines : linesFrom isEol [] (sendBytes c) = ([encodeUtf8 c.getOutput, []], []) := by
    rw [hbytes, linesFrom_append_eol heol rfl]
    rfl
  have hnone : (serialTask p (sendBytes c)).2.filterMap Effect.latched? = [] := by
    rw [← List.length_eq_zero_iff, length_latched_serialTask hp, closedLines, hlines]
    have hlong : (digits (encodeUtf8 c.getOutput)).length % 256 ≠ 14 := by omega
    simp [hlong]
  refine ⟨hnone, by rw [latched_serialTask, hnone]; rfl, ?_⟩
  by_contra hall
  -- if all writes were in range, the line would have fourteen digits at most
  have hlt : ∀ i ∈ (serialTask p (sendBytes c)).2.filterMap Effect.stored?, i < 7 := fun i hi =>
    Nat.lt_of_not_le fun hle => hall ⟨i, hi, hle⟩
  have hshort := (forall_stored_lt_iff (sendBytes c) hp (by simp)).mp hlt (encodeUtf8 c.getOutput)
    (by simp [allLinesFrom, hlines])
  omega

/-- The neutral line: it is ignored, and the last thirteen of its digits are written past the
frame. -/
theorem sendBytes_ignored_neutral :
    (serialTask Parser.powerUp (sendBytes Controller.neutral)).1.latched = Latched.powerUp ∧
      ∃ i ∈ (serialTask Parser.powerUp (sendBytes Controller.neutral)).2.filterMap Effect.stored?,
        7 ≤ i :=
  (sendBytes_ignored (by simp [Controller.neutral, stickCenter]) rfl rfl).2

/-- **The first line of a session does not arrive**: the sticks are centred and the firmware goes on
reporting them at their minimum. -/
theorem sendBytes_neutral_lost :
    (serialTask Parser.powerUp (sendBytes Controller.neutral)).2.filterMap Effect.latched? = [] ∧
      (serialTask Parser.powerUp (sendBytes Controller.neutral)).1.latched ≠
        ⟨8, 0, 128, 128, 128, 128⟩ := by
  decide +kernel

end SwitchController
