import SwitchController.Firmware.Message
import SwitchController.Firmware.Ring

/-!
# What the reports carry

Two facts meet here: the reader is in order as long as the ring has room
(`SwitchController.Firmware.run_inOrder`), and a report holds the last frame latched
before it (`SwitchController.Firmware.run_report`). Over a stream of messages they give
the delivery theorem, `SwitchController.Firmware.run_reports_of_messages`: each report is
one whole message or the power-up values, and the reports never go back to an older one.

Before the first frame the reports carry the power-up values, which are *not* the neutral
state of the controller: `HAT2` is `HAT_TOP` and the sticks are at `STICK_MIN`.
-/

namespace SwitchController

namespace Firmware

open EventMachine LineSplit

/-! ### Reports of a stream of messages -/

/-- The state reported at index `k`: the power-up values, then the messages in order. -/
def stateAt (ms : List Message) : ℕ → Option Latched
  | 0 => some Latched.powerUp
  | k + 1 => ms[k]?.map Message.state

/-- The globals after `k` frames of a stream of messages are those of message `k`. -/
theorem stateAt_length_latches {ms : List Message} {log : List Obs}
    (h : latches log <+: ms.map Message.state) :
    stateAt ms (latches log).length = some (lastLatched log) := by
  rw [lastLatched]
  obtain ⟨rest, hrest⟩ := h
  generalize latches log = L at hrest
  induction L using List.reverseRecOn with
  | nil => rfl
  | append_singleton L s _ =>
    have hget : (ms.map Message.state)[L.length]? = some s := by
      rw [← hrest]
      simp
    rw [List.length_append, List.length_singleton, stateAt, ← List.getElem?_map, hget]
    simp

@[simp] theorem reports_append (log log' : List Obs) :
    reports (log ++ log') = reports log ++ reports log' := by
  simp [reports]

/-- **The reports of a log in terms of the messages latched**: each has an index, and the
indices only grow. By induction on the log from its end; the index of a report is the
number of frames latched before it. -/
theorem exists_report_index {ms : List Message} (log : List Obs)
    (hcur : Everywhere Obs.Current log) (hlat : latches log <+: ms.map Message.state) :
    ∃ idx : List ℕ, idx.Pairwise (· ≤ ·) ∧ (∀ k ∈ idx, k ≤ (latches log).length) ∧
      List.Forall₂ (fun k pr => stateAt ms k = some pr.2.state) idx (reports log) := by
  induction log using List.reverseRecOn with
  | nil => exact ⟨[], List.Pairwise.nil, by simp, List.Forall₂.nil⟩
  | append_singleton log o ih =>
    obtain ⟨hcur', ho⟩ := everywhere_append.mp hcur
    have ho' : Obs.Current log o := by simpa using everywhere_singleton.mp ho
    rw [latches_append] at hlat
    have hlat' : latches log <+: ms.map Message.state := (List.prefix_append _ _).trans hlat
    obtain ⟨idx, hsorted, hle, hall⟩ := ih hcur' hlat'
    have hkeep : ∀ k ∈ idx, k ≤ (latches (log ++ [o])).length := fun k hk => by
      rw [latches_append, List.length_append]
      exact (hle k hk).trans (Nat.le_add_right _ _)
    cases o with
    | report via r =>
      refine ⟨idx ++ [(latches log).length], ?_, ?_, ?_⟩
      · refine List.pairwise_append.mpr ⟨hsorted, List.pairwise_singleton _ _, ?_⟩
        intro k hk k' hk'
        obtain rfl : k' = (latches log).length := by simpa using hk'
        exact hle k hk
      · intro k hk
        rcases List.mem_append.mp hk with hk | hk
        · exact hkeep k hk
        · obtain rfl : k = (latches log).length := by simpa using hk
          rw [latches_append, List.length_append]
          exact Nat.le_add_right _ _
      · rw [reports_append]
        refine List.rel_append hall (List.Forall₂.cons ?_ List.Forall₂.nil)
        rw [stateAt_length_latches hlat']
        exact congrArg some (show r.state = lastLatched log from ho').symm
    | received c | printed c | consumed c | effect e | transmitted via r =>
      exact ⟨idx, hsorted, hkeep, by simpa [reports] using hall⟩

/-- What has been latched, as far as it has been logged, is what the parser latches of the
bytes read. -/
theorem latches_run_isPrefix (es : List Event) :
    latches (run es).2 <+:
      (serialTask Parser.powerUp (consumed (run es).2)).2.filterMap Effect.latched? := by
  rw [← (run_faithful es).settled.foretold_eq]
  exact List.prefix_append _ _

/-- **Reports are never torn, invented or reordered.** From power-up, over any messages and
any interleaving of the receive interrupt with the statements of the main loop that never
leaves more than `255` received bytes unread: the bytes read are the bytes received, in
order, and all of them once the ring is seen empty; and every report holds the power-up
values or all six fields of one message, with an index that never goes back. -/
theorem run_reports_of_messages {ms : List Message} {es : List Event}
    (hin : received (run es).2 <+: stream ms)
    (hroom : ∀ pre, pre <+: es → unread (run pre).2 ≤ 255) :
    consumed (run es).2 <+: received (run es).2 ∧
      ((run es).1.pc = .serialWhile → (run es).1.bufferTail = (run es).1.bufferHead →
        consumed (run es).2 = received (run es).2) ∧
      ∃ idx : List ℕ, idx.Pairwise (· ≤ ·) ∧
        List.Forall₂ (fun k pr => stateAt ms k = some pr.2.state) idx (reports (run es).2) := by
  have hord := run_inOrder hroom
  have hlat : latches (run es).2 <+: ms.map Message.state :=
    (latches_run_isPrefix es).trans (latched_serialTask_of_isPrefix (hord.isPrefix.trans hin))
  obtain ⟨idx, hsorted, -, hall⟩ := exists_report_index (run es).2 (run_report es) hlat
  exact ⟨hord.isPrefix, hord.consumed_eq (hroom es List.prefix_rfl), idx, hsorted, hall⟩

/-- `08000080808080`. -/
def Message.neutral : Message where
  text := [0x30, 0x38, 0x30, 0x30, 0x30, 0x30, 0x38, 0x30, 0x38, 0x30, 0x38, 0x30, 0x38, 0x30]
  length_text := rfl
  hex := by decide +kernel

/-- Two messages arrive, one after the other, and each is parsed and reported. -/
theorem run_reports_of_messages_two :
    let ms := [Message.neutral, .repeated 0x31 (by decide)]
    ∃ es : List Event, reports (run es).2 = [(.hidTask, ⟨0, 8, 128, 128, 128, 128, 0⟩),
        (.hidTask, ⟨0x1111, 0x11, 0x11, 0x11, 0x11, 0x11, 0⟩)] ∧
      consumed (run es).2 <+: received (run es).2 ∧
      ∃ idx : List ℕ, idx.Pairwise (· ≤ ·) ∧
        List.Forall₂ (fun k pr => stateAt ms k = some pr.2.state) idx (reports (run es).2) := by
  intro ms
  let es := ms.flatMap fun m => m.bytes.map Event.rx ++
    List.replicate 130 (Event.main Usb.quiet) ++ List.replicate 9 (Event.main Usb.poll)
  have hin : received (run es).2 <+: stream ms := by decide +kernel
  have hroom : ∀ pre, pre <+: es → unread (run pre).2 ≤ 255 := by
    intro pre hpre
    have hle : (received (run pre).2).length ≤ (received (run es).2).length := by
      rw [received_run, received_run]
      exact (hpre.filterMap _).length_le
    exact (Nat.sub_le _ _).trans (hle.trans (by decide +kernel))
  obtain ⟨hcon, -, hidx⟩ := run_reports_of_messages hin hroom
  exact ⟨es, by decide +kernel, hcon, hidx⟩

/-! ### Before the first frame -/

/-- **The neutral state of the controller**: no buttons, `HAT_CENTER`, and all four sticks at
`STICK_CENTER`. -/
def Latched.neutral : Latched := ⟨8, 0, 128, 128, 128, 128⟩

/-- The power-up values are another state. -/
theorem powerUp_ne_neutral : Latched.powerUp ≠ Latched.neutral := by decide

/-- A report is neutral only if the last frame before it was. -/
theorem state_eq_neutral_iff {es : List Event} {pre post : List Obs} {via : Path} {r : Report}
    (h : (run es).2 = pre ++ .report via r :: post) :
    r.state = Latched.neutral ↔ (latches pre).getLast? = some Latched.neutral := by
  have hr : r.state = lastLatched pre := run_report es pre _ post h
  rw [hr, lastLatched]
  cases (latches pre).getLast? with
  | none => exact iff_of_false powerUp_ne_neutral (by simp)
  | some s => simp

/-- Where no closed line has fourteen digits, even modulo `256`, and the reader is in order,
nothing is latched. -/
theorem latches_run_eq_nil {es : List Event}
    (hroom : ∀ pre, pre <+: es → unread (run pre).2 ≤ 255)
    (hlines : ∀ line ∈ closedLines isEol (received (run es).2), (digits line).length % 256 ≠ 14) :
    latches (run es).2 = [] := by
  have hzero : ((serialTask Parser.powerUp (consumed (run es).2)).2.filterMap
      Effect.latched?).length = 0 := by
    rw [length_latched_serialTask (onLine_nil_iff.mpr ⟨rfl, rfl⟩), List.length_eq_zero_iff,
      List.filter_eq_nil_iff]
    intro line hl
    have hsub := (closedLines_isPrefix (run_inOrder hroom).isPrefix).subset hl
    simpa using hlines line hsub
  have hpre := latches_run_isPrefix es
  rw [List.length_eq_zero_iff.mp hzero] at hpre
  exact List.prefix_nil.mp hpre

/-- **When a report before the first frame is neutral.** Over every run whose received bytes
hold no closed line of exactly fourteen digits, a report is neutral exactly when a frame was
accepted all the same and the last one spelt the neutral state – which takes a line of `270`
digits, for the counter to wrap around, or an overrun. Short of these no report is: each
carries the power-up values, the hat up and both sticks in the corner. -/
theorem run_report_before_frame {es : List Event}
    (hno : ∀ line ∈ closedLines isEol (received (run es).2), (digits line).length ≠ 14)
    {pre post : List Obs} {via : Path} {r : Report}
    (h : (run es).2 = pre ++ .report via r :: post) :
    (r.state = Latched.neutral ↔ (latches pre).getLast? = some Latched.neutral) ∧
      ((∀ es', es' <+: es → unread (run es').2 ≤ 255) →
        (∀ line ∈ closedLines isEol (received (run es).2), (digits line).length < 270) →
        r.state = Latched.powerUp ∧ r.state ≠ Latched.neutral) := by
  refine ⟨state_eq_neutral_iff h, fun hroom hlen => ?_⟩
  have hnil : latches (run es).2 = [] := by
    refine latches_run_eq_nil hroom fun line hl => ?_
    have h1 := hno line hl
    have h2 := hlen line hl
    omega
  have hpre : latches pre = [] := by
    rw [h, latches_append] at hnil
    exact (List.append_eq_nil_iff.mp hnil).1
  have hr : r.state = lastLatched pre := run_report es pre _ post h
  rw [lastLatched, hpre] at hr
  exact ⟨hr, fun hn => powerUp_ne_neutral (hr.symm.trans hn)⟩

/-- Plugged in, nothing received, polled once: the report is not neutral. -/
theorem run_report_power_up :
    received (run (List.replicate 9 (.main Usb.poll))).2 = [] ∧
      reports (run (List.replicate 9 (.main Usb.poll))).2 = [(.hidTask, ⟨0, 0, 0, 0, 0, 0, 0⟩)] ∧
      ¬∀ pr ∈ reports (run (List.replicate 9 (.main Usb.poll))).2,
        pr.2.state = Latched.neutral := by
  decide

/-- The same run, as the theorem sees it. -/
theorem run_report_before_frame_power_up :
    ∃ (pre post : List Obs) (r : Report),
      (run (List.replicate 9 (.main Usb.poll))).2 = pre ++ .report .hidTask r :: post ∧
        r.state = Latched.powerUp ∧ r.state ≠ Latched.neutral := by
  have h : (run (List.replicate 9 (.main Usb.poll))).2 =
      [] ++ .report .hidTask ⟨0, 0, 0, 0, 0, 0, 0⟩ :: [] := by decide
  refine ⟨[], [], _, h, (run_report_before_frame (by decide) h).2 (fun es' hes' => ?_) (by decide)⟩
  exact (unread_run_le es').trans (hes'.length_le.trans (by decide))

end Firmware

end SwitchController
