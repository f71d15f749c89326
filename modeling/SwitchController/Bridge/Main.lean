import SwitchController.Lib.Potential
import SwitchController.Bridge.Record
import SwitchController.Firmware.Device

/-!
# The bridge as a process

`bridge.py` from its arguments to its end: the stack is set up, and then each turn of the loop
fetches events, asks the stack for a message, copies it to the record file, writes it to the serial
port, shows it on the speed meter and reads the port until it gets a `U`. Each of these is a
statement of its own (`SwitchController.Bridge.Stage`), so that Ctrl-C may come between any two of
them, and in the middle of the write.

Two things about the setup matter. `replay_states` is a generator: its file is opened by the
first `next`, long after `InputStack` has opened, and emptied, the record file. And the
controller is asked once before it is pushed, so the first reading goes nowhere.

What is proved is what the files and the port are worth to each other. The messages go out one to a
`U` (`SwitchController.Bridge.process_paced`). However the process ends, the record file has what
went out, and not more than one message besides (`SwitchController.Bridge.process_recorded`).
A playback sends the file to the last byte and stops, or up to the first line that is no text
(`SwitchController.Bridge.process_playback`), unless it is told to record over the file it plays
(`SwitchController.Bridge.process_erased`).

The macro file of `InputStack` is left out: the calls of `macro_start` and `macro_end` are commented
out in the loop, and so is the use of the key that `getch` returns.
-/

namespace SwitchController

namespace Bridge

open EventMachine Firmware FileStore

/-! ### The process -/

/-- The arguments that matter once the controller and the port are open. -/
structure Args where
  /-- `--record`. -/
  record : Option String
  /-- `--playback`. -/
  playback : Option String
  /-- `--dontexit`. -/
  dontexit : Bool

/-- An iterator on the stack. -/
inductive Iterator where
  /-- One that has been started, or has nothing to open. -/
  | started (src : Source)
  /-- `replay_states(filename)`, not yet asked. -/
  | replay (filename : String)

/-- **`next` of an iterator.** A replay opens its file now, and finds what it holds now. -/
def Iterator.next (disk : Disk String) : Iterator → Except Exn (List UInt8) × Iterator
  | .started src => (src.next.1, .started src.next.2)
  | .replay filename =>
      ((Source.given (replayStates disk filename)).next.1,
        .started (Source.given (replayStates disk filename)).next.2)

/-- How the process has ended. -/
inductive Ending where
  /-- `break`, at `StopIteration`. -/
  | finished
  /-- `KeyboardInterrupt`. -/
  | interrupted
  /-- Another exception. -/
  | raised (e : Exn)
  deriving DecidableEq

/-- **The statement about to be executed.** -/
inductive Stage where
  /-- The loop over `sdl2.ext.get_events()`. -/
  | events
  /-- `next(self.l[-1])`, and the loop around it. -/
  | next
  /-- `self.recordfile.write(message)`. -/
  | record (message : List UInt8)
  /-- `ser.write(message)`. -/
  | write (message : List UInt8)
  /-- `pbar.set_description(..)`, for which the message is decoded. -/
  | describe (message : List UInt8)
  /-- `ser.read(1)`. -/
  | read
  /-- The end. -/
  | ended (how : Ending)
  deriving DecidableEq

/-- The state of the process. -/
structure Process where
  /-- Where it is. -/
  stage : Stage
  /-- `input_stack.l`, the top first. -/
  l : List Iterator
  /-- The files. -/
  disk : Disk String
  /-- `input_stack.recordfile`. -/
  recordfile : Option (Writer String)

/-- What is observed of the process. -/
inductive ProcessObs where
  /-- The stack gave a message. -/
  | given (message : List UInt8)
  /-- Bytes were written to the port. -/
  | wrote (bytes : List UInt8)
  /-- A byte was read from the port. -/
  | heard (response : UInt8)
  /-- The process ended. -/
  | ended (how : Ending)

/-- What can happen next. -/
inductive ProcessEvent where
  /-- The next statement is executed. If it fetches events, the left stick has been clicked so many
  times; if it reads the port, this is the byte it gets. -/
  | go (clicks : ℕ) (response : UInt8)
  /-- Some of the record file's buffer reaches the disk. -/
  | flush (n : ℕ)
  /-- Ctrl-C. If a message is being written, so many of its bytes are out. -/
  | interrupt (k : ℕ)

/-- `InputStack.__enter__`: the record file is opened, and emptied. -/
def Args.enter (args : Args) (disk : Disk String) : Disk String :=
  match args.record with
  | none => disk
  | some filename => disk.truncate filename

/-- **The setup**, up to the loop. -/
def Process.start (args : Args) (disk : Disk String) (readings : ℕ → Reading) : Process :=
  let replay := args.playback.toList.map Iterator.replay
  let p : Process := ⟨.events, replay, args.enter disk, args.record.map Writer.new⟩
  if args.playback = none ∨ args.dontexit = true then
    match (Source.live readings).next with
    | (.ok _, live) => { p with l := replay ++ [.started live] }
    | (.error e, _) => { p with stage := .ended (.raised e), l := [] }
  else p

/-- **One event of the process.** -/
def Process.step (p : Process) : ProcessEvent → Process × List ProcessObs
  | .go clicks response => match p.stage with
      | .events =>
          ({ p with
              stage := .next
              l := List.replicate clicks (.started (.given exampleMacro)) ++ p.l }, [])
      | .next => match Bridge.read (Iterator.next p.disk) p.l with
          | (.ok (_, message), l) => ({ p with stage := .record message, l := l }, [.given message])
          | (.error .stopIteration, l) =>
              ({ p with stage := .ended .finished, l := l }, [.ended .finished])
          | (.error e, l) => ({ p with stage := .ended (.raised e), l := l }, [.ended (.raised e)])
      | .record message =>
          ({ p with
              stage := .write message
              recordfile := p.recordfile.map (·.write message) }, [])
      | .write message => ({ p with stage := .describe message }, [.wrote message])
      | .describe message =>
          if decodes message then ({ p with stage := .read }, [])
          else
            ({ p with stage := .ended (.raised .unicodeDecodeError) },
              [.ended (.raised .unicodeDecodeError)])
      | .read => ({ p with stage := if response = chU then .events else .read }, [.heard response])
      | .ended _ => (p, [])
  | .flush n => match p.recordfile with
      | none => (p, [])
      | some w => ({ p with disk := (w.flush n p.disk).2, recordfile := some (w.flush n p.disk).1 },
          [])
  | .interrupt k => match p.stage with
      | .ended _ => (p, [])
      | .write message =>
          ({ p with stage := .ended .interrupted },
            [.wrote (message.take k), .ended .interrupted])
      | _ => ({ p with stage := .ended .interrupted }, [.ended .interrupted])

/-- **`InputStack.__exit__`**: what is on the disk once the process is gone. -/
def Process.exit (p : Process) : Disk String :=
  match p.recordfile with
  | none => p.disk
  | some w => w.close p.disk

/-- A run of the process. -/
def process (args : Args) (disk : Disk String) (readings : ℕ → Reading) (es : List ProcessEvent) :
    Process × List ProcessObs :=
  runFrom Process.step (Process.start args disk readings) es

/-- The messages the stack gave. -/
def given (log : List ProcessObs) : List (List UInt8) :=
  log.filterMap fun
    | .given message => some message
    | _ => none

/-- What was written to the port, write by write. -/
def written (log : List ProcessObs) : List (List UInt8) :=
  log.filterMap fun
    | .wrote bytes => some bytes
    | _ => none

/-- What was read from the port. -/
def heard (log : List ProcessObs) : List UInt8 :=
  log.filterMap fun
    | .heard response => some response
    | _ => none

variable {p : Process} {log : List ProcessObs}

/-- What is read from the port, and the end, concern neither the messages nor the writes. -/
theorem frame_heard (log : List ProcessObs) (response : UInt8) :
    given (log ++ [.heard response]) = given log ∧
      written (log ++ [.heard response]) = written log := by
  simp [given, written]

theorem frame_ended (log : List ProcessObs) (how : Ending) :
    given (log ++ [.ended how]) = given log ∧ written (log ++ [.ended how]) = written log := by
  simp [given, written]

/-- A message that is given, and one that is written. -/
theorem frame_given (log : List ProcessObs) (message : List UInt8) :
    given (log ++ [.given message]) = given log ++ [message] ∧
      written (log ++ [.given message]) = written log := by
  simp [given, written]

theorem frame_wrote (log : List ProcessObs) (bytes : List UInt8) :
    given (log ++ [.wrote bytes]) = given log ∧
      written (log ++ [.wrote bytes]) = written log ++ [bytes] := by
  simp [given, written]

/-! ### What a step does -/

/-- **What a step can do**, by the statement it is taken at. -/
inductive Move (p : Process) : ProcessEvent → Process → List ProcessObs → Prop where
  | fetch (clicks : ℕ) (response : UInt8) (h : p.stage = .events) :
      Move p (.go clicks response)
        { p with
          stage := .next
          l := List.replicate clicks (.started (.given exampleMacro)) ++ p.l } []
  | give {clicks : ℕ} {response : UInt8} {it : Iterator} {message : List UInt8} {l : List Iterator}
      (h : p.stage = .next)
      (hread : Bridge.read (Iterator.next p.disk) p.l = (.ok (it, message), l)) :
      Move p (.go clicks response) { p with stage := .record message, l := l } [.given message]
  | stop {clicks : ℕ} {response : UInt8} {e : Exn} {how : Ending} {l : List Iterator}
      (h : p.stage = .next) (hread : Bridge.read (Iterator.next p.disk) p.l = (.error e, l))
      (hhow : how = .finished ∧ e = .stopIteration ∨ how = .raised e ∧ e ≠ .stopIteration) :
      Move p (.go clicks response) { p with stage := .ended how, l := l } [.ended how]
  | copy {clicks : ℕ} {response : UInt8} {message : List UInt8} (h : p.stage = .record message) :
      Move p (.go clicks response)
        { p with
          stage := .write message
          recordfile := p.recordfile.map (·.write message) } []
  | send {clicks : ℕ} {response : UInt8} {message : List UInt8} (h : p.stage = .write message) :
      Move p (.go clicks response) { p with stage := .describe message } [.wrote message]
  | describe {clicks : ℕ} {response : UInt8} {message : List UInt8}
      (h : p.stage = .describe message) (hdec : decodes message = true) :
      Move p (.go clicks response) { p with stage := .read } []
  | garbled {clicks : ℕ} {response : UInt8} {message : List UInt8} (h : p.stage = .describe message)
      (hdec : decodes message = false) :
      Move p (.go clicks response) { p with stage := .ended (.raised .unicodeDecodeError) }
        [.ended (.raised .unicodeDecodeError)]
  | answer {clicks : ℕ} (h : p.stage = .read) :
      Move p (.go clicks chU) { p with stage := .events } [.heard chU]
  | noise {clicks : ℕ} {response : UInt8} (h : p.stage = .read) (hresponse : response ≠ chU) :
      Move p (.go clicks response) p [.heard response]
  | gone {e : ProcessEvent} {how : Ending} (h : p.stage = .ended how) : Move p e p []
  | flush {w : Writer String} (n : ℕ) (h : p.recordfile = some w) :
      Move p (.flush n)
        { p with disk := (w.flush n p.disk).2, recordfile := some (w.flush n p.disk).1 } []
  | unrecorded (n : ℕ) (h : p.recordfile = none) : Move p (.flush n) p []
  | cut (message : List UInt8) (k : ℕ) (h : p.stage = .write message) :
      Move p (.interrupt k) { p with stage := .ended .interrupted }
        [.wrote (message.take k), .ended .interrupted]
  | interrupt (k : ℕ) (h : ∀ message, p.stage ≠ .write message)
      (hrun : ∀ how, p.stage ≠ .ended how) :
      Move p (.interrupt k) { p with stage := .ended .interrupted } [.ended .interrupted]

theorem step_move (p : Process) (e : ProcessEvent) : Move p e (p.step e).1 (p.step e).2 := by
  obtain ⟨stage, l, disk, rec⟩ := p
  cases e with
  | go clicks response =>
    cases stage with
    | events => exact .fetch clicks response rfl
    | next =>
      simp only [Process.step]
      split
      · exact .give rfl ‹_›
      · exact .stop rfl ‹_› (Or.inl ⟨rfl, rfl⟩)
      · rename_i e l hne hread
        refine .stop rfl hread (Or.inr ⟨rfl, ?_⟩)
        rintro rfl
        exact hne rfl
    | record message => exact .copy rfl
    | write message => exact .send rfl
    | describe message =>
      simp only [Process.step]
      split
      · exact .describe rfl ‹_›
      · exact .garbled rfl (Bool.not_eq_true _ ▸ ‹_›)
    | read =>
      by_cases hU : response = chU
      · subst hU
        exact .answer rfl
      · simp only [Process.step, if_neg hU]
        exact .noise rfl hU
    | ended how => exact .gone rfl
  | flush n =>
    cases rec with
    | none => exact .unrecorded n rfl
    | some w => exact .flush n rfl
  | interrupt k =>
    cases stage with
    | ended how => exact .gone rfl
    | write message => exact .cut message k rfl
    | _ => exact .interrupt k (by simp) (by simp)

/-! ### One message to a `U` -/

/-- The messages out and the `U`s in, as far as the process runs. -/
def Stage.Paced (messages us : ℕ) : Stage → Prop
  | .events | .next | .record _ | .write _ => messages = us
  | .describe _ | .read => messages = us + 1
  | .ended _ => True

/-- A write comes after as many `U`s as there were writes before it. -/
def OnTime (pre : List ProcessObs) : ProcessObs → Prop
  | .wrote _ => (written pre).length = (heard pre).count chU
  | _ => True

/-- A run is paced as long as its steps are. -/
structure Pace (p : Process) (log : List ProcessObs) : Prop where
  /-- The count, -/
  stage : p.stage.Paced (written log).length ((heard log).count chU)
  /-- now and at every write. -/
  everywhere : Everywhere OnTime log

theorem Pace.step (h : Pace p log) (e : ProcessEvent) :
    Pace (p.step e).1 (log ++ (p.step e).2) := by
  obtain ⟨hstage, hall⟩ := h
  have hmove := step_move p e
  generalize (p.step e).1 = p' at hmove ⊢
  generalize (p.step e).2 = obs at hmove ⊢
  cases hmove with
  | fetch clicks response hpc | copy hpc | describe hpc hdec =>
    rw [List.append_nil]
    rw [hpc] at hstage
    exact ⟨hstage, hall⟩
  | give hpc hread =>
    rw [hpc] at hstage
    exact ⟨by simpa [written, heard, Stage.Paced] using hstage, hall.concat trivial⟩
  | stop | garbled => exact ⟨trivial, hall.concat trivial⟩
  | send hpc =>
    rw [hpc] at hstage
    exact ⟨by simpa [written, heard, Stage.Paced] using hstage, hall.concat hstage⟩
  | answer hpc =>
    rw [hpc] at hstage
    exact ⟨by simpa [written, heard, Stage.Paced] using hstage, hall.concat trivial⟩
  | noise hpc hresponse =>
    rw [hpc] at hstage
    refine ⟨?_, hall.concat trivial⟩
    rw [hpc]
    simpa [written, heard, Stage.Paced, hresponse] using hstage
  | gone | unrecorded n hrec =>
    rw [List.append_nil]
    exact ⟨hstage, hall⟩
  | flush n hrec =>
    rw [List.append_nil]
    exact ⟨hstage, hall⟩
  | cut message k hpc =>
    rw [hpc] at hstage
    refine ⟨trivial, ?_⟩
    have hcut := hall.concat (o := .wrote (message.take k)) hstage
    simpa using hcut.concat (o := .ended .interrupted) trivial
  | interrupt k hpc hrun => exact ⟨trivial, hall.concat trivial⟩

/-- **The messages go out one to a `U`.** In every run, each write to the port comes after exactly
as many `U`s as there were writes before it: none is written unasked, and no `U` is wasted. Anything
else on the line is skipped. -/
theorem process_paced (args : Args) (disk : Disk String) (readings : ℕ → Reading)
    (es : List ProcessEvent) : Everywhere OnTime (process args disk readings es).2 := by
  have hstart : Pace (Process.start args disk readings) [] := by
    refine ⟨?_, everywhere_nil _⟩
    rw [Process.start]
    split
    · split
      · exact rfl
      · trivial
    · exact rfl
  exact (runFrom_invariant hstart (fun _ _ e h => h.step e) es).everywhere

/-! ### What is on record -/

/-- The messages given, the bytes out and the record file, as far as the process runs; at its end
they may differ by the last message. -/
def Stage.Recorded (messages : List (List UInt8)) (sent content : List UInt8) : Stage → Prop
  | .events | .next | .describe _ | .read => sent = messages.flatten ∧ content = messages.flatten
  | .record message =>
      ∃ before, messages = before ++ [message] ∧ sent = before.flatten ∧ content = before.flatten
  | .write message =>
      ∃ before, messages = before ++ [message] ∧ sent = before.flatten ∧ content = messages.flatten
  | .ended _ =>
      messages.dropLast.flatten <+: sent ∧ sent <+: content ∧ content <+: messages.flatten

variable {messages : List (List UInt8)} {sent content : List UInt8} {stage : Stage} {r f : String}

/-- Whatever the stage, nothing but the last message is in question. -/
theorem Stage.Recorded.between (h : stage.Recorded messages sent content) (how : Ending) :
    (Stage.ended how).Recorded messages sent content := by
  cases stage with
  | events | next | describe | read =>
    obtain ⟨rfl, rfl⟩ := h
    refine ⟨?_, List.prefix_rfl, List.prefix_rfl⟩
    obtain ⟨rest, hrest⟩ := List.dropLast_prefix messages
    exact ⟨rest.flatten, by rw [← List.flatten_append, hrest]⟩
  | record message =>
    obtain ⟨before, rfl, rfl, rfl⟩ := h
    refine ⟨by rw [List.dropLast_concat], List.prefix_rfl, ?_⟩
    rw [List.flatten_append]
    exact List.prefix_append _ _
  | write message =>
    obtain ⟨before, rfl, rfl, rfl⟩ := h
    refine ⟨by rw [List.dropLast_concat], ?_, List.prefix_rfl⟩
    rw [List.flatten_append]
    exact List.prefix_append _ _
  | ended _ => exact h

/-- **The record file is open**, and backs what the stage says it holds. -/
def Recording (r : String) (p : Process) (log : List ProcessObs) : Prop :=
  ∃ w content, p.recordfile = some w ∧ w.name = r ∧ w.Backs p.disk content ∧
    p.stage.Recorded (given log) (written log).flatten content

theorem Recording.step (h : Recording r p log) (e : ProcessEvent) :
    Recording r (p.step e).1 (log ++ (p.step e).2) := by
  obtain ⟨w, content, hrec, rfl, hback, hstage⟩ := h
  have hmove := step_move p e
  generalize (p.step e).1 = p' at hmove ⊢
  generalize (p.step e).2 = obs at hmove ⊢
  cases hmove with
  | fetch clicks response hpc =>
    rw [hpc] at hstage
    rw [List.append_nil]
    exact ⟨w, content, hrec, rfl, hback, hstage⟩
  | @give _ _ _ message _ hpc hread =>
    obtain ⟨hgiven, hwritten⟩ := frame_given log message
    rw [hpc] at hstage
    refine ⟨w, content, hrec, rfl, hback, given log, hgiven, ?_, hstage.2⟩
    rw [hwritten]
    exact hstage.1
  | @stop _ _ _ how _ hpc hread hhow =>
    obtain ⟨hgiven, hwritten⟩ := frame_ended log how
    refine ⟨w, content, hrec, rfl, hback, ?_⟩
    rw [hgiven, hwritten]
    exact hstage.between how
  | @copy _ _ message hpc =>
    rw [hpc] at hstage
    obtain ⟨before, hgiven, hsent, rfl⟩ := hstage
    rw [List.append_nil]
    refine ⟨w.write message, before.flatten ++ message, by rw [hrec]; rfl, rfl,
      hback.write message, before, hgiven, hsent, ?_⟩
    rw [hgiven, List.flatten_concat]
  | @send _ _ message hpc =>
    obtain ⟨hgiven, hwritten⟩ := frame_wrote log message
    rw [hpc] at hstage
    obtain ⟨before, hmessages, hsent, hcontent⟩ := hstage
    refine ⟨w, content, hrec, rfl, hback, ?_, ?_⟩
    · rw [hgiven, hwritten, hmessages, List.flatten_concat, List.flatten_concat, hsent]
    · rw [hgiven]
      exact hcontent
  | describe hpc hdec =>
    rw [hpc] at hstage
    rw [List.append_nil]
    exact ⟨w, content, hrec, rfl, hback, hstage⟩
  | garbled hpc hdec =>
    obtain ⟨hgiven, hwritten⟩ := frame_ended log (.raised .unicodeDecodeError)
    refine ⟨w, content, hrec, rfl, hback, ?_⟩
    rw [hgiven, hwritten]
    exact hstage.between _
  | answer hpc =>
    obtain ⟨hgiven, hwritten⟩ := frame_heard log chU
    rw [hpc] at hstage
    refine ⟨w, content, hrec, rfl, hback, ?_⟩
    rw [hgiven, hwritten]
    exact hstage
  | @noise _ response hpc hresponse =>
    obtain ⟨hgiven, hwritten⟩ := frame_heard log response
    refine ⟨w, content, hrec, rfl, hback, ?_⟩
    rw [hgiven, hwritten]
    exact hstage
  | gone | unrecorded n hnone =>
    rw [List.append_nil]
    exact ⟨w, content, hrec, rfl, hback, hstage⟩
  | flush n hw =>
    obtain rfl := Option.some_inj.mp (hrec.symm.trans hw)
    rw [List.append_nil]
    exact ⟨_, content, rfl, rfl, hback.flush n, hstage⟩
  | cut message k hpc =>
    -- the file has the message, and the port has the beginning of it
    obtain ⟨hgiven, hwritten⟩ := frame_wrote log (message.take k)
    obtain ⟨hgiven', hwritten'⟩ := frame_ended (log ++ [.wrote (message.take k)]) .interrupted
    rw [hpc] at hstage
    obtain ⟨before, hmessages, hsent, hcontent⟩ := hstage
    refine ⟨w, content, hrec, rfl, hback, ?_⟩
    rw [List.append_cons, hgiven', hwritten', hgiven, hwritten, hcontent, hmessages,
      List.flatten_concat, hsent]
    refine ⟨?_, ?_, List.prefix_rfl⟩
    · rw [List.dropLast_concat]
      exact List.prefix_append _ _
    · rw [List.flatten_concat, List.prefix_append_right_inj]
      exact List.take_prefix k message
  | interrupt k hpc hrun =>
    obtain ⟨hgiven, hwritten⟩ := frame_ended log .interrupted
    refine ⟨w, content, hrec, rfl, hback, ?_⟩
    rw [hgiven, hwritten]
    exact hstage.between _

theorem recording_start {args : Args} (hargs : args.record = some r) (disk : Disk String)
    (readings : ℕ → Reading) : Recording r (Process.start args disk readings) [] := by
  have hback : (Writer.new r).Backs (args.enter disk) [] := by
    rw [Args.enter, hargs]
    exact backs_new disk r
  rw [Process.start, hargs]
  split
  · split
    · exact ⟨_, [], rfl, rfl, hback, rfl, rfl⟩
    · exact ⟨_, [], rfl, rfl, hback, List.prefix_rfl, List.prefix_rfl, List.prefix_rfl⟩
  · exact ⟨_, [], rfl, rfl, hback, rfl, rfl⟩

/-- What is on the disk at the end. -/
theorem Recording.exit (h : Recording r p log) :
    ∃ content, p.exit r = some content ∧
      (given log).dropLast.flatten <+: (written log).flatten ∧
      (written log).flatten <+: content ∧ content <+: (given log).flatten := by
  obtain ⟨w, content, hrec, rfl, hback, hstage⟩ := h
  refine ⟨content, ?_, hstage.between .finished⟩
  rw [Process.exit, hrec]
  exact hback.close

theorem recording_process {args : Args} (hargs : args.record = some r) (disk : Disk String)
    (readings : ℕ → Reading) (es : List ProcessEvent) :
    Recording r (process args disk readings es).1 (process args disk readings es).2 :=
  runFrom_invariant (recording_start hargs disk readings) (fun _ _ e h => h.step e) es

/-- **The record file is what went out**, whenever and however the process ends, and whenever its
buffer goes to the disk. It begins with all that was written to the port, it ends within what the
stack gave, and everything the stack gave has gone out but for the last message. -/
theorem process_recorded {args : Args} (hargs : args.record = some r) (disk : Disk String)
    (readings : ℕ → Reading) (es : List ProcessEvent) :
    let x := process args disk readings es
    ∃ content, x.1.exit r = some content ∧
      (given x.2).dropLast.flatten <+: (written x.2).flatten ∧
      (written x.2).flatten <+: content ∧ content <+: (given x.2).flatten :=
  (recording_process hargs disk readings es).exit

/-- Ctrl-C with three bytes of the first message out: the file has the message. -/
theorem process_recorded_cut :
    let x := process ⟨some "r", none, false⟩ (fun _ => none) (fun _ => Reading.idle)
      (List.replicate 3 (.go 0 chU) ++ [.interrupt 3])
    (written x.2).flatten = [0x30, 0x38, 0x30] ∧
      ∃ content, x.1.exit "r" = some content ∧
        (given x.2).dropLast.flatten <+: (written x.2).flatten ∧
        (written x.2).flatten <+: content ∧ content <+: (given x.2).flatten :=
  ⟨by decide +kernel, process_recorded rfl _ _ _⟩

/-! ### Playing a file -/

/-- **The file on the stack**, or what is left of it. As long as it has not been opened, no message
has been given and nothing is on record. -/
def Process.Rest (f : String) (messages rest : List (List UInt8)) (p : Process) : Prop :=
  (p.l = [.replay f] ∧ rest = replayStates p.disk f ∧ messages = [] ∧
      ∀ w ∈ p.recordfile, w.pending = []) ∨
    p.l = [.started (.given rest)]

/-- A message that is no text, after others that are. -/
def Garbles (messages before : List (List UInt8)) (message : List UInt8) : Prop :=
  messages = before ++ [message] ∧ (∀ m ∈ before, decodes m = true) ∧ decodes message = false

/-- The messages given, the lines of the file with those left, and the bytes out, as far as the
process runs. All messages decode but for the one it is at. -/
def Stage.Played (lines messages rest : List (List UInt8)) (sent : List UInt8) : Stage → Prop
  | .events | .next | .read =>
      lines = messages ++ rest ∧ sent = messages.flatten ∧ ∀ m ∈ messages, decodes m = true
  | .record message | .write message =>
      lines = messages ++ rest ∧ ∃ before, messages = before ++ [message] ∧ sent = before.flatten ∧
        ∀ m ∈ before, decodes m = true
  | .describe message =>
      lines = messages ++ rest ∧ sent = messages.flatten ∧
        ∃ before, messages = before ++ [message] ∧ ∀ m ∈ before, decodes m = true
  | .ended how =>
      how = .interrupted ∧ sent <+: lines.flatten ∧ messages <+: lines ∨
        how = .finished ∧ sent = lines.flatten ∧ messages = lines ∧
          (∀ m ∈ lines, decodes m = true) ∨
        how = .raised .unicodeDecodeError ∧ sent = messages.flatten ∧ messages <+: lines ∧
          ∃ before message, Garbles messages before message

variable {lines rest : List (List UInt8)}

/-- The file is opened by the first `next`, and from there on it is a list of lines. -/
theorem read_rest (h : p.Rest f messages rest) :
    Bridge.read (Iterator.next p.disk) p.l =
      Bridge.read (Iterator.next p.disk) [.started (.given rest)] := by
  rcases h with ⟨hl, rfl, -⟩ | hl
  · rw [hl]
    rfl
  · rw [hl]

/-- **A file is being played.** -/
structure Playing (f : String) (lines : List (List UInt8)) (p : Process) (log : List ProcessObs) :
    Prop where
  /-- What is left of it, and what is done. -/
  rest : ∃ rest, ((∀ how, p.stage ≠ .ended how) → p.Rest f (given log) rest) ∧
    p.stage.Played lines (given log) rest (written log).flatten
  /-- The end is the end. -/
  ended : ∀ how, .ended how ∈ log → p.stage = .ended how

/-- No click of the left stick. -/
def ProcessEvent.Unclicked : ProcessEvent → Prop
  | .go clicks _ => clicks = 0
  | _ => True

/-- Messages at the beginning of the file are bytes at its beginning. -/
theorem flatten_isPrefix (h : messages <+: lines) : messages.flatten <+: lines.flatten := by
  obtain ⟨rest, rfl⟩ := h
  rw [List.flatten_append]
  exact List.prefix_append _ _

/-- Whatever the stage, what has been given and what is out is the beginning of the file. -/
theorem Stage.Played.between (h : stage.Played lines messages rest sent) :
    sent <+: lines.flatten ∧ messages <+: lines := by
  cases stage with
  | events | next | read =>
    obtain ⟨rfl, rfl, -⟩ := h
    exact ⟨flatten_isPrefix (List.prefix_append _ _), List.prefix_append _ _⟩
  | describe message =>
    obtain ⟨rfl, rfl, -⟩ := h
    exact ⟨flatten_isPrefix (List.prefix_append _ _), List.prefix_append _ _⟩
  | record message | write message =>
    obtain ⟨rfl, before, rfl, rfl, -⟩ := h
    refine ⟨flatten_isPrefix ?_, List.prefix_append _ _⟩
    exact (List.prefix_append before [message]).trans (List.prefix_append _ _)
  | ended how =>
    rcases h with ⟨-, hsent, hmessages⟩ | ⟨-, rfl, rfl, -⟩ | ⟨-, rfl, hmessages, -⟩
    · exact ⟨hsent, hmessages⟩
    · exact ⟨List.prefix_rfl, List.prefix_rfl⟩
    · exact ⟨flatten_isPrefix hmessages, hmessages⟩

/-- Flushing a buffer with nothing in it changes nothing. -/
theorem flush_of_pending_eq_nil {w : Writer String} (hw : w.pending = []) (n : ℕ)
    (disk : Disk String) : (w.flush n disk).2 = disk ∧ (w.flush n disk).1.pending = [] := by
  have htake : w.pending.take n = [] := by rw [hw, List.take_nil]
  refine ⟨?_, by rw [Writer.flush, hw]; exact List.drop_nil⟩
  rw [Writer.flush, htake]
  have hmap : ((disk w.name).map fun content => overwrite content w.pos []) = disk w.name := by
    cases disk w.name <;> rfl
  rw [hmap]
  exact Function.update_eq_self _ _

/-- The process has ended, one way and no other. -/
theorem playing_ended {how : Ending} (hend : ∀ how', .ended how' ∈ log → how' = how)
    (hp : p.stage = .ended how)
    (h : (Stage.ended how).Played lines (given log) [] (written log).flatten) :
    Playing f lines p log where
  rest := ⟨[], fun hrun => absurd hp (hrun how), by rw [hp]; exact h⟩
  ended := fun how' hmem => by rw [hend how' hmem, hp]

theorem Playing.step (h : Playing f lines p log) (e : ProcessEvent) (he : e.Unclicked) :
    Playing f lines (p.step e).1 (log ++ (p.step e).2) := by
  obtain ⟨⟨rest, hrest, hstage⟩, hended⟩ := h
  have hmove := step_move p e
  generalize (p.step e).1 = p' at hmove ⊢
  generalize (p.step e).2 = obs at hmove ⊢
  -- while the process runs, no end has been seen
  have hopen : (∀ how, p.stage ≠ .ended how) → ∀ how, .ended how ∉ log :=
    fun hrun how hmem => hrun how (hended how hmem)
  have hmore : (∀ how, p.stage ≠ .ended how) → (∀ how, .ended how ∉ obs) →
      ∀ how, .ended how ∈ log ++ obs → p'.stage = .ended how :=
    fun hrun hobs how hmem => ((List.mem_append.mp hmem).elim (hopen hrun how) (hobs how)).elim
  cases hmove with
  | fetch clicks response hpc =>
    obtain rfl : clicks = 0 := he
    have hrun : ∀ how, p.stage ≠ .ended how := by simp [hpc]
    rw [hpc] at hstage
    refine ⟨⟨rest, fun _ => ?_, ?_⟩, hmore hrun (by simp)⟩
    · rw [List.append_nil]
      exact hrest hrun
    · rw [List.append_nil]
      exact hstage
  | @give _ _ _ message _ hpc hread =>
    have hrun : ∀ how, p.stage ≠ .ended how := by simp [hpc]
    obtain ⟨hgiven, hwritten⟩ := frame_given log message
    rw [read_rest (hrest hrun)] at hread
    rw [hpc] at hstage
    rcases rest with - | ⟨line, rest⟩
    · exact absurd hread (by simp [Bridge.read, Iterator.next, Source.next])
    · obtain ⟨⟨rfl, rfl⟩, rfl⟩ : (_ ∧ line = message) ∧ _ := by
        simpa [Bridge.read, Iterator.next, Source.next] using hread
      obtain ⟨hlines, hsent, hdec⟩ := hstage
      refine ⟨⟨rest, fun _ => Or.inr rfl, ?_, given log, hgiven, ?_, hdec⟩, hmore hrun (by simp)⟩
      · rw [hgiven, hlines, List.append_assoc, List.singleton_append]
      · rw [hwritten]
        exact hsent
  | @stop _ _ exn how _ hpc hread hhow =>
    have hrun : ∀ how, p.stage ≠ .ended how := by simp [hpc]
    obtain ⟨hgiven, hwritten⟩ := frame_ended log how
    rw [read_rest (hrest hrun)] at hread
    rw [hpc] at hstage
    obtain ⟨hlines, hsent, hdec⟩ := hstage
    -- only a file that has been read to its end raises, and only `StopIteration`
    rcases rest with - | ⟨line, rest⟩
    · obtain ⟨rfl, rfl⟩ : Exn.stopIteration = exn ∧ _ := by
        simpa [Bridge.read, Iterator.next, Source.next] using hread
      obtain rfl : how = .finished := by
        rcases hhow with ⟨h, -⟩ | ⟨-, h⟩
        · exact h
        · exact absurd rfl h
      rw [List.append_nil] at hlines
      refine playing_ended (fun how' hmem => ?_) rfl (Or.inr (Or.inl ⟨rfl, ?_, ?_, ?_⟩))
      · exact (List.mem_append.mp hmem).elim (fun h => absurd h (hopen hrun how')) (by simp)
      · rw [hwritten, hsent, hlines]
      · rw [hgiven, hlines]
      · rw [hlines]
        exact hdec
    · exact absurd hread (by simp [Bridge.read, Iterator.next, Source.next])
  | @copy _ _ message hpc =>
    have hrun : ∀ how, p.stage ≠ .ended how := by simp [hpc]
    rw [hpc] at hstage
    rw [List.append_nil]
    refine ⟨⟨rest, fun _ => ?_, hstage⟩, ?_⟩
    · rcases hrest hrun with ⟨-, -, hnone, -⟩ | hl
      · obtain ⟨-, before, hmessages, -⟩ := hstage
        exact absurd (hmessages.symm.trans hnone) (by simp)
      · exact Or.inr hl
    · exact fun how hmem => absurd hmem (hopen hrun how)
  | @send _ _ message hpc =>
    have hrun : ∀ how, p.stage ≠ .ended how := by simp [hpc]
    obtain ⟨hgiven, hwritten⟩ := frame_wrote log message
    rw [hpc] at hstage
    obtain ⟨hlines, before, hmessages, hsent, hdec⟩ := hstage
    refine ⟨⟨rest, fun _ => ?_, ?_, ?_, before, ?_, hdec⟩, hmore hrun (by simp)⟩
    · rw [hgiven]
      exact hrest hrun
    · rw [hgiven]
      exact hlines
    · rw [hgiven, hwritten, hmessages, List.flatten_concat, List.flatten_concat, hsent]
    · rw [hgiven]
      exact hmessages
  | @describe _ _ message hpc hone =>
    have hrun : ∀ how, p.stage ≠ .ended how := by simp [hpc]
    rw [hpc] at hstage
    rw [List.append_nil]
    obtain ⟨hlines, hsent, before, hmessages, hdec⟩ := hstage
    refine ⟨⟨rest, fun _ => hrest hrun, hlines, hsent, ?_⟩,
      fun how hmem => absurd hmem (hopen hrun how)⟩
    rw [hmessages, List.forall_mem_append]
    exact ⟨hdec, List.forall_mem_singleton.mpr hone⟩
  | @garbled _ _ message hpc hone =>
    have hrun : ∀ how, p.stage ≠ .ended how := by simp [hpc]
    obtain ⟨hgiven, hwritten⟩ := frame_ended log (.raised .unicodeDecodeError)
    rw [hpc] at hstage
    have hle := hstage.between.2
    obtain ⟨hlines, hsent, before, hmessages, hdec⟩ := hstage
    refine playing_ended (fun how' hmem => ?_) rfl
      (Or.inr (Or.inr ⟨rfl, ?_, ?_, before, message, ?_⟩))
    · exact (List.mem_append.mp hmem).elim (fun h => absurd h (hopen hrun how')) (by simp)
    · rw [hwritten, hgiven, hsent]
    · rw [hgiven]
      exact hle
    · rw [hgiven]
      exact ⟨hmessages, hdec, hone⟩
  | answer hpc =>
    have hrun : ∀ how, p.stage ≠ .ended how := by simp [hpc]
    obtain ⟨hgiven, hwritten⟩ := frame_heard log chU
    rw [hpc] at hstage
    refine ⟨⟨rest, fun _ => ?_, ?_⟩, hmore hrun (by simp)⟩
    · rw [hgiven]
      exact hrest hrun
    · rw [hgiven, hwritten]
      exact hstage
  | @noise _ response hpc hresponse =>
    have hrun : ∀ how, p.stage ≠ .ended how := by simp [hpc]
    obtain ⟨hgiven, hwritten⟩ := frame_heard log response
    refine ⟨⟨rest, fun _ => ?_, ?_⟩, hmore hrun (by simp)⟩
    · rw [hgiven]
      exact hrest hrun
    · rw [hgiven, hwritten]
      exact hstage
  | gone | unrecorded n hnone =>
    rw [List.append_nil]
    exact ⟨⟨rest, hrest, hstage⟩, hended⟩
  | flush n hw =>
    rw [List.append_nil]
    refine ⟨⟨rest, fun hrun => ?_, hstage⟩, hended⟩
    rcases hrest hrun with ⟨hl, hlines, hnone, hpending⟩ | hl
    · obtain ⟨hdisk, hnext⟩ := flush_of_pending_eq_nil (hpending _ hw) n p.disk
      refine Or.inl ⟨hl, ?_, hnone, ?_⟩
      · rw [hdisk]
        exact hlines
      · rintro w' ⟨rfl⟩
        exact hnext
    · exact Or.inr hl
  | cut message k hpc =>
    have hrun : ∀ how, p.stage ≠ .ended how := by simp [hpc]
    obtain ⟨hgiven, hwritten⟩ := frame_wrote log (message.take k)
    obtain ⟨hgiven', hwritten'⟩ := frame_ended (log ++ [.wrote (message.take k)]) .interrupted
    rw [hpc] at hstage
    obtain ⟨-, hmessages'⟩ := hstage.between
    obtain ⟨-, before, hmessages, hsent, -⟩ := hstage
    refine playing_ended (fun how' hmem => ?_) rfl (Or.inl ⟨rfl, ?_, ?_⟩)
    · exact (List.mem_append.mp hmem).elim (fun h => absurd h (hopen hrun how')) (by simp)
    · -- the bytes that went out are the beginning of the message
      have hbytes := flatten_isPrefix hmessages'
      rw [List.append_cons, hwritten', hwritten, List.flatten_concat, hsent]
      rw [hmessages, List.flatten_concat] at hbytes
      exact ((List.prefix_append_right_inj _).mpr (List.take_prefix k message)).trans hbytes
    · rw [List.append_cons, hgiven', hgiven]
      exact hmessages'
  | interrupt k hpc hrun =>
    obtain ⟨hgiven, hwritten⟩ := frame_ended log .interrupted
    obtain ⟨hsent, hmessages⟩ := hstage.between
    refine playing_ended (fun how' hmem => ?_) rfl (Or.inl ⟨rfl, ?_, ?_⟩)
    · exact (List.mem_append.mp hmem).elim (fun h => absurd h (hopen hrun how')) (by simp)
    · rw [hwritten]
      exact hsent
    · rw [hgiven]
      exact hmessages

/-- The setup of a playback that is to end with the file. -/
theorem start_playback {args : Args} (hplay : args.playback = some f)
    (hexit : args.dontexit = false) (disk : Disk String) (readings : ℕ → Reading) :
    Process.start args disk readings =
      ⟨.events, [.replay f], args.enter disk, args.record.map Writer.new⟩ := by
  rw [Process.start, if_neg (by simp [hplay, hexit]), hplay]
  rfl

/-- A file that is not there is played as an empty one. -/
theorem replayStates_eq (disk : Disk String) (f : String) :
    replayStates disk f = readlines ((disk f).getD []) := by
  rw [replayStates]
  cases disk f <;> rfl

theorem pending_of_new {args : Args} : ∀ w ∈ args.record.map Writer.new, w.pending = [] := by
  rintro w hw
  obtain ⟨r, -, rfl⟩ := Option.mem_map.mp hw
  rfl

theorem playing_start {args : Args} (hplay : args.playback = some f) (hexit : args.dontexit = false)
    (disk : Disk String) (readings : ℕ → Reading) :
    Playing f (readlines ((args.enter disk f).getD [])) (Process.start args disk readings) [] := by
  rw [start_playback hplay hexit, ← replayStates_eq]
  exact ⟨⟨replayStates (args.enter disk) f, fun _ => Or.inl ⟨rfl, rfl, rfl, pending_of_new⟩, rfl,
    rfl, List.forall_mem_nil _⟩, by simp⟩

theorem playing_process {args : Args} (hplay : args.playback = some f)
    (hexit : args.dontexit = false) (disk : Disk String) (readings : ℕ → Reading)
    {es : List ProcessEvent} (hclicks : ∀ e ∈ es, e.Unclicked) :
    Playing f (readlines ((args.enter disk f).getD [])) (process args disk readings es).1
      (process args disk readings es).2 :=
  runFrom_invariant_of_guard (P := Playing f (readlines ((args.enter disk f).getD [])))
    (G := fun _ _ e => e.Unclicked) (playing_start hplay hexit disk readings)
    (fun _ _ e h he => h.step e he) fun _ e he => hclicks e (he.subset (by simp))

/-- A statement is executed, and if it is a read of the port, it gets a `U`. -/
def ProcessEvent.isAnswer : ProcessEvent → Bool
  | .go _ response => response == chU
  | _ => false

/-- The statements to the end, where every read gets a `U` and `n` messages are left. -/
def Stage.toEnd (n : ℕ) : Stage → ℕ
  | .events => 6 * n + 1
  | .next => 6 * n
  | .record _ => 6 * n + 5
  | .write _ => 6 * n + 4
  | .describe _ => 6 * n + 3
  | .read => 6 * n + 2
  | .ended _ => 0

/-- The messages left, of the file on the stack. -/
def Process.left (p : Process) : ℕ :=
  match p.l with
  | [.replay f] => (replayStates p.disk f).length
  | [.started (.given rest)] => rest.length
  | _ => 0

/-- The process runs, with nothing but the file on the stack. -/
structure Process.Runs (f : String) (p : Process) : Prop where
  /-- It has not ended. -/
  running : ∀ how, p.stage ≠ .ended how
  /-- The file is there, unopened or in part. -/
  file : (p.l = [.replay f] ∧ (p.stage = .events ∨ p.stage = .next) ∧
    ∀ w ∈ p.recordfile, w.pending = []) ∨ ∃ rest, p.l = [.started (.given rest)]

/-- The process is not interrupted. -/
def ProcessEvent.Uninterrupted : ProcessEvent → Prop
  | .interrupt _ => False
  | _ => True

/-- **Every statement brings the end closer**, but for a read that gets no `U`. -/
theorem toEnd_step (h : p.Runs f) (e : ProcessEvent) (he : e.Unclicked) (hint : e.Uninterrupted) :
    (∃ how, how ≠ .interrupted ∧ .ended how ∈ (p.step e).2) ∨ (p.step e).1.Runs f ∧
      (p.step e).1.stage.toEnd (p.step e).1.left ≤ p.stage.toEnd p.left ∧
      (e.isAnswer = true → (p.step e).1.stage.toEnd (p.step e).1.left < p.stage.toEnd p.left) := by
  have hmove := step_move p e
  generalize (p.step e).1 = p' at hmove ⊢
  generalize (p.step e).2 = obs at hmove ⊢
  obtain ⟨hrun, hfile⟩ := h
  have hread : ∃ rest, rest.length = p.left ∧ Bridge.read (Iterator.next p.disk) p.l =
      Bridge.read (Iterator.next p.disk) [.started (.given rest)] := by
    rcases hfile with ⟨hl, -, hpending⟩ | ⟨rest, hl⟩
    · have hrest : p.Rest f [] (replayStates p.disk f) := Or.inl ⟨hl, rfl, rfl, hpending⟩
      exact ⟨replayStates p.disk f, by rw [Process.left, hl], read_rest hrest⟩
    · exact ⟨rest, by rw [Process.left, hl], by rw [hl]⟩
  cases hmove with
  | fetch clicks response hpc =>
    obtain rfl : clicks = 0 := he
    refine Or.inr ⟨⟨by simp, hfile.imp (fun h => ⟨h.1, Or.inr rfl, h.2.2⟩) id⟩, ?_⟩
    rw [hpc]
    change 6 * p.left ≤ 6 * p.left + 1 ∧ (_ → 6 * p.left < 6 * p.left + 1)
    omega
  | give hpc hgive =>
    obtain ⟨rest, hlen, hread⟩ := hread
    rw [hread] at hgive
    rcases rest with - | ⟨line, rest⟩
    · exact absurd hgive (by simp [Bridge.read, Iterator.next, Source.next])
    · obtain ⟨-, rfl⟩ : _ ∧ [Iterator.started (.given rest)] = _ := by
        simpa [Bridge.read, Iterator.next, Source.next] using hgive
      refine Or.inr ⟨⟨by simp, Or.inr ⟨rest, rfl⟩⟩, ?_⟩
      rw [hpc, ← hlen]
      change 6 * rest.length + 5 ≤ 6 * (rest.length + 1) ∧
        (_ → 6 * rest.length + 5 < 6 * (rest.length + 1))
      omega
  | @stop _ _ exn how _ hpc hstop hhow =>
    obtain ⟨rest, hlen, hread⟩ := hread
    rw [hread] at hstop
    rcases rest with - | ⟨line, rest⟩
    · obtain ⟨rfl, -⟩ : Exn.stopIteration = exn ∧ _ := by
        simpa [Bridge.read, Iterator.next, Source.next] using hstop
      rcases hhow with ⟨rfl, -⟩ | ⟨-, hne⟩
      · exact Or.inl ⟨.finished, by simp, List.mem_cons_self⟩
      · exact absurd rfl hne
    · exact absurd hstop (by simp [Bridge.read, Iterator.next, Source.next])
  | copy hpc =>
    have hstarted := hfile.resolve_left fun h => by simp [hpc] at h
    refine Or.inr ⟨⟨by simp, Or.inr hstarted⟩, ?_⟩
    rw [hpc]
    change 6 * p.left + 4 ≤ 6 * p.left + 5 ∧ (_ → 6 * p.left + 4 < 6 * p.left + 5)
    omega
  | send hpc =>
    have hstarted := hfile.resolve_left fun h => by simp [hpc] at h
    refine Or.inr ⟨⟨by simp, Or.inr hstarted⟩, ?_⟩
    rw [hpc]
    change 6 * p.left + 3 ≤ 6 * p.left + 4 ∧ (_ → 6 * p.left + 3 < 6 * p.left + 4)
    omega
  | describe hpc hdec =>
    have hstarted := hfile.resolve_left fun h => by simp [hpc] at h
    refine Or.inr ⟨⟨by simp, Or.inr hstarted⟩, ?_⟩
    rw [hpc]
    change 6 * p.left + 2 ≤ 6 * p.left + 3 ∧ (_ → 6 * p.left + 2 < 6 * p.left + 3)
    omega
  | garbled hpc hdec =>
    exact Or.inl ⟨.raised .unicodeDecodeError, by simp, List.mem_cons_self⟩
  | answer hpc =>
    have hstarted := hfile.resolve_left fun h => by simp [hpc] at h
    refine Or.inr ⟨⟨by simp, Or.inr hstarted⟩, ?_⟩
    rw [hpc]
    change 6 * p.left + 1 ≤ 6 * p.left + 2 ∧ (_ → 6 * p.left + 1 < 6 * p.left + 2)
    omega
  | noise hpc hresponse =>
    refine Or.inr ⟨⟨hrun, hfile⟩, le_rfl, fun hanswer => ?_⟩
    exact absurd (by simpa [ProcessEvent.isAnswer] using hanswer) hresponse
  | gone hpc => exact absurd hpc (hrun _)
  | unrecorded n hnone =>
    exact Or.inr ⟨⟨hrun, hfile⟩, le_rfl, fun hanswer => absurd hanswer Bool.false_ne_true⟩
  | @flush w n hw =>
    have hsame : Process.left { p with
        disk := (w.flush n p.disk).2, recordfile := some (w.flush n p.disk).1 } = p.left := by
      rcases hfile with ⟨hl, -, hpending⟩ | ⟨rest, hl⟩
      · rw [Process.left, Process.left, hl, (flush_of_pending_eq_nil (hpending w hw) n p.disk).1]
      · rw [Process.left, Process.left, hl]
    refine Or.inr ⟨⟨hrun, ?_⟩, ?_, fun hanswer => absurd hanswer Bool.false_ne_true⟩
    · refine hfile.imp (fun h => ⟨h.1, h.2.1, ?_⟩) id
      rintro w' ⟨rfl⟩
      exact (flush_of_pending_eq_nil (h.2.2 w hw) n p.disk).2
    · rw [hsame]
  | cut | interrupt => exact absurd hint id

/-- **A playback sends the file, and stops.** Without `--dontexit` and without a click of the left
stick: what is on the line is always the beginning of the file, as it was when the record file had
been opened. The process finishes only with the whole file sent. The only exception it raises is
`UnicodeDecodeError`, right after the first line that does not decode. And if it is not interrupted
it does end, six statements to the line, once enough of its reads get a `U`: it has finished if all
lines decode, and raised the exception if not. -/
theorem process_playback {args : Args} (hplay : args.playback = some f)
    (hexit : args.dontexit = false) (disk : Disk String) (readings : ℕ → Reading)
    {es : List ProcessEvent} (hclicks : ∀ e ∈ es, e.Unclicked) :
    let x := process args disk readings es
    let file := (args.enter disk f).getD []
    (written x.2).flatten <+: file ∧
      (x.1.stage = .ended .finished → (written x.2).flatten = file) ∧
      (∀ exn, x.1.stage = .ended (.raised exn) → exn = .unicodeDecodeError ∧
        ∃ before line after, readlines file = before ++ line :: after ∧
          (∀ line' ∈ before, decodes line' = true) ∧ decodes line = false ∧
          (written x.2).flatten = (before ++ [line]).flatten) ∧
      ((∀ e ∈ es, e.Uninterrupted) →
        6 * (readlines file).length + 1 < es.countP ProcessEvent.isAnswer →
        x.1.stage = .ended (if (readlines file).all decodes then .finished
          else .raised .unicodeDecodeError)) := by
  intro x file
  have hplaying : Playing f (readlines file) x.1 x.2 :=
    playing_process hplay hexit disk readings hclicks
  obtain ⟨⟨rest, -, hstage⟩, hended⟩ := hplaying
  have hsent := hstage.between.1
  rw [flatten_readlines] at hsent
  refine ⟨hsent, fun hpc => ?_, fun exn hpc => ?_, fun hint hlong => ?_⟩
  · rw [hpc] at hstage
    rcases hstage with ⟨h, -⟩ | ⟨-, hall, -⟩ | ⟨h, -⟩
    · exact absurd h (by simp)
    · exact hall.trans (flatten_readlines file)
    · exact absurd h (by simp)
  · rw [hpc] at hstage
    rcases hstage with ⟨h, -⟩ | ⟨h, -⟩ | ⟨h, hall, ⟨after, hafter⟩, before, line, hgarbled⟩
    · exact absurd h (by simp)
    · exact absurd h (by simp)
    · obtain ⟨hgiven, hbefore, hline⟩ := hgarbled
      refine ⟨by simpa using h, before, line, after, ?_, hbefore, hline, ?_⟩
      · rw [← hafter, hgiven, List.append_assoc, List.singleton_append]
      · rw [hall, hgiven]
  · have hstart := start_playback hplay hexit disk readings
    have hruns : (Process.start args disk readings).Runs f := by
      rw [hstart]
      exact ⟨by simp, Or.inl ⟨rfl, Or.inl rfl, pending_of_new⟩⟩
    let φ : Process → ℕ := fun p => p.stage.toEnd p.left
    have hleft : φ (Process.start args disk readings) = 6 * (readlines file).length + 1 := by
      rw [hstart]
      change 6 * (replayStates (args.enter disk) f).length + 1 = _
      rw [replayStates_eq]
    have hwork : ∀ p, p.Runs f → ∀ e ∈ es, e.isAnswer = true →
        (∃ o ∈ (p.step e).2, ∃ how, how ≠ .interrupted ∧ o = .ended how) ∨
          (p.step e).1.Runs f ∧ φ (p.step e).1 < φ p := by
      intro p hp e he hanswer
      rcases toEnd_step hp e (hclicks e he) (hint e he) with ⟨how, hhow, h⟩ | ⟨hp', -, hlt⟩
      · exact Or.inl ⟨_, h, how, hhow, rfl⟩
      · exact Or.inr ⟨hp', hlt hanswer⟩
    have hidle : ∀ p, p.Runs f → ∀ e ∈ es, e.isAnswer = false →
        (∃ o ∈ (p.step e).2, ∃ how, how ≠ .interrupted ∧ o = .ended how) ∨
          (p.step e).1.Runs f ∧ φ (p.step e).1 ≤ φ p + 0 := by
      intro p hp e he _
      rcases toEnd_step hp e (hclicks e he) (hint e he) with ⟨how, hhow, h⟩ | ⟨hp', hle, -⟩
      · exact Or.inl ⟨_, h, how, hhow, rfl⟩
      · exact Or.inr ⟨hp', hle⟩
    obtain ⟨o, ho, how, hhow, rfl⟩ :=
      exists_of_potential φ (Process.Runs f) hwork hidle hruns (by omega)
    -- it has ended; the lines that were sent tell how
    have hpc : x.1.stage = .ended how := hended how ho
    rw [hpc] at hstage ⊢
    rcases hstage with ⟨h, -⟩ | ⟨rfl, -, -, hall⟩ | ⟨rfl, -, hle, before, line, hgiven, -, hline⟩
    · exact absurd h hhow
    · rw [if_pos (List.all_eq_true.mpr hall)]
    · rw [if_neg fun hall => ?_]
      have hmem : line ∈ readlines file := hle.subset (by rw [hgiven]; simp)
      exact absurd ((List.all_eq_true.mp hall line hmem).symm.trans hline) (by decide)

/-- A file of two lines, the second unterminated, with an `X` among the answers: it is sent as it
is. And one whose first line is not text: the exception comes after that line. -/
theorem process_playback_two :
    let es := List.replicate 5 (ProcessEvent.go 0 chX) ++ List.replicate 14 (.go 0 chU)
    let x := process ⟨none, some "f", false⟩ (fun _ => some [0x30, 0x0a, 0x31])
      (fun _ => Reading.idle) es
    let y := process ⟨none, some "f", false⟩ (fun _ => some [0xff, 0x0a, 0x30, 0x0a])
      (fun _ => Reading.idle) es
    ((written x.2).flatten = [0x30, 0x0a, 0x31] ∧ x.1.stage = .ended .finished) ∧
      (written y.2).flatten = [0xff, 0x0a] ∧
      y.1.stage = .ended (.raised .unicodeDecodeError) := by
  intro es x y
  have hplay : (⟨none, some "f", false⟩ : Args).playback = some "f" := rfl
  have hes : ∀ e ∈ es, e.Unclicked ∧ e.Uninterrupted := by
    intro e he
    rcases List.mem_append.mp he with he | he <;> rw [List.eq_of_mem_replicate he] <;>
      exact ⟨rfl, trivial⟩
  have hx := process_playback hplay rfl (fun _ => some [0x30, 0x0a, 0x31]) (fun _ => Reading.idle)
    fun e he => (hes e he).1
  have hy := process_playback hplay rfl (fun _ => some [0xff, 0x0a, 0x30, 0x0a])
    (fun _ => Reading.idle) fun e he => (hes e he).1
  have hfinished : x.1.stage = .ended .finished :=
    (hx.2.2.2 (fun e he => (hes e he).2) (by decide +kernel)).trans (by decide +kernel)
  have hraised : y.1.stage = .ended (.raised .unicodeDecodeError) :=
    (hy.2.2.2 (fun e he => (hes e he).2) (by decide +kernel)).trans (by decide +kernel)
  exact ⟨⟨hx.2.1 hfinished, hfinished⟩, by decide +kernel, hraised⟩

/-- **Recording over the file that is played erases it.** With `--playback` and `--record` on one
file, and no click of the left stick, nothing is ever sent, and the file is left empty. -/
theorem process_erased {args : Args} (hplay : args.playback = some f) (hrec : args.record = some f)
    (hexit : args.dontexit = false) (disk : Disk String) (readings : ℕ → Reading)
    {es : List ProcessEvent} (hclicks : ∀ e ∈ es, e.Unclicked) :
    let x := process args disk readings es
    (written x.2).flatten = [] ∧ x.1.exit f = some [] := by
  intro x
  have hfile : (args.enter disk f).getD [] = [] := by
    rw [Args.enter, hrec]
    exact congrArg (Option.getD · []) (Function.update_self f (some []) disk)
  have hplaying := playing_process hplay hexit disk readings hclicks
  rw [hfile] at hplaying
  obtain ⟨⟨rest, -, hstage⟩, -⟩ := hplaying
  obtain ⟨content, hcontent, -, hsent, hle⟩ := (recording_process hrec disk readings es).exit
  obtain rfl : content = [] := List.prefix_nil.mp (hle.trans (flatten_isPrefix hstage.between.2))
  exact ⟨List.prefix_nil.mp hsent, hcontent⟩

/-- A line is lost. -/
theorem process_erased_one :
    let x := process ⟨some "f", some "f", false⟩ (fun _ => some [0x30, 0x0a])
      (fun _ => Reading.idle) [.go 0 chU, .go 0 chU]
    (written x.2).flatten = [] ∧ x.1.exit "f" = some [] :=
  process_erased rfl rfl rfl _ _ (by simp [ProcessEvent.Unclicked])

end Bridge

end SwitchController
