import SwitchController.Lib.Files
import SwitchController.Bridge.Sources
import Mathlib.Data.List.TakeWhile

/-!
# Recording and replaying

What `InputStack` reads is copied to the record file and to the macro file, and
`replay_states` reads such a file back. The copies go through buffers that reach the disk
when Python sees fit, so the session is followed down to the disk here:
`SwitchController.Bridge.Session` is the stack of `SwitchController.Bridge.InputStack` with
a disk and two buffered writers beside it, and the buffers may be written out, in part,
between any two operations.

A recording of lines replays as those lines, so that replays may be recorded again
(`SwitchController.Bridge.Allowed`). The theorem is
`SwitchController.Bridge.session_replay`. What it leaves out is a matter of names: a macro
recorded under the name of the record file itself writes over it.
-/

namespace SwitchController

namespace Bridge

open EventMachine Firmware FileStore

/-! ### The session -/

/-- **A session**: the stack of sources, and the files it writes. -/
structure Session where
  /-- The stack. -/
  stack : InputStack Source (List UInt8)
  /-- The files. -/
  disk : Disk String
  /-- `self.recordfile`. -/
  recordfile : Option (Writer String)
  /-- `self.macrofile`. -/
  macrofile : Option (Writer String)

/-- What is observed of a session. -/
inductive SessionObs where
  /-- Something of the stack. -/
  | stack (o : StackObs Source (List UInt8))
  /-- `macro_start` opened a file. -/
  | opened (filename : String)

/-- What can happen: an operation, or some bytes of a buffer reach the disk. -/
inductive SessionEvent where
  | op (o : StackOp Source)
  | flushRecord (n : ℕ)
  | flushMacro (n : ℕ)

/-- The messages `__next__` returned. -/
def messages (log : List SessionObs) : List (List UInt8) :=
  log.filterMap fun
    | .stack (.returned _ message) => some message
    | _ => none

/-- `InputStack(recordfilename)` entered: the record file is opened, and emptied. -/
def Session.enter (disk : Disk String) (recordfilename : String) : Session where
  stack := InputStack.empty true
  disk := disk.truncate recordfilename
  recordfile := some (Writer.new recordfilename)
  macrofile := none

/-- A message is written to the files that are open. -/
def Session.copy (s : Session) (data : List UInt8) : Session :=
  { s with
    recordfile := s.recordfile.map (·.write data)
    macrofile := s.macrofile.map (·.write data) }

/-- `macro_start`, past its test. -/
def Session.openMacro (s : Session) (filename : String) : Session :=
  { s with disk := s.disk.truncate filename, macrofile := some (Writer.new filename) }

/-- **One event of a session.** What the stack does is `SwitchController.Bridge.InputStack.step`;
the files follow it. -/
def Session.step (s : Session) : SessionEvent → Session × List SessionObs
  | .op o =>
      let r := s.stack.step Source.next o
      let os := r.2.map SessionObs.stack
      let t : Session := { s with stack := r.1 }
      match o with
      | .push _ => (t, os)
      | .next => (t.copy (messages os).flatten, os)
      | .macroStart filename => match s.macrofile with
          | none => (t.openMacro filename, os ++ [.opened filename])
          | some _ => (t, os)
      | .macroEnd => match s.macrofile with
          | none => (t, os)
          | some w => ({ t with disk := w.close s.disk, macrofile := none }, os)
  | .flushRecord n => match s.recordfile with
      | none => (s, [])
      | some w => ({ s with disk := (w.flush n s.disk).2, recordfile := some (w.flush n s.disk).1 },
          [])
  | .flushMacro n => match s.macrofile with
      | none => (s, [])
      | some w => ({ s with disk := (w.flush n s.disk).2, macrofile := some (w.flush n s.disk).1 },
          [])

/-- A session from a disk, with a record file. -/
def session (disk : Disk String) (recordfilename : String) (es : List SessionEvent) :
    Session × List SessionObs :=
  runFrom Session.step (Session.enter disk recordfilename) es

/-- **`__exit__`**: the record file is closed, then the macro file; what is on the disk then. -/
def Session.exit (s : Session) : Disk String :=
  let disk := match s.recordfile with
    | none => s.disk
    | some w => w.close s.disk
  match s.macrofile with
  | none => disk
  | some w => w.close disk

/-- **`replay_states`**: the lines of a file, or nothing where there is none. -/
def replayStates (disk : Disk String) (filename : String) : List (List UInt8) :=
  match disk filename with
  | none => []
  | some content => readlines content

/-! ### What the log says about a macro file -/

/-- `macro_end` closed the macro file. -/
def closes : SessionObs → Bool
  | .stack (.macroClosed _ _) => true
  | _ => false

/-- The messages of a macro: those up to its end. -/
def macroBody (post : List SessionObs) : List (List UInt8) :=
  messages (post.takeWhile fun o => !closes o)

/-- **The last time a file was opened** as a macro file, with what the log has after it. -/
def LastOpened (f : String) (post log : List SessionObs) : Prop :=
  (∃ pre, log = pre ++ .opened f :: post) ∧ .opened f ∉ post

variable {s : Session} {log post : List SessionObs} {r f : String}

@[simp] theorem messages_append (log log' : List SessionObs) :
    messages (log ++ log') = messages log ++ messages log' := by
  simp [messages]

theorem LastOpened.mem (h : LastOpened f post log) : .opened f ∈ log := by
  obtain ⟨⟨pre, rfl⟩, -⟩ := h
  simp

theorem LastOpened.messages_subset (h : LastOpened f post log) : messages post ⊆ messages log := by
  obtain ⟨⟨pre, rfl⟩, -⟩ := h
  rw [messages_append]
  exact List.subset_append_right _ (messages post)

/-- One observation more: the file is opened by it, or was before. -/
theorem lastOpened_concat {o : SessionObs} (h : LastOpened f post (log ++ [o])) :
    (o = .opened f ∧ post = []) ∨
      o ≠ .opened f ∧ ∃ post', LastOpened f post' log ∧ post = post' ++ [o] := by
  obtain ⟨⟨pre, hlog⟩, hpost⟩ := h
  -- by the end of `post`: if it is empty, the observation is the opening itself
  rcases List.eq_nil_or_concat' post with rfl | ⟨post', o', rfl⟩
  · obtain ⟨-, ho⟩ := List.append_inj' hlog rfl
    exact Or.inl ⟨by simpa using ho, rfl⟩
  · have hcut : log ++ [o] = (pre ++ .opened f :: post') ++ [o'] := by simpa using hlog
    obtain ⟨hpre, ho⟩ := List.append_inj' hcut rfl
    obtain rfl : o = o' := by simpa using ho
    have hmem : SessionObs.opened f ∉ post' ∧ o ≠ .opened f := by
      simpa [not_or, eq_comm] using hpost
    exact Or.inr ⟨hmem.2, post', ⟨⟨pre, hpre⟩, hmem.1⟩, rfl⟩

theorem macroBody_of_open (h : ∀ o ∈ post, closes o = false) : macroBody post = messages post := by
  have hall : post.takeWhile (fun o => !closes o) = post :=
    List.takeWhile_eq_self_iff.mpr fun o ho => by rw [h o ho]; rfl
  rw [macroBody, hall]

theorem macroBody_concat_of_closed {o : SessionObs} (h : ∃ o' ∈ post, closes o' = true) :
    macroBody (post ++ [o]) = macroBody post := by
  obtain ⟨o', ho', hc⟩ := h
  rw [macroBody, List.takeWhile_append, if_neg]
  · rfl
  · -- `takeWhile` stops inside `post`, so it does not see what comes after
    intro hlen
    have hall := List.takeWhile_eq_self_iff.mp ((List.takeWhile_sublist _).eq_of_length hlen)
    simpa [hc] using hall o' ho'

/-- The observation that closes the file is not of the macro. -/
theorem macroBody_concat_close {o : SessionObs} (h : ∀ o ∈ post, closes o = false)
    (ho : closes o = true) : macroBody (post ++ [o]) = messages post := by
  have hall : ∀ o ∈ post, (!closes o) = true := fun o ho => by rw [h o ho]; rfl
  rw [macroBody, List.takeWhile_append_of_pos hall, List.takeWhile_cons_of_neg (by simp [ho]),
    List.append_nil]

theorem macroBody_subset (post : List SessionObs) : macroBody post ⊆ messages post :=
  ((List.takeWhile_sublist _).filterMap _).subset

/-! ### The files follow the log -/

/-- **Where a macro is**: the file is open and backed by its writer, or it is closed, and the
disk has all of it. -/
def Kept (s : Session) (f : String) (post : List SessionObs) : Prop :=
  ((∀ o ∈ post, closes o = false) ∧
      ∃ w, s.macrofile = some w ∧ w.name = f ∧ w.Backs s.disk (messages post).flatten) ∨
    (∃ o ∈ post, closes o = true) ∧ s.disk f = some (macroBody post).flatten ∧
      ∀ w, s.macrofile = some w → w.name ≠ f

/-- **The files are copies of what was read.** -/
structure Copied (r : String) (s : Session) (log : List SessionObs) : Prop where
  /-- Every source gives lines, -/
  sources : ∀ src ∈ s.stack.l, src.Lines
  /-- and lines are what was read. -/
  lines : ∀ m ∈ messages log, IsLine m
  /-- The record file has everything that was read. -/
  record : ∃ w, s.recordfile = some w ∧ w.name = r ∧ w.Backs s.disk (messages log).flatten
  /-- A macro file is open for the stack when it is open. -/
  synced : s.stack.macrofile.isSome = s.macrofile.isSome
  /-- It is not the record file. -/
  apart : ∀ w, s.macrofile = some w → w.name ≠ r
  /-- Every macro file has its macro. -/
  kept : ∀ f post, LastOpened f post log → Kept s f post

/-- **What is asked of a session**: that the sources pushed are of the kind given, and that no
macro file has the name of the record file. -/
structure Fair (P : Source → Prop) (r : String) (log : List SessionObs) : Prop where
  sources : ∀ src, .stack (.pushed src) ∈ log → P src
  names : .opened r ∉ log

theorem Fair.of_append {P : Source → Prop} {log' : List SessionObs} (h : Fair P r (log ++ log')) :
    Fair P r log :=
  ⟨fun src hsrc => h.sources src (List.mem_append_left _ hsrc),
    fun hr => h.names (List.mem_append_left _ hr)⟩

theorem copied_enter (disk : Disk String) (r : String) : Copied r (Session.enter disk r) [] where
  sources := List.forall_mem_nil _
  lines := List.forall_mem_nil _
  record := ⟨Writer.new r, rfl, rfl, backs_new disk r⟩
  synced := rfl
  apart := by simp [Session.enter]
  kept := by
    intro f post h
    exact absurd h.mem (by simp)

/-- What is closed stays as it is while nothing is written to it. -/
theorem Kept.of_closed {o : SessionObs} {t : Session} (hclosed : ∃ o ∈ post, closes o = true)
    (hdisk : s.disk f = some (macroBody post).flatten) (hd : t.disk f = s.disk f)
    (hf : ∀ w, t.macrofile = some w → w.name ≠ f) : Kept t f (post ++ [o]) := by
  refine Or.inr ⟨?_, ?_, hf⟩
  · obtain ⟨o', ho', hc⟩ := hclosed
    exact ⟨o', List.mem_append_left _ ho', hc⟩
  · rw [hd, hdisk, macroBody_concat_of_closed hclosed]

/-- **A macro goes on** by what is read. -/
theorem Kept.copy (h : Kept s f post) {o : SessionObs} (ho : closes o = false) {t : Session}
    (hd : t.disk = s.disk)
    (hf : t.macrofile = s.macrofile.map (·.write (messages [o]).flatten)) :
    Kept t f (post ++ [o]) := by
  -- an open file gets the message; a closed one is not written to, its name being another
  rcases h with ⟨hopen, w, hw, hname, hback⟩ | ⟨hclosed, hdisk, hapart⟩
  · refine Or.inl ⟨?_, w.write (messages [o]).flatten, by rw [hf, hw]; rfl, hname, ?_⟩
    · intro o' ho'
      rcases List.mem_append.mp ho' with ho' | ho'
      · exact hopen o' ho'
      · rw [List.mem_singleton.mp ho', ho]
    · rw [messages_append, List.flatten_append, hd]
      exact hback.write _
  · refine Kept.of_closed hclosed hdisk (by rw [hd]) fun w hw => ?_
    rw [hf] at hw
    obtain ⟨w', hw', rfl⟩ := Option.map_eq_some_iff.mp hw
    exact hapart w' hw'

/-- A macro that is elsewhere on the disk. -/
theorem Kept.of_eq (h : Kept s f post) {t : Session} (hd : t.disk f = s.disk f)
    (hf : t.macrofile = s.macrofile) : Kept t f post := by
  rcases h with ⟨hopen, w, hw, rfl, hback⟩ | ⟨hclosed, hdisk, hapart⟩
  · exact Or.inl ⟨hopen, w, hf.trans hw, rfl, hback.of_eq hd⟩
  · exact Or.inr ⟨hclosed, hd.trans hdisk, hf ▸ hapart⟩

/-- While no macro is recorded all are closed. -/
theorem Kept.closed_of_none (h : Kept s f post) (hs : s.macrofile = none) :
    (∃ o ∈ post, closes o = true) ∧ s.disk f = some (macroBody post).flatten := by
  rcases h with ⟨-, w, hw, -⟩ | ⟨hclosed, hdisk, -⟩
  · exact absurd (hs.symm.trans hw) (by simp)
  · exact ⟨hclosed, hdisk⟩

/-- **A message is copied** to the files that are open; or nothing is, there being none. -/
theorem Copied.copy (h : Copied r s log) {o : SessionObs} (stack : InputStack Source (List UInt8))
    (hopen : ∀ f, o ≠ .opened f) (hclose : closes o = false)
    (hsources : ∀ src ∈ stack.l, src.Lines) (hline : ∀ m ∈ messages [o], IsLine m)
    (hfile : stack.macrofile.isSome = s.stack.macrofile.isSome) :
    Copied r ({ s with stack := stack }.copy (messages [o]).flatten) (log ++ [o]) where
  sources := hsources
  lines := by
    intro m hm
    rcases List.mem_append.mp (messages_append log [o] ▸ hm) with hm | hm
    · exact h.lines m hm
    · exact hline m hm
  record := by
    obtain ⟨w, hw, hname, hback⟩ := h.record
    refine ⟨w.write (messages [o]).flatten, by simp [Session.copy, hw], hname, ?_⟩
    rw [messages_append, List.flatten_append]
    exact hback.write _
  synced := by
    rw [Session.copy, Option.isSome_map, ← h.synced, ← hfile]
  apart := by
    intro w hw
    obtain ⟨w', hw', rfl⟩ := Option.map_eq_some_iff.mp hw
    exact h.apart w' hw'
  kept := by
    intro f post hlast
    rcases lastOpened_concat hlast with ⟨ho, -⟩ | ⟨-, post', hlast', rfl⟩
    · exact absurd ho (hopen f)
    · exact (h.kept f post' hlast').copy hclose rfl rfl

/-- **`macro_start`** while no macro is being recorded. -/
theorem Copied.openMacro (h : Copied r s log) {g : String} (hs : s.macrofile = none) (hg : g ≠ r)
    {stack : InputStack Source (List UInt8)} (hl : stack.l = s.stack.l)
    (hfile : stack.macrofile.isSome = true) :
    Copied r ({ s with stack := stack }.openMacro g) (log ++ [.opened g]) where
  sources := hl ▸ h.sources
  lines := by
    rw [messages_append]
    simpa [messages] using h.lines
  record := by
    obtain ⟨w, hw, rfl, hback⟩ := h.record
    refine ⟨w, hw, rfl, ?_⟩
    rw [messages_append, show messages [.opened g] = [] from rfl, List.append_nil]
    exact hback.of_eq (Function.update_of_ne hg.symm _ _)
  synced := hfile
  apart := by
    rintro w hw
    obtain rfl : Writer.new g = w := Option.some_inj.mp hw
    exact hg
  kept := by
    intro f post hlast
    rcases lastOpened_concat hlast with ⟨ho, rfl⟩ | ⟨ho, post', hlast', rfl⟩
    · obtain rfl : g = f := by simpa using ho
      exact Or.inl ⟨List.forall_mem_nil _, Writer.new g, rfl, rfl, backs_new _ g⟩
    · -- every other macro is closed, and its file not touched
      have hne : f ≠ g := fun he => ho (he ▸ rfl)
      obtain ⟨hclosed, hdisk⟩ := (h.kept f post' hlast').closed_of_none hs
      refine Kept.of_closed hclosed hdisk (Function.update_of_ne hne _ _) fun w hw => ?_
      obtain rfl : Writer.new g = w := Option.some_inj.mp hw
      exact hne.symm

/-- **`macro_end`** while a macro is being recorded. -/
theorem Copied.closeMacro (h : Copied r s log) {w : Writer String} (hs : s.macrofile = some w)
    {o : SessionObs} (hopen : ∀ f, o ≠ .opened f) (ho : closes o = true) (hm : messages [o] = [])
    {stack : InputStack Source (List UInt8)} (hl : stack.l = s.stack.l)
    (hfile : stack.macrofile = none) :
    Copied r { s with stack := stack, disk := w.close s.disk, macrofile := none }
      (log ++ [o]) where
  sources := hl ▸ h.sources
  lines := by
    rw [messages_append, hm, List.append_nil]
    exact h.lines
  record := by
    obtain ⟨w', hw', rfl, hback⟩ := h.record
    refine ⟨w', hw', rfl, ?_⟩
    rw [messages_append, hm, List.append_nil]
    exact hback.of_eq (close_of_ne (h.apart w hs).symm)
  synced := by rw [hfile]; rfl
  apart := by simp
  kept := by
    intro f post hlast
    rcases lastOpened_concat hlast with ⟨he, -⟩ | ⟨-, post', hlast', rfl⟩
    · exact absurd he (hopen f)
    · -- the macro that ends has its buffer written; the files of the others are not touched
      rcases h.kept f post' hlast' with ⟨hop, w', hw', rfl, hback⟩ | ⟨hclosed, hdisk, hapart⟩
      · obtain rfl : w = w' := Option.some_inj.mp (hs.symm.trans hw')
        refine Or.inr ⟨⟨o, by simp, ho⟩, ?_, by simp⟩
        rw [macroBody_concat_close hop ho]
        exact hback.close
      · exact Kept.of_closed hclosed hdisk (close_of_ne (hapart w hs).symm) (by simp)

/-- The buffer of the record file goes to the disk. -/
theorem Copied.flushRecord (h : Copied r s log) (hr : .opened r ∉ log) (n : ℕ) :
    Copied r (s.step (.flushRecord n)).1 log := by
  obtain ⟨w, hw, rfl, hback⟩ := h.record
  simp only [Session.step, hw]
  refine ⟨h.sources, h.lines, ⟨_, rfl, rfl, hback.flush n⟩, h.synced, h.apart, ?_⟩
  intro f post hlast
  -- no macro file has the name of the record file, so none is written to
  have hne : f ≠ w.name := by
    rintro rfl
    exact hr hlast.mem
  exact (h.kept f post hlast).of_eq (flush_of_ne hne n) rfl

/-- The buffer of the macro file goes to the disk. -/
theorem Copied.flushMacro (h : Copied r s log) (n : ℕ) :
    Copied r (s.step (.flushMacro n)).1 log := by
  cases hs : s.macrofile with
  | none =>
    simp only [Session.step, hs]
    exact h
  | some w =>
    have happart := h.apart w hs
    simp only [Session.step, hs]
    refine ⟨h.sources, h.lines, ?_, by rw [h.synced, hs]; rfl, ?_, ?_⟩
    · obtain ⟨w', hw', rfl, hback⟩ := h.record
      exact ⟨w', hw', rfl, hback.of_eq (flush_of_ne happart.symm n)⟩
    · rintro w' hw'
      obtain rfl : (w.flush n s.disk).1 = w' := Option.some_inj.mp hw'
      exact happart
    · intro f post hlast
      rcases h.kept f post hlast with ⟨hop, w', hw', rfl, hback⟩ | ⟨hclosed, hdisk, hapart⟩
      · obtain rfl : w = w' := Option.some_inj.mp (hs.symm.trans hw')
        exact Or.inl ⟨hop, _, rfl, rfl, hback.flush n⟩
      · refine Or.inr ⟨hclosed, (flush_of_ne (hapart w hs).symm n).trans hdisk, fun w' hw' => ?_⟩
        obtain rfl : (w.flush n s.disk).1 = w' := Option.some_inj.mp hw'
        exact hapart w hs

theorem copy_nil (s : Session) : s.copy [] = s := by
  simp [Session.copy, Writer.write]

/-- `__next__`: whatever it does, the files have what it returns. -/
theorem Copied.next (h : Copied r s log) :
    Copied r (s.step (.op .next)).1 (log ++ (s.step (.op .next)).2) := by
  obtain ⟨hsources, hline⟩ := read_lines h.sources
  simp only [Session.step, InputStack.step]
  generalize read Source.next s.stack.l = result at hsources hline
  obtain ⟨e | ⟨src, m⟩, l⟩ := result
  · exact h.copy _ (by simp) rfl hsources (List.forall_mem_nil _) rfl
  · refine h.copy (o := .stack (.returned src m)) _ (by simp) rfl hsources ?_ ?_
    · exact List.forall_mem_singleton.mpr (hline src m rfl)
    · simp [InputStack.write]

theorem Copied.stack_macrofile (h : Copied r s log) (hs : s.macrofile = none) :
    s.stack.macrofile = none := by
  have hsync := h.synced
  rwa [hs, Option.isSome_none, Option.isSome_eq_false_iff, Option.isNone_iff_eq_none] at hsync

theorem Copied.exists_stack_macrofile (h : Copied r s log) {w : Writer String}
    (hs : s.macrofile = some w) : ∃ content, s.stack.macrofile = some content := by
  have hsync := h.synced
  rwa [hs, Option.isSome_some, Option.isSome_iff_exists] at hsync

/-- `macro_start` while a macro is being recorded does nothing, -/
theorem Copied.step_macroStart (h : Copied r s log) {w : Writer String}
    (hs : s.macrofile = some w) (g : String) : s.step (.op (.macroStart g)) = (s, []) := by
  obtain ⟨content, hcontent⟩ := h.exists_stack_macrofile hs
  obtain ⟨⟨l, record, content'⟩, disk, recordfile, macrofile⟩ := s
  obtain rfl : macrofile = some w := hs
  obtain rfl : content' = some content := hcontent
  rfl

/-- and so does `macro_end` while none is. -/
theorem Copied.step_macroEnd (h : Copied r s log) (hs : s.macrofile = none) :
    s.step (.op .macroEnd) = (s, []) := by
  have hcontent := h.stack_macrofile hs
  obtain ⟨⟨l, record, content'⟩, disk, recordfile, macrofile⟩ := s
  obtain rfl : macrofile = none := hs
  obtain rfl : content' = none := hcontent
  rfl

theorem Copied.step (h : Copied r s log) (e : SessionEvent)
    (hfair : Fair Source.Lines r (log ++ (s.step e).2)) :
    Copied r (s.step e).1 (log ++ (s.step e).2) := by
  rcases e with (src | - | g | -) | n | n
  · -- to push a source is to copy a message of no bytes
    have hsrc : src.Lines := hfair.sources src (by simp [Session.step, InputStack.step])
    have hcopy := h.copy (o := .stack (.pushed src)) (s.stack.push src) (by simp) rfl
      (List.forall_mem_cons.mpr ⟨hsrc, h.sources⟩) (List.forall_mem_nil _) rfl
    rwa [show (messages [.stack (.pushed src)]).flatten = [] from rfl, copy_nil] at hcopy
  · exact h.next
  · cases hs : s.macrofile with
    | none =>
      simp only [Session.step, InputStack.step, hs, h.stack_macrofile hs] at hfair ⊢
      refine h.openMacro hs ?_ rfl rfl
      rintro rfl
      exact hfair.names (by simp)
    | some w =>
      rw [h.step_macroStart hs, List.append_nil]
      exact h
  · cases hs : s.macrofile with
    | none =>
      rw [h.step_macroEnd hs, List.append_nil]
      exact h
    | some w =>
      obtain ⟨content, hcontent⟩ := h.exists_stack_macrofile hs
      simp only [Session.step, InputStack.step, hs, hcontent]
      exact h.closeMacro hs (by simp) rfl rfl rfl rfl
  · -- a flush shows nothing, and moves bytes of one file only
    have hnil : (s.step (.flushRecord n)).2 = [] := by
      cases hs : s.recordfile <;> simp [Session.step, hs]
    rw [hnil, List.append_nil] at hfair ⊢
    exact h.flushRecord hfair.names n
  · have hnil : (s.step (.flushMacro n)).2 = [] := by
      cases hs : s.macrofile <;> simp [Session.step, hs]
    rw [hnil, List.append_nil]
    exact h.flushMacro n

/-- **In every state a session reaches the files are copies of what was read.** -/
theorem session_copied (disk : Disk String) (r : String) (es : List SessionEvent)
    (hfair : Fair Source.Lines r (session disk r es).2) :
    Copied r (session disk r es).1 (session disk r es).2 :=
  runFrom_invariant (P := fun s log => Fair Source.Lines r log → Copied r s log)
    (fun _ => copied_enter disk r)
    (fun _ _ e h hfair => (h hfair.of_append).step e hfair) es hfair

/-! ### Replaying -/

theorem Copied.replay_record (h : Copied r s log) : replayStates s.exit r = messages log := by
  obtain ⟨w, hw, rfl, hback⟩ := h.record
  have hexit : s.exit w.name = some (messages log).flatten := by
    rw [Session.exit, hw]
    cases hs : s.macrofile with
    | none => exact hback.close
    | some w' => exact (close_of_ne (h.apart w' hs).symm).trans hback.close
  rw [replayStates, hexit]
  exact readlines_flatten h.lines

theorem Copied.replay_macro (h : Copied r s log) (hr : .opened r ∉ log)
    (hlast : LastOpened f post log) : replayStates s.exit f = macroBody post := by
  obtain ⟨w, hw, hname, -⟩ := h.record
  have hne : f ≠ w.name := by
    rintro rfl
    exact hr (hname ▸ hlast.mem)
  have hexit : s.exit f = some (macroBody post).flatten := by
    rw [Session.exit, hw]
    -- `__exit__` closes the macro file, if one is open, after the record file
    rcases h.kept f post hlast with ⟨hop, w', hw', rfl, hback⟩ | ⟨hclosed, hdisk, hapart⟩
    · rw [hw', macroBody_of_open hop]
      exact (hback.of_eq (close_of_ne hne)).close
    · cases hs : s.macrofile with
      | none => exact (close_of_ne hne).trans hdisk
      | some w' => exact (close_of_ne (hapart w' hs).symm).trans ((close_of_ne hne).trans hdisk)
  rw [replayStates, hexit]
  exact readlines_flatten fun m hm =>
    h.lines m (hlast.messages_subset (macroBody_subset post hm))

/-- **The sources a session may have**: the controller, the example macro, and replays of what
such sessions recorded. -/
inductive Allowed : Source → Prop where
  /-- `controller_states`. -/
  | live (readings : ℕ → Reading) : Allowed (.live readings)
  /-- `example_macro`. -/
  | exampleMacro : Allowed (.given exampleMacro)
  /-- `replay_states` of a record file. -/
  | record (disk : Disk String) (r : String) (es : List SessionEvent)
      (hsources : ∀ src, .stack (.pushed src) ∈ (session disk r es).2 → Allowed src)
      (hnames : .opened r ∉ (session disk r es).2) :
      Allowed (.given (replayStates (session disk r es).1.exit r))
  /-- `replay_states` of a macro file. -/
  | macroFile (disk : Disk String) (r : String) (es : List SessionEvent)
      (hsources : ∀ src, .stack (.pushed src) ∈ (session disk r es).2 → Allowed src)
      (hnames : .opened r ∉ (session disk r es).2) (f : String) (post : List SessionObs)
      (hlast : LastOpened f post (session disk r es).2) :
      Allowed (.given (replayStates (session disk r es).1.exit f))

/-- **Replays are lines again**, by induction on how they came about. -/
theorem Allowed.lines {src : Source} (h : Allowed src) : src.Lines := by
  induction h with
  | live readings => trivial
  | exampleMacro => exact isLine_macroMessages _ _ _ _
  | record disk r es hsources hnames ih =>
    have hcopied := session_copied disk r es ⟨ih, hnames⟩
    intro m hm
    rw [hcopied.replay_record] at hm
    exact hcopied.lines m hm
  | macroFile disk r es hsources hnames f post hlast ih =>
    have hcopied := session_copied disk r es ⟨ih, hnames⟩
    intro m hm
    rw [hcopied.replay_macro hnames hlast] at hm
    exact hcopied.lines m (hlast.messages_subset (macroBody_subset post hm))

/-- **Recording and replaying reproduces the run.** In every session whose sources are allowed,
whenever the buffers go to the disk, and in which no macro file has the name of the record
file: the record file replays the messages `__next__` returned; each macro file replays
those returned between the last `macro_start` that opened it and the next `macro_end`, or
the end; and in the state reached, `macro_start` while a macro is being recorded and
`macro_end` while none is have no effect. -/
theorem session_replay (disk : Disk String) (r : String) (es : List SessionEvent)
    (hfair : Fair Allowed r (session disk r es).2) :
    replayStates (session disk r es).1.exit r = messages (session disk r es).2 ∧
      (∀ f post, LastOpened f post (session disk r es).2 →
        replayStates (session disk r es).1.exit f = macroBody post) ∧
      (∀ f, (session disk r es).1.macrofile.isSome = true →
        (session disk r es).1.step (.op (.macroStart f)) = ((session disk r es).1, [])) ∧
      ((session disk r es).1.macrofile = none →
        (session disk r es).1.step (.op .macroEnd) = ((session disk r es).1, [])) := by
  have hlines : Fair Source.Lines r (session disk r es).2 :=
    ⟨fun src hsrc => (hfair.sources src hsrc).lines, hfair.names⟩
  have h := session_copied disk r es hlines
  refine ⟨h.replay_record, fun f post hlast => h.replay_macro hfair.names hlast, ?_, ?_⟩
  · intro f hs
    obtain ⟨w, hw⟩ := Option.isSome_iff_exists.mp hs
    exact h.step_macroStart hw f
  · exact h.step_macroEnd

theorem eq_push_of_mem_step {src : Source} {e : SessionEvent}
    (h : .stack (.pushed src) ∈ (s.step e).2) : e = .op (.push src) := by
  rcases e with (src' | - | g | -) | n | n
  · obtain rfl : src = src' := by simpa [Session.step, InputStack.step] using h
    rfl
  · simp only [Session.step, InputStack.step] at h
    split at h <;> simp at h
  · simp only [Session.step, InputStack.step] at h
    split at h <;> split at h <;> simp at h
  · simp only [Session.step, InputStack.step] at h
    split at h <;> split at h <;> simp at h
  · simp only [Session.step] at h
    split at h <;> simp at h
  · simp only [Session.step] at h
    split at h <;> simp at h

theorem eq_macroStart_of_mem_step {g : String} {e : SessionEvent} (h : .opened g ∈ (s.step e).2) :
    e = .op (.macroStart g) := by
  rcases e with (src' | - | g' | -) | n | n
  · simp [Session.step, InputStack.step] at h
  · simp only [Session.step, InputStack.step] at h
    split at h <;> simp at h
  · simp only [Session.step] at h
    split at h
    · obtain rfl : g = g' := by simpa using h
      rfl
    · simp at h
  · simp only [Session.step] at h
    split at h <;> simp at h
  · simp only [Session.step] at h
    split at h <;> simp at h
  · simp only [Session.step] at h
    split at h <;> simp at h

/-- The events alone show that a session is fair. -/
theorem fair_of_events {P : Source → Prop} (disk : Disk String) {es : List SessionEvent}
    (hsources : ∀ src, .op (.push src) ∈ es → P src) (hnames : .op (.macroStart r) ∉ es) :
    Fair P r (session disk r es).2 := by
  constructor
  · intro src hsrc
    obtain ⟨t, e, he, ho⟩ := exists_step_of_mem_runFrom hsrc
    exact hsources src (eq_push_of_mem_step ho ▸ he)
  · intro hr
    obtain ⟨t, e, he, ho⟩ := exists_step_of_mem_runFrom hr
    exact hnames (eq_macroStart_of_mem_step ho ▸ he)

/-- A controller that is let go after the first reading. -/
def released : Source := .live fun n => if n = 0 then Reading.sample else Reading.idle

/-- A session with a macro of one message in it, some bytes of the record file going to the
disk early. -/
def sampleSession (macroname : String) : List SessionEvent :=
  [.op (.push released), .op .next, .flushRecord 3, .op (.macroStart macroname), .op .next]

/-- The two messages of the sample, and the macro of one. -/
theorem session_replay_sample :
    ∃ disk : Disk String,
      replayStates (session disk "record" (sampleSession "macro")).1.exit "record" =
        [hexlify [1, 0, 0x42, 0, 128, 128, 255] ++ [lf],
          hexlify [8, 0, 0, 128, 128, 128, 128] ++ [lf]] ∧
      replayStates (session disk "record" (sampleSession "macro")).1.exit "macro" =
        [hexlify [8, 0, 0, 128, 128, 128, 128] ++ [lf]] := by
  refine ⟨fun _ => none, ?_⟩
  have hfair : Fair Allowed "record"
      (session (fun _ => none) "record" (sampleSession "macro")).2 := by
    refine fair_of_events _ (fun src hsrc => ?_) (by simp [sampleSession])
    obtain rfl : src = released := by simpa [sampleSession] using hsrc
    exact Allowed.live _
  obtain ⟨hrecord, hfile, -⟩ := session_replay _ "record" (sampleSession "macro") hfair
  have hlast : LastOpened "macro"
      ((session (fun _ => none) "record" (sampleSession "macro")).2.drop 3)
      (session (fun _ => none) "record" (sampleSession "macro")).2 := by
    refine ⟨⟨(session (fun _ => none) "record" (sampleSession "macro")).2.take 2, rfl⟩, ?_⟩
    exact fun h => by cases h; contradiction
  rw [hrecord, hfile "macro" _ hlast]
  decide +kernel

/-- **A macro under the name of the record file** writes over the recording. -/
theorem session_replay_clash :
    ∃ (disk : Disk String) (r : String) (es : List SessionEvent),
      (∀ src, .stack (.pushed src) ∈ (session disk r es).2 → Allowed src) ∧
        replayStates (session disk r es).1.exit r ≠ messages (session disk r es).2 := by
  refine ⟨fun _ => none, "record", sampleSession "record", ?_, by decide +kernel⟩
  intro src hsrc
  obtain ⟨t, e, he, ho⟩ := exists_step_of_mem_runFrom hsrc
  rw [eq_push_of_mem_step ho] at he
  obtain rfl : src = released := by simpa [sampleSession] using he
  exact Allowed.live _

end Bridge

end SwitchController
