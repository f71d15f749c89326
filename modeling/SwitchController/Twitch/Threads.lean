import SwitchController.Twitch.Run

/-!
# Threads

`getOutput` builds the line in the attribute `output` of the controller, field by field, and
`send_and_reset` then reads the attribute and sends what it finds. The main thread, the thread of
the socket and the timers all do so with the same four objects and without a lock, and the
interpreter may switch between them at any reading or writing of an attribute. So one statement
of the scripts is many operations here (`SwitchController.Twitch.PadAct.ops`), and a run is any
interleaving of the operations of the threads.

The scripts take a statement for one step. That is right for a controller if nobody else is in the
middle of a statement on the same controller (`SwitchController.Twitch.interleaved_eq_serial`);
what happens to the other three in between does not matter. It is half right if only sends are
kept apart: fields may change while a line is built, so it need not be the state of the controller
at any moment, but it is well formed, and every part of it was right at some moment of the send
(`SwitchController.Twitch.torn_send`). Of two sends at the same time, in contrast, one may
transmit any piece of its line from the start, down to none of it
(`SwitchController.Twitch.race_cuts`).
-/

namespace SwitchController

namespace Twitch

open EventMachine

/-! ### Operations -/

/-- The attributes `getOutput` reads. -/
inductive Attr where
  | dpad
  | button (btn : Btn)
  | axis (s : Stick)
  deriving DecidableEq

/-- The attributes in the order of the line. -/
def Attr.all : List Attr :=
  .dpad :: (Btn.all.map .button ++ [Stick.lx, .ly, .rx, .ry].map .axis)

/-- What is added to the line for an attribute. -/
def Attr.text (k : Controller) : Attr → Str
  | .dpad => natStr k.dpad
  | .button btn => [pressedDigit (k.pressed btn)]
  | .axis s => ' ' :: intStr (k.stick s)

theorem getOutput_eq_flatMap (k : Controller) :
    k.getOutput = Attr.all.flatMap (Attr.text k) := by
  have hbuttons : Btn.all.map (fun btn => pressedDigit (k.pressed btn)) =
      (Btn.all.map Attr.button).flatMap (Attr.text k) := by
    rw [List.flatMap_map]
    exact List.map_eq_flatMap
  have haxes : ([Stick.lx, .ly, .rx, .ry].flatMap fun s => ' ' :: intStr (k.stick s)) =
      ([Stick.lx, .ly, .rx, .ry].map Attr.axis).flatMap (Attr.text k) := by
    rw [List.flatMap_map]
    rfl
  rw [Controller.getOutput, hbuttons, haxes, List.append_assoc, ← List.flatMap_append]
  rfl

/-- An attribute is assigned. -/
inductive Write where
  | dpad (d : Fin 10)
  | button (btn : Btn) (v : Bool)
  | axis (s : Stick) (v : ℤ)

/-- What becomes of the controller. -/
def Write.apply (k : Controller) : Write → Controller
  | .dpad d => { k with dpad := d }
  | .button btn v => k.set btn v
  | .axis s v => { k with stick := Function.update k.stick s v }

/-- **What a thread does without interruption.** -/
inductive Op where
  | write (w : Write)
  /-- `self.output = ""`. -/
  | clear
  /-- `self.output` is read, -/
  | load
  /-- what is added to it is read and added, -/
  | extend (f : Attr)
  /-- and `self.output` is assigned. -/
  | store
  /-- What was read is sent. -/
  | transmit

/-- **A controller in memory**: its attributes, and what each thread has read of `output`. -/
structure Object where
  fields : Controller
  output : Str
  held : ℕ → Str

/-- **One operation of a thread**, and the line that is sent. -/
def Object.step (o : Object) : ℕ × Op → Object × List Str
  | (_, .write w) => ({ o with fields := w.apply o.fields }, [])
  | (_, .clear) => ({ o with output := [] }, [])
  | (t, .load) => ({ o with held := Function.update o.held t o.output }, [])
  | (t, .extend f) =>
      ({ o with held := Function.update o.held t (o.held t ++ f.text o.fields) }, [])
  | (t, .store) => ({ o with output := o.held t }, [])
  | (t, .transmit) => (o, [o.held t])

/-- `self.output += ..`, for some of the attributes. -/
def appendOps (fs : List Attr) : List Op := fs.flatMap fun f => [.load, .extend f, .store]

/-- `controller.getOutput()` and `controller.send(controller.output)`. -/
def sendOps : List Op := .clear :: (appendOps Attr.all ++ [.load, .transmit])

/-- The assignments of `reset`. -/
def resetWrites : List Write :=
  .dpad dpadCenter :: (Btn.all.map (.button · false) ++
    [Stick.lx, .ly, .rx, .ry].map (.axis · stickCenter))

/-- **The assignments of a statement**, if it is no send. -/
def PadAct.writes : PadAct → List Write
  | .reset _ => resetWrites
  | .press _ btn _ => [.button btn true]
  | .release _ btn => [.button btn false]
  | .dpad _ d => [.dpad d]
  | .stick _ s v => [.axis s v]
  | .send _ => []

/-- **The operations of a statement.** -/
def PadAct.ops : PadAct → List Op
  | .send _ => sendOps
  | a => a.writes.map .write

/-! ### One statement at a time -/

/-- Operations of one thread. -/
def byThread (t : ℕ) (ops : List Op) : List (ℕ × Op) := ops.map fun op => (t, op)

@[simp] theorem byThread_nil (t : ℕ) : byThread t [] = [] := rfl

@[simp] theorem byThread_cons (t : ℕ) (op : Op) (ops : List Op) :
    byThread t (op :: ops) = (t, op) :: byThread t ops := rfl

@[simp] theorem byThread_append (t : ℕ) (ops ops' : List Op) :
    byThread t (ops ++ ops') = byThread t ops ++ byThread t ops' := List.map_append

variable (o : Object) (t : ℕ)

/-- **The line grows**, if nobody interferes. -/
theorem runFrom_appendOps (fs : List Attr) :
    (runFrom Object.step o (byThread t (appendOps fs))).1.fields = o.fields ∧
      (runFrom Object.step o (byThread t (appendOps fs))).1.output =
        o.output ++ fs.flatMap (Attr.text o.fields) ∧
      (runFrom Object.step o (byThread t (appendOps fs))).2 = [] := by
  induction fs generalizing o with
  | nil => exact ⟨rfl, (List.append_nil _).symm, rfl⟩
  | cons f fs ih =>
    obtain ⟨hfields, houtput, hlines⟩ :=
      ih (runFrom Object.step o [(t, .load), (t, .extend f), (t, .store)]).1
    have hout : (runFrom Object.step o [(t, .load), (t, .extend f), (t, .store)]).1.output =
        o.output ++ f.text o.fields := by
      simp [runFrom_cons, Object.step]
    have happ : byThread t (appendOps (f :: fs)) =
        [(t, .load), (t, .extend f), (t, .store)] ++ byThread t (appendOps fs) := by
      simp [appendOps]
    rw [happ, runFrom_append, List.flatMap_cons, ← List.append_assoc, ← hout]
    exact ⟨hfields, houtput, hlines⟩

/-- The line is begun. -/
theorem runFrom_clear_appendOps (fs : List Attr) :
    (runFrom Object.step o (byThread t (.clear :: appendOps fs))).1.fields = o.fields ∧
      (runFrom Object.step o (byThread t (.clear :: appendOps fs))).1.output =
        fs.flatMap (Attr.text o.fields) ∧
      (runFrom Object.step o (byThread t (.clear :: appendOps fs))).2 = [] := by
  rw [byThread_cons, runFrom_cons]
  exact runFrom_appendOps { o with output := [] } t fs

/-- The line is sent. -/
theorem runFrom_transmit :
    (runFrom Object.step o (byThread t [.load, .transmit])).1.fields = o.fields ∧
      (runFrom Object.step o (byThread t [.load, .transmit])).1.output = o.output ∧
      (runFrom Object.step o (byThread t [.load, .transmit])).2 = [o.output] := by
  simp [runFrom_cons, Object.step]

/-- **A send by itself** transmits the line of the controller. -/
theorem runFrom_sendOps :
    (runFrom Object.step o (byThread t sendOps)).1.fields = o.fields ∧
      (runFrom Object.step o (byThread t sendOps)).2 = [o.fields.getOutput] := by
  obtain ⟨hfields, houtput, hlines⟩ := runFrom_clear_appendOps o t Attr.all
  obtain ⟨hfields', -, hlines'⟩ :=
    runFrom_transmit (runFrom Object.step o (byThread t (.clear :: appendOps Attr.all))).1 t
  rw [sendOps, ← List.cons_append, byThread_append, runFrom_append, hlines, hlines', houtput,
    getOutput_eq_flatMap]
  exact ⟨hfields'.trans hfields, rfl⟩

/-- Assignments, one after the other. -/
theorem runFrom_writes (ws : List Write) :
    runFrom Object.step o (byThread t (ws.map .write)) =
      ({ o with fields := ws.foldl Write.apply o.fields }, []) := by
  induction ws generalizing o with
  | nil => rfl
  | cons w ws ih =>
    rw [List.map_cons, byThread_cons, runFrom_cons]
    exact congrArg (fun r : Object × List Str => (r.1, [] ++ r.2))
      (ih { o with fields := w.apply o.fields })

theorem foldl_resetWrites (k : Controller) : resetWrites.foldl Write.apply k = .neutral := by
  have hbuttons : (Btn.all.map (Write.button · false)).foldl Write.apply
      { k with dpad := dpadCenter } = ⟨dpadCenter, fun _ => false, k.stick⟩ := by
    rw [List.foldl_map]
    refine (foldl_set Btn.all (fun _ => false) { k with dpad := dpadCenter }).trans ?_
    simp [Btn.mem_all]
  have hsticks : Function.update (Function.update (Function.update (Function.update k.stick .lx
      stickCenter) .ly stickCenter) .rx stickCenter) .ry stickCenter = fun _ => stickCenter := by
    funext s
    cases s <;> rfl
  rw [resetWrites, List.foldl_cons, List.foldl_append]
  change List.foldl Write.apply ((Btn.all.map (Write.button · false)).foldl Write.apply
    { k with dpad := dpadCenter }) _ = _
  rw [hbuttons]
  exact congrArg (Controller.mk dpadCenter fun _ => false) hsticks

/-- **A statement by itself** does what it should. -/
theorem runFrom_ops {a : PadAct} {p : Pads} (hp : p a.slot = o.fields) :
    (runFrom Object.step o (byThread t a.ops)).1.fields = (p.exec a).1 a.slot ∧
      (runFrom Object.step o (byThread t a.ops)).2 =
        (p.exec a).2.filterMap (PadObs.line? a.slot) := by
  rw [fst_exec, Function.update_self, hp]
  cases a with
  | send n =>
    obtain ⟨hfields, hlines⟩ := runFrom_sendOps o t
    refine ⟨hfields, hlines.trans ?_⟩
    simp [Pads.exec, PadAct.slot, ← hp]
  | reset n =>
    rw [PadAct.ops, runFrom_writes]
    · exact ⟨foldl_resetWrites o.fields, rfl⟩
    · simp
  | _ => exact ⟨rfl, rfl⟩

/-! ### Statements of several threads -/

/-- **The four controllers in memory.** -/
def Objects.step (s : Slot → Object) (e : ℕ × Slot × Op) : (Slot → Object) × List (Slot × Str) :=
  (Function.update s e.2.1 ((s e.2.1).step (e.1, e.2.2)).1,
    ((s e.2.1).step (e.1, e.2.2)).2.map fun msg => (e.2.1, msg))

/-- What is done to a controller. -/
def opOn (n : Slot) (e : ℕ × Slot × Op) : Option (ℕ × Op) :=
  if e.2.1 = n then some (e.1, e.2.2) else none

/-- The lines sent to a controller. -/
def lineOn (n : Slot) (x : Slot × Str) : Option Str := if x.1 = n then some x.2 else none

/-- **A controller runs by itself.** -/
theorem runFrom_objects (n : Slot) (s : Slot → Object) (es : List (ℕ × Slot × Op)) :
    (runFrom Objects.step s es).1 n = (runFrom Object.step (s n) (es.filterMap (opOn n))).1 ∧
      (runFrom Objects.step s es).2.filterMap (lineOn n) =
        (runFrom Object.step (s n) (es.filterMap (opOn n))).2 := by
  refine runFrom_part (fun s => s n) (opOn n) (lineOn n) (fun s e _ e' he => ?_)
    (fun s e _ he => ?_) s
  · obtain ⟨t, m, op⟩ := e
    obtain ⟨rfl, rfl⟩ : m = n ∧ (t, op) = e' := by simpa [opOn] using he
    simp [Objects.step, lineOn, List.filterMap_map, Function.comp_def]
  · obtain ⟨t, m, op⟩ := e
    have hm : m ≠ n := by simpa [opOn] using he
    simp [Objects.step, lineOn, hm, Function.update_of_ne hm.symm]

/-- Whole statements on one controller, whoever does them. -/
theorem runFrom_statements {n : Slot} {as : List (ℕ × PadAct)} (hslot : ∀ x ∈ as, x.2.slot = n)
    {o : Object} {p : Pads} (hp : p n = o.fields) :
    (runFrom Object.step o (as.flatMap fun x => byThread x.1 x.2.ops)).1.fields =
        (runFrom Pads.exec p (as.map Prod.snd)).1 n ∧
      (runFrom Object.step o (as.flatMap fun x => byThread x.1 x.2.ops)).2 =
        (runFrom Pads.exec p (as.map Prod.snd)).2.filterMap (PadObs.line? n) := by
  induction as generalizing o p with
  | nil => exact ⟨hp.symm, rfl⟩
  | cons x as ih =>
    obtain ⟨rfl, has⟩ := List.forall_mem_cons.mp hslot
    obtain ⟨hfields, hlines⟩ := runFrom_ops o x.1 hp
    obtain ⟨hfields', hlines'⟩ := ih has hfields.symm
    rw [List.flatMap_cons, runFrom_append, List.map_cons, runFrom_cons, List.filterMap_append,
      hlines, hlines']
    exact ⟨hfields', rfl⟩

/-- **Statements are atomic where they do not overlap.** If the operations on a controller are
those of whole statements, one after the other, the lines sent to it and its state at the end are
those of the statements in that order, whatever is done to the other controllers in between. -/
theorem interleaved_eq_serial {n : Slot} {s : Slot → Object} {p : Pads}
    (hp : p n = (s n).fields) {es : List (ℕ × Slot × Op)} {as : List (ℕ × PadAct)}
    (hslot : ∀ x ∈ as, x.2.slot = n)
    (hes : es.filterMap (opOn n) = as.flatMap fun x => byThread x.1 x.2.ops) :
    (runFrom Objects.step s es).2.filterMap (lineOn n) =
        (runFrom Pads.exec p (as.map Prod.snd)).2.filterMap (PadObs.line? n) ∧
      ((runFrom Objects.step s es).1 n).fields = (runFrom Pads.exec p (as.map Prod.snd)).1 n := by
  obtain ⟨hobject, hlines⟩ := runFrom_objects n s es
  obtain ⟨hfields, hlines'⟩ := runFrom_statements hslot hp
  rw [hobject, hlines, hes]
  exact ⟨hlines', hfields⟩

/-- A press on the first controller and a send of it, with a line begun for the second one in
between. -/
theorem interleaved_eq_serial_two :
    (runFrom Objects.step (fun _ => ⟨.neutral, [], fun _ => []⟩)
        ((1, .one, .write (.button .a true)) :: (2, .two, .clear) ::
          sendOps.map fun op => (2, .one, op))).2.filterMap (lineOn .one) =
        (runFrom Pads.exec (fun _ => .neutral)
          [.press .one .a .lockon, .send .one]).2.filterMap (PadObs.line? .one) ∧
      ((runFrom Objects.step (fun _ => ⟨.neutral, [], fun _ => []⟩)
        ((1, .one, .write (.button .a true)) :: (2, .two, .clear) ::
          sendOps.map fun op => (2, .one, op))).1 .one).fields =
        (runFrom Pads.exec (fun _ => .neutral) [.press .one .a .lockon, .send .one]).1 .one := by
  have hslot : ∀ x ∈ [((1 : ℕ), PadAct.press .one .a .lockon), (2, .send .one)],
      x.2.slot = .one := by decide
  exact interleaved_eq_serial (p := fun _ => .neutral) rfl hslot rfl

/-! ### Sends that are not interrupted by sends -/

/-- An assignment of an attribute other than `output`. -/
def Op.isWrite : Op → Bool
  | .write _ => true
  | _ => false

/-- Assignments leave `output` alone. -/
theorem runFrom_of_isWrite {es : List (ℕ × Op)} (hes : ∀ e ∈ es, e.2.isWrite = true)
    (o : Object) : ∃ k, runFrom Object.step o es = ({ o with fields := k }, []) := by
  induction es generalizing o with
  | nil => exact ⟨o.fields, rfl⟩
  | cons e es ih =>
    obtain ⟨he, hrest⟩ := List.forall_mem_cons.mp hes
    obtain ⟨t, op⟩ := e
    cases op with
    | write w =>
      obtain ⟨k, hk⟩ := ih hrest { o with fields := w.apply o.fields }
      refine ⟨k, ?_⟩
      rw [runFrom_cons]
      exact congrArg (fun r : Object × List Str => (r.1, [] ++ r.2)) hk
    | _ => exact absurd he Bool.false_ne_true

/-- **The next operation of the send**, after some assignments. -/
theorem exists_next {es : List (ℕ × Op)} {e : ℕ × Op} {rest : List (ℕ × Op)}
    (h : es.filter (fun e => !e.2.isWrite) = e :: rest) (o : Object) :
    ∃ pre post o', es = pre ++ e :: post ∧ post.filter (fun e => !e.2.isWrite) = rest ∧
      runFrom Object.step o pre = (o', []) ∧ o'.output = o.output ∧ o'.held = o.held := by
  obtain ⟨pre, post, hes, hpre, -, hpost⟩ := List.filter_eq_cons_iff.mp h
  have hwrites : ∀ e ∈ pre, e.2.isWrite = true := fun e he => by simpa using hpre e he
  obtain ⟨k, hk⟩ := runFrom_of_isWrite hwrites o
  exact ⟨pre, post, { o with fields := k }, hes, hpost, hk, rfl, rfl⟩

/-- Operations that send nothing, one after the other. -/
theorem runFrom_silent {o o' o'' : Object} {pre post : List (ℕ × Op)}
    (hpre : runFrom Object.step o pre = (o', []))
    (hpost : runFrom Object.step o' post = (o'', [])) :
    runFrom Object.step o (pre ++ post) = (o'', []) := by
  rw [runFrom_append, hpre, hpost]
  rfl

/-- **A part of the line** is added as it is at some moment. -/
theorem exists_part {es : List (ℕ × Op)} {t : ℕ} {f : Attr} {rest : List (ℕ × Op)}
    (h : es.filter (fun e => !e.2.isWrite) = (t, .load) :: (t, .extend f) :: (t, .store) :: rest)
    (o : Object) :
    ∃ pre post o', es = pre ++ post ∧ post.filter (fun e => !e.2.isWrite) = rest ∧
      runFrom Object.step o pre = (o', []) ∧
      ∃ pre', pre' <+: pre ∧
        o'.output = o.output ++ f.text (runFrom Object.step o pre').1.fields := by
  obtain ⟨pre₁, es₁, o₁, rfl, hes₁, hrun₁, hout₁, -⟩ := exists_next h o
  obtain ⟨pre₂, es₂, o₂, rfl, hes₂, hrun₂, -, hheld₂⟩ := exists_next hes₁ (o₁.step (t, .load)).1
  obtain ⟨pre₃, es₃, o₃, rfl, hes₃, hrun₃, -, hheld₃⟩ :=
    exists_next hes₂ (o₂.step (t, .extend f)).1
  have hload : runFrom Object.step o (pre₁ ++ ([(t, .load)] ++ pre₂)) = (o₂, []) :=
    runFrom_silent hrun₁ (runFrom_silent rfl hrun₂)
  have hstore : runFrom Object.step o₂ ([(t, .extend f)] ++ (pre₃ ++ [(t, .store)])) =
      ((o₃.step (t, .store)).1, []) :=
    runFrom_silent rfl (runFrom_silent hrun₃ rfl)
  refine ⟨_, es₃, _, ?_, hes₃, runFrom_silent hload hstore, _, List.prefix_append _ _, ?_⟩
  · simp
  · have hheld : o₃.held t = o₂.held t ++ f.text o₂.fields := by
      rw [hheld₃]
      exact Function.update_self ..
    have hheld' : o₂.held t = o.output := by
      rw [hheld₂, ← hout₁]
      exact Function.update_self ..
    rw [hload, ← hheld', ← hheld]
    rfl

/-- **The rest of a send**, as each part of the line is at some moment. -/
theorem torn_append {fs : List Attr} (hfs : fs.Nodup) {es : List (ℕ × Op)} {t : ℕ} {o : Object}
    (hes : es.filter (fun e => !e.2.isWrite) =
      byThread t (appendOps fs ++ [.load, .transmit])) :
    ∃ m : Attr → Controller,
      (runFrom Object.step o es).2 = [o.output ++ fs.flatMap fun f => f.text (m f)] ∧
        ∀ f ∈ fs, ∃ pre, pre <+: es ∧ (runFrom Object.step o pre).1.fields = m f := by
  induction fs generalizing o es with
  | nil =>
    obtain ⟨pre, es', o', rfl, hes', hrun, hout, -⟩ := exists_next hes o
    obtain ⟨pre', post, o'', rfl, hpost, hrun', -, hheld⟩ := exists_next hes' (o'.step (t, .load)).1
    have hwrites : ∀ e ∈ post, e.2.isWrite = true := fun e he => by
      simpa using List.filter_eq_nil_iff.mp hpost e he
    obtain ⟨k, hend⟩ := runFrom_of_isWrite hwrites o''
    refine ⟨fun _ => o.fields, ?_, List.forall_mem_nil _⟩
    have hload : runFrom Object.step o (pre ++ ([(t, .load)] ++ pre')) = (o'', []) :=
      runFrom_silent hrun (runFrom_silent rfl hrun')
    have hassoc : pre ++ (t, .load) :: (pre' ++ (t, .transmit) :: post) =
        (pre ++ ([(t, .load)] ++ pre')) ++ (t, .transmit) :: post := by simp
    change (runFrom Object.step o (pre ++ (t, .load) :: (pre' ++ (t, .transmit) :: post))).2 = _
    rw [hassoc, runFrom_append, hload, runFrom_cons]
    change [] ++ ([o''.held t] ++ (runFrom Object.step o'' post).2) = _
    rw [hend, hheld, ← hout]
    simp [Object.step]
  | cons f fs ih =>
    obtain ⟨hf, hfs⟩ := List.nodup_cons.mp hfs
    obtain ⟨pre, post, o', rfl, hpost, hrun, pre', hpre', hout⟩ := exists_part hes o
    obtain ⟨m, hline, hm⟩ := ih hfs (o := o') hpost
    have hne : ∀ f' ∈ fs, f' ≠ f := fun f' hf' heq => hf (heq ▸ hf')
    refine ⟨Function.update m f (runFrom Object.step o pre').1.fields, ?_, ?_⟩
    · -- the later parts are of other attributes
      have hlater : (fs.flatMap fun f' => f'.text (Function.update m f
          (runFrom Object.step o pre').1.fields f')) = fs.flatMap fun f' => f'.text (m f') := by
        refine List.flatMap_congr fun f' hf' => ?_
        rw [Function.update_of_ne (hne f' hf')]
      rw [runFrom_append, hrun, List.flatMap_cons, Function.update_self, hlater,
        ← List.append_assoc, ← hout]
      exact hline
    · refine List.forall_mem_cons.mpr ⟨?_, fun f' hf' => ?_⟩
      · exact ⟨pre', hpre'.trans (List.prefix_append _ _), by rw [Function.update_self]⟩
      · obtain ⟨pre'', hpre'', hfields⟩ := hm f' hf'
        refine ⟨pre ++ pre'', (List.prefix_append_right_inj pre).mpr hpre'', ?_⟩
        rw [runFrom_append, hrun, Function.update_of_ne (hne f' hf')]
        exact hfields

theorem Attr.nodup_all : Attr.all.Nodup := by decide

theorem Attr.mem_all (f : Attr) : f ∈ Attr.all := by
  cases f with
  | dpad => decide
  | button btn => cases btn <;> decide
  | axis s => cases s <;> decide

/-- **A send that is not interrupted by a send** transmits a line that is well formed: it is the
line of some state. That may be a state the controller never was in; but each attribute of it
had its value at some moment of the send. -/
theorem torn_send (o : Object) {t : ℕ} {es : List (ℕ × Op)}
    (hes : es.filter (fun e => !e.2.isWrite) = byThread t sendOps) :
    ∃ k : Controller, (runFrom Object.step o es).2 = [k.getOutput] ∧
      ∀ f : Attr, ∃ pre, pre <+: es ∧
        f.text (runFrom Object.step o pre).1.fields = f.text k := by
  obtain ⟨pre, post, o', rfl, hpost, hrun, -, -⟩ := exists_next hes o
  obtain ⟨m, hline, hm⟩ := torn_append Attr.nodup_all (o := (o'.step (t, .clear)).1) hpost
  -- the state that has each attribute as it was when it was read
  let k : Controller := ⟨(m .dpad).dpad, fun btn => (m (.button btn)).pressed btn,
    fun s => (m (.axis s)).stick s⟩
  have htext : ∀ f : Attr, f.text k = f.text (m f) := by
    intro f
    cases f <;> rfl
  have hclear : runFrom Object.step o (pre ++ [(t, .clear)]) = ((o'.step (t, .clear)).1, []) :=
    runFrom_silent hrun rfl
  have hassoc : ∀ l, pre ++ (t, .clear) :: l = (pre ++ [(t, .clear)]) ++ l := by simp
  refine ⟨k, ?_, fun f => ?_⟩
  · change (runFrom Object.step o (pre ++ (t, .clear) :: post)).2 = _
    rw [hassoc, runFrom_append, hclear, getOutput_eq_flatMap, hline]
    refine congrArg (fun l => [l]) ?_
    exact List.flatMap_congr fun f _ => (htext f).symm
  · obtain ⟨pre', hpre', hfields⟩ := hm f f.mem_all
    refine ⟨(pre ++ [(t, .clear)]) ++ pre', ?_, ?_⟩
    · change _ <+: pre ++ (t, .clear) :: post
      rw [hassoc post]
      exact (List.prefix_append_right_inj _).mpr hpre'
    · rw [runFrom_append, hclear, htext, ← hfields]

/-- **A button is pressed after it was read, and then a stick is moved before it is read**: the line
has the stick without the button, and the controller never was so. -/
theorem torn_send_late :
    let o : Object := ⟨.neutral, [], fun _ => []⟩
    let es : List (ℕ × Op) := byThread 1 (sendOps.take 46) ++
      [(2, .write (.button .a true)), (2, .write (.axis .lx 0))] ++ byThread 1 (sendOps.drop 46)
    (runFrom Object.step o es).2 = [("800000000000000 0 128 128 128" : Str)] ∧
      ∃ k : Controller, (runFrom Object.step o es).2 = [k.getOutput] ∧
        ∀ f : Attr, ∃ pre, pre <+: es ∧ f.text (runFrom Object.step o pre).1.fields = f.text k := by
  intro o es
  exact ⟨by decide +kernel, torn_send o rfl⟩

/-! ### Sends that are -/

theorem filter_byThread_self (t : ℕ) (ops : List Op) :
    (byThread t ops).filter (·.1 = t) = byThread t ops :=
  List.filter_eq_self.mpr (List.forall_mem_map.mpr fun _ _ => decide_eq_true rfl)

theorem filter_byThread_of_ne {t t' : ℕ} (h : t ≠ t') (ops : List Op) :
    (byThread t ops).filter (·.1 = t') = [] :=
  List.filter_eq_nil_iff.mpr (List.forall_mem_map.mpr fun _ _ => by simpa using h)

/-- **Two sends at the same time.** Whatever the state of the controller, two threads that send it
may be interleaved so that the first one transmits no more than the first parts of the line,
however many or few. -/
theorem race_cuts (o : Object) (j : ℕ) :
    ∃ es : List (ℕ × Op), es.filter (·.1 = 1) = byThread 1 sendOps ∧
      es.filter (·.1 = 2) = byThread 2 sendOps ∧
      (runFrom Object.step o es).2 =
        [(Attr.all.take j).flatMap (Attr.text o.fields), o.fields.getOutput] := by
  -- the second thread begins its line just before the first one reads the attribute
  let o₁ := (runFrom Object.step o (byThread 1 (.clear :: appendOps Attr.all))).1
  let o₂ := (runFrom Object.step o₁ (byThread 2 (.clear :: appendOps (Attr.all.take j)))).1
  let o₃ := (runFrom Object.step o₂ (byThread 1 [.load, .transmit])).1
  let o₄ := (runFrom Object.step o₃ (byThread 2 (appendOps (Attr.all.drop j)))).1
  obtain ⟨hfields₁, -, hlines₁⟩ := runFrom_clear_appendOps o 1 Attr.all
  obtain ⟨hfields₂, houtput₂, hlines₂⟩ := runFrom_clear_appendOps o₁ 2 (Attr.all.take j)
  obtain ⟨hfields₃, houtput₃, hlines₃⟩ := runFrom_transmit o₂ 1
  obtain ⟨-, houtput₄, hlines₄⟩ := runFrom_appendOps o₃ 2 (Attr.all.drop j)
  obtain ⟨-, -, hlines₅⟩ := runFrom_transmit o₄ 2
  have hops : (.clear :: appendOps (Attr.all.take j)) ++ (appendOps (Attr.all.drop j) ++
      [.load, .transmit]) = sendOps := by
    rw [← List.append_assoc, List.cons_append, appendOps, appendOps, ← List.flatMap_append,
      List.take_append_drop]
    rfl
  have h21 : (2 : ℕ) ≠ 1 := by decide
  refine ⟨byThread 1 (.clear :: appendOps Attr.all) ++
    (byThread 2 (.clear :: appendOps (Attr.all.take j)) ++ (byThread 1 [.load, .transmit] ++
      (byThread 2 (appendOps (Attr.all.drop j)) ++ byThread 2 [.load, .transmit]))), ?_, ?_, ?_⟩
  · simp only [List.filter_append, filter_byThread_self, filter_byThread_of_ne h21,
      List.nil_append, List.append_nil, ← byThread_append]
    rfl
  · simp only [List.filter_append, filter_byThread_self, filter_byThread_of_ne h21.symm,
      List.nil_append, ← byThread_append, hops]
  · rw [runFrom_append, hlines₁, runFrom_append, hlines₂, runFrom_append, hlines₃, runFrom_append,
      hlines₄, hlines₅, houtput₄, houtput₃, hfields₃, houtput₂, hfields₂, hfields₁,
      ← List.flatMap_append, List.take_append_drop, ← getOutput_eq_flatMap]
    rfl

end Twitch

end SwitchController
