import RasPiZeroCam.Record.Recorder
import RasPiZeroCam.Transition.System

/-!
The drain thread and the command thread on one `Recorder`, down to the object `recorder_` points to
and the `appsrc_` it pushes into.

* `Shared`: the members both threads read, the recorder objects that exist, and the appsrc
  references given back.
* `Drain.commandStep`: `start_recording` and `stop_recording` with `Recorder::start` and
  `Recorder::stop` inside; `Drain.drainStep`: one pass of `rec_drain_thread_fn` with `push_frame`
  inside.
* `UsesLive`: `push_frame` runs on an object that exists, and pushes into an appsrc that has not
  been released.
* `drain_uses_live`: it holds along the runs in which the command thread releases `appsrc_` only
  while no push is under way, and gives up the recorder only while the drain thread does not use it
  (`WaitsForDrain`).
* `reset_under_drain`: otherwise `recorder_` is reset between the drain thread's test and its call.
-/

namespace RasPiZeroCam

open Transition

/-- A `Recorder` object in software mode: its state, and the appsrc it holds a reference to. -/
structure RecObj where
  state : RecorderState
  appsrc : Option ℕ

/-- Where the command thread is. -/
inductive CommandPc where
  | idle
  | testStart       -- `if (!running_ || recording_) return false`
  | create          -- `recorder_ = std::make_unique<Recorder>(..)`
  | getAppsrc       -- `Recorder::start` up to `appsrc_ = gst_bin_get_by_name(..)`
  | launch          -- the pipeline to PLAYING, then `state_ = RECORDING`
  | setRecording    -- `recording_ = true`
  | testStop        -- `if (!recording_) return false`
  | clear           -- `recording_ = false`
  | testRecorder    -- `if (recorder_)`
  | testState       -- `Recorder::stop`: `if (state_ != RECORDING) return false`
  | setStopping     -- `state_ = STOPPING`
  | waitEos         -- EOS is sent, and the bus waited for
  | releaseAppsrc   -- `gst_object_unref(appsrc_)`
  | clearAppsrc     -- `appsrc_ = nullptr`
  | setIdle         -- `state_ = IDLE`
  | reset           -- `recorder_.reset()`: the pointer
  | destroy (o : ℕ) -- and the object it held
  deriving DecidableEq, Repr

/-- Where the drain thread is; inside `push_frame` it works on the object `o`. -/
inductive DrainPc where
  | readRecording         -- `if (recording_`
  | testRecorder          -- `&& recorder_)`
  | map                   -- `if (gst_buffer_map(..))`
  | call                  -- `recorder_->push_frame(frame)`
  | loadState (o : ℕ)     -- `if (state_ != RECORDING) return false`
  | testAppsrc (o : ℕ)    -- `if (!appsrc_) return false`
  | push (o : ℕ)          -- `gst_app_src_push_buffer(GST_APP_SRC(appsrc_), buf)`
  deriving DecidableEq, Repr

/-- What the two threads share, and where they are. -/
structure Shared where
  running : Bool
  recording : Bool
  recorder : Option ℕ         -- the object `recorder_` points to
  objects : ℕ → Option RecObj -- the objects that exist
  made : ℕ
  sources : ℕ
  released : List ℕ           -- the appsrcs whose reference was given back
  command : CommandPc
  drain : DrainPc

namespace Drain

/-- What the calls under a step of the command thread answer, and what it does next. -/
structure Choice where
  start : Bool                -- the next command starts, or stops
  throws : Bool               -- `create_directories` throws
  appsrc : Bool               -- the pipeline parses, and has its appsrc
  playing : Bool

/-- A step of one of the threads, or `running_` is written by somebody else. -/
inductive Step where
  | command (o : Choice)
  | drain (mapped : Bool)
  | setRunning (b : Bool)

/-- A member function of `*recorder_` changes the object. -/
def onRecorder (f : RecObj → RecObj) (s : Shared) : Option Shared :=
  match s.recorder with
  | none => none
  | some o =>
      (s.objects o).map fun r => { s with objects := Function.update s.objects o (some (f r)) }

/-- A step of the command thread. -/
def commandStep (a : Choice) (s : Shared) : Option Shared :=
  match s.command with
  | .idle => some { s with command := if a.start then .testStart else .testStop }
  | .testStart =>
      some { s with command := if !s.running || s.recording then .idle else .create }
  | .create =>
      -- the object the pointer held before is destroyed
      let objects := match s.recorder with
        | none => s.objects
        | some o => Function.update s.objects o none
      some { s with
        recorder := some s.made
        objects := Function.update objects s.made (some ⟨.idle, none⟩)
        made := s.made + 1
        command := .getAppsrc }
  | .getAppsrc =>
      if a.throws then some { s with command := .idle }
      else if a.appsrc then
        (onRecorder (fun r => { r with appsrc := some s.sources }) s).map fun s =>
          { s with
            sources := s.sources + 1
            command := .launch }
      else some { s with command := .reset }
  | .launch =>
      if a.playing then
        (onRecorder (fun r => { r with state := .recording }) s).map fun s =>
          { s with command := .setRecording }
      else
        -- `teardown_gst()`
        match s.recorder.bind s.objects with
        | none => none
        | some r => (onRecorder (fun r => { r with appsrc := none }) s).map fun s =>
            { s with
              released := s.released ++ r.appsrc.toList
              command := .reset }
  | .setRecording =>
      some { s with
        recording := true
        command := .idle }
  | .testStop => some { s with command := if s.recording then .clear else .idle }
  | .clear =>
      some { s with
        recording := false
        command := .testRecorder }
  | .testRecorder => some { s with command := if s.recorder.isSome then .testState else .idle }
  | .testState =>
      match s.recorder.bind s.objects with
      | none => none
      | some r => some { s with command := if r.state = .recording then .setStopping else .reset }
  | .setStopping =>
      (onRecorder (fun r => { r with state := .stopping }) s).map fun s =>
        { s with command := .waitEos }
  | .waitEos => some { s with command := .releaseAppsrc }
  | .releaseAppsrc =>
      match s.recorder.bind s.objects with
      | none => none
      | some r => some { s with
          released := s.released ++ r.appsrc.toList
          command := .clearAppsrc }
  | .clearAppsrc =>
      (onRecorder (fun r => { r with appsrc := none }) s).map fun s =>
        { s with command := .setIdle }
  | .setIdle =>
      (onRecorder (fun r => { r with state := .idle }) s).map fun s => { s with command := .reset }
  | .reset =>
      match s.recorder with
      | none => some { s with command := .idle }
      | some o => some { s with
          recorder := none
          command := .destroy o }
  | .destroy o =>
      some { s with
        objects := Function.update s.objects o none
        command := .idle }

/-- A step of the drain thread.  A null or dangling pointer has no next step. -/
def drainStep (mapped : Bool) (s : Shared) : Option Shared :=
  match s.drain with
  | .readRecording => some { s with drain := if s.recording then .testRecorder else .readRecording }
  | .testRecorder => some { s with drain := if s.recorder.isSome then .map else .readRecording }
  | .map => some { s with drain := if mapped then .call else .readRecording }
  | .call => s.recorder.map fun o => { s with drain := .loadState o }
  | .loadState o =>
      (s.objects o).map fun r =>
        { s with drain := if r.state = .recording then .testAppsrc o else .readRecording }
  | .testAppsrc o =>
      (s.objects o).map fun r =>
        { s with drain := if r.appsrc.isSome then .push o else .readRecording }
  | .push _ => some { s with drain := .readRecording }

/-- No recording has been made. -/
def initial : Shared where
  running := true
  recording := false
  recorder := none
  objects _ := none
  made := 0
  sources := 0
  released := []
  command := .idle
  drain := .readRecording

end Drain

/-- The command thread and the drain thread. -/
def drain : System Shared Drain.Step where
  init s := s = Drain.initial
  step s
    | .command a => Drain.commandStep a s
    | .drain mapped => Drain.drainStep mapped s
    | .setRunning b => some { s with running := b }

namespace Drain

/-- The drain thread has tested `recorder_`, and `push_frame` has not returned. -/
def Using : DrainPc → Prop
  | .readRecording => False
  | .testRecorder => False
  | _ => True

/-- `push_frame` has seen RECORDING. -/
def Pushing : DrainPc → Prop
  | .testAppsrc _ => True
  | .push _ => True
  | _ => False

/-- The command thread gives up `recorder_` only while the drain thread does not use it, and
`Recorder::stop` releases `appsrc_` only while no push is under way. -/
def WaitsForDrain (s : Shared) : Step → Prop
  | .command _ =>
      (s.command = .create ∨ s.command = .reset → ¬ Using s.drain) ∧
        (s.command = .releaseAppsrc → ¬ Pushing s.drain)
  | _ => True

/-- The object exists, and holds an appsrc that has not been released. -/
def HoldsAppsrc (s : Shared) (o : ℕ) : Prop :=
  ∃ r a, s.objects o = some r ∧ r.appsrc = some a ∧ a ∉ s.released

/-- **What the drain thread uses exists.** -/
def UsesLive (s : Shared) : Prop :=
  match s.drain with
  | .call => ∃ o r, s.recorder = some o ∧ s.objects o = some r
  | .loadState o => ∃ r, s.objects o = some r
  | .testAppsrc o => ∃ r, s.objects o = some r
  | .push o => HoldsAppsrc s o
  | _ => True

/-! ### The invariant -/

/-- The object `recorder_` points to satisfies `P`. -/
def Points (s : Shared) (P : RecObj → Prop) : Prop :=
  ∃ o r, s.recorder = some o ∧ s.objects o = some r ∧ P r

/-- What the command thread's place says. -/
def CommandA (s : Shared) : Prop :=
  match s.command with
  | .getAppsrc => Points s (fun r => r.state = .idle) ∧ ¬ Pushing s.drain
  | .launch =>
      Points s (fun r => r.state = .idle ∧ ∃ a, r.appsrc = some a ∧ a ∉ s.released) ∧
        ¬ Pushing s.drain
  | .setStopping => Points s fun r => r.state = .recording
  | .waitEos => Points s fun r => r.state = .stopping
  | .releaseAppsrc => Points s fun r => r.state = .stopping
  | .clearAppsrc => Points s (fun r => r.state = .stopping) ∧ ¬ Pushing s.drain
  | .setIdle => Points s (fun r => r.state = .stopping) ∧ ¬ Pushing s.drain
  | .destroy _ => s.recorder = none
  | _ => True

/-- What the drain thread's place says. -/
def DrainA (s : Shared) : Prop :=
  match s.drain with
  | .readRecording => True
  | .testRecorder => True
  | .map => s.recorder.isSome
  | .call => s.recorder.isSome
  | .loadState o => s.recorder = some o
  | .testAppsrc o => s.recorder = some o ∧ HoldsAppsrc s o
  | .push o => s.recorder = some o ∧ HoldsAppsrc s o

/-- The invariant of the two threads. -/
structure Sound (s : Shared) : Prop where
  pointer : ∀ o, s.recorder = some o → ∃ r, s.objects o = some r
  released : ∀ a ∈ s.released, a < s.sources
  source : ∀ o r a, s.recorder = some o → s.objects o = some r → r.appsrc = some a → a < s.sources
  recording : ∀ o r, s.recorder = some o → s.objects o = some r → r.state = .recording →
    ∃ a, r.appsrc = some a ∧ a ∉ s.released
  command : CommandA s
  drain : DrainA s

/-- What a member function of the object `recorder_` points to does. -/
lemma onRecorder_of {f : RecObj → RecObj} {s : Shared} {o : ℕ} {r : RecObj}
    (ho : s.recorder = some o) (hr : s.objects o = some r) :
    onRecorder f s = some { s with objects := Function.update s.objects o (some (f r)) } := by
  rw [onRecorder, ho]
  dsimp only
  rw [hr, Option.map_some]

lemma onRecorder_eq_some {f : RecObj → RecObj} {s t : Shared} (h : onRecorder f s = some t) :
    ∃ o r, s.recorder = some o ∧ s.objects o = some r ∧
      t = { s with objects := Function.update s.objects o (some (f r)) } := by
  rw [onRecorder] at h
  cases hr : s.recorder with
  | none =>
      rw [hr] at h
      cases h
  | some o =>
      rw [hr] at h
      obtain ⟨r, hobj, rfl⟩ := Option.map_eq_some_iff.mp h
      exact ⟨o, r, rfl, hobj, rfl⟩

lemma bind_recorder {s : Shared} {r : RecObj} (h : s.recorder.bind s.objects = some r) :
    ∃ o, s.recorder = some o ∧ s.objects o = some r :=
  Option.bind_eq_some_iff.mp h

/-- The drain thread, when it is not in `push_frame` past its test of the state, needs the pointer
only. -/
lemma drainA_of_not_pushing {s t : Shared} (hd : DrainA s) (hnot : ¬ Pushing s.drain)
    (hrec : t.recorder = s.recorder) (hdrain : t.drain = s.drain) : DrainA t := by
  revert hd hnot
  rw [DrainA, DrainA, hrec, hdrain]
  cases s.drain with
  | testAppsrc o => exact fun _ hnot => absurd trivial hnot
  | push o => exact fun _ hnot => absurd trivial hnot
  | _ => exact fun hd _ => hd

/-- The drain thread outside its use of the recorder needs nothing. -/
lemma drainA_of_not_using {t : Shared} (hnot : ¬ Using t.drain) : DrainA t := by
  revert hnot
  rw [DrainA]
  cases t.drain with
  | readRecording => exact fun _ => trivial
  | testRecorder => exact fun _ => trivial
  | _ => exact fun hnot => absurd trivial hnot

/-- The drain thread pushes only while it uses the recorder. -/
lemma using_of_pushing {q : DrainPc} (h : Pushing q) : Using q := by
  cases q with
  | testAppsrc o => trivial
  | push o => trivial
  | _ => exact h.elim

/-- With no recorder, the drain thread does not use one past its call. -/
lemma drainA_of_no_recorder {s t : Shared} (hd : DrainA s) (hnone : s.recorder = none)
    (hrec : t.recorder = none) (hdrain : t.drain = s.drain) : DrainA t := by
  revert hd
  rw [DrainA, DrainA, hrec, hdrain, hnone]
  cases s.drain with
  | testAppsrc o => exact fun hd => absurd hd.1 (by simp)
  | push o => exact fun hd => absurd hd.1 (by simp)
  | _ => exact id

/-- The invariant of a state whose recorder is the object `o`. -/
lemma Sound.of_object {t : Shared} {o : ℕ} {r : RecObj} (ho : t.recorder = some o)
    (hr : t.objects o = some r) (hreleased : ∀ a ∈ t.released, a < t.sources)
    (hsource : ∀ a, r.appsrc = some a → a < t.sources)
    (hrecording : r.state = .recording → ∃ a, r.appsrc = some a ∧ a ∉ t.released)
    (hc : CommandA t) (hd : DrainA t) : Sound t := by
  have honly : ∀ o' r', t.recorder = some o' → t.objects o' = some r' → r' = r := by
    intro o' r' ho' hr'
    obtain rfl : o = o' := Option.some.inj (ho.symm.trans ho')
    exact Option.some.inj (hr'.symm.trans hr)
  refine ⟨fun o' ho' => ?_, hreleased, fun o' r' a ho' hr' ha => ?_, fun o' r' ho' hr' hrec => ?_,
    hc, hd⟩
  · obtain rfl : o = o' := Option.some.inj (ho.symm.trans ho')
    exact ⟨r, hr⟩
  · rw [honly o' r' ho' hr'] at ha
    exact hsource a ha
  · rw [honly o' r' ho' hr'] at hrec ⊢
    exact hrecording hrec

/-- The invariant of a state without a recorder. -/
lemma Sound.of_no_recorder {t : Shared} (hnone : t.recorder = none)
    (hreleased : ∀ a ∈ t.released, a < t.sources) (hc : CommandA t) (hd : DrainA t) : Sound t := by
  have hno : ∀ o, t.recorder ≠ some o := fun o ho => by simp [hnone] at ho
  exact ⟨fun o ho => absurd ho (hno o), hreleased, fun o _ _ ho => absurd ho (hno o),
    fun o _ ho => absurd ho (hno o), hc, hd⟩

/-- A step that only moves the command thread on. -/
lemma Sound.goto {s : Shared} {q : CommandPc} (h : Sound s)
    (hq : CommandA { s with command := q }) : Sound { s with command := q } where
  pointer := h.pointer
  released := h.released
  source := h.source
  recording := h.recording
  command := hq
  drain := h.drain

/-- A step that changes the state of the recorder, but not to RECORDING. -/
lemma Sound.setState {s : Shared} {q : CommandPc} {st : RecorderState} {o : ℕ} {r : RecObj}
    (h : Sound s) (ho : s.recorder = some o) (hr : s.objects o = some r) (hst : st ≠ .recording)
    (hq : CommandA { s with
      objects := Function.update s.objects o (some { r with state := st })
      command := q }) :
    Sound { s with
      objects := Function.update s.objects o (some { r with state := st })
      command := q } := by
  refine .of_object ho (Function.update_self ..) h.released (fun a ha => h.source o r a ho hr ha)
    (fun hrec => absurd hrec hst) hq ?_
  -- the appsrc the drain thread has seen is still the recorder's
  have hholds : ∀ o', s.recorder = some o' ∧ HoldsAppsrc s o' → s.recorder = some o' ∧
      HoldsAppsrc { s with
        objects := Function.update s.objects o (some { r with state := st })
        command := q } o' := by
    rintro o' ⟨ho', r', a, hr', ha, hnot⟩
    obtain rfl : o = o' := Option.some.inj (ho.symm.trans ho')
    obtain rfl : r = r' := Option.some.inj (hr.symm.trans hr')
    exact ⟨ho, _, a, Function.update_self .., ha, hnot⟩
  have hd := h.drain
  revert hd
  rw [DrainA, DrainA]
  cases s.drain with
  | testAppsrc o' => exact hholds o'
  | push o' => exact hholds o'
  | _ => exact id

/-- A step that takes the appsrc from a recorder that does not record and that nobody pushes
into. -/
lemma Sound.clearAppsrc {s : Shared} {q : CommandPc} {released : List ℕ} {o : ℕ} {r : RecObj}
    (h : Sound s) (ho : s.recorder = some o) (hr : s.objects o = some r)
    (hst : r.state ≠ .recording) (hnot : ¬ Pushing s.drain)
    (hrel : ∀ a ∈ released, a ∈ s.released ∨ r.appsrc = some a)
    (hq : CommandA { s with
      objects := Function.update s.objects o (some { r with appsrc := none })
      released := released
      command := q }) :
    Sound { s with
      objects := Function.update s.objects o (some { r with appsrc := none })
      released := released
      command := q } := by
  have hreleased : ∀ a ∈ released, a < s.sources := by
    intro a ha
    obtain ha | ha := hrel a ha
    · exact h.released a ha
    · exact h.source o r a ho hr ha
  exact .of_object ho (Function.update_self ..) hreleased (fun _ ha => nomatch ha)
    (fun hrec => absurd hrec hst) hq (drainA_of_not_pushing h.drain hnot rfl rfl)

/-! ### The steps of a start -/

/-- A new recorder takes the place of the old one. -/
lemma sound_create {a : Choice} {s t : Shared} (h : Sound s) (hc : s.command = .create)
    (hnot : ¬ Using s.drain) (hstep : commandStep a s = some t) : Sound t := by
  rw [commandStep, hc] at hstep
  cases hstep
  refine .of_object rfl (Function.update_self ..) h.released (fun _ ha => nomatch ha)
    (fun hrec => nomatch hrec) ?_ (drainA_of_not_using hnot)
  exact ⟨⟨s.made, _, rfl, Function.update_self .., rfl⟩, fun hp => hnot (using_of_pushing hp)⟩

/-- The pipeline of a start gets an appsrc that was never released. -/
lemma sound_getAppsrc {a : Choice} {s t : Shared} (h : Sound s) (hc : s.command = .getAppsrc)
    (hstep : commandStep a s = some t) : Sound t := by
  have hA := h.command
  rw [CommandA, hc] at hA
  obtain ⟨⟨o, r, ho, hr, hidle⟩, hnot⟩ := hA
  rw [commandStep, hc] at hstep
  dsimp only at hstep
  split_ifs at hstep
  · cases hstep
    exact h.goto trivial
  · rw [onRecorder_of ho hr] at hstep
    cases hstep
    have hfresh : s.sources ∉ s.released := fun hmem => absurd (h.released _ hmem) (lt_irrefl _)
    have hsource : ∀ a, some s.sources = some a → a < s.sources + 1 := by
      intro a ha
      cases ha
      exact Nat.lt_succ_self _
    exact .of_object ho (Function.update_self ..) (fun a ha => Nat.lt_succ_of_lt (h.released a ha))
      hsource (fun _ => ⟨s.sources, rfl, hfresh⟩)
      ⟨⟨o, _, ho, Function.update_self .., hidle, _, rfl, hfresh⟩, hnot⟩
      (drainA_of_not_pushing h.drain hnot rfl rfl)
  · cases hstep
    exact h.goto trivial

/-- The pipeline of a start runs, or is torn down. -/
lemma sound_launch {a : Choice} {s t : Shared} (h : Sound s) (hc : s.command = .launch)
    (hstep : commandStep a s = some t) : Sound t := by
  have hA := h.command
  rw [CommandA, hc] at hA
  obtain ⟨⟨o, r, ho, hr, hidle, a', ha', hout⟩, hnot⟩ := hA
  have hb : s.recorder.bind s.objects = some r := by rw [ho, Option.bind_some, hr]
  rw [commandStep, hc] at hstep
  dsimp only at hstep
  rw [hb, onRecorder_of ho hr] at hstep
  split_ifs at hstep
  · cases hstep
    exact .of_object ho (Function.update_self ..) h.released
      (fun b hb => h.source o r b ho hr hb) (fun _ => ⟨a', ha', hout⟩) trivial
      (drainA_of_not_pushing h.drain hnot rfl rfl)
  · dsimp only at hstep
    rw [onRecorder_of ho hr] at hstep
    cases hstep
    exact h.clearAppsrc ho hr (by simp [hidle]) hnot (by simp) trivial

/-! ### The steps of a stop -/

/-- `stop` goes on only with a recorder that records. -/
lemma sound_testState {a : Choice} {s t : Shared} (h : Sound s) (hc : s.command = .testState)
    (hstep : commandStep a s = some t) : Sound t := by
  rw [commandStep, hc] at hstep
  dsimp only at hstep
  cases hb : s.recorder.bind s.objects with
  | none =>
      rw [hb] at hstep
      cases hstep
  | some r =>
      obtain ⟨o, ho, hr⟩ := bind_recorder hb
      rw [hb] at hstep
      cases hstep
      refine h.goto ?_
      by_cases hrec : r.state = .recording
      · rw [if_pos hrec]
        exact ⟨o, r, ho, hr, hrec⟩
      · rw [if_neg hrec]
        trivial

/-- The reference of the appsrc is given back while nobody pushes into it. -/
lemma sound_releaseAppsrc {a : Choice} {s t : Shared} (h : Sound s)
    (hc : s.command = .releaseAppsrc) (hnot : ¬ Pushing s.drain)
    (hstep : commandStep a s = some t) : Sound t := by
  have hA := h.command
  rw [CommandA, hc] at hA
  obtain ⟨o, r, ho, hr, hstop⟩ := hA
  have hb : s.recorder.bind s.objects = some r := by rw [ho, Option.bind_some, hr]
  rw [commandStep, hc] at hstep
  dsimp only at hstep
  rw [hb] at hstep
  cases hstep
  have hreleased : ∀ a ∈ s.released ++ r.appsrc.toList, a < s.sources := by
    intro a ha
    obtain ha | ha := List.mem_append.mp ha
    · exact h.released a ha
    · exact h.source o r a ho hr (Option.mem_toList.mp ha)
  exact .of_object ho hr hreleased (fun a ha => h.source o r a ho hr ha)
    (fun hrec => absurd hrec (by simp [hstop])) ⟨⟨o, r, ho, hr, hstop⟩, hnot⟩
    (drainA_of_not_pushing h.drain hnot rfl rfl)

/-- `recorder_.reset()`: the pointer is cleared before the object is destroyed. -/
lemma sound_reset {a : Choice} {s t : Shared} (h : Sound s) (hc : s.command = .reset)
    (hnot : ¬ Using s.drain) (hstep : commandStep a s = some t) : Sound t := by
  rw [commandStep, hc] at hstep
  dsimp only at hstep
  split at hstep
  · cases hstep
    exact h.goto trivial
  · cases hstep
    exact .of_no_recorder rfl h.released rfl (drainA_of_not_using hnot)

/-- **A step of the command thread keeps the invariant.** -/
lemma sound_command {a : Choice} {s t : Shared} (h : Sound s)
    (hwait : WaitsForDrain s (.command a)) (hstep : commandStep a s = some t) : Sound t := by
  obtain ⟨hgive, hrel⟩ := hwait
  have hA := h.command
  rw [CommandA] at hA
  cases hc : s.command with
  | create => exact sound_create h hc (hgive (Or.inl hc)) hstep
  | getAppsrc => exact sound_getAppsrc h hc hstep
  | launch => exact sound_launch h hc hstep
  | testState => exact sound_testState h hc hstep
  | releaseAppsrc => exact sound_releaseAppsrc h hc (hrel hc) hstep
  | reset => exact sound_reset h hc (hgive (Or.inr hc)) hstep
  | idle =>
      rw [commandStep, hc] at hstep
      cases hstep
      refine h.goto ?_
      cases a.start <;> trivial
  | testStart =>
      rw [commandStep, hc] at hstep
      cases hstep
      refine h.goto ?_
      cases hb : (!s.running || s.recording) <;> trivial
  | setRecording =>
      rw [commandStep, hc] at hstep
      cases hstep
      exact ⟨h.pointer, h.released, h.source, h.recording, trivial, h.drain⟩
  | testStop =>
      rw [commandStep, hc] at hstep
      cases hstep
      refine h.goto ?_
      cases s.recording <;> trivial
  | clear =>
      rw [commandStep, hc] at hstep
      cases hstep
      exact ⟨h.pointer, h.released, h.source, h.recording, trivial, h.drain⟩
  | testRecorder =>
      rw [commandStep, hc] at hstep
      cases hstep
      refine h.goto ?_
      cases s.recorder.isSome <;> trivial
  | setStopping =>
      rw [commandStep, hc] at hstep
      obtain ⟨v, hv, rfl⟩ := Option.map_eq_some_iff.mp hstep
      obtain ⟨o, r, ho, hr, rfl⟩ := onRecorder_eq_some hv
      exact h.setState ho hr (by decide) ⟨o, _, ho, Function.update_self .., rfl⟩
  | waitEos =>
      rw [commandStep, hc] at hstep
      cases hstep
      rw [hc] at hA
      exact h.goto hA
  | clearAppsrc =>
      rw [hc] at hA
      obtain ⟨⟨o, r, ho, hr, hstop⟩, hnot⟩ := hA
      rw [commandStep, hc] at hstep
      dsimp only at hstep
      rw [onRecorder_of ho hr] at hstep
      cases hstep
      exact h.clearAppsrc ho hr (by simp [hstop]) hnot (fun a ha => Or.inl ha)
        ⟨⟨o, _, ho, Function.update_self .., hstop⟩, hnot⟩
  | setIdle =>
      rw [commandStep, hc] at hstep
      obtain ⟨v, hv, rfl⟩ := Option.map_eq_some_iff.mp hstep
      obtain ⟨o, r, ho, hr, rfl⟩ := onRecorder_eq_some hv
      exact h.setState ho hr (by decide) trivial
  | destroy o =>
      rw [commandStep, hc] at hstep
      cases hstep
      rw [hc] at hA
      exact .of_no_recorder hA h.released trivial (drainA_of_no_recorder h.drain hA hA rfl)

/-! ### The drain thread -/

/-- The drain thread moves, into a push only where it pushed or saw RECORDING. -/
lemma Sound.moveDrain {s : Shared} {q : DrainPc} (h : Sound s) (hq : DrainA { s with drain := q })
    (hpush : Pushing q → Pushing s.drain ∨ Points s fun r => r.state = .recording) :
    Sound { s with drain := q } := by
  refine ⟨h.pointer, h.released, h.source, h.recording, ?_, hq⟩
  -- where the command thread needs that nobody pushes, the recorder does not record
  have hkeep : ∀ {P : RecObj → Prop}, (∀ r, P r → r.state ≠ .recording) → Points s P →
      ¬ Pushing s.drain → ¬ Pushing q := by
    rintro P hP ⟨o, r, ho, hr, hPr⟩ hnot hq'
    obtain hold | ⟨o', r', ho', hr', hrec⟩ := hpush hq'
    · exact hnot hold
    · obtain rfl : o = o' := Option.some.inj (ho.symm.trans ho')
      obtain rfl : r = r' := Option.some.inj (hr.symm.trans hr')
      exact hP r hPr hrec
  have hA := h.command
  revert hA
  rw [CommandA, CommandA]
  cases s.command with
  | getAppsrc => exact fun hA => ⟨hA.1, hkeep (fun r hr => by simp [hr]) hA.1 hA.2⟩
  | launch => exact fun hA => ⟨hA.1, hkeep (fun r hr => by simp [hr.1]) hA.1 hA.2⟩
  | clearAppsrc => exact fun hA => ⟨hA.1, hkeep (fun r hr => by simp [hr]) hA.1 hA.2⟩
  | setIdle => exact fun hA => ⟨hA.1, hkeep (fun r hr => by simp [hr]) hA.1 hA.2⟩
  | _ => exact id

/-- **A step of the drain thread keeps the invariant.** -/
lemma sound_drain {mapped : Bool} {s t : Shared} (h : Sound s)
    (hstep : drainStep mapped s = some t) : Sound t := by
  have hd := h.drain
  rw [DrainA] at hd
  rw [drainStep] at hstep
  cases hdr : s.drain <;> rw [hdr] at hstep hd <;> dsimp only at hstep hd
  case readRecording =>
      cases hstep
      split_ifs
      · exact h.moveDrain trivial fun hp => absurd hp id
      · exact h.moveDrain trivial fun hp => absurd hp id
  case testRecorder =>
      cases hstep
      split_ifs with ho
      · exact h.moveDrain ho fun hp => absurd hp id
      · exact h.moveDrain trivial fun hp => absurd hp id
  case map =>
      cases hstep
      cases mapped
      · exact h.moveDrain trivial fun hp => absurd hp id
      · exact h.moveDrain hd fun hp => absurd hp id
  case call =>
      obtain ⟨o, ho, rfl⟩ := Option.map_eq_some_iff.mp hstep
      exact h.moveDrain ho fun hp => absurd hp id
  case loadState o =>
      obtain ⟨r, hr, rfl⟩ := Option.map_eq_some_iff.mp hstep
      by_cases hrec : r.state = .recording
      · rw [if_pos hrec]
        obtain ⟨a, ha, hout⟩ := h.recording o r hd hr hrec
        exact h.moveDrain ⟨hd, r, a, hr, ha, hout⟩ fun _ => Or.inr ⟨o, r, hd, hr, hrec⟩
      · rw [if_neg hrec]
        exact h.moveDrain trivial fun hp => absurd hp id
  case testAppsrc o =>
      obtain ⟨r, hr, rfl⟩ := Option.map_eq_some_iff.mp hstep
      cases r.appsrc.isSome
      · exact h.moveDrain trivial fun hp => absurd hp id
      · exact h.moveDrain hd fun _ => Or.inl (by rw [hdr]; trivial)
  case push o =>
      cases hstep
      exact h.moveDrain trivial fun hp => absurd hp id

end Drain

open Drain

/-- **The drain thread uses what exists**, along every run in which the command thread waits for
it. -/
theorem drain_uses_live {s : Shared} (h : drain.Reach WaitsForDrain s) : UsesLive s := by
  have hsound : Sound s := by
    refine h.invariant Sound ?_ ?_
    · rintro s rfl
      exact ⟨by simp [Drain.initial], by simp [Drain.initial], by simp [Drain.initial],
        by simp [Drain.initial], trivial, trivial⟩
    · intro s e s' _ hs hC hstep
      cases e with
      | command a => exact sound_command hs hC hstep
      | drain mapped => exact sound_drain hs hstep
      | setRunning b =>
          cases hstep
          exact ⟨hs.pointer, hs.released, hs.source, hs.recording, hs.command, hs.drain⟩
  have hd := hsound.drain
  revert hd
  rw [DrainA, UsesLive]
  cases s.drain with
  | readRecording => exact fun _ => trivial
  | testRecorder => exact fun _ => trivial
  | map => exact fun _ => trivial
  | call =>
      intro hsome
      obtain ⟨o, ho⟩ := Option.isSome_iff_exists.mp hsome
      obtain ⟨r, hr⟩ := hsound.pointer o ho
      exact ⟨o, r, ho, hr⟩
  | loadState o => exact hsound.pointer o
  | testAppsrc o => exact fun hd => hsound.pointer o hd.1
  | push o => exact fun hd => hd.2

namespace Drain

/-- The command thread takes `n` steps, of a start or of a stop, and nothing fails. -/
def commands (n : ℕ) (start : Bool) : List Step :=
  List.replicate n (.command ⟨start, false, true, true⟩)

/-- The drain thread takes `n` steps. -/
def drains (n : ℕ) : List Step := List.replicate n (.drain true)

/-- The command thread waits for the drain thread. -/
def waits (s : Shared) : Step → Bool
  | .command _ => s.drain = .readRecording ∨
      (s.command ≠ .create ∧ s.command ≠ .reset ∧ s.command ≠ .releaseAppsrc)
  | _ => true

lemma waitsForDrain_of_waits {s : Shared} {e : Step} (h : waits s e = true) :
    WaitsForDrain s e := by
  cases e with
  | command a =>
      simp only [waits, decide_eq_true_eq] at h
      obtain h | ⟨h₁, h₂, h₃⟩ := h
      · refine ⟨fun _ => ?_, fun _ => ?_⟩ <;> rw [h] <;> exact id
      · exact ⟨fun hc => hc.elim (absurd · h₁) (absurd · h₂), fun hc => absurd hc h₃⟩
  | _ => trivial

end Drain

/-- The drain thread pushes a frame of a recording. -/
theorem drain_pushes_frame :
    ∃ s, drain.exec waits Drain.initial (commands 6 true ++ drains 6) = some s ∧
      s.drain = .push 0 ∧ UsesLive s := by
  have hrun : (drain.exec waits Drain.initial (commands 6 true ++ drains 6)).map
      (fun s => s.drain) = some (.push 0) := by decide
  obtain ⟨s, hs, hpush⟩ := Option.map_eq_some_iff.mp hrun
  exact ⟨s, hs, hpush, drain_uses_live
    (.of_exec_check (fun _ _ => waitsForDrain_of_waits) (show drain.init Drain.initial from rfl)
      hs)⟩

/-- The recording is stopped between the drain thread's test of `recorder_` and its call. -/
theorem reset_under_drain :
    ¬ ∀ s : Shared, drain.Reach (fun _ _ => True) s → UsesLive s := by
  intro h
  have hrun : (drain.exec (fun _ _ => true) Drain.initial
      (commands 6 true ++ drains 3 ++ commands 12 false)).map (fun s => (s.drain, s.recorder)) =
      some (.call, none) := by decide
  obtain ⟨s, hs, hend⟩ := Option.map_eq_some_iff.mp hrun
  obtain ⟨hcall, hnone⟩ := Prod.mk.inj hend
  have hlive := h s (.of_exec_check (fun _ _ _ => trivial)
    (show drain.init Drain.initial from rfl) hs)
  rw [UsesLive, hcall] at hlive
  obtain ⟨o, r, ho, -⟩ := hlive
  rw [hnone] at ho
  cases ho

end RasPiZeroCam
