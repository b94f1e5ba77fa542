import RasPiZeroCam.Stream.Calls

/-!
Proof outlines for the calls of `GstCameraSource` when nothing else calls it meanwhile.

* `RecIdle`, `RecOn`: no recording is active and every one that was has been finalised; a recording
  is active, and it is the one that has not.
* `Up`, `Down`, `Settled`: the states between two calls.  A source that runs has its books in order,
  one that does not holds nothing.
* `StopRecordingA`, `StopA`, `StartA`, `SetResolutionA`: the assertion at every program point, and
  `stopRecording_outline`, `startRecording_outline`, `stop_outline`, `start_outline`,
  `setResolution_outline`, which prove them from a `CleanStart`, crashes excluded.
* The `exit` and `message` lemmas of the assertions: what the source's own threads do meanwhile.

With `strict = true` the outlines also follow the element pointers, which a `start` that finds only
some of its elements leaves behind.
-/

namespace RasPiZeroCam

open Transition

/-- No recording is active, and all that were have been stopped. -/
structure RecIdle (w : World) : Prop where
  recording : w.recording = false
  books : w.recStarted = w.recStopped
  recorder : ∀ r, w.recorder = some r → r.state = .idle

/-- A recorder is in RECORDING, and its file is the only one not yet stopped. -/
def RecLive (w : World) : Prop :=
  ∃ r, w.recorder = some r ∧ r.state = .recording ∧
    w.recStarted = w.recStopped ++ [r.currentFile]

/-- The recording that is active, if there is one, is the only one not yet stopped. -/
def RecOk (w : World) : Prop := RecIdle w ∨ (w.recording = true ∧ RecLive w)

/-- The element pointers are null; followed only if `strict`. -/
def Unlinked (strict : Bool) (w : World) : Prop :=
  strict = true → w.appsink = none ∧ w.recSink = none ∧ w.bus = none

/-- A source that runs. -/
structure Up (w : World) : Prop where
  running : w.running = true
  recOk : RecOk w

/-- No recording, no thread and no running pipeline. -/
structure Halted (w : World) : Prop where
  running : w.running = false
  recIdle : RecIdle w
  recThread : w.recThread = .empty
  busThread : w.busThread = .empty

/-- A source that does not run, as `stop` leaves it. -/
structure Down (strict : Bool) (w : World) : Prop where
  halted : Halted w
  pipeline : w.pipeline = none
  elements : Unlinked strict w

/-- A source between two calls. -/
def Settled (strict : Bool) (w : World) : Prop := Up w ∨ Down strict w

lemma RecOk.idle {w : World} (h : RecOk w) (hr : w.recording = false) : RecIdle w := by
  obtain h | ⟨hon, -⟩ := h
  · exact h
  · rw [hr] at hon
    cases hon

lemma RecOk.live {w : World} (h : RecOk w) (hr : w.recording = true) : RecLive w := by
  obtain h | ⟨-, h⟩ := h
  · rw [h.recording] at hr
    cases hr
  · exact h

/-! Each of them looks at a few members only, and is kept by what leaves those alone. -/

/-- What is said of the recordings, is said of these members. -/
def World.recView (w : World) : Bool × Option Recorder × List Bytes × List Bytes :=
  (w.recording, w.recorder, w.recStarted, w.recStopped)

lemma RecIdle.congr {w w' : World} (h : RecIdle w) (hview : w'.recView = w.recView) :
    RecIdle w' := by
  simp only [World.recView, Prod.mk.injEq] at hview
  obtain ⟨h₁, h₂, h₃, h₄⟩ := hview
  exact ⟨h₁.trans h.recording, h₃.trans (h.books.trans h₄.symm),
    fun r hr => h.recorder r (h₂ ▸ hr)⟩

lemma RecOk.congr {w w' : World} (h : RecOk w) (hview : w'.recView = w.recView) : RecOk w' := by
  obtain h | ⟨hrec, r, hr, hstate, hbooks⟩ := h
  · exact Or.inl (h.congr hview)
  · simp only [World.recView, Prod.mk.injEq] at hview
    obtain ⟨h₁, h₂, h₃, h₄⟩ := hview
    exact Or.inr ⟨h₁.trans hrec, r, h₂.trans hr, hstate, by rw [h₃, h₄, hbooks]⟩

lemma Up.congr {w w' : World} (h : Up w) (hrun : w'.running = w.running)
    (hview : w'.recView = w.recView) : Up w' :=
  ⟨hrun.trans h.running, h.recOk.congr hview⟩

lemma Halted.congr {w w' : World} (h : Halted w) (hrun : w'.running = w.running)
    (hview : w'.recView = w.recView) (hrec : w'.recThread = w.recThread)
    (hbus : w'.busThread = w.busThread) : Halted w' :=
  ⟨hrun.trans h.running, h.recIdle.congr hview, hrec.trans h.recThread, hbus.trans h.busThread⟩

lemma Settled.recOk {strict : Bool} {w : World} (h : Settled strict w) : RecOk w := by
  obtain h | h := h
  · exact h.recOk
  · exact Or.inl h.halted.recIdle

lemma Settled.up {strict : Bool} {w : World} (h : Settled strict w) (hr : w.running = true) :
    Up w := by
  obtain h | h := h
  · exact h
  · rw [h.halted.running] at hr
    cases hr

lemma Settled.down {strict : Bool} {w : World} (h : Settled strict w) (hr : w.running = false) :
    Down strict w := by
  obtain h | h := h
  · rw [h.running] at hr
    cases hr
  · exact h

lemma settled_new (strict : Bool) (cfg : ResolutionConfig) : Settled strict (.new cfg) :=
  Or.inr
    { halted := ⟨rfl, ⟨rfl, rfl, by simp [World.new, Source.new]⟩, rfl, rfl⟩
      pipeline := rfl
      elements := fun _ => ⟨rfl, rfl, rfl⟩ }

/-! ### Recording -/

/-- The assertions in `stop_recording`, for a caller that knows `F` of `running_`. -/
def StopRecordingA (F : Bool → Prop) (p : StopRecordingPc) (w : World) : Prop :=
  F w.running ∧
    match p with
    | .test => RecOk w
    | .clear => w.recording = true ∧ RecLive w
    | .testRecorder => w.recording = false ∧ RecLive w
    | .stopRecorder => w.recording = false ∧ RecLive w
    | .resetRecorder => RecIdle w

theorem stopRecording_outline (F : Bool → Prop) :
    Outline False stopRecordingStep (fun _ _ => True) (StopRecordingA F)
      fun _ w => F w.running ∧ RecIdle w := by
  rintro o p w w' n - ⟨hF, h⟩ hstep
  cases p <;> simp only [stopRecordingStep, Option.some.injEq, Prod.mk.injEq] at hstep
  case test =>
      obtain ⟨rfl, rfl⟩ := hstep
      cases hrec : w.recording with
      | false => exact ⟨hF, h.idle hrec⟩
      | true => exact ⟨hF, hrec, h.live hrec⟩
  case clear =>
      obtain ⟨rfl, rfl⟩ := hstep
      exact ⟨hF, rfl, h.2⟩
  case testRecorder =>
      obtain ⟨rfl, rfl⟩ := hstep
      obtain ⟨hrec, r, hr, hlive⟩ := h
      rw [hr, Option.isSome_some, if_pos rfl]
      exact ⟨hF, hrec, r, hr, hlive⟩
  case stopRecorder =>
      obtain ⟨hrec, r, hr, hstate, hbooks⟩ := h
      rw [hr] at hstep
      cases hstep
      refine ⟨hF, ⟨hrec, ?_, ?_⟩⟩
      · simp only [World.stopRecorder, World.finalises, hstate, if_true, hbooks]
      · intro r' hr'
        cases hr'
        exact Recorder.stop_state_of_recording _ hstate
  case resetRecorder =>
      obtain ⟨rfl, rfl⟩ := hstep
      have hdone : w.recorder.elim [] World.finalises = [] := by
        cases hr : w.recorder with
        | none => rfl
        | some r => simp [World.finalises, h.recorder r hr]
      refine ⟨hF, ⟨h.recording, ?_, by simp [World.resetRecorder]⟩⟩
      simpa only [World.resetRecorder, hdone, List.append_nil] using h.books

/-- The assertions in `start_recording`. -/
def StartRecordingA (strict : Bool) : StartRecordingPc → World → Prop
  | .test, w => Settled strict w
  | .create, w => w.running = true ∧ RecIdle w
  | .startRecorder, w => w.running = true ∧ RecIdle w ∧ w.recorder.isSome
  | .setFile, w => w.running = true ∧ w.recording = false ∧ RecLive w
  | .setRecording, w => w.running = true ∧ w.recording = false ∧ RecLive w

theorem startRecording_outline (strict : Bool) (f : Bytes) :
    Outline False (startRecordingStep f) (fun _ _ => True) (StartRecordingA strict)
      fun _ w => Settled strict w := by
  rintro o p w w' n - h hstep
  cases p <;> simp only [startRecordingStep, Option.some.injEq, Prod.mk.injEq] at hstep
  case test =>
      obtain ⟨rfl, rfl⟩ := hstep
      split_ifs with htest
      · exact h
      · simp only [Bool.or_eq_true, Bool.not_eq_true', not_or, Bool.not_eq_false,
          Bool.not_eq_true] at htest
        exact ⟨htest.1, h.recOk.idle htest.2⟩
  case create =>
      obtain ⟨rfl, rfl⟩ := hstep
      obtain ⟨hrun, hrec⟩ := h
      have hdone : w.recorder.elim [] World.finalises = [] := by
        cases hr : w.recorder with
        | none => rfl
        | some r => simp [World.finalises, hrec.recorder r hr]
      refine ⟨hrun, ⟨hrec.recording, ?_, ?_⟩, rfl⟩
      · simpa only [World.resetRecorder, hdone, List.append_nil] using hrec.books
      · intro r hr
        cases hr
        rfl
  case startRecorder =>
      obtain ⟨hrun, hrec, hsome⟩ := h
      cases hr : w.recorder with
      | none =>
          rw [hr] at hsome
          cases hsome
      | some r =>
          have hidle := hrec.recorder r hr
          have hok := Recorder.start_sw_of_ok o.recorder w.cfg f hidle
          have hnot := Recorder.start_sw_of_not_ok o.recorder w.cfg f hidle
          rw [hr] at hstep
          rcases hst : r.start o.recorder w.cfg f true with ⟨r', e | ok⟩ <;>
            simp only [hst] at hstep hok hnot
          · cases hstep
            refine Or.inl ⟨hrun, Or.inl ⟨hrec.recording, hrec.books, ?_⟩⟩
            intro r'' hr''
            cases hr''
            exact hnot (by simp)
          · cases ok with
            | false =>
                cases hstep
                exact Or.inl ⟨hrun, Or.inl ⟨hrec.recording, hrec.books, by simp⟩⟩
            | true =>
                cases hstep
                exact ⟨hrun, hrec.recording, r', rfl, (hok rfl).1, by rw [hrec.books]⟩
  case setFile =>
      obtain ⟨rfl, rfl⟩ := hstep
      exact h
  case setRecording =>
      obtain ⟨rfl, rfl⟩ := hstep
      exact Or.inl ⟨h.1, Or.inr ⟨rfl, h.2.2⟩⟩

/-! ### Stopping and starting -/

/-- The assertions in `stop`. -/
def StopA (strict : Bool) : StopPc → World → Prop
  | .test, w => Settled strict w
  | .testRecording, w => RecOk w
  | .stopRecording p, w => StopRecordingA (fun _ => True) p w
  | .clearRunning, w => RecIdle w
  | .setAbortBus, w => w.running = false ∧ RecIdle w
  | .setAbortRec, w => w.running = false ∧ RecIdle w
  | .testRecThread, w => w.running = false ∧ RecIdle w
  | .joinRecThread, w => (w.running = false ∧ RecIdle w) ∧ w.recThread.joinable = true
  | .testBusThread, w => (w.running = false ∧ RecIdle w) ∧ w.recThread = .empty
  | .joinBusThread, w =>
      (w.running = false ∧ RecIdle w) ∧ w.recThread = .empty ∧ w.busThread.joinable = true
  | .releaseAppsink, w => Halted w
  | .releaseRecSink, w => Halted w ∧ (strict = true → w.appsink = none)
  | .releaseBus, w => Halted w ∧ (strict = true → w.appsink = none ∧ w.recSink = none)
  | .releasePipeline, w => Halted w ∧ Unlinked strict w

lemma joinable_eq_false {t : StdThread} (h : ¬ t.joinable = true) : t = .empty := by
  cases t <;> simp [StdThread.joinable] at h ⊢

theorem stop_outline (strict : Bool) :
    Outline False stopStep (fun _ _ => True) (StopA strict) fun _ w => Down strict w := by
  rintro o p w w' n - h hstep
  cases p <;> simp only [stopStep, Option.some.injEq, Prod.mk.injEq] at hstep
  case test =>
      obtain ⟨rfl, rfl⟩ := hstep
      cases hrun : w.running with
      | false => exact h.down hrun
      | true => exact (h.up hrun).recOk
  case testRecording =>
      obtain ⟨rfl, rfl⟩ := hstep
      cases hrec : w.recording with
      | false => exact h.idle hrec
      | true => exact ⟨trivial, h⟩
  case stopRecording p =>
      obtain ⟨⟨v, m⟩, hbody, hland⟩ := Option.map_eq_some_iff.mp hstep
      cases hland
      refine (stopRecording_outline (fun _ => True) o p w v m trivial h hbody).call
        (fun _ hp => hp) (fun _ hr => ?_)
      exact hr.2
  case clearRunning =>
      obtain ⟨rfl, rfl⟩ := hstep
      exact ⟨rfl, h.congr rfl⟩
  case setAbortBus =>
      obtain ⟨rfl, rfl⟩ := hstep
      exact ⟨h.1, h.2.congr rfl⟩
  case setAbortRec =>
      obtain ⟨rfl, rfl⟩ := hstep
      exact ⟨h.1, h.2.congr rfl⟩
  case testRecThread =>
      obtain ⟨rfl, rfl⟩ := hstep
      split_ifs with hjoin
      · exact ⟨h, hjoin⟩
      · exact ⟨h, joinable_eq_false hjoin⟩
  case joinRecThread =>
      cases ht : w.recThread with
      | empty =>
          have hjoin := h.2
          rw [ht] at hjoin
          cases hjoin
      | live =>
          rw [ht] at hstep
          cases hstep
      | exited =>
          rw [ht] at hstep
          cases hstep
          exact ⟨⟨h.1.1, h.1.2.congr rfl⟩, rfl⟩
  case testBusThread =>
      obtain ⟨rfl, rfl⟩ := hstep
      split_ifs with hjoin
      · exact ⟨h.1, h.2, hjoin⟩
      · exact ⟨h.1.1, h.1.2, h.2, joinable_eq_false hjoin⟩
  case joinBusThread =>
      cases ht : w.busThread with
      | empty =>
          have hjoin := h.2.2
          rw [ht] at hjoin
          cases hjoin
      | live =>
          rw [ht] at hstep
          cases hstep
      | exited =>
          rw [ht] at hstep
          cases hstep
          exact ⟨h.1.1, h.1.2.congr rfl, h.2.1, rfl⟩
  case releaseAppsink =>
      obtain ⟨rfl, rfl⟩ := hstep
      exact ⟨h.congr rfl rfl rfl rfl, fun _ => rfl⟩
  case releaseRecSink =>
      obtain ⟨rfl, rfl⟩ := hstep
      exact ⟨h.1.congr rfl rfl rfl rfl, fun hs => ⟨h.2 hs, rfl⟩⟩
  case releaseBus =>
      obtain ⟨rfl, rfl⟩ := hstep
      exact ⟨h.1.congr rfl rfl rfl rfl, fun hs => ⟨(h.2 hs).1, (h.2 hs).2, rfl⟩⟩
  case releasePipeline =>
      obtain ⟨rfl, rfl⟩ := hstep
      exact ⟨h.1.congr rfl rfl rfl rfl, rfl, h.2⟩

/-- A step of `start` whose calls do not fail halfway: a pipeline comes without an error, and, if
`strict`, its elements are found together or not at all. -/
def CleanStart (strict : Bool) (o : Choice) : StartPc → Prop
  | .parseLaunch => o.parse ≠ .withError
  | .getElements => strict = true → o.recSink = o.appsink ∧ o.bus = o.appsink
  | _ => True

/-- The assertions in `start`. -/
def StartA (strict : Bool) : StartPc → World → Prop
  | .test, w => Settled strict w
  | .parseLaunch, w => Down strict w
  | .getElements, w => Halted w ∧ Unlinked strict w
  | .setPlaying, w => Halted w
  | .clearAbortRec, w => Halted w
  | .spawnRecThread, w => Halted w
  | .setRunning, w => RecIdle w ∧ w.busThread = .empty
  | .clearAbortBus, w => Up w ∧ w.busThread = .empty
  | .spawnBusThread, w => Up w ∧ w.busThread = .empty

theorem start_outline (strict : Bool) :
    Outline False startStep (CleanStart strict) (StartA strict)
      fun _ w => Settled strict w := by
  rintro o p w w' n hclean h hstep
  cases p <;> simp only [startStep, Option.some.injEq, Prod.mk.injEq] at hstep
  case test =>
      obtain ⟨rfl, rfl⟩ := hstep
      cases hrun : w.running with
      | false => exact h.down hrun
      | true => exact h
  case parseLaunch =>
      cases hparse : o.parse with
      | null =>
          rw [hparse] at hstep
          cases hstep
          exact Or.inr ⟨h.halted.congr rfl rfl rfl rfl, rfl, h.elements⟩
      | withError => exact absurd hparse hclean
      | ok =>
          rw [hparse] at hstep
          cases hstep
          exact ⟨h.halted.congr rfl rfl rfl rfl, h.elements⟩
  case getElements =>
      obtain ⟨hhalted, -⟩ := h
      have hlinks : Unlinked strict (w.getElements o) ∨
          ¬ ((w.getElements o).appsink.isNone || (w.getElements o).recSink.isNone ||
            (w.getElements o).bus.isNone) = true := by
        cases strict with
        | false => exact Or.inl fun hs => absurd hs (by decide)
        | true =>
            obtain ⟨hrec, hbus⟩ := hclean rfl
            cases happ : o.appsink <;> cases hpipe : w.pipeline <;>
              simp [Unlinked, World.getElements, hrec, hbus, happ, hpipe]
      split_ifs at hstep with hmissing <;> cases hstep
      · refine Or.inr ⟨hhalted.congr rfl rfl rfl rfl, rfl, ?_⟩
        exact hlinks.resolve_right (not_not.mpr hmissing)
      · exact hhalted.congr rfl rfl rfl rfl
  case setPlaying =>
      cases hplay : o.playing <;> rw [hplay] at hstep <;> cases hstep
      · exact Or.inr ⟨h.congr rfl rfl rfl rfl, rfl,
          fun _ => ⟨rfl, rfl, rfl⟩⟩
      · exact h
  case clearAbortRec =>
      obtain ⟨rfl, rfl⟩ := hstep
      exact h.congr rfl rfl rfl rfl
  case spawnRecThread =>
      rw [h.recThread] at hstep
      cases hstep
      exact ⟨h.recIdle.congr rfl, h.busThread⟩
  case setRunning =>
      obtain ⟨rfl, rfl⟩ := hstep
      exact ⟨⟨rfl, Or.inl (h.1.congr rfl)⟩, h.2⟩
  case clearAbortBus =>
      obtain ⟨rfl, rfl⟩ := hstep
      exact ⟨h.1.congr rfl rfl, h.2⟩
  case spawnBusThread =>
      rw [h.2] at hstep
      cases hstep
      exact Or.inl (h.1.congr rfl rfl)

/-! ### Switching the resolution -/

/-- The assertions in `set_resolution`. -/
def SetResolutionA (strict : Bool) : SetResolutionPc → World → Prop
  | .testRecording, w => Settled strict w
  | .stopRecording p, w => StopRecordingA (· = true) p w
  | .stop p, w => StopA strict p w
  | .setCfg, w => Down strict w
  | .start p, w => StartA strict p w

/-- The calls to `start` in `set_resolution` do not fail halfway. -/
def CleanSwitch (strict : Bool) (o : Choice) : SetResolutionPc → Prop
  | .start p => CleanStart strict o p
  | _ => True

theorem setResolution_outline (strict : Bool) (cfg : ResolutionConfig) :
    Outline False (setResolutionStep cfg) (CleanSwitch strict)
      (SetResolutionA strict) fun _ w => Settled strict w := by
  rintro o p w w' n hclean h hstep
  cases p with
  | testRecording =>
      simp only [setResolutionStep, Option.some.injEq, Prod.mk.injEq] at hstep
      obtain ⟨rfl, rfl⟩ := hstep
      cases hrec : w.recording with
      | false => exact h
      | true =>
          obtain hup | hdown := h
          · exact ⟨hup.running, hup.recOk⟩
          · rw [hdown.halted.recIdle.recording] at hrec
            cases hrec
  | stopRecording p =>
      obtain ⟨⟨v, m⟩, hbody, hland⟩ := Option.map_eq_some_iff.mp hstep
      cases hland
      refine (stopRecording_outline (· = true) o p w v m trivial h hbody).call
        (fun _ hp => hp) (fun _ hr => ?_)
      exact Or.inl ⟨hr.1, Or.inl hr.2⟩
  | stop p =>
      obtain ⟨⟨v, m⟩, hbody, hland⟩ := Option.map_eq_some_iff.mp hstep
      cases hland
      exact (stop_outline strict o p w v m trivial h hbody).call (fun _ hp => hp) fun _ hr => hr
  | setCfg =>
      simp only [setResolutionStep, Option.some.injEq, Prod.mk.injEq] at hstep
      obtain ⟨rfl, rfl⟩ := hstep
      exact Or.inr ⟨h.halted.congr rfl rfl rfl rfl, h.pipeline, h.elements⟩
  | start p =>
      obtain ⟨⟨v, m⟩, hbody, hland⟩ := Option.map_eq_some_iff.mp hstep
      cases hland
      exact (start_outline strict o p w v m hclean h hbody).call (fun _ hp => hp) fun _ hr => hr

/-! ### The threads of the source -/

lemma Halted.no_exit {w w' : World} (h : Halted w) : ¬ ThreadExit w w' := by
  intro hexit
  obtain ⟨hlive, -⟩ | ⟨hlive, -⟩ := hexit.cases
  · rw [h.recThread] at hlive
    cases hlive
  · rw [h.busThread] at hlive
    cases hlive

lemma Up.exit {w w' : World} (h : Up w) (hexit : ThreadExit w w') : Up w' := by
  obtain ⟨-, rfl⟩ | ⟨-, rfl⟩ := hexit.cases
  · exact h.congr rfl rfl
  · exact h.congr rfl rfl

lemma Settled.exit {strict : Bool} {w w' : World} (h : Settled strict w)
    (hexit : ThreadExit w w') : Settled strict w' := by
  obtain h | h := h
  · exact Or.inl (h.exit hexit)
  · exact absurd hexit h.halted.no_exit

lemma RecIdle.exit {w w' : World} (h : RecIdle w) (hexit : ThreadExit w w') : RecIdle w' := by
  obtain ⟨-, rfl⟩ | ⟨-, rfl⟩ := hexit.cases
  · exact h.congr rfl
  · exact h.congr rfl

lemma StopRecordingA.exit {F : Bool → Prop} {p : StopRecordingPc} {w w' : World}
    (h : StopRecordingA F p w) (hexit : ThreadExit w w') : StopRecordingA F p w' := by
  obtain ⟨-, rfl⟩ | ⟨-, rfl⟩ := hexit.cases
  all_goals
    cases p with
    | test => exact ⟨h.1, h.2.congr rfl⟩
    | resetRecorder => exact ⟨h.1, h.2.congr rfl⟩
    | _ => exact h

lemma StartRecordingA.exit {strict : Bool} {p : StartRecordingPc} {w w' : World}
    (h : StartRecordingA strict p w) (hexit : ThreadExit w w') : StartRecordingA strict p w' := by
  cases p with
  | test => exact Settled.exit h hexit
  | create =>
      refine ⟨?_, h.2.exit hexit⟩
      obtain ⟨-, rfl⟩ | ⟨-, rfl⟩ := hexit.cases <;> exact h.1
  | startRecorder =>
      refine ⟨?_, h.2.1.exit hexit, ?_⟩ <;>
        obtain ⟨-, rfl⟩ | ⟨-, rfl⟩ := hexit.cases
      all_goals first | exact h.1 | exact h.2.2
  | setFile => obtain ⟨-, rfl⟩ | ⟨-, rfl⟩ := hexit.cases <;> exact h
  | setRecording => obtain ⟨-, rfl⟩ | ⟨-, rfl⟩ := hexit.cases <;> exact h

/-- Waiting to join, `stop` sees the threads return. -/
lemma StopA.exit {strict : Bool} {p : StopPc} {w w' : World} (h : StopA strict p w)
    (hexit : ThreadExit w w') : StopA strict p w' := by
  have hstopping : w.running = false ∧ RecIdle w → w'.running = false ∧ RecIdle w' := by
    rintro ⟨hrun, hrec⟩
    refine ⟨?_, hrec.exit hexit⟩
    obtain ⟨-, rfl⟩ | ⟨-, rfl⟩ := hexit.cases <;> exact hrun
  cases p
  case test => exact Settled.exit h hexit
  case testRecording =>
      obtain ⟨-, rfl⟩ | ⟨-, rfl⟩ := hexit.cases
      · exact RecOk.congr h rfl
      · exact RecOk.congr h rfl
  case stopRecording p => exact StopRecordingA.exit (F := fun _ => True) h hexit
  case clearRunning => exact RecIdle.exit h hexit
  case setAbortBus => exact hstopping h
  case setAbortRec => exact hstopping h
  case testRecThread => exact hstopping h
  case joinRecThread =>
      refine ⟨hstopping h.1, ?_⟩
      obtain ⟨-, rfl⟩ | ⟨-, rfl⟩ := hexit.cases
      · rfl
      · exact h.2
  case testBusThread =>
      refine ⟨hstopping h.1, ?_⟩
      obtain ⟨hlive, -⟩ | ⟨-, rfl⟩ := hexit.cases
      · rw [h.2] at hlive
        cases hlive
      · exact h.2
  case joinBusThread =>
      refine ⟨hstopping h.1, ?_⟩
      obtain ⟨hlive, -⟩ | ⟨-, rfl⟩ := hexit.cases
      · rw [h.2.1] at hlive
        cases hlive
      · exact ⟨h.2.1, rfl⟩
  case releaseAppsink => exact absurd hexit (Halted.no_exit h)
  all_goals exact absurd hexit h.1.no_exit

/-- Past its test of `running_`, `stop` does not mind a failing pipeline. -/
lemma StopA.message {strict : Bool} {p : StopPc} {m : BusMessage} {w w' : World}
    (h : StopA strict p w) (hp : p ≠ .test) (hmsg : w.busMessage m = some w') :
    StopA strict p w' := by
  obtain ⟨-, rfl | rfl⟩ := busMessage_cases hmsg
  · exact h
  · cases p
    case test => exact absurd rfl hp
    case testRecording => exact RecOk.congr h rfl
    case stopRecording p =>
        cases p
        case test => exact ⟨trivial, h.2.congr rfl⟩
        case resetRecorder => exact ⟨trivial, h.2.congr rfl⟩
        all_goals exact ⟨trivial, h.2⟩
    case clearRunning => exact RecIdle.congr h rfl
    case setAbortBus => exact ⟨rfl, h.2.congr rfl⟩
    case setAbortRec => exact ⟨rfl, h.2.congr rfl⟩
    case testRecThread => exact ⟨rfl, h.2.congr rfl⟩
    case joinRecThread => exact ⟨⟨rfl, h.1.2.congr rfl⟩, h.2⟩
    case testBusThread => exact ⟨⟨rfl, h.1.2.congr rfl⟩, h.2⟩
    case joinBusThread => exact ⟨⟨rfl, h.1.2.congr rfl⟩, h.2⟩
    case releaseAppsink => exact Halted.congr h h.running.symm rfl rfl rfl
    all_goals exact ⟨h.1.congr h.1.running.symm rfl rfl rfl, h.2⟩

lemma StartA.exit {strict : Bool} {p : StartPc} {w w' : World} (h : StartA strict p w)
    (hexit : ThreadExit w w') : StartA strict p w' := by
  have hbus : w.busThread = .empty → w'.busThread = .empty := by
    intro hempty
    obtain ⟨-, rfl⟩ | ⟨hlive, -⟩ := hexit.cases
    · exact hempty
    · rw [hempty] at hlive
      cases hlive
  cases p with
  | test => exact Settled.exit h hexit
  | parseLaunch => exact absurd hexit h.halted.no_exit
  | getElements => exact absurd hexit h.1.no_exit
  | setPlaying => exact absurd hexit (Halted.no_exit h)
  | clearAbortRec => exact absurd hexit (Halted.no_exit h)
  | spawnRecThread => exact absurd hexit (Halted.no_exit h)
  | setRunning => exact ⟨h.1.exit hexit, hbus h.2⟩
  | clearAbortBus => exact ⟨h.1.exit hexit, hbus h.2⟩
  | spawnBusThread => exact ⟨h.1.exit hexit, hbus h.2⟩

lemma SetResolutionA.exit {strict : Bool} {p : SetResolutionPc} {w w' : World}
    (h : SetResolutionA strict p w) (hexit : ThreadExit w w') : SetResolutionA strict p w' := by
  cases p with
  | testRecording => exact Settled.exit h hexit
  | stopRecording p => exact StopRecordingA.exit (F := (· = true)) h hexit
  | stop p => exact StopA.exit h hexit
  | setCfg => exact absurd hexit h.halted.no_exit
  | start p => exact StartA.exit h hexit

end RasPiZeroCam
