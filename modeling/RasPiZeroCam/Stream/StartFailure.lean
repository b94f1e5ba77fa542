import RasPiZeroCam.Stream.Calls

/-!
The failure branches of `GstCameraSource::start`: which of the four handles each of them gives back.

* `World.NoHandles`: the source does not run and its four handles are null.
* `start_failed_cases`: the ways a `start` fails, and the source that each leaves.
* `FailedCleanly`: the source is as before the call, and every reference acquired during the call
  was released once.
* `AllOrNothing`: `gst_parse_launch` gives a pipeline or an error, and its elements are all there or
  all missing.  `failedCleanly_iff`: these are the outcomes that `start` cleans up after.
* `missing_recSink_leaks`: a missing `rec_sink` leaves the other two handles behind.
-/

namespace RasPiZeroCam

open Transition

/-- The source does not run and has no handle. -/
structure World.NoHandles (w : World) : Prop where
  running : w.running = false
  pipeline : w.pipeline = none
  appsink : w.appsink = none
  recSink : w.recSink = none
  bus : w.bus = none

/-- A source without handles is the one whose handles were set to null. -/
lemma World.NoHandles.source {w : World} (h : w.NoHandles) :
    { w.toSource with
      pipeline := none
      appsink := none
      recSink := none
      bus := none } = w.toSource := by
  calc ({ w.toSource with
          pipeline := none
          appsink := none
          recSink := none
          bus := none } : Source)
      = { w.toSource with
          pipeline := w.pipeline
          appsink := w.appsink
          recSink := w.recSink
          bus := w.bus } := by rw [h.pipeline, h.appsink, h.recSink, h.bus]
    _ = w.toSource := rfl

/-- `start()`, run alone: at most one step for each of its nine program points. -/
def startAlone (o : Choice) (w : World) : Option (World × Bool) := execBody startStep o 9 .test w

/-- A failed `start` left the source as it was, and released every reference it had acquired. -/
structure FailedCleanly (w w' : World) : Prop where
  source : w'.toSource = w.toSource
  references : ∃ acquired released, w'.acquired = w.acquired ++ acquired ∧
    w'.released = w.released ++ released ∧ acquired.Nodup ∧ released.Perm acquired

/-- `gst_parse_launch` gives a pipeline or an error but not both, and of a pipeline's two appsinks
and its bus all are found or none is. -/
def AllOrNothing (o : Choice) : Prop :=
  o.parse ≠ .withError ∧ (o.parse = .ok → o.appsink = o.recSink ∧ o.recSink = o.bus)

/-! ### How a start fails -/

namespace World

variable {w : World}

/-- The references that a lookup in the pipeline just made finds. -/
def foundRefs (o : Choice) (id : ℕ) : List Ref :=
  (if o.appsink then [.appsink id] else []) ++ (if o.recSink then [.recSink id] else [])
    ++ (if o.bus then [.bus id] else [])

/-- The elements of a new pipeline: those found are the handles and the references acquired. -/
lemma getElements_newPipeline (o : Choice) (w : World) :
    w.newPipeline.getElements o =
      { w with
        pipeline := some ⟨w.made, w.cfg⟩
        appsink := if o.appsink then some w.made else none
        recSink := if o.recSink then some w.made else none
        bus := if o.bus then some w.made else none
        made := w.made + 1
        acquired := w.acquired ++ .pipeline w.made :: foundRefs o w.made } := by
  cases happsink : o.appsink <;> cases hrecSink : o.recSink <;> cases hbus : o.bus <;>
    simp [getElements, newPipeline, foundRefs, happsink, hrecSink, hbus]

/-- The source after the branch that a missing element takes. -/
def missingElement (o : Choice) (w : World) : World :=
  (w.newPipeline.getElements o).releasePipeline

/-- It gives back the pipeline and keeps the elements that were found. -/
lemma missingElement_eq (o : Choice) (w : World) :
    w.missingElement o =
      { w with
        pipeline := none
        appsink := if o.appsink then some w.made else none
        recSink := if o.recSink then some w.made else none
        bus := if o.bus then some w.made else none
        made := w.made + 1
        acquired := w.acquired ++ .pipeline w.made :: foundRefs o w.made
        released := w.released ++ [.pipeline w.made] } := by
  rw [missingElement, getElements_newPipeline]
  rfl

/-- The source after the branch that a failed change to PLAYING takes. -/
def notPlaying (o : Choice) (w : World) : World :=
  (w.newPipeline.getElements o).releaseAppsink.releaseRecSink.releaseBus.releasePipeline

/-- It gives back everything. -/
lemma notPlaying_eq (o : Choice) (w : World) :
    w.notPlaying o =
      { w with
        pipeline := none
        appsink := none
        recSink := none
        bus := none
        made := w.made + 1
        acquired := w.acquired ++ .pipeline w.made :: foundRefs o w.made
        released := w.released ++ (foundRefs o w.made ++ [.pipeline w.made]) } := by
  rw [notPlaying, getElements_newPipeline]
  cases happsink : o.appsink <;> cases hrecSink : o.recSink <;> cases hbus : o.bus <;>
    simp [releaseAppsink, releaseRecSink, releaseBus, releasePipeline, foundRefs, happsink,
      hrecSink, hbus]

end World

/-- All three lookups succeed. -/
def Choice.allFound (o : Choice) : Bool := o.appsink && o.recSink && o.bus

/-- **How a `start` fails**: no pipeline, a pipeline with an error, a missing element, or a pipeline
that does not get to PLAYING. -/
theorem start_failed_cases {o : Choice} {w w' : World} (hrun : w.running = false)
    (h : startAlone o w = some (w', false)) :
    (o.parse = .null ∧ w' = { w with pipeline := none }) ∨
    (o.parse = .withError ∧ w' = w.newPipeline) ∨
    (o.parse = .ok ∧ o.allFound = false ∧ w' = w.missingElement o) ∨
    (o.parse = .ok ∧ o.allFound = true ∧ o.playing = false ∧ w' = w.notPlaying o) := by
  have htest : startStep o .test w = some (w, .goto .parseLaunch) := by simp [startStep, hrun]
  rw [startAlone, execBody_goto htest] at h
  cases hparse : o.parse with
  | null =>
      have hstep : startStep o .parseLaunch w = some ({ w with pipeline := none }, .ret false) := by
        simp [startStep, hparse]
      rw [execBody_ret hstep] at h
      cases h
      exact .inl ⟨rfl, rfl⟩
  | withError =>
      have hstep : startStep o .parseLaunch w = some (w.newPipeline, .ret false) := by
        simp [startStep, hparse]
      rw [execBody_ret hstep] at h
      cases h
      exact .inr (.inl ⟨rfl, rfl⟩)
  | ok =>
      have hstep : startStep o .parseLaunch w = some (w.newPipeline, .goto .getElements) := by
        simp [startStep, hparse]
      rw [execBody_goto hstep] at h
      cases hfound : o.allFound with
      | false =>
          have hmissing : startStep o .getElements w.newPipeline
              = some (w.missingElement o, .ret false) := by
            simp only [Choice.allFound] at hfound
            cases happsink : o.appsink <;> cases hrecSink : o.recSink <;> cases hbus : o.bus <;>
              simp_all [startStep, World.getElements_newPipeline, World.missingElement]
          rw [execBody_ret hmissing] at h
          cases h
          exact .inr (.inr (.inl ⟨rfl, rfl, rfl⟩))
      | true =>
          have hthere : startStep o .getElements w.newPipeline
              = some (w.newPipeline.getElements o, .goto .setPlaying) := by
            simp only [Choice.allFound, Bool.and_eq_true] at hfound
            simp [startStep, World.getElements_newPipeline, hfound]
          rw [execBody_goto hthere] at h
          cases hplaying : o.playing with
          | false =>
              have hstop : startStep o .setPlaying (w.newPipeline.getElements o)
                  = some (w.notPlaying o, .ret false) := by
                simp [startStep, hplaying, World.notPlaying]
              rw [execBody_ret hstop] at h
              cases h
              exact .inr (.inr (.inr ⟨rfl, rfl, rfl, rfl⟩))
          | true =>
              -- from here on `start` returns `true`, or terminates on a joinable thread
              have hplay : startStep o .setPlaying (w.newPipeline.getElements o)
                  = some (w.newPipeline.getElements o, .goto .clearAbortRec) := by
                simp [startStep, hplaying]
              rw [execBody_goto hplay] at h
              generalize w.newPipeline.getElements o = v at h
              cases hrec : v.recThread.joinable <;> cases hbus : v.busThread.joinable <;>
                simp [execBody, startStep, hrec, hbus] at h

/-! ### Which failures are cleaned up -/

section Cleanup

variable {o : Choice} {w : World}

lemma failedCleanly_null (h : w.NoHandles) : FailedCleanly w { w with pipeline := none } where
  source := by simp [← h.pipeline]
  references := ⟨[], [], by simp, by simp, .nil, .nil⟩

/-- A pipeline with an error stays in `pipeline_`. -/
lemma not_failedCleanly_withError (h : w.NoHandles) : ¬ FailedCleanly w w.newPipeline := by
  intro hclean
  have hpipeline := congrArg Source.pipeline hclean.source
  simp [World.newPipeline, h.pipeline] at hpipeline

/-- The references of a new pipeline and its elements are different ones. -/
lemma nodup_foundRefs (o : Choice) (id : ℕ) : (Ref.pipeline id :: World.foundRefs o id).Nodup := by
  cases happsink : o.appsink <;> cases hrecSink : o.recSink <;> cases hbus : o.bus <;>
    simp [World.foundRefs, happsink, hrecSink, hbus]

/-- All handles are given back when the pipeline does not get to PLAYING. -/
lemma failedCleanly_notPlaying (h : w.NoHandles) : FailedCleanly w (w.notPlaying o) := by
  rw [World.notPlaying_eq]
  exact ⟨h.source, .pipeline w.made :: World.foundRefs o w.made,
    World.foundRefs o w.made ++ [.pipeline w.made], rfl, rfl, nodup_foundRefs o w.made,
    List.perm_append_singleton _ _⟩

/-- **The branch of a missing element** gives back the pipeline alone: it is clean when no element
was found. -/
lemma failedCleanly_missingElement_iff (h : w.NoHandles) :
    FailedCleanly w (w.missingElement o) ↔
      o.appsink = false ∧ o.recSink = false ∧ o.bus = false := by
  rw [World.missingElement_eq]
  constructor
  · intro hclean
    have happsink := congrArg Source.appsink hclean.source
    have hrecSink := congrArg Source.recSink hclean.source
    have hbus := congrArg Source.bus hclean.source
    simp only [h.appsink] at happsink
    simp only [h.recSink] at hrecSink
    simp only [h.bus] at hbus
    exact ⟨by simpa using happsink, by simpa using hrecSink, by simpa using hbus⟩
  · rintro ⟨happsink, hrecSink, hbus⟩
    have hnothing : World.foundRefs o w.made = [] := by
      simp [World.foundRefs, happsink, hrecSink, hbus]
    simp only [happsink, hrecSink, hbus, hnothing, Bool.false_eq_true, if_false]
    exact ⟨h.source, [.pipeline w.made], [.pipeline w.made], rfl, rfl, by simp, .refl _⟩

end Cleanup

/-- **Which failed starts are clean**: those where `gst_parse_launch` does not return a pipeline
together with an error, and the lookups in its pipeline all succeed or all fail. -/
theorem failedCleanly_iff {o : Choice} {w w' : World} (hnull : w.NoHandles)
    (h : startAlone o w = some (w', false)) : FailedCleanly w w' ↔ AllOrNothing o := by
  obtain ⟨hparse, rfl⟩ | ⟨hparse, rfl⟩ | ⟨hparse, hfound, rfl⟩ | ⟨hparse, hfound, -, rfl⟩ :=
    start_failed_cases hnull.running h
  · exact iff_of_true (failedCleanly_null hnull) ⟨by simp [hparse], by simp [hparse]⟩
  · exact iff_of_false (not_failedCleanly_withError hnull) fun hall => hall.1 hparse
  · rw [failedCleanly_missingElement_iff hnull]
    constructor
    · rintro ⟨happsink, hrecSink, hbus⟩
      exact ⟨by simp [hparse], fun _ => ⟨happsink.trans hrecSink.symm, hrecSink.trans hbus.symm⟩⟩
    · intro hall
      obtain ⟨hsinks, hbus⟩ := hall.2 hparse
      simp only [Choice.allFound, hsinks, hbus, Bool.and_self] at hfound
      exact ⟨by rw [hsinks, hbus, hfound], by rw [hbus, hfound], hfound⟩
  · refine iff_of_true (failedCleanly_notPlaying hnull) ⟨by simp [hparse], fun _ => ?_⟩
    simp only [Choice.allFound, Bool.and_eq_true] at hfound
    obtain ⟨⟨happsink, hrecSink⟩, hbus⟩ := hfound
    exact ⟨happsink.trans hrecSink.symm, hrecSink.trans hbus.symm⟩

/-! ### A pipeline without its second appsink -/

/-- A fresh source. -/
def freshSource : World := .new (configOf .low)

lemma freshSource_noHandles : freshSource.NoHandles := ⟨rfl, rfl, rfl, rfl, rfl⟩

/-- A fresh source whose pipeline does not get to PLAYING. -/
theorem failedCleanly_iff_fresh :
    FailedCleanly freshSource (freshSource.notPlaying { Choice.good with playing := false }) ↔
      AllOrNothing { Choice.good with playing := false } :=
  failedCleanly_iff freshSource_noHandles (by decide)

/-- With `rec_sink` missing, `start` returns `false` and keeps the other appsink and the bus. -/
theorem missing_recSink_leaks :
    freshSource.NoHandles ∧ ∃ w', startAlone { Choice.good with recSink := false } freshSource
        = some (w', false) ∧
      w'.appsink = some 0 ∧ w'.bus = some 0 ∧
      w'.acquired = [.pipeline 0, .appsink 0, .bus 0] ∧ w'.released = [.pipeline 0] ∧
      ¬ FailedCleanly freshSource w' := by
  refine ⟨freshSource_noHandles, freshSource.missingElement { Choice.good with recSink := false },
    by decide, by decide, by decide, by decide, by decide, fun hclean => ?_⟩
  exact absurd (congrArg Source.appsink hclean.source) (by decide)

end RasPiZeroCam
