import RasPiZeroCam.Transition.System

/-!
The references that `rec_drain_thread_fn` and `push_frame` hold on the samples of the `appsink`.

* `SampleRefs`: where the drain thread is, the use count of each sample's `FramePtr`, the
  `GstBuffer` that wraps its memory, and the calls of GStreamer.
* `SampleRefs.drainStep`, `SampleRefs.gstStep`: the statements of the thread, and what GStreamer
  does when it frees a pushed buffer.
* `SampleView`: what concerns one sample; `step_view`: every step is one of a view.
-/

namespace RasPiZeroCam

open Transition System

/-- A call of GStreamer on a sample, its buffer, or the buffer that wraps its memory. -/
inductive SampleCall where
  | pull          -- `gst_app_sink_try_pull_sample`
  | ref           -- `held = gst_sample_ref(sample)`
  | map           -- `gst_buffer_map`, with success
  | push          -- `gst_app_src_push_buffer`
  | freed         -- the pushed buffer is freed
  | unmap         -- `gst_buffer_unmap`
  | unrefSample   -- `gst_sample_unref(sample)`
  | unrefHeld     -- `gst_sample_unref(held)`
  deriving DecidableEq

/-- The `FramePtr` of the drain thread whose end runs `~Frame`: the parameter of `push_frame`, or
the variable `frame`. -/
inductive FrameScope where
  | param
  | frame
  deriving DecidableEq

/-- Where the drain thread is with a sample. -/
inductive SampleStage where
  | guard                           -- `if (recording_ && recorder_)`
  | map                             -- `if (gst_buffer_map(buf, &map, GST_MAP_READ))`
  | ref                             -- `held = gst_sample_ref(sample)`
  | makeFrame                       -- `std::make_shared<Frame>()`, and its members
  | callPush                        -- `recorder_->push_frame(frame)` copies `frame`
  | testState                       -- `if (state_ != RECORDING) return false`
  | testEncoder                     -- `if (!sw_encoder_ && !hw_encoder_) return false`
  | testAppsrc                      -- `if (!appsrc_) return false`; `dma_fd` is -1
  | keepalive                       -- `new FramePtr(frame)`, the `GstBuffer`, and its qdata
  | pushBuffer                      -- `gst_app_src_push_buffer(appsrc_, buf)`
  | endPush                         -- `push_frame` returns, and its parameter ends
  | unrefSample                     -- `gst_sample_unref(sample)`
  | endFrame                        -- `frame` ends
  | unmap (scope : FrameScope)      -- in `~Frame`: `gst_buffer_unmap(hbuf, &hmap)`
  | unrefHeld (scope : FrameScope)  -- in `~Frame`: `gst_sample_unref(held)`
  | discard                         -- `gst_sample_unref(sample)` in an `else`
  deriving DecidableEq

/-- Where the drain thread is. -/
inductive SamplePc where
  | testAbort                                  -- `while (!abort_rec_)`
  | pull                                       -- `gst_app_sink_try_pull_sample`
  | sample (k : ℕ) (stage : SampleStage)
  | returned
  deriving DecidableEq

/-- What has become of the `GstBuffer` around a sample's memory. -/
inductive WrapState where
  | none
  | built
  | pushed
  | unmap       -- it is freed, its keepalive was the last `FramePtr`; in `~Frame`: unmap
  | unrefHeld   -- in `~Frame`: unref
  | gone        -- it is freed, and so is the keepalive
  deriving DecidableEq

/-- The drain thread, GStreamer, and the samples, numbered in the order they are pulled in. -/
structure SampleRefs where
  pc : SamplePc
  pulled : ℕ
  useCount : ℕ → ℕ          -- of the `FramePtr`s to the frame of a sample
  wrap : ℕ → WrapState
  calls : List (ℕ × SampleCall)

namespace SampleRefs

/-- Before the thread starts. -/
def new : SampleRefs where
  pc := .testAbort
  pulled := 0
  useCount _ := 0
  wrap _ := .none
  calls := []

/-- The calls on a sample. -/
def callsOn (s : SampleRefs) (k : ℕ) : List SampleCall :=
  s.calls.filterMap fun c => if c.1 = k then some c.2 else none

/-- The drain thread goes on with a sample. -/
def goto (k : ℕ) (stage : SampleStage) (s : SampleRefs) : SampleRefs :=
  { s with pc := .sample k stage }

/-- A call of GStreamer. -/
def call (k : ℕ) (c : SampleCall) (s : SampleRefs) : SampleRefs :=
  { s with calls := s.calls ++ [(k, c)] }

/-- The use count of a frame changes. -/
def setCount (k n : ℕ) (s : SampleRefs) : SampleRefs :=
  { s with useCount := Function.update s.useCount k n }

def setWrap (k : ℕ) (w : WrapState) (s : SampleRefs) : SampleRefs :=
  { s with wrap := Function.update s.wrap k w }

/-- The drain thread goes back to its loop. -/
def nextPass (s : SampleRefs) : SampleRefs := { s with pc := .testAbort }

/-- Where the thread goes on after a `FramePtr` of its has ended. -/
def leave (k : ℕ) (s : SampleRefs) : FrameScope → SampleRefs
  | .param => s.goto k .unrefSample
  | .frame => s.nextPass

/-- A `FramePtr` of the drain thread ends; the last one runs `~Frame`. -/
def endFrame (k : ℕ) (scope : FrameScope) (s : SampleRefs) : SampleRefs :=
  let s' := s.setCount k (s.useCount k - 1)
  if s.useCount k = 1 then s'.goto k (.unmap scope) else s'.leave k scope

/-- A statement of the drain thread about a sample; `o` is the outcome of its test. -/
def stageStep (o : Bool) (k : ℕ) (s : SampleRefs) : SampleStage → SampleRefs
  | .guard => if o then s.goto k .map else s.goto k .discard
  | .map => if o then (s.call k .map).goto k .ref else s.goto k .discard
  | .ref => (s.call k .ref).goto k .makeFrame
  | .makeFrame => (s.setCount k 1).goto k .callPush
  | .callPush => (s.setCount k (s.useCount k + 1)).goto k .testState
  | .testState => if o then s.goto k .testEncoder else s.goto k .endPush
  | .testEncoder => if o then s.goto k .testAppsrc else s.goto k .endPush
  | .testAppsrc => if o then s.goto k .keepalive else s.goto k .endPush
  | .keepalive => ((s.setCount k (s.useCount k + 1)).setWrap k .built).goto k .pushBuffer
  -- the buffer belongs to GStreamer from here on, whatever the call returns
  | .pushBuffer => ((s.call k .push).setWrap k .pushed).goto k .endPush
  | .endPush => s.endFrame k .param
  | .unrefSample => (s.call k .unrefSample).goto k .endFrame
  | .endFrame => s.endFrame k .frame
  | .unmap scope => (s.call k .unmap).goto k (.unrefHeld scope)
  | .unrefHeld scope => (s.call k .unrefHeld).leave k scope
  | .discard => (s.call k .unrefSample).nextPass

/-- A statement of the drain thread. -/
def drainStep (o : Bool) (s : SampleRefs) : Option SampleRefs :=
  match s.pc with
  | .testAbort => some { s with pc := if o then .returned else .pull }
  | .pull =>
      if o then some { (s.call s.pulled .pull).goto s.pulled .guard with pulled := s.pulled + 1 }
      else some s.nextPass
  | .sample k stage => some (s.stageStep o k stage)
  | .returned => none

/-- GStreamer frees a pushed buffer, and goes on with what that sets off: the qdata is destroyed
with the buffer, and deletes the keepalive. -/
def gstStep (k : ℕ) (s : SampleRefs) : Option SampleRefs :=
  match s.wrap k with
  | .pushed =>
      let s' := (s.call k .freed).setCount k (s.useCount k - 1)
      some (s'.setWrap k (if s.useCount k = 1 then .unmap else .gone))
  | .unmap => some ((s.call k .unmap).setWrap k .unrefHeld)
  | .unrefHeld => some ((s.call k .unrefHeld).setWrap k .gone)
  | _ => none

/-- The drain thread takes a step, with an outcome, or GStreamer does, with a buffer. -/
inductive Step where
  | drain (o : Bool)
  | gst (k : ℕ)

/-- Nothing is under way with a sample: the drain thread has done with it, and its buffer has been
freed if there was one. -/
def Settled (s : SampleRefs) (k : ℕ) : Prop :=
  (∀ stage, s.pc ≠ .sample k stage) ∧ (s.wrap k = .none ∨ s.wrap k = .gone)

end SampleRefs

open SampleRefs

/-- The drain thread and GStreamer. -/
def sampleRefs : System SampleRefs SampleRefs.Step where
  init s := s = .new
  step s
    | .drain o => s.drainStep o
    | .gst k => s.gstStep k

/-! ### One sample -/

/-- What concerns one sample: where the drain thread is with it, the use count of its frame, the
buffer around its memory, and the calls on it. -/
structure SampleView where
  stage : Option SampleStage
  count : ℕ
  wrap : WrapState
  calls : List SampleCall

namespace SamplePc

/-- Where the thread is with a sample. -/
def stage? (k : ℕ) : SamplePc → Option SampleStage
  | sample j stage => if j = k then some stage else none
  | _ => none

end SamplePc

/-- The statements that only move the drain thread. -/
inductive SampleStage.Moves : SampleStage → SampleStage → Prop
  | map : Moves guard map
  | notRecording : Moves guard discard
  | notMapped : Moves map discard
  | encoder : Moves testState testEncoder
  | appsrc : Moves testEncoder testAppsrc
  | keepalive : Moves testAppsrc keepalive
  | idle : Moves testState endPush
  | noEncoder : Moves testEncoder endPush
  | noAppsrc : Moves testAppsrc endPush

/-- Where the drain thread goes on after `~Frame`. -/
@[simp] def FrameScope.next : FrameScope → Option SampleStage
  | param => some .unrefSample
  | frame => none

/-- The steps, as one sample sees them. -/
inductive SampleView.Step : SampleView → SampleView → Prop
  | pull : Step ⟨none, 0, .none, []⟩ ⟨some .guard, 0, .none, [.pull]⟩
  | moves {a b n w cs} : a.Moves b → Step ⟨some a, n, w, cs⟩ ⟨some b, n, w, cs⟩
  | map {n w cs} : Step ⟨some .map, n, w, cs⟩ ⟨some .ref, n, w, cs ++ [.map]⟩
  | ref {n w cs} : Step ⟨some .ref, n, w, cs⟩ ⟨some .makeFrame, n, w, cs ++ [.ref]⟩
  | makeFrame {n w cs} : Step ⟨some .makeFrame, n, w, cs⟩ ⟨some .callPush, 1, w, cs⟩
  | callPush {n w cs} : Step ⟨some .callPush, n, w, cs⟩ ⟨some .testState, n + 1, w, cs⟩
  | keepalive {n w cs} : Step ⟨some .keepalive, n, w, cs⟩ ⟨some .pushBuffer, n + 1, .built, cs⟩
  | pushBuffer {n w cs} :
      Step ⟨some .pushBuffer, n, w, cs⟩ ⟨some .endPush, n, .pushed, cs ++ [.push]⟩
  | endPush {n w cs} : Step ⟨some .endPush, n, w, cs⟩
      ⟨if n = 1 then some (.unmap .param) else some .unrefSample, n - 1, w, cs⟩
  | unrefSample {n w cs} :
      Step ⟨some .unrefSample, n, w, cs⟩ ⟨some .endFrame, n, w, cs ++ [.unrefSample]⟩
  | endFrame {n w cs} : Step ⟨some .endFrame, n, w, cs⟩
      ⟨if n = 1 then some (.unmap .frame) else none, n - 1, w, cs⟩
  | unmap {scope n w cs} :
      Step ⟨some (.unmap scope), n, w, cs⟩ ⟨some (.unrefHeld scope), n, w, cs ++ [.unmap]⟩
  | unrefHeld {scope : FrameScope} {n w cs} :
      Step ⟨some (.unrefHeld scope), n, w, cs⟩ ⟨scope.next, n, w, cs ++ [.unrefHeld]⟩
  | discard {n w cs} : Step ⟨some .discard, n, w, cs⟩ ⟨none, n, w, cs ++ [.unrefSample]⟩
  | freed {stage n cs} : Step ⟨stage, n, .pushed, cs⟩
      ⟨stage, n - 1, if n = 1 then .unmap else .gone, cs ++ [.freed]⟩
  | gstUnmap {stage n cs} : Step ⟨stage, n, .unmap, cs⟩ ⟨stage, n, .unrefHeld, cs ++ [.unmap]⟩
  | gstUnref {stage n cs} : Step ⟨stage, n, .unrefHeld, cs⟩ ⟨stage, n, .gone, cs ++ [.unrefHeld]⟩

namespace SampleRefs

variable {s s' : SampleRefs} {j k : ℕ} {o : Bool} {stage : SampleStage}

/-- What concerns a sample. -/
def view (s : SampleRefs) (k : ℕ) : SampleView :=
  ⟨s.pc.stage? k, s.useCount k, s.wrap k, s.callsOn k⟩

@[simp] lemma view_goto_self (s : SampleRefs) (k : ℕ) (stage : SampleStage) :
    (s.goto k stage).view k = { s.view k with stage := some stage } := by
  simp [view, goto, SamplePc.stage?, callsOn]

lemma view_goto_ne (s : SampleRefs) (h : j ≠ k) (stage : SampleStage) :
    (s.goto k stage).view j = { s.view j with stage := none } := by
  simp [view, goto, SamplePc.stage?, callsOn, h.symm]

@[simp] lemma view_call_self (s : SampleRefs) (k : ℕ) (c : SampleCall) :
    (s.call k c).view k = { s.view k with calls := s.callsOn k ++ [c] } := by
  simp [view, call, callsOn]

lemma view_call_ne (s : SampleRefs) (h : j ≠ k) (c : SampleCall) :
    (s.call k c).view j = s.view j := by
  simp [view, call, callsOn, h.symm]

@[simp] lemma view_setCount_self (s : SampleRefs) (k n : ℕ) :
    (s.setCount k n).view k = { s.view k with count := n } := by
  simp [view, setCount, callsOn]

lemma view_setCount_ne (s : SampleRefs) (h : j ≠ k) (n : ℕ) :
    (s.setCount k n).view j = s.view j := by
  simp [view, setCount, callsOn, h]

@[simp] lemma view_setWrap_self (s : SampleRefs) (k : ℕ) (w : WrapState) :
    (s.setWrap k w).view k = { s.view k with wrap := w } := by
  simp [view, setWrap, callsOn]

lemma view_setWrap_ne (s : SampleRefs) (h : j ≠ k) (w : WrapState) :
    (s.setWrap k w).view j = s.view j := by
  simp [view, setWrap, callsOn, h]

/-- The drain thread is with no sample. -/
@[simp] lemma view_nextPass (s : SampleRefs) (j : ℕ) :
    s.nextPass.view j = { s.view j with stage := none } := by
  simp [view, nextPass, SamplePc.stage?, callsOn]

/-- A statement about a sample is a step of its view. -/
lemma stageStep_view_self (h : s.pc = .sample k stage) (o : Bool) :
    SampleView.Step (s.view k) ((s.stageStep o k stage).view k) := by
  have hview : s.view k = ⟨some stage, s.useCount k, s.wrap k, s.callsOn k⟩ := by
    simp [view, h, SamplePc.stage?]
  have hleave : ∀ scope : FrameScope, ∀ t : SampleRefs,
      (t.leave k scope).view k = { t.view k with stage := scope.next } := by
    intro scope t
    cases scope with
    | param => exact view_goto_self t k _
    | frame => exact view_nextPass t k
  have hend : ∀ scope : FrameScope, (s.endFrame k scope).view k =
      ⟨if s.useCount k = 1 then some (.unmap scope) else scope.next, s.useCount k - 1, s.wrap k,
        s.callsOn k⟩ := by
    intro scope
    rw [endFrame]
    split_ifs
    · simp [hview]
    · simp [hleave, hview]
  cases stage with
  | guard =>
      cases o
      · simpa [stageStep, hview] using SampleView.Step.moves .notRecording
      · simpa [stageStep, hview] using SampleView.Step.moves .map
  | map =>
      cases o
      · simpa [stageStep, hview] using SampleView.Step.moves .notMapped
      · simpa [stageStep, hview] using SampleView.Step.map
  | ref => simpa [stageStep, hview] using SampleView.Step.ref
  | makeFrame => simpa [stageStep, hview] using SampleView.Step.makeFrame
  | callPush => simpa [stageStep, hview] using SampleView.Step.callPush
  | testState =>
      cases o
      · simpa [stageStep, hview] using SampleView.Step.moves .idle
      · simpa [stageStep, hview] using SampleView.Step.moves .encoder
  | testEncoder =>
      cases o
      · simpa [stageStep, hview] using SampleView.Step.moves .noEncoder
      · simpa [stageStep, hview] using SampleView.Step.moves .appsrc
  | testAppsrc =>
      cases o
      · simpa [stageStep, hview] using SampleView.Step.moves .noAppsrc
      · simpa [stageStep, hview] using SampleView.Step.moves .keepalive
  | keepalive => simpa [stageStep, hview] using SampleView.Step.keepalive
  | pushBuffer => simpa [stageStep, hview] using SampleView.Step.pushBuffer
  | endPush => simpa [stageStep, hview, hend, FrameScope.next] using SampleView.Step.endPush
  | unrefSample => simpa [stageStep, hview] using SampleView.Step.unrefSample
  | endFrame => simpa [stageStep, hview, hend, FrameScope.next] using SampleView.Step.endFrame
  | unmap scope => simpa [stageStep, hview] using SampleView.Step.unmap
  | unrefHeld scope => simpa [stageStep, hview, hleave] using SampleView.Step.unrefHeld
  | discard => simpa [stageStep, hview] using SampleView.Step.discard

/-- And leaves the others alone. -/
lemma stageStep_view_ne (hj : j ≠ k) (h : s.pc = .sample k stage) (o : Bool) :
    (s.stageStep o k stage).view j = s.view j := by
  have hnone : (s.view j).stage = none := by simp [view, h, SamplePc.stage?, hj.symm]
  have hstay : { s.view j with stage := none } = s.view j := by rw [← hnone]
  have hleave : ∀ scope : FrameScope, ∀ t : SampleRefs,
      (t.leave k scope).view j = { t.view j with stage := none } := by
    intro scope t
    cases scope with
    | param => exact view_goto_ne t hj _
    | frame => exact view_nextPass t j
  have hend : ∀ scope : FrameScope, (s.endFrame k scope).view j = s.view j := by
    intro scope
    rw [endFrame]
    split_ifs
    · rw [view_goto_ne _ hj, view_setCount_ne _ hj, hstay]
    · rw [hleave, view_setCount_ne _ hj, hstay]
  cases stage <;> cases o <;>
    simp [stageStep, view_goto_ne, view_call_ne, view_setCount_ne, view_setWrap_ne, hj, hleave,
      hend, hstay]

/-- So is a step of GStreamer. -/
lemma gstStep_view (h : s.gstStep k = some s') : SampleView.Step (s.view k) (s'.view k) ∧
    (∀ j, j ≠ k → s'.view j = s.view j) ∧ s'.pulled = s.pulled ∧ s.wrap k ≠ .none := by
  have hview : ∀ {w : WrapState}, s.wrap k = w →
      s.view k = ⟨s.pc.stage? k, s.useCount k, w, s.callsOn k⟩ := by
    rintro w rfl
    rfl
  rw [gstStep] at h
  split at h
  · next hwrap =>
    cases h
    refine ⟨?_, fun j hj => ?_, rfl, by simp [hwrap]⟩
    · simpa [hview hwrap] using SampleView.Step.freed
    · rw [view_setWrap_ne _ hj, view_setCount_ne _ hj, view_call_ne _ hj]
  · next hwrap =>
    cases h
    refine ⟨?_, fun j hj => ?_, rfl, by simp [hwrap]⟩
    · simpa [hview hwrap] using SampleView.Step.gstUnmap
    · rw [view_setWrap_ne _ hj, view_call_ne _ hj]
  · next hwrap =>
    cases h
    refine ⟨?_, fun j hj => ?_, rfl, by simp [hwrap]⟩
    · simpa [hview hwrap] using SampleView.Step.gstUnref
    · rw [view_setWrap_ne _ hj, view_call_ne _ hj]
  · cases h

/-- A statement of the drain thread does not number samples. -/
lemma stageStep_pulled (o : Bool) (k : ℕ) (stage : SampleStage) :
    (s.stageStep o k stage).pulled = s.pulled := by
  have hleave : ∀ (scope : FrameScope) (t : SampleRefs), (t.leave k scope).pulled = t.pulled := by
    intro scope t
    cases scope <;> rfl
  have hend : ∀ scope : FrameScope, (s.endFrame k scope).pulled = s.pulled := by
    intro scope
    rw [endFrame]
    split_ifs
    · rfl
    · rw [hleave]
      rfl
  cases stage <;> cases o <;> first | rfl | exact hend _ | exact hleave _ _

/-- The samples that have been pulled in are the first ones. -/
structure Numbered (s : SampleRefs) : Prop where
  fresh : ∀ k, s.pulled ≤ k → s.view k = ⟨none, 0, .none, []⟩
  pulled : ∀ k, k < s.pulled → .pull ∈ s.callsOn k

end SampleRefs

/-- No call is forgotten. -/
lemma SampleView.Step.calls {v v' : SampleView} (h : v.Step v') : v.calls <+: v'.calls := by
  cases h <;> first | exact List.prefix_rfl | exact List.prefix_append _ _

namespace SampleRefs

variable {s s' : SampleRefs}

/-- The thread pulls the next sample. -/
lemma pull_view (hs : s.Numbered) (hpc : s.pc = .pull) (j : ℕ) :
    ((s.call s.pulled .pull).goto s.pulled .guard).view j =
      if j = s.pulled then ⟨some .guard, 0, .none, [.pull]⟩ else s.view j := by
  split_ifs with hj
  · subst hj
    have hfresh := hs.fresh s.pulled le_rfl
    have hcalls : s.callsOn s.pulled = [] := congrArg SampleView.calls hfresh
    simp [hfresh, hcalls]
  · have hnone : (s.view j).stage = none := by simp [view, hpc, SamplePc.stage?]
    rw [view_goto_ne _ hj, view_call_ne _ hj, ← hnone]

/-- **Every step is one of the views**, and keeps the numbers. -/
lemma step_view (hs : s.Numbered) {e : Step} (h : sampleRefs.step s e = some s') :
    (∀ j, s'.view j = s.view j ∨ (s.view j).Step (s'.view j)) ∧ s'.Numbered := by
  -- a step about a sample that has been pulled in
  have hold : ∀ k, k < s.pulled → s'.pulled = s.pulled → (s.view k).Step (s'.view k) →
      (∀ j, j ≠ k → s'.view j = s.view j) →
      (∀ j, s'.view j = s.view j ∨ (s.view j).Step (s'.view j)) ∧ s'.Numbered := by
    intro k hk hpulled hstep hothers
    refine ⟨fun j => ?_, fun j hj => ?_, fun j hj => ?_⟩
    · by_cases hjk : j = k
      · exact Or.inr (hjk ▸ hstep)
      · exact Or.inl (hothers j hjk)
    · rw [hpulled] at hj
      rw [hothers j (by omega), hs.fresh j hj]
    · rw [hpulled] at hj
      by_cases hjk : j = k
      · subst hjk
        exact hstep.calls.mem (hs.pulled j hj)
      · have hcalls : s'.callsOn j = s.callsOn j := congrArg SampleView.calls (hothers j hjk)
        rw [hcalls]
        exact hs.pulled j hj
  cases e with
  | gst k =>
      obtain ⟨hstep, hothers, hpulled, hwrap⟩ := gstStep_view h
      refine hold k ?_ hpulled hstep hothers
      by_contra hk
      exact hwrap (congrArg SampleView.wrap (hs.fresh k (by omega)))
  | drain o =>
      simp only [sampleRefs, drainStep] at h
      split at h
      · next hpc =>
        cases h
        have hsame : ∀ j, { s with pc := if o then .returned else .pull }.view j = s.view j := by
          intro j
          cases o <;> simp [view, callsOn, hpc, SamplePc.stage?]
        exact ⟨fun j => Or.inl (hsame j), fun j hj => (hsame j).trans (hs.fresh j hj), hs.pulled⟩
      · next hpc =>
        split_ifs at h
        · cases h
          have hview := pull_view hs hpc
          refine ⟨fun j => ?_, fun j hj => ?_, fun j hj => ?_⟩
          · by_cases hjk : j = s.pulled
            · refine Or.inr ?_
              rw [hs.fresh j hjk.ge]
              exact ((hview j).trans (if_pos hjk)) ▸ SampleView.Step.pull
            · exact Or.inl ((hview j).trans (if_neg hjk))
          · have hlt : s.pulled < j := hj
            exact (hview j).trans ((if_neg hlt.ne').trans (hs.fresh j hlt.le))
          · have hlt : j < s.pulled + 1 := hj
            show .pull ∈ (((s.call s.pulled .pull).goto s.pulled .guard).view j).calls
            rw [hview j]
            split_ifs with hjk
            · exact List.mem_singleton_self _
            · exact hs.pulled j (by omega)
        · cases h
          have hsame : ∀ j, s.nextPass.view j = s.view j := by
            intro j
            simp [view, callsOn, nextPass, hpc, SamplePc.stage?]
          exact ⟨fun j => Or.inl (hsame j), fun j hj => (hsame j).trans (hs.fresh j hj), hs.pulled⟩
      · next k stage hpc =>
        cases h
        refine hold k ?_ (stageStep_pulled o k stage) (stageStep_view_self hpc o)
          fun j hj => stageStep_view_ne hj hpc o
        by_contra hk
        have hnone := congrArg SampleView.stage (hs.fresh k (by omega))
        simp [view, hpc, SamplePc.stage?] at hnone
      · cases h

end SampleRefs

end RasPiZeroCam
