import RasPiZeroCam.Record.H264

/-!
`JpegHwEncoder`: callers of `encode` copy a frame into a mapped input buffer and queue it to the
driver; the poll thread takes the input buffers back, delivers the JPEGs and queues their buffers
again.

* `JpegHwEncoder`: the members, what the driver has, and where the thread and the destructor are.
* `JpegHwEncoder.outputUses`, `JpegHwEncoder.captureUses`: the indices at which a step looks into
  `output_bufs_` and `capture_bufs_`.
* `JpegHwEncoder.Sound`: each input slot is in one place, and the driver's buffers are those it has
  granted.  `sound_of_reach`: it holds along every run.
-/

namespace RasPiZeroCam

open Transition

/-- `JpegHwEncoder::NUM_OUTPUT_BUFFERS`. -/
abbrev jpegOutputBuffers : ℕ := 3

/-- `JpegHwEncoder::NUM_CAPTURE_BUFFERS`. -/
abbrev jpegCaptureBuffers : ℕ := 3

/-- The `v4l2_buffer` that `DQBUF` gives for a JPEG. -/
structure JpegBuffer where
  index : ℕ
  bytesused : ℕ
  deriving DecidableEq

/-- Where `poll_thread_fn` is. -/
inductive JpegPollPc where
  | test                               -- `while (!abort_)`
  | poll
  | dqOutput
  | takeBack (slot : ℕ)                -- `DQBUF` gave the slot; under `output_mutex_`
  | dqCapture
  | deliver (buf : JpegBuffer)         -- `output_ready_cb_(..)`
  | requeue (buf : JpegBuffer)
  | exited
  deriving DecidableEq

/-- What the poll thread asks the driver for. -/
inductive JpegPollAnswer where
  | polled (ret : PollResult)
  | output (slot : Option ℕ)           -- `DQBUF`, which may fail
  | capture (buf : Option JpegBuffer)
  | queued (ok : Bool)                 -- `QBUF`
  | none                               -- the step asks for nothing
  deriving DecidableEq

/-- Where the destructor is. -/
inductive JpegDestroyPc where
  | alive
  | joinPoll
  | unmap                              -- the `munmap` loops
  | closed
  deriving DecidableEq

/-- A `JpegHwEncoder`, its driver and its thread; the input slots by their indices. -/
structure JpegHwEncoder where
  freeOutputSlots : List ℕ
  numCaptureBufs : ℕ
  abort : Bool
  outputReadyCb : Bool                 -- `output_ready_cb_` is set
  submitting : List ℕ                  -- slots of calls of `encode` that are about to `QBUF`
  undoing : List ℕ                     -- slots of calls whose `QBUF` failed
  inputQueued : List ℕ                 -- the driver reads these
  inputDone : List ℕ                   -- the driver has read these
  captureQueued : List ℕ               -- the driver may write to these
  captureDone : List JpegBuffer        -- the driver has written these
  pollThread : JpegPollPc
  destroy : JpegDestroyPc
  delivered : List JpegBuffer          -- what the callback received
  deriving DecidableEq

namespace JpegHwEncoder

/-- A step of a caller, of the driver, of the thread or of the destructor. -/
inductive Step where
  | take
  | qbuf (slot : ℕ) (ok : Bool)
  | undo (slot : ℕ)
  | finish (slot : ℕ)
  | fill (buf : JpegBuffer)
  | pollThread (answer : JpegPollAnswer)
  | destroy
  deriving DecidableEq

/-- `JpegHwEncoder(..)`, for which the driver has granted `c` input and `m` capture buffers. -/
def new (c m : ℕ) : JpegHwEncoder where
  freeOutputSlots := List.range c
  numCaptureBufs := m
  abort := false
  outputReadyCb := true
  submitting := []
  undoing := []
  inputQueued := []
  inputDone := []
  captureQueued := List.range m
  captureDone := []
  pollThread := .test
  destroy := .alive
  delivered := []

/-- The first critical section of `encode`; false is returned when no slot is free. -/
def take (s : JpegHwEncoder) : JpegHwEncoder × Option Bool :=
  match s.freeOutputSlots with
  | [] => (s, some false)
  | slot :: rest =>
      ({ s with
        freeOutputSlots := rest
        submitting := slot :: s.submitting }, none)

/-- `VIDIOC_QBUF` of a filled slot, which is the driver's answer `ok`. -/
def qbuf (slot : ℕ) (ok : Bool) (s : JpegHwEncoder) : Option (JpegHwEncoder × Option Bool) :=
  if slot ∈ s.submitting then
    if ok then
      some ({ s with
        submitting := s.submitting.erase slot
        inputQueued := s.inputQueued ++ [slot] }, some true)
    else
      some ({ s with
        submitting := s.submitting.erase slot
        undoing := slot :: s.undoing }, none)
  else none

/-- The critical section after a failed `VIDIOC_QBUF`. -/
def undo (slot : ℕ) (s : JpegHwEncoder) : Option (JpegHwEncoder × Option Bool) :=
  if slot ∈ s.undoing then
    some ({ s with
      undoing := s.undoing.erase slot
      freeOutputSlots := s.freeOutputSlots ++ [slot] }, some false)
  else none

/-- The driver has read a slot; in any order. -/
def finish (slot : ℕ) (s : JpegHwEncoder) : Option JpegHwEncoder :=
  if slot ∈ s.inputQueued then
    some { s with
      inputQueued := s.inputQueued.erase slot
      inputDone := s.inputDone ++ [slot] }
  else none

/-- The driver has written a JPEG. -/
def fill (buf : JpegBuffer) (s : JpegHwEncoder) : Option JpegHwEncoder :=
  if buf.index ∈ s.captureQueued then
    some { s with
      captureQueued := s.captureQueued.erase buf.index
      captureDone := s.captureDone ++ [buf] }
  else none

/-- A step of `poll_thread_fn()`. -/
def pollStep (answer : JpegPollAnswer) (s : JpegHwEncoder) : Option JpegHwEncoder :=
  match s.pollThread, answer with
  | .test, .none => some { s with pollThread := if s.abort then .exited else .poll }
  | .poll, .polled .ready => some { s with pollThread := .dqOutput }
  | .poll, .polled .error => some { s with pollThread := .exited }
  | .poll, .polled _ => some { s with pollThread := .test }
  | .dqOutput, .output none => some { s with pollThread := .dqCapture }
  | .dqOutput, .output (some slot) =>
      if slot ∈ s.inputDone then
        some { s with
          inputDone := s.inputDone.erase slot
          pollThread := .takeBack slot }
      else none
  | .takeBack slot, .none =>
      some { s with
        freeOutputSlots := s.freeOutputSlots ++ [slot]
        pollThread := .dqCapture }
  | .dqCapture, .capture none => some { s with pollThread := .test }
  | .dqCapture, .capture (some buf) =>
      if buf ∈ s.captureDone then
        some { s with
          captureDone := s.captureDone.erase buf
          pollThread := .deliver buf }
      else none
  | .deliver buf, .none =>
      some { s with
        delivered :=
          if s.outputReadyCb && 0 < buf.bytesused then s.delivered ++ [buf] else s.delivered
        pollThread := .requeue buf }
  | .requeue buf, .queued ok =>
      some { s with
        captureQueued := if ok then s.captureQueued ++ [buf.index] else s.captureQueued
        pollThread := .test }
  | _, _ => none

/-- A step of the destructor. -/
def destroyStep (s : JpegHwEncoder) : Option JpegHwEncoder :=
  match s.destroy with
  | .alive =>
      some { s with
        abort := true
        destroy := .joinPoll }
  | .joinPoll => if s.pollThread = .exited then some { s with destroy := .unmap } else none
  | .unmap => some { s with destroy := .closed }
  | .closed => none

/-- The indices at which a step looks into `output_bufs_`: `encode` reads the address and the size
of its slot. -/
def outputUses (s : JpegHwEncoder) : Step → List ℕ
  | .take => s.freeOutputSlots.take 1
  | .qbuf slot _ => [slot]
  | _ => []

/-- The indices at which a step looks into `capture_bufs_`: the thread reads the address and the
size of a buffer, the destructor unmaps `num_capture_bufs_` of them. -/
def captureUses (s : JpegHwEncoder) : Step → List ℕ
  | .pollThread _ =>
      match s.pollThread with
      | .deliver buf => [buf.index]
      | .requeue buf => [buf.index]
      | _ => []
  | .destroy => if s.destroy = .unmap then List.range s.numCaptureBufs else []
  | _ => []

end JpegHwEncoder

/-- A `JpegHwEncoder` with `c` input and `m` capture buffers, any callers of `encode`, and the
driver. -/
def jpegHw (c m : ℕ) : System JpegHwEncoder JpegHwEncoder.Step where
  init s := s = .new c m
  step s
    | .take => some s.take.1
    | .qbuf slot ok => (s.qbuf slot ok).map (·.1)
    | .undo slot => (s.undo slot).map (·.1)
    | .finish slot => s.finish slot
    | .fill buf => s.fill buf
    | .pollThread answer => s.pollStep answer
    | .destroy => s.destroyStep

/-- The slot that the poll thread has dequeued. -/
def JpegPollPc.slot : JpegPollPc → List ℕ
  | .takeBack slot => [slot]
  | _ => []

/-- The capture buffer that the poll thread has dequeued. -/
def JpegPollPc.capture : JpegPollPc → List ℕ
  | .deliver buf => [buf.index]
  | .requeue buf => [buf.index]
  | _ => []

namespace JpegHwEncoder

variable {c m : ℕ} {s s' : JpegHwEncoder}

/-! ### The slots and the capture buffers -/

/-- The slots, wherever they are. -/
def slots (s : JpegHwEncoder) : List ℕ :=
  s.freeOutputSlots ++ ((s.submitting ++ s.undoing) ++
    ((s.inputQueued ++ s.inputDone) ++ s.pollThread.slot))

/-- The capture buffers, wherever they are; one whose `QBUF` failed is in no queue. -/
def captures (s : JpegHwEncoder) : List ℕ :=
  s.captureQueued ++ (s.captureDone.map (·.index) ++ s.pollThread.capture)

/-- The slots are those of the pool, and the capture buffers those that the driver has granted. -/
structure Sound (c m : ℕ) (s : JpegHwEncoder) : Prop where
  slots : s.slots.Perm (List.range c)
  captures : ∀ i ∈ s.captures, i < m
  count : s.numCaptureBufs = m

lemma sound_new : Sound c m (.new c m) where
  slots := by simp [slots, new, JpegPollPc.slot]
  captures i hi := by simpa [captures, new, JpegPollPc.capture] using hi
  count := rfl

/-- A step that passes slots and capture buffers on. -/
lemma Sound.moved (h : Sound c m s) (hslots : s.slots.Perm s'.slots)
    (hcaptures : ∀ i ∈ s'.captures, i ∈ s.captures)
    (hcount : s'.numCaptureBufs = s.numCaptureBufs) : Sound c m s' where
  slots := hslots.symm.trans h.slots
  captures i hi := h.captures i (hcaptures i hi)
  count := hcount.trans h.count

lemma Sound.take (h : Sound c m s) : Sound c m s.take.1 := by
  rw [JpegHwEncoder.take]
  split
  · exact h
  next slot rest hfree =>
    refine h.moved ?_ (fun _ hi => hi) rfl
    simp only [JpegHwEncoder.slots, hfree]
    grind

lemma Sound.qbuf (h : Sound c m s) {slot : ℕ} {ok : Bool} {r : JpegHwEncoder × Option Bool}
    (hq : s.qbuf slot ok = some r) : Sound c m r.1 := by
  rw [JpegHwEncoder.qbuf] at hq
  split_ifs at hq with hmem hok
  all_goals
    cases hq
    refine h.moved ?_ (fun _ hi => hi) rfl
    have := List.perm_cons_erase hmem
    simp only [JpegHwEncoder.slots]
    grind

lemma Sound.undo (h : Sound c m s) {slot : ℕ} {r : JpegHwEncoder × Option Bool}
    (hu : s.undo slot = some r) : Sound c m r.1 := by
  rw [JpegHwEncoder.undo] at hu
  split_ifs at hu with hmem
  cases hu
  refine h.moved ?_ (fun _ hi => hi) rfl
  have := List.perm_cons_erase hmem
  simp only [JpegHwEncoder.slots]
  grind

lemma Sound.finish (h : Sound c m s) {slot : ℕ} (hf : s.finish slot = some s') :
    Sound c m s' := by
  rw [JpegHwEncoder.finish] at hf
  split_ifs at hf with hmem
  cases hf
  refine h.moved ?_ (fun _ hi => hi) rfl
  have := List.perm_cons_erase hmem
  simp only [JpegHwEncoder.slots]
  grind

lemma Sound.fill (h : Sound c m s) {buf : JpegBuffer} (hf : s.fill buf = some s') :
    Sound c m s' := by
  rw [JpegHwEncoder.fill] at hf
  split_ifs at hf with hmem
  cases hf
  refine h.moved (.refl _) ?_ rfl
  intro i hi
  have := List.mem_of_mem_erase (a := i) (b := buf.index) (l := s.captureQueued)
  simp only [JpegHwEncoder.captures, List.map_append, List.map_cons, List.map_nil] at hi ⊢
  grind

lemma Sound.pollStep (h : Sound c m s) {answer : JpegPollAnswer}
    (hp : s.pollStep answer = some s') : Sound c m s' := by
  -- a step that has nothing in hand, before and after
  have hstay : ∀ {pc : JpegPollPc}, s.pollThread.slot = pc.slot → pc.capture = [] →
      Sound c m { s with pollThread := pc } := by
    intro pc hslot hcapture
    refine h.moved ?_ ?_ rfl
    · simp only [JpegHwEncoder.slots, hslot]
      exact .refl _
    · intro i hi
      simp only [JpegHwEncoder.captures, hcapture, List.append_nil, List.mem_append] at hi ⊢
      tauto
  simp only [JpegHwEncoder.pollStep] at hp
  split at hp
  · next hpc =>
    cases hp
    refine hstay ?_ ?_
    · rw [hpc]
      split <;> rfl
    · split <;> rfl
  · next hpc =>
    cases hp
    exact hstay (by rw [hpc]; rfl) rfl
  · next hpc =>
    cases hp
    exact hstay (by rw [hpc]; rfl) rfl
  · next hpc =>
    cases hp
    exact hstay (by rw [hpc]; rfl) rfl
  · next hpc =>
    cases hp
    exact hstay (by rw [hpc]; rfl) rfl
  · next slot hpc =>
    split_ifs at hp with hmem
    cases hp
    refine h.moved ?_ ?_ rfl
    · have := List.perm_cons_erase hmem
      simp only [JpegHwEncoder.slots, hpc, JpegPollPc.slot]
      grind
    · intro i hi
      simpa [JpegHwEncoder.captures, hpc, JpegPollPc.capture] using hi
  · next slot hpc =>
    cases hp
    refine h.moved ?_ ?_ rfl
    · simp only [JpegHwEncoder.slots, hpc, JpegPollPc.slot]
      grind
    · intro i hi
      simpa [JpegHwEncoder.captures, hpc, JpegPollPc.capture] using hi
  · next hpc =>
    cases hp
    exact hstay (by rw [hpc]; rfl) rfl
  · next buf hpc =>
    split_ifs at hp with hmem
    cases hp
    refine h.moved ?_ ?_ rfl
    · simp only [JpegHwEncoder.slots, hpc, JpegPollPc.slot]
      exact .refl _
    · intro i hi
      have hbuf := List.mem_map_of_mem (f := JpegBuffer.index) hmem
      have hrest : i ∈ (s.captureDone.erase buf).map JpegBuffer.index →
          i ∈ s.captureDone.map JpegBuffer.index :=
        fun hi => List.map_subset _ List.erase_subset hi
      simp only [JpegHwEncoder.captures, JpegPollPc.capture] at hi ⊢
      grind
  · next buf hpc =>
    cases hp
    refine h.moved ?_ ?_ rfl
    · simp only [JpegHwEncoder.slots, hpc, JpegPollPc.slot]
      exact .refl _
    · intro i hi
      simpa [JpegHwEncoder.captures, hpc, JpegPollPc.capture] using hi
  · next buf ok hpc =>
    cases hp
    refine h.moved ?_ ?_ rfl
    · simp only [JpegHwEncoder.slots, hpc, JpegPollPc.slot]
      exact .refl _
    · intro i hi
      simp only [JpegHwEncoder.captures, hpc, JpegPollPc.capture] at hi ⊢
      grind
  · cases hp

lemma Sound.destroyStep (h : Sound c m s) (hd : s.destroyStep = some s') : Sound c m s' := by
  rw [JpegHwEncoder.destroyStep] at hd
  split at hd
  · cases hd
    exact ⟨h.slots, h.captures, h.count⟩
  · split_ifs at hd
    cases hd
    exact ⟨h.slots, h.captures, h.count⟩
  · cases hd
    exact ⟨h.slots, h.captures, h.count⟩
  · cases hd

/-- **Every run keeps the slots and the capture buffers.** -/
theorem sound_of_reach {check : JpegHwEncoder → Step → Prop} (h : (jpegHw c m).Reach check s) :
    Sound c m s := by
  refine h.invariant (Sound c m) ?_ ?_
  · rintro s rfl
    exact sound_new
  · intro s e s' _ hs _ hstep
    cases e with
    | take =>
        cases hstep
        exact hs.take
    | qbuf slot ok =>
        obtain ⟨r, hr, rfl⟩ := Option.map_eq_some_iff.mp hstep
        exact hs.qbuf hr
    | undo slot =>
        obtain ⟨r, hr, rfl⟩ := Option.map_eq_some_iff.mp hstep
        exact hs.undo hr
    | finish slot => exact hs.finish hstep
    | fill buf => exact hs.fill hstep
    | pollThread answer => exact hs.pollStep hstep
    | destroy => exact hs.destroyStep hstep

end JpegHwEncoder

end RasPiZeroCam
