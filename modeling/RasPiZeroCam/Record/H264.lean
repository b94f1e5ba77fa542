import RasPiZeroCam.Transition.Lease
import RasPiZeroCam.Transition.System

/-!
`H264HardwareEncoder`: callers of `encode` queue camera buffers to the driver, each in a slot of its
own; the poll thread takes slots and encoded buffers back; the output thread delivers the encoded
buffers and queues them again.

* `H264Encoder`: the members, what the driver has, and where the threads and the destructor are.
* `H264Encoder.take`, `H264Encoder.qbuf`, `H264Encoder.undo`: the steps of `encode`.
* `H264Encoder.pollThread`, `H264Encoder.outputThread`, `H264Encoder.destroyStep`: the steps of the
  threads and of the destructor.  `H264Encoder.pollStep_cases`, `H264Encoder.outputStep_cases`,
  `H264Encoder.destroyStep_cases`: what they can do, once for all invariants.
-/

namespace RasPiZeroCam

open Transition

/-- `H264HardwareEncoder::NUM_OUTPUT_BUFFERS`. -/
abbrev numOutputBuffers : ℕ := 6

/-- `H264HardwareEncoder::NUM_CAPTURE_BUFFERS`. -/
abbrev numCaptureBuffers : ℕ := 12

/-- The `v4l2_buffer` that submits a frame; its `bytesused` and `length` are both the size. -/
structure InputBuffer where
  index : ℕ
  fd : ℤ
  length : ℕ
  tvSec : ℤ
  tvUsec : ℤ
  deriving DecidableEq

/-- The buffer that `encode(dma_fd, size, timestamp_us, ..)` fills in. -/
def inputBuffer (slot : ℕ) (dmaFd : ℤ) (size : ℕ) (timestampUs : ℤ) : InputBuffer where
  index := slot
  fd := dmaFd
  length := size % 2 ^ 32
  tvSec := timestampUs.tdiv 1000000
  tvUsec := timestampUs.tmod 1000000

/-- A frame on its way through the driver; `call` is the number of the call of `encode`. -/
structure Submission where
  buf : InputBuffer
  call : ℕ
  deriving DecidableEq

/-- A `FramePtr` in `pending_frames_`; `call` is the number of the call that brought it. -/
structure Keepalive (φ : Type*) where
  frame : φ
  call : ℕ

/-- The `v4l2_buffer` that `DQBUF` gives for an encoded buffer. -/
structure EncodedBuffer where
  index : ℕ
  bytesused : ℕ
  length : ℕ
  keyframe : Bool
  tvSec : ℤ
  tvUsec : ℤ
  deriving DecidableEq

/-- `H264HardwareEncoder::OutputItem`. -/
structure H264OutputItem where
  mem : ℕ
  bytesUsed : ℕ
  length : ℕ
  index : ℕ
  keyframe : Bool
  timestampUs : ℤ
  deriving DecidableEq

/-- What `poll` returns. -/
inductive PollResult where
  | ready                              -- `POLLIN`
  | quiet                              -- the time-out, or other events
  | interrupted                        -- `EINTR`
  | error
  deriving DecidableEq

/-- Where `poll_thread_fn` is. -/
inductive PollPc (φ : Type*) where
  | poll
  | check (ret : PollResult)           -- the drain condition, under `input_mutex_`
  | dqOutput
  | takeBack (sub : Submission)        -- `DQBUF` gave the slot; under `input_mutex_`
  | inputDone (frame : Option (Keepalive φ))
  | dqCapture
  | push (item : H264OutputItem)              -- `output_queue_.push(item)`, under `output_mutex_`
  | exited

/-- `poll_thread_fn` has returned. -/
def PollPc.hasExited {φ : Type*} : PollPc φ → Bool
  | .exited => true
  | _ => false

/-- What the poll thread asks the driver for. -/
inductive PollAnswer where
  | polled (ret : PollResult)
  | output (sub : Option Submission)   -- `DQBUF`, which may fail
  | capture (buf : Option EncodedBuffer)
  | none                               -- the step asks for nothing

/-- Where `output_thread_fn` is. -/
inductive H264OutputPc where
  | wait                               -- for `output_queue_`, under `output_mutex_`
  | deliver (item : H264OutputItem)           -- `output_ready_cb_(..)`
  | requeue (item : H264OutputItem)
  | exited
  deriving DecidableEq

/-- Where the destructor is.  What follows `joined` gives the buffers back to the driver. -/
inductive HwDestroyPc where
  | alive
  | joinPoll
  | setAbortOutput
  | joinOutput
  | joined
  deriving DecidableEq

/-- A `H264HardwareEncoder` for frames `φ`, its driver and its threads. -/
structure H264Encoder (φ : Type*) where
  freeInputSlots : List ℕ
  pendingFrames : ℕ → Option (Keepalive φ)
  captureMem : ℕ → ℕ                   -- `capture_bufs_[i].mem`
  outputQueue : List H264OutputItem
  abortPoll : Bool
  abortOutput : Bool
  outputReadyCb : Bool                 -- `output_ready_cb_` is set
  submitting : List Submission         -- calls of `encode` that are about to `QBUF`
  undoing : List Submission            -- calls whose `QBUF` failed
  inputQueued : List Submission        -- the driver reads these
  inputDone : List Submission          -- the driver has read these
  captureQueued : List ℕ               -- the driver may write to these
  captureDone : List EncodedBuffer     -- the driver has written these
  pollThread : PollPc φ
  outputThread : H264OutputPc
  destroy : HwDestroyPc
  calls : List (Keepalive φ)           -- the keepalives of the calls that got a slot
  dropped : List ℕ                     -- the calls whose keepalives were dropped
  dequeued : List H264OutputItem              -- the encoded buffers that `DQBUF` gave
  delivered : List H264OutputItem             -- what the callback received

namespace H264Encoder

variable {φ : Type*}

/-- A step of a caller, of the driver or of a thread. -/
inductive Step (φ : Type*) where
  | take (frame : φ) (dmaFd : ℤ) (size : ℕ) (timestampUs : ℤ)
  | qbuf (sub : Submission) (ok : Bool)
  | undo (sub : Submission)
  | finish (sub : Submission)
  | fill (buf : EncodedBuffer)
  | pollThread (answer : PollAnswer)
  | outputThread (ok : Bool)
  | destroy

/-- `H264HardwareEncoder(..)`, for which the driver has granted `c` slots and `m` capture buffers,
mapped at `mem`. -/
def new (φ : Type*) (c m : ℕ) (mem : ℕ → ℕ) : H264Encoder φ where
  freeInputSlots := List.range c
  pendingFrames _ := none
  captureMem := mem
  outputQueue := []
  abortPoll := false
  abortOutput := false
  outputReadyCb := true
  submitting := []
  undoing := []
  inputQueued := []
  inputDone := []
  captureQueued := List.range m
  captureDone := []
  pollThread := .poll
  outputThread := .wait
  destroy := .alive
  calls := []
  dropped := []
  dequeued := []
  delivered := []

/-- A keepalive is dropped, if there is one. -/
def drop (frame : Option (Keepalive φ)) (s : H264Encoder φ) : H264Encoder φ :=
  { s with dropped := s.dropped ++ (frame.map (·.call)).toList }

/-! ### `encode` -/

/-- The first critical section of `encode`; false is returned when no slot is free. -/
def take (frame : φ) (dmaFd : ℤ) (size : ℕ) (timestampUs : ℤ) (s : H264Encoder φ) :
    H264Encoder φ × Option Bool :=
  match s.freeInputSlots with
  | [] => (s, some false)
  | slot :: rest =>
      -- the assignment drops what was there
      ({ s.drop (s.pendingFrames slot) with
          freeInputSlots := rest
          pendingFrames := Function.update s.pendingFrames slot (some ⟨frame, s.calls.length⟩)
          submitting :=
            ⟨inputBuffer slot dmaFd size timestampUs, s.calls.length⟩ :: s.submitting
          calls := s.calls ++ [⟨frame, s.calls.length⟩] }, none)

/-- `VIDIOC_QBUF`, which is the driver's answer `ok`. -/
def qbuf (sub : Submission) (ok : Bool) (s : H264Encoder φ) :
    Option (H264Encoder φ × Option Bool) :=
  if sub ∈ s.submitting then
    if ok then
      some ({ s with
        submitting := s.submitting.erase sub
        inputQueued := s.inputQueued ++ [sub] }, some true)
    else
      some ({ s with
        submitting := s.submitting.erase sub
        undoing := sub :: s.undoing }, none)
  else none

/-- The critical section after a failed `VIDIOC_QBUF`. -/
def undo (sub : Submission) (s : H264Encoder φ) : Option (H264Encoder φ × Option Bool) :=
  if sub ∈ s.undoing then
    some ({ s.drop (s.pendingFrames sub.buf.index) with
      undoing := s.undoing.erase sub
      pendingFrames := Function.update s.pendingFrames sub.buf.index none
      freeInputSlots := s.freeInputSlots ++ [sub.buf.index] }, some false)
  else none

/-! ### The driver -/

/-- The driver has read a frame; in any order. -/
def finish (sub : Submission) (s : H264Encoder φ) : Option (H264Encoder φ) :=
  if sub ∈ s.inputQueued then
    some { s with
      inputQueued := s.inputQueued.erase sub
      inputDone := s.inputDone ++ [sub] }
  else none

/-- The driver has written an encoded buffer. -/
def fill (buf : EncodedBuffer) (s : H264Encoder φ) : Option (H264Encoder φ) :=
  if buf.index ∈ s.captureQueued then
    some { s with
      captureQueued := s.captureQueued.erase buf.index
      captureDone := s.captureDone ++ [buf] }
  else none

/-! ### The threads -/

/-- `abort_poll_ && free_input_slots_.size() == NUM_OUTPUT_BUFFERS`. -/
def drained (s : H264Encoder φ) : Bool :=
  s.abortPoll && s.freeInputSlots.length = numOutputBuffers

/-- The item for an encoded buffer. -/
def item (s : H264Encoder φ) (buf : EncodedBuffer) : H264OutputItem where
  mem := s.captureMem buf.index
  bytesUsed := buf.bytesused
  length := buf.length
  index := buf.index
  keyframe := buf.keyframe
  timestampUs := buf.tvSec * 1000000 + buf.tvUsec

/-- A step of `poll_thread_fn()`. -/
def pollStep (answer : PollAnswer) (s : H264Encoder φ) : Option (H264Encoder φ) :=
  match s.pollThread, answer with
  | .poll, .polled ret => some { s with pollThread := .check ret }
  | .check ret, .none =>
      if s.drained then some { s with pollThread := .exited }
      else
        match ret with
        | .interrupted => some { s with pollThread := .poll }
        | .error => some { s with pollThread := .exited }
        | .quiet => some { s with pollThread := .poll }
        | .ready => some { s with pollThread := .dqOutput }
  | .dqOutput, .output none => some { s with pollThread := .dqCapture }
  | .dqOutput, .output (some sub) =>
      if sub ∈ s.inputDone then
        some { s with
          inputDone := s.inputDone.erase sub
          pollThread := .takeBack sub }
      else none
  | .takeBack sub, .none =>
      some { s with
        pollThread := .inputDone (s.pendingFrames sub.buf.index)
        pendingFrames := Function.update s.pendingFrames sub.buf.index none
        freeInputSlots := s.freeInputSlots ++ [sub.buf.index] }
  -- `input_done_cb_(std::move(done_frame))`, or the reset
  | .inputDone frame, .none => some { s.drop frame with pollThread := .dqCapture }
  | .dqCapture, .capture none => some { s with pollThread := .poll }
  | .dqCapture, .capture (some buf) =>
      if buf ∈ s.captureDone then
        some { s with
          captureDone := s.captureDone.erase buf
          dequeued := s.dequeued ++ [s.item buf]
          pollThread := .push (s.item buf) }
      else none
  | .push item, .none =>
      some { s with
        outputQueue := s.outputQueue ++ [item]
        pollThread := .poll }
  | _, _ => none

/-- A step of `output_thread_fn()`; `ok` is the answer to `VIDIOC_QBUF`. -/
def outputStep (ok : Bool) (s : H264Encoder φ) : Option (H264Encoder φ) :=
  match s.outputThread with
  | .wait =>
      match s.outputQueue with
      | [] => some (if s.abortOutput then { s with outputThread := .exited } else s)
      | item :: rest =>
          some { s with
            outputQueue := rest
            outputThread := .deliver item }
  | .deliver item =>
      some { s with
        delivered := if s.outputReadyCb then s.delivered ++ [item] else s.delivered
        outputThread := .requeue item }
  | .requeue item =>
      some { s with
        captureQueued := if ok then s.captureQueued ++ [item.index] else s.captureQueued
        outputThread := .wait }
  | .exited => none

/-- A step of the destructor. -/
def destroyStep (s : H264Encoder φ) : Option (H264Encoder φ) :=
  match s.destroy with
  | .alive =>
      some { s with
        abortPoll := true
        destroy := .joinPoll }
  | .joinPoll =>
      if s.pollThread.hasExited then some { s with destroy := .setAbortOutput } else none
  | .setAbortOutput =>
      some { s with
        abortOutput := true
        destroy := .joinOutput }
  | .joinOutput => if s.outputThread = .exited then some { s with destroy := .joined } else none
  | .joined => none

/-! ### What a step can do -/

/-- The steps of the poll thread that only move it on, where `drained` is the drain condition. -/
inductive PollNext (drained : Bool) : PollPc φ → PollPc φ → Prop where
  | polled (ret : PollResult) : PollNext drained .poll (.check ret)
  | leave (ret : PollResult) (h : drained = true ∨ ret = .error) :
      PollNext drained (.check ret) .exited
  | again (ret : PollResult) (h : drained = false) : PollNext drained (.check ret) .poll
  | ready (h : drained = false) : PollNext drained (.check .ready) .dqOutput
  | noOutput : PollNext drained .dqOutput .dqCapture
  | noCapture : PollNext drained .dqCapture .poll

variable {s s' : H264Encoder φ}

/-- The steps of the poll thread: it moves on, dequeues a slot, takes it back, hands over its frame,
dequeues an encoded buffer, or queues it for the output thread. -/
lemma pollStep_cases {answer : PollAnswer} (h : s.pollStep answer = some s') :
    (∃ pc, PollNext s.drained s.pollThread pc ∧ s' = { s with pollThread := pc }) ∨
    (∃ sub ∈ s.inputDone, s.pollThread = .dqOutput ∧
      s' = { s with
        inputDone := s.inputDone.erase sub
        pollThread := .takeBack sub }) ∨
    (∃ sub, s.pollThread = .takeBack sub ∧
      s' = { s with
        pollThread := .inputDone (s.pendingFrames sub.buf.index)
        pendingFrames := Function.update s.pendingFrames sub.buf.index none
        freeInputSlots := s.freeInputSlots ++ [sub.buf.index] }) ∨
    (∃ frame, s.pollThread = .inputDone frame ∧
      s' = { s.drop frame with pollThread := .dqCapture }) ∨
    (∃ buf ∈ s.captureDone, s.pollThread = .dqCapture ∧
      s' = { s with
        captureDone := s.captureDone.erase buf
        dequeued := s.dequeued ++ [s.item buf]
        pollThread := .push (s.item buf) }) ∨
    ∃ item, s.pollThread = .push item ∧
      s' = { s with
        outputQueue := s.outputQueue ++ [item]
        pollThread := .poll } := by
  simp only [pollStep] at h
  split at h
  · next ret hpc =>
    cases h
    exact .inl ⟨_, hpc ▸ .polled ret, rfl⟩
  · next ret hpc =>
    left
    split_ifs at h with hdrained
    · cases h
      exact ⟨_, hpc ▸ .leave ret (.inl hdrained), rfl⟩
    · rw [Bool.not_eq_true] at hdrained
      cases ret <;> cases h
      · exact ⟨_, hpc ▸ .ready hdrained, rfl⟩
      · exact ⟨_, hpc ▸ .again .quiet hdrained, rfl⟩
      · exact ⟨_, hpc ▸ .again .interrupted hdrained, rfl⟩
      · exact ⟨_, hpc ▸ .leave .error (.inr rfl), rfl⟩
  · next hpc =>
    cases h
    exact .inl ⟨_, hpc ▸ .noOutput, rfl⟩
  · next sub hpc =>
    split_ifs at h with hmem
    cases h
    exact .inr (.inl ⟨sub, hmem, hpc, rfl⟩)
  · next sub hpc =>
    cases h
    exact .inr (.inr (.inl ⟨sub, hpc, rfl⟩))
  · next frame hpc =>
    cases h
    exact .inr (.inr (.inr (.inl ⟨frame, hpc, rfl⟩)))
  · next hpc =>
    cases h
    exact .inl ⟨_, hpc ▸ .noCapture, rfl⟩
  · next buf hpc =>
    split_ifs at h with hmem
    cases h
    exact .inr (.inr (.inr (.inr (.inl ⟨buf, hmem, hpc, rfl⟩))))
  · next item hpc =>
    cases h
    exact .inr (.inr (.inr (.inr (.inr ⟨item, hpc, rfl⟩))))
  · cases h

/-- The driver writes to a buffer that it has. -/
lemma fill_cases {buf : EncodedBuffer} (h : s.fill buf = some s') : buf.index ∈ s.captureQueued ∧
    s' = { s with
      captureQueued := s.captureQueued.erase buf.index
      captureDone := s.captureDone ++ [buf] } := by
  rw [fill] at h
  split_ifs at h with hmem
  cases h
  exact ⟨hmem, rfl⟩

/-- The steps of the output thread: it waits, returns, takes the next item, delivers it, or queues
its buffer again. -/
lemma outputStep_cases {ok : Bool} (h : s.outputStep ok = some s') :
    (s.outputThread = .wait ∧ s.outputQueue = [] ∧ s' = s) ∨
    (s.outputThread = .wait ∧ s.outputQueue = [] ∧ s.abortOutput = true ∧
      s' = { s with outputThread := .exited }) ∨
    (∃ item rest, s.outputThread = .wait ∧ s.outputQueue = item :: rest ∧
      s' = { s with
        outputQueue := rest
        outputThread := .deliver item }) ∨
    (∃ item, s.outputThread = .deliver item ∧
      s' = { s with
        delivered := if s.outputReadyCb then s.delivered ++ [item] else s.delivered
        outputThread := .requeue item }) ∨
    ∃ item, s.outputThread = .requeue item ∧
      s' = { s with
        captureQueued := if ok then s.captureQueued ++ [item.index] else s.captureQueued
        outputThread := .wait } := by
  rw [outputStep] at h
  cases hpc : s.outputThread with
  | wait =>
      rw [hpc] at h
      cases hqueue : s.outputQueue with
      | nil =>
          simp only [hqueue] at h
          split_ifs at h with habort <;> cases h
          · exact .inr (.inl ⟨rfl, rfl, habort, rfl⟩)
          · exact .inl ⟨rfl, rfl, rfl⟩
      | cons item rest =>
          simp only [hqueue] at h
          cases h
          exact .inr (.inr (.inl ⟨item, rest, rfl, rfl, rfl⟩))
  | deliver item =>
      rw [hpc] at h
      cases h
      exact .inr (.inr (.inr (.inl ⟨item, rfl, rfl⟩)))
  | requeue item =>
      rw [hpc] at h
      cases h
      exact .inr (.inr (.inr (.inr ⟨item, rfl, rfl⟩)))
  | exited =>
      rw [hpc] at h
      cases h

/-- The steps of the destructor: it sets a flag, or a thread that it joins has returned. -/
lemma destroyStep_cases (h : s.destroyStep = some s') :
    (s.destroy = .alive ∧ s' = { s with
      abortPoll := true
      destroy := .joinPoll }) ∨
    (s.destroy = .joinPoll ∧ s.pollThread.hasExited = true ∧
      s' = { s with destroy := .setAbortOutput }) ∨
    (s.destroy = .setAbortOutput ∧ s' = { s with
      abortOutput := true
      destroy := .joinOutput }) ∨
    (s.destroy = .joinOutput ∧ s.outputThread = .exited ∧ s' = { s with destroy := .joined }) := by
  rw [destroyStep] at h
  cases hpc : s.destroy with
  | alive =>
      rw [hpc] at h
      cases h
      exact .inl ⟨rfl, rfl⟩
  | joinPoll =>
      simp only [hpc] at h
      split_ifs at h with hexited
      cases h
      exact .inr (.inl ⟨rfl, hexited, rfl⟩)
  | setAbortOutput =>
      rw [hpc] at h
      cases h
      exact .inr (.inr (.inl ⟨rfl, rfl⟩))
  | joinOutput =>
      simp only [hpc] at h
      split_ifs at h with hexited
      cases h
      exact .inr (.inr (.inr ⟨rfl, hexited, rfl⟩))
  | joined =>
      rw [hpc] at h
      cases h

end H264Encoder

/-- A `H264HardwareEncoder` with `c` slots and `m` capture buffers, any callers of `encode`, and the
driver. -/
def h264 (φ : Type*) (c m : ℕ) (mem : ℕ → ℕ) : System (H264Encoder φ) (H264Encoder.Step φ) where
  init s := s = .new φ c m mem
  step s
    | .take frame dmaFd size timestampUs => some (s.take frame dmaFd size timestampUs).1
    | .qbuf sub ok => (s.qbuf sub ok).map (·.1)
    | .undo sub => (s.undo sub).map (·.1)
    | .finish sub => s.finish sub
    | .fill buf => s.fill buf
    | .pollThread answer => s.pollStep answer
    | .outputThread ok => s.outputStep ok
    | .destroy => s.destroyStep

namespace H264Encoder

/-- The step is one of a caller of `encode`, or the driver's with its frame. -/
def Step.ofInput {φ : Type*} : Step φ → Bool
  | .take _ _ _ _ => true
  | .qbuf _ _ => true
  | .undo _ => true
  | .finish _ => true
  | _ => false

/-- The steps on the way of a frame to the driver leave the threads and the encoded buffers
alone. -/
lemma inputStep_cases {φ : Type*} {c m : ℕ} {mem : ℕ → ℕ} {s s' : H264Encoder φ} {e : Step φ}
    (he : e.ofInput = true) (h : (h264 φ c m mem).step s e = some s') :
    ∃ slots pending submitting undoing queued done calls dropped,
      s' = { s with
        freeInputSlots := slots
        pendingFrames := pending
        submitting := submitting
        undoing := undoing
        inputQueued := queued
        inputDone := done
        calls := calls
        dropped := dropped } := by
  cases e with
  | take frame dmaFd size timestampUs =>
      cases h
      rw [take]
      split
      · exact ⟨_, _, _, _, _, _, _, _, rfl⟩
      · exact ⟨_, _, _, _, _, _, _, _, rfl⟩
  | qbuf sub ok =>
      obtain ⟨r, hr, rfl⟩ := Option.map_eq_some_iff.mp h
      rw [qbuf] at hr
      split_ifs at hr <;> cases hr <;> exact ⟨_, _, _, _, _, _, _, _, rfl⟩
  | undo sub =>
      obtain ⟨r, hr, rfl⟩ := Option.map_eq_some_iff.mp h
      rw [undo] at hr
      split_ifs at hr
      cases hr
      exact ⟨_, _, _, _, _, _, _, _, rfl⟩
  | finish sub =>
      have hf : s.finish sub = some s' := h
      rw [finish] at hf
      split_ifs at hf
      cases hf
      exact ⟨_, _, _, _, _, _, _, _, rfl⟩
  | _ => cases he

end H264Encoder

end RasPiZeroCam
