import RasPiZeroCam.Camera.FrameBuffer
import RasPiZeroCam.Transition.System

/-!
`CameraManager`: its threads, the camera they queue requests to, and the frames they share.

* `Manager`: the members, the requests the camera has, the live frames, and where every thread is:
  the main thread, libcamera's thread, and the holders of frames.
* `Manager.mainStep`: `open` with its failure branches, `start_streaming`, and `close`;
  `set_resolution` is `close`, then `open`.
* `Manager.handlerStep`: `on_request_completed`, with the destructor of the frame that a full queue
  drops.
* `Manager.drop`: a `shared_ptr` goes, and with the last one the frame; its `release` is a
  `requeue_request` of the thread that dropped it.
-/

namespace RasPiZeroCam

open Transition

/-- A buffer of the allocator. -/
structure FrameBuffer where
  id : ℕ
  fd : ℤ                      -- `planes()[0].fd`
  planes : List ℕ             -- the lengths of the planes
  deriving DecidableEq

/-- A `libcamera::Request`, known by the one buffer it wraps. -/
structure Request where
  buffer : FrameBuffer
  deriving DecidableEq

/-- `MappedBuffer`. -/
structure MappedBuffer where
  ptr : ℕ
  length : ℕ
  deriving DecidableEq

/-- A call of `on_request_completed`, and what the request carries. -/
structure Completion where
  number : ℕ                  -- calls before this one
  request : Request
  cancelled : Bool
  sequence : ℕ
  timestamp : ℕ
  deriving DecidableEq

/-- A request on its way back to the camera, and the completion it came from. -/
structure Return where
  completion : ℕ
  request : Request
  deriving DecidableEq

/-- Where the main thread is. -/
inductive MainPc where
  | closed
  | queueing (todo : List Request)  -- the loop of `start_streaming`
  | setRunning                      -- `running_ = true`
  | opened
  | stop                            -- `running_` is false; `camera_->stop()`
  | stopping                        -- which blocks until every request has come back
  deriving DecidableEq

/-- Where libcamera's thread is: in `on_request_completed`. -/
inductive HandlerPc where
  | idle
  | status (c : Completion)         -- `request->status() == RequestCancelled`
  | lookup (c : Completion)         -- `mapped_.find(buf)`, and the new frame
  | snapshot (frame : FramePtr) (r : Request)    -- `snapshot_armed_.exchange(false)`
  | tag (frame : FramePtr) (r : Request)         -- `still->stream_type = StreamType::Still`
  | pushStill (frame : FramePtr) (r : Request)   -- `still_queue_.push(still)`
  | pushVideo (frame : FramePtr) (r : Request)   -- `queue_.push(frame)`
  | requeue (again : Bool) (r : Return)          -- `requeue_request`: `if (!running_)`
  | queueRequest (again : Bool) (r : Return)     -- and `camera_->queueRequest(request)`
  deriving DecidableEq

/-- A `CameraManager` and its surroundings. -/
structure Manager where
  running : Bool
  resolution : Resolution
  stride : UInt32
  mapped : List (FrameBuffer × MappedBuffer)
  requests : List Request
  snapshotArmed : Bool
  queue : FrameQueue
  stillQueue : FrameQueue
  streaming : Bool            -- between `camera_->start()` and `camera_->stop()`
  queued : List Request       -- the requests the camera has
  frames : List (Frame Request)  -- the live frames
  main : MainPc
  handler : HandlerPc
  held : List FramePtr        -- the pointers that have been popped, and their copies
  releases : List Return      -- the holders' calls of `requeue_request`, before the test
  requeues : List Return      -- and past it
  arming : ℕ                  -- the calls of `request_snapshot` past their test
  -- the books
  allocated : ℕ               -- buffers allocated so far
  completions : ℕ             -- completions so far
  requeued : List ℕ           -- the completions whose request `requeue_request` queued
  cancelled : List Request    -- the requests whose completion was a cancellation
  granted : ℕ                 -- the calls of `request_snapshot` that returned true
  placed : ℕ                  -- the frames `still_queue_` took

/-- What the calls under `open` return for a buffer. -/
structure BufferOutcome where
  fd : ℤ
  planes : List ℕ
  mmap : Option ℕ             -- the address, unless it failed
  createRequest : Bool
  addBuffer : Bool

/-- What the calls under `open` return. -/
structure OpenOutcome where
  initCameraManager : Bool
  acquireCamera : Bool
  configureStream : Option UInt32  -- the stride, unless it failed
  allocate : Bool
  buffers : List BufferOutcome
  start : Bool                -- of `camera_->start()`, which `open` does not look at

namespace Manager

/-- A step of a thread. -/
inductive Step where
  | main (res : Resolution) (o : OpenOutcome)
  | complete (r : Request) (cancelled : Bool) (sequence timestamp : ℕ)
  | handler
  | popVideo
  | popStill
  | copy (frame : FramePtr)
  | drop (frame : FramePtr)
  | release (r : Return)
  | requeue (r : Return)
  | requestSnapshot
  | arm

/-- `CameraManager(queue)`. -/
def new : Manager where
  running := false
  resolution := .medium
  stride := 0
  mapped := []
  requests := []
  snapshotArmed := false
  queue := []
  stillQueue := []
  streaming := false
  queued := []
  frames := []
  main := .closed
  handler := .idle
  held := []
  releases := []
  requeues := []
  arming := 0
  allocated := 0
  completions := 0
  requeued := []
  cancelled := []
  granted := 0
  placed := 0

/-! ### The main thread -/

/-- The buffers of the allocator, the first of them numbered `n`. -/
def allocatorBuffers (n : ℕ) (buffers : List BufferOutcome) :
    List (FrameBuffer × BufferOutcome) :=
  (buffers.zipIdx n).map fun b => (⟨b.2, b.1.fd, b.1.planes⟩, b.1)

/-- The loop of `allocate_and_map_buffers`: `none` when an `mmap` fails. -/
def mapBuffers : List (FrameBuffer × BufferOutcome) → Option (List (FrameBuffer × MappedBuffer))
  | [] => some []
  | (buffer, o) :: rest =>
      match o.mmap with
      | none => none
      | some ptr => (mapBuffers rest).map ((buffer, ⟨ptr, buffer.planes.sum⟩) :: ·)

/-- The loop of `create_requests`: the requests made before a call failed, and whether none did. -/
def createRequests : List (FrameBuffer × BufferOutcome) → List Request × Bool
  | [] => ([], true)
  | (buffer, o) :: rest =>
      if o.createRequest && o.addBuffer then
        let (requests, ok) := createRequests rest
        (⟨buffer⟩ :: requests, ok)
      else ([], false)

/-- `open(res)` up to `start_streaming`.  When it fails, what it has set stays set, but for the
buffers it mapped. -/
def openCamera (res : Resolution) (o : OpenOutcome) (s : Manager) : Manager :=
  let s := { s with resolution := res }
  if !o.initCameraManager || !o.acquireCamera then s
  else
    match o.configureStream with
    | none => s
    | some stride =>
        let s := { s with stride := stride }
        if !o.allocate then s
        else
          let buffers := allocatorBuffers s.allocated o.buffers
          let s := { s with allocated := s.allocated + o.buffers.length }
          match mapBuffers buffers with
          | none => s
          | some mapped =>
              let (requests, ok) := createRequests buffers
              let s := { s with requests := s.requests ++ requests }
              if !ok then s
              else
                { s with
                  mapped := mapped
                  streaming := o.start
                  main := .queueing s.requests }

/-- `camera_->queueRequest(request)`, which the camera refuses unless it is started. -/
def queueRequest (r : Request) (s : Manager) : Manager :=
  { s with queued := if s.streaming then s.queued ++ [r] else s.queued }

/-- A step of the main thread: in `open`, or in `close`. -/
def mainStep (res : Resolution) (o : OpenOutcome) (s : Manager) : Option Manager :=
  match s.main with
  | .closed => some (s.openCamera res o)
  | .queueing [] => some { s with main := .setRunning }
  | .queueing (r :: todo) => some { s.queueRequest r with main := .queueing todo }
  | .setRunning =>
      some { s with
        running := true
        main := .opened }
  | .opened =>
      some { s with
        running := false
        main := .stop }
  | .stop =>
      some { s with
        streaming := false
        main := .stopping }
  | .stopping =>
      if s.queued = [] ∧ s.handler = .idle then
        some { s with
          requests := []
          mapped := []
          main := .closed }
      else none

/-! ### Frames -/

/-- The local `frame` of `on_request_completed`. -/
def handlerHolds (s : Manager) (frame : FramePtr) : Bool :=
  match s.handler with
  | .snapshot f _ => f = frame
  | .tag f _ => f = frame
  | .pushStill f _ => f = frame
  | .pushVideo f _ => f = frame
  | _ => false

/-- Some `shared_ptr` points to the frame. -/
def referenced (s : Manager) (frame : FramePtr) : Bool :=
  frame ∈ s.queue || frame ∈ s.stillQueue || frame ∈ s.held || s.handlerHolds frame

/-- The object a pointer points to. -/
def frame? (s : Manager) (frame : FramePtr) : Option (Frame Request) :=
  s.frames.find? fun f => f.id = frame

/-- `~Frame`, up to its call of `release`. -/
def destroyFrame (f : Frame Request) (s : Manager) : Manager :=
  { s with frames := s.frames.erase f }

/-- A holder drops a pointer, and with the last one the frame. -/
def drop (frame : FramePtr) (s : Manager) : Option Manager :=
  if frame ∈ s.held then
    let s := { s with held := s.held.erase frame }
    if s.referenced frame then some s
    else (s.frame? frame).map fun f =>
      { s.destroyFrame f with releases := ⟨frame, f.release⟩ :: s.releases }
  else none

/-- A holder calls `requeue_request`: the test of `running_`. -/
def release (r : Return) (s : Manager) : Option Manager :=
  if r ∈ s.releases then
    some { s with
      releases := s.releases.erase r
      requeues := if s.running then r :: s.requeues else s.requeues }
  else none

/-- `camera_->queueRequest` in `requeue_request`. -/
def giveBack (r : Return) (s : Manager) : Manager :=
  { s.queueRequest r.request with requeued := r.completion :: s.requeued }

/-- A holder is past the test. -/
def requeue (r : Return) (s : Manager) : Option Manager :=
  if r ∈ s.requeues then some ({ s with requeues := s.requeues.erase r }.giveBack r) else none

/-! ### libcamera's thread -/

/-- The camera completes a request. -/
def complete (r : Request) (cancelled : Bool) (sequence timestamp : ℕ) (s : Manager) :
    Option Manager :=
  if r ∈ s.queued ∧ s.handler = .idle then
    some { s with
      queued := s.queued.erase r
      completions := s.completions + 1
      handler := .status ⟨s.completions, r, cancelled, sequence, timestamp⟩ }
  else none

/-- The frame of a completion. -/
def newFrame (c : Completion) (mb : MappedBuffer) (s : Manager) : Frame Request where
  id := c.number
  data := mb.ptr
  dataSize := mb.length
  width := (configOf s.resolution).width
  height := (configOf s.resolution).height
  stride := s.stride
  format := .nv12
  sequence := c.sequence
  timestamp := c.timestamp
  streamType := .video
  dmaFd := c.request.buffer.fd
  release := c.request

/-- `still->stream_type = StreamType::Still`, through any pointer to the frame. -/
def tagStill (frame : FramePtr) (f : Frame Request) : Frame Request :=
  if f.id = frame then { f with streamType := .still } else f

/-- A step of `on_request_completed`. -/
def handlerStep (s : Manager) : Option Manager :=
  match s.handler with
  | .idle => none
  | .status c =>
      if c.cancelled then
        some { s with
          cancelled := c.request :: s.cancelled
          handler := .idle }
      else some { s with handler := .lookup c }
  | .lookup c =>
      match s.mapped.lookup c.request.buffer with
      | none => some { s with handler := .requeue false ⟨c.number, c.request⟩ }
      | some mb =>
          some { s with
            frames := s.newFrame c mb :: s.frames
            handler := .snapshot c.number c.request }
  | .snapshot frame r =>
      if s.snapshotArmed then
        some { s with
          snapshotArmed := false
          handler := .tag frame r }
      else some { s with handler := .pushVideo frame r }
  | .tag frame r =>
      some { s with
        frames := s.frames.map (tagStill frame)
        handler := .pushStill frame r }
  | .pushStill frame r =>
      match s.stillQueue.push stillFrameQueueCapacity frame with
      | some q =>
          some { s with
            stillQueue := q
            placed := s.placed + 1
            handler := .pushVideo frame r }
      -- the copy goes; `frame` still points to the object
      | none => some { s with handler := .pushVideo frame r }
  | .pushVideo frame r =>
      match s.queue.push cameraFrameQueueCapacity frame with
      | some q =>
          some { s with
            queue := q
            handler := .idle }
      | none =>
          -- the parameter of `push` goes, and with it the frame if nobody else points to it; the
          -- request is requeued after that
          let back : Return := ⟨frame, r⟩
          let s := { s with handler := .requeue false back }
          if s.referenced frame then some s
          else (s.frame? frame).map fun f =>
            { s.destroyFrame f with handler := .requeue true ⟨frame, f.release⟩ }
  | .requeue again r =>
      if s.running then some { s with handler := .queueRequest again r }
      else some { s with handler := if again then .requeue false r else .idle }
  | .queueRequest again r =>
      some { s.giveBack r with handler := if again then .requeue false r else .idle }

/-! ### The system -/

/-- A step of any thread. -/
def step (s : Manager) : Step → Option Manager
  | .main res o => s.mainStep res o
  | .complete r cancelled sequence timestamp => s.complete r cancelled sequence timestamp
  | .handler => s.handlerStep
  | .popVideo => s.queue.pop.map fun (frame, q) =>
      { s with
        queue := q
        held := frame :: s.held }
  | .popStill => s.stillQueue.pop.map fun (frame, q) =>
      { s with
        stillQueue := q
        held := frame :: s.held }
  | .copy frame => if frame ∈ s.held then some { s with held := frame :: s.held } else none
  | .drop frame => s.drop frame
  | .release r => s.release r
  | .requeue r => s.requeue r
  | .requestSnapshot => some (if s.running then { s with arming := s.arming + 1 } else s)
  | .arm =>
      -- `compare_exchange_strong(expected, true)`
      if s.arming = 0 then none
      else
        let s := { s with arming := s.arming - 1 }
        some (if s.snapshotArmed then s
          else { s with
            snapshotArmed := true
            granted := s.granted + 1 })

end Manager

/-- The threads of a `CameraManager`. -/
def capture : System Manager Manager.Step where
  init s := s = .new
  step := Manager.step

end RasPiZeroCam
