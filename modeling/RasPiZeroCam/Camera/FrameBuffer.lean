import RasPiZeroCam.Camera.Resolution

/-!
Frames, and the queues that hand them on: a `Frame` is a view of a camera buffer, a `FramePtr` the
identity of a frame, and a `FrameQueue` the frames that have been pushed and not popped.
-/

namespace RasPiZeroCam

/-- `StreamType`. -/
inductive StreamType where
  | video
  | still
  deriving DecidableEq, Repr

/-- `PixelFormat`. -/
inductive PixelFormat where
  | yuyv
  | nv12
  | rgb888
  | mjpeg
  deriving DecidableEq, Repr

/-- `FramePtr`, known by the `Frame` it points to. -/
abbrev FramePtr := ℕ

/-- A `Frame` object; its `release` closure is known by what it captured. -/
structure Frame (ρ : Type*) where
  id : FramePtr
  data : ℕ
  dataSize : ℕ
  width : UInt32
  height : UInt32
  stride : UInt32
  format : PixelFormat
  sequence : ℕ
  timestamp : ℕ
  streamType : StreamType
  dmaFd : ℤ
  release : ρ
  deriving DecidableEq

/-- A `FrameQueue`: what has been pushed and not popped, oldest first. -/
abbrev FrameQueue := List FramePtr

namespace FrameQueue

/-- `push` on a queue of capacity `n`: it fails when the queue is full. -/
def push (n : ℕ) (frame : FramePtr) (q : FrameQueue) : Option FrameQueue :=
  if q.length = n then none else some (q ++ [frame])

/-- `pop`: null when the queue is empty. -/
def pop : FrameQueue → Option (FramePtr × FrameQueue)
  | [] => none
  | frame :: q => some (frame, q)

lemma eq_of_push {n : ℕ} {frame : FramePtr} {q q' : FrameQueue} (h : q.push n frame = some q') :
    q' = q ++ [frame] := by
  rw [push] at h
  split_ifs at h
  exact (Option.some.inj h).symm

lemma eq_of_pop {frame : FramePtr} {q q' : FrameQueue} (h : q.pop = some (frame, q')) :
    q = frame :: q' := by
  cases q with
  | nil => cases h
  | cons f q =>
      cases h
      rfl

end FrameQueue

/-- `CameraFrameQueue::capacity()`. -/
def cameraFrameQueueCapacity : ℕ := 8

/-- `StillFrameQueue::capacity()`. -/
def stillFrameQueueCapacity : ℕ := 2

end RasPiZeroCam
