import RasPiZeroCam.Camera.FrameBuffer
import RasPiZeroCam.Record.Slots
import RasPiZeroCam.Stream.JpegHw

/-!
The numbers of buffers that the driver grants the two hardware encoders: `VIDIOC_REQBUFS` may return
another number than it was asked for, and the pools are filled with what it returned.

* `H264Encoder.pendingUses`, `H264Encoder.captureUses`: the indices at which a step looks into
  `pending_frames_` and `capture_bufs_`.
* `H264Fits`, `JpegFits`: the grants for which every index is below the length of its array.
  `h264Fits_iff`, `jpegFits_iff`: they are those that are not above the lengths.
* `H264Encoder.Returned`: `abort_poll_` is set, and no input slot is out with a caller or the
  driver.  `H264Stops`: the poll thread then finds the drain condition at its next check, and
  returns.
* `served_iff`: both hold exactly when the slots of the H.264 encoder are as many as it asked for,
  and no other pool is larger than asked.
* `not_drained_of_lt`: with fewer slots the drain condition never holds.
-/

namespace RasPiZeroCam

open Transition

/-- The capture buffer that the poll thread is about to hand on. -/
def PollPc.capture {φ : Type*} : PollPc φ → List ℕ
  | .push item => [item.index]
  | _ => []

/-- The capture buffer that the output thread has. -/
def H264OutputPc.capture : H264OutputPc → List ℕ
  | .deliver item => [item.index]
  | .requeue item => [item.index]
  | _ => []

/-- How many steps the poll thread is from its check of the drain condition, if `DQBUF` gives it no
input slot on the way. -/
def PollPc.toCheck {φ : Type*} : PollPc φ → ℕ
  | .check _ => 0
  | .poll => 1
  | .push _ => 2
  | .dqCapture => 3
  | .dqOutput => 4
  | .inputDone _ => 4
  | .takeBack _ => 5
  | .exited => 0

namespace H264Encoder

variable {φ : Type*}

/-- The indices at which a step looks into `pending_frames_`. -/
def pendingUses (s : H264Encoder φ) : Step φ → List ℕ
  | .take _ _ _ _ => s.freeInputSlots.take 1
  | .undo sub => [sub.buf.index]
  | .pollThread _ => s.pollThread.sub.map (·.buf.index)
  | _ => []

/-- The indices at which a step looks into `capture_bufs_`. -/
def captureUses (_ : H264Encoder φ) : Step φ → List ℕ
  | .pollThread (.capture (some buf)) => [buf.index]
  | _ => []

/-- The destructor has set `abort_poll_`, no call of `encode` is in progress, and the driver has
returned every input slot. -/
structure Returned (s : H264Encoder φ) : Prop where
  abort : s.abortPoll = true
  submitting : s.submitting = []
  undoing : s.undoing = []
  queued : s.inputQueued = []
  done : s.inputDone = []

/-- The step is not a call of `encode`. -/
def Step.notTake : Step φ → Bool
  | .take _ _ _ _ => false
  | _ => true

/-- The step is one of the poll thread. -/
def Step.ofPoll : Step φ → Bool
  | .pollThread _ => true
  | _ => false

end H264Encoder

open H264Encoder

/-- With `c` input slots and `m` capture buffers, the H.264 encoder stays inside its arrays: in the
loops of the constructor and the destructor over the capture buffers, and in every step. -/
structure H264Fits (φ : Type*) (c m : ℕ) : Prop where
  loops : ∀ i ∈ List.range m, i < numCaptureBuffers
  pending : ∀ mem s e s', (h264 φ c m mem).Reach (fun _ _ => True) s →
    (h264 φ c m mem).step s e = some s' → ∀ i ∈ s.pendingUses e, i < numOutputBuffers
  capture : ∀ mem s e s', (h264 φ c m mem).Reach (fun _ _ => True) s →
    (h264 φ c m mem).step s e = some s' → ∀ i ∈ s.captureUses e, i < numCaptureBuffers

/-- With `c` input slots and `m` capture buffers, the JPEG encoder stays inside its arrays: in the
two loops of the constructor, and in every step. -/
structure JpegFits (c m : ℕ) : Prop where
  outputLoop : ∀ i ∈ List.range c, i < jpegOutputBuffers
  captureLoop : ∀ i ∈ List.range m, i < jpegCaptureBuffers
  output : ∀ s e s', (jpegHw c m).Reach (fun _ _ => True) s → (jpegHw c m).step s e = some s' →
    ∀ i ∈ s.outputUses e, i < jpegOutputBuffers
  capture : ∀ s e s', (jpegHw c m).Reach (fun _ _ => True) s → (jpegHw c m).step s e = some s' →
    ∀ i ∈ s.captureUses e, i < jpegCaptureBuffers

/-- Once everything has been returned, the poll thread finds the drain condition at its next check:
it is never without a step, and returns after a bounded number of them, whatever else goes on. -/
structure H264Stops (φ : Type*) (c m : ℕ) : Prop where
  check : ∀ mem s ret, (h264 φ c m mem).Reach (fun _ _ => True) s → s.Returned →
    s.pollThread = .check ret → s.drained = true
  step : ∀ mem s, (h264 φ c m mem).Reach (fun _ _ => True) s → s.pollThread.hasExited = false →
    ∃ answer, (s.pollStep answer).isSome
  exits : ∀ mem s s' (es : List (Step φ)), (h264 φ c m mem).Reach (fun _ _ => True) s →
    s.Returned → (h264 φ c m mem).exec (fun _ e => e.notTake) s es = some s' →
    s.pollThread.toCheck < (es.filter (·.ofPoll)).length → s'.pollThread.hasExited = true

/-- What `VIDIOC_REQBUFS` returned to the two encoders. -/
structure Grants where
  h264Output : ℕ
  h264Capture : ℕ
  jpegOutput : ℕ
  jpegCapture : ℕ

/-- The encoders work with what they were granted. -/
structure Served (φ : Type*) (g : Grants) : Prop where
  h264 : H264Fits φ g.h264Output g.h264Capture
  jpeg : JpegFits g.jpegOutput g.jpegCapture
  stops : H264Stops φ g.h264Output g.h264Capture

namespace H264Encoder

variable {φ : Type*} {c m : ℕ} {mem : ℕ → ℕ} {s s' : H264Encoder φ}

/-! ### The capture buffers -/

/-- The capture buffers, wherever they are; one whose `QBUF` failed is in no queue. -/
def captures (s : H264Encoder φ) : List ℕ :=
  s.captureQueued ++ (s.captureDone.map (·.index) ++ (s.pollThread.capture ++
    (s.outputQueue.map (·.index) ++ s.outputThread.capture)))

/-- In how many places a capture buffer is. -/
lemma count_captures (s : H264Encoder φ) (i : ℕ) : s.captures.count i =
    s.captureQueued.count i + ((s.captureDone.map (·.index)).count i +
      (s.pollThread.capture.count i + ((s.outputQueue.map (·.index)).count i +
        s.outputThread.capture.count i))) := by
  simp only [captures, List.count_append]

lemma captures_fill {buf : EncodedBuffer} (hf : s.fill buf = some s') (i : ℕ) :
    s'.captures.count i ≤ s.captures.count i := by
  obtain ⟨hmem, rfl⟩ := fill_cases hf
  have hqueued := (List.perm_cons_erase hmem).count_eq i
  rw [List.count_cons] at hqueued
  simp only [count_captures, List.map_append, List.map_singleton, List.count_append,
    List.count_singleton]
  omega

lemma PollNext.capture {drained : Bool} {p q : PollPc φ} (h : PollNext drained p q) :
    q.capture = [] := by
  cases h <;> rfl

lemma captures_pollStep {answer : PollAnswer} (hp : s.pollStep answer = some s') (i : ℕ) :
    s'.captures.count i ≤ s.captures.count i := by
  obtain ⟨pc, hnext, rfl⟩ | ⟨sub, -, -, rfl⟩ | ⟨sub, -, rfl⟩ | ⟨frame, -, rfl⟩ |
    ⟨buf, hmem, -, rfl⟩ | ⟨item, hpc, rfl⟩ := pollStep_cases hp
  case inr.inr.inr.inr.inl =>
    have hdone := ((List.perm_cons_erase hmem).map (·.index)).count_eq i
    rw [List.map_cons, List.count_cons] at hdone
    simp only [count_captures, PollPc.capture, H264Encoder.item, List.count_singleton]
    omega
  case inr.inr.inr.inr.inr =>
    simp only [count_captures, hpc, PollPc.capture, List.map_append, List.map_singleton,
      List.count_append, List.count_nil]
    omega
  case inl =>
    simp only [count_captures, hnext.capture, List.count_nil]
    omega
  all_goals
    -- the thread goes on with empty hands
    simp only [count_captures, PollPc.capture, drop, List.count_nil]
    omega

lemma captures_outputStep {ok : Bool} (ho : s.outputStep ok = some s') (i : ℕ) :
    s'.captures.count i ≤ s.captures.count i := by
  obtain ⟨-, -, rfl⟩ | ⟨hpc, -, -, rfl⟩ | ⟨item, rest, hpc, hqueue, rfl⟩ | ⟨item, hpc, rfl⟩ |
    ⟨item, hpc, rfl⟩ := outputStep_cases ho
  · exact le_rfl
  · simp [count_captures, hpc, H264OutputPc.capture]
  · simp only [count_captures, hpc, hqueue, H264OutputPc.capture, List.map_cons, List.count_cons,
      List.count_nil]
    omega
  · simp [count_captures, hpc, H264OutputPc.capture]
  · cases ok
    all_goals
      simp only [count_captures, hpc, H264OutputPc.capture, if_true, Bool.false_eq_true, if_false,
        List.count_append, List.count_singleton, List.count_nil]
      omega

/-- A step brings no new capture buffer, and none into a second place. -/
lemma captures_count_le {e : Step φ} (hstep : (h264 φ c m mem).step s e = some s') (i : ℕ) :
    s'.captures.count i ≤ s.captures.count i := by
  cases e with
  | fill buf => exact captures_fill hstep i
  | pollThread answer => exact captures_pollStep hstep i
  | outputThread ok => exact captures_outputStep hstep i
  | destroy =>
      obtain ⟨-, rfl⟩ | ⟨-, -, rfl⟩ | ⟨-, rfl⟩ | ⟨-, -, rfl⟩ := destroyStep_cases hstep
      all_goals exact le_rfl
  | _ =>
      obtain ⟨_, _, _, _, _, _, _, _, rfl⟩ := inputStep_cases rfl hstep
      exact le_rfl

/-- The capture buffers are those that the driver has granted. -/
lemma captures_lt (h : (h264 φ c m mem).Reach (fun _ _ => True) s) : ∀ i ∈ s.captures, i < m := by
  refine h.invariant (fun s => ∀ i ∈ s.captures, i < m) ?_ ?_
  · rintro s rfl i hi
    simpa [captures, new, PollPc.capture, H264OutputPc.capture] using hi
  · intro s e s' _ hs _ hstep i hi
    exact hs i (List.count_pos_iff.mp ((List.count_pos_iff.mpr hi).trans_le
      (captures_count_le hstep i)))

/-! ### The indices of a step -/

/-- A step looks into `pending_frames_` at slots of the pool only. -/
lemma pendingUses_lt (hs : Sound c s) {e : Step φ} (hstep : (h264 φ c m mem).step s e = some s') :
    ∀ i ∈ s.pendingUses e, i < c := by
  intro i hi
  cases e with
  | take frame dmaFd size timestampUs => exact hs.leases.free_lt (List.mem_of_mem_take hi)
  | undo sub =>
      obtain ⟨r, hr, -⟩ := Option.map_eq_some_iff.mp hstep
      rw [undo] at hr
      split_ifs at hr with hmem
      obtain rfl := List.mem_singleton.mp hi
      have hout : sub ∈ s.out :=
        List.mem_append_left _ (List.mem_append_right _ hmem)
      exact hs.leases.leased_lt hout
  | pollThread answer =>
      obtain ⟨sub, hsub, rfl⟩ := List.mem_map.mp hi
      have hout : sub ∈ s.out := List.mem_append_right _ (List.mem_append_right _ hsub)
      exact hs.leases.leased_lt hout
  | _ => exact absurd hi List.not_mem_nil

/-- A step looks into `capture_bufs_` at buffers that the driver has written. -/
lemma captureUses_subset {e : Step φ} (hstep : (h264 φ c m mem).step s e = some s') :
    s.captureUses e ⊆ s.captures := by
  cases e with
  | pollThread answer =>
      cases answer with
      | capture buf =>
          cases buf with
          | none => exact List.nil_subset _
          | some buf =>
              have hp : s.pollStep (.capture (some buf)) = some s' := hstep
              have hmem : buf ∈ s.captureDone := by
                simp only [pollStep] at hp
                split at hp <;> simp_all
              intro i hi
              obtain rfl := List.mem_singleton.mp hi
              have hbuf := List.mem_map_of_mem (f := EncodedBuffer.index) hmem
              exact List.mem_append_right _ (List.mem_append_left _ hbuf)
      | _ => exact List.nil_subset _
  | _ => exact List.nil_subset _

lemma take_freeInputSlots (s : H264Encoder φ) (frame : φ) (dmaFd : ℤ) (size : ℕ) (ts : ℤ) :
    (s.take frame dmaFd size ts).1.freeInputSlots = s.freeInputSlots.tail := by
  rw [take]
  cases hfree : s.freeInputSlots with
  | nil => exact hfree
  | cons slot rest => rfl

/-- The first `j` calls of `encode` take the first `j` slots. -/
lemma takes (frame : φ) (j : ℕ) : ∃ s, (h264 φ c m mem).Reach (fun _ _ => True) s ∧
    s.freeInputSlots = (List.range c).drop j := by
  induction j with
  | zero => exact ⟨_, .init rfl, rfl⟩
  | succ j ih =>
      obtain ⟨s, hs, hfree⟩ := ih
      refine ⟨_, .step (e := .take frame 0 0 0) hs trivial rfl, ?_⟩
      rw [take_freeInputSlots, hfree, List.tail_drop]

end H264Encoder

/-- **The H.264 encoder stays inside its arrays** when the driver grants no more buffers than it was
asked for. -/
theorem h264Fits_of_le (φ : Type*) {c m : ℕ} (hc : c ≤ numOutputBuffers)
    (hm : m ≤ numCaptureBuffers) : H264Fits φ c m where
  loops _ hi := (List.mem_range.mp hi).trans_le hm
  pending _ _ _ _ hs hstep i hi :=
    (pendingUses_lt (H264Encoder.sound_of_reach hs) hstep i hi).trans_le hc
  capture _ _ _ _ hs hstep i hi :=
    (captures_lt hs i (captureUses_subset hstep hi)).trans_le hm

/-- And only then. -/
theorem h264Fits_iff (φ : Type*) [Nonempty φ] (c m : ℕ) :
    H264Fits φ c m ↔ c ≤ numOutputBuffers ∧ m ≤ numCaptureBuffers := by
  constructor
  · intro hfits
    constructor
    · -- the last of the slots is taken
      by_contra hlt
      obtain ⟨frame⟩ := ‹Nonempty φ›
      obtain ⟨s, hs, hfree⟩ : ∃ s, (h264 φ c m id).Reach (fun _ _ => True) s ∧
          s.freeInputSlots = (List.range c).drop numOutputBuffers := takes frame numOutputBuffers
      have huse : numOutputBuffers ∈ s.pendingUses (.take frame 0 0 0) := by
        rw [pendingUses, hfree, List.drop_eq_getElem_cons (by simpa using hlt), List.getElem_range]
        exact List.mem_cons_self
      exact lt_irrefl _ (hfits.pending id s _ _ hs rfl _ huse)
    · by_contra hlt
      have huse : numCaptureBuffers ∈ List.range m := List.mem_range.mpr (by omega)
      exact lt_irrefl _ (hfits.loops _ huse)
  · rintro ⟨hc, hm⟩
    exact h264Fits_of_le φ hc hm

/-! ### The JPEG encoder -/

namespace JpegHwEncoder

variable {c m : ℕ} {s s' : JpegHwEncoder} {e : Step}

/-- A step looks into `output_bufs_` at slots of the pool only. -/
lemma outputUses_lt (hs : Sound c m s) (hstep : (jpegHw c m).step s e = some s') :
    ∀ i ∈ s.outputUses e, i < c := by
  intro i hi
  have hslot : i ∈ s.slots := by
    cases e with
    | take => exact List.mem_append_left _ (List.mem_of_mem_take hi)
    | qbuf slot ok =>
        obtain ⟨r, hr, -⟩ := Option.map_eq_some_iff.mp hstep
        rw [qbuf] at hr
        split_ifs at hr with hmem
        all_goals
          obtain rfl := List.mem_singleton.mp hi
          exact List.mem_append_right _ (List.mem_append_left _ (List.mem_append_left _ hmem))
    | _ => exact absurd hi List.not_mem_nil
  exact List.mem_range.mp (hs.slots.mem_iff.mp hslot)

/-- A step looks into `capture_bufs_` at buffers that the driver has granted. -/
lemma captureUses_lt (hs : Sound c m s) : ∀ i ∈ s.captureUses e, i < m := by
  intro i hi
  cases e with
  | pollThread answer =>
      have hcapture : i ∈ s.pollThread.capture := by
        revert hi
        simp only [captureUses]
        cases s.pollThread <;> simp [JpegPollPc.capture]
      exact hs.captures i (List.mem_append_right _ (List.mem_append_right _ hcapture))
  | destroy =>
      simp only [captureUses] at hi
      split_ifs at hi
      · exact hs.count ▸ List.mem_range.mp hi
      · exact absurd hi List.not_mem_nil
  | _ => exact absurd hi List.not_mem_nil

end JpegHwEncoder

/-- **The JPEG encoder stays inside its arrays** exactly when the driver grants no more buffers than
it was asked for. -/
theorem jpegFits_iff (c m : ℕ) : JpegFits c m ↔ c ≤ jpegOutputBuffers ∧ m ≤ jpegCaptureBuffers := by
  constructor
  · intro hfits
    constructor
    · by_contra hlt
      have huse : jpegOutputBuffers ∈ List.range c := List.mem_range.mpr (by omega)
      exact lt_irrefl _ (hfits.outputLoop _ huse)
    · by_contra hlt
      have huse : jpegCaptureBuffers ∈ List.range m := List.mem_range.mpr (by omega)
      exact lt_irrefl _ (hfits.captureLoop _ huse)
  · rintro ⟨hc, hm⟩
    refine ⟨fun i hi => (List.mem_range.mp hi).trans_le hc,
      fun i hi => (List.mem_range.mp hi).trans_le hm, fun s e s' hs hstep i hi => ?_,
      fun s e s' hs _ i hi => ?_⟩
    · have hlt := JpegHwEncoder.outputUses_lt (JpegHwEncoder.sound_of_reach hs) hstep i hi
      exact hlt.trans_le hc
    · have hlt := JpegHwEncoder.captureUses_lt (JpegHwEncoder.sound_of_reach hs) i hi
      exact hlt.trans_le hm

/-! ### The end of the poll thread -/

namespace H264Encoder

variable {φ : Type*} {c m : ℕ} {mem : ℕ → ℕ} {s s' : H264Encoder φ}

/-- A step that is not a call of `encode` takes nothing out again. -/
lemma Returned.step (h : s.Returned) {e : Step φ} (htake : e.notTake = true)
    (hstep : (h264 φ c m mem).step s e = some s') : s'.Returned := by
  cases e with
  | take frame dmaFd size timestampUs => cases htake
  | qbuf sub ok =>
      obtain ⟨r, hr, -⟩ := Option.map_eq_some_iff.mp hstep
      rw [qbuf, h.submitting, if_neg List.not_mem_nil] at hr
      cases hr
  | undo sub =>
      obtain ⟨r, hr, -⟩ := Option.map_eq_some_iff.mp hstep
      rw [undo, h.undoing, if_neg List.not_mem_nil] at hr
      cases hr
  | finish sub =>
      have hf : s.finish sub = some s' := hstep
      rw [finish, h.queued, if_neg List.not_mem_nil] at hf
      cases hf
  | fill buf =>
      obtain ⟨-, rfl⟩ := fill_cases hstep
      exact ⟨h.abort, h.submitting, h.undoing, h.queued, h.done⟩
  | pollThread answer =>
      obtain ⟨_, -, rfl⟩ | ⟨_, hmem, -, rfl⟩ | ⟨_, -, rfl⟩ | ⟨_, -, rfl⟩ | ⟨_, -, -, rfl⟩ |
        ⟨_, -, rfl⟩ := pollStep_cases hstep
      case inr.inl => exact absurd (h.done ▸ hmem) List.not_mem_nil
      all_goals exact ⟨h.abort, h.submitting, h.undoing, h.queued, h.done⟩
  | outputThread ok =>
      obtain ⟨-, -, rfl⟩ | ⟨-, -, -, rfl⟩ | ⟨_, _, -, -, rfl⟩ | ⟨_, -, rfl⟩ | ⟨_, -, rfl⟩ :=
        outputStep_cases hstep
      all_goals exact ⟨h.abort, h.submitting, h.undoing, h.queued, h.done⟩
  | destroy =>
      obtain ⟨-, rfl⟩ | ⟨-, -, rfl⟩ | ⟨-, rfl⟩ | ⟨-, -, rfl⟩ := destroyStep_cases hstep
      case inl => exact ⟨rfl, h.submitting, h.undoing, h.queued, h.done⟩
      all_goals exact ⟨h.abort, h.submitting, h.undoing, h.queued, h.done⟩

/-- **The drain condition at a check**: it holds when the pool has as many slots as it tests for. -/
lemma drained_iff (hs : Sound c s) (h : s.Returned) {ret : PollResult}
    (hpc : s.pollThread = .check ret) : s.drained = true ↔ c = numOutputBuffers := by
  have hout : s.out = [] := by
    simp [out, h.submitting, h.undoing, h.queued, h.done, hpc, PollPc.sub]
  have hlength : s.freeInputSlots.length = c := by
    have hslots := hs.leases.slots.length_eq
    rw [hout, List.map_nil, List.append_nil, List.length_range] at hslots
    exact hslots
  rw [drained, h.abort, Bool.true_and, decide_eq_true_eq, hlength]

/-- The steps of the other parties leave the poll thread where it is. -/
lemma pollThread_of_not_ofPoll {e : Step φ} (he : e.ofPoll = false)
    (hstep : (h264 φ c m mem).step s e = some s') : s'.pollThread = s.pollThread := by
  cases e with
  | fill buf =>
      obtain ⟨-, rfl⟩ := fill_cases hstep
      rfl
  | pollThread answer => cases he
  | outputThread ok =>
      obtain ⟨-, -, rfl⟩ | ⟨-, -, -, rfl⟩ | ⟨_, _, -, -, rfl⟩ | ⟨_, -, rfl⟩ | ⟨_, -, rfl⟩ :=
        outputStep_cases hstep
      all_goals rfl
  | destroy =>
      obtain ⟨-, rfl⟩ | ⟨-, -, rfl⟩ | ⟨-, rfl⟩ | ⟨-, -, rfl⟩ := destroyStep_cases hstep
      all_goals rfl
  | _ =>
      obtain ⟨_, _, _, _, _, _, _, _, rfl⟩ := inputStep_cases rfl hstep
      rfl

lemma PollNext.toCheck {p q : PollPc φ} (h : PollNext s.drained p q)
    (hdrained : ∀ ret, p = .check ret → s.drained = true) :
    q.hasExited = true ∨ q.toCheck < p.toCheck := by
  cases h with
  | leave ret => exact .inl rfl
  | again ret hnot => exact absurd (hnot.symm.trans (hdrained ret rfl)) Bool.false_ne_true
  | ready hnot => exact absurd (hnot.symm.trans (hdrained .ready rfl)) Bool.false_ne_true
  | _ => simp [PollPc.toCheck]

/-- **Every step of the poll thread** brings it nearer to its check, where it returns. -/
lemma toCheck_pollStep (hdrained : ∀ ret, s.pollThread = .check ret → s.drained = true)
    (hdone : s.inputDone = []) {answer : PollAnswer} (hp : s.pollStep answer = some s') :
    s'.pollThread.hasExited = true ∨ s'.pollThread.toCheck < s.pollThread.toCheck := by
  obtain ⟨pc, hnext, rfl⟩ | ⟨sub, hmem, -, rfl⟩ | ⟨sub, hpc, rfl⟩ | ⟨frame, hpc, rfl⟩ |
    ⟨buf, -, hpc, rfl⟩ | ⟨item, hpc, rfl⟩ := pollStep_cases hp
  · exact hnext.toCheck hdrained
  · rw [hdone] at hmem
    exact absurd hmem List.not_mem_nil
  all_goals simp [hpc, PollPc.toCheck]

/-- The poll thread has a step wherever it is. -/
lemma exists_pollStep (hrun : s.pollThread.hasExited = false) :
    ∃ answer, (s.pollStep answer).isSome := by
  cases hpc : s.pollThread with
  | poll => exact ⟨.polled .quiet, by simp [pollStep, hpc]⟩
  | check ret =>
      refine ⟨.none, ?_⟩
      by_cases hdrained : s.drained = true <;> cases ret <;> simp [pollStep, hpc, hdrained]
  | dqOutput => exact ⟨.output none, by simp [pollStep, hpc]⟩
  | takeBack sub => exact ⟨.none, by simp [pollStep, hpc]⟩
  | inputDone frame => exact ⟨.none, by simp [pollStep, hpc]⟩
  | dqCapture => exact ⟨.capture none, by simp [pollStep, hpc]⟩
  | push item => exact ⟨.none, by simp [pollStep, hpc]⟩
  | exited =>
      rw [hpc] at hrun
      cases hrun

/-- The poll thread returns within the steps that lead to its check and past it. -/
lemma exits_of_exec (hc : c = numOutputBuffers) {es : List (Step φ)} :
    ∀ {s : H264Encoder φ}, Sound c s → s.Returned →
      (h264 φ c m mem).exec (fun _ e => e.notTake) s es = some s' →
      (s.pollThread.hasExited = true → s'.pollThread.hasExited = true) ∧
        (s.pollThread.toCheck < (es.filter (·.ofPoll)).length →
          s'.pollThread.hasExited = true) := by
  induction es with
  | nil =>
      intro s _ _ hrun
      cases hrun
      exact ⟨fun h => h, fun h => absurd h (Nat.not_lt_zero _)⟩
  | cons e es ih =>
      intro s hs hreturned hrun
      rw [System.exec] at hrun
      split_ifs at hrun with htake
      obtain ⟨t, hstep, hrun⟩ := Option.bind_eq_some_iff.mp hrun
      obtain ⟨hstays, hexits⟩ := ih (hs.step hstep) (hreturned.step htake hstep) hrun
      cases he : e.ofPoll with
      | false =>
          have hsame := pollThread_of_not_ofPoll he hstep
          rw [hsame] at hstays hexits
          rw [List.filter_cons_of_neg (by simp [he])]
          exact ⟨hstays, hexits⟩
      | true =>
          obtain ⟨answer, rfl⟩ : ∃ answer, e = .pollThread answer := by
            cases e <;> first | exact ⟨_, rfl⟩ | cases he
          have hp : s.pollStep answer = some t := hstep
          have hdrained (ret : PollResult) (hpc : s.pollThread = .check ret) : s.drained = true :=
            (drained_iff hs hreturned hpc).mpr hc
          rw [List.filter_cons_of_pos (by simp [he]), List.length_cons]
          obtain hexit | hless := toCheck_pollStep hdrained hreturned.done hp
          · exact ⟨fun _ => hstays hexit, fun _ => hstays hexit⟩
          · refine ⟨fun hexit => ?_, fun hlt => hexits (by omega)⟩
            cases hpc : s.pollThread with
            | exited =>
                rw [hpc] at hless
                exact absurd hless (Nat.not_lt_zero _)
            | _ =>
                rw [hpc] at hexit
                cases hexit

/-- The poll thread of a fresh encoder that is destroyed at once, at its check. -/
lemma returned_at_check (φ : Type*) (c m : ℕ) : ∃ s, (h264 φ c m id).Reach (fun _ _ => True) s ∧
    s.Returned ∧ s.pollThread = .check .quiet := by
  refine ⟨_, .step (e := .pollThread (.polled .quiet))
    (.step (e := .destroy) (.init rfl) trivial rfl) trivial rfl, ?_, rfl⟩
  exact ⟨rfl, rfl, rfl, rfl, rfl⟩

/-- **With fewer slots the drain condition never holds**, so that the poll thread returns on an
error of `poll` only. -/
theorem not_drained_of_lt (hc : c < numOutputBuffers)
    (h : (h264 φ c m mem).Reach (fun _ _ => True) s) : s.drained = false := by
  have hlength : s.freeInputSlots.length ≤ c := by
    have hslots := (H264Encoder.sound_of_reach h).leases.slots.length_eq
    rw [List.length_append, List.length_range] at hslots
    omega
  rw [drained, Bool.and_eq_false_iff]
  exact .inr (decide_eq_false (by omega))

end H264Encoder

/-- **When the poll thread stops**: exactly when the driver has granted as many slots as the drain
condition counts. -/
theorem h264Stops_iff (φ : Type*) (c m : ℕ) : H264Stops φ c m ↔ c = numOutputBuffers := by
  constructor
  · intro hstops
    obtain ⟨s, hs, hreturned, hpc⟩ := returned_at_check φ c m
    exact (drained_iff (H264Encoder.sound_of_reach hs) hreturned hpc).mp
      (hstops.check id s .quiet hs hreturned hpc)
  · intro hc
    refine ⟨fun mem s ret hs hreturned hpc => ?_, fun mem s _ hrun => exists_pollStep hrun,
      fun mem s s' es hs hreturned hexec => ?_⟩
    · exact (drained_iff (H264Encoder.sound_of_reach hs) hreturned hpc).mpr hc
    · exact (exits_of_exec hc (H264Encoder.sound_of_reach hs) hreturned hexec).2

/-- **Which grants serve the encoders**: as many H.264 input slots as requested, and no more of the
other buffers than requested. -/
theorem served_iff (φ : Type*) (g : Grants) :
    Served φ g ↔ g.h264Output = numOutputBuffers ∧ g.h264Capture ≤ numCaptureBuffers ∧
      g.jpegOutput ≤ jpegOutputBuffers ∧ g.jpegCapture ≤ jpegCaptureBuffers := by
  constructor
  · intro h
    obtain ⟨houtput, hcapture⟩ := (jpegFits_iff _ _).mp h.jpeg
    refine ⟨(h264Stops_iff φ _ _).mp h.stops, ?_, houtput, hcapture⟩
    by_contra hlt
    exact lt_irrefl _ (h.h264.loops numCaptureBuffers (List.mem_range.mpr (by omega)))
  · rintro ⟨hslots, hcapture, hjpeg⟩
    exact ⟨h264Fits_of_le φ hslots.le hcapture, (jpegFits_iff _ _).mpr hjpeg,
      (h264Stops_iff φ _ _).mpr hslots⟩

/-- A driver that grants four of the six input slots: everything has been returned, and the poll
thread goes on. -/
theorem four_slots_never_drained :
    ¬ Served FramePtr ⟨4, 12, 3, 3⟩ ∧
    ∃ s, (h264 FramePtr 4 12 id).Reach (fun _ _ => True) s ∧ s.Returned ∧
      s.pollThread = .check .quiet ∧ s.drained = false := by
  obtain ⟨s, hs, hreturned, hpc⟩ := returned_at_check FramePtr 4 12
  have hdrained : s.drained = false := not_drained_of_lt (by decide) hs
  refine ⟨fun hserved => ?_, s, hs, hreturned, hpc, hdrained⟩
  exact absurd ((hserved.stops.check id s .quiet hs hreturned hpc).symm.trans hdrained) (by decide)

end RasPiZeroCam
