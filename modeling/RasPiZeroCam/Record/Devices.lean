import RasPiZeroCam.Transition.Balance
import RasPiZeroCam.Record.Captures

/-!
The device of a hardware encoder and the buffers that are mapped from it, over the constructor and
the destructor of the two encoders.

* `DeviceAnswers`: what the driver answers to a constructor.
* `DeviceEncoder.construct`, `DeviceEncoder.giveBack`: the constructor, and what the destructor does
  behind its joins, with what the two encoders do differently in `DeviceEncoder.queues`.
* `EncoderRun`, `EncoderRun.lifetime`: an encoder that is made and, unless the constructor throws,
  runs; its destructor gives back what it has when it has joined the threads.
* `lifetime_balanced`: what is left is what an encoder has acquired that is `Unreturned`.
* `H264Encoder.not_joined_of_lt`: with fewer slots than requested, a destructor joins the poll
  thread only after an error of `poll`.
* `devices_released_iff`: all is given back exactly when no constructor throws once its device is
  open, and every destructor gets past its joins.
-/

namespace RasPiZeroCam

open Transition

/-- `V4L2_BUF_TYPE_VIDEO_OUTPUT_MPLANE` and `V4L2_BUF_TYPE_VIDEO_CAPTURE_MPLANE`. -/
inductive DeviceQueue where
  | output
  | capture
  deriving DecidableEq

/-- The calls that acquire or release something. -/
inductive DeviceCall where
  | openDevice
  | closeDevice
  | mmap (q : DeviceQueue) (i : ℕ)
  | munmap (q : DeviceQueue) (i : ℕ)
  deriving DecidableEq

/-- What is acquired: the descriptor, and the mapped buffers. -/
inductive DeviceHold where
  | descriptor
  | buffer (q : DeviceQueue) (i : ℕ)
  deriving DecidableEq

namespace DeviceCall

def acquires : DeviceCall → Option DeviceHold
  | openDevice => some .descriptor
  | mmap q i => some (.buffer q i)
  | _ => none

def releases : DeviceCall → Option DeviceHold
  | closeDevice => some .descriptor
  | munmap q i => some (.buffer q i)
  | _ => none

end DeviceCall

/-- What the driver answers to a constructor. -/
structure DeviceAnswers where
  opened : Bool                         -- `open`
  s_fmt : DeviceQueue → Bool            -- `VIDIOC_S_FMT`
  reqbufs : DeviceQueue → Option ℕ      -- `VIDIOC_REQBUFS`, with the number it grants
  querybuf : DeviceQueue → ℕ → Bool     -- `VIDIOC_QUERYBUF`
  mmap : DeviceQueue → ℕ → Bool         -- `mmap`, not `MAP_FAILED`
  qbuf : DeviceQueue → ℕ → Bool         -- `VIDIOC_QBUF`
  streamon : DeviceQueue → Bool         -- `VIDIOC_STREAMON`

/-- How an encoder sets a queue up. -/
structure QueueSetup where
  queue : DeviceQueue
  mapped : Bool       -- `V4L2_MEMORY_MMAP`, not `V4L2_MEMORY_DMABUF`
  prequeued : Bool    -- `VIDIOC_QBUF` of every buffer
  bufs : ℕ            -- the length of the array that has a place for each buffer
  whole : Bool        -- the destructor goes over the array, not over the buffers granted

/-- The two encoders. -/
inductive DeviceEncoder where
  | h264
  | jpeg
  deriving DecidableEq

namespace DeviceEncoder

/-- The queues, in the order in which they are set up. -/
def queues : DeviceEncoder → List QueueSetup
  | h264 =>
      [{ queue := .output, mapped := false, prequeued := false, bufs := numOutputBuffers,
          whole := false },
        { queue := .capture, mapped := true, prequeued := true, bufs := numCaptureBuffers,
          whole := false }]
  | jpeg =>
      [{ queue := .output, mapped := true, prequeued := false, bufs := jpegOutputBuffers,
          whole := true },
        { queue := .capture, mapped := true, prequeued := true, bufs := jpegCaptureBuffers,
          whole := false }]

end DeviceEncoder

/-- A part of a constructor: its calls, and whether it gets through, or throws. -/
abbrev Built := List DeviceCall × Bool

/-- One part after the other. -/
def Built.andThen (x y : Built) : Built := if x.2 then (x.1 ++ y.1, y.2) else x

variable {a : DeviceAnswers} {setup : QueueSetup} {enc : DeviceEncoder}

namespace QueueSetup

/-- The buffers of a queue, `n` of them from the `i`-th on. -/
def mapBuffers (setup : QueueSetup) (a : DeviceAnswers) : ℕ → ℕ → Built
  | 0, _ => ([], true)
  | n + 1, i =>
      if a.querybuf setup.queue i then
        if a.mmap setup.queue i then
          -- the buffer stays mapped when it cannot be queued
          if setup.prequeued && !a.qbuf setup.queue i then ([.mmap setup.queue i], false)
          else Built.andThen ([.mmap setup.queue i], true) (setup.mapBuffers a n (i + 1))
        else ([], false)
      else ([], false)

/-- A queue is set up. -/
def build (setup : QueueSetup) (a : DeviceAnswers) : Built :=
  match a.reqbufs setup.queue with
  | none => ([], false)
  | some n => if setup.mapped then setup.mapBuffers a n 0 else ([], true)

/-- What the destructor unmaps: the buffers that it goes over and whose `mem` is set. -/
def unmap (setup : QueueSetup) (a : DeviceAnswers) : List DeviceCall :=
  match a.reqbufs setup.queue with
  | none => []
  | some n =>
      if setup.mapped then
        ((List.range (if setup.whole then setup.bufs else n)).filter fun i => i < n).map
          (.munmap setup.queue)
      else []

/-- The driver grants no more buffers than the array has. -/
def Fits (setup : QueueSetup) (a : DeviceAnswers) : Prop :=
  ∀ n, a.reqbufs setup.queue = some n → n ≤ setup.bufs

end QueueSetup

/-- All queues are set up. -/
def buildQueues (a : DeviceAnswers) : List QueueSetup → Built
  | [] => ([], true)
  | setup :: setups => (setup.build a).andThen (buildQueues a setups)

namespace DeviceEncoder

/-- `H264HardwareEncoder::H264HardwareEncoder` and `JpegHwEncoder::JpegHwEncoder`. -/
def construct (enc : DeviceEncoder) (a : DeviceAnswers) : Built :=
  if a.opened then
    if a.s_fmt .output && a.s_fmt .capture then
      Built.andThen (Built.andThen ([.openDevice], true) (buildQueues a enc.queues))
        ([], a.streamon .output && a.streamon .capture)
    else ([.openDevice], false)
  else ([], false)

/-- What `H264HardwareEncoder::~H264HardwareEncoder` and `JpegHwEncoder::~JpegHwEncoder` do when
they have joined the threads. -/
def giveBack (enc : DeviceEncoder) (a : DeviceAnswers) : List DeviceCall :=
  enc.queues.flatMap (·.unmap a) ++ [.closeDevice]

end DeviceEncoder

variable {φ : Type}

/-- An encoder that has been made: its members, its threads, and where its destructor is. -/
inductive EncoderState (φ : Type) where
  | h264 (s : H264Encoder φ)
  | jpeg (s : JpegHwEncoder)

namespace EncoderState

def encoder : EncoderState φ → DeviceEncoder
  | h264 _ => .h264
  | jpeg _ => .jpeg

/-- The destructor has joined the threads. -/
def joined : EncoderState φ → Bool
  | h264 s => s.destroy = .joined
  | jpeg s => s.destroy = .unmap ∨ s.destroy = .closed

end EncoderState

/-- What `VIDIOC_REQBUFS` grants. -/
def DeviceAnswers.granted (a : DeviceAnswers) (q : DeviceQueue) : ℕ := (a.reqbufs q).getD 0

/-- An encoder: what the driver answers to its constructor, and how far it has got, if that does not
throw. -/
structure EncoderRun (φ : Type) where
  answers : DeviceAnswers
  state : EncoderState φ

namespace EncoderRun

/-- What it acquires and releases.  When the constructor throws there is no destructor. -/
def lifetime (run : EncoderRun φ) : List DeviceCall :=
  let built := run.state.encoder.construct run.answers
  if built.2 && run.state.joined then built.1 ++ run.state.encoder.giveBack run.answers else built.1

/-- It has opened the device, and gives nothing back: the constructor throws, or the destructor has
not got past its joins. -/
def Unreturned (run : EncoderRun φ) : Prop :=
  run.answers.opened = true ∧
    ((run.state.encoder.construct run.answers).2 = false ∨ run.state.joined = false)

instance : DecidablePred (Unreturned (φ := φ)) := fun run =>
  inferInstanceAs (Decidable (run.answers.opened = true ∧
    ((run.state.encoder.construct run.answers).2 = false ∨ run.state.joined = false)))

end EncoderRun

/-! ### The queues -/

/-- Calls that map buffers, and do nothing else. -/
def OnlyMaps (calls : List DeviceCall) : Prop := ∀ c ∈ calls, ∃ q i, c = .mmap q i

namespace OnlyMaps

variable {calls : List DeviceCall} {x y : Built}

lemma nil : OnlyMaps [] := List.forall_mem_nil _

lemma one (q : DeviceQueue) (i : ℕ) : OnlyMaps [.mmap q i] :=
  List.forall_mem_singleton.mpr ⟨q, i, rfl⟩

lemma released (h : OnlyMaps calls) (r : DeviceHold) : tally DeviceCall.releases calls r = 0 := by
  refine List.countP_eq_zero.mpr fun c hc => ?_
  obtain ⟨q, i, rfl⟩ := h c hc
  simp [DeviceCall.releases]

lemma descriptor (h : OnlyMaps calls) : tally DeviceCall.acquires calls .descriptor = 0 := by
  refine List.countP_eq_zero.mpr fun c hc => ?_
  obtain ⟨q, i, rfl⟩ := h c hc
  simp [DeviceCall.acquires]

lemma andThen (hx : OnlyMaps x.1) (hy : OnlyMaps y.1) : OnlyMaps (x.andThen y).1 := by
  rw [Built.andThen]
  split_ifs
  · exact List.forall_mem_append.mpr ⟨hx, hy⟩
  · exact hx

lemma mapBuffers (n : ℕ) : ∀ i, OnlyMaps (setup.mapBuffers a n i).1 := by
  induction n with
  | zero => exact fun _ => nil
  | succ n ih =>
      intro i
      rw [QueueSetup.mapBuffers]
      split_ifs
      · exact one _ _
      · exact (one _ _).andThen (x := ([.mmap setup.queue i], true)) (ih (i + 1))
      · exact nil
      · exact nil

lemma build : OnlyMaps (setup.build a).1 := by
  rw [QueueSetup.build]
  cases a.reqbufs setup.queue with
  | none => exact nil
  | some n =>
      dsimp only
      split_ifs
      · exact mapBuffers n 0
      · exact nil

lemma buildQueues (setups : List QueueSetup) : OnlyMaps (buildQueues a setups).1 := by
  induction setups with
  | nil => exact nil
  | cons setup setups ih => exact build.andThen ih

end OnlyMaps

/-- Both parts have got through. -/
lemma Built.andThen_built {x y : Built} (h : (x.andThen y).2 = true) :
    x.2 = true ∧ y.2 = true ∧ (x.andThen y).1 = x.1 ++ y.1 := by
  rw [Built.andThen] at h ⊢
  split_ifs at h ⊢ with hx
  · exact ⟨hx, h, rfl⟩
  · exact absurd h hx

namespace QueueSetup

/-- A loop that gets through has mapped every buffer. -/
lemma mapBuffers_built {n : ℕ} : ∀ {i : ℕ}, (setup.mapBuffers a n i).2 = true →
    (setup.mapBuffers a n i).1 = (List.range' i n).map (.mmap setup.queue) := by
  induction n with
  | zero => exact fun _ => rfl
  | succ n ih =>
      intro i h
      rw [mapBuffers] at h ⊢
      split_ifs at h ⊢
      obtain ⟨-, hrest, hcalls⟩ := Built.andThen_built h
      rw [hcalls, ih hrest]
      rfl

lemma filter_range {n m : ℕ} (h : n ≤ m) :
    (List.range m).filter (fun i => i < n) = List.range n := by
  obtain ⟨k, rfl⟩ := Nat.exists_eq_add_of_le h
  rw [List.range_add, List.filter_append, List.filter_eq_self.mpr, List.filter_eq_nil_iff.mpr,
    List.append_nil]
  · intro i hi
    obtain ⟨j, -, rfl⟩ := List.mem_map.mp hi
    simp
  · intro i hi
    simpa using hi

/-- A queue that was set up is given back. -/
lemma build_balanced (hbuilt : (setup.build a).2 = true) (hfits : setup.Fits a)
    (r : DeviceHold) : tally DeviceCall.acquires (setup.build a).1 r =
      tally DeviceCall.releases (setup.unmap a) r := by
  rw [build] at hbuilt ⊢
  rw [unmap]
  cases hgranted : a.reqbufs setup.queue with
  | none => rfl
  | some n =>
      rw [hgranted] at hbuilt
      dsimp only at hbuilt ⊢
      by_cases hmapped : setup.mapped = true
      · have hbound : n ≤ if setup.whole then setup.bufs else n := by
          split_ifs
          · exact hfits n hgranted
          · exact le_rfl
        rw [if_pos hmapped] at hbuilt
        rw [if_pos hmapped, if_pos hmapped, mapBuffers_built hbuilt, filter_range hbound,
          List.range_eq_range', tally, tally, List.countP_map, List.countP_map]
        rfl
      · rw [if_neg hmapped, if_neg hmapped]
        rfl

/-- Only buffers are unmapped. -/
lemma unmap_acquires (r : DeviceHold) : tally DeviceCall.acquires (setup.unmap a) r = 0 := by
  rw [unmap]
  cases a.reqbufs setup.queue with
  | none => rfl
  | some n =>
      dsimp only
      by_cases hmapped : setup.mapped = true
      · rw [if_pos hmapped, tally, List.countP_map]
        exact List.countP_eq_zero.mpr fun i _ => by simp [DeviceCall.acquires]
      · rw [if_neg hmapped]
        rfl

end QueueSetup

lemma flatMap_unmap_acquires (setups : List QueueSetup) (r : DeviceHold) :
    tally DeviceCall.acquires (setups.flatMap (·.unmap a)) r = 0 := by
  induction setups with
  | nil => rfl
  | cons setup setups ih =>
      rw [List.flatMap_cons, tally_append, QueueSetup.unmap_acquires, ih]

/-- Queues that were set up are given back. -/
lemma buildQueues_balanced {setups : List QueueSetup} (hbuilt : (buildQueues a setups).2 = true)
    (hfits : ∀ setup ∈ setups, setup.Fits a) (r : DeviceHold) :
    tally DeviceCall.acquires (buildQueues a setups).1 r =
      tally DeviceCall.releases (setups.flatMap (·.unmap a)) r := by
  induction setups with
  | nil => rfl
  | cons setup setups ih =>
      obtain ⟨hfirst, hrest⟩ := List.forall_mem_cons.mp hfits
      obtain ⟨hbuilt, hbuilts, hcalls⟩ := Built.andThen_built hbuilt
      rw [buildQueues, hcalls, List.flatMap_cons, tally_append, tally_append,
        setup.build_balanced hbuilt hfirst, ih hbuilts hrest]

/-! ### A lifetime -/

namespace DeviceEncoder

/-- What a constructor calls: it opens the device, and maps buffers. -/
lemma construct_calls (enc : DeviceEncoder) (hopened : a.opened = true) :
    ∃ calls, OnlyMaps calls ∧ (enc.construct a).1 = .openDevice :: calls := by
  rw [construct, if_pos hopened]
  split_ifs
  · refine ⟨(buildQueues a enc.queues).1, .buildQueues _, ?_⟩
    rw [Built.andThen]
    split_ifs
    · exact List.append_nil _
    · rfl
  · exact ⟨[], .nil, rfl⟩

/-- Where the device cannot be opened, nothing is called. -/
lemma construct_closed (hopened : ¬ a.opened = true) : enc.construct a = ([], false) := by
  rw [construct, if_neg hopened]

/-- A constructor releases nothing. -/
lemma construct_released (r : DeviceHold) :
    tally DeviceCall.releases (enc.construct a).1 r = 0 := by
  by_cases hopened : a.opened = true
  · obtain ⟨calls, hmaps, hcalls⟩ := construct_calls enc hopened
    rw [hcalls, ← List.singleton_append, tally_append, hmaps.released]
    rfl
  · rw [construct_closed hopened]
    rfl

/-- It has acquired the descriptor when it has opened the device. -/
lemma construct_descriptor (hopened : a.opened = true) :
    tally DeviceCall.acquires (enc.construct a).1 .descriptor = 1 := by
  obtain ⟨calls, hmaps, hcalls⟩ := construct_calls enc hopened
  rw [hcalls, ← List.singleton_append, tally_append, hmaps.descriptor]
  rfl

/-- A destructor acquires nothing. -/
lemma giveBack_acquires (r : DeviceHold) :
    tally DeviceCall.acquires (enc.giveBack a) r = 0 := by
  rw [giveBack, tally_append, flatMap_unmap_acquires]
  rfl

/-- A constructor that gets through: the destructor gives back what it has acquired. -/
lemma construct_balanced (hbuilt : (enc.construct a).2 = true)
    (hfits : ∀ setup ∈ enc.queues, setup.Fits a) (r : DeviceHold) :
    tally DeviceCall.acquires (enc.construct a).1 r =
      tally DeviceCall.releases (enc.giveBack a) r := by
  rw [construct] at hbuilt ⊢
  split_ifs at hbuilt ⊢
  obtain ⟨hbuilt, -, hcalls⟩ := Built.andThen_built hbuilt
  obtain ⟨-, hqueues, hcalls'⟩ := Built.andThen_built hbuilt
  rw [hcalls, hcalls', List.append_nil, tally_append, buildQueues_balanced hqueues hfits, giveBack,
    tally_append, Nat.add_comm]
  rfl

end DeviceEncoder

namespace EncoderRun

variable {run : EncoderRun φ}

/-- What a lifetime leaves. -/
def left (run : EncoderRun φ) (r : DeviceHold) : ℕ :=
  if run.Unreturned then
    tally DeviceCall.acquires (run.state.encoder.construct run.answers).1 r
  else 0

/-- **A lifetime**: what is left is what an encoder has acquired that gives nothing back. -/
lemma lifetime_balanced (hfits : ∀ setup ∈ run.state.encoder.queues, setup.Fits run.answers) :
    Balanced DeviceCall.acquires DeviceCall.releases run.lifetime run.left := by
  intro r
  have hreleased :
      tally DeviceCall.releases (run.state.encoder.construct run.answers).1 r = 0 :=
    DeviceEncoder.construct_released r
  rw [lifetime, left]
  by_cases hend : ((run.state.encoder.construct run.answers).2 && run.state.joined) = true
  · obtain ⟨hbuilt, hjoined⟩ := Bool.and_eq_true_iff.mp hend
    have hback : ¬ run.Unreturned := fun h => by
      rcases h.2 with hthrown | hstuck
      · cases hbuilt.symm.trans hthrown
      · cases hjoined.symm.trans hstuck
    rw [if_pos hend, if_neg hback, tally_append, tally_append, DeviceEncoder.giveBack_acquires,
      hreleased, DeviceEncoder.construct_balanced hbuilt hfits]
    omega
  · rw [if_neg hend, hreleased, Nat.zero_add]
    split_ifs with hkept
    · rfl
    · have hopened : ¬ run.answers.opened = true := fun hopened =>
        hkept ⟨hopened, Bool.and_eq_false_iff.mp (Bool.eq_false_of_not_eq_true hend)⟩
      rw [DeviceEncoder.construct_closed hopened]
      rfl

/-- The descriptor is left exactly by those that give nothing back. -/
lemma left_descriptor : run.left .descriptor = if run.Unreturned then 1 else 0 := by
  rw [left]
  split_ifs with h
  · exact DeviceEncoder.construct_descriptor h.1
  · rfl

/-- Nothing is left of the others. -/
lemma left_of_returned (h : ¬ run.Unreturned) (r : DeviceHold) : run.left r = 0 := if_neg h

end EncoderRun

/-- Encoders one after the other. -/
def lifetimes (runs : List (EncoderRun φ)) : List DeviceCall := runs.flatMap EncoderRun.lifetime

/-- **What they leave** is what each of them leaves. -/
lemma lifetimes_balanced {runs : List (EncoderRun φ)}
    (hfits : ∀ run ∈ runs, ∀ setup ∈ run.state.encoder.queues, setup.Fits run.answers) :
    Balanced DeviceCall.acquires DeviceCall.releases (lifetimes runs)
      fun r => (runs.map fun run => run.left r).sum := by
  induction runs with
  | nil => exact fun _ => rfl
  | cons run runs ih =>
      obtain ⟨hfirst, hrest⟩ := List.forall_mem_cons.mp hfits
      refine (EncoderRun.lifetime_balanced hfirst).append fun r => ?_
      have hruns := ih hrest r
      dsimp only at hruns ⊢
      rw [List.map_cons, List.sum_cons]
      change tally DeviceCall.acquires (lifetimes runs) r + _ =
        tally DeviceCall.releases (lifetimes runs) r + _
      omega

/-- They leave as many descriptors open as there are encoders that give nothing back. -/
lemma sum_left_descriptor (runs : List (EncoderRun φ)) :
    (runs.map fun run => run.left .descriptor).sum = runs.countP fun run => run.Unreturned := by
  induction runs with
  | nil => rfl
  | cons run runs ih =>
      rw [List.map_cons, List.sum_cons, ih, EncoderRun.left_descriptor, List.countP_cons,
        Nat.add_comm]
      simp only [decide_eq_true_eq]

/-! ### The joins -/

namespace H264Encoder

variable {c m : ℕ} {mem : ℕ → ℕ} {s s' : H264Encoder φ}

/-- `poll` returns no error. -/
def Polls (_ : H264Encoder φ) (e : Step φ) : Prop := e ≠ .pollThread (.polled .error)

/-- What `poll` has returned is what the poll thread comes to its check with. -/
lemma check_of_pollStep {answer : PollAnswer} (h : s.pollStep answer = some s') {ret : PollResult}
    (hpc : s'.pollThread = .check ret) : answer = .polled ret := by
  simp only [pollStep] at h
  split at h
  · cases h
    cases hpc
    rfl
  · split_ifs at h
    · cases h
      cases hpc
    · split at h <;> cases h <;> cases hpc
  all_goals first
    | (cases h; cases hpc)
    | (split_ifs at h; cases h; cases hpc)
    | cases h

/-- **With fewer slots than requested** the poll thread goes on, as long as `poll` returns no
error. -/
lemma polling_of_lt (hc : c < numOutputBuffers) (h : (h264 φ c m mem).Reach Polls s) :
    s.pollThread.hasExited = false ∧ s.pollThread ≠ .check .error := by
  refine h.invariant (fun s => s.pollThread.hasExited = false ∧ s.pollThread ≠ .check .error)
    ?_ ?_
  · rintro s rfl
    exact ⟨rfl, fun hpc => by cases hpc⟩
  · intro s e s' hs ⟨hrun, hcheck⟩ hpolls hstep
    cases he : e.ofPoll with
    | false =>
        rw [pollThread_of_not_ofPoll he hstep]
        exact ⟨hrun, hcheck⟩
    | true =>
        obtain ⟨answer, rfl⟩ : ∃ answer, e = .pollThread answer := by
          cases e <;> first | exact ⟨_, rfl⟩ | cases he
        have hp : s.pollStep answer = some s' := hstep
        refine ⟨?_, fun hpc => hpolls (congrArg _ (check_of_pollStep hp hpc))⟩
        have hnot : s.drained = false := not_drained_of_lt hc (hs.mono fun _ _ _ => trivial)
        obtain ⟨pc, hnext, rfl⟩ | ⟨_, -, -, rfl⟩ | ⟨_, -, rfl⟩ | ⟨_, -, rfl⟩ | ⟨_, -, -, rfl⟩ |
          ⟨_, -, rfl⟩ := pollStep_cases hp
        · generalize hfrom : s.pollThread = p at hnext
          cases hnext with
          | leave ret hend =>
              rcases hend with hdrained | rfl
              · cases hnot.symm.trans hdrained
              · exact absurd hfrom hcheck
          | _ => rfl
        all_goals rfl

/-- And the destructor waits for it. -/
lemma not_joined_of_lt (hc : c < numOutputBuffers) (h : (h264 φ c m mem).Reach Polls s) :
    s.destroy ≠ .joined := by
  intro hjoined
  have horderly := orderly_of_reach h
  obtain ⟨habort, -⟩ := horderly.exited (horderly.joinedOutput hjoined)
  cases (polling_of_lt hc h).1.symm.trans (horderly.abort habort)

end H264Encoder

/-- An H.264 encoder that has been granted fewer slots than it has requested, and whose poll thread
sees no error. -/
def EncoderRun.Short (run : EncoderRun φ) : Prop :=
  run.answers.granted .output < numOutputBuffers ∧ ∃ s mem, run.state = .h264 s ∧
    (h264 φ (run.answers.granted .output) (run.answers.granted .capture) mem).Reach
      H264Encoder.Polls s

/-- **Devices are given back** by the encoders that were made and destroyed, in whatever order and
number: their descriptors and their mapped buffers, exactly when no constructor throws once its
device is open, and every destructor gets past its joins.  An encoder that gives nothing back leaves
one descriptor open, and nothing is released twice.  The destructor of an H.264 encoder that was
granted fewer slots than it has requested does not get past its joins. -/
theorem devices_released_iff (runs : List (EncoderRun φ))
    (hfits : ∀ run ∈ runs, ∀ setup ∈ run.state.encoder.queues, setup.Fits run.answers) :
    ((∀ r, tally DeviceCall.releases (lifetimes runs) r =
        tally DeviceCall.acquires (lifetimes runs) r) ↔ ∀ run ∈ runs, ¬ run.Unreturned) ∧
    tally DeviceCall.acquires (lifetimes runs) .descriptor =
      tally DeviceCall.releases (lifetimes runs) .descriptor +
        runs.countP (fun run => run.Unreturned) ∧
    (∀ r, tally DeviceCall.releases (lifetimes runs) r ≤
      tally DeviceCall.acquires (lifetimes runs) r) ∧
    ∀ run ∈ runs, run.answers.opened = true → run.Short → run.Unreturned := by
  have hbalanced := lifetimes_balanced hfits
  have hdescriptors : tally DeviceCall.acquires (lifetimes runs) .descriptor =
      tally DeviceCall.releases (lifetimes runs) .descriptor +
        runs.countP fun run => run.Unreturned := by
    rw [← sum_left_descriptor]
    exact hbalanced .descriptor
  refine ⟨⟨fun hall run hrun hkept => ?_, fun hnone r => hbalanced.released_eq ?_⟩,
    hdescriptors, hbalanced.released_le, fun run _ hopened hshort => ⟨hopened, Or.inr ?_⟩⟩
  · have hpos : 0 < runs.countP fun run => run.Unreturned :=
      List.countP_pos_iff.mpr ⟨run, hrun, decide_eq_true hkept⟩
    have hsame := hall .descriptor
    omega
  · refine List.sum_eq_zero fun n hn => ?_
    obtain ⟨run, hrun, rfl⟩ := List.mem_map.mp hn
    exact EncoderRun.left_of_returned (hnone run hrun) r
  · obtain ⟨hlt, s, mem, hstate, hreach⟩ := hshort
    rw [hstate]
    exact decide_eq_false (H264Encoder.not_joined_of_lt hlt hreach)

/-- A driver that grants so many output buffers, and so many capture buffers, or refuses these. -/
def grantsOf (output : ℕ) (capture : Option ℕ) : DeviceAnswers where
  opened := true
  s_fmt _ := true
  reqbufs q := if q = .output then some output else capture
  querybuf _ _ := true
  mmap _ _ := true
  qbuf _ _ := true
  streamon _ := true

/-- A JPEG encoder that is refused its capture buffers. -/
def captureRefused : EncoderRun ℕ := ⟨grantsOf 3 none, .jpeg (.new 3 0)⟩

/-- An H.264 encoder with four slots, whose destructor waits for the poll thread. -/
def fourSlots : H264Encoder ℕ :=
  { H264Encoder.new ℕ 4 12 id with
    abortPoll := true
    pollThread := .check .quiet
    destroy := .joinPoll }

lemma reach_fourSlots : (h264 ℕ 4 12 id).Reach H264Encoder.Polls fourSlots := by
  have hdestroy : (h264 ℕ 4 12 id).Reach H264Encoder.Polls _ :=
    .step (e := .destroy) (.init rfl) (fun h => by cases h) rfl
  exact .step (e := .pollThread (.polled .quiet)) hdestroy (fun h => by cases h) rfl

/-- One with six slots, whose destructor has joined its threads. -/
def sixSlots : H264Encoder ℕ :=
  { H264Encoder.new ℕ 6 12 id with
    abortPoll := true
    abortOutput := true
    pollThread := .exited
    outputThread := .exited
    destroy := .joined }

example : (h264 ℕ 6 12 id).exec (fun _ _ => true) (.new ℕ 6 12 id)
    [.destroy, .pollThread (.polled .quiet), .pollThread .none, .destroy, .destroy,
      .outputThread true, .destroy] = some sixSlots := rfl

/-- The first two keep their descriptors open, the third gives back what it has. -/
theorem devices_released_iff_fourSlots :
    let runs := [captureRefused, ⟨grantsOf 4 (some 12), .h264 fourSlots⟩,
      ⟨grantsOf 6 (some 12), .h264 sixSlots⟩]
    tally DeviceCall.acquires (lifetimes runs) .descriptor =
      tally DeviceCall.releases (lifetimes runs) .descriptor + 2 ∧
    (EncoderRun.mk (grantsOf 4 (some 12)) (.h264 fourSlots)).Unreturned ∧
    tally DeviceCall.releases (lifetimes runs) .descriptor = 1 := by
  have hcapture : ∀ setup ∈ DeviceEncoder.jpeg.queues, setup.Fits (grantsOf 3 none) := by
    refine List.forall_mem_cons.mpr ⟨fun n hn => (Option.some.inj hn).ge, ?_⟩
    exact List.forall_mem_singleton.mpr fun n hn => by cases hn
  have hgranted : ∀ n ≤ numOutputBuffers, ∀ setup ∈ DeviceEncoder.h264.queues,
      setup.Fits (grantsOf n (some 12)) := fun n hle => by
    refine List.forall_mem_cons.mpr ⟨fun k hk => (Option.some.inj hk).ge.trans hle, ?_⟩
    exact List.forall_mem_singleton.mpr fun k hk => (Option.some.inj hk).ge
  obtain ⟨-, hopen, -, hshort⟩ := devices_released_iff
    [captureRefused, ⟨grantsOf 4 (some 12), .h264 fourSlots⟩,
      ⟨grantsOf 6 (some 12), .h264 sixSlots⟩]
    (List.forall_mem_cons.mpr ⟨hcapture, List.forall_mem_cons.mpr ⟨hgranted 4 (by decide),
      List.forall_mem_singleton.mpr (hgranted 6 le_rfl)⟩⟩)
  refine ⟨hopen, hshort _ (List.mem_cons_of_mem _ List.mem_cons_self) rfl ?_, rfl⟩
  exact ⟨by decide, fourSlots, id, rfl, reach_fourSlots⟩

end RasPiZeroCam
