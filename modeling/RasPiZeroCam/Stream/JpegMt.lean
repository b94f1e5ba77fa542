import RasPiZeroCam.Text
import RasPiZeroCam.Transition.Deal
import RasPiZeroCam.Transition.System

/-!
`JpegMtEncoder`: four encode threads that take frames from one queue and put JPEGs into a queue
each, and the output thread that delivers the JPEGs in the order of the frames.

* `MtEncoder`: the members, and where the threads and the destructor are.
* `MtEncoder.encode`, `MtEncoder.encodeThread`, `MtEncoder.outputThread`, `MtEncoder.destroyStep`:
  their steps, one for each critical section.
* `InOrder`: what was delivered is a prefix of what was accepted, and the next frame to deliver is
  at the front of its queue once it is encoded, but for the steps in which a thread moves it.
* `jpegs_in_order`: it holds along every run.  The indices in the queue of a thread and in its hands
  are dealt to it (`MtEncoder.stream`, `Transition.Deal`).
-/

namespace RasPiZeroCam

open Transition

/-- `JpegMtEncoder::NUM_THREADS`. -/
abbrev numThreads : ℕ := 4

/-- `JpegMtEncoder::MAX_QUEUE`. -/
def maxQueue : ℕ := 8

/-- `EncodeItem`. -/
structure EncodeItem (φ : Type*) where
  frame : φ
  index : ℕ

/-- `JpegMtEncoder::OutputItem`. -/
structure OutputItem where
  jpeg : Bytes
  index : ℕ
  threadId : Fin numThreads
  deriving DecidableEq

/-- Where an encode thread is. -/
inductive EncodePc (φ : Type*) where
  | wait                               -- for `enc_queue_`, under `enc_mutex_`
  | encode (item : EncodeItem φ)       -- the copy of the planes, and `do_encode`
  | push (item : OutputItem)           -- `out_queues_[id].push(..)`, under `out_mutex_`
  | exited

/-- `encode_thread_fn` has returned. -/
def EncodePc.hasExited {φ : Type*} : EncodePc φ → Bool
  | .exited => true
  | _ => false

/-- The index of the frame that a thread has taken and not yet pushed. -/
def EncodePc.held {φ : Type*} : EncodePc φ → List ℕ
  | .encode item => [item.index]
  | .push item => [item.index]
  | _ => []

/-- Where the output thread is. -/
inductive OutputPc where
  | wait                               -- for the fronts of `out_queues_`, under `out_mutex_`
  | deliver (item : OutputItem)        -- `output_cb_(..)`, and `++expected`
  | exited
  deriving DecidableEq

/-- Where the destructor is. -/
inductive DestroyPc where
  | alive
  | joinEncode                         -- `for (auto& t : enc_threads_) t.join()`
  | setAbortOut
  | joinOutput                         -- `out_thread_.join()`
  | destroyed
  deriving DecidableEq

/-- A `JpegMtEncoder` for frames `φ`, and its threads. -/
structure MtEncoder (φ : Type*) where
  nextIndex : ℕ
  encQueue : List (EncodeItem φ)
  abortEnc : Bool
  outQueues : Fin numThreads → List OutputItem
  abortOut : Bool
  outputCb : Bool                      -- `output_cb_` is set
  encThreads : Fin numThreads → EncodePc φ
  outThread : OutputPc
  expected : ℕ                         -- the local of `output_thread_fn`
  destroy : DestroyPc
  accepted : List φ                    -- the frames for which `encode` returned true
  delivered : List Bytes               -- what the callback received

namespace MtEncoder

variable {φ : Type*}

/-- A step of a thread. -/
inductive Step (φ : Type*) where
  | encode (frame : φ)
  | encodeThread (id : Fin numThreads)
  | outputThread
  | destroy

/-- `JpegMtEncoder(..)`, whose callback has been set. -/
def new (φ : Type*) : MtEncoder φ where
  nextIndex := 0
  encQueue := []
  abortEnc := false
  outQueues _ := []
  abortOut := false
  outputCb := true
  encThreads _ := .wait
  outThread := .wait
  expected := 0
  destroy := .alive
  accepted := []
  delivered := []

/-- `encode(frame)`, all of it under `enc_mutex_`. -/
def encode (frame : φ) (s : MtEncoder φ) : MtEncoder φ × Bool :=
  if maxQueue ≤ s.encQueue.length then (s, false)
  else
    ({ s with
        encQueue := s.encQueue ++ [⟨frame, s.nextIndex⟩]
        nextIndex := s.nextIndex + 1
        accepted := s.accepted ++ [frame] }, true)

/-- A thread goes on to `p`. -/
def goto (id : Fin numThreads) (p : EncodePc φ) (s : MtEncoder φ) : MtEncoder φ :=
  { s with encThreads := Function.update s.encThreads id p }

/-- A step of `encode_thread_fn(id)`.  A wait may end at any time. -/
def encodeThread (doEncode : φ → Bytes) (id : Fin numThreads) (s : MtEncoder φ) :
    Option (MtEncoder φ) :=
  match s.encThreads id with
  | .wait =>
      match s.encQueue with
      | [] => some (if s.abortEnc then s.goto id .exited else s)
      | item :: rest => some ({ s with encQueue := rest }.goto id (.encode item))
  | .encode item => some (s.goto id (.push ⟨doEncode item.frame, item.index, id⟩))
  | .push item =>
      some ({ s with
        outQueues := Function.update s.outQueues id (s.outQueues id ++ [item]) }.goto id .wait)
  | .exited => none

/-- The front of the queue has the index. -/
def fronts (expected : ℕ) (q : List OutputItem) : Bool :=
  match q with
  | [] => false
  | item :: _ => item.index = expected

/-- A step of `output_thread_fn()`. -/
def outputThread (s : MtEncoder φ) : Option (MtEncoder φ) :=
  match s.outThread with
  | .wait =>
      if s.abortOut && (List.finRange numThreads).all (fun id => (s.outQueues id).isEmpty) then
        some { s with outThread := .exited }
      else
        -- the first queue that has `expected`
        match (List.finRange numThreads).find? fun id => fronts s.expected (s.outQueues id) with
        | none => some s
        | some id =>
            match s.outQueues id with
            | [] => some s
            | item :: rest =>
                some { s with
                  outQueues := Function.update s.outQueues id rest
                  outThread := .deliver item }
  | .deliver item =>
      some { s with
        delivered :=
          if s.outputCb && !item.jpeg.isEmpty then s.delivered ++ [item.jpeg] else s.delivered
        expected := s.expected + 1
        outThread := .wait }
  | .exited => none

/-- A step of the destructor. -/
def destroyStep (s : MtEncoder φ) : Option (MtEncoder φ) :=
  match s.destroy with
  | .alive =>
      some { s with
        abortEnc := true
        destroy := .joinEncode }
  | .joinEncode =>
      if (List.finRange numThreads).all fun id => (s.encThreads id).hasExited then
        some { s with destroy := .setAbortOut }
      else none
  | .setAbortOut =>
      some { s with
        abortOut := true
        destroy := .joinOutput }
  | .joinOutput => if s.outThread = .exited then some { s with destroy := .destroyed } else none
  | .destroyed => none

end MtEncoder

/-- The threads of a `JpegMtEncoder`, its destructor, and any callers of `encode`. -/
def jpegMt {φ : Type*} (doEncode : φ → Bytes) : System (MtEncoder φ) (MtEncoder.Step φ) where
  init s := s = .new φ
  step s
    | .encode frame => some (s.encode frame).1
    | .encodeThread id => s.encodeThread doEncode id
    | .outputThread => s.outputThread
    | .destroy => s.destroyStep

namespace MtEncoder

variable {φ : Type*}

/-- The frame with index `n` has been accepted and encoded: it neither waits for a thread nor is one
of them still at `do_encode` with it. -/
def Encoded (s : MtEncoder φ) (n : ℕ) : Prop :=
  n < s.accepted.length ∧ (∀ item ∈ s.encQueue, item.index ≠ n) ∧
    ∀ id item, s.encThreads id = .encode item → item.index ≠ n

/-- It is at the front of one of the queues. -/
def AtFront (s : MtEncoder φ) (n : ℕ) : Prop :=
  ∃ id item rest, s.outQueues id = item :: rest ∧ item.index = n

/-- Its thread is about to push it, into an empty queue. -/
def Pushing (s : MtEncoder φ) (n : ℕ) : Prop :=
  ∃ id item, s.encThreads id = .push item ∧ item.index = n ∧ s.outQueues id = []

/-- No frame is on its way. -/
def Quiet (s : MtEncoder φ) : Prop :=
  s.encQueue = [] ∧ s.outThread = .wait ∧ ∀ id, s.outQueues id = [] ∧ (s.encThreads id).held = []

end MtEncoder

open MtEncoder

/-- **In order, each once**: the delivered JPEGs are those of a prefix of the accepted frames, of
all of them when none is on its way; and the next frame to deliver, once it is encoded, is at the
front of one of the queues, or on its way there, or in the hands of the output thread. -/
structure InOrder {φ : Type*} (doEncode : φ → Bytes) (s : MtEncoder φ) : Prop where
  delivered : s.delivered <+: s.accepted.map doEncode
  complete : s.Quiet → s.delivered = s.accepted.map doEncode
  front : s.Encoded s.expected → s.AtFront s.expected ∨ s.Pushing s.expected ∨
    ∃ item, s.outThread = .deliver item ∧ item.index = s.expected

namespace MtEncoder

variable {φ : Type*} {doEncode : φ → Bytes} {s s' : MtEncoder φ} {id : Fin numThreads}

/-! ### What is dealt to a thread -/

/-- The indices in the queue of a thread and in its hands. -/
def stream (s : MtEncoder φ) (id : Fin numThreads) : List ℕ :=
  (s.outQueues id).map (·.index) ++ (s.encThreads id).held

/-- The indices below have been collected by the output thread. -/
def low (s : MtEncoder φ) : ℕ :=
  match s.outThread with
  | .deliver _ => s.expected + 1
  | _ => s.expected

/-- The indices below have been dealt to the encode threads. -/
def dealt (s : MtEncoder φ) : ℕ := s.nextIndex - s.encQueue.length

/-- The item is the JPEG of the frame that its index says. -/
def Makes (doEncode : φ → Bytes) (s : MtEncoder φ) (item : OutputItem) : Prop :=
  ∃ f, s.accepted[item.index]? = some f ∧ item.jpeg = doEncode f

/-- What a thread has in its hands. -/
def ThreadA (doEncode : φ → Bytes) (s : MtEncoder φ) : EncodePc φ → Prop
  | .encode item => s.accepted[item.index]? = some item.frame
  | .push item => s.Makes doEncode item
  | _ => True

/-- The invariant of the threads. -/
structure Sound (doEncode : φ → Bytes) (s : MtEncoder φ) : Prop where
  callback : s.outputCb = true
  next : s.nextIndex = s.accepted.length
  fits : s.encQueue.length ≤ s.nextIndex
  queue : ∀ i item, s.encQueue[i]? = some item →
    item.index = s.dealt + i ∧ s.accepted[item.index]? = some item.frame
  deal : Deal s.stream s.low s.dealt
  threads : ∀ id, s.ThreadA doEncode (s.encThreads id)
  outs : ∀ id, ∀ item ∈ s.outQueues id, s.Makes doEncode item
  hand : ∀ item, s.outThread = .deliver item → item.index = s.expected ∧ s.Makes doEncode item
  delivered : s.delivered = (s.accepted.take s.expected).map doEncode

lemma sound_new : Sound doEncode (.new φ) where
  callback := rfl
  next := rfl
  fits := le_rfl
  queue i item h := by cases h
  deal := Deal.empty 0
  threads _ := trivial
  outs _ item h := absurd h List.not_mem_nil
  hand item h := by cases h
  delivered := rfl

/-! ### The steps -/

/-- What has been accepted stays accepted. -/
lemma getElem?_snoc {l : List φ} {n : ℕ} {f g : φ} (h : l[n]? = some f) :
    (l ++ [g])[n]? = some f := by
  rw [List.getElem?_append_left (List.getElem?_eq_some_iff.mp h).1, h]

lemma Sound.encode (h : Sound doEncode s) (frame : φ) : Sound doEncode (s.encode frame).1 := by
  rw [MtEncoder.encode]
  split_ifs
  · exact h
  have hfits := h.fits
  have hdealt : dealt { s with
      encQueue := s.encQueue ++ [⟨frame, s.nextIndex⟩]
      nextIndex := s.nextIndex + 1
      accepted := s.accepted ++ [frame] } = s.dealt := by
    simp only [dealt, List.length_append, List.length_singleton]
    omega
  have hmakes : ∀ item, s.Makes doEncode item → Makes doEncode { s with
      encQueue := s.encQueue ++ [⟨frame, s.nextIndex⟩]
      nextIndex := s.nextIndex + 1
      accepted := s.accepted ++ [frame] } item := by
    rintro item ⟨f, hf, hjpeg⟩
    exact ⟨f, getElem?_snoc hf, hjpeg⟩
  have hle : s.expected ≤ s.accepted.length := by
    have hdeal := h.deal.le
    have hlow : s.expected ≤ s.low := by
      rw [low]
      split <;> omega
    rw [← h.next]
    exact hlow.trans (hdeal.trans (Nat.sub_le _ _))
  refine ⟨h.callback, ?_, ?_, ?_, ?_, ?_, ?_, ?_, ?_⟩
  · simp only [List.length_append, List.length_singleton, h.next]
  · simp only [List.length_append, List.length_singleton]
    omega
  · intro i item hi
    rw [hdealt]
    obtain hlt | hge := Nat.lt_or_ge i s.encQueue.length
    · rw [List.getElem?_append_left hlt] at hi
      obtain ⟨hindex, hframe⟩ := h.queue i item hi
      exact ⟨hindex, getElem?_snoc hframe⟩
    · rw [List.getElem?_append_right hge, List.getElem?_singleton] at hi
      split_ifs at hi with hi0
      cases hi
      have hi' : i = s.encQueue.length := by omega
      refine ⟨?_, ?_⟩
      · simp only [dealt]
        omega
      · rw [h.next, List.getElem?_concat_length]
  · rw [hdealt]
    exact h.deal
  · intro id
    have hthread := h.threads id
    revert hthread
    dsimp only
    cases s.encThreads id with
    | encode item => exact getElem?_snoc
    | push item => exact hmakes item
    | _ => exact fun _ => trivial
  · exact fun id item hitem => hmakes item (h.outs id item hitem)
  · exact fun item hitem => ⟨(h.hand item hitem).1, hmakes item (h.hand item hitem).2⟩
  · rw [List.take_append_of_le_length hle]
    exact h.delivered

/-- A step on the queue and the hands of one thread changes what is dealt to that thread. -/
lemma stream_update (t : MtEncoder φ) {q : List OutputItem} {p : EncodePc φ}
    (hq : t.outQueues = Function.update s.outQueues id q)
    (hp : t.encThreads = Function.update s.encThreads id p) :
    t.stream = Function.update s.stream id (q.map (·.index) ++ p.held) := by
  funext j
  rw [stream, hq, hp]
  by_cases hj : j = id
  · subst hj
    rw [Function.update_self, Function.update_self, Function.update_self]
  · rw [Function.update_of_ne hj, Function.update_of_ne hj, Function.update_of_ne hj, stream]

/-- What holds in the hands of every thread, when one of them goes on to `p`. -/
lemma threads_update {p : EncodePc φ} (h : ∀ j, s.ThreadA doEncode (s.encThreads j))
    (hp : s.ThreadA doEncode p) (j : Fin numThreads) :
    s.ThreadA doEncode (Function.update s.encThreads id p j) := by
  by_cases hj : j = id
  · subst hj
    rw [Function.update_self]
    exact hp
  · rw [Function.update_of_ne hj]
    exact h j

/-- What holds of every queue, when one of them becomes `q`. -/
lemma outs_update {q : List OutputItem} (h : ∀ j, ∀ item ∈ s.outQueues j, s.Makes doEncode item)
    (hq : ∀ item ∈ q, s.Makes doEncode item) (j : Fin numThreads) :
    ∀ item ∈ Function.update s.outQueues id q j, s.Makes doEncode item := by
  by_cases hj : j = id
  · subst hj
    rw [Function.update_self]
    exact hq
  · rw [Function.update_of_ne hj]
    exact h j

/-- A thread goes on, with the same frame in its hands. -/
lemma Sound.goto (h : Sound doEncode s) {p : EncodePc φ} (hheld : p.held = (s.encThreads id).held)
    (hp : s.ThreadA doEncode p) : Sound doEncode (s.goto id p) := by
  have hstream : (s.goto id p).stream = s.stream := by
    rw [stream_update (s.goto id p) (Function.update_eq_self id s.outQueues).symm rfl, hheld]
    exact Function.update_eq_self id s.stream
  exact ⟨h.callback, h.next, h.fits, h.queue, hstream ▸ h.deal, threads_update h.threads hp, h.outs,
    h.hand, h.delivered⟩

/-- A thread takes the frame at the front of `enc_queue_`. -/
lemma Sound.takeFrame (h : Sound doEncode s) {item : EncodeItem φ} {rest : List (EncodeItem φ)}
    (hpc : s.encThreads id = .wait) (hqueue : s.encQueue = item :: rest) :
    Sound doEncode ({ s with encQueue := rest }.goto id (.encode item)) := by
  have hfits := h.fits
  rw [hqueue, List.length_cons] at hfits
  have hdealt : dealt ({ s with encQueue := rest }.goto id (.encode item)) = s.dealt + 1 := by
    simp only [dealt, MtEncoder.goto, hqueue, List.length_cons]
    omega
  obtain ⟨hindex, hframe⟩ := h.queue 0 item (by rw [hqueue]; rfl)
  have hstream : ({ s with encQueue := rest }.goto id (.encode item)).stream =
      Function.update s.stream id (s.stream id ++ [s.dealt]) := by
    rw [stream_update (MtEncoder.goto id (.encode item) { s with encQueue := rest })
      (Function.update_eq_self id s.outQueues).symm rfl]
    congr 1
    rw [stream, hpc, ← Nat.add_zero s.dealt, ← hindex]
    exact congrArg (· ++ [item.index]) (List.append_nil _).symm
  refine ⟨h.callback, h.next, ?_, ?_, ?_, threads_update h.threads hframe, h.outs, h.hand,
    h.delivered⟩
  · exact (Nat.le_succ _).trans hfits
  · intro i item' hi
    obtain ⟨hindex', hframe'⟩ := h.queue (i + 1) item' (by rw [hqueue]; exact hi)
    rw [hdealt]
    exact ⟨by omega, hframe'⟩
  · rw [hstream, hdealt]
    exact h.deal.give id

/-- A thread pushes its JPEG to its queue. -/
lemma Sound.pushItem (h : Sound doEncode s) {item : OutputItem}
    (hpc : s.encThreads id = .push item) :
    Sound doEncode ({ s with
      outQueues := Function.update s.outQueues id (s.outQueues id ++ [item]) }.goto id .wait) := by
  have hmakes : s.Makes doEncode item := by
    have hthread := h.threads id
    rwa [hpc] at hthread
  have hstream : ({ s with
      outQueues := Function.update s.outQueues id (s.outQueues id ++ [item]) }.goto id
        .wait).stream = s.stream := by
    have hsame : (s.outQueues id ++ [item]).map (·.index) ++ EncodePc.held (φ := φ) .wait =
        s.stream id := by
      rw [stream, hpc, List.map_append]
      exact List.append_nil _
    rw [stream_update _ rfl rfl, hsame]
    exact Function.update_eq_self id s.stream
  refine ⟨h.callback, h.next, h.fits, h.queue, hstream ▸ h.deal, threads_update h.threads trivial,
    outs_update h.outs ?_, h.hand, h.delivered⟩
  intro item' hitem
  obtain hold | hnew := List.mem_append.mp hitem
  · exact h.outs id item' hold
  · obtain rfl := List.mem_singleton.mp hnew
    exact hmakes

lemma Sound.encodeThread (h : Sound doEncode s) (hstep : s.encodeThread doEncode id = some s') :
    Sound doEncode s' := by
  have hthread := h.threads id
  rw [MtEncoder.encodeThread] at hstep
  cases hpc : s.encThreads id with
  | wait =>
      rw [hpc] at hstep
      dsimp only at hstep
      cases hqueue : s.encQueue with
      | nil =>
          rw [hqueue] at hstep
          cases hstep
          split_ifs
          · exact h.goto (by rw [hpc]; rfl) trivial
          · exact h
      | cons item rest =>
          rw [hqueue] at hstep
          cases hstep
          exact h.takeFrame hpc hqueue
  | encode item =>
      rw [hpc] at hstep hthread
      cases hstep
      exact h.goto (by rw [hpc]; rfl) ⟨item.frame, hthread, rfl⟩
  | push item =>
      rw [hpc] at hstep
      cases hstep
      exact h.pushItem hpc
  | exited =>
      rw [hpc] at hstep
      cases hstep

/-! ### The output thread -/

/-- The output thread takes the next JPEG from the front of a queue. -/
lemma Sound.collect (h : Sound doEncode s) (hwait : s.outThread = .wait) {item : OutputItem}
    {rest : List OutputItem} (hq : s.outQueues id = item :: rest)
    (hindex : item.index = s.expected) :
    Sound doEncode { s with
      outQueues := Function.update s.outQueues id rest
      outThread := .deliver item } := by
  have hlow : s.low = s.expected := by rw [low, hwait]
  have hfront : s.stream id = s.low :: (rest.map (·.index) ++ (s.encThreads id).held) := by
    rw [stream, hq, hlow, ← hindex]
    rfl
  have hstream : stream { s with
      outQueues := Function.update s.outQueues id rest
      outThread := .deliver item } =
      Function.update s.stream id (rest.map (·.index) ++ (s.encThreads id).held) :=
    stream_update _ rfl (Function.update_eq_self id s.encThreads).symm
  refine ⟨h.callback, h.next, h.fits, h.queue, ?_, h.threads, outs_update h.outs ?_, ?_,
    h.delivered⟩
  · rw [hstream]
    exact hlow ▸ h.deal.take hfront
  · exact fun item' hitem => h.outs id item' (hq ▸ List.mem_cons_of_mem item hitem)
  · intro item' hitem
    cases hitem
    exact ⟨hindex, h.outs id item (hq ▸ List.mem_cons_self)⟩

/-- The output thread delivers it. -/
lemma Sound.deliver (h : Sound doEncode s) (hne : ∀ f, doEncode f ≠ []) {item : OutputItem}
    (hhand : s.outThread = .deliver item) :
    Sound doEncode { s with
      delivered :=
        if s.outputCb && !item.jpeg.isEmpty then s.delivered ++ [item.jpeg] else s.delivered
      expected := s.expected + 1
      outThread := .wait } := by
  obtain ⟨hindex, f, hf, hjpeg⟩ := h.hand item hhand
  rw [hindex] at hf
  have hlow : s.low = s.expected + 1 := by rw [low, hhand]
  have htest : (s.outputCb && !item.jpeg.isEmpty) = true := by
    rw [h.callback, hjpeg]
    cases hd : doEncode f with
    | nil => exact absurd hd (hne f)
    | cons b bs => rfl
  refine ⟨h.callback, h.next, h.fits, h.queue, ?_, h.threads, h.outs,
    (fun _ hitem => by cases hitem), ?_⟩
  · exact hlow ▸ h.deal
  · rw [if_pos htest, h.delivered, hjpeg, List.take_add_one, hf, List.map_append]
    rfl

lemma Sound.outputThread (h : Sound doEncode s) (hne : ∀ f, doEncode f ≠ [])
    (hstep : s.outputThread = some s') : Sound doEncode s' := by
  rw [MtEncoder.outputThread] at hstep
  cases hpc : s.outThread with
  | wait =>
      rw [hpc] at hstep
      dsimp only at hstep
      split_ifs at hstep
      · cases hstep
        refine ⟨h.callback, h.next, h.fits, h.queue, ?_, h.threads, h.outs,
          (fun _ hitem => by cases hitem), h.delivered⟩
        have hlow : s.low = s.expected := by rw [low, hpc]
        exact hlow ▸ h.deal
      · split at hstep
        · cases hstep
          exact h
        · rename_i id hfind
          have hfront := List.find?_some hfind
          split at hstep
          · cases hstep
            exact h
          · rename_i item rest hq
            cases hstep
            rw [hq] at hfront
            exact h.collect hpc hq (by simpa [fronts] using hfront)
  | deliver item =>
      rw [hpc] at hstep
      cases hstep
      exact h.deliver hne hpc
  | exited =>
      rw [hpc] at hstep
      cases hstep

/-- The destructor touches no frame. -/
lemma Sound.destroyStep (h : Sound doEncode s) (hstep : s.destroyStep = some s') :
    Sound doEncode s' := by
  have hkeep : ∀ b c d, Sound doEncode { s with
      abortEnc := b
      abortOut := c
      destroy := d } := fun b c d =>
    ⟨h.callback, h.next, h.fits, h.queue, h.deal, h.threads, h.outs, h.hand, h.delivered⟩
  rw [MtEncoder.destroyStep] at hstep
  split at hstep
  · cases hstep
    exact hkeep true s.abortOut .joinEncode
  · split_ifs at hstep
    cases hstep
    exact hkeep s.abortEnc s.abortOut .setAbortOut
  · cases hstep
    exact hkeep s.abortEnc true .joinOutput
  · split_ifs at hstep
    cases hstep
    exact hkeep s.abortEnc s.abortOut .destroyed
  · cases hstep

/-- The run lemma. -/
lemma sound_of_reach (hne : ∀ f, doEncode f ≠ [])
    (h : (jpegMt doEncode).Reach (fun _ _ => True) s) : Sound doEncode s := by
  refine h.invariant (Sound doEncode) ?_ ?_
  · rintro s rfl
    exact sound_new
  · intro s e s' _ hs _ hstep
    cases e with
    | encode frame =>
        cases hstep
        exact hs.encode frame
    | encodeThread id => exact hs.encodeThread hstep
    | outputThread => exact hs.outputThread hne hstep
    | destroy => exact hs.destroyStep hstep

/-- A frame that waits in `enc_queue_` has not been dealt. -/
lemma Sound.mem_encQueue (h : Sound doEncode s) {n : ℕ} (hdealt : s.dealt ≤ n)
    (hn : n < s.accepted.length) : ∃ item ∈ s.encQueue, item.index = n := by
  have hfits := h.fits
  have hlt : n - s.dealt < s.encQueue.length := by
    rw [← h.next] at hn
    rw [dealt] at hdealt ⊢
    omega
  have hget : s.encQueue[n - s.dealt]? = some s.encQueue[n - s.dealt] :=
    List.getElem?_eq_getElem hlt
  refine ⟨_, List.getElem_mem hlt, ?_⟩
  rw [(h.queue _ _ hget).1]
  omega

/-- **The next frame, once encoded, is at the front of its queue**, or about to be. -/
lemma Sound.front (h : Sound doEncode s) (henc : s.Encoded s.low) :
    s.AtFront s.low ∨ s.Pushing s.low := by
  obtain ⟨hlt, hwaits, hencodes⟩ := henc
  have hdealt : s.low < s.dealt := by
    by_contra hge
    obtain ⟨item, hitem, hindex⟩ := h.mem_encQueue (Nat.le_of_not_lt hge) hlt
    exact hwaits item hitem hindex
  obtain ⟨id, hid⟩ := (h.deal.mem_iff s.low).mpr ⟨le_rfl, hdealt⟩
  obtain ⟨l, hl⟩ := h.deal.front hid
  rw [stream] at hl
  cases hq : s.outQueues id with
  | cons item rest =>
      rw [hq] at hl
      exact Or.inl ⟨id, item, rest, hq, (List.cons.inj hl).1⟩
  | nil =>
      -- then the thread has it in its hands
      rw [hq, List.map_nil, List.nil_append] at hl
      cases hpc : s.encThreads id with
      | encode item =>
          rw [hpc] at hl
          exact absurd (List.cons.inj hl).1 (hencodes id item hpc)
      | push item =>
          rw [hpc] at hl
          exact Or.inr ⟨id, item, hpc, (List.cons.inj hl).1, hq⟩
      | wait =>
          rw [hpc] at hl
          cases hl
      | exited =>
          rw [hpc] at hl
          cases hl

end MtEncoder

/-- **The JPEGs are delivered in the order in which their frames were accepted, each once**, in
every interleaving of the encode threads, the output thread, the destructor and the calls of
`encode`, when no JPEG is empty. -/
theorem jpegs_in_order {φ : Type*} {doEncode : φ → Bytes} (hne : ∀ f, doEncode f ≠ [])
    {s : MtEncoder φ} (h : (jpegMt doEncode).Reach (fun _ _ => True) s) : InOrder doEncode s := by
  have hs := sound_of_reach hne h
  refine ⟨?_, ?_, ?_⟩
  · rw [hs.delivered]
    exact (List.take_prefix _ _).map doEncode
  · rintro ⟨hqueue, hwait, hquiet⟩
    have hlow : s.low = s.expected := by rw [low, hwait]
    have hall : s.dealt ≤ s.expected := by
      by_contra hlt
      obtain ⟨id, hid⟩ := (hs.deal.mem_iff s.low).mpr ⟨le_rfl, by omega⟩
      rw [stream, (hquiet id).1, (hquiet id).2] at hid
      exact absurd hid List.not_mem_nil
    have hdealt : s.dealt = s.accepted.length := by
      rw [dealt, hqueue, List.length_nil, Nat.sub_zero, hs.next]
    rw [hs.delivered, List.take_of_length_le (hdealt ▸ hall)]
  · intro henc
    cases hpc : s.outThread with
    | deliver item => exact Or.inr (Or.inr ⟨item, rfl, (hs.hand item hpc).1⟩)
    | wait =>
        have hlow : s.low = s.expected := by rw [low, hpc]
        rw [← hlow] at henc ⊢
        exact (hs.front henc).imp id Or.inl
    | exited =>
        have hlow : s.low = s.expected := by rw [low, hpc]
        rw [← hlow] at henc ⊢
        exact (hs.front henc).imp id Or.inl

namespace MtEncoder

/-- The encode thread `id` takes `k` steps. -/
def encodes {φ : Type*} (id : Fin numThreads) (k : ℕ) : List (Step φ) :=
  List.replicate k (.encodeThread id)

end MtEncoder

/-- The second frame is encoded first, and waits for the first. -/
theorem second_jpeg_waits :
    ∃ s, (jpegMt (fun n : UInt8 => [n])).exec (fun _ _ => true) (.new UInt8)
        ([.encode 7, .encode 9] ++ encodes 0 1 ++ encodes 1 3 ++ [.outputThread] ++ encodes 0 2 ++
          List.replicate 4 .outputThread) = some s ∧
      s.delivered = [[7], [9]] ∧ InOrder (fun n : UInt8 => [n]) s := by
  have hrun : ((jpegMt (fun n : UInt8 => [n])).exec (fun _ _ => true) (.new UInt8)
      ([.encode 7, .encode 9] ++ encodes 0 1 ++ encodes 1 3 ++ [.outputThread] ++ encodes 0 2 ++
        List.replicate 4 .outputThread)).map (fun s => s.delivered) = some [[7], [9]] := by decide
  obtain ⟨s, hs, hdelivered⟩ := Option.map_eq_some_iff.mp hrun
  exact ⟨s, hs, hdelivered, jpegs_in_order (fun f => List.cons_ne_nil f [])
    (.of_exec_check (fun _ _ _ => trivial)
      (show (jpegMt (fun n : UInt8 => [n])).init (.new UInt8) from rfl) hs)⟩

/-- A JPEG that is being delivered is at the front of no queue, and `expected` is still its
index. -/
theorem jpeg_in_hand :
    ¬ ∀ s : MtEncoder UInt8, (jpegMt (fun n : UInt8 => [n])).Reach (fun _ _ => True) s →
      s.Encoded s.expected → s.AtFront s.expected := by
  intro h
  obtain ⟨s, hs⟩ := Option.isSome_iff_exists.mp (by decide :
    ((jpegMt (fun n : UInt8 => [n])).exec (fun _ _ => true) (.new UInt8)
      (.encode 7 :: encodes 0 3 ++ [.outputThread])).isSome)
  have hreach : (jpegMt (fun n : UInt8 => [n])).Reach (fun _ _ => True) s :=
    .of_exec_check (fun _ _ _ => trivial)
      (show (jpegMt (fun n : UInt8 => [n])).init (.new UInt8) from rfl) hs
  have hnil : s.encQueue = [] ∧ ∀ id, s.outQueues id = [] ∧ (s.encThreads id).held = [] := by
    cases hs
    exact ⟨rfl, by decide⟩
  have hlt : s.expected < s.accepted.length := by
    cases hs
    exact Nat.zero_lt_one
  have hencoded : s.Encoded s.expected := by
    refine ⟨hlt, by simp [hnil.1], fun id item hpc => ?_⟩
    have hheld := (hnil.2 id).2
    rw [hpc] at hheld
    cases hheld
  obtain ⟨id, item, rest, hfront, -⟩ := h s hreach hencoded
  rw [(hnil.2 id).1] at hfront
  cases hfront

end RasPiZeroCam
