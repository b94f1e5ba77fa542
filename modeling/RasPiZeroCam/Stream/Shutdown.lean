import RasPiZeroCam.Stream.JpegMt

/-!
The two-phase shutdown of `JpegMtEncoder`: the encode threads drain `enc_queue_` and are joined,
then the output thread drains the queues of JPEGs and is joined.

* `NoLateEncode`: no frame is handed over once the destructor has begun.
* `Shut`: what the two abort flags mean for the threads and the queues.  `shut_of_reach`: it holds
  along every such run.
* `Drains`: once the encode threads have been joined, every accepted frame is delivered, queued, or
  in the hands of the output thread; and with `abort_out_` set the output thread delivers them all.
* `left`: the steps the output thread has before it.  `left_outputThread`: each of its steps is one
  of them.  `shutdown_drains`: the runs drain.
* `joined_with_jpeg_in_hand`: a JPEG in the hands of the output thread is in none of the queues.
-/

namespace RasPiZeroCam

open Transition

namespace MtEncoder

variable {φ : Type*}

/-- The destructor has joined the four encode threads. -/
def Joined (s : MtEncoder φ) : Prop := s.destroy ≠ .alive ∧ s.destroy ≠ .joinEncode

/-- `encode` is not called once the destructor has begun. -/
def NoLateEncode (s : MtEncoder φ) : Step φ → Prop
  | .encode _ => s.destroy = .alive
  | _ => True

/-- How many JPEGs the queues hold. -/
def queued (s : MtEncoder φ) : ℕ := ∑ id, (s.outQueues id).length

/-- The steps of the output thread from the shutdown to its return. -/
def left (s : MtEncoder φ) : ℕ :=
  2 * s.queued +
    match s.outThread with
    | .wait => 1
    | .deliver _ => 2
    | .exited => 0

/-- One of the queues holds a JPEG. -/
def SomeQueued (s : MtEncoder φ) : Prop := ∃ id, s.outQueues id ≠ []

end MtEncoder

open MtEncoder

/-- **The shutdown drains**: what is left of the frames when the encode threads have been joined,
and what the output thread does with it when `abort_out_` is set. -/
structure Drains {φ : Type*} (doEncode : φ → Bytes) (s : MtEncoder φ) : Prop where
  kept : ∀ (n : ℕ) (f : φ), s.accepted[n]? = some f →
    s.delivered[n]? = some (doEncode f) ∨
    (∃ id, ∃ item ∈ s.outQueues id, item.index = n ∧ item.jpeg = doEncode f) ∨
    ∃ item, s.outThread = .deliver item ∧ item.index = n ∧ item.jpeg = doEncode f
  front : s.abortOut = true → s.outThread = .wait → s.SomeQueued → s.AtFront s.expected
  pass : s.abortOut = true → s.outThread = .wait → s.SomeQueued →
    ∃ s₁ s₂ item, s.outputThread = some s₁ ∧ s₁.outThread = .deliver item ∧
      item.index = s.expected ∧ s₁.outputThread = some s₂ ∧ s₂.outThread = .wait ∧
      s₂.expected = s.expected + 1 ∧ s₂.queued + 1 = s.queued
  only : s.abortOut = true → ∀ e s', NoLateEncode s e → (jpegMt doEncode).step s e = some s' →
    e = .outputThread ∨ (e = .destroy ∧ s.outThread = .exited)
  ends : s.abortOut = true → ∃ s',
    (jpegMt doEncode).exec (fun _ _ => true) s (List.replicate s.left .outputThread) = some s' ∧
      s'.outThread = .exited ∧ (∀ id, s'.outQueues id = []) ∧
      s'.delivered = s.accepted.map doEncode

namespace MtEncoder

variable {φ : Type*} {doEncode : φ → Bytes} {s s' : MtEncoder φ} {id : Fin numThreads}

/-! ### What the abort flags mean -/

/-- The invariant of the shutdown. -/
structure Shut (s : MtEncoder φ) : Prop where
  abortEnc : s.abortEnc = true → s.destroy ≠ .alive
  exited : ∀ id, s.encThreads id = .exited → s.encQueue = [] ∧ s.destroy ≠ .alive
  joined : s.Joined → ∀ id, s.encThreads id = .exited
  abortOut : s.abortOut = true → s.destroy = .joinOutput ∨ s.destroy = .destroyed
  output : s.outThread = .exited → s.abortOut = true ∧ ∀ id, s.outQueues id = []

lemma shut_new : Shut (.new φ) where
  abortEnc h := by cases h
  exited id h := by cases h
  joined h := absurd rfl h.1
  abortOut h := by cases h
  output h := by cases h

/-- The output thread is told to stop after the encode threads have been joined. -/
lemma Shut.joined_of_abortOut (h : Shut s) (habort : s.abortOut = true) : s.Joined := by
  obtain hd | hd := h.abortOut habort <;> simp [Joined, hd]

/-- A thread that runs has not been joined. -/
lemma Shut.not_joined (h : Shut s) (hpc : s.encThreads id ≠ .exited) : ¬ s.Joined :=
  fun hjoined => hpc (h.joined hjoined id)

lemma Shut.encode (h : Shut s) (halive : s.destroy = .alive) (frame : φ) :
    Shut (s.encode frame).1 := by
  rw [MtEncoder.encode]
  split_ifs
  · exact h
  · exact ⟨h.abortEnc, fun id hid => absurd halive (h.exited id hid).2, h.joined, h.abortOut,
      h.output⟩

/-- A thread that runs goes on, and may take a frame or push a JPEG. -/
lemma Shut.goOn (h : Shut s) (hpc : s.encThreads id ≠ .exited) {p : EncodePc φ} (hp : p ≠ .exited)
    {queue : List (EncodeItem φ)} (hqueue : s.encQueue = [] → queue = [])
    (outs : Fin numThreads → List OutputItem) :
    Shut ({ s with
      encQueue := queue
      outQueues := outs }.goto id p) := by
  refine ⟨h.abortEnc, fun j hj => ?_, fun hjoined => absurd hjoined (h.not_joined hpc),
    h.abortOut, fun hout => ?_⟩
  · have hne : j ≠ id := by
      rintro rfl
      exact hp (by simpa [goto] using hj)
    have hold : s.encThreads j = .exited := by simpa [goto, Function.update_of_ne hne] using hj
    exact ⟨hqueue (h.exited j hold).1, (h.exited j hold).2⟩
  · -- an output thread that has returned has waited for this one
    exact absurd (h.joined_of_abortOut (h.output hout).1) (h.not_joined hpc)

lemma Shut.encodeThread (h : Shut s) (hstep : s.encodeThread doEncode id = some s') : Shut s' := by
  rw [MtEncoder.encodeThread] at hstep
  cases hpc : s.encThreads id with
  | wait =>
      have hrun : s.encThreads id ≠ .exited := by simp [hpc]
      rw [hpc] at hstep
      cases hqueue : s.encQueue with
      | nil =>
          simp only [hqueue, Option.some.injEq] at hstep
          split_ifs at hstep with habort
          · subst hstep
            refine ⟨h.abortEnc, fun j hj => ⟨hqueue, h.abortEnc habort⟩,
              fun hjoined => absurd hjoined (h.not_joined hrun), h.abortOut, h.output⟩
          · exact hstep ▸ h
      | cons item rest =>
          simp only [hqueue, Option.some.injEq] at hstep
          subst hstep
          exact h.goOn hrun (by simp) (by simp [hqueue]) s.outQueues
  | encode item =>
      rw [hpc] at hstep
      cases hstep
      exact h.goOn (by simp [hpc]) (by simp) (fun hnil => hnil) s.outQueues
  | push item =>
      rw [hpc] at hstep
      cases hstep
      exact h.goOn (by simp [hpc]) (by simp) (fun hnil => hnil) _
  | exited =>
      rw [hpc] at hstep
      cases hstep

/-- The steps of the output thread: it waits, returns, collects the next JPEG, or delivers it. -/
lemma outputThread_cases (h : s.outputThread = some s') :
    s' = s ∨
    (s.outThread = .wait ∧ s.abortOut = true ∧ (∀ id, s.outQueues id = []) ∧
      s' = { s with outThread := .exited }) ∨
    (s.outThread = .wait ∧ ∃ id item rest, s.outQueues id = item :: rest ∧
      item.index = s.expected ∧
      s' = { s with
        outQueues := Function.update s.outQueues id rest
        outThread := .deliver item }) ∨
    ∃ item delivered, s.outThread = .deliver item ∧
      s' = { s with
        delivered := delivered
        expected := s.expected + 1
        outThread := .wait } := by
  rw [outputThread] at h
  cases hpc : s.outThread with
  | wait =>
      rw [hpc] at h
      dsimp only at h
      split_ifs at h with hempty
      · cases h
        simp only [Bool.and_eq_true, List.all_eq_true, List.isEmpty_iff] at hempty
        exact .inr (.inl ⟨rfl, hempty.1, fun id => hempty.2 id (List.mem_finRange id), rfl⟩)
      · split at h
        · cases h
          exact .inl rfl
        · rename_i id hfind
          have hfront := List.find?_some hfind
          split at h
          · cases h
            exact .inl rfl
          · rename_i item rest hq
            cases h
            rw [hq] at hfront
            exact .inr (.inr (.inl ⟨rfl, id, item, rest, hq, by simpa [fronts] using hfront, rfl⟩))
  | deliver item =>
      rw [hpc] at h
      cases h
      exact .inr (.inr (.inr ⟨item, _, rfl, rfl⟩))
  | exited =>
      rw [hpc] at h
      cases h

lemma Shut.outputThread (h : Shut s) (hstep : s.outputThread = some s') : Shut s' := by
  obtain rfl | ⟨-, habort, hnil, rfl⟩ | ⟨-, id, item, rest, hq, -, rfl⟩ | ⟨item, _, -, rfl⟩ :=
    outputThread_cases hstep
  · exact h
  · exact ⟨h.abortEnc, h.exited, h.joined, h.abortOut, fun _ => ⟨habort, hnil⟩⟩
  · exact ⟨h.abortEnc, h.exited, h.joined, h.abortOut, nofun⟩
  · exact ⟨h.abortEnc, h.exited, h.joined, h.abortOut, nofun⟩

/-- The destructor goes on, and may set the flags. -/
lemma Shut.advance (h : Shut s) {p : DestroyPc} (hp : p ≠ .alive)
    (hjoined : p ≠ .joinEncode → ∀ id, s.encThreads id = .exited) (abortEnc : Bool)
    {abortOut : Bool} (habort : abortOut = true → p = .joinOutput ∨ p = .destroyed)
    (hout : s.abortOut = true → abortOut = true) :
    Shut { s with
      destroy := p
      abortEnc := abortEnc
      abortOut := abortOut } where
  abortEnc _ := hp
  exited id hid := ⟨(h.exited id hid).1, hp⟩
  joined hafter := hjoined hafter.2
  abortOut := habort
  output hexited := ⟨hout (h.output hexited).1, (h.output hexited).2⟩

lemma Shut.destroyStep (h : Shut s) (hstep : s.destroyStep = some s') : Shut s' := by
  rw [MtEncoder.destroyStep] at hstep
  cases hd : s.destroy with
  | alive =>
      rw [hd] at hstep
      cases hstep
      refine h.advance (by simp) (fun hne => absurd rfl hne) true (fun habort => ?_)
        (fun hout => hout)
      obtain hd' | hd' := h.abortOut habort <;> simp [hd] at hd'
  | joinEncode =>
      rw [hd] at hstep
      dsimp only at hstep
      split_ifs at hstep with hall
      cases hstep
      have hexited : ∀ id, s.encThreads id = .exited := by
        intro id
        have hid := List.all_eq_true.mp hall id (List.mem_finRange id)
        cases hpc : s.encThreads id <;> simp [EncodePc.hasExited, hpc] at hid
        rfl
      refine h.advance (by simp) (fun _ => hexited) s.abortEnc (fun habort => ?_)
        (fun hout => hout)
      obtain hd' | hd' := h.abortOut habort <;> simp [hd] at hd'
  | setAbortOut =>
      rw [hd] at hstep
      cases hstep
      have hjoined : s.Joined := by simp [Joined, hd]
      exact h.advance (by simp) (fun _ => h.joined hjoined) s.abortEnc (fun _ => .inl rfl)
        (fun _ => rfl)
  | joinOutput =>
      rw [hd] at hstep
      dsimp only at hstep
      split_ifs at hstep
      cases hstep
      have hjoined : s.Joined := by simp [Joined, hd]
      exact h.advance (by simp) (fun _ => h.joined hjoined) s.abortEnc (fun _ => .inr rfl)
        (fun hout => hout)
  | destroyed =>
      rw [hd] at hstep
      cases hstep

/-- The run lemma of the shutdown. -/
lemma shut_of_reach (h : (jpegMt doEncode).Reach NoLateEncode s) : Shut s := by
  refine h.invariant Shut ?_ ?_
  · rintro s rfl
    exact shut_new
  · intro s e s' _ hs hC hstep
    cases e with
    | encode frame =>
        cases hstep
        exact hs.encode hC frame
    | encodeThread id => exact hs.encodeThread hstep
    | outputThread => exact hs.outputThread hstep
    | destroy => exact hs.destroyStep hstep

/-! ### Once the encode threads have been joined -/

/-- Nothing waits to be encoded, and no encode thread holds anything. -/
lemma Shut.all_out (h : Shut s) (hs : Sound doEncode s) (hjoined : s.Joined) :
    s.dealt = s.accepted.length ∧ ∀ id, s.stream id = (s.outQueues id).map (·.index) := by
  have hqueue : s.encQueue = [] := (h.exited 0 (h.joined hjoined 0)).1
  refine ⟨?_, fun id => ?_⟩
  · rw [dealt, hqueue, List.length_nil, Nat.sub_zero, hs.next]
  · rw [stream, h.joined hjoined id]
    exact List.append_nil _

/-- The frame that an item is made from is the one that its index says. -/
lemma Makes.jpeg_eq {item : OutputItem} {f : φ} (h : s.Makes doEncode item)
    (hf : s.accepted[item.index]? = some f) : item.jpeg = doEncode f := by
  obtain ⟨g, hg, hjpeg⟩ := h
  rw [hjpeg, Option.some.inj (hg.symm.trans hf)]

/-- A frame is delivered, or in a queue, or in the hands of the output thread. -/
lemma Shut.kept (h : Shut s) (hs : Sound doEncode s) (hjoined : s.Joined) {n : ℕ} {f : φ}
    (hf : s.accepted[n]? = some f) :
    s.delivered[n]? = some (doEncode f) ∨
    (∃ id, ∃ item ∈ s.outQueues id, item.index = n ∧ item.jpeg = doEncode f) ∨
    ∃ item, s.outThread = .deliver item ∧ item.index = n ∧ item.jpeg = doEncode f := by
  obtain ⟨hdealt, hstream⟩ := h.all_out hs hjoined
  obtain hlt | hge := Nat.lt_or_ge n s.expected
  · left
    rw [hs.delivered, List.getElem?_map, List.getElem?_take_of_lt hlt, hf]
    rfl
  · right
    obtain hlow | hlow := Nat.lt_or_ge n s.low
    · -- the only number between `expected` and `low` is the one in the hands
      right
      cases hpc : s.outThread with
      | deliver item =>
          obtain ⟨hindex, hmakes⟩ := hs.hand item hpc
          have hn : item.index = n := by
            rw [low, hpc] at hlow
            dsimp only at hlow
            omega
          exact ⟨item, rfl, hn, hmakes.jpeg_eq (hn ▸ hf)⟩
      | wait =>
          rw [low, hpc] at hlow
          dsimp only at hlow
          omega
      | exited =>
          rw [low, hpc] at hlow
          dsimp only at hlow
          omega
    · left
      have hn : n < s.dealt := hdealt ▸ (List.getElem?_eq_some_iff.mp hf).1
      obtain ⟨id, hid⟩ := (hs.deal.mem_iff n).mpr ⟨hlow, hn⟩
      rw [hstream] at hid
      obtain ⟨item, hitem, rfl⟩ := List.mem_map.mp hid
      exact ⟨id, item, hitem, rfl, (hs.outs id item hitem).jpeg_eq hf⟩

/-- **The next frame is at the front of one of the queues** when any of them holds something. -/
lemma Shut.front (h : Shut s) (hs : Sound doEncode s) (hjoined : s.Joined)
    (hwait : s.outThread = .wait) (hsome : s.SomeQueued) : s.AtFront s.expected := by
  obtain ⟨hdealt, hstream⟩ := h.all_out hs hjoined
  have hlow : s.low = s.expected := by rw [low, hwait]
  obtain ⟨id, hid⟩ := hsome
  obtain ⟨item, rest, hq⟩ := List.exists_cons_of_ne_nil hid
  have hmem : item.index ∈ s.stream id := by
    rw [hstream, hq]
    exact List.mem_cons_self
  have hencoded : s.Encoded s.low := by
    refine ⟨?_, ?_, ?_⟩
    · have hbounds := hs.deal.bounds hmem
      omega
    · rw [(h.exited 0 (h.joined hjoined 0)).1]
      exact fun _ hitem => absurd hitem List.not_mem_nil
    · intro j item hj
      cases (h.joined hjoined j).symm.trans hj
  obtain hfront | ⟨j, item, hj, -⟩ := hs.front hencoded
  · exact hlow ▸ hfront
  · cases (h.joined hjoined j).symm.trans hj

/-! ### The passes of the output thread -/

/-- Taking the front of a queue leaves one JPEG less. -/
lemma queued_update {item : OutputItem} {rest : List OutputItem}
    (hq : s.outQueues id = item :: rest) :
    (∑ j, (Function.update s.outQueues id rest j).length) + 1 = s.queued := by
  have hlengths : (fun j => (Function.update s.outQueues id rest j).length)
      = Function.update (fun j => (s.outQueues j).length) id rest.length := by
    funext j
    by_cases hj : j = id
    · subst hj
      rw [Function.update_self, Function.update_self]
    · rw [Function.update_of_ne hj, Function.update_of_ne hj]
  have hsum : s.queued = (s.outQueues id).length + ∑ j ∈ Finset.univ \ {id},
      (s.outQueues j).length :=
    Finset.sum_eq_add_sum_sdiff_singleton_of_mem (Finset.mem_univ id) _
  rw [hlengths, Finset.sum_update_of_mem (Finset.mem_univ id), hsum, hq, List.length_cons]
  omega

lemma queued_eq_zero (hnil : ∀ id, s.outQueues id = []) : s.queued = 0 := by
  simp [queued, hnil]

/-- The next frame is found at the front of a queue. -/
lemma outputThread_collect (hwait : s.outThread = .wait) (hfront : s.AtFront s.expected) :
    ∃ id item rest, s.outQueues id = item :: rest ∧ item.index = s.expected ∧
      s.outputThread = some { s with
        outQueues := Function.update s.outQueues id rest
        outThread := .deliver item } := by
  obtain ⟨id, item, rest, hq, hindex⟩ := hfront
  have hnot : ((List.finRange numThreads).all fun j => (s.outQueues j).isEmpty) = false :=
    List.all_eq_false.mpr ⟨id, List.mem_finRange id, by simp [hq]⟩
  have hfind : ((List.finRange numThreads).find?
      fun j => fronts s.expected (s.outQueues j)).isSome :=
    List.find?_isSome.mpr ⟨id, List.mem_finRange id, by simp [fronts, hq, hindex]⟩
  obtain ⟨j, hj⟩ := Option.isSome_iff_exists.mp hfind
  have hfronts := List.find?_some hj
  cases hqj : s.outQueues j with
  | nil =>
      rw [hqj] at hfronts
      cases hfronts
  | cons item' rest' =>
      refine ⟨j, item', rest', hqj, ?_, ?_⟩
      · rw [hqj] at hfronts
        simpa [fronts] using hfronts
      · rw [outputThread, hwait]
        simp only [hnot, Bool.and_false, Bool.false_eq_true, if_false, hj, hqj]

/-- With nothing queued, the output thread returns. -/
lemma outputThread_exit (hwait : s.outThread = .wait) (habort : s.abortOut = true)
    (hnil : ∀ id, s.outQueues id = []) :
    s.outputThread = some { s with outThread := .exited } := by
  rw [outputThread, hwait]
  simp [habort, hnil]

/-- **Every step of the output thread is one of those left**, and until it has returned it has a
step. -/
lemma Shut.left_outputThread (h : Shut s) (hs : Sound doEncode s) (habort : s.abortOut = true)
    (hrun : s.outThread ≠ .exited) : ∃ s', s.outputThread = some s' ∧ s'.left + 1 = s.left := by
  cases hpc : s.outThread with
  | exited => exact absurd hpc hrun
  | deliver item =>
      obtain ⟨s', hs'⟩ : ∃ s', s.outputThread = some s' := by
        rw [MtEncoder.outputThread, hpc]
        exact ⟨_, rfl⟩
      refine ⟨s', hs', ?_⟩
      rw [MtEncoder.outputThread, hpc] at hs'
      cases hs'
      rw [left, left, hpc]
      rfl
  | wait =>
      by_cases hsome : s.SomeQueued
      · obtain ⟨id, item, rest, hq, -, hstep⟩ :=
          outputThread_collect hpc (h.front hs (h.joined_of_abortOut habort) hpc hsome)
        refine ⟨_, hstep, ?_⟩
        have hless := queued_update hq
        simp only [left, queued, hpc] at hless ⊢
        omega
      · have hnil : ∀ id, s.outQueues id = [] := fun id => by
          by_contra hne
          exact hsome ⟨id, hne⟩
        refine ⟨_, outputThread_exit hpc habort hnil, ?_⟩
        simp [left, queued, hpc, hnil]

/-- The output thread, left to itself, returns with the queues empty. -/
lemma exec_left (hne : ∀ f, doEncode f ≠ []) : ∀ (n : ℕ) {s : MtEncoder φ}, Shut s →
    Sound doEncode s → s.abortOut = true → s.left = n →
    ∃ s', (jpegMt doEncode).exec (fun _ _ => true) s (List.replicate n .outputThread) = some s' ∧
      Shut s' ∧ Sound doEncode s' ∧ s'.outThread = .exited ∧ s'.accepted = s.accepted
  | 0, s, h, hs, _, hleft => by
      refine ⟨s, rfl, h, hs, ?_, rfl⟩
      cases hpc : s.outThread <;> simp [left, hpc] at hleft ⊢
  | n + 1, s, h, hs, habort, hleft => by
      have hrun : s.outThread ≠ .exited := by
        intro hexit
        have hzero := queued_eq_zero (h.output hexit).2
        rw [left, hexit, hzero] at hleft
        cases hleft
      obtain ⟨t, hstep, hless⟩ := h.left_outputThread hs habort hrun
      have hkeep : t.abortOut = s.abortOut ∧ t.accepted = s.accepted := by
        obtain rfl | ⟨-, -, -, rfl⟩ | ⟨-, _, _, _, -, -, rfl⟩ | ⟨_, _, -, rfl⟩ :=
          outputThread_cases hstep <;> exact ⟨rfl, rfl⟩
      obtain ⟨s', hexec, hshut, hsound, hexit, haccepted⟩ :=
        exec_left hne n (h.outputThread hstep) (hs.outputThread hne hstep)
          (hkeep.1.trans habort) (by omega)
      refine ⟨s', ?_, hshut, hsound, hexit, haccepted.trans hkeep.2⟩
      have hevent : (jpegMt doEncode).step s .outputThread = some t := hstep
      rw [List.replicate_succ, System.exec_cons hevent]
      exact hexec

/-- Nothing is missing when the output thread has returned. -/
lemma Shut.delivered_of_exited (h : Shut s) (hs : Sound doEncode s)
    (hexit : s.outThread = .exited) :
    s.delivered = s.accepted.map doEncode := by
  obtain ⟨habort, hnil⟩ := h.output hexit
  obtain ⟨hdealt, hstream⟩ := h.all_out hs (h.joined_of_abortOut habort)
  have hlow : s.low = s.expected := by rw [low, hexit]
  have hall : s.dealt ≤ s.expected := by
    by_contra hlt
    obtain ⟨id, hid⟩ := (hs.deal.mem_iff s.low).mpr ⟨le_rfl, by omega⟩
    rw [hstream, hnil id] at hid
    exact absurd hid List.not_mem_nil
  rw [hs.delivered, List.take_of_length_le (hdealt ▸ hall)]

/-- Once the output thread is told to stop, nothing else moves until it has returned. -/
lemma Shut.only (h : Shut s) (habort : s.abortOut = true) {e : Step φ} (hC : NoLateEncode s e)
    (hstep : (jpegMt doEncode).step s e = some s') :
    e = .outputThread ∨ (e = .destroy ∧ s.outThread = .exited) := by
  have hjoined := h.joined_of_abortOut habort
  cases e with
  | encode frame => exact absurd hC hjoined.1
  | encodeThread id =>
      have hnone : s.encodeThread doEncode id = none := by
        rw [MtEncoder.encodeThread, h.joined hjoined id]
      cases hnone.symm.trans hstep
  | outputThread => exact .inl rfl
  | destroy =>
      right
      have hstep : s.destroyStep = some s' := hstep
      rw [MtEncoder.destroyStep] at hstep
      obtain hd | hd := h.abortOut habort
      · rw [hd] at hstep
        dsimp only at hstep
        split_ifs at hstep with hexit
        exact ⟨rfl, hexit⟩
      · rw [hd] at hstep
        cases hstep

/-- A pass of the output thread with something queued delivers the next JPEG. -/
lemma Shut.pass (h : Shut s) (hs : Sound doEncode s) (habort : s.abortOut = true)
    (hwait : s.outThread = .wait) (hsome : s.SomeQueued) :
    ∃ s₁ s₂ item, s.outputThread = some s₁ ∧ s₁.outThread = .deliver item ∧
      item.index = s.expected ∧ s₁.outputThread = some s₂ ∧ s₂.outThread = .wait ∧
      s₂.expected = s.expected + 1 ∧ s₂.queued + 1 = s.queued := by
  obtain ⟨id, item, rest, hq, hindex, hstep⟩ :=
    outputThread_collect hwait (h.front hs (h.joined_of_abortOut habort) hwait hsome)
  exact ⟨_, _, item, hstep, rfl, hindex, rfl, rfl, rfl, queued_update hq⟩

end MtEncoder

/-- **The shutdown drains** in every run in which no frame is handed over once the destructor has
begun, whatever is queued and wherever the threads are at that moment, when no JPEG is empty. -/
theorem shutdown_drains {φ : Type*} {doEncode : φ → Bytes} (hne : ∀ f, doEncode f ≠ [])
    {s : MtEncoder φ} (h : (jpegMt doEncode).Reach NoLateEncode s) (hjoined : s.Joined) :
    Drains doEncode s := by
  have hshut := shut_of_reach h
  have hs : Sound doEncode s := sound_of_reach hne (h.mono fun _ _ _ => trivial)
  refine ⟨fun n f hf => hshut.kept hs hjoined hf, fun _ => hshut.front hs hjoined,
    hshut.pass hs, fun habort _ _ hC hstep => hshut.only habort hC hstep, fun habort => ?_⟩
  obtain ⟨s', hexec, hshut', hs', hexit, haccepted⟩ := exec_left hne _ hshut hs habort rfl
  refine ⟨s', hexec, hexit, (hshut'.output hexit).2, ?_⟩
  rw [hshut'.delivered_of_exited hs' hexit, haccepted]

namespace MtEncoder

/-- No frame is handed over once the destructor has begun. -/
def noLateEncode {φ : Type*} (s : MtEncoder φ) : Step φ → Bool
  | .encode _ => s.destroy = .alive
  | _ => true

lemma noLateEncode_sound {φ : Type*} (s : MtEncoder φ) (e : Step φ)
    (h : noLateEncode s e = true) : NoLateEncode s e := by
  cases e with
  | encode frame =>
      have halive : s.destroy = .alive := by simpa [noLateEncode] using h
      exact halive
  | _ => trivial

/-- Two frames, encoded by two threads; the destructor joins them, with the first JPEG in the hands
of the output thread. -/
def twoFrames : List (Step UInt8) :=
  [.encode 7, .encode 9] ++ encodes 0 3 ++ encodes 1 3 ++ [.outputThread, .destroy] ++
    encodes 0 1 ++ encodes 1 1 ++ encodes 2 1 ++ encodes 3 1 ++ [.destroy]

lemma reach_twoFrames :
    ∃ s : MtEncoder UInt8, (jpegMt fun n => [n]).exec noLateEncode (.new UInt8) twoFrames = some s ∧
      (jpegMt fun n => [n]).Reach NoLateEncode s ∧ s.Joined ∧ s.accepted[0]? = some 7 ∧
      s.delivered = [] ∧ ∀ id, ∀ item ∈ s.outQueues id, item.index ≠ 0 := by
  obtain ⟨s, hs⟩ := Option.isSome_iff_exists.mp (by decide :
    ((jpegMt fun n : UInt8 => [n]).exec noLateEncode (.new UInt8) twoFrames).isSome)
  refine ⟨s, hs, .of_exec_check noLateEncode_sound
    (show (jpegMt fun n : UInt8 => [n]).init (.new UInt8) from rfl) hs, ?_⟩
  cases hs
  exact ⟨⟨by decide, by decide⟩, by decide, by decide, by decide⟩

end MtEncoder

/-- From there the output thread delivers both. -/
theorem shutdown_drains_two :
    ∃ s, (jpegMt fun n : UInt8 => [n]).exec noLateEncode (.new UInt8) MtEncoder.twoFrames = some s ∧
      Drains (fun n : UInt8 => [n]) s := by
  obtain ⟨s, hs, hreach, hjoined, -⟩ := reach_twoFrames
  exact ⟨s, hs, shutdown_drains (fun f => List.cons_ne_nil f []) hreach hjoined⟩

/-- When the encode threads have been joined, a JPEG can be neither delivered nor queued: the output
thread has it. -/
theorem joined_with_jpeg_in_hand :
    ¬ ∀ s : MtEncoder UInt8, (jpegMt fun n : UInt8 => [n]).Reach NoLateEncode s → s.Joined →
      ∀ (n : ℕ) (f : UInt8), s.accepted[n]? = some f →
        s.delivered[n]? = some [f] ∨ ∃ id, ∃ item ∈ s.outQueues id, item.index = n := by
  intro h
  obtain ⟨s, -, hreach, hjoined, haccepted, hdelivered, hqueues⟩ := reach_twoFrames
  obtain hsome | ⟨id, item, hitem, hindex⟩ := h s hreach hjoined 0 7 haccepted
  · rw [hdelivered] at hsome
    cases hsome
  · exact hqueues id item hitem hindex

end RasPiZeroCam
