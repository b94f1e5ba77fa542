import RasPiZeroCam.Power.Polling

/-!
How often `BatteryMonitor` polls, and how soon `stop` returns.

* `AbortAt`: `abort_` is set only while `stop` waits, or while there is no thread.
* `pushes_paced`: fifty naps of 100 ms go before every push.
* `PollerPc.rank`: what the thread has left to do once `abort_` is set.
* `stop_prompt`: while `stop` waits, the thread takes at most 25 steps, among them one nap, one poll
  and one push.
* `stop_completes`: at any time it can be finished by the thread and by whoever is in `build_json`.
-/

namespace RasPiZeroCam

open Transition System Ina219

namespace BatteryMonitor

variable {ι : Type*} {sensor_ : Ina219} {s s' : MonitorState ι}

/-! ### `abort_` -/

/-- While `start` reads, `abort_` is clear, and while `stop` waits it is set; else there is no
thread that it could be set for. -/
def AbortAt (s : MonitorState ι) : Prop :=
  match s.caller with
  | .readAndStore _ => s.abort_ = false
  | .spawn => s.abort_ = false
  | .setAbort _ => True
  | .join _ => s.abort_ = true
  | _ => s.abort_ = true → s.thread_ = none

/-- A step of the caller. -/
lemma AbortAt.callerStep (h : AbortAt s)
    (hstep : BatteryMonitor.callerStep sensor_ s = some s') : AbortAt s' := by
  rw [AbortAt] at h
  rw [BatteryMonitor.callerStep] at hstep
  cases hp : s.caller <;> rw [hp] at hstep h
  case readAndStore p =>
      obtain ⟨⟨bus, data, n⟩, -, rfl⟩ := Option.map_eq_some_iff.mp hstep
      cases n <;> exact h
  case spawn =>
      rcases ht : s.thread_ with _ | t <;> rw [ht] at hstep <;> cases hstep
      · exact fun hset => by cases h.symm.trans hset
      · exact fun hset => by cases h.symm.trans hset
  case join destroy =>
      rcases ht : s.thread_ with _ | t
      · rw [ht] at hstep
        cases hstep
        cases destroy <;> exact fun _ => rfl
      · rw [ht] at hstep
        cases t <;> cases hstep
        cases destroy <;> exact fun _ => rfl
  case destroy =>
      cases hstep
      rw [AbortAt]
      rcases Bool.eq_false_or_eq_true s.abort_ with hset | hclear
      · simp only [hset, if_true]
        exact fun _ => h hset
      · simp [hclear]
  case destroyThread =>
      cases hstep
      rcases ht : s.thread_ with _ | t
      · exact fun _ => rfl
      · rw [ht] at h
        exact h
  case clearAbort =>
      cases hstep
      exact rfl
  case setAbort destroy =>
      cases hstep
      exact rfl
  case setCallback on_update =>
      cases hstep
      exact h
  all_goals cases hstep

/-- The others leave `abort_` and the caller alone, and the thread if there is none. -/
lemma AbortAt.congr (h : AbortAt s) (habort : s'.abort_ = s.abort_) (hcaller : s'.caller = s.caller)
    (hthread : s.thread_ = none → s'.thread_ = none) : AbortAt s' := by
  rw [AbortAt] at h ⊢
  rw [hcaller, habort]
  cases hc : s.caller <;> rw [hc] at h <;> first | exact h | exact fun hset => hthread (h hset)

section Run

variable [DecidableEq ι]

/-- **So it is in every run.** -/
lemma reach_abortAt {C : MonitorState ι → MonitorStep ι → Prop}
    (h : (monitorSystem sensor_ ι).Reach C s) : AbortAt s := by
  refine h.invariant AbortAt ?_ ?_
  · rintro _ ⟨bus, rfl⟩
    exact fun _ => rfl
  · intro s e s' _ habort _ hstep
    have hcall : ∀ pc started, BatteryMonitor.call pc started s = some s' →
        ((s.abort_ = true → s.thread_ = none) → AbortAt { s with
          caller := pc
          started := started }) → AbortAt s' := by
      intro pc started hcall hpc
      rw [BatteryMonitor.call] at hcall
      split at hcall
      · rename_i hidle
        cases hcall
        rw [AbortAt, hidle] at habort
        exact hpc habort
      · cases hcall
    cases e with
    | start on_update => exact hcall _ _ hstep id
    | stop => exact hcall _ _ hstep fun _ => trivial
    | destroy => exact hcall _ _ hstep id
    | caller => exact habort.callerStep hstep
    | poller =>
        have hlive : s.thread_ = none → s'.thread_ = none := by
          intro hnone
          simp only [monitorSystem, BatteryMonitor.pollerStep, hnone] at hstep
          cases hstep
        rcases pollerStep_cases hstep with ⟨p, bus, data, n, -, -, rfl⟩ | ⟨p, data, n, -, -, rfl⟩ |
          ⟨-, -, -, -, hcaller, -, hset, -⟩
        · exact habort.congr rfl rfl hlive
        · exact habort.congr rfl rfl hlive
        · exact habort.congr hset hcaller hlive
    | client i =>
        obtain ⟨p, -, hstep⟩ := Option.bind_eq_some_iff.mp hstep
        obtain ⟨r, -, rfl⟩ := Option.map_eq_some_iff.mp hstep
        exact habort.congr rfl rfl id
    | getJson i =>
        simp only [monitorSystem] at hstep
        split at hstep <;> cases hstep
        exact habort.congr rfl rfl id

end Run

/-! ### The pace -/

/-- The naps behind the thread at each of its points. -/
def PacedAt (s : MonitorState ι) : PollerPc → Prop
  | .sleepTest i => POLL_INTERVAL_S * 10 * s.polled.length + i ≤ s.slept
  | .sleep i => POLL_INTERVAL_S * 10 * s.polled.length + i ≤ s.slept
  | .check => POLL_INTERVAL_S * 10 * s.polled.length ≤ s.slept ∧
      (s.abort_ = true ∨ POLL_INTERVAL_S * 10 * (s.polled.length + 1) ≤ s.slept)
  | .readAndStore _ => POLL_INTERVAL_S * 10 * (s.polled.length + 1) ≤ s.slept
  | _ => POLL_INTERVAL_S * 10 * s.polled.length ≤ s.slept

/-- So it is for the thread, if there is one. -/
def Paced (s : MonitorState ι) : Prop :=
  POLL_INTERVAL_S * 10 * s.polled.length ≤ s.slept ∧ ∀ p, s.thread_ = some p → PacedAt s p

lemma pacedAt_le {p : PollerPc} (h : PacedAt s p) :
    POLL_INTERVAL_S * 10 * s.polled.length ≤ s.slept := by
  cases p <;> simp only [PacedAt, POLL_INTERVAL_S] at h ⊢ <;> omega

/-- A step of the thread. -/
lemma Paced.pollerStep (h : Paced s) (hstep : BatteryMonitor.pollerStep sensor_ s = some s') :
    Paced s' := by
  have hall : ∀ t : MonitorState ι, (∀ p, t.thread_ = some p → PacedAt t p) →
      (∃ p, t.thread_ = some p) → Paced t :=
    fun t ht ⟨p, hp⟩ => ⟨pacedAt_le (ht p hp), ht⟩
  rw [BatteryMonitor.pollerStep] at hstep
  rcases ht : s.thread_ with _ | t
  · rw [ht] at hstep
    cases hstep
  have hat := h.2 t ht
  rw [ht] at hstep
  cases t <;> simp only at hstep
  case ended => cases hstep
  case readAndStore p =>
      obtain ⟨⟨bus, data, n⟩, -, rfl⟩ := Option.map_eq_some_iff.mp hstep
      refine hall _ (fun q hq => ?_) ⟨_, rfl⟩
      cases hq
      cases n with
      | inl q => simpa [PacedAt] using hat
      | inr r => simpa [PacedAt] using hat
  case build p =>
      obtain ⟨⟨data, n⟩, -, rfl⟩ := Option.map_eq_some_iff.mp hstep
      refine hall _ (fun q hq => ?_) ⟨_, rfl⟩
      cases hq
      cases n <;> exact hat
  case sleepTest i =>
      cases hstep
      refine hall _ (fun q hq => ?_) ⟨_, rfl⟩
      cases hq
      have hle : POLL_INTERVAL_S * 10 * s.polled.length + i ≤ s.slept := hat
      split_ifs with htest
      · exact hle
      · -- the loop is left after fifty naps, or because of `abort_`
        refine ⟨(Nat.le_add_right _ _).trans hle, ?_⟩
        rcases Bool.eq_false_or_eq_true s.abort_ with habort | habort
        · exact Or.inl habort
        · have hi : ¬ i < POLL_INTERVAL_S * 10 := fun hi => htest ⟨hi, habort⟩
          have hnext : POLL_INTERVAL_S * 10 * (s.polled.length + 1) ≤
              POLL_INTERVAL_S * 10 * s.polled.length + i := by
            rw [Nat.mul_succ]
            omega
          exact Or.inr (hnext.trans hle)
  case sleep i =>
      cases hstep
      refine hall _ (fun q hq => ?_) ⟨_, rfl⟩
      cases hq
      exact Nat.succ_le_succ hat
  case check =>
      cases hstep
      refine hall _ (fun q hq => ?_) ⟨_, rfl⟩
      cases hq
      split_ifs with habort
      · exact hat.1
      · exact hat.2.resolve_left habort
  case test =>
      cases hstep
      refine hall _ (fun q hq => ?_) ⟨_, rfl⟩
      cases hq
      split_ifs
      · exact hat
      · exact hat
  case testCallback =>
      cases hstep
      refine hall _ (fun q hq => ?_) ⟨_, rfl⟩
      cases hq
      split_ifs <;> exact hat
  all_goals
    cases hstep
    refine hall _ (fun q hq => ?_) ⟨_, rfl⟩
    cases hq
    exact hat

/-- A step that leaves the thread and its naps alone, and clears `abort_` only without a thread. -/
lemma Paced.congr (h : Paced s) (hpolled : s'.polled = s.polled) (hslept : s'.slept = s.slept)
    (hthread : ∀ p, s'.thread_ = some p → s.thread_ = some p ∨ p = .test)
    (habort : s.thread_ = none ∨ (s.abort_ = true → s'.abort_ = true)) : Paced s' := by
  refine ⟨by rw [hpolled, hslept]; exact h.1, fun p hp => ?_⟩
  rcases hthread p hp with hold | rfl
  · have hset : s.abort_ = true → s'.abort_ = true :=
      habort.resolve_left fun hnone => by cases hnone.symm.trans hold
    have hat := h.2 p hold
    cases p <;> simp only [PacedAt, hpolled, hslept] at hat ⊢
    case check => exact ⟨hat.1, hat.2.imp_left hset⟩
    all_goals exact hat
  · show POLL_INTERVAL_S * 10 * s'.polled.length ≤ s'.slept
    rw [hpolled, hslept]
    exact h.1

/-- A step of the caller. -/
lemma Paced.callerStep (h : Paced s) (habort : AbortAt s)
    (hstep : BatteryMonitor.callerStep sensor_ s = some s') : Paced s' := by
  rw [BatteryMonitor.callerStep] at hstep
  cases hp : s.caller <;> rw [hp] at hstep
  case clearAbort =>
      cases hstep
      refine h.congr rfl rfl (fun p hp => Or.inl hp) ?_
      rw [AbortAt, hp] at habort
      rcases Bool.eq_false_or_eq_true s.abort_ with hset | hclear
      · exact Or.inl (habort hset)
      · exact Or.inr fun hset => by cases hclear.symm.trans hset
  case readAndStore p =>
      obtain ⟨r, -, rfl⟩ := Option.map_eq_some_iff.mp hstep
      exact h.congr rfl rfl (fun p hp => Or.inl hp) (Or.inr id)
  case spawn =>
      rcases ht : s.thread_ with _ | t
      · rw [ht] at hstep
        cases hstep
        exact h.congr rfl rfl (fun p hp => Or.inr (Option.some.inj hp).symm) (Or.inr id)
      · rw [ht] at hstep
        cases hstep
        exact h.congr rfl rfl (fun p hp => Or.inl (ht.trans hp)) (Or.inr id)
  case setAbort destroy =>
      cases hstep
      exact h.congr rfl rfl (fun p hp => Or.inl hp) (Or.inr fun _ => rfl)
  case join destroy =>
      rcases ht : s.thread_ with _ | t
      · rw [ht] at hstep
        cases hstep
        exact h.congr rfl rfl (fun p hp => (by cases hp)) (Or.inr id)
      · rw [ht] at hstep
        cases t <;> cases hstep
        exact h.congr rfl rfl (fun p hp => (by cases hp)) (Or.inr id)
  all_goals
    cases hstep <;> exact h.congr rfl rfl (fun p hp => Or.inl hp) (Or.inr id)

section Run

variable [DecidableEq ι]

/-- **Every run is paced.** -/
lemma reach_paced {C : MonitorState ι → MonitorStep ι → Prop}
    (h : (monitorSystem sensor_ ι).Reach C s) : Paced s := by
  refine h.invariant Paced ?_ ?_
  · rintro _ ⟨bus, rfl⟩
    exact ⟨le_rfl, fun p hp => by cases hp⟩
  · intro s e s' hs hpaced _ hstep
    have hcall : ∀ pc started, BatteryMonitor.call pc started s = some s' → Paced s' := by
      intro pc started hcall
      rw [BatteryMonitor.call] at hcall
      split at hcall <;> cases hcall
      exact hpaced.congr rfl rfl (fun p hp => Or.inl hp) (Or.inr id)
    cases e with
    | start on_update => exact hcall _ _ hstep
    | stop => exact hcall _ _ hstep
    | destroy => exact hcall _ _ hstep
    | caller => exact hpaced.callerStep (reach_abortAt hs) hstep
    | poller => exact hpaced.pollerStep hstep
    | client i =>
        obtain ⟨p, -, hstep⟩ := Option.bind_eq_some_iff.mp hstep
        obtain ⟨r, -, rfl⟩ := Option.map_eq_some_iff.mp hstep
        exact hpaced.congr rfl rfl (fun p hp => Or.inl hp) (Or.inr id)
    | getJson i =>
        simp only [monitorSystem] at hstep
        split at hstep <;> cases hstep
        exact hpaced.congr rfl rfl (fun p hp => Or.inl hp) (Or.inr id)

end Run

/-! ### Pushes and polls -/

/-- The record that the thread has stored and not pushed yet. -/
def PollerPc.pending : PollerPc → ℕ
  | .testCallback => 1
  | .build _ => 1
  | .push _ => 1
  | _ => 0

/-- No push without a poll before it. -/
def Behind (s : MonitorState ι) : Prop :=
  s.pushed.length + s.thread_.elim 0 PollerPc.pending ≤ s.polled.length

/-- A step of the thread. -/
lemma Behind.pollerStep (h : Behind s) (hstep : BatteryMonitor.pollerStep sensor_ s = some s') :
    Behind s' := by
  rw [Behind] at h
  rw [BatteryMonitor.pollerStep] at hstep
  rcases ht : s.thread_ with _ | t
  · rw [ht] at hstep
    cases hstep
  rw [ht] at h hstep
  cases t <;> simp only at hstep
  case readAndStore p =>
      obtain ⟨⟨bus, data, n⟩, -, rfl⟩ := Option.map_eq_some_iff.mp hstep
      rw [Behind]
      cases n <;> simpa [PollerPc.pending] using h
  case build p =>
      obtain ⟨⟨data, n⟩, -, rfl⟩ := Option.map_eq_some_iff.mp hstep
      cases n <;> exact h
  case push r =>
      cases hstep
      rw [Behind]
      simpa [PollerPc.pending] using h
  case ended => cases hstep
  all_goals
    cases hstep
    rw [Behind]
    simp only [Option.elim_some, PollerPc.pending] at h ⊢
    first | exact h | (split_ifs <;> exact h) | (split_ifs <;> simp only at * <;> omega)

/-- A step of the caller, who has no record. -/
lemma Behind.callerStep (h : Behind s) (hstep : BatteryMonitor.callerStep sensor_ s = some s') :
    Behind s' := by
  rw [Behind] at h
  have hle : s.pushed.length ≤ s.polled.length := (Nat.le_add_right _ _).trans h
  rw [BatteryMonitor.callerStep] at hstep
  cases hp : s.caller <;> rw [hp] at hstep
  case readAndStore p =>
      obtain ⟨r, -, rfl⟩ := Option.map_eq_some_iff.mp hstep
      exact h
  case spawn =>
      rcases ht : s.thread_ with _ | t <;> rw [ht] at hstep h <;> cases hstep
      · exact hle
      · exact h
  case join destroy =>
      rcases ht : s.thread_ with _ | t
      · rw [ht] at hstep
        cases hstep
        exact hle
      · rw [ht] at hstep
        cases t <;> cases hstep
        exact hle
  all_goals cases hstep <;> exact h

section Run

variable [DecidableEq ι]

/-- **So it is in every run.** -/
lemma reach_behind {C : MonitorState ι → MonitorStep ι → Prop}
    (h : (monitorSystem sensor_ ι).Reach C s) : Behind s := by
  refine h.invariant Behind ?_ ?_
  · rintro _ ⟨bus, rfl⟩
    exact le_rfl
  · intro s e s' _ hbehind _ hstep
    have hcall : ∀ pc started, BatteryMonitor.call pc started s = some s' → Behind s' := by
      intro pc started hcall
      rw [BatteryMonitor.call] at hcall
      split at hcall <;> cases hcall
      exact hbehind
    cases e with
    | start on_update => exact hcall _ _ hstep
    | stop => exact hcall _ _ hstep
    | destroy => exact hcall _ _ hstep
    | caller => exact hbehind.callerStep hstep
    | poller => exact hbehind.pollerStep hstep
    | client i =>
        obtain ⟨p, -, hstep⟩ := Option.bind_eq_some_iff.mp hstep
        obtain ⟨r, -, rfl⟩ := Option.map_eq_some_iff.mp hstep
        exact hbehind
    | getJson i =>
        simp only [monitorSystem] at hstep
        split at hstep <;> cases hstep
        exact hbehind

end Run

/-! ### After `abort_` -/

/-- The steps that a call has left. -/
def StorePc.rank : StorePc → ℕ
  | .read p => 8 + p.left
  | .lock _ => 8
  | .store _ left => 1 + left.length

def BuildPc.rank : BuildPc → ℕ
  | .lock => 8
  | .print _ left => 1 + left.length

/-- Those of the thread, once `abort_` is set. -/
def PollerPc.rank : PollerPc → ℕ
  | .ended => 0
  | .test => 1
  | .check => 1
  | .sleepTest _ => 2
  | .sleep _ => 3
  | .warn => 2
  | .push _ => 3
  | .build p => 3 + p.rank
  | .testCallback => 12
  | .readAndStore p => 12 + p.rank

/-- The naps, the polls and the pushes among them. -/
def PollerPc.naps : PollerPc → ℕ
  | .sleep _ => 1
  | _ => 0

def PollerPc.polls : PollerPc → ℕ
  | .readAndStore _ => 1
  | _ => 0

def PollerPc.pushes : PollerPc → ℕ
  | .readAndStore _ => 1
  | .testCallback => 1
  | .build _ => 1
  | .push _ => 1
  | _ => 0

/-- Under the lock, at most the six members are left. -/
lemma PollerPc.rank_le {p : PollerPc} (h : p.view.Suffix batteryMembers) : p.rank ≤ 25 := by
  have hall : ∀ left : List Member, left <:+ batteryMembers.all → left.length ≤ 6 :=
    fun left hleft => hleft.length_le
  rcases p with _ | _ | _ | _ | (q | r | ⟨r, left⟩) | _ | (_ | ⟨acc, left⟩) | _ | _ | _
  case readAndStore.read =>
      cases q <;> simp [rank, StorePc.rank, ReadPc.left]
  case readAndStore.store =>
      have hleft := hall left h
      simp only [rank, StorePc.rank]
      omega
  case build.print =>
      have hleft := hall left h
      simp only [rank, BuildPc.rank]
      omega
  all_goals simp [rank, StorePc.rank, BuildPc.rank]

/-- A step of `read_and_store` leaves less to do. -/
lemma storeStep_rank {x : Who ι} {p : StorePc} {bus bus' : I2c}
    {data data' : SharedRecord (Who ι) BatteryRecord} {n : StorePc ⊕ BatteryRecord}
    (h : storeStep sensor_ x p bus data = some (bus', data', n)) :
    n.elim StorePc.rank (fun _ => 0) + 1 ≤ p.rank := by
  rcases p with p | r | ⟨r, _ | ⟨m, left⟩⟩
  · rw [storeStep] at h
    rcases hread : readStep sensor_ p bus with ⟨bus, q | r⟩ <;> rw [hread] at h <;> cases h
    · cases p <;> cases hread <;> simp [StorePc.rank, ReadPc.left]
    · simp only [Sum.elim_inl, StorePc.rank]
      cases p <;> simp [ReadPc.left]
  · rw [storeStep] at h
    split at h <;> cases h
    simp [StorePc.rank, batteryMembers]
  · cases h
    simp [StorePc.rank]
  · cases h
    simp only [Sum.elim_inl, StorePc.rank, List.length_cons]
    omega

/-- So does one of `build_json`. -/
lemma buildStep_rank {x : Who ι} {p : BuildPc} {data data' : SharedRecord (Who ι) BatteryRecord}
    {n : BuildPc ⊕ BatteryRecord} (h : buildStep x p data = some (data', n)) :
    n.elim BuildPc.rank (fun _ => 0) + 1 ≤ p.rank := by
  rcases p with _ | ⟨acc, _ | ⟨m, left⟩⟩
  · rw [buildStep] at h
    split at h <;> cases h
    simp [BuildPc.rank, batteryMembers]
  · cases h
    simp [BuildPc.rank]
  · cases h
    simp only [Sum.elim_inl, BuildPc.rank, List.length_cons]
    omega

/-- What the thread has left to do, and what it will have done at the end. -/
def rest (s : MonitorState ι) : ℕ := s.thread_.elim 0 PollerPc.rank

def napsAtEnd (s : MonitorState ι) : ℕ := s.slept + s.thread_.elim 0 PollerPc.naps

def pollsAtEnd (s : MonitorState ι) : ℕ := s.polled.length + s.thread_.elim 0 PollerPc.polls

def pushesAtEnd (s : MonitorState ι) : ℕ := s.pushed.length + s.thread_.elim 0 PollerPc.pushes

/-- No step of the run has done more than was to be done. -/
structure Spent (s s' : MonitorState ι) (steps : ℕ) : Prop where
  rest : rest s' + steps ≤ rest s
  naps : napsAtEnd s' ≤ napsAtEnd s
  polls : pollsAtEnd s' ≤ pollsAtEnd s
  pushes : pushesAtEnd s' ≤ pushesAtEnd s

/-- Runs one after the other. -/
lemma Spent.trans {s'' : MonitorState ι} {m n : ℕ} (h : Spent s s' m) (h' : Spent s' s'' n) :
    Spent s s'' (m + n) where
  rest := by
    have h₁ := h.rest
    have h₂ := h'.rest
    omega
  naps := h'.naps.trans h.naps
  polls := h'.polls.trans h.polls
  pushes := h'.pushes.trans h.pushes

/-- The thread was left alone. -/
lemma Spent.of_same (hthread : s'.thread_ = s.thread_) (hslept : s'.slept = s.slept)
    (hpolled : s'.polled = s.polled) (hpushed : s'.pushed = s.pushed) : Spent s s' 0 where
  rest := by rw [BatteryMonitor.rest, BatteryMonitor.rest, hthread]; rfl
  naps := by rw [napsAtEnd, napsAtEnd, hthread, hslept]
  polls := by rw [pollsAtEnd, pollsAtEnd, hthread, hpolled]
  pushes := by rw [pushesAtEnd, pushesAtEnd, hthread, hpushed]

/-- A step of the thread after `abort_`. -/
lemma pollerStep_spent (habort : s.abort_ = true)
    (h : BatteryMonitor.pollerStep sensor_ s = some s') : Spent s s' 1 := by
  rw [BatteryMonitor.pollerStep] at h
  rcases ht : s.thread_ with _ | t
  · rw [ht] at h
    cases h
  rw [ht] at h
  cases t <;> simp only [habort] at h
  case ended => cases h
  case readAndStore p =>
      obtain ⟨⟨bus, data, n⟩, hstore, rfl⟩ := Option.map_eq_some_iff.mp h
      have hrank := storeStep_rank hstore
      cases n with
      | inl q =>
          simp only [Sum.elim_inl] at hrank
          constructor <;> simp [rest, napsAtEnd, pollsAtEnd, pushesAtEnd, ht, PollerPc.rank,
            PollerPc.naps, PollerPc.polls, PollerPc.pushes]
          omega
      | inr r =>
          simp only [Sum.elim_inr] at hrank
          constructor <;> simp [rest, napsAtEnd, pollsAtEnd, pushesAtEnd, ht, PollerPc.rank,
            PollerPc.naps, PollerPc.polls, PollerPc.pushes]
          omega
  case build p =>
      obtain ⟨⟨data, n⟩, hbuild, rfl⟩ := Option.map_eq_some_iff.mp h
      have hrank := buildStep_rank hbuild
      cases n with
      | inl q =>
          simp only [Sum.elim_inl] at hrank
          constructor <;> simp [rest, napsAtEnd, pollsAtEnd, pushesAtEnd, ht, PollerPc.rank,
            PollerPc.naps, PollerPc.polls, PollerPc.pushes]
          omega
      | inr r =>
          simp only [Sum.elim_inr] at hrank
          constructor <;> simp [rest, napsAtEnd, pollsAtEnd, pushesAtEnd, ht, PollerPc.rank,
            PollerPc.naps, PollerPc.polls, PollerPc.pushes]
          omega
  case testCallback =>
      cases h
      constructor <;> cases s.push_cb_ <;> simp [rest, napsAtEnd, pollsAtEnd, pushesAtEnd, ht,
        PollerPc.rank, BuildPc.rank, PollerPc.naps, PollerPc.polls, PollerPc.pushes]
  all_goals
    cases h
    constructor <;> simp [rest, napsAtEnd, pollsAtEnd, pushesAtEnd, ht, PollerPc.rank,
      PollerPc.naps, PollerPc.polls, PollerPc.pushes]

/-! ### While `stop` waits -/

/-- `stop` is at `thread_.join()`. -/
def joining (s : MonitorState ι) : Bool :=
  match s.caller with
  | .join _ => true
  | _ => false

lemma joining_iff : joining s = true ↔ ∃ destroy, s.caller = .join destroy := by
  rw [joining]
  cases s.caller <;> simp

/-- The waiting caller has set `abort_`. -/
lemma abort_of_joining (h : AbortAt s) (hjoin : joining s = true) : s.abort_ = true := by
  obtain ⟨destroy, hc⟩ := joining_iff.mp hjoin
  rw [AbortAt, hc] at h
  exact h

variable [DecidableEq ι]

/-- A step while `stop` waits. -/
lemma step_spent (hjoin : joining s = true) (habort : s.abort_ = true) {e : MonitorStep ι}
    (h : (monitorSystem sensor_ ι).step s e = some s') :
    Spent s s' (if e = .poller then 1 else 0) ∧ s'.abort_ = true := by
  obtain ⟨destroy, hc⟩ := joining_iff.mp hjoin
  have hcall : ∀ pc started, BatteryMonitor.call pc started s ≠ some s' := by
    intro pc started hcall
    rw [BatteryMonitor.call, hc] at hcall
    cases hcall
  cases e with
  | start on_update => exact absurd h (hcall _ _)
  | stop => exact absurd h (hcall _ _)
  | destroy => exact absurd h (hcall _ _)
  | caller =>
      simp only [monitorSystem, BatteryMonitor.callerStep, hc] at h
      rcases ht : s.thread_ with _ | t
      · rw [ht] at h
        cases h
        exact ⟨.of_same ht.symm rfl rfl rfl, habort⟩
      · rw [ht] at h
        cases t <;> cases h
        refine ⟨?_, habort⟩
        constructor <;> simp [rest, napsAtEnd, pollsAtEnd, pushesAtEnd, ht]
  | poller =>
      refine ⟨pollerStep_spent habort h, ?_⟩
      rcases pollerStep_cases h with ⟨p, bus, data, n, -, -, rfl⟩ | ⟨p, data, n, -, -, rfl⟩ |
        ⟨-, -, -, -, -, -, hsame, -⟩
      · exact habort
      · exact habort
      · exact hsame.trans habort
  | client i =>
      obtain ⟨p, -, h⟩ := Option.bind_eq_some_iff.mp h
      obtain ⟨r, -, rfl⟩ := Option.map_eq_some_iff.mp h
      exact ⟨.of_same rfl rfl rfl rfl, habort⟩
  | getJson i =>
      simp only [monitorSystem] at h
      split at h <;> cases h
      exact ⟨.of_same rfl rfl rfl rfl, habort⟩

/-- A run while `stop` waits. -/
lemma run_spent {es : List (MonitorStep ι)} : ∀ {s : MonitorState ι}, s.abort_ = true →
    (monitorSystem sensor_ ι).exec (fun s _ => joining s) s es = some s' →
      Spent s s' (es.count .poller) := by
  induction es with
  | nil =>
      intro s _ hrun
      cases hrun
      exact .of_same rfl rfl rfl rfl
  | cons e es ih =>
      intro s habort hrun
      rw [System.exec] at hrun
      split_ifs at hrun with hjoin
      obtain ⟨t, hstep, hrun⟩ := Option.bind_eq_some_iff.mp hrun
      obtain ⟨hspent, habort'⟩ := step_spent hjoin habort hstep
      have htotal := hspent.trans (ih habort' hrun)
      have hcount : (e :: es).count .poller =
          (if e = .poller then 1 else 0) + es.count .poller := by
        rw [List.count_cons, Nat.add_comm]
        simp only [beq_iff_eq]
      rw [hcount]
      exact htotal

/-! ### Somebody can go on -/

/-- The steps that a client has left under the lock. -/
def holding (s : MonitorState ι) : ℕ :=
  match s.data.owner with
  | some (.client i) => (s.clients i).elim 0 BuildPc.rank
  | _ => 0

omit [DecidableEq ι] in
/-- The thread never keeps a client in the mutex longer. -/
lemma holding_le (hclients : s'.clients = s.clients)
    (howner : s'.data.owner = s.data.owner ∨ s'.data.owner = some .poller ∨ s'.data.owner = none) :
    holding s' ≤ holding s := by
  rcases howner with h | h | h
  · rw [holding, holding, h, hclients]
  · rw [holding, h]
    exact Nat.zero_le _
  · rw [holding, h]
    exact Nat.zero_le _

omit [DecidableEq ι] in
/-- The thread can go on, unless it waits for the mutex. -/
lemma pollerStep_enabled (sensor_ : Ina219) {p : PollerPc} (hp : s.thread_ = some p)
    (hlive : p ≠ .ended) :
    (∃ s', BatteryMonitor.pollerStep sensor_ s = some s') ∨
      ∃ x, s.data.owner = some x ∧ p.view = .out := by
  rw [BatteryMonitor.pollerStep, hp]
  rcases p with _ | _ | _ | _ | (q | r | ⟨r, _ | ⟨m, left⟩⟩) | _ | (_ | ⟨acc, _ | ⟨m, left⟩⟩) | _ |
    _ | _
  case ended => exact absurd rfl hlive
  case readAndStore.lock =>
      rcases howner : s.data.owner with _ | x
      · refine Or.inl ?_
        simp [storeStep, howner]
      · exact Or.inr ⟨x, rfl, rfl⟩
  case build.lock =>
      rcases howner : s.data.owner with _ | x
      · refine Or.inl ?_
        simp [buildStep, howner]
      · exact Or.inr ⟨x, rfl, rfl⟩
  case readAndStore.read =>
      refine Or.inl ?_
      simp only [storeStep]
      rcases readStep sensor_ q s.bus with ⟨bus, q' | r⟩ <;> exact ⟨_, rfl⟩
  all_goals exact Or.inl ⟨_, rfl⟩

/-- The steps of the thread, of the caller, and of the client that holds the mutex. -/
def helps (s : MonitorState ι) : MonitorStep ι → Bool
  | .poller => true
  | .caller => true
  | .client i =>
      match s.data.owner with
      | some (.client j) => decide (i = j)
      | _ => false
  | _ => false

/-- While the thread has not ended, it or the client that holds the mutex can go on, towards the
end. -/
lemma joining_progress (sensor_ : Ina219)
    (hwhole : Whole batteryMembers (view s) s.data) (hjoin : joining s = true)
    (habort : s.abort_ = true) {p : PollerPc} (hp : s.thread_ = some p) (hlive : p ≠ .ended) :
    ∃ e s', helps s e = true ∧ (monitorSystem sensor_ ι).step s e = some s' ∧
      rest s' + holding s' < rest s + holding s ∧ s'.caller = s.caller ∧ s'.thread_ ≠ none := by
  obtain ⟨destroy, hc⟩ := joining_iff.mp hjoin
  rcases pollerStep_enabled sensor_ hp hlive with ⟨s', hstep⟩ | ⟨x, howner, hout⟩
  · -- the thread goes on
    have hspent := (pollerStep_spent habort hstep).rest
    refine ⟨.poller, s', rfl, hstep, ?_⟩
    rcases pollerStep_cases hstep with ⟨q, bus, data, n, -, hstore, rfl⟩ |
      ⟨q, data, n, -, hbuild, rfl⟩ | ⟨-, ⟨q, hq, -⟩, hdata, -, hcaller, hclients, -⟩
    · have hle : holding { s with
          bus := bus
          data := data
          thread_ := some (n.elim .readAndStore fun _ => .testCallback)
          polled := s.polled ++ (n.elim (fun _ => []) fun r => [r]) } ≤ holding s :=
        holding_le rfl (storeStep_move hstore).owner
      exact ⟨by omega, rfl, by simp⟩
    · have hle : holding { s with
          data := data
          thread_ := some (n.elim .build .push) } ≤ holding s :=
        holding_le rfl (buildStep_move hbuild).owner
      exact ⟨by omega, rfl, by simp⟩
    · have hle : holding s' ≤ holding s := holding_le hclients (Or.inl (by rw [hdata]))
      exact ⟨by omega, hcaller, by simp [hq]⟩
  · -- whoever holds the mutex is a client in `build_json`
    have hin : view s x ≠ .out := (hwhole.held x).mpr howner
    cases x with
    | caller =>
        refine absurd ?_ hin
        rw [view, hc]
        rfl
    | poller =>
        refine absurd ?_ hin
        rw [view, hp]
        exact hout
    | client i =>
        rcases hi : s.clients i with _ | q
        · refine absurd ?_ hin
          rw [view, hi]
          rfl
        rcases q with _ | ⟨acc, _ | ⟨m, left⟩⟩
        · refine absurd ?_ hin
          rw [view, hi]
          rfl
        · -- it gives the mutex back
          refine ⟨.client i, { s with
            data := { s.data with owner := none }
            clients := Function.update s.clients i none },
            by simp [helps, howner], ?_, ?_, rfl, by simp [hp]⟩
          · simp [monitorSystem, BatteryMonitor.clientStep, hi, buildStep]
          · simp [rest, holding, howner, hi, BuildPc.rank]
        · -- it prints the next member
          refine ⟨.client i, { s with
            clients := Function.update s.clients i
              (some (.print (batteryMembers.copy m s.data.data acc) left)) },
            by simp [helps, howner], ?_, ?_, rfl, by simp [hp]⟩
          · simp [monitorSystem, BatteryMonitor.clientStep, hi, buildStep]
          · simp [rest, holding, howner, hi, BuildPc.rank]

/-- When the thread has ended, or there is none, `stop` returns. -/
lemma join_returns {destroy : Bool} (hc : s.caller = .join destroy)
    (hdone : s.thread_ = none ∨ s.thread_ = some .ended) :
    (monitorSystem sensor_ ι).exec (fun s e => joining s && helps s e) s [.caller] =
      some { s with
        thread_ := none
        caller := if destroy then .destroyThread else .idle } := by
  have hjoin : joining s = true := joining_iff.mpr ⟨destroy, hc⟩
  rw [System.exec, hjoin, Bool.true_and, helps, if_pos rfl]
  simp only [monitorSystem, BatteryMonitor.callerStep, hc]
  rcases hdone with ht | ht <;> rw [ht] <;> rfl

/-- Until then, somebody goes on. -/
lemma joining_goes_on {destroy : Bool}
    (h : (monitorSystem sensor_ ι).Reach (fun _ _ => True) s) (hc : s.caller = .join destroy)
    (hlive : ¬(s.thread_ = none ∨ s.thread_ = some .ended)) :
    ∃ e s', helps s e = true ∧ (monitorSystem sensor_ ι).step s e = some s' ∧
      rest s' + holding s' < rest s + holding s ∧ s'.caller = s.caller := by
  push Not at hlive
  obtain ⟨p, hp⟩ := Option.ne_none_iff_exists'.mp hlive.1
  have hjoin : joining s = true := joining_iff.mpr ⟨destroy, hc⟩
  obtain ⟨e, s', he, hstep, hless, hcaller, -⟩ := joining_progress sensor_ (reach_whole h) hjoin
    (abort_of_joining (reach_abortAt h) hjoin) hp fun heq => hlive.2 (hp.trans (by rw [heq]))
  exact ⟨e, s', he, hstep, hless, hcaller⟩

/-- So it ends in as many steps as are left, and that of the caller. -/
lemma joining_completes {destroy : Bool} : ∀ (n : ℕ) {s : MonitorState ι},
    (monitorSystem sensor_ ι).Reach (fun _ _ => True) s → s.caller = .join destroy →
    rest s + holding s ≤ n →
    ∃ es s', (monitorSystem sensor_ ι).exec (fun s e => joining s && helps s e) s es = some s' ∧
      es.length ≤ n + 1 ∧ s'.thread_ = none ∧
        s'.caller = if destroy then .destroyThread else .idle := by
  intro n
  induction n with
  | zero =>
      intro s h hc hle
      by_cases hdone : s.thread_ = none ∨ s.thread_ = some .ended
      · exact ⟨[.caller], _, join_returns hc hdone, by simp, rfl, rfl⟩
      · obtain ⟨e, s', -, -, hless, -⟩ := joining_goes_on h hc hdone
        omega
  | succ n ih =>
      intro s h hc hle
      by_cases hdone : s.thread_ = none ∨ s.thread_ = some .ended
      · exact ⟨[.caller], _, join_returns hc hdone, by simp, rfl, rfl⟩
      · obtain ⟨e, s', he, hstep, hless, hcaller⟩ := joining_goes_on h hc hdone
        obtain ⟨es, t, hrun, hlen, hend⟩ :=
          ih (h.step trivial hstep) (hcaller.trans hc) (by omega)
        have hjoin : joining s = true := joining_iff.mpr ⟨destroy, hc⟩
        refine ⟨e :: es, t, ?_, Nat.succ_le_succ hlen, hend⟩
        rw [System.exec, hjoin, he, Bool.true_and, if_pos rfl, hstep, Option.bind_some, hrun]

omit [DecidableEq ι] in
/-- What the thread has left is what its point has. -/
lemma atEnd_le (hsuffix : (view s .poller).Suffix batteryMembers) :
    rest s ≤ 25 ∧ napsAtEnd s ≤ s.slept + 1 ∧ pollsAtEnd s ≤ s.polled.length + 1 ∧
      pushesAtEnd s ≤ s.pushed.length + 1 := by
  rw [rest, napsAtEnd, pollsAtEnd, pushesAtEnd]
  rw [view] at hsuffix
  rcases ht : s.thread_ with _ | p
  · simp
  · rw [ht] at hsuffix
    refine ⟨PollerPc.rank_le hsuffix, ?_, ?_, ?_⟩ <;> rw [Option.elim_some] <;> cases p <;>
      simp [PollerPc.naps, PollerPc.polls, PollerPc.pushes]

/-- A client under the lock has at most six members left, and the end of its scope. -/
lemma holding_le_seven {C : MonitorState ι → MonitorStep ι → Prop}
    (h : (monitorSystem sensor_ ι).Reach C s) : holding s ≤ 7 := by
  rw [holding]
  split
  · rename_i i howner
    have hin : view s (.client i) ≠ .out := ((reach_whole h).held _).mpr howner
    have hsuffix := reach_suffix h (.client i)
    rw [view] at hin hsuffix
    rcases hi : s.clients i with _ | _ | ⟨acc, left⟩
    · exact Nat.zero_le _
    · rw [hi] at hin
      exact absurd rfl hin
    · rw [hi] at hsuffix
      have hlen : left.length ≤ 6 := List.IsSuffix.length_le hsuffix
      simp only [Option.elim_some, BuildPc.rank]
      omega
  · exact Nat.zero_le _

end BatteryMonitor

open BatteryMonitor

variable {ι : Type*} [DecidableEq ι] {sensor_ : Ina219} {s s' : MonitorState ι}

/-- **The thread polls every five seconds at most**: the naps of 100 ms behind a push. -/
theorem pushes_paced {C : MonitorState ι → MonitorStep ι → Prop}
    (h : (monitorSystem sensor_ ι).Reach C s) :
    POLL_INTERVAL_S * 10 * s.pushed.length ≤ s.slept := by
  have hlength : s.pushed.length ≤ s.polled.length :=
    (Nat.le_add_right _ _).trans (reach_behind h)
  exact (Nat.mul_le_mul_left _ hlength).trans (reach_paced h).1

/-- Behind the first push there are fifty naps, and no more are needed. -/
theorem pushes_paced_napping : ∃ s : MonitorState (Fin 1), s.pushed.length = 1 ∧ s.slept = 50 ∧
    POLL_INTERVAL_S * 10 * s.pushed.length ≤ s.slept := by
  obtain ⟨s, hs, -, -, hpushed, hslept⟩ := napping_reach
  exact ⟨s, hpushed, hslept, pushes_paced hs⟩

/-- **`stop` is prompt**: while it waits, the thread takes at most 25 steps, among them one nap of
100 ms, one poll and one call of the callback, whatever the others do meanwhile. -/
theorem stop_prompt {C : MonitorState ι → MonitorStep ι → Prop}
    (h : (monitorSystem sensor_ ι).Reach C s) (hjoin : joining s = true)
    {es : List (MonitorStep ι)}
    (hrun : (monitorSystem sensor_ ι).exec (fun s _ => joining s) s es = some s') :
    es.count .poller ≤ 25 ∧ s'.slept ≤ s.slept + 1 ∧ s'.polled.length ≤ s.polled.length + 1 ∧
      s'.pushed.length ≤ s.pushed.length + 1 := by
  have hspent := run_spent (abort_of_joining (reach_abortAt h) hjoin) hrun
  obtain ⟨hrest, hnaps, hpolls, hpushes⟩ := atEnd_le (reach_suffix h .poller)
  refine ⟨?_, ?_, ?_, ?_⟩
  · have hsteps := hspent.rest
    omega
  · exact (Nat.le_add_right _ _).trans (hspent.naps.trans hnaps)
  · exact (Nat.le_add_right _ _).trans (hspent.polls.trans hpolls)
  · exact (Nat.le_add_right _ _).trans (hspent.pushes.trans hpushes)

/-- `stop` comes while the thread is in a nap: that is the one more. -/
theorem stop_prompt_napping : ∃ s s' : MonitorState (Fin 1), s.thread_ = some (.sleep 0) ∧
    s'.thread_ = some .ended ∧ s'.slept = 51 ∧ s'.slept ≤ s.slept + 1 ∧
      s'.pushed.length ≤ s.pushed.length + 1 := by
  obtain ⟨s, hs, hc, ht, -, hslept⟩ := napping_reach
  have hjoin : joining s = true := joining_iff.mpr ⟨false, hc⟩
  have habort := abort_of_joining (reach_abortAt hs) hjoin
  have hrun : (monitorSystem openSensor (Fin 1)).exec (fun s _ => joining s) s
      [.poller, .poller, .poller] =
        some { s with
          thread_ := some .ended
          slept := s.slept + 1 } := by
    simp [System.exec, monitorSystem, BatteryMonitor.pollerStep, joining, hc, ht, habort]
  obtain ⟨-, hnaps, -, hpushes⟩ := stop_prompt hs hjoin hrun
  exact ⟨s, _, ht, rfl, congrArg (· + 1) hslept, hnaps, hpushes⟩

/-- **`stop` returns**: from wherever it waits, the steps of the thread and of the client that holds
the mutex, 33 at most with its own, bring it to its end. -/
theorem stop_completes {C : MonitorState ι → MonitorStep ι → Prop}
    (h : (monitorSystem sensor_ ι).Reach C s) {destroy : Bool} (hc : s.caller = .join destroy) :
    ∃ es s', (monitorSystem sensor_ ι).exec (fun s e => joining s && helps s e) s es = some s' ∧
      es.length ≤ 33 ∧ s'.thread_ = none ∧
        s'.caller = if destroy then .destroyThread else .idle := by
  have hrest := (atEnd_le (reach_suffix h .poller)).1
  have hholding := holding_le_seven h
  exact joining_completes 32 (h.mono fun _ _ _ => trivial) hc (by omega)

/-- `stop` comes while a client prints and the thread waits for the mutex. -/
theorem stop_completes_polling : ∃ s s' : MonitorState (Fin 1), s.data.owner = some (.client 0) ∧
    s.thread_ = some (.build .lock) ∧ s.caller = .join false ∧ s'.caller = .idle ∧
      s'.thread_ = none := by
  obtain ⟨s, hs, hc, ht, howner⟩ := polling_reach
  obtain ⟨es, s', -, -, ht', hend⟩ := stop_completes hs hc
  exact ⟨s, s', howner, ht, hc, hend, ht'⟩

end RasPiZeroCam
