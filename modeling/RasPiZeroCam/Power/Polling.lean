import RasPiZeroCam.Power.Monitor

/-!
What `BatteryMonitor` hands out, in every run that starts it properly.

* `finishReads`, `Fresh`: the five reads of a call of `read_and_store` are those of one
  `readAndStore`, with nothing in between.
* `calls`, `Called`: so the calls of a run are one after the other on the monitor's bus.
* `Polled`: the invariant of the proper runs.
* `battery_records_whole`: `get_json` returns, and the thread prints, the last record stored; the
  callback is called with every record the thread stores, once and in order.
* `stopped_monitor_quiet`: after `stop` there is no thread, and nothing uses the sensor or the
  callback.
-/

namespace RasPiZeroCam

open Transition System Ina219

namespace BatteryMonitor

/-! ### The reads of one call -/

/-- How many reads are left. -/
def ReadPc.left : ReadPc → ℕ
  | .voltage => 5
  | .current _ => 4
  | .power _ _ => 3
  | .percentage _ _ _ => 2
  | .charging _ _ _ _ => 1

/-- The reads that are left, with nothing in between. -/
def finishReads (sensor_ : Ina219) : ℕ → ReadPc → I2c → Option (BatteryRecord × I2c)
  | 0, _, _ => none
  | n + 1, p, bus =>
      match readStep sensor_ p bus with
      | (bus, .inl p) => finishReads sensor_ n p bus
      | (bus, .inr r) => some (r, bus)

variable {ι : Type*} {sensor_ : Ina219} {s s' : MonitorState ι} {bus bus' : I2c}

/-- From the first read, they are `readAndStore`. -/
lemma finishReads_voltage :
    finishReads sensor_ ReadPc.voltage.left .voltage bus = some ((readAndStore sensor_).run bus) :=
  rfl

/-- A read that is not the last. -/
lemma finishReads_next {p q : ReadPc} (h : readStep sensor_ p bus = (bus', .inl q)) :
    finishReads sensor_ p.left p bus = finishReads sensor_ q.left q bus' := by
  cases p <;> cases h <;> rfl

/-- The last one. -/
lemma finishReads_last {p : ReadPc} {r : BatteryRecord}
    (h : readStep sensor_ p bus = (bus', .inr r)) :
    finishReads sensor_ p.left p bus = some (r, bus') := by
  cases p <;> cases h
  rfl

/-- The records of `n` calls of `read_and_store`, one after the other, and the bus behind them. -/
def calls (sensor_ : Ina219) (bus : I2c) : ℕ → List BatteryRecord × I2c
  | 0 => ([], bus)
  | n + 1 =>
      let before := calls sensor_ bus n
      let call := (readAndStore sensor_).run before.2
      (before.1 ++ [call.1], call.2)

/-- A call that began at `before` goes on as if nobody else used the bus. -/
def Fresh (sensor_ : Ina219) (before bus : I2c) : StorePc → Prop
  | .read p => finishReads sensor_ p.left p bus = some ((readAndStore sensor_).run before)
  | .lock r => (readAndStore sensor_).run before = (r, bus)
  | .store r _ => (readAndStore sensor_).run before = (r, bus)

/-- A step of `read_and_store`: it goes on with fresh values, or it has stored a fresh record. -/
lemma storeStep_fresh {x : Who ι} {p : StorePc} {before : I2c}
    {data data' : SharedRecord (Who ι) BatteryRecord} {n : StorePc ⊕ BatteryRecord}
    (hp : Fresh sensor_ before bus p)
    (h : storeStep sensor_ x p bus data = some (bus', data', n)) :
    (∃ q, n = .inl q ∧ Fresh sensor_ before bus' q ∧ data'.stored = data.stored) ∨
      ∃ r, n = .inr r ∧ (readAndStore sensor_).run before = (r, bus') ∧
        data'.stored = data.stored ++ [r] := by
  rcases p with p | r | ⟨r, _ | ⟨m, left⟩⟩
  · rw [storeStep] at h
    rcases hread : readStep sensor_ p bus with ⟨bus₁, q | r⟩ <;> rw [hread] at h <;> cases h
    · exact Or.inl ⟨.read q, rfl, (finishReads_next hread).symm.trans hp, rfl⟩
    · have hlast := Option.some.inj ((finishReads_last hread).symm.trans hp)
      exact Or.inl ⟨.lock r, rfl, hlast.symm, rfl⟩
  · rw [storeStep] at h
    split at h
    · cases h
    · cases h
      exact Or.inl ⟨_, rfl, hp, rfl⟩
  · cases h
    exact Or.inr ⟨r, rfl, hp, rfl⟩
  · cases h
    exact Or.inl ⟨_, rfl, hp, rfl⟩

/-- The call of `read_and_store` that the caller is in. -/
def CallerPc.inCall : CallerPc → Option StorePc
  | .readAndStore p => some p
  | _ => none

/-- The one that the thread is in. -/
def PollerPc.inCall : PollerPc → Option StorePc
  | .readAndStore p => some p
  | _ => none

/-- The one that is on. -/
def inCall (s : MonitorState ι) : Option StorePc :=
  s.caller.inCall.or (s.thread_.bind PollerPc.inCall)

/-- The bus is where the calls that are over have left it, or where the one that is on has got. -/
def Between (sensor_ : Ina219) (before bus : I2c) : Option StorePc → Prop
  | none => bus = before
  | some p => Fresh sensor_ before bus p

/-- **What is stored** was read by as many calls, one after the other, on the monitor's own bus. -/
def Called (sensor_ : Ina219) (s : MonitorState ι) : Prop :=
  ∃ n, s.data.stored = .initial :: (calls sensor_ s.first n).1 ∧
    Between sensor_ (calls sensor_ s.first n).2 s.bus (inCall s)

namespace Called

/-- Nobody reads or stores. -/
lemma congr (h : Called sensor_ s) (hstored : s'.data.stored = s.data.stored)
    (hbus : s'.bus = s.bus) (hfirst : s'.first = s.first) (hcall : inCall s' = inCall s) :
    Called sensor_ s' := by
  obtain ⟨n, hcalls, hbetween⟩ := h
  refine ⟨n, ?_, ?_⟩
  · rw [hstored, hcalls, hfirst]
  · rw [hfirst, hbus, hcall]
    exact hbetween

/-- A call begins. -/
lemma begin_call (h : Called sensor_ s) (hnone : inCall s = none)
    (hdata : s'.data = s.data) (hbus : s'.bus = s.bus) (hfirst : s'.first = s.first)
    (hcall : inCall s' = some (.read .voltage)) : Called sensor_ s' := by
  obtain ⟨n, hcalls, hbetween⟩ := h
  rw [hnone] at hbetween
  refine ⟨n, ?_, ?_⟩
  · rw [hdata, hcalls, hfirst]
  · rw [hfirst, hbus, hcall]
    have hread : finishReads sensor_ ReadPc.voltage.left .voltage s.bus =
        some ((readAndStore sensor_).run (calls sensor_ s.first n).2) := by
      rw [finishReads_voltage, hbetween]
    exact hread

/-- A step of the call that is on. -/
lemma storeStep {x : Who ι} {p : StorePc} {n : StorePc ⊕ BatteryRecord} (h : Called sensor_ s)
    (hp : inCall s = some p)
    (hstep : BatteryMonitor.storeStep sensor_ x p s.bus s.data = some (s'.bus, s'.data, n))
    (hfirst : s'.first = s.first) (hcall : inCall s' = n.elim some fun _ => none) :
    Called sensor_ s' := by
  obtain ⟨k, hcalls, hbetween⟩ := h
  rw [hp] at hbetween
  rcases storeStep_fresh hbetween hstep with ⟨q, rfl, hq, hstored⟩ | ⟨r, rfl, hr, hstored⟩
  · refine ⟨k, ?_, ?_⟩
    · rw [hstored, hcalls, hfirst]
    · rw [hfirst, hcall]
      exact hq
  · have hnext : calls sensor_ s.first (k + 1) =
        ((calls sensor_ s.first k).1 ++ [r], s'.bus) := by
      rw [calls, hr]
    refine ⟨k + 1, ?_, ?_⟩
    · rw [hstored, hcalls, hfirst, hnext, List.cons_append]
    · rw [hfirst, hnext, hcall]
      rfl

end Called

/-- What it returns is the last record stored. -/
lemma storeStep_getLast? {x : Who ι} {p : StorePc}
    {data data' : SharedRecord (Who ι) BatteryRecord} {r : BatteryRecord}
    (h : storeStep sensor_ x p bus data = some (bus', data', .inr r)) :
    data'.stored.getLast? = some r := by
  rcases p with p | r | ⟨r, _ | ⟨m, left⟩⟩
  · rw [storeStep] at h
    rcases hread : readStep sensor_ p bus with ⟨bus₁, q | r⟩ <;> rw [hread] at h <;> cases h
  · rw [storeStep] at h
    split at h <;> cases h
  · cases h
    exact List.getLast?_concat
  · cases h

/-- A step of `build_json` stores nothing. -/
lemma buildStep_stored {x : Who ι} {p : BuildPc} {data data' : SharedRecord (Who ι) BatteryRecord}
    {n : BuildPc ⊕ BatteryRecord} (h : buildStep x p data = some (data', n)) :
    data'.stored = data.stored := by
  rcases p with _ | ⟨acc, _ | ⟨m, left⟩⟩
  · rw [buildStep] at h
    split at h <;> cases h
    rfl
  · cases h
    rfl
  · cases h
    rfl

/-- It returns what it has printed. -/
lemma buildStep_ret {x : Who ι} {p : BuildPc} {data data' : SharedRecord (Who ι) BatteryRecord}
    {r : BatteryRecord} (h : buildStep x p data = some (data', .inr r)) : p = .print r [] := by
  rcases p with _ | ⟨acc, _ | ⟨m, left⟩⟩
  · rw [buildStep] at h
    split at h <;> cases h
  · cases h
    rfl
  · cases h

/-! ### The proper runs -/

/-- What holds at each point of the caller. -/
def CallerAt (s : MonitorState ι) : Prop :=
  match s.caller with
  | .idle => (s.abort_ = true ∨ s.started = false) → s.thread_ = none
  | .setCallback on_update => on_update = true ∧ s.started = true ∧ s.thread_ = none
  | .clearAbort => s.push_cb_ = true ∧ s.started = true ∧ s.thread_ = none
  | .readAndStore _ =>
      s.push_cb_ = true ∧ s.started = true ∧ s.thread_ = none ∧ s.abort_ = false
  | .spawn => s.push_cb_ = true ∧ s.started = true ∧ s.thread_ = none ∧ s.abort_ = false
  | .setAbort _ => True
  | .join _ => True
  | .destroy => s.abort_ = true → s.thread_ = none
  | .destroyThread => s.thread_ = none
  | .destroyed => s.thread_ = none
  | .overwritten => False
  | .abandoned => False

/-- What holds at a point of the polling thread: what it has stored has been pushed, up to the
record it is at. -/
def PollerAt (s : MonitorState ι) : PollerPc → Prop
  | .testCallback => ∃ r, s.polled = s.pushed ++ [r] ∧ s.data.stored.getLast? = some r
  | .build _ => ∃ r, s.polled = s.pushed ++ [r] ∧ s.data.stored.getLast? = some r
  | .push r => s.polled = s.pushed ++ [r]
  | _ => s.polled = s.pushed

/-- **The invariant of the proper runs.** -/
structure Polled (sensor_ : Ina219) (s : MonitorState ι) : Prop where
  caller : CallerAt s
  poller : ∀ p, s.thread_ = some p → s.push_cb_ = true ∧ PollerAt s p
  pushed : s.thread_ = none → s.polled = s.pushed
  called : Called sensor_ s

namespace Polled

lemma new (bus : I2c) : Polled sensor_ (new ι bus) where
  caller := fun _ => rfl
  poller p hp := by cases hp
  pushed _ := rfl
  called := ⟨0, rfl, rfl⟩

/-- A call. -/
lemma call {pc : CallerPc} {started : Bool} (h : Polled sensor_ s)
    (hcall : BatteryMonitor.call pc started s = some s')
    (hpc : ((s.abort_ = true ∨ s.started = false) → s.thread_ = none) →
      CallerAt { s with
        caller := pc
        started := started })
    (hout : pc.inCall = none) : Polled sensor_ s' := by
  rw [BatteryMonitor.call] at hcall
  split at hcall
  · rename_i hidle
    cases hcall
    have hat := h.caller
    rw [CallerAt, hidle] at hat
    refine ⟨hpc hat, fun p hp => ⟨(h.poller p hp).1, by
      cases p <;> exact (h.poller _ hp).2⟩, h.pushed, h.called.congr rfl rfl rfl ?_⟩
    rw [inCall, inCall, hidle, hout]
    rfl
  · cases hcall

/-- The polling thread is where it was, and so is what it works with. -/
lemma pollerAt_congr {p : PollerPc} (h : PollerAt s p)
    (hdata : s'.data = s.data) (hpolled : s'.polled = s.polled) (hpushed : s'.pushed = s.pushed) :
    PollerAt s' p := by
  cases p <;> simp only [PollerAt, hdata, hpolled, hpushed] at h ⊢ <;> exact h

/-- A step of the caller. -/
lemma callerStep (h : Polled sensor_ s) (hstep : BatteryMonitor.callerStep sensor_ s = some s') :
    Polled sensor_ s' := by
  have hcaller := h.caller
  rw [CallerAt] at hcaller
  -- outside `read_and_store`, the thread and what it works with are left alone, or it is joined
  have hkeep : ∀ cb abort pc, (s.thread_ = none ∨ cb = s.push_cb_) →
      CallerAt { s with push_cb_ := cb, abort_ := abort, caller := pc } →
      inCall { s with push_cb_ := cb, abort_ := abort, caller := pc } = inCall s →
      Polled sensor_ { s with push_cb_ := cb, abort_ := abort, caller := pc } := by
    intro cb abort pc hcb hpc hcall
    refine ⟨hpc, fun p hp => ⟨?_, pollerAt_congr (h.poller p hp).2 rfl rfl rfl⟩, h.pushed,
      h.called.congr rfl rfl rfl hcall⟩
    rcases hcb with hnone | hcb
    · cases hnone.symm.trans hp
    · exact hcb.trans (h.poller p hp).1
  rw [BatteryMonitor.callerStep] at hstep
  cases hp : s.caller <;> rw [hp] at hstep hcaller
  case setCallback on_update =>
      cases hstep
      refine hkeep on_update s.abort_ .clearAbort (Or.inl hcaller.2.2) hcaller ?_
      rw [inCall, inCall, hp]
      rfl
  case clearAbort =>
      obtain ⟨hcb, hstarted, ht⟩ := hcaller
      cases hstep
      refine ⟨⟨hcb, hstarted, ht, rfl⟩, fun p hp => (by cases ht.symm.trans hp), h.pushed, ?_⟩
      refine h.called.begin_call ?_ rfl rfl rfl rfl
      rw [inCall, hp, ht]
      rfl
  case readAndStore p =>
      obtain ⟨hcb, hstarted, ht, habort⟩ := hcaller
      obtain ⟨⟨bus, data, n⟩, hstore, rfl⟩ := Option.map_eq_some_iff.mp hstep
      refine ⟨?_, fun p hp => (by cases ht.symm.trans hp), h.pushed,
        h.called.storeStep ?_ hstore rfl ?_⟩
      · cases n
        · exact ⟨hcb, hstarted, ht, habort⟩
        · exact ⟨hcb, hstarted, ht, habort⟩
      · rw [inCall, hp]
        rfl
      · rw [inCall, ht]
        cases n <;> rfl
  case spawn =>
      obtain ⟨hcb, hstarted, ht, habort⟩ := hcaller
      rw [ht] at hstep
      cases hstep
      refine ⟨fun hset => ?_, ?_, fun hset => (by cases hset), h.called.congr rfl rfl rfl ?_⟩
      · rcases hset with hset | hset
        · cases habort.symm.trans hset
        · cases hstarted.symm.trans hset
      · intro p hp
        cases hp
        exact ⟨hcb, h.pushed ht⟩
      · rw [inCall, inCall, hp, ht]
        rfl
  case setAbort destroy =>
      cases hstep
      refine hkeep s.push_cb_ true (.join destroy) (Or.inr rfl) trivial ?_
      rw [inCall, inCall, hp]
      rfl
  case join destroy =>
      have hjoined : s.polled = s.pushed → s.thread_.bind PollerPc.inCall = none →
          Polled sensor_ { s with
            thread_ := none
            caller := if destroy then .destroyThread else .idle } := by
        intro hpushed hout
        refine ⟨?_, fun p hp => (by cases hp), fun _ => hpushed, h.called.congr rfl rfl rfl ?_⟩
        · cases destroy
          · exact fun _ => rfl
          · rfl
        · rw [inCall, inCall, hp, hout]
          cases destroy <;> rfl
      rcases ht : s.thread_ with _ | t
      · rw [ht] at hstep
        cases hstep
        exact hjoined (h.pushed ht) (by rw [ht]; rfl)
      · rw [ht] at hstep
        cases t <;> cases hstep
        exact hjoined (h.poller .ended ht).2 (by rw [ht]; rfl)
  case destroy =>
      cases hstep
      refine hkeep s.push_cb_ s.abort_ _ (Or.inr rfl) ?_ ?_
      · cases habort : s.abort_
        · trivial
        · exact hcaller habort
      · rw [inCall, inCall, hp]
        cases s.abort_ <;> rfl
  case destroyThread =>
      have hjoined : s.thread_.isSome = false := by
        rw [hcaller]
        rfl
      rw [hjoined] at hstep
      cases hstep
      refine hkeep s.push_cb_ s.abort_ .destroyed (Or.inr rfl) hcaller ?_
      rw [inCall, inCall, hp]
      rfl
  all_goals cases hstep

/-- While there is a thread, the caller is where it may be. -/
lemma callerAt_of_thread {p : PollerPc} (h : CallerAt s) (hp : s.thread_ = some p)
    (hcaller : s'.caller = s.caller) (habort : s'.abort_ = s.abort_)
    (hstarted : s'.started = s.started) : CallerAt s' := by
  have hlive : s.thread_ ≠ none := by simp [hp]
  rw [CallerAt] at h ⊢
  rw [hcaller]
  cases hc : s.caller <;> rw [hc] at h <;> simp only at h ⊢
  case idle =>
      rw [habort, hstarted]
      exact fun hset => absurd (h hset) hlive
  case setCallback => exact absurd h.2.2 hlive
  case clearAbort => exact absurd h.2.2 hlive
  case readAndStore => exact absurd h.2.2.1 hlive
  case spawn => exact absurd h.2.2.1 hlive
  case destroy =>
      rw [habort]
      exact fun hset => absurd (h hset) hlive
  case destroyThread => exact absurd h hlive
  case destroyed => exact absurd h hlive

/-- Then the caller is not in `read_and_store`. -/
lemma inCall_of_thread {p : PollerPc} (h : CallerAt s) (hp : s.thread_ = some p) :
    s.caller.inCall = none := by
  rw [CallerAt] at h
  cases hc : s.caller <;> rw [hc] at h
  case readAndStore q => cases hp.symm.trans h.2.2.1
  all_goals rfl

/-- A step of the polling thread, in a state where nothing is torn. -/
lemma pollerStep (h : Polled sensor_ s) (hwhole : Whole batteryMembers (view s) s.data)
    (hstep : BatteryMonitor.pollerStep sensor_ s = some s') : Polled sensor_ s' := by
  rw [BatteryMonitor.pollerStep] at hstep
  rcases ht : s.thread_ with _ | t
  · rw [ht] at hstep
    cases hstep
  obtain ⟨hcb, hat⟩ := h.poller t ht
  have hout := inCall_of_thread h.caller ht
  have hin : inCall s = t.inCall := by
    rw [inCall, hout, ht]
    rfl
  rw [ht] at hstep
  -- the thread goes to `q` and changes nothing else
  have hgoto : ∀ q, PollerAt s q → Called sensor_ { s with thread_ := some q } →
      Polled sensor_ { s with thread_ := some q } := by
    intro q hq hcalled
    refine ⟨callerAt_of_thread h.caller ht rfl rfl rfl, ?_, fun hnone => (by cases hnone), hcalled⟩
    intro p hp
    cases hp
    exact ⟨hcb, pollerAt_congr hq rfl rfl rfl⟩
  have hstay : ∀ q, q.inCall = t.inCall → Called sensor_ { s with thread_ := some q } := by
    intro q hq
    refine h.called.congr rfl rfl rfl ?_
    rw [hin, inCall, hout, ← hq]
    rfl
  cases t <;> simp only at hstep
  case test =>
      cases hstep
      refine hgoto _ ?_ (hstay _ ?_)
      · split_ifs <;> exact hat
      · split_ifs <;> rfl
  case sleepTest i =>
      cases hstep
      refine hgoto _ ?_ (hstay _ ?_)
      · split_ifs <;> exact hat
      · split_ifs <;> rfl
  case sleep i =>
      cases hstep
      have hnext := hgoto (.sleepTest (i + 1)) hat (hstay _ rfl)
      exact ⟨hnext.caller, hnext.poller, hnext.pushed, hnext.called.congr rfl rfl rfl rfl⟩
  case check =>
      cases hstep
      split_ifs
      · exact hgoto .ended hat (hstay _ rfl)
      · refine hgoto (.readAndStore (.read .voltage)) hat (h.called.begin_call hin rfl rfl rfl ?_)
        rw [inCall, hout]
        rfl
  case readAndStore p =>
      obtain ⟨⟨bus, data, n⟩, hstore, rfl⟩ := Option.map_eq_some_iff.mp hstep
      refine ⟨callerAt_of_thread h.caller ht rfl rfl rfl, ?_, fun hnone => (by cases hnone),
        h.called.storeStep hin hstore rfl ?_⟩
      · intro q hq
        cases hq
        cases n with
        | inl q => exact ⟨hcb, (List.append_nil _).trans hat⟩
        | inr r => exact ⟨hcb, r, congrArg (· ++ [r]) hat, storeStep_getLast? hstore⟩
      · rw [inCall, hout]
        cases n <;> rfl
  case testCallback =>
      cases hstep
      rw [if_pos hcb]
      exact hgoto _ hat (hstay _ rfl)
  case build p =>
      obtain ⟨r, hpolled, hlast⟩ := hat
      obtain ⟨⟨data, n⟩, hbuild, rfl⟩ := Option.map_eq_some_iff.mp hstep
      have hstored := buildStep_stored hbuild
      refine ⟨callerAt_of_thread h.caller ht rfl rfl rfl, ?_, fun hnone => (by cases hnone), ?_⟩
      · intro p' hp'
        cases hp'
        refine ⟨hcb, ?_⟩
        cases n with
        | inl q => exact ⟨r, hpolled, hstored ▸ hlast⟩
        | inr acc =>
            -- what was printed is the last record stored, which is the one to be pushed
            obtain rfl := buildStep_ret hbuild
            have hview : view s .poller = .read acc [] := by
              rw [view, ht]
              rfl
            obtain rfl := Option.some.inj (hlast.symm.trans (hwhole.read_done hview))
            exact hpolled
      · refine h.called.congr hstored rfl rfl ?_
        rw [hin, inCall, hout]
        cases n <;> rfl
  case push r =>
      cases hstep
      refine ⟨callerAt_of_thread h.caller ht rfl rfl rfl, ?_, fun hnone => (by cases hnone),
        (hstay .warn rfl).congr rfl rfl rfl rfl⟩
      intro p hp
      cases hp
      exact ⟨hcb, hat⟩
  case warn =>
      cases hstep
      exact hgoto _ hat (hstay _ rfl)
  case ended => cases hstep

/-- A step of a client. -/
lemma clientStep [DecidableEq ι] {i : ι} (h : Polled sensor_ s)
    (hstep : BatteryMonitor.clientStep i s = some s') : Polled sensor_ s' := by
  obtain ⟨p, hp, hstep⟩ := Option.bind_eq_some_iff.mp hstep
  obtain ⟨⟨data, n⟩, hbuild, rfl⟩ := Option.map_eq_some_iff.mp hstep
  have hstored := buildStep_stored hbuild
  refine ⟨h.caller, fun q hq => ⟨(h.poller q hq).1, ?_⟩, h.pushed,
    h.called.congr hstored rfl rfl rfl⟩
  have hat := (h.poller q hq).2
  cases q <;> simp only [PollerAt, hstored] at hat ⊢ <;> exact hat

end Polled

variable [DecidableEq ι]

/-- **Every proper run keeps it.** -/
lemma reach_polled (h : (monitorSystem sensor_ ι).Reach Proper s) : Polled sensor_ s := by
  refine h.invariant (Polled sensor_) ?_ ?_
  · rintro _ ⟨bus, rfl⟩
    exact .new bus
  · intro s e s' hs hpolled hproper hstep
    cases e with
    | start on_update =>
        exact hpolled.call hstep (fun hat => ⟨hproper.1, rfl, hat (Or.inr hproper.2)⟩)
          rfl
    | stop => exact hpolled.call hstep (fun _ => trivial) rfl
    | destroy => exact hpolled.call hstep (fun hat habort => hat (Or.inl habort)) rfl
    | caller => exact hpolled.callerStep hstep
    | poller => exact hpolled.pollerStep (reach_whole hs) hstep
    | client i => exact hpolled.clientStep hstep
    | getJson i =>
        simp only [monitorSystem] at hstep
        split at hstep <;> cases hstep
        refine ⟨hpolled.caller, fun p hp => ⟨(hpolled.poller p hp).1, ?_⟩, hpolled.pushed,
          hpolled.called.congr rfl rfl rfl rfl⟩
        exact Polled.pollerAt_congr (hpolled.poller p hp).2 rfl rfl rfl

omit [DecidableEq ι] in
/-- The thread is at most one record late. -/
lemma Polled.late (h : Polled sensor_ s) :
    ∃ late, s.polled = s.pushed ++ late ∧ late.length ≤ 1 ∧ (s.thread_ = none → late = []) := by
  rcases ht : s.thread_ with _ | p
  · exact ⟨[], (h.pushed ht).trans (List.append_nil _).symm, by simp, fun _ => rfl⟩
  · have hat := (h.poller p ht).2
    have hnone : s.polled = s.pushed → ∃ late, s.polled = s.pushed ++ late ∧ late.length ≤ 1 ∧
        (some p = none → late = []) :=
      fun heq => ⟨[], heq.trans (List.append_nil _).symm, by simp, fun _ => rfl⟩
    have hone : (∃ r, s.polled = s.pushed ++ [r]) → ∃ late, s.polled = s.pushed ++ late ∧
        late.length ≤ 1 ∧ (some p = none → late = []) :=
      fun ⟨r, heq⟩ => ⟨[r], heq, by simp, fun hnone => by cases hnone⟩
    cases p with
    | testCallback => exact hone (hat.imp fun r hr => hr.1)
    | build q => exact hone (hat.imp fun r hr => hr.1)
    | push r => exact hone ⟨r, hat⟩
    | _ => exact hnone hat

/-! ### After `stop` -/

/-- The caller is in `start`. -/
def CallerPc.starting : CallerPc → Bool
  | .setCallback _ => true
  | .clearAbort => true
  | .readAndStore _ => true
  | .spawn => true
  | _ => false

/-- There is no thread, and none is being started. -/
def Quiet (s : MonitorState ι) : Prop :=
  s.thread_ = none ∧ s.caller.starting = false

/-- All but a call of `start`. -/
def MonitorStep.other : MonitorStep ι → Bool
  | .start _ => false
  | _ => true

omit [DecidableEq ι] in
/-- The caller, outside `start`. -/
lemma Quiet.callerStep (h : Quiet s) (hstep : BatteryMonitor.callerStep sensor_ s = some s') :
    Quiet s' ∧ s'.pushed = s.pushed ∧ s'.bus = s.bus := by
  obtain ⟨ht, hstart⟩ := h
  rw [BatteryMonitor.callerStep, ht] at hstep
  cases hp : s.caller <;> rw [hp] at hstep hstart <;> cases hstart <;> cases hstep
  case setAbort destroy => exact ⟨⟨rfl, rfl⟩, rfl, rfl⟩
  case join destroy =>
      refine ⟨⟨rfl, ?_⟩, rfl, rfl⟩
      cases destroy <;> rfl
  case destroy =>
      refine ⟨⟨rfl, ?_⟩, rfl, rfl⟩
      show CallerPc.starting (if s.abort_ then .destroyThread else .setAbort true) = false
      split_ifs <;> rfl
  case destroyThread => exact ⟨⟨rfl, rfl⟩, rfl, rfl⟩

/-- Any step but a call of `start`. -/
lemma Quiet.step (h : Quiet s) {e : MonitorStep ι} (he : e.other = true)
    (hstep : (monitorSystem sensor_ ι).step s e = some s') :
    Quiet s' ∧ s'.pushed = s.pushed ∧ s'.bus = s.bus := by
  have hcall : ∀ pc started, pc.starting = false → BatteryMonitor.call pc started s = some s' →
      Quiet s' ∧ s'.pushed = s.pushed ∧ s'.bus = s.bus := by
    intro pc started hpc hcall
    rw [BatteryMonitor.call] at hcall
    split at hcall <;> cases hcall
    exact ⟨⟨h.1, hpc⟩, rfl, rfl⟩
  cases e with
  | start on_update => cases he
  | stop => exact hcall _ _ rfl hstep
  | destroy => exact hcall _ _ rfl hstep
  | caller => exact h.callerStep hstep
  | poller =>
      simp only [monitorSystem, BatteryMonitor.pollerStep, h.1] at hstep
      cases hstep
  | client i =>
      obtain ⟨p, hp, hstep⟩ := Option.bind_eq_some_iff.mp hstep
      obtain ⟨⟨data, n⟩, -, rfl⟩ := Option.map_eq_some_iff.mp hstep
      exact ⟨h, rfl, rfl⟩
  | getJson i =>
      simp only [monitorSystem] at hstep
      split at hstep <;> cases hstep
      exact ⟨h, rfl, rfl⟩

/-- So it stays until `start` is called. -/
lemma Quiet.run {es : List (MonitorStep ι)} : ∀ {s : MonitorState ι}, Quiet s →
    (monitorSystem sensor_ ι).exec (fun _ e => e.other) s es = some s' →
      s'.thread_ = none ∧ s'.pushed = s.pushed ∧ s'.bus = s.bus := by
  induction es with
  | nil =>
      intro s h hrun
      cases hrun
      exact ⟨h.1, rfl, rfl⟩
  | cons e es ih =>
      intro s h hrun
      rw [System.exec] at hrun
      split_ifs at hrun with he
      obtain ⟨t, hstep, hrun⟩ := Option.bind_eq_some_iff.mp hrun
      obtain ⟨hquiet, hpushed, hbus⟩ := h.step he hstep
      obtain ⟨ht, hpushed', hbus'⟩ := ih hquiet hrun
      exact ⟨ht, hpushed'.trans hpushed, hbus'.trans hbus⟩

end BatteryMonitor

open BatteryMonitor

variable {ι : Type*} [DecidableEq ι] {sensor_ : Ina219} {s : MonitorState ι}

/-- **What the monitor hands out**: who has printed all members has printed the last record that was
stored, the records that are stored are those of as many undisturbed calls, one after the other, on
the bus as it was at first, and the callback was called with every record of the thread, in order,
but for the one it is at. -/
theorem battery_records_whole (h : (monitorSystem sensor_ ι).Reach Proper s) :
    (∀ x r, view s x = .read r [] → s.data.stored.getLast? = some r) ∧
      (∃ n, s.data.stored = .initial :: (calls sensor_ s.first n).1) ∧
      ∃ late, s.polled = s.pushed ++ late ∧ late.length ≤ 1 ∧ (s.thread_ = none → late = []) := by
  have hpolled := reach_polled h
  obtain ⟨n, hcalls, -⟩ := hpolled.called
  exact ⟨fun x r hx => (reach_whole h).read_done hx, ⟨n, hcalls⟩, hpolled.late⟩

namespace BatteryMonitor

/-- A sensor that was opened. -/
def openSensor : Ina219 := ((Ina219.new 3 0).run unplugged).1

/-- The check of a proper step. -/
def properCheck (s : MonitorState (Fin 1)) : MonitorStep (Fin 1) → Bool
  | .start on_update => on_update && !s.started
  | _ => true

lemma proper_of_check (s : MonitorState (Fin 1)) (e : MonitorStep (Fin 1))
    (h : properCheck s e = true) : Proper s e := by
  cases e with
  | start on_update =>
      obtain ⟨hgiven, hstarted⟩ := Bool.and_eq_true_iff.mp h
      exact ⟨hgiven, (Bool.not_eq_true' _).mp hstarted⟩
  | _ => trivial

/-- The monitor is started, and its thread polls once, up to the mutex before the callback. -/
def polling : List (MonitorStep (Fin 1)) :=
  .start true :: List.replicate 16 .caller ++ List.replicate 117 .poller

/-- It calls the callback, and takes its next nap, in which `stop` is called. -/
def napping : List (MonitorStep (Fin 1)) :=
  polling ++ List.replicate 12 .poller ++ [.stop, .caller]

/-- `stop` returns, and the monitor is destroyed. -/
def stopped : List (MonitorStep (Fin 1)) := napping ++ [.poller, .poller, .poller, .caller]

def destroyed : List (MonitorStep (Fin 1)) := [.destroy, .caller, .caller]

-- the runs are longer than the default depth
set_option maxRecDepth 4000

lemma napping_reach : ∃ s : MonitorState (Fin 1),
    (monitorSystem openSensor (Fin 1)).Reach Proper s ∧ s.caller = .join false ∧
      s.thread_ = some (.sleep 0) ∧ s.pushed.length = 1 ∧ s.slept = 50 := by
  have hrun : ((monitorSystem openSensor (Fin 1)).exec properCheck (new (Fin 1) unplugged)
      napping).map (fun s => (s.caller, s.thread_, s.pushed.length, s.slept)) =
        some (.join false, some (.sleep 0), 1, 50) := rfl
  obtain ⟨s, hs, hview⟩ := Option.map_eq_some_iff.mp hrun
  simp only [Prod.mk.injEq] at hview
  exact ⟨s, .of_exec_check proper_of_check ⟨_, rfl⟩ hs, hview⟩

/-- `stop` is called while the thread waits for the mutex, which a client holds. -/
lemma polling_reach : ∃ s : MonitorState (Fin 1),
    (monitorSystem openSensor (Fin 1)).Reach Proper s ∧ s.caller = .join false ∧
      s.thread_ = some (.build .lock) ∧ s.data.owner = some (.client 0) := by
  have hrun : ((monitorSystem openSensor (Fin 1)).exec properCheck (new (Fin 1) unplugged)
      (polling ++ [.getJson 0, .client 0, .stop, .caller])).map
        (fun s => (s.caller, s.thread_, s.data.owner)) =
          some (.join false, some (.build .lock), some (.client 0)) := rfl
  obtain ⟨s, hs, hview⟩ := Option.map_eq_some_iff.mp hrun
  simp only [Prod.mk.injEq] at hview
  exact ⟨s, .of_exec_check proper_of_check ⟨_, rfl⟩ hs, hview⟩

lemma stopped_reach : ∃ s s' : MonitorState (Fin 1),
    (monitorSystem openSensor (Fin 1)).Reach Proper s ∧ s.caller = .idle ∧ s.started = false ∧
      s.pushed.length = 1 ∧ (monitorSystem openSensor (Fin 1)).exec (fun _ e => e.other) s
        destroyed = some s' ∧ s'.caller = .destroyed := by
  have hrun : ((monitorSystem openSensor (Fin 1)).exec properCheck (new (Fin 1) unplugged)
      stopped).map (fun s => (s.caller, s.started, s.pushed.length,
        ((monitorSystem openSensor (Fin 1)).exec (fun _ e => e.other) s
          destroyed).map MonitorState.caller)) = some (.idle, false, 1, some .destroyed) := rfl
  obtain ⟨s, hs, hview⟩ := Option.map_eq_some_iff.mp hrun
  simp only [Prod.mk.injEq] at hview
  obtain ⟨hc, hstarted, hpushed, hend⟩ := hview
  obtain ⟨s', hs', hc'⟩ := Option.map_eq_some_iff.mp hend
  exact ⟨s, s', .of_exec_check proper_of_check ⟨_, rfl⟩ hs, hc, hstarted, hpushed, hs', hc'⟩

end BatteryMonitor

/-- A monitor that has called the callback once, and is being stopped: the callback was called with
one of the records read. -/
theorem battery_records_stopping : ∃ s : MonitorState (Fin 1), s.pushed.length = 1 ∧
    (∃ n, s.data.stored = .initial :: (calls openSensor s.first n).1) ∧
      ∃ late, s.polled = s.pushed ++ late ∧ late.length ≤ 1 ∧ (s.thread_ = none → late = []) := by
  obtain ⟨s, hs, -, -, hpushed, -⟩ := napping_reach
  exact ⟨s, hpushed, (battery_records_whole hs).2⟩

/-- **After `stop`**: `std::terminate` is never called, and from when `stop` has returned, or the
monitor was made, nothing uses the sensor or calls the callback until `start` is called, and there
is no thread. -/
theorem stopped_monitor_quiet (h : (monitorSystem sensor_ ι).Reach Proper s) :
    s.caller ≠ .overwritten ∧ s.caller ≠ .abandoned ∧
      (s.caller = .idle → s.started = false → ∀ es s',
        (monitorSystem sensor_ ι).exec (fun _ e => e.other) s es = some s' →
          s'.thread_ = none ∧ s'.pushed = s.pushed ∧ s'.bus = s.bus) := by
  have hat := (reach_polled h).caller
  rw [CallerAt] at hat
  refine ⟨fun hc => ?_, fun hc => ?_, fun hc hstarted es s' hrun => ?_⟩
  · rw [hc] at hat
    exact hat
  · rw [hc] at hat
    exact hat
  · rw [hc] at hat
    have hquiet : Quiet s := by
      refine ⟨hat (Or.inr hstarted), ?_⟩
      rw [hc]
      rfl
    exact hquiet.run hrun

/-- A monitor that has called the callback once, and was stopped: it is destroyed, and nothing more
is read. -/
theorem stopped_monitor_destroyed : ∃ s s' : MonitorState (Fin 1), s.pushed.length = 1 ∧
    s.caller = .idle ∧ s'.caller = .destroyed ∧ s'.thread_ = none ∧ s'.pushed = s.pushed ∧
      s'.bus = s.bus := by
  obtain ⟨s, s', hs, hc, hstarted, hpushed, hrun, hc'⟩ := stopped_reach
  exact ⟨s, s', hpushed, hc, hc', (stopped_monitor_quiet hs).2.2 hc hstarted _ s' hrun⟩

end RasPiZeroCam
