import RasPiZeroCam.Power.BatteryMonitor
import RasPiZeroCam.Transition.System
import RasPiZeroCam.Transition.Whole

/-!
`BatteryMonitor` with its threads: the caller of `start`, `stop` and the destructor, the polling
thread, and any number of clients in `get_json`.

* `Member`, `batteryMembers`: the members under `data_mutex_`, assigned and printed one by one.
* `MonitorState`, `monitorSystem`: the members, where every thread is, and what was pushed.
* `Proper`: the runs that call `start` with a callback, and again only after a `stop`.
-/

namespace RasPiZeroCam

open Transition System Ina219

/-- The members that `read_and_store` assigns and `build_json` prints, in that order. -/
inductive Member where
  | voltage
  | current
  | power
  | percentage
  | charging
  | lowBattery
  deriving DecidableEq

namespace BatteryRecord

/-- The members when the monitor is constructed. -/
def initial : BatteryRecord := ⟨0, 0, 0, 0, false, false⟩

/-- The record `dst` with one member of `src`. -/
def copy (src dst : BatteryRecord) : Member → BatteryRecord
  | .voltage => { dst with voltage_ := src.voltage_ }
  | .current => { dst with current_ma_ := src.current_ma_ }
  | .power => { dst with power_mw_ := src.power_mw_ }
  | .percentage => { dst with percentage_ := src.percentage_ }
  | .charging => { dst with charging_ := src.charging_ }
  | .lowBattery => { dst with low_battery_ := src.low_battery_ }

/-- Two records have the same member. -/
def Same (a b : BatteryRecord) : Member → Prop
  | .voltage => a.voltage_ = b.voltage_
  | .current => a.current_ma_ = b.current_ma_
  | .power => a.power_mw_ = b.power_mw_
  | .percentage => a.percentage_ = b.percentage_
  | .charging => a.charging_ = b.charging_
  | .lowBattery => a.low_battery_ = b.low_battery_

end BatteryRecord

/-- The record, member by member. -/
def batteryMembers : RecordMembers Member BatteryRecord where
  all := [.voltage, .current, .power, .percentage, .charging, .lowBattery]
  copy m src dst := src.copy dst m
  same m a b := a.Same b m
  mem_all m := by cases m <;> simp
  same_copy m a b := by cases m <;> rfl
  same_copy_of m n a b c h := by
    by_cases hmn : m = n
    · exact Or.inr hmn
    · refine Or.inl ?_
      cases m <;> cases n <;> first | exact h | exact absurd rfl hmn
  ext a b h := by
    obtain ⟨v, i, p, pct, chg, low⟩ := a
    obtain ⟨v', i', p', pct', chg', low'⟩ := b
    obtain rfl : v = v' := h .voltage
    obtain rfl : i = i' := h .current
    obtain rfl : p = p' := h .power
    obtain rfl : pct = pct' := h .percentage
    obtain rfl : chg = chg' := h .charging
    obtain rfl : low = low' := h .lowBattery
    rfl

namespace BatteryMonitor

def POLL_INTERVAL_S : ℕ := 5

/-! ### The functions of the threads -/

/-- Where `read_and_store` is in its five reads, with what they gave. -/
inductive ReadPc where
  | voltage
  | current (v : ℚ)
  | power (v i : ℚ)
  | percentage (v i p : ℚ)
  | charging (v i p : ℚ) (pct : ℤ)

/-- One of the reads: the next one, or all that was read. -/
def readStep (sensor_ : Ina219) (p : ReadPc) (bus : I2c) : I2c × (ReadPc ⊕ BatteryRecord) :=
  match p with
  | .voltage =>
      let (v, bus) := sensor_.readBusVoltageV.run bus
      (bus, .inl (.current v))
  | .current v =>
      let (i, bus) := sensor_.readCurrentMa.run bus
      (bus, .inl (.power v i))
  | .power v i =>
      let (p, bus) := sensor_.readPowerMw.run bus
      (bus, .inl (.percentage v i p))
  | .percentage v i p =>
      let (pct, bus) := sensor_.readPercentage.run bus
      (bus, .inl (.charging v i p pct))
  | .charging v i p pct =>
      let (chg, bus) := sensor_.isCharging.run bus
      (bus, .inr {
        voltage_ := v
        current_ma_ := i
        power_mw_ := p
        percentage_ := pct
        charging_ := chg
        low_battery_ := decide (pct < LOW_BATTERY_PCT) })

/-- Where `read_and_store` is. -/
inductive StorePc where
  | read (p : ReadPc)
  | lock (r : BatteryRecord)          -- `lock_guard lk(data_mutex_)`
  | store (r : BatteryRecord) (left : List Member)  -- the assignments; then the end of its scope

/-- Where `build_json` is, under the lock its caller takes. -/
inductive BuildPc where
  | lock                              -- `lock_guard lk(data_mutex_)`
  | print (acc : BatteryRecord) (left : List Member)  -- `acc` has been printed but for `left`

/-- The threads: the caller, the polling thread, and the clients. -/
inductive Who (ι : Type*) where
  | caller
  | poller
  | client (i : ι)

variable {ι : Type*}

/-- A step of `read_and_store`, which returns what it has stored. -/
def storeStep (sensor_ : Ina219) (x : Who ι) (p : StorePc) (bus : I2c)
    (data : SharedRecord (Who ι) BatteryRecord) :
    Option (I2c × SharedRecord (Who ι) BatteryRecord × (StorePc ⊕ BatteryRecord)) :=
  match p with
  | .read p =>
      match readStep sensor_ p bus with
      | (bus, .inl p) => some (bus, data, .inl (.read p))
      | (bus, .inr r) => some (bus, data, .inl (.lock r))
  | .lock r =>
      match data.owner with
      | some _ => none
      | none => some (bus, { data with owner := some x }, .inl (.store r batteryMembers.all))
  | .store r (m :: left) =>
      some (bus, { data with data := batteryMembers.copy m r data.data }, .inl (.store r left))
  | .store r [] => some (bus, { data with owner := none, stored := data.stored ++ [r] }, .inr r)

/-- A step of `get_json`, or of the same lines of `thread_fn`. -/
def buildStep (x : Who ι) (p : BuildPc) (data : SharedRecord (Who ι) BatteryRecord) :
    Option (SharedRecord (Who ι) BatteryRecord × (BuildPc ⊕ BatteryRecord)) :=
  match p with
  | .lock =>
      match data.owner with
      | some _ => none
      | none =>
          some ({ data with owner := some x }, .inl (.print .initial batteryMembers.all))
  | .print acc (m :: left) => some (data, .inl (.print (batteryMembers.copy m data.data acc) left))
  | .print acc [] => some ({ data with owner := none }, .inr acc)

/-- Where `thread_fn` is. -/
inductive PollerPc where
  | test                      -- `while (!abort_)`
  | sleepTest (i : ℕ)         -- `i < POLL_INTERVAL_S * 10 && !abort_`
  | sleep (i : ℕ)             -- `sleep_for(100ms)`
  | check                     -- `if (abort_) break`
  | readAndStore (p : StorePc)
  | testCallback              -- `if (push_cb_)`
  | build (p : BuildPc)
  | push (r : BatteryRecord)  -- `push_cb_(json)`
  | warn                      -- `if (low_battery_)`
  | ended

/-- Where the caller is; `destroy` tells whether `stop` was called by the destructor. -/
inductive CallerPc where
  | idle
  | setCallback (on_update : Bool)    -- `push_cb_ = std::move(on_update)`, empty or not
  | clearAbort                        -- `abort_ = false`
  | readAndStore (p : StorePc)
  | spawn                             -- `thread_ = std::thread(..)`
  | setAbort (destroy : Bool)         -- `abort_ = true`
  | join (destroy : Bool)             -- `if (thread_.joinable()) thread_.join()`
  | destroy                           -- `if (!abort_) stop()`
  | destroyThread                     -- the destructor of `thread_`
  | destroyed
  | overwritten                       -- `thread_` was joinable: `std::terminate`
  | abandoned                         -- the same, in its destructor

end BatteryMonitor

open BatteryMonitor

/-- A monitor and its threads. -/
structure MonitorState (ι : Type*) where
  bus : I2c
  data : SharedRecord (Who ι) BatteryRecord
  abort_ : Bool
  push_cb_ : Bool
  thread_ : Option PollerPc           -- the thread that `thread_` names
  caller : CallerPc
  clients : ι → Option BuildPc
  first : I2c                         -- the bus when the monitor was made
  started : Bool                      -- `start` was called, and `stop` not since
  polled : List BatteryRecord         -- what the thread has stored
  pushed : List BatteryRecord         -- what `push_cb_` was called with
  slept : ℕ                           -- the naps of 100 ms that were taken

namespace BatteryMonitor

/-- A call, or a step of a thread. -/
inductive MonitorStep (ι : Type*) where
  | start (on_update : Bool)
  | stop
  | destroy
  | caller
  | poller
  | getJson (i : ι)
  | client (i : ι)
  deriving DecidableEq

variable {ι : Type*}

/-- The constructor. -/
def new (ι : Type*) (bus : I2c) : MonitorState ι where
  bus := bus
  data := ⟨.initial, none, [.initial]⟩
  abort_ := false
  push_cb_ := false
  thread_ := none
  caller := .idle
  clients _ := none
  first := bus
  started := false
  polled := []
  pushed := []
  slept := 0

/-- A call, while the caller is in no other. -/
def call (pc : CallerPc) (started : Bool) (s : MonitorState ι) : Option (MonitorState ι) :=
  match s.caller with
  | .idle =>
      some { s with
        caller := pc
        started := started }
  | _ => none

/-- A step of the caller. -/
def callerStep (sensor_ : Ina219) (s : MonitorState ι) : Option (MonitorState ι) :=
  match s.caller with
  | .setCallback on_update =>
      some { s with
        push_cb_ := on_update
        caller := .clearAbort }
  | .clearAbort =>
      some { s with
        abort_ := false
        caller := .readAndStore (.read .voltage) }
  | .readAndStore p =>
      (storeStep sensor_ .caller p s.bus s.data).map fun r =>
        { s with
          bus := r.1
          data := r.2.1
          caller := Sum.elim .readAndStore (fun _ => .spawn) r.2.2 }
  | .spawn =>
      if s.thread_.isSome then some { s with caller := .overwritten }
      else
        some { s with
          thread_ := some .test
          caller := .idle }
  | .setAbort destroy =>
      some { s with
        abort_ := true
        caller := .join destroy }
  | .join destroy =>
      match s.thread_ with
      | none => some { s with caller := if destroy then .destroyThread else .idle }
      | some .ended =>
          some { s with
            thread_ := none
            caller := if destroy then .destroyThread else .idle }
      | some _ => none
  | .destroy => some { s with caller := if s.abort_ then .destroyThread else .setAbort true }
  | .destroyThread =>
      some { s with caller := if s.thread_.isSome then .abandoned else .destroyed }
  | _ => none

/-- A step of the polling thread. -/
def pollerStep (sensor_ : Ina219) (s : MonitorState ι) : Option (MonitorState ι) :=
  match s.thread_ with
  | some .test => some { s with thread_ := some (if s.abort_ then .ended else .sleepTest 0) }
  | some (.sleepTest i) =>
      some { s with
        thread_ := some (if i < POLL_INTERVAL_S * 10 ∧ s.abort_ = false then .sleep i else .check) }
  | some (.sleep i) =>
      some { s with
        thread_ := some (.sleepTest (i + 1))
        slept := s.slept + 1 }
  | some .check =>
      some { s with
        thread_ := some (if s.abort_ then .ended else .readAndStore (.read .voltage)) }
  | some (.readAndStore p) =>
      (storeStep sensor_ .poller p s.bus s.data).map fun r =>
        { s with
          bus := r.1
          data := r.2.1
          thread_ := some (Sum.elim .readAndStore (fun _ => .testCallback) r.2.2)
          polled := s.polled ++ (Sum.elim (fun _ => []) (fun r => [r]) r.2.2) }
  | some .testCallback =>
      some { s with thread_ := some (if s.push_cb_ then .build .lock else .warn) }
  | some (.build p) =>
      (buildStep .poller p s.data).map fun r =>
        { s with
          data := r.1
          thread_ := some (Sum.elim .build .push r.2) }
  | some (.push r) =>
      some { s with
        thread_ := some .warn
        pushed := s.pushed ++ [r] }
  -- the warning is only printed
  | some .warn => some { s with thread_ := some .test }
  | some .ended => none
  | none => none

/-- A step of a client in `get_json`. -/
def clientStep [DecidableEq ι] (i : ι) (s : MonitorState ι) : Option (MonitorState ι) :=
  (s.clients i).bind fun p =>
    (buildStep (.client i) p s.data).map fun r =>
      { s with
        data := r.1
        clients := Function.update s.clients i (Sum.elim some (fun _ => none) r.2) }

/-- The monitor, on a sensor and its bus. -/
def monitorSystem (sensor_ : Ina219) (ι : Type*) [DecidableEq ι] :
    System (MonitorState ι) (MonitorStep ι) where
  init s := ∃ bus, s = new ι bus
  step s
    | .start on_update => call (.setCallback on_update) true s
    | .stop => call (.setAbort false) false s
    | .destroy => call .destroy s.started s
    | .caller => callerStep sensor_ s
    | .poller => pollerStep sensor_ s
    | .getJson i =>
        match s.clients i with
        | none => some { s with clients := Function.update s.clients i (some .lock) }
        | some _ => none
    | .client i => clientStep i s

/-- The order of calls that the monitor is made for: `start` is given a callback, and is called
again only after `stop`. -/
def Proper (s : MonitorState ι) : MonitorStep ι → Prop
  | .start on_update => on_update = true ∧ s.started = false
  | _ => True

/-! ### Where the threads are in the mutex -/

/-- `read_and_store` under the lock. -/
def StorePc.view : StorePc → MemberView Member BatteryRecord
  | .store r left => .write r left
  | _ => .out

/-- `build_json` under the lock. -/
def BuildPc.view : BuildPc → MemberView Member BatteryRecord
  | .print acc left => .read acc left
  | .lock => .out

def CallerPc.view : CallerPc → MemberView Member BatteryRecord
  | .readAndStore p => p.view
  | _ => .out

def PollerPc.view : PollerPc → MemberView Member BatteryRecord
  | .readAndStore p => p.view
  | .build p => p.view
  | _ => .out

/-- What a thread does with the record. -/
def view (s : MonitorState ι) : Who ι → MemberView Member BatteryRecord
  | .caller => s.caller.view
  | .poller => s.thread_.elim .out PollerPc.view
  | .client i => (s.clients i).elim .out BuildPc.view

variable {sensor_ : Ina219} {s s' : MonitorState ι}

/-- A step of `read_and_store` is a move. -/
lemma storeStep_move {x : Who ι} {p : StorePc} {bus bus' : I2c}
    {data data' : SharedRecord (Who ι) BatteryRecord} {n : StorePc ⊕ BatteryRecord}
    (h : storeStep sensor_ x p bus data = some (bus', data', n)) :
    MemberMove batteryMembers x p.view data (n.elim StorePc.view fun _ => .out) data' := by
  rcases p with p | r | ⟨r, _ | ⟨m, left⟩⟩
  · rw [storeStep] at h
    rcases hread : readStep sensor_ p bus with ⟨bus, p' | r⟩ <;> rw [hread] at h <;> cases h
    · exact .stay _ _
    · exact .stay _ _
  · rw [storeStep] at h
    split at h
    · cases h
    · rename_i hfree
      cases h
      exact .beginWrite r data hfree
  · cases h
    exact .endWrite r data
  · cases h
    exact .write r m left data

/-- A step of `build_json` is a move. -/
lemma buildStep_move {x : Who ι} {p : BuildPc} {data data' : SharedRecord (Who ι) BatteryRecord}
    {n : BuildPc ⊕ BatteryRecord} (h : buildStep x p data = some (data', n)) :
    MemberMove batteryMembers x p.view data (n.elim BuildPc.view fun _ => .out) data' := by
  rcases p with _ | ⟨acc, _ | ⟨m, left⟩⟩
  · rw [buildStep] at h
    split at h
    · cases h
    · rename_i hfree
      cases h
      exact .beginRead .initial data hfree
  · cases h
    exact .endRead acc data
  · cases h
    exact .read acc m left data

/-- A call is outside. -/
lemma call_view {pc : CallerPc} {started : Bool} (hpc : pc.view = .out)
    (h : call pc started s = some s') :
    s'.data = s.data ∧ ∀ x, view s' x = view s x := by
  rw [call] at h
  split at h
  · rename_i hidle
    cases h
    refine ⟨rfl, fun x => ?_⟩
    cases x with
    | caller =>
        rw [view, view, hidle]
        exact hpc
    | poller => rfl
    | client i => rfl
  · cases h

/-- A step of the caller in `read_and_store`, or one that leaves all but `thread_`, `abort_` and
`push_cb_` alone. -/
lemma callerStep_cases (h : callerStep sensor_ s = some s') :
    (∃ p bus data n, s.caller = .readAndStore p ∧
        storeStep sensor_ .caller p s.bus s.data = some (bus, data, n) ∧
        s' = { s with
          bus := bus
          data := data
          caller := n.elim .readAndStore fun _ => .spawn }) ∨
      ((∀ p, s.caller ≠ .readAndStore p) ∧ s'.data = s.data ∧ s'.bus = s.bus ∧
        s'.clients = s.clients ∧ s'.polled = s.polled ∧ s'.pushed = s.pushed ∧
        s'.caller.view = .out ∧
        s'.thread_.elim .out PollerPc.view = s.thread_.elim .out PollerPc.view) := by
  rw [callerStep] at h
  cases hp : s.caller <;> rw [hp] at h
  case readAndStore p =>
      obtain ⟨⟨bus, data, n⟩, hstep, rfl⟩ := Option.map_eq_some_iff.mp h
      exact Or.inl ⟨p, bus, data, n, rfl, hstep, rfl⟩
  case spawn =>
      refine Or.inr ⟨fun q hq => (by cases hq), ?_⟩
      cases ht : s.thread_ <;> rw [ht] at h <;> cases h
      · exact ⟨rfl, rfl, rfl, rfl, rfl, rfl, rfl⟩
      · exact ⟨rfl, rfl, rfl, rfl, rfl, rfl, rfl⟩
  case join destroy =>
      refine Or.inr ⟨fun q hq => (by cases hq), ?_⟩
      have hout : (if destroy then CallerPc.destroyThread else .idle).view = .out := by
        cases destroy <;> rfl
      rcases ht : s.thread_ with _ | t
      · rw [ht] at h
        cases h
        exact ⟨rfl, rfl, rfl, rfl, rfl, hout, rfl⟩
      · rw [ht] at h
        cases t <;> cases h
        exact ⟨rfl, rfl, rfl, rfl, rfl, hout, rfl⟩
  case destroy =>
      cases h
      refine Or.inr ⟨fun q hq => (by cases hq), rfl, rfl, rfl, rfl, rfl, ?_, rfl⟩
      show (if s.abort_ then CallerPc.destroyThread else .setAbort true).view = .out
      split_ifs <;> rfl
  case destroyThread =>
      cases h
      refine Or.inr ⟨fun q hq => (by cases hq), rfl, rfl, rfl, rfl, rfl, ?_, rfl⟩
      show (if s.thread_.isSome then CallerPc.abandoned else .destroyed).view = .out
      split_ifs <;> rfl
  all_goals
    cases h <;> exact Or.inr ⟨fun q hq => (by cases hq), rfl, rfl, rfl, rfl, rfl, rfl, rfl⟩

/-- A step of the caller is its move. -/
lemma callerStep_move (h : callerStep sensor_ s = some s') :
    MemberMove batteryMembers .caller (view s .caller) s.data (view s' .caller) s'.data ∧
      ∀ x, x ≠ .caller → view s' x = view s x := by
  rcases callerStep_cases h with ⟨p, bus, data, n, hp, hstep, rfl⟩ |
    ⟨hp, hdata, -, hclients, -, -, hout, hthread⟩
  · refine ⟨?_, fun x hx => ?_⟩
    · have hmove := storeStep_move hstep
      rw [view, view, hp]
      cases n with
      | inl q => exact hmove
      | inr r => exact hmove
    · cases x with
      | caller => exact absurd rfl hx
      | poller => rfl
      | client i => rfl
  · have hbefore : s.caller.view = .out := by
      cases hc : s.caller with
      | readAndStore p => exact absurd hc (hp p)
      | _ => rfl
    refine ⟨?_, fun x hx => ?_⟩
    · rw [view, view, hbefore, hout, hdata]
      exact .stay _ _
    · cases x with
      | caller => exact absurd rfl hx
      | poller => exact hthread
      | client i => rw [view, view, hclients]

/-- A step of the polling thread in `read_and_store`, one in `build_json`, or one that leaves the
record and the bus alone. -/
lemma pollerStep_cases (h : pollerStep sensor_ s = some s') :
    (∃ p bus data n, s.thread_ = some (.readAndStore p) ∧
        storeStep sensor_ .poller p s.bus s.data = some (bus, data, n) ∧
        s' = { s with
          bus := bus
          data := data
          thread_ := some (n.elim .readAndStore fun _ => .testCallback)
          polled := s.polled ++ (n.elim (fun _ => []) fun r => [r]) }) ∨
      (∃ p data n, s.thread_ = some (.build p) ∧
        buildStep .poller p s.data = some (data, n) ∧
        s' = { s with
          data := data
          thread_ := some (n.elim .build .push) }) ∨
      ((∃ p, s.thread_ = some p ∧ p.view = .out ∧ (∀ q, p ≠ .readAndStore q)) ∧
        (∃ p, s'.thread_ = some p ∧ p.view = .out) ∧
        s'.data = s.data ∧ s'.bus = s.bus ∧ s'.caller = s.caller ∧ s'.clients = s.clients ∧
        s'.abort_ = s.abort_ ∧ s'.push_cb_ = s.push_cb_ ∧ s'.polled = s.polled) := by
  rw [pollerStep] at h
  cases ht : s.thread_ with
  | none => simp [ht] at h
  | some p =>
      rw [ht] at h
      cases p
      case readAndStore p =>
          obtain ⟨⟨bus, data, n⟩, hstep, rfl⟩ := Option.map_eq_some_iff.mp h
          exact Or.inl ⟨p, bus, data, n, rfl, hstep, rfl⟩
      case build p =>
          obtain ⟨⟨data, n⟩, hstep, rfl⟩ := Option.map_eq_some_iff.mp h
          exact Or.inr (Or.inl ⟨p, data, n, rfl, hstep, rfl⟩)
      case ended => cases h
      all_goals
        cases h
        refine Or.inr (Or.inr ⟨⟨_, rfl, rfl, fun q hq => (by cases hq)⟩, ⟨_, rfl, ?_⟩, rfl, rfl,
          rfl, rfl, rfl, rfl, rfl⟩)
        first | rfl | (split_ifs <;> rfl)

/-- A step of the polling thread is its move. -/
lemma pollerStep_move (h : pollerStep sensor_ s = some s') :
    MemberMove batteryMembers .poller (view s .poller) s.data (view s' .poller) s'.data ∧
      ∀ x, x ≠ .poller → view s' x = view s x := by
  rcases pollerStep_cases h with ⟨p, bus, data, n, hp, hstep, rfl⟩ |
    ⟨p, data, n, hp, hstep, rfl⟩ |
    ⟨⟨p, hp, hout, -⟩, ⟨q, hq, hout'⟩, hdata, -, hcaller, hclients, -⟩
  · refine ⟨?_, fun x hx => ?_⟩
    · have hmove := storeStep_move hstep
      rw [view, view, hp]
      cases n with
      | inl q => exact hmove
      | inr r => exact hmove
    · cases x with
      | caller => rfl
      | poller => exact absurd rfl hx
      | client i => rfl
  · refine ⟨?_, fun x hx => ?_⟩
    · have hmove := buildStep_move hstep
      rw [view, view, hp]
      cases n with
      | inl q => exact hmove
      | inr r => exact hmove
    · cases x with
      | caller => rfl
      | poller => exact absurd rfl hx
      | client i => rfl
  · refine ⟨?_, fun x hx => ?_⟩
    · rw [view, view, hp, hq, Option.elim_some, Option.elim_some, hout, hout', hdata]
      exact .stay _ _
    · cases x with
      | caller => rw [view, view, hcaller]
      | poller => exact absurd rfl hx
      | client i => rw [view, view, hclients]

variable [DecidableEq ι]

/-- A step of a client is its move. -/
lemma clientStep_move {i : ι} (h : clientStep i s = some s') :
    MemberMove batteryMembers (.client i) (view s (.client i)) s.data (view s' (.client i))
      s'.data ∧
      ∀ x, x ≠ .client i → view s' x = view s x := by
  obtain ⟨p, hp, h⟩ := Option.bind_eq_some_iff.mp h
  obtain ⟨⟨data, n⟩, hstep, rfl⟩ := Option.map_eq_some_iff.mp h
  refine ⟨?_, fun x hx => ?_⟩
  · have hmove := buildStep_move hstep
    simp only [view, hp, Function.update_self]
    cases n with
    | inl q => exact hmove
    | inr r => exact hmove
  · cases x with
    | caller => rfl
    | poller => rfl
    | client j =>
        have hji : j ≠ i := fun hji => hx (by rw [hji])
        simp only [view, Function.update_of_ne hji]

/-- **Every step is a move of one thread.** -/
lemma step_move {e : MonitorStep ι} (h : (monitorSystem sensor_ ι).step s e = some s') :
    ∃ x, MemberMove batteryMembers x (view s x) s.data (view s' x) s'.data ∧
      ∀ y, y ≠ x → view s' y = view s y := by
  have hstay : s'.data = s.data → (∀ x, view s' x = view s x) →
      ∃ x, MemberMove batteryMembers x (view s x) s.data (view s' x) s'.data ∧
        ∀ y, y ≠ x → view s' y = view s y := by
    intro hdata hview
    refine ⟨.caller, ?_, fun y _ => hview y⟩
    rw [hdata, hview]
    exact .stay _ _
  cases e with
  | start on_update => exact (call_view rfl h).elim hstay
  | stop => exact (call_view rfl h).elim hstay
  | destroy => exact (call_view rfl h).elim hstay
  | caller => exact ⟨_, callerStep_move h⟩
  | poller => exact ⟨_, pollerStep_move h⟩
  | client i => exact ⟨_, clientStep_move h⟩
  | getJson i =>
      simp only [monitorSystem] at h
      split at h
      · rename_i hnone
        cases h
        refine hstay rfl fun x => ?_
        cases x with
        | caller => rfl
        | poller => rfl
        | client j =>
            by_cases hj : j = i
            · simp only [view, hj, Function.update_self, hnone]
              rfl
            · simp only [view, Function.update_of_ne hj]
      · cases h

/-- **Nothing is torn**, whatever the calls and the order of the steps. -/
lemma reach_whole {C : MonitorState ι → MonitorStep ι → Prop}
    (h : (monitorSystem sensor_ ι).Reach C s) : Whole batteryMembers (view s) s.data := by
  refine h.invariant (fun s => Whole batteryMembers (view s) s.data) ?_ ?_
  · rintro _ ⟨bus, rfl⟩
    have hview : view (new ι bus) = fun _ => .out := by
      funext x
      cases x <;> rfl
    rw [hview]
    exact .init BatteryRecord.initial
  · intro s e s' _ hwhole _ hstep
    obtain ⟨x, hmove, hothers⟩ := step_move hstep
    exact hwhole.move hmove hothers

/-- What a thread has left of the members is an end of them. -/
lemma reach_suffix {C : MonitorState ι → MonitorStep ι → Prop}
    (h : (monitorSystem sensor_ ι).Reach C s) (x : Who ι) : (view s x).Suffix batteryMembers := by
  refine h.invariant (fun s => ∀ x, (view s x).Suffix batteryMembers) ?_ ?_ x
  · rintro _ ⟨bus, rfl⟩ x
    cases x <;> trivial
  · intro s e s' _ hsuffix _ hstep y
    obtain ⟨x, hmove, hothers⟩ := step_move hstep
    by_cases hy : y = x
    · rw [hy]
      exact hmove.suffix (hsuffix x)
    · rw [hothers y hy]
      exact hsuffix y

end BatteryMonitor

end RasPiZeroCam
