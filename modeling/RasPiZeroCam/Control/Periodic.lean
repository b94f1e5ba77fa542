import RasPiZeroCam.Control.Handlers
import RasPiZeroCam.Transition.Deadline
import RasPiZeroCam.Transition.System

/-!
The main loop of `main`, which broadcasts what the source does and how much storage is left.

* `LoopTimer`, `LoopEvent`: the three timers, and what the loop does with them.
* `LoopPc`, `LoopState`, `loopStep`: the statements of the loop, between which the clients' commands
  and the threads of the source change what it reads.
* `LoopClocked`: a timer has run out when a period has passed since every time it was armed.
* `broadcasts_paced`: a window of time holds no more broadcasts than periods, and two; counted by
  the passes they belong to, and one.
-/

namespace RasPiZeroCam

open Transition System Lexer TextParser Dtoa Json BatteryMonitor

/-- The timers: `next_rec_push`, `next_storage_check` and `next_stat`. -/
inductive LoopTimer where
  | recPush
  | storageCheck
  | stat
  deriving DecidableEq

/-- `1s`. -/
def second : ℕ := 1000000000

/-- What is added to the time at which a timer is armed. -/
def LoopTimer.period : LoopTimer → ℕ
  | recPush => second
  | storageCheck => 10 * second
  | stat => 60 * second

/-- What the loop does; `now` is the time that was read at the beginning of the pass. -/
inductive LoopEvent where
  | arm (k : LoopTimer) (now : ℕ)       -- `next_.. = now + ..`
  | fire (k : LoopTimer) (now : ℕ)      -- `now >= next_..`: its block is entered
  | recording (file : Bytes)            -- `current_recording()` has returned `file`
  | broadcast (k : LoopTimer) (now t : ℕ) (json : Bytes)  -- by the block of `k`, at the time `t`

namespace LoopEvent

/-- The time at which it arms the timer `k`. -/
def armed (k : LoopTimer) : LoopEvent → Option ℕ
  | arm k' t => if k' = k then some t else none
  | _ => none

/-- A broadcast by the block of `k`: the time of the pass, and its own. -/
def sent (k : LoopTimer) : LoopEvent → Option (ℕ × ℕ)
  | broadcast k' now t _ => if k' = k then some (now, t) else none
  | _ => none

end LoopEvent

/-- The statements of `main` from the timers on. -/
inductive LoopPc where
  | armRecPush
  | armStorageCheck
  | armStat
  | test                                -- the condition of the loop
  | sleep (since : ℕ)                   -- `sleep_for(250ms)`, and `now = Clock::now()` behind it
  | status (now : ℕ)                    -- `if (gst_cam.is_recording() && now >= next_rec_push)`
  | file (now : ℕ)                      -- `current_recording()`
  | push (now : ℕ) (file : Bytes)       -- the rest of the block
  | reset (now : ℕ)                     -- `if (!gst_cam.is_recording())`
  | storage (now : ℕ)                   -- `if (now >= next_storage_check)`
  | stats (now : ℕ)                     -- `if (now >= next_stat)`
  | left                                -- behind the loop
  | thrown (e : Exception)              -- out of `main`

/-- The state of the program. -/
structure LoopState where
  g_running : Bool
  gst_cam : Source
  clock : ℕ                             -- the steady clock, in nanoseconds
  next : LoopTimer → ℕ
  pc : LoopPc
  events : List LoopEvent

/-- What the calls of a statement of the loop return. -/
structure LoopCalls where
  file_size : Option ℕ                  -- `fs::file_size(file)`, unless it throws
  recording_seconds : Int32
  free_mb : Int64
  battery : BatteryRecord

/-- A step of the main thread, a message of a client, a change of the source by its own threads or
by `set_resolution`, the time, or a signal. -/
inductive LoopStep where
  | main (c : LoopCalls)
  | message (raw : Bytes) (o : Outcome)
  | source (running recording : Bool)
  | tick (ns : ℕ)
  | signal

/-- What the loop is given: the libraries, whether there is a sensor, and the size of a file over
`1024.0 * 1024.0`. -/
structure LoopConfig where
  lib : LibraryCalls
  power_ok : Bool
  size_mb : ℕ → UInt64

/-! ### The loop -/

/-- The `recording_status`. -/
def recordingStatus (file : Bytes) (duration_s : Int32) (size_mb : UInt64) : Json :=
  jsonObject [(ascii "type", .string (ascii "recording_status")), (ascii "active", .boolean true),
    (ascii "file", .string file), (ascii "duration_s", .numberInteger duration_s.toInt),
    (ascii "size_mb", .numberFloat size_mb)]

/-- The `storage_warning`. -/
def storageWarning (free_mb : Int64) : Json :=
  jsonObject [(ascii "type", .string (ascii "storage_warning")),
    (ascii "free_mb", .numberInteger free_mb.toInt)]

/-- `j.value("percentage", 0)`; the number is only printed. -/
def percentageMember : Json → Except Exception Unit
  | .object members =>
      match find (ascii "percentage") members with
      | none => .ok ()
      | some (.numberInteger _) => .ok ()
      | some (.numberUnsigned _) => .ok ()
      | some (.numberFloat _) => .ok ()
      | some (.boolean _) => .ok ()
      | some j => .error (typeError 302 (ascii "type must be number, but is " ++ j.typeName))
  | j => .error (typeError 306 (ascii "cannot use value() with " ++ j.typeName))

/-- What the line of statistics asks of the battery. -/
def statBattery (cfg : LoopConfig) (battery : BatteryRecord) : Except Exception Unit :=
  if cfg.power_ok then do
    let j ← (parse cfg.lib.strtod (buildJson battery)).mapError cfg.lib.describe
    percentageMember j
  else .ok ()

namespace LoopState

/-- `next_.. = t + ..`. -/
def arm (k : LoopTimer) (t : ℕ) (s : LoopState) : LoopState :=
  { s with
    next := Function.update s.next k (t + k.period)
    events := s.events ++ [.arm k t] }

/-- Something happens. -/
def emit (e : LoopEvent) (s : LoopState) : LoopState := { s with events := s.events ++ [e] }

/-- The next statement. -/
def goto (pc : LoopPc) (s : LoopState) : LoopState := { s with pc := pc }

end LoopState

open LoopState

/-- The block of `recording_status`, on the file that is recorded. -/
def pushStatus (cfg : LoopConfig) (c : LoopCalls) (now : ℕ) (file : Bytes) (s : LoopState) :
    LoopState :=
  match dump (dumpFloat cfg.lib.grisu2)
    (recordingStatus file c.recording_seconds (cfg.size_mb (c.file_size.getD 0))) with
  | .error e => s.goto (.thrown e)
  | .ok json => ((s.emit (.broadcast .recPush now s.clock json)).arm .recPush now).goto (.reset now)

/-- The block of the storage check. -/
def checkStorage (cfg : LoopConfig) (c : LoopCalls) (now : ℕ) (s : LoopState) : LoopState :=
  if c.free_mb < 500 then
    match dump (dumpFloat cfg.lib.grisu2) (storageWarning c.free_mb) with
    | .error e => s.goto (.thrown e)
    | .ok json =>
        ((s.emit (.broadcast .storageCheck now s.clock json)).arm .storageCheck now).goto
          (.stats now)
  else (s.arm .storageCheck now).goto (.stats now)

/-- A statement of the main thread. -/
def loopStep (cfg : LoopConfig) (c : LoopCalls) (s : LoopState) : Option LoopState :=
  match s.pc with
  | .armRecPush => some ((s.arm .recPush s.clock).goto .armStorageCheck)
  | .armStorageCheck => some ((s.arm .storageCheck s.clock).goto .armStat)
  | .armStat => some ((s.arm .stat s.clock).goto .test)
  | .test => some (s.goto (if s.g_running && s.gst_cam.isRunning then .sleep s.clock else .left))
  | .sleep since =>
      if since + second / 4 ≤ s.clock then some (s.goto (.status s.clock)) else none
  | .status now =>
      if s.gst_cam.isRecording && decide (s.next .recPush ≤ now) then
        some ((s.emit (.fire .recPush now)).goto (.file now))
      else some (s.goto (.reset now))
  | .file now =>
      some ((s.emit (.recording s.gst_cam.currentRecording)).goto
        (.push now s.gst_cam.currentRecording))
  | .push now file => some (pushStatus cfg c now file s)
  | .reset now =>
      if s.gst_cam.isRecording then some (s.goto (.storage now))
      else some ((s.arm .recPush now).goto (.storage now))
  | .storage now =>
      if s.next .storageCheck ≤ now then
        some (checkStorage cfg c now (s.emit (.fire .storageCheck now)))
      else some (s.goto (.stats now))
  | .stats now =>
      if s.next .stat ≤ now then
        match statBattery cfg c.battery with
        | .error e => some ((s.emit (.fire .stat now)).goto (.thrown e))
        | .ok () => some (((s.emit (.fire .stat now)).arm .stat now).goto .test)
      else some (s.goto .test)
  | .left => none
  | .thrown _ => none

/-- What a message does to the source: only the recording commands change what the loop reads. -/
def afterMessage (lib : LibraryCalls) (raw : Bytes) (o : Outcome) (s : Source) : Source :=
  match parse lib.strtod raw with
  | .error _ => s
  | .ok msg =>
      match msg.value (ascii "cmd") [] with
      | .error _ => s
      | .ok cmd =>
          if cmd = ascii "record_start" then (recordStart msg o s).source
          else if cmd = ascii "record_stop" then (recordStop o s).source
          else if cmd = ascii "record_restart" then (recordRestart o s).source
          else s

/-- The program from the loop on; the source has been started, and may have been used. -/
def loopSystem (cfg : LoopConfig) : System LoopState LoopStep where
  init s := ValidUtf8 s.gst_cam.currentFile ∧
    s = ⟨true, s.gst_cam, s.clock, fun _ => 0, .armRecPush, []⟩
  step s
    | .main c => loopStep cfg c s
    | .message raw o => some { s with gst_cam := afterMessage cfg.lib raw o s.gst_cam }
    | .source running recording =>
        some { s with gst_cam := { s.gst_cam with running := running, recording := recording } }
    | .tick ns => some { s with clock := s.clock + ns }
    | .signal => some { s with g_running := false }

/-! ### Timers and time -/

/-- When a timer was armed. -/
def arms (k : LoopTimer) (events : List LoopEvent) : List ℕ := events.filterMap (LoopEvent.armed k)

/-- The timers and the events, no timer having been armed later than `bound`. -/
structure Logged (next : LoopTimer → ℕ) (events : List LoopEvent) (bound : ℕ) : Prop where
  armed : ∀ k, Armed (next k) k.period (arms k events)
  past : ∀ k, ∀ u ∈ arms k events, u ≤ bound

variable {next : LoopTimer → ℕ} {events : List LoopEvent} {bound now : ℕ} {k : LoopTimer}

lemma arms_append (k : LoopTimer) (l l' : List LoopEvent) :
    arms k (l ++ l') = arms k l ++ arms k l' :=
  List.filterMap_append

/-- An event at which no timer is armed does not change when they were. -/
lemma arms_concat (e : LoopEvent) (h : e.armed k = none) :
    arms k (events ++ [e]) = arms k events := by
  rw [arms_append, arms, arms, List.filterMap_cons_none h, List.filterMap_nil, List.append_nil]

lemma Logged.later (h : Logged next events bound) {bound' : ℕ} (hle : bound ≤ bound') :
    Logged next events bound' := ⟨h.armed, fun k u hu => (h.past k u hu).trans hle⟩

/-- An event that leaves the timers alone. -/
lemma Logged.event (h : Logged next events bound) (e : LoopEvent) (harm : ∀ k, e.armed k = none) :
    Logged next (events ++ [e]) bound :=
  ⟨fun k => (arms_concat e (harm k)).symm ▸ h.armed k,
    fun k => (arms_concat e (harm k)).symm ▸ h.past k⟩

/-- A timer that is armed now. -/
lemma Logged.arm (h : Logged next events bound) (k : LoopTimer) :
    Logged (Function.update next k (bound + k.period)) (events ++ [.arm k bound]) bound := by
  have hself : arms k (events ++ [.arm k bound]) = arms k events ++ [bound] := by
    have harm : LoopEvent.armed k (.arm k bound) = some bound := if_pos rfl
    rw [arms_append, arms, arms, List.filterMap_cons_some harm, List.filterMap_nil]
  have hother : ∀ k', k' ≠ k → arms k' (events ++ [.arm k bound]) = arms k' events :=
    fun k' hk => arms_concat _ (if_neg fun heq => hk heq.symm)
  refine ⟨fun k' => ?_, fun k' u hu => ?_⟩
  · by_cases hk : k' = k
    · rw [hk, Function.update_self, hself]
      exact .rearm (h.past k)
    · rw [Function.update_of_ne hk, hother k' hk]
      exact h.armed k'
  · by_cases hk : k' = k
    · rw [hk, hself] at hu
      rcases List.mem_append.mp hu with hu | hu
      · exact h.past k u hu
      · exact (List.mem_singleton.mp hu).le
    · rw [hother k' hk] at hu
      exact h.past k' u hu

/-! ### The timers of the loop -/

/-- The time of the pass. -/
def LoopPc.time : LoopPc → Option ℕ
  | .status now => some now
  | .file now => some now
  | .push now _ => some now
  | .reset now => some now
  | .storage now => some now
  | .stats now => some now
  | _ => none

/-- Inside the block of `recording_status`, its timer is due; the events end with those of the
block. -/
def LoopPc.Fired (events : List LoopEvent) : LoopPc → Prop
  | .file now => Due second (arms .recPush events) now ∧
      events.getLast? = some (.fire .recPush now)
  | .push now name => Due second (arms .recPush events) now ∧
      events.getLast? = some (.recording name)
  | _ => True

/-- The timers are those of the events, and were armed no later than the pass. -/
structure LoopClocked (s : LoopState) : Prop where
  logged : Logged s.next s.events (s.pc.time.getD s.clock)
  present : ∀ now ∈ s.pc.time, now ≤ s.clock
  fired : s.pc.Fired s.events

variable {cfg : LoopConfig} {c : LoopCalls} {s s' : LoopState}

lemma LoopClocked.logged_clock (h : LoopClocked s) : Logged s.next s.events s.clock := by
  cases hpc : s.pc.time with
  | none =>
      have hlogged := h.logged
      rw [hpc] at hlogged
      exact hlogged
  | some now =>
      have hlogged := h.logged
      rw [hpc] at hlogged
      exact hlogged.later (h.present now hpc)

/-- Where a pass has come to, at its own time. -/
lemma LoopClocked.of_logged {s : LoopState} {now : ℕ} (htime : s.pc.time = some now)
    (hle : now ≤ s.clock) (hlogged : Logged s.next s.events now) (hfired : s.pc.Fired s.events) :
    LoopClocked s := by
  refine ⟨?_, fun now' hnow' => ?_, hfired⟩
  · rw [htime]
    exact hlogged
  · obtain rfl : now = now' := Option.some.inj (htime.symm.trans hnow')
    exact hle

/-- Outside of a pass. -/
lemma LoopClocked.outside {s : LoopState} (htime : s.pc.time = none)
    (hlogged : Logged s.next s.events s.clock) (hfired : s.pc.Fired s.events) : LoopClocked s := by
  refine ⟨?_, fun now' hnow' => ?_, hfired⟩
  · rw [htime]
    exact hlogged
  · rw [htime] at hnow'
    cases hnow'

/-- **A statement keeps the timers.** -/
lemma loopStep_clocked (hs : LoopClocked s) (h : loopStep cfg c s = some s') : LoopClocked s' := by
  obtain ⟨g_running, gst_cam, clock, next, pc, events⟩ := s
  have hclock : Logged next events clock := hs.logged_clock
  have hlogged := hs.logged
  have hpresent := hs.present
  have hfired := hs.fired
  cases pc
  case armRecPush =>
      cases h
      exact .outside rfl (hclock.arm .recPush) trivial
  case armStorageCheck =>
      cases h
      exact .outside rfl (hclock.arm .storageCheck) trivial
  case armStat =>
      cases h
      exact .outside rfl (hclock.arm .stat) trivial
  case test =>
      cases h
      refine .outside ?_ hclock ?_ <;> simp only [LoopState.goto] <;> split_ifs <;> trivial
  case sleep since =>
      simp only [loopStep] at h
      split_ifs at h
      cases h
      exact .of_logged rfl le_rfl hclock trivial
  case status now =>
      have hle : now ≤ clock := hpresent now rfl
      simp only [loopStep] at h
      split_ifs at h with hdue <;> cases h
      · have hfire := (hlogged.armed .recPush now).mp
          (of_decide_eq_true (Bool.and_eq_true_iff.mp hdue).2)
        have hstill : Due second (arms .recPush (events ++ [.fire .recPush now])) now := by
          rw [arms_concat _ rfl]
          exact hfire
        exact .of_logged rfl hle (hlogged.event _ fun _ => rfl) ⟨hstill, List.getLast?_concat⟩
      · exact .of_logged rfl hle hlogged trivial
  case file now =>
      cases h
      have hstill : Due second
          (arms .recPush (events ++ [.recording gst_cam.currentRecording])) now := by
        rw [arms_concat _ rfl]
        exact hfired.1
      exact .of_logged rfl (hpresent now rfl) (hlogged.event _ fun _ => rfl)
        ⟨hstill, List.getLast?_concat⟩
  case push now file =>
      have hle : now ≤ clock := hpresent now rfl
      cases h
      rw [pushStatus]
      split
      · exact .outside rfl hclock trivial
      · rename_i json _
        have hpush := hlogged.event (.broadcast .recPush now clock json) fun _ => rfl
        exact .of_logged rfl hle (hpush.arm .recPush) trivial
  case reset now =>
      have hle : now ≤ clock := hpresent now rfl
      simp only [loopStep] at h
      split_ifs at h <;> cases h
      · exact .of_logged rfl hle hlogged trivial
      · exact .of_logged rfl hle (hlogged.arm .recPush) trivial
  case storage now =>
      have hle : now ≤ clock := hpresent now rfl
      simp only [loopStep] at h
      split_ifs at h with hdue <;> cases h
      · have hfire := hlogged.event (.fire .storageCheck now) fun _ => rfl
        rw [checkStorage]
        split_ifs
        · split
          · exact .outside rfl (hfire.later hle) trivial
          · rename_i json _
            have hwarn := hfire.event (.broadcast .storageCheck now clock json) fun _ => rfl
            exact .of_logged rfl hle (hwarn.arm .storageCheck) trivial
        · exact .of_logged rfl hle (hfire.arm .storageCheck) trivial
      · exact .of_logged rfl hle hlogged trivial
  case stats now =>
      have hle : now ≤ clock := hpresent now rfl
      simp only [loopStep] at h
      split_ifs at h with hdue
      · have hfire := hlogged.event (.fire .stat now) fun _ => rfl
        split at h <;> cases h
        · exact .outside rfl (hfire.later hle) trivial
        · exact .outside rfl ((hfire.arm .stat).later hle) trivial
      · cases h
        exact .outside rfl (hlogged.later hle) trivial
  case left => cases h
  case thrown => cases h

/-- What the other threads do is later than the events. -/
lemma LoopClocked.clock {clock : ℕ} (hs : LoopClocked s) (hle : s.clock ≤ clock) :
    LoopClocked { s with clock := clock } := by
  refine ⟨?_, fun now hnow => (hs.present now hnow).trans hle, hs.fired⟩
  cases htime : s.pc.time with
  | none => exact hs.logged_clock.later hle
  | some now =>
      have hlogged := hs.logged
      rw [htime] at hlogged
      exact hlogged

/-- **A step keeps the timers.** -/
lemma step_clocked (hs : LoopClocked s) {e : LoopStep} (h : (loopSystem cfg).step s e = some s') :
    LoopClocked s' := by
  cases e with
  | main c => exact loopStep_clocked hs h
  | tick ns =>
      cases h
      exact hs.clock (Nat.le_add_right _ _)
  | message raw o =>
      cases h
      exact ⟨hs.logged, hs.present, hs.fired⟩
  | source running recording =>
      cases h
      exact ⟨hs.logged, hs.present, hs.fired⟩
  | signal =>
      cases h
      exact ⟨hs.logged, hs.present, hs.fired⟩

/-- The timers of every run. -/
lemma reach_clocked {C : LoopState → LoopStep → Prop} (h : (loopSystem cfg).Reach C s) :
    LoopClocked s := by
  refine h.invariant LoopClocked (fun s hinit => ?_) fun s e s' _ hs _ hst => step_clocked hs hst
  rw [hinit.2]
  exact .outside rfl ⟨fun k => .zero _, fun k u hu => by cases hu⟩ trivial

/-! ### How often there are broadcasts -/

/-- The broadcasts by the block of `k`. -/
def sent (k : LoopTimer) (events : List LoopEvent) : List (ℕ × ℕ) :=
  events.filterMap (LoopEvent.sent k)

lemma sent_append (k : LoopTimer) (l l' : List LoopEvent) :
    sent k (l ++ l') = sent k l ++ sent k l' :=
  List.filterMap_append

/-- The times of the broadcasts of a block: a period apart by their passes, at which its timer was
armed; each in its pass and so before the next one, and none later than `bound`. -/
structure Paced (k : LoopTimer) (events : List LoopEvent) (bound : ℕ) : Prop where
  spaced : Spaced k.period ((sent k events).map Prod.fst)
  armed : ∀ x ∈ sent k events, x.1 ∈ arms k events
  late : ∀ x ∈ sent k events, x.1 ≤ x.2
  order : (sent k events).Pairwise fun x y => x.2 ≤ y.1
  past : ∀ x ∈ sent k events, x.2 ≤ bound

/-- Events among which the block broadcasts nothing. -/
lemma Paced.keep (h : Paced k events bound) {es : List LoopEvent} {bound' : ℕ}
    (hes : sent k es = []) (hle : bound ≤ bound') : Paced k (events ++ es) bound' := by
  have hsame : sent k (events ++ es) = sent k events := by
    rw [sent_append, hes, List.append_nil]
  constructor <;> rw [hsame]
  · exact h.spaced
  · intro x hx
    rw [arms_append]
    exact List.mem_append_left _ (h.armed x hx)
  · exact h.late
  · exact h.order
  · exact fun x hx => (h.past x hx).trans hle

/-- No time has passed that matters. -/
lemma Paced.later (h : Paced k events bound) {bound' : ℕ} (hle : bound ≤ bound') :
    Paced k events bound' := by
  have hkeep : Paced k (events ++ []) bound' := h.keep rfl hle
  rwa [List.append_nil] at hkeep

/-- A broadcast, at whose pass the timer is due, and is armed again. -/
lemma Paced.broadcast (h : Paced k events now) {t : ℕ} (hdue : Due k.period (arms k events) now)
    (hle : now ≤ t) (json : Bytes) :
    Paced k (events ++ [.broadcast k now t json] ++ [.arm k now]) t := by
  have hsent : sent k (events ++ [.broadcast k now t json] ++ [.arm k now]) =
      sent k events ++ [(now, t)] := by
    have hself : LoopEvent.sent k (.broadcast k now t json) = some (now, t) := if_pos rfl
    rw [sent_append, sent_append, sent, sent, sent, List.filterMap_cons_some hself,
      List.filterMap_nil]
    exact List.append_nil _
  have hnew : now ∈ arms k (events ++ [.broadcast k now t json] ++ [.arm k now]) :=
    List.mem_filterMap.mpr ⟨.arm k now, List.mem_append_right _ (List.mem_singleton_self _),
      if_pos rfl⟩
  have hold : ∀ {C : ℕ × ℕ → Prop}, (∀ x ∈ sent k events, C x) → C (now, t) →
      ∀ x ∈ sent k events ++ [(now, t)], C x := by
    intro C hevents hlast x hx
    rcases List.mem_append.mp hx with hx | hx
    · exact hevents x hx
    · rw [List.mem_singleton.mp hx]
      exact hlast
  constructor <;> rw [hsent]
  · rw [List.map_append]
    refine h.spaced.concat hdue fun u hu => ?_
    obtain ⟨x, hx, rfl⟩ := List.mem_map.mp hu
    exact h.armed x hx
  · refine hold (fun x hx => ?_) hnew
    rw [arms_append, arms_append]
    exact List.mem_append_left _ (List.mem_append_left _ (h.armed x hx))
  · exact hold h.late hle
  · refine List.pairwise_append.mpr ⟨h.order, List.pairwise_singleton _ _, fun x hx y hy => ?_⟩
    rw [List.mem_singleton.mp hy]
    exact h.past x hx
  · exact hold (fun x hx => (h.past x hx).trans hle) le_rfl

/-- The time of the pass, while the block of `k` is ahead. -/
def LoopPc.ahead (k : LoopTimer) : LoopPc → Option ℕ
  | .status now => some now
  | .file now => some now
  | .push now _ => some now
  | .reset now => if k = .recPush then none else some now
  | .storage now => if k = .recPush then none else some now
  | _ => none

/-- No broadcast is later than the pass, before its block is reached. -/
def LoopPaced (s : LoopState) : Prop := ∀ k, Paced k s.events ((s.pc.ahead k).getD s.clock)

/-- It is no later than the clock. -/
lemma LoopClocked.ahead_le (hs : LoopClocked s) (k : LoopTimer) :
    (s.pc.ahead k).getD s.clock ≤ s.clock := by
  have hpresent := hs.present
  cases hpc : s.pc <;> rw [hpc] at hpresent <;> try exact le_rfl
  case status now => exact hpresent now rfl
  case file now => exact hpresent now rfl
  case push now file => exact hpresent now rfl
  case reset now =>
      rw [LoopPc.ahead]
      split_ifs
      · exact le_rfl
      · exact hpresent now rfl
  case storage now =>
      rw [LoopPc.ahead]
      split_ifs
      · exact le_rfl
      · exact hpresent now rfl

/-- **A statement keeps the pace.** -/
lemma loopStep_paced (hs : LoopClocked s) (hp : LoopPaced s) (h : loopStep cfg c s = some s') :
    LoopPaced s' := by
  have hclock : ∀ k, Paced k s.events s.clock := fun k => (hp k).later (hs.ahead_le k)
  obtain ⟨g_running, gst_cam, clock, next, pc, events⟩ := s
  have hlogged := hs.logged
  have hpresent := hs.present
  have hfired := hs.fired
  cases pc <;> simp only [loopStep] at h
  case armRecPush =>
      cases h
      exact fun k => (hclock k).keep rfl le_rfl
  case armStorageCheck =>
      cases h
      exact fun k => (hclock k).keep rfl le_rfl
  case armStat =>
      cases h
      exact fun k => (hclock k).keep rfl le_rfl
  case test =>
      cases h
      intro k
      simp only [LoopState.goto]
      split_ifs <;> exact hclock k
  case sleep since =>
      split_ifs at h
      cases h
      exact hclock
  case status now =>
      split_ifs at h <;> cases h
      · exact fun k => (hp k).keep rfl le_rfl
      · intro k
        cases k
        · exact hclock .recPush
        · exact hp .storageCheck
        · exact hp .stat
  case file now =>
      cases h
      exact fun k => (hp k).keep rfl le_rfl
  case push now file =>
      have hle : now ≤ clock := hpresent now rfl
      cases h
      rw [pushStatus]
      split
      · exact hclock
      · intro k
        cases k
        · exact (hp .recPush).broadcast hfired.1 hle _
        · exact ((hp .storageCheck).keep rfl le_rfl).keep rfl le_rfl
        · exact ((hp .stat).keep rfl le_rfl).keep rfl le_rfl
  case reset now =>
      split_ifs at h <;> cases h
      · exact hp
      · exact fun k => (hp k).keep rfl le_rfl
  case storage now =>
      have hle : now ≤ clock := hpresent now rfl
      split_ifs at h with hdue <;> cases h
      · have hfire : Paced .storageCheck (events ++ [.fire .storageCheck now]) now :=
          (hp .storageCheck).keep rfl le_rfl
        have hdue' : Due (10 * second)
            (arms .storageCheck (events ++ [.fire .storageCheck now])) now := by
          rw [arms_concat _ rfl]
          exact (hlogged.armed .storageCheck now).mp hdue
        rw [checkStorage]
        split_ifs
        · split
          · exact fun k => (hclock k).keep rfl le_rfl
          · intro k
            cases k
            · exact (((hclock .recPush).keep rfl le_rfl).keep rfl le_rfl).keep rfl le_rfl
            · exact hfire.broadcast hdue' hle _
            · exact (((hclock .stat).keep rfl le_rfl).keep rfl le_rfl).keep rfl le_rfl
        · exact fun k => ((hclock k).keep rfl le_rfl).keep rfl le_rfl
      · exact hclock
  case stats now =>
      split_ifs at h
      · split at h <;> cases h
        · exact fun k => (hp k).keep rfl le_rfl
        · exact fun k => ((hp k).keep rfl le_rfl).keep rfl le_rfl
      · cases h
        exact hp
  case left => cases h
  case thrown => cases h

/-- **The broadcasts keep a pace**: in every run, a window of time holds at most one broadcast of a
block for each of its periods, and two more; or one more, of those whose passes began in it. -/
theorem broadcasts_paced (cfg : LoopConfig) (s : LoopState)
    (h : (loopSystem cfg).Reach (fun _ _ => True) s) (k : LoopTimer) (a b : ℕ) (hab : a ≤ b) :
    ((sent k s.events).filter fun x => a ≤ x.2 ∧ x.2 ≤ b).length * k.period ≤
        b - a + 2 * k.period ∧
      (((sent k s.events).map Prod.fst).filter fun u => a ≤ u ∧ u ≤ b).length * k.period ≤
        b - a + k.period := by
  have hpaced : LoopPaced s := by
    refine h.invariant LoopPaced (fun s hinit => ?_) fun s e s' hs hp _ hst => ?_
    · rw [hinit.2]
      intro k
      constructor <;> first | exact List.Pairwise.nil | exact fun x hx => (by cases hx)
    · cases e with
      | main c => exact loopStep_paced (reach_clocked hs) hp hst
      | tick ns =>
          cases hst
          intro k
          refine (hp k).later ?_
          cases hahead : s.pc.ahead k with
          | none => exact Nat.le_add_right _ _
          | some now => exact le_rfl
      | _ =>
          cases hst
          exact hp
  have hk := hpaced k
  exact ⟨hk.spaced.window_late hk.late hk.order hab, hk.spaced.window hab⟩

/-- What the calls return while a program records with enough storage. -/
def recordingCalls : LoopCalls := ⟨some 0, 1, 900, ⟨0, 0, 0, 0, false, false⟩⟩

/-- A second with a recording, up to the block of its first status. -/
def recordingSecond : List LoopStep :=
  List.replicate 4 (.main recordingCalls) ++ [.source true true, .tick second] ++
    List.replicate 3 (.main recordingCalls)

/-- The first broadcast is made 900 ms late, the second 250 ms behind it. -/
def lateSecond : List LoopStep :=
  recordingSecond ++ .tick (second / 10 * 9) :: List.replicate 5 (.main recordingCalls) ++
    .tick (second / 4) :: List.replicate 4 (.main recordingCalls)

/-- A program that records. -/
def recordingState : LoopState := ⟨true, streaming, 0, fun _ => 0, .armRecPush, []⟩

/-- Two broadcasts in a quarter of a second. -/
theorem lateSecond_paced : ∃ s : LoopState,
    sent .recPush s.events = [(second, second / 10 * 19), (second / 20 * 43, second / 20 * 43)] ∧
      ((sent .recPush s.events).filter fun x =>
        second / 10 * 19 ≤ x.2 ∧ x.2 ≤ second / 20 * 43).length * second ≤
          second / 20 * 43 - second / 10 * 19 + 2 * second := by
  have hrun : ((loopSystem ⟨zeroCalls, false, fun _ => 0⟩).exec (fun _ _ => true) recordingState
      lateSecond).map (fun s => sent .recPush s.events) =
        some [(second, second / 10 * 19), (second / 20 * 43, second / 20 * 43)] := by
    decide +kernel
  obtain ⟨s, hexec, hsent⟩ := Option.map_eq_some_iff.mp hrun
  have hinit : (loopSystem ⟨zeroCalls, false, fun _ => 0⟩).init recordingState := ⟨rfl, rfl⟩
  exact ⟨s, hsent, (broadcasts_paced _ s (.of_exec_check (fun _ _ _ => trivial) hinit hexec)
    .recPush _ _ (by decide)).1⟩

end RasPiZeroCam
