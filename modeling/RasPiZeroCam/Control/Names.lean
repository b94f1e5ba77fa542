import RasPiZeroCam.Control.Recordings
import RasPiZeroCam.Stream.Clients
import RasPiZeroCam.Stream.Snapshot

/-!
The names that `record_start`, `record_restart` and `snapshot` make up, while any number of clients
send these commands and the wall clock goes on.

* `LocalTime`, `GeneratedName.file`: `localtime_r`, and the path `next_name` makes of a time.
* `Naming.program`, `names`: the handlers statement by statement, on messages without a `filename`,
  with the clock and the source's threads around them; `Desk.granted` and `Desk.opened` are the
  names answered with and the files opened for writing.
* `WrittenOnce`: no two commands that were answered ok were given one path, and no file was opened
  twice.
* `Move`, `EnvMove`: what a step does to the names and the files.  `Apart`: the invariant.
* `written_once`: it holds along the runs in which every name is made up in a local second in which
  no other of its kind is in use (`OwnSecond`).
* `same_second_same_file`: a recording that is started, stopped and started again within a second
  is written over.
-/

namespace RasPiZeroCam

open Transition Pool

/-! ### Names -/

/-- What `localtime_r` fills in. -/
structure LocalTime extends Tm where
  mon_lt : mon < 100
  mday_lt : mday < 100
  hour_lt : hour < 100
  min_lt : min < 100
  sec_lt : sec < 100

/-- What a name is made for. -/
inductive FileKind where
  | recording
  | snapshot
  deriving DecidableEq

/-- The format handed to `next_name`. -/
def FileKind.format : FileKind → Bytes
  | .recording => recFormat
  | .snapshot => snapFormat

/-- A generated name, by the `time_t` it was made from. -/
structure GeneratedName where
  kind : FileKind
  time : ℤ
  deriving DecidableEq

/-- The path `next_name` makes, where `localtime` is that of the time zone. -/
def GeneratedName.file (localtime : ℤ → LocalTime) (n : GeneratedName) : Bytes :=
  nextName recDir n.kind.format (localtime n.time).toTm

/-- Two names are of one kind and of one local second. -/
def GeneratedName.SameSecond (localtime : ℤ → LocalTime) (m n : GeneratedName) : Prop :=
  m.kind = n.kind ∧ (localtime m.time).toTm = (localtime n.time).toTm

/-- A message without a `filename` leaves `value` its default. -/
lemma Json.value_of_not_find {members : List (Bytes × Json)} {key : Bytes}
    (h : find key members = none) (dflt : Bytes) :
    (Json.object members).value key dflt = .ok dflt := by
  simp only [value, h]

/-- The fields of a local time can be read off its stamp. -/
lemma stamp_injective {t u : LocalTime} (h : stamp t.toTm = stamp u.toTm) : t.toTm = u.toTm := by
  rw [stamp_eq, stamp_eq] at h
  have htwo : ∀ n < 100, (pad2 n).length = 2 := fun n hn => by rw [pad2_eq n hn]; rfl
  -- behind the year every field takes two bytes
  have hlen : ∀ v : LocalTime, (pad2 v.mon ++ (pad2 v.mday ++ (95 :: (pad2 v.hour ++ (pad2 v.min ++
      (pad2 v.sec ++ [])))))).length = 11 := by
    intro v
    simp only [List.length_append, List.length_cons, List.length_nil, htwo _ v.mon_lt,
      htwo _ v.mday_lt, htwo _ v.hour_lt, htwo _ v.min_lt, htwo _ v.sec_lt]
  obtain ⟨hyear, h⟩ := List.append_inj' h ((hlen t).trans (hlen u).symm)
  obtain ⟨hmon, h⟩ := List.append_inj h ((htwo _ t.mon_lt).trans (htwo _ u.mon_lt).symm)
  obtain ⟨hmday, h⟩ := List.append_inj h ((htwo _ t.mday_lt).trans (htwo _ u.mday_lt).symm)
  replace h := List.tail_eq_of_cons_eq h
  obtain ⟨hhour, h⟩ := List.append_inj h ((htwo _ t.hour_lt).trans (htwo _ u.hour_lt).symm)
  obtain ⟨hmin, h⟩ := List.append_inj h ((htwo _ t.min_lt).trans (htwo _ u.min_lt).symm)
  obtain ⟨hsec, -⟩ := List.append_inj h ((htwo _ t.sec_lt).trans (htwo _ u.sec_lt).symm)
  rw [Tm.mk.injEq]
  exact ⟨decimal_injective hyear, pad2_injective t.mon_lt u.mon_lt hmon,
    pad2_injective t.mday_lt u.mday_lt hmday, pad2_injective t.hour_lt u.hour_lt hhour,
    pad2_injective t.min_lt u.min_lt hmin, pad2_injective t.sec_lt u.sec_lt hsec⟩

/-- The text of a generated name: a word for its kind around the stamp. -/
lemma GeneratedName.file_eq (localtime : ℤ → LocalTime) (n : GeneratedName) :
    n.file localtime = ascii "recordings/" ++ match n.kind with
      | .recording => ascii "rec_" ++ (stamp (localtime n.time).toTm ++ ascii ".mp4")
      | .snapshot => ascii "snap_" ++ (stamp (localtime n.time).toTm ++ ascii ".jpg") := by
  have hdir : recDir ++ ascii "/" = ascii "recordings/" := rfl
  obtain ⟨kind, time⟩ := n
  cases kind
  · rw [file, nextName, hdir, FileKind.format, strftime_recFormat]
  · rw [file, nextName, hdir, FileKind.format, strftime_snapFormat]

/-- **`next_name` makes one path of two times exactly when they are of one local second.** -/
theorem GeneratedName.file_eq_iff (localtime : ℤ → LocalTime) (m n : GeneratedName) :
    m.file localtime = n.file localtime ↔ m.SameSecond localtime n := by
  constructor
  · intro h
    rw [file_eq, file_eq] at h
    obtain ⟨km, tm⟩ := m
    obtain ⟨kn, tn⟩ := n
    replace h := List.append_cancel_left h
    cases km <;> cases kn
    · exact ⟨rfl, stamp_injective (List.append_cancel_right (List.append_cancel_left h))⟩
    · exact absurd (congrArg List.head? h) (by simp [ascii])
    · exact absurd (congrArg List.head? h) (by simp [ascii])
    · exact ⟨rfl, stamp_injective (List.append_cancel_right (List.append_cancel_left h))⟩
  · rintro ⟨hkind, htime⟩
    rw [file, file, hkind, htime]

lemma GeneratedName.file_ne_nil (localtime : ℤ → LocalTime) (n : GeneratedName) :
    n.file localtime ≠ [] := by
  rw [file_eq]
  exact List.append_ne_nil_of_left_ne_nil (by decide) _

/-! ### The commands -/

/-- What the handlers share. -/
structure Desk extends World where
  slot : Slot                      -- of the snapshots
  resMutex : Bool                  -- `res_mutex` is held
  now : ℤ                          -- nanoseconds of `system_clock`
  granted : List GeneratedName     -- those of the commands that were answered ok
  opened : List Bytes              -- the files that were opened for writing

namespace Naming

/-- The commands that make up a name, and `record_stop`. -/
inductive Request where
  | recordStart
  | recordStop
  | recordRestart
  | snapshot
  deriving DecidableEq

/-- Where the handler of a client is; `restarting` says which of the two commands that start a
recording it is. -/
inductive Pc where
  | idle
  | testStart
  | restart (p : StopRecordingPc)
  | lock (restarting : Bool)
  | name (restarting : Bool)
  | start (restarting : Bool) (n : GeneratedName) (p : StartRecordingPc)
  | testStop
  | stop (p : StopRecordingPc)
  | nameSnapshot
  | snapshot (n : GeneratedName) (p : Snapshot.Pc)
  | answer (n : GeneratedName) (ok : Bool)

/-- What a client meets in a step: the command it sends next, what the calls underneath answer, and
whether the deadline of its snapshot has passed. -/
structure Input where
  request : Request
  calls : Choice
  timeUp : Bool

/-- What happens around the clients: time passes, and the source's threads take their steps. -/
inductive Env where
  | tick (ns : ℕ)
  | drainExit
  | busExit
  | message (m : BusMessage)
  | deliver (jpeg : Bytes) (opens writes : Bool)

/-- Where the handler of a command begins. -/
def handle : Request → Pc
  | .recordStart => .testStart
  | .recordStop => .testStop
  | .recordRestart => .restart .test
  | .snapshot => .nameSnapshot

/-- A step on the source. -/
def onSource (f : World → Option (World × Pc)) (s : Desk) : Option (Desk × Pc) :=
  (f s.toWorld).map fun r => ({ s with toWorld := r.1 }, r.2)

/-- `recorder_->start(..)` gets to `gst_element_set_state`, in which the `filesink` opens its file,
whether or not the pipeline then plays. -/
def opensFile (o : RecorderOutcome) (p : StartRecordingPc) (w : World) : Bool :=
  decide (p = .startRecorder) && w.recorder.any (fun r => decide (r.state = .idle)) &&
    o.createDirectories.isNone && decide (o.parse = .ok) && o.appsrc && o.bus

/-- A file is opened, or not. -/
def openFile (opens : Bool) (path : Bytes) (s : Desk) : Desk :=
  { s with opened := if opens then s.opened ++ [path] else s.opened }

/-- Whether a command that called `start_recording` is answered ok: `record_restart` ignores the
result. -/
def startedOk (restarting : Bool) : Except Exception Bool → Bool
  | .ok started => started || restarting
  | .error _ => false

/-- Where the handler of `snapshot` is when `take_snapshot` is at a program point, or has
returned. -/
def inSnapshot (n : GeneratedName) (slot : Slot) : Snapshot.Pc → Pc
  | .idle => .answer n (slot.calls.getLast?.any (·.ret))
  | p => .snapshot n p

/-- A step of `take_snapshot`. -/
def snapshotStep (file : Bytes) (n : GeneratedName) (timeUp : Bool) (p : Snapshot.Pc) (s : Desk) :
    Option (Desk × Pc) :=
  (Snapshot.act ⟨file, timeUp⟩ p { s.slot with running := s.running }).map fun r =>
    ({ s with slot := r.1 }, inSnapshot n r.1 r.2)

/-- The handlers, statement by statement. -/
def program (localtime : ℤ → LocalTime) (a : Input) : Pc → Desk → Option (Desk × Pc)
  | .idle, s => some (s, handle a.request)
  | .testStart, s => some (s, if s.isRecording then .idle else .lock false)
  | .restart p, s =>
      onSource (stepCall stopRecordingStep .restart (fun _ => .lock true) a.calls p) s
  | .lock r, s => if s.resMutex then none else some ({ s with resMutex := true }, .name r)
  | .name r, s => some (s, .start r ⟨.recording, toTimeT s.now⟩ .test)
  | .start r n p, s =>
      onSource (stepCall (startRecordingStep (n.file localtime)) (.start r n)
          (fun res => .answer n (startedOk r res)) a.calls p)
        (openFile (opensFile a.calls.recorder p s.toWorld) (n.file localtime) s)
  | .testStop, s => some (s, if s.isRecording then .stop .test else .idle)
  | .stop p, s => onSource (stepCall stopRecordingStep .stop (fun _ => .idle) a.calls p) s
  | .nameSnapshot, s => some (s, .snapshot ⟨.snapshot, toTimeT s.now⟩ .idle)
  | .snapshot n p, s => snapshotStep (n.file localtime) n a.timeUp p s
  | .answer n ok, s =>
      -- a recording command gives `res_mutex` back when it returns
      some ({ s with
        resMutex := if n.kind = .recording then false else s.resMutex
        granted := if ok then s.granted ++ [n] else s.granted }, .idle)

/-- The name step is that of the handlers of `clients`, on a message without a `filename`. -/
lemma fileName_generated (localtime : ℤ → LocalTime) {t : ℤ} {o : Choice}
    (ho : o.tm = (localtime t).toTm) {members : List (Bytes × Json)}
    (h : Json.find (ascii "filename") members = none) :
    Clients.fileName o (some (.object members)) =
        .ok (GeneratedName.file localtime ⟨.recording, t⟩) ∧
      Clients.fileName o none = .ok (GeneratedName.file localtime ⟨.recording, t⟩) := by
  have hname : nextName recDir recFormat o.tm = GeneratedName.file localtime ⟨.recording, t⟩ := by
    rw [ho]
    rfl
  rw [Clients.fileName, Clients.fileName, Json.value_of_not_find h, hname]
  exact ⟨rfl, rfl⟩

/-- A step of a client, while the process lives. -/
def act (localtime : ℤ → LocalTime) (a : Input) (p : Pc) (s : Desk) : Option (Desk × Pc) :=
  if s.crashed then none else program localtime a p s

/-- The delivery is at its `std::ofstream`. -/
def deliveryOpens (s : Slot) : Bool :=
  match s.delivery with
  | .openFile _ => true
  | _ => false

/-- What happens around the clients. -/
def env : Env → Desk → Option Desk
  | .tick ns, s => some { s with now := s.now + ns }
  | .drainExit, s => s.drainExit.map fun w => { s with toWorld := w }
  | .busExit, s => s.busExit.map fun w => { s with toWorld := w }
  | .message m, s => (s.busMessage m).map fun w => { s with toWorld := w }
  | .deliver jpeg opens writes, s =>
      some { openFile (deliveryOpens s.slot && opens) s.slot.path s with
        slot := Snapshot.deliver jpeg opens writes s.slot }

/-- `main` when it starts its WebSocket server, at time `now`. -/
def opened (cfg : ResolutionConfig) (now : ℤ) : Desk where
  toWorld := Clients.started cfg
  slot := Snapshot.quiet
  resMutex := false
  now := now
  granted := []
  opened := []

end Naming

/-- The clients, the clock and the source's threads. -/
def names (localtime : ℤ → LocalTime) : Pool Desk Naming.Pc Naming.Input Naming.Env where
  init s := ∃ cfg now, s = Naming.opened cfg now
  start := .idle
  act := Naming.act localtime
  env := Naming.env

namespace Naming

/-- A configuration: what is shared, and where each of the clients `ι` is. -/
abbrev State (ι : Type) := Config ι Desk Pc

/-- A step of a client, or one around the clients. -/
abbrev Step (ι : Type) := Event ι Input Env

/-- The name that a handler has made up and not yet answered with. -/
def Pc.held : Pc → Option GeneratedName
  | .start _ n _ => some n
  | .snapshot n _ => some n
  | .answer n _ => some n
  | _ => none

/-- What the handler makes up a name for in its next step. -/
def Pc.makes : Pc → Option FileKind
  | .name _ => some .recording
  | .nameSnapshot => some .snapshot
  | _ => none

/-- A name is in use: a command was answered ok with it, its file was opened or is about to be, or a
handler has it in its hands. -/
def InUse {ι : Type} (localtime : ℤ → LocalTime) (s : State ι) (m : GeneratedName) : Prop :=
  m ∈ s.shared.granted ∨ m.file localtime ∈ s.shared.opened ∨
    m.file localtime = s.shared.slot.path ∨ ∃ c, (s.pc c).held = some m

/-- A name is made up only in another local second than those of its kind that are in use. -/
def OwnSecond {ι : Type} (localtime : ℤ → LocalTime) (s : State ι) : Step ι → Prop
  | .run c _ => ∀ kind, (s.pc c).makes = some kind →
      ∀ m, InUse localtime s m → ¬ m.SameSecond localtime ⟨kind, toTimeT s.shared.now⟩
  | .env _ => True

/-- **No path is given twice, and no file is opened twice.** -/
structure WrittenOnce (localtime : ℤ → LocalTime) (s : Desk) : Prop where
  given : (s.granted.map (GeneratedName.file localtime)).Nodup
  opened : s.opened.Nodup

/-! ### What a step does to the names -/

/-- The file of the handler's name has not been opened, and is not in `snapshot_path_`. -/
def Pc.fresh : Pc → Bool
  | .start _ _ .test => true
  | .start _ _ .create => true
  | .start _ _ .startRecorder => true
  | .snapshot _ .idle => true
  | .snapshot _ (.store _ _) => true
  | _ => false

/-- The delivery has opened the file that is in `snapshot_path_`. -/
def Past : DeliveryPc → Prop
  | .write _ => True
  | .clearPath => True
  | _ => False

/-- The names and the files are as they were. -/
structure Kept (s s' : Desk) : Prop where
  granted : s'.granted = s.granted
  opened : s'.opened = s.opened
  path : s'.slot.path = s.slot.path
  delivery : s'.slot.delivery = s.slot.delivery

/-- What a step of a handler does to the names and the files. -/
inductive Move (localtime : ℤ → LocalTime) (s s' : Desk) (p q : Pc) : Prop
  /-- It goes on with its name, or without it. -/
  | goOn : Kept s s' → (∀ n ∈ q.held, n ∈ p.held) → (q.fresh = true → p.fresh = true) →
      (∀ n path since, q = .snapshot n (.store path since) → path = n.file localtime) →
      Move localtime s s' p q
  /-- It makes up a name. -/
  | make (kind : FileKind) : Kept s s' → p.makes = some kind →
      q.held = some ⟨kind, toTimeT s.now⟩ →
      (∀ n path since, q ≠ .snapshot n (.store path since)) → Move localtime s s' p q
  /-- It opens its file. -/
  | openFile (n : GeneratedName) : p.held = some n → p.fresh = true → q.held = some n →
      q.fresh = false → s'.granted = s.granted → s'.opened = s.opened ++ [n.file localtime] →
      s'.slot = s.slot → Move localtime s s' p q
  /-- It puts its path into `snapshot_path_`. -/
  | store (n : GeneratedName) (path : Bytes) (since : ℕ) : p = .snapshot n (.store path since) →
      q.held = some n → q.fresh = false → ¬ Past s.slot.delivery → s'.granted = s.granted →
      s'.opened = s.opened → s'.slot.path = path → s'.slot.delivery = s.slot.delivery →
      Move localtime s s' p q
  /-- It is answered. -/
  | answer (n : GeneratedName) (ok : Bool) : p = .answer n ok → q = .idle →
      s'.granted = s.granted ++ (if ok then [n] else []) → s'.opened = s.opened →
      s'.slot = s.slot → Move localtime s s' p q

variable {localtime : ℤ → LocalTime} {a : Input} {s s' : Desk} {p q : Pc}

lemma Kept.refl (s : Desk) : Kept s s := ⟨rfl, rfl, rfl, rfl⟩

/-- A handler without a name goes on. -/
lemma Move.nameless (hkept : Kept s s') (h : q.held = none) : Move localtime s s' p q := by
  refine .goOn hkept (fun n hn => ?_) (fun hq => ?_) fun n path since hq => ?_
  · rw [h] at hn
    cases hn
  · cases q with
    | start r n p => cases h
    | snapshot n p => cases h
    | _ => cases hq
  · rw [hq] at h
    cases h

lemma onSource_kept {f : World → Option (World × Pc)} (h : onSource f s = some (s', q)) :
    Kept s s' := by
  obtain ⟨r, -, hland⟩ := Option.map_eq_some_iff.mp h
  cases hland
  exact ⟨rfl, rfl, rfl, rfl⟩

/-- A step of `stop_recording`, of a handler that has no name. -/
lemma stop_move {into : StopRecordingPc → Pc} {k : Bool → Pc} {pc : StopRecordingPc}
    (hinto : ∀ p', (into p').held = none) (hk : ∀ res, (k res).held = none)
    (h : onSource (stepCall stopRecordingStep into k a.calls pc) s = some (s', q)) :
    Move localtime s s' p q := by
  refine .nameless (onSource_kept h) ?_
  obtain ⟨⟨w, q'⟩, hstep, hland⟩ := Option.map_eq_some_iff.mp h
  cases hland
  obtain ⟨p', -, rfl⟩ | ⟨res, -, rfl⟩ | ⟨-, rfl⟩ := stepCall_cases hstep
  · exact hinto p'
  · exact hk res
  · exact hinto pc

/-- A recorder that is there starts, or `start_recording` returns. -/
lemma startRecorder_step {file : Bytes} {r : Bool} {n : GeneratedName} {o : Choice} {rec : Recorder}
    {k : Except Exception Bool → Pc} {w w' : World} (hrec : w.recorder = some rec)
    (h : stepCall (startRecordingStep file) (.start r n) k o .startRecorder w = some (w', q)) :
    q = .start r n .setFile ∨ ∃ res, q = k res := by
  simp only [stepCall, startRecordingStep, hrec] at h
  rcases hstart : rec.start o.recorder w.cfg file true with ⟨rec', e | started⟩
  · simp only [hstart] at h
    cases h
    exact Or.inr ⟨_, rfl⟩
  · cases started
    all_goals
      simp only [hstart] at h
      cases h
    · exact Or.inr ⟨_, rfl⟩
    · exact Or.inl rfl

/-- **A start of the recorder**: it opens the file, or the step leads on. -/
lemma start_move {r : Bool} {n : GeneratedName} {pc : StartRecordingPc}
    (h : program localtime a (.start r n pc) s = some (s', q)) :
    Move localtime s s' (.start r n pc) q := by
  obtain ⟨⟨w, q'⟩, hstep, hland⟩ := Option.map_eq_some_iff.mp h
  have hpc := stepCall_cases hstep
  obtain ⟨hs, hq⟩ := Prod.mk.inj hland
  dsimp only at hs hq
  subst hq hs
  have hheld : q'.held = some n := by
    obtain ⟨p', -, rfl⟩ | ⟨res, -, rfl⟩ | ⟨-, rfl⟩ := hpc <;> rfl
  have hstore : ∀ m path since, q' = .snapshot m (.store path since) → path = m.file localtime := by
    rintro m path since rfl
    obtain ⟨p', -, hq⟩ | ⟨res, -, hq⟩ | ⟨-, hq⟩ := hpc <;> cases hq
  cases hopens : opensFile a.calls.recorder pc s.toWorld with
  | false =>
      refine .goOn ⟨rfl, rfl, rfl, rfl⟩ (fun m hm => by rwa [hheld] at hm) (fun hfresh => ?_) hstore
      cases pc with
      | setFile =>
          cases hstep
          cases hfresh
      | setRecording =>
          cases hstep
          cases hfresh
      | _ => rfl
  | true =>
      simp only [opensFile, Bool.and_eq_true, decide_eq_true_eq, Option.any_eq_true] at hopens
      obtain ⟨⟨⟨⟨⟨rfl, rec, hrec, hidle⟩, hdir⟩, hparse⟩, happsrc⟩, hbus⟩ := hopens
      refine .openFile n rfl rfl hheld ?_ rfl rfl rfl
      obtain rfl | ⟨res, rfl⟩ := startRecorder_step hrec hstep <;> rfl

/-- **A step of `take_snapshot`**: it puts its path into `snapshot_path_`, or leads on. -/
lemma snapshot_move {n : GeneratedName} {pc : Snapshot.Pc}
    (hstored : ∀ path since, pc = .store path since → path = n.file localtime)
    (h : program localtime a (.snapshot n pc) s = some (s', q)) :
    Move localtime s s' (.snapshot n pc) q := by
  obtain ⟨⟨slot, pc'⟩, hstep, hland⟩ := Option.map_eq_some_iff.mp h
  obtain ⟨hs, hq⟩ := Prod.mk.inj hland
  dsimp only at hs hq
  subst hq hs
  have hheld : (inSnapshot n slot pc').held = some n := by cases pc' <;> rfl
  have hon (hpath : slot.path = s.slot.path) (hdelivery : slot.delivery = s.slot.delivery)
      (hfresh : (inSnapshot n slot pc').fresh = true → (Pc.snapshot n pc).fresh = true)
      (hstore : ∀ path since, pc' = .store path since → path = n.file localtime) :
      Move localtime s { s with slot := slot } (.snapshot n pc) (inSnapshot n slot pc') := by
    refine .goOn ⟨rfl, rfl, hpath, hdelivery⟩ (fun m hm => by rwa [hheld] at hm) hfresh ?_
    intro m path since hm
    cases pc' <;> cases hm
    exact hstore _ _ rfl
  cases pc with
  | store path since =>
      simp only [Snapshot.act] at hstep
      split_ifs at hstep with hholds
      cases hstep
      refine .store n path since rfl rfl rfl (fun hpast => hholds ?_) rfl rfl rfl rfl
      cases hdelivery : s.slot.delivery <;> rw [hdelivery] at hpast <;> first | rfl | cases hpast
  | idle =>
      simp only [Snapshot.act] at hstep
      split_ifs at hstep
      · cases hstep
        exact hon rfl rfl (fun _ => rfl) fun path since hp => by cases hp; rfl
      · cases hstep
        exact hon rfl rfl (fun _ => rfl) fun path since hp => by cases hp
  | setPending path since =>
      cases hstep
      exact hon rfl rfl (fun hq => hq) fun path since hp => by cases hp
  | poll path since =>
      simp only [Snapshot.act] at hstep
      split_ifs at hstep
      all_goals
        cases hstep
        exact hon rfl rfl (fun hq => hq) fun path since hp => by cases hp
  | last path since =>
      simp only [Snapshot.act] at hstep
      split_ifs at hstep
      all_goals
        cases hstep
        exact hon rfl rfl (fun hq => hq) fun path since hp => by cases hp
  | cancel path since =>
      cases hstep
      exact hon rfl rfl (fun hq => hq) fun path since hp => by cases hp

/-- **A step of a handler.** -/
lemma act_move (hstored : ∀ n path since, p = .snapshot n (.store path since) →
      path = n.file localtime) (h : act localtime a p s = some (s', q)) :
    Move localtime s s' p q := by
  rw [act] at h
  split_ifs at h
  cases p with
  | start r n pc => exact start_move h
  | snapshot n pc => exact snapshot_move (fun path since hpc => hstored n path since (hpc ▸ rfl)) h
  | answer n ok =>
      cases h
      refine .answer n ok rfl rfl ?_ rfl rfl
      cases ok
      · exact (List.append_nil _).symm
      · rfl
  | name r =>
      cases h
      exact .make .recording (.refl s) rfl rfl fun n path since hq => by cases hq
  | nameSnapshot =>
      cases h
      exact .make .snapshot (.refl s) rfl rfl fun n path since hq => by cases hq
  | restart pc => exact stop_move (fun _ => rfl) (fun _ => rfl) h
  | stop pc => exact stop_move (fun _ => rfl) (fun _ => rfl) h
  | lock r =>
      simp only [program] at h
      split_ifs at h
      cases h
      exact .nameless ⟨rfl, rfl, rfl, rfl⟩ rfl
  | idle =>
      cases h
      refine .nameless (.refl s) ?_
      cases a.request <;> rfl
  | testStart =>
      cases h
      refine .nameless (.refl s) ?_
      split_ifs <;> rfl
  | testStop =>
      cases h
      refine .nameless (.refl s) ?_
      split_ifs <;> rfl

/-- What a step around the clients does to the names and the files. -/
inductive EnvMove (s s' : Desk) : Prop
  /-- The delivery goes on, or the step is not one of it. -/
  | goOn : s'.granted = s.granted → s'.opened = s.opened → s'.slot.path = s.slot.path →
      (Past s.slot.delivery → Past s'.slot.delivery) →
      (deliveryOpens s'.slot = true → deliveryOpens s.slot = true ∨ s.slot.path ≠ []) →
      EnvMove s s'
  /-- It opens the file in `snapshot_path_`. -/
  | openFile : deliveryOpens s.slot = true → s'.granted = s.granted →
      s'.opened = s.opened ++ [s.slot.path] → s'.slot.path = s.slot.path →
      Past s'.slot.delivery → EnvMove s s'
  /-- It clears `snapshot_path_`. -/
  | clear : s'.granted = s.granted → s'.opened = s.opened → s'.slot.path = [] →
      deliveryOpens s'.slot = false → EnvMove s s'

lemma deliver_move (jpeg : Bytes) (opens writes : Bool) (s : Desk) :
    EnvMove s { openFile (deliveryOpens s.slot && opens) s.slot.path s with
      slot := Snapshot.deliver jpeg opens writes s.slot } := by
  cases hdelivery : s.slot.delivery with
  | openFile j =>
      cases opens with
      | true =>
          refine .openFile ?_ rfl ?_ ?_ ?_
          all_goals simp [deliveryOpens, openFile, Snapshot.deliver, hdelivery, Past]
      | false =>
          refine .goOn rfl ?_ ?_ ?_ ?_
          all_goals simp [deliveryOpens, openFile, Snapshot.deliver, hdelivery, Past]
  | clearPath =>
      refine .clear rfl ?_ ?_ ?_
      all_goals simp [deliveryOpens, openFile, Snapshot.deliver, hdelivery]
  | testPath j =>
      refine .goOn rfl ?_ ?_ ?_ ?_
      · simp [deliveryOpens, openFile, hdelivery]
      · simp [Snapshot.deliver, hdelivery]
      · simp [Past, hdelivery]
      · by_cases hpath : s.slot.path = [] <;>
          simp [deliveryOpens, Snapshot.deliver, hdelivery, hpath]
  | _ =>
      refine .goOn rfl ?_ ?_ ?_ ?_
      · simp [deliveryOpens, openFile, hdelivery]
      · simp [Snapshot.deliver, hdelivery]
      · simp [Snapshot.deliver, hdelivery, Past]
      · simp [deliveryOpens, Snapshot.deliver, hdelivery]
        try split_ifs <;> simp

lemma env_move {e : Env} (h : env e s = some s') : EnvMove s s' := by
  cases e with
  | tick ns =>
      cases h
      exact .goOn rfl rfl rfl id Or.inl
  | deliver jpeg opens writes =>
      cases h
      exact deliver_move jpeg opens writes s
  | _ =>
      obtain ⟨w, -, rfl⟩ := Option.map_eq_some_iff.mp h
      exact .goOn rfl rfl rfl id Or.inl

/-! ### The names stay apart -/

/-- What holds of the files: no path is given or opened twice, nor is that in `snapshot_path_`. -/
structure Tidy (localtime : ℤ → LocalTime) (s : Desk) : Prop extends WrittenOnce localtime s where
  path : s.slot.path ≠ [] → ¬ Past s.slot.delivery → s.slot.path ∉ s.opened
  opening : deliveryOpens s.slot = true → s.slot.path ≠ []

/-- What holds of a handler: its name has not been given to another one, and until it opens its file
nobody has. -/
structure Holder (localtime : ℤ → LocalTime) (s : Desk) (p : Pc) : Prop where
  notGiven : ∀ n, p.held = some n →
    n.file localtime ∉ s.granted.map (GeneratedName.file localtime)
  notOpened : ∀ n, p.held = some n → p.fresh = true →
    n.file localtime ∉ s.opened ∧ n.file localtime ≠ s.slot.path
  stored : ∀ n path since, p = .snapshot n (.store path since) → path = n.file localtime

/-- **The names are apart**, those in the hands of handlers too. -/
structure Apart {ι : Type} (localtime : ℤ → LocalTime) (s : State ι) : Prop where
  desk : Tidy localtime s.shared
  holder : ∀ c, Holder localtime s.shared (s.pc c)
  held : ∀ c d, c ≠ d → ∀ n m, (s.pc c).held = some n → (s.pc d).held = some m →
    n.file localtime ≠ m.file localtime

lemma Kept.tidy (hkept : Kept s s') (h : Tidy localtime s) : Tidy localtime s' where
  given := by
    rw [hkept.granted]
    exact h.given
  opened := by
    rw [hkept.opened]
    exact h.opened
  path := by
    rw [hkept.opened, hkept.path, hkept.delivery]
    exact h.path
  opening := by
    rw [deliveryOpens, hkept.path, hkept.delivery]
    exact h.opening

lemma Kept.holder (hkept : Kept s s') (h : Holder localtime s p) : Holder localtime s' p where
  notGiven := by
    rw [hkept.granted]
    exact h.notGiven
  notOpened := by
    rw [hkept.opened, hkept.path]
    exact h.notOpened
  stored := h.stored

lemma nodup_snoc {files : List Bytes} {file : Bytes} (h : files.Nodup) (hnew : file ∉ files) :
    (files ++ [file]).Nodup := by
  rw [← List.concat_eq_append]
  exact (List.nodup_concat _ _).mpr ⟨hnew, h⟩

/-- A file is opened that is not that of the handler. -/
lemma Holder.openFile (h : Holder localtime s p) {file : Bytes} (hgranted : s'.granted = s.granted)
    (hopened : s'.opened = s.opened ++ [file]) (hpath : s'.slot.path = s.slot.path)
    (hother : ∀ n, p.held = some n → p.fresh = true → n.file localtime ≠ file) :
    Holder localtime s' p where
  notGiven := by
    rw [hgranted]
    exact h.notGiven
  notOpened := by
    intro n hn hfresh
    obtain ⟨hout, hne⟩ := h.notOpened n hn hfresh
    rw [hopened, hpath]
    exact ⟨List.not_mem_append hout (by simpa using hother n hn hfresh), hne⟩
  stored := h.stored

/-- **Around the clients.** -/
lemma Apart.env {ι : Type} {s : State ι} {w : Desk} (h : Apart localtime s)
    (hmove : EnvMove s.shared w) : Apart localtime ⟨w, s.pc⟩ := by
  cases hmove with
  | goOn hgranted hopened hpath hpast hopening =>
      refine ⟨⟨⟨?_, ?_⟩, ?_, ?_⟩, fun c => ⟨?_, ?_, (h.holder c).stored⟩, h.held⟩
      · rw [hgranted]
        exact h.desk.given
      · rw [hopened]
        exact h.desk.opened
      · rw [hopened, hpath]
        exact fun hne hnot => h.desk.path hne fun hp => hnot (hpast hp)
      · rw [hpath]
        exact fun hat => (hopening hat).elim h.desk.opening id
      · rw [hgranted]
        exact (h.holder c).notGiven
      · rw [hopened, hpath]
        exact (h.holder c).notOpened
  | openFile hat hgranted hopened hpath hpast =>
      have hnot : ¬ Past s.shared.slot.delivery := by
        cases hdelivery : s.shared.slot.delivery <;>
          simp [deliveryOpens, Past, hdelivery] at hat ⊢
      have hnew := h.desk.path (h.desk.opening hat) hnot
      refine ⟨⟨⟨?_, ?_⟩, fun _ hnp => absurd hpast hnp, ?_⟩, fun c => ?_, h.held⟩
      · rw [hgranted]
        exact h.desk.given
      · rw [hopened]
        exact nodup_snoc h.desk.opened hnew
      · rw [hpath]
        exact fun _ => h.desk.opening hat
      · exact (h.holder c).openFile hgranted hopened hpath
          fun n hn hfresh => ((h.holder c).notOpened n hn hfresh).2
  | clear hgranted hopened hpath hat =>
      refine ⟨⟨⟨?_, ?_⟩, fun hne _ => absurd hpath hne, ?_⟩,
        fun c => ⟨?_, ?_, (h.holder c).stored⟩, h.held⟩
      · rw [hgranted]
        exact h.desk.given
      · rw [hopened]
        exact h.desk.opened
      · intro hat'
        cases hat.symm.trans hat'
      · rw [hgranted]
        exact (h.holder c).notGiven
      · intro n hn hfresh
        rw [hopened, hpath]
        exact ⟨((h.holder c).notOpened n hn hfresh).1, n.file_ne_nil localtime⟩

section

variable {ι : Type} {s : State ι} {c : ι} {w : Desk}

/-- The name it had is still apart from those of the others. -/
lemma Apart.still (h : Apart localtime s) (hheld : ∀ n ∈ q.held, n ∈ (s.pc c).held) :
    ∀ n, q.held = some n → ∀ d, d ≠ c → ∀ m, (s.pc d).held = some m →
      n.file localtime ≠ m.file localtime :=
  fun n hn d hd m hm => h.held c d hd.symm n m (hheld n hn) hm

/-- A name of a second of its own is apart from all that are in use. -/
lemma apart_of_ownSecond {n m : GeneratedName} (hown : ∀ m, InUse localtime s m →
    ¬ m.SameSecond localtime n) (hm : InUse localtime s m) :
    n.file localtime ≠ m.file localtime :=
  fun hsame => hown m hm ((GeneratedName.file_eq_iff localtime m n).mp hsame.symm)

variable [DecidableEq ι]

/-- A handler has gone on: what is owed of the desk, of this handler and of the others. -/
lemma Apart.update (h : Apart localtime s) (hdesk : Tidy localtime w) (hq : Holder localtime w q)
    (hothers : ∀ d, d ≠ c → Holder localtime w (s.pc d))
    (hheld : ∀ n, q.held = some n → ∀ d, d ≠ c → ∀ m, (s.pc d).held = some m →
      n.file localtime ≠ m.file localtime) :
    Apart localtime ⟨w, Function.update s.pc c q⟩ where
  desk := hdesk
  holder :=
    (Function.forall_update_iff s.pc fun _ p => Holder localtime w p).mpr ⟨hq, hothers⟩
  held := by
    intro d e hde n m hn hm
    change (Function.update s.pc c q d).held = some n at hn
    change (Function.update s.pc c q e).held = some m at hm
    by_cases hd : d = c
    · subst hd
      rw [Function.update_self] at hn
      rw [Function.update_of_ne hde.symm] at hm
      exact hheld n hn e hde.symm m hm
    · rw [Function.update_of_ne hd] at hn
      by_cases he : e = c
      · subst he
        rw [Function.update_self] at hm
        exact (hheld m hm d hd n hn).symm
      · rw [Function.update_of_ne he] at hm
        exact h.held d e hde n m hn hm

/-- **A step of a handler.** -/
lemma Apart.run (h : Apart localtime s) {b : Input} (hown : OwnSecond localtime s (.run c b))
    (hmove : Move localtime s.shared w (s.pc c) q) :
    Apart localtime ⟨w, Function.update s.pc c q⟩ := by
  cases hmove with
  | goOn hkept hheld hfresh hstored =>
      have hc := hkept.holder (h.holder c)
      exact h.update (hkept.tidy h.desk)
        ⟨fun n hn => hc.notGiven n (hheld n hn),
          fun n hn hf => hc.notOpened n (hheld n hn) (hfresh hf), hstored⟩
        (fun d _ => hkept.holder (h.holder d)) (h.still hheld)
  | make kind hkept hmakes hheld hnot =>
      have hnew : ∀ n, q.held = some n → ∀ m, InUse localtime s m →
          n.file localtime ≠ m.file localtime := by
        intro n hn m hm
        obtain rfl := Option.some.inj (hheld.symm.trans hn)
        exact apart_of_ownSecond (hown kind hmakes) hm
      refine h.update (hkept.tidy h.desk) ⟨fun n hn hmem => ?_, fun n hn _ => ⟨fun hmem => ?_,
        fun heq => ?_⟩, fun n path since hq => absurd hq (hnot n path since)⟩
        (fun d _ => hkept.holder (h.holder d)) fun n hn d _ m hm => ?_
      · rw [hkept.granted] at hmem
        obtain ⟨m, hm, hfile⟩ := List.mem_map.mp hmem
        exact hnew n hn m (Or.inl hm) hfile.symm
      · rw [hkept.opened] at hmem
        exact hnew n hn n (Or.inr (Or.inl hmem)) rfl
      · rw [hkept.path] at heq
        exact hnew n hn n (Or.inr (Or.inr (Or.inl heq))) rfl
      · exact hnew n hn m (Or.inr (Or.inr (Or.inr ⟨d, hm⟩)))
  | openFile n hheld hfresh hheld' hfresh' hgranted hopened hslot =>
      obtain ⟨hout, hne⟩ := (h.holder c).notOpened n hheld hfresh
      have hsame : ∀ m, q.held = some m → (s.pc c).held = some m := fun m hm =>
        hheld.trans (hheld'.symm.trans hm)
      refine h.update ⟨⟨?_, ?_⟩, ?_, ?_⟩ ⟨?_, fun m _ hf => ?_, fun m path since hq => ?_⟩
        (fun d hd => ?_) (h.still hsame)
      · rw [hgranted]
        exact h.desk.given
      · rw [hopened]
        exact nodup_snoc h.desk.opened hout
      · rw [hopened, hslot]
        exact fun hpath hnot => List.not_mem_append (h.desk.path hpath hnot)
          (by simpa using hne.symm)
      · rw [hslot]
        exact h.desk.opening
      · rw [hgranted]
        exact fun m hm => (h.holder c).notGiven m (hsame m hm)
      · cases hfresh'.symm.trans hf
      · rw [hq] at hfresh'
        cases hfresh'
      · exact (h.holder d).openFile hgranted hopened (congrArg Slot.path hslot)
          fun m hm _ => h.held d c hd m n hm hheld
  | store n path since hp hheld hfresh hpast hgranted hopened hpath hdelivery =>
      have hsame : ∀ m, q.held = some m → (s.pc c).held = some m := fun m hm => by
        rw [hp]
        exact hheld.symm.trans hm
      have hown : (s.pc c).held = some n := hsame n hheld
      have hat : (s.pc c).fresh = true := by rw [hp]; rfl
      obtain rfl := (h.holder c).stored n path since hp
      refine h.update ⟨⟨?_, ?_⟩, fun _ _ => ?_, fun _ => ?_⟩
        ⟨?_, fun m _ hf => ?_, fun m path since hq => ?_⟩
        (fun d hd => ⟨?_, fun m hm hf => ?_, (h.holder d).stored⟩) (h.still hsame)
      · rw [hgranted]
        exact h.desk.given
      · rw [hopened]
        exact h.desk.opened
      · rw [hopened, hpath]
        exact ((h.holder c).notOpened n hown hat).1
      · rw [hpath]
        exact n.file_ne_nil localtime
      · rw [hgranted]
        exact fun m hm => (h.holder c).notGiven m (hsame m hm)
      · cases hfresh.symm.trans hf
      · rw [hq] at hfresh
        cases hfresh
      · rw [hgranted]
        exact (h.holder d).notGiven
      · rw [hopened, hpath]
        exact ⟨((h.holder d).notOpened m hm hf).1, h.held d c hd m n hm hown⟩
  | answer n ok hp hq hgranted hopened hslot =>
      subst hq
      have hown : (s.pc c).held = some n := by rw [hp]; rfl
      have hfiles : w.granted.map (GeneratedName.file localtime) =
          s.shared.granted.map (GeneratedName.file localtime) ++
            if ok then [n.file localtime] else [] := by
        rw [hgranted, List.map_append]
        cases ok <;> rfl
      refine h.update ⟨⟨?_, ?_⟩, ?_, ?_⟩ ⟨fun m hm => ?_, fun m hm => ?_, fun m path since hm => ?_⟩
        (fun d hd => ⟨fun m hm => ?_, ?_, (h.holder d).stored⟩) fun m hm => ?_
      · rw [hfiles]
        cases ok with
        | false => exact (List.append_nil _).symm ▸ h.desk.given
        | true => exact nodup_snoc h.desk.given ((h.holder c).notGiven n hown)
      · rw [hopened]
        exact h.desk.opened
      · rw [hopened, hslot]
        exact h.desk.path
      · rw [hslot]
        exact h.desk.opening
      · cases hm
      · cases hm
      · cases hm
      · rw [hfiles]
        have hne := h.held d c hd m n hm hown
        refine List.not_mem_append ((h.holder d).notGiven m hm) ?_
        cases ok <;> simp [hne]
      · rw [hopened, hslot]
        exact (h.holder d).notOpened
      · cases hm

end

end Naming

open Naming

/-- **No path is given twice, and no file is opened twice**, along the runs in which every name is
made up in a local second of its own among those of its kind that are in use. -/
theorem written_once {ι : Type} [DecidableEq ι] (localtime : ℤ → LocalTime) {s : Naming.State ι}
    (h : ((names localtime).system ι).Reach (OwnSecond localtime) s) :
    WrittenOnce localtime s.shared := by
  have hapart : Naming.Apart localtime s := by
    refine h.invariant (Naming.Apart localtime) ?_ ?_
    · rintro ⟨w, pc⟩ ⟨⟨cfg, now, rfl⟩, hpc⟩
      have hnone : ∀ c n, (pc c).held ≠ some n := fun c n hn => by
        rw [show pc c = .idle from hpc c] at hn
        cases hn
      refine ⟨⟨⟨List.nodup_nil, List.nodup_nil⟩, fun _ _ => List.not_mem_nil, fun hat => ?_⟩,
        fun c => ⟨fun n hn => absurd hn (hnone c n), fun n hn => absurd hn (hnone c n),
          fun n path since hp => ?_⟩, fun c _ _ n _ hn => absurd hn (hnone c n)⟩
      · cases hat
      · cases (show pc c = .idle from hpc c).symm.trans hp
    · intro s e s' _ hs hown hstep
      cases e with
      | env e =>
          obtain ⟨w, henv, rfl⟩ := step_env_iff.mp hstep
          exact hs.env (env_move henv)
      | run c a =>
          obtain ⟨w, q, hact, rfl⟩ := step_run_iff.mp hstep
          exact hs.run hown (act_move (hs.holder c).stored hact)
  exact hapart.desk.toWrittenOnce

namespace Naming

/-- UTC, as it is in the first minute of 1970. -/
def firstMinute (t : ℤ) : LocalTime where
  year := 1970
  mon := 1
  mday := 1
  hour := 0
  min := 0
  sec := (t % 60).toNat
  mon_lt := by decide
  mday_lt := by decide
  hour_lt := by decide
  min_lt := by decide
  sec_lt := by omega

/-- Client `c`, which sends `r` when it is idle, takes `k` steps in which nothing fails. -/
def steps (c : Bool) (k : ℕ) (r : Request) : List (Step Bool) :=
  List.replicate k (.run c ⟨r, .good, false⟩)

/-- The server has just started. -/
def initial : State Bool := ⟨opened (configOf .medium) 0, fun _ => .idle⟩

/-- One client starts a recording and stops it; `ns` later the other one starts a recording. -/
def twoRecordings (ns : ℕ) : List (Step Bool) :=
  steps false 10 .recordStart ++ steps false 7 .recordStop ++ [.env (.tick ns)] ++
    steps true 10 .recordStart

/-- The executable form of `OwnSecond` for two clients. -/
def ownSecond (localtime : ℤ → LocalTime) (s : State Bool) : Step Bool → Bool
  | .run c _ =>
      match (s.pc c).makes with
      | none => true
      | some kind =>
          let file := GeneratedName.file localtime ⟨kind, toTimeT s.shared.now⟩
          !(s.shared.granted.map (GeneratedName.file localtime)).contains file &&
            !s.shared.opened.contains file && file != s.shared.slot.path &&
            [false, true].all fun d => (s.pc d).held.all fun m => m.file localtime != file
  | .env _ => true

lemma ownSecond_sound {localtime : ℤ → LocalTime} (s : State Bool) (e : Step Bool)
    (h : ownSecond localtime s e = true) : OwnSecond localtime s e := by
  cases e with
  | env e => exact trivial
  | run c a =>
      intro kind hmakes m hm hsame
      have hfile := (GeneratedName.file_eq_iff localtime _ _).mpr hsame
      rw [ownSecond, hmakes] at h
      simp only [← hfile, Bool.and_eq_true, Bool.not_eq_true', List.all_eq_true, bne_iff_ne,
        List.contains_eq_mem, decide_eq_false_iff_not] at h
      obtain ⟨⟨⟨hgranted, hopened⟩, hpath⟩, hheld⟩ := h
      rcases hm with hm | hm | hm | ⟨d, hm⟩
      · exact hgranted (List.mem_map_of_mem hm)
      · exact hopened hm
      · exact hpath hm
      · have hnot := hheld d (by cases d <;> decide)
        rw [hm] at hnot
        simp at hnot

end Naming

/-- Two recordings that are started a second apart have files of their own. -/
theorem written_once_apart : ∃ s : Naming.State Bool,
    ((names firstMinute).system Bool).exec (ownSecond firstMinute) initial
      (twoRecordings 1000000000) = some s ∧
    s.shared.granted = [⟨.recording, 0⟩, ⟨.recording, 1⟩] ∧
    s.shared.opened = [ascii "recordings/rec_19700101_000000.mp4",
      ascii "recordings/rec_19700101_000001.mp4"] ∧ WrittenOnce firstMinute s.shared := by
  have hrun : (((names firstMinute).system Bool).exec (ownSecond firstMinute) initial
      (twoRecordings 1000000000)).map (fun s => (s.shared.granted, s.shared.opened)) =
        some ([⟨.recording, 0⟩, ⟨.recording, 1⟩], [ascii "recordings/rec_19700101_000000.mp4",
          ascii "recordings/rec_19700101_000001.mp4"]) := by decide
  obtain ⟨s, hs, hfiles⟩ := Option.map_eq_some_iff.mp hrun
  obtain ⟨hgranted, hopened⟩ := Prod.mk.inj hfiles
  exact ⟨s, hs, hgranted, hopened, written_once firstMinute
    (.of_exec_check ownSecond_sound ⟨⟨_, _, rfl⟩, fun _ => rfl⟩ hs)⟩

/-- Two recordings that are started within a second are both answered ok with one file: the second
is written over the first. -/
theorem same_second_same_file : ¬ ∀ (localtime : ℤ → LocalTime) (s : Naming.State Bool),
    ((names localtime).system Bool).Reach (fun _ _ => True) s →
      WrittenOnce localtime s.shared := by
  intro h
  have hrun : (((names firstMinute).system Bool).exec (fun _ _ => true) initial
      (twoRecordings 0)).map (fun s => (s.shared.granted, s.shared.opened)) =
        some ([⟨.recording, 0⟩, ⟨.recording, 0⟩], [ascii "recordings/rec_19700101_000000.mp4",
          ascii "recordings/rec_19700101_000000.mp4"]) := by decide
  obtain ⟨s, hs, hfiles⟩ := Option.map_eq_some_iff.mp hrun
  have honce := h firstMinute s
    (.of_exec_check (fun _ _ _ => trivial) ⟨⟨_, _, rfl⟩, fun _ => rfl⟩ hs)
  have hopened := honce.opened
  rw [(Prod.mk.inj hfiles).2] at hopened
  exact (List.nodup_cons.mp hopened).1 List.mem_cons_self

end RasPiZeroCam
