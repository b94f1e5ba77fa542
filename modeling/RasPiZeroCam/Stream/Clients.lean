import RasPiZeroCam.Control.Commands
import RasPiZeroCam.Stream.Calls
import RasPiZeroCam.Transition.Pool

/-!
The program of `main` once its WebSocket server runs: any number of client threads that execute
the camera commands, the main loop, and the source's own threads.

* `Server`: what `main` and the handlers share.
* `Command`, `Clients.Pc`, `Clients.program`: the handlers of `set_resolution`, `record_start`,
  `record_stop` and `record_restart`, statement by statement.
* `Clients.around`: the stop signal, the condition of the main loop, and the source's threads.
* `clients`: the pool, from a source that `start` has set running (`start_exec`).
-/

namespace RasPiZeroCam

open Transition Pool

/-- The state `main` shares with the handlers. -/
structure Server extends World where
  resMutex : Bool             -- `res_mutex` is held
  cfgPtr : ResolutionConfig
  gRunning : Bool
  inLoop : Bool               -- the main loop has not been left

/-- The commands that start, stop or switch. -/
inductive Command where
  | setResolution (width height : UInt32)
  | recordStart (msg : Json)
  | recordStop
  | recordRestart

namespace Clients

/-- Where the handler of a client is.  `record_start` and `record_restart` end alike: with the
mutex held they settle the file name, from the message of `record_start`, and start recording. -/
inductive Pc where
  | idle
  | lockCfg (cfg : ResolutionConfig)
  | setCfgPtr (cfg : ResolutionConfig)
  | unlockCfg (cfg : ResolutionConfig)
  | setResolution (cfg : ResolutionConfig) (p : SetResolutionPc)
  | testStart (msg : Json)
  | restart (p : StopRecordingPc)
  | lock (msg : Option Json)
  | name (msg : Option Json)
  | start (file : Bytes) (p : StartRecordingPc)
  | unlock
  | testStop
  | file
  | seconds (file : Bytes)
  | stop (file : Bytes) (dur : ℕ) (p : StopRecordingPc)

/-- What happens around the clients. -/
inductive Env where
  | signal
  | poll
  | drainExit
  | busExit
  | message (m : BusMessage)

/-- Where the handler of a command begins. -/
def handle : Command → Pc
  | .setResolution w h => .lockCfg (configOf (matchPreset w h))
  | .recordStart msg => .testStart msg
  | .recordStop => .testStop
  | .recordRestart => .restart .test

/-- A step on the source. -/
def onWorld (f : World → Option (World × Pc)) (s : Server) : Option (Server × Pc) :=
  (f s.toWorld).map fun r => ({ s with toWorld := r.1 }, r.2)

/-- The file name a start settles on. -/
def fileName (o : Choice) : Option Json → Except Exception Bytes
  | some msg => msg.value (ascii "filename") (nextName recDir recFormat o.tm)
  | none => .ok (nextName recDir recFormat o.tm)

/-- `res_mutex` is taken; a client that finds it held waits. -/
def lockRes (q : Pc) (s : Server) : Option (Server × Pc) :=
  if s.resMutex then none else some ({ s with resMutex := true }, q)

/-- The handlers, statement by statement.  A client picks the command it handles next.  An
exception that leaves a handler releases the mutex. -/
def program (a : Command × Choice) : Pc → Server → Option (Server × Pc)
  | .idle, s => some (s, handle a.1)
  | .lockCfg cfg, s => lockRes (.setCfgPtr cfg) s
  | .setCfgPtr cfg, s => some ({ s with cfgPtr := cfg }, .unlockCfg cfg)
  | .unlockCfg cfg, s => some ({ s with resMutex := false }, .setResolution cfg .testRecording)
  | .setResolution cfg p, s =>
      onWorld (stepCall (setResolutionStep cfg) (.setResolution cfg) (fun _ => .idle) a.2 p) s
  | .testStart msg, s => some (s, if s.isRecording then .idle else .lock (some msg))
  | .restart p, s => onWorld (stepCall stopRecordingStep .restart (fun _ => .lock none) a.2 p) s
  | .lock msg, s => lockRes (.name msg) s
  | .name msg, s =>
      match fileName a.2 msg with
      | .ok file => some (s, .start file .test)
      | .error _ => some (s, .unlock)
  | .start file p, s =>
      onWorld (stepCall (startRecordingStep file) (.start file) (fun _ => .unlock) a.2 p) s
  | .unlock, s => some ({ s with resMutex := false }, .idle)
  | .testStop, s => some (s, if s.isRecording then .file else .idle)
  | .file, s => some (s, .seconds s.currentRecording)
  | .seconds file, s => some (s, .stop file (s.recordingSeconds a.2.now) .test)
  | .stop file dur p, s =>
      onWorld (stepCall stopRecordingStep (.stop file dur) (fun _ => .idle) a.2 p) s

/-- A step of a client, while the process lives. -/
def act (a : Command × Choice) (p : Pc) (s : Server) : Option (Server × Pc) :=
  if s.crashed then none else program a p s

/-- What happens around the clients.  The main loop evaluates its condition, and leaves when it is
false. -/
def around : Env → Server → Option Server
  | .signal, s => some { s with gRunning := false }
  | .poll, s => if s.inLoop then some { s with inLoop := s.gRunning && s.isRunning } else none
  | .drainExit, s => s.drainExit.map fun w => { s with toWorld := w }
  | .busExit, s => s.busExit.map fun w => { s with toWorld := w }
  | .message m, s => (s.busMessage m).map fun w => { s with toWorld := w }

/-- A step around the clients, while the process lives. -/
def env (e : Env) (s : Server) : Option Server := if s.crashed then none else around e s

/-- A source whose `start` has succeeded. -/
def started (cfg : ResolutionConfig) : World :=
  { World.new cfg with
    pipeline := some ⟨0, cfg⟩
    appsink := some 0
    recSink := some 0
    bus := some 0
    busThread := .live
    running := true
    recThread := .live
    made := 1
    acquired := [.pipeline 0, .appsink 0, .recSink 0, .bus 0] }

/-- `start`, run alone on a fresh source while nothing fails. -/
lemma start_exec (cfg : ResolutionConfig) :
    execBody startStep .good 9 .test (World.new cfg) = some (started cfg, true) := rfl

/-- `main` when it enters its loop. -/
def running (cfg : ResolutionConfig) : Server where
  toWorld := started cfg
  resMutex := false
  cfgPtr := cfg
  gRunning := true
  inLoop := true

end Clients

/-- The clients, the main loop and the source's threads. -/
def clients : Pool Server Clients.Pc (Command × Choice) Clients.Env where
  init s := ∃ cfg, s = Clients.running cfg
  start := .idle
  act := Clients.act
  env := Clients.env

namespace Clients

/-- A configuration: what is shared, and where each client is. -/
abbrev State := Config ℕ Server Pc

/-- A step of a client, or one around the clients. -/
abbrev Step := Event ℕ (Command × Choice) Env

/-- Where `start` is, if the client is in it. -/
def startPoint : Pc → Option StartPc
  | .setResolution _ (.start p) => some p
  | _ => none

/-- `main` enters its loop, and no client has sent a command. -/
def initial : State := ⟨running (configOf .medium), fun _ => .idle⟩

/-- Client `c`, which sends `cmd` when it is idle, takes `n` steps in which nothing fails. -/
def steps (c n : ℕ) (cmd : Command) : List Step := List.replicate n (.run c (cmd, .good))

/-- Client `c` switches the resolution. -/
def switch (c : ℕ) : List Step :=
  steps c 11 (.setResolution 640 480) ++ [.env .drainExit] ++
    steps c 2 (.setResolution 640 480) ++ [.env .busExit] ++ steps c 15 (.setResolution 640 480)

lemma program_of_act {a : Command × Choice} {p q : Pc} {s s' : Server}
    (h : act a p s = some (s', q)) : program a p s = some (s', q) := by
  rw [act] at h
  split_ifs at h
  exact h

lemma around_of_env {e : Env} {s s' : Server} (h : env e s = some s') :
    around e s = some s' := by
  rw [env] at h
  split_ifs at h
  exact h

/-- What happens around the clients does not touch the mutex; it touches the source when one of its
threads returns, or handles a message. -/
lemma around_cases {e : Env} {s t : Server} (h : around e s = some t) :
    t.resMutex = s.resMutex ∧ (t.toWorld = s.toWorld ∨ ThreadExit s.toWorld t.toWorld ∨
      ∃ m, e = .message m ∧ s.busMessage m = some t.toWorld) := by
  cases e with
  | signal =>
      cases h
      exact ⟨rfl, Or.inl rfl⟩
  | poll =>
      rw [around] at h
      split_ifs at h
      cases h
      exact ⟨rfl, Or.inl rfl⟩
  | drainExit =>
      obtain ⟨w, hw, rfl⟩ := Option.map_eq_some_iff.mp h
      exact ⟨rfl, Or.inr (Or.inl (Or.inl hw))⟩
  | busExit =>
      obtain ⟨w, hw, rfl⟩ := Option.map_eq_some_iff.mp h
      exact ⟨rfl, Or.inr (Or.inl (Or.inr hw))⟩
  | message m =>
      obtain ⟨w, hw, rfl⟩ := Option.map_eq_some_iff.mp h
      exact ⟨rfl, Or.inr (Or.inr ⟨m, rfl, hw⟩)⟩

/-- Only the main loop and the stop signal touch the main loop's flags. -/
lemma around_loop {e : Env} {s t : Server} (h : around e s = some t) (hsignal : e ≠ .signal)
    (hpoll : e ≠ .poll) : t.inLoop = s.inLoop ∧ t.gRunning = s.gRunning := by
  cases e with
  | signal => exact absurd rfl hsignal
  | poll => exact absurd rfl hpoll
  | drainExit =>
      obtain ⟨w, -, rfl⟩ := Option.map_eq_some_iff.mp h
      exact ⟨rfl, rfl⟩
  | busExit =>
      obtain ⟨w, -, rfl⟩ := Option.map_eq_some_iff.mp h
      exact ⟨rfl, rfl⟩
  | message m =>
      obtain ⟨w, -, rfl⟩ := Option.map_eq_some_iff.mp h
      exact ⟨rfl, rfl⟩

lemma lockRes_eq_some {q q' : Pc} {s s' : Server} (h : lockRes q s = some (s', q')) :
    s.resMutex = false ∧ s' = { s with resMutex := true } ∧ q' = q := by
  rw [lockRes] at h
  split_ifs at h with hlocked
  cases h
  exact ⟨by simpa using hlocked, rfl, rfl⟩

lemma onWorld_eq_some {f : World → Option (World × Pc)} {s s' : Server} {q : Pc}
    (h : onWorld f s = some (s', q)) :
    ∃ w, f s.toWorld = some (w, q) ∧ s' = { s with toWorld := w } := by
  obtain ⟨⟨w, q'⟩, hf, hland⟩ := Option.map_eq_some_iff.mp h
  cases hland
  exact ⟨w, hf, rfl⟩

/-- A step of a call as the client takes it. -/
lemma onWorld_stepCall_cases {π ρ : Type} {body : Body World Choice π ρ} {into : π → Pc}
    {k : ρ → Pc} {o : Choice} {p : π} {s s' : Server} {q : Pc}
    (h : onWorld (stepCall body into k o p) s = some (s', q)) :
    (∃ w p', body o p s.toWorld = some (w, .goto p') ∧ q = into p' ∧
        s' = { s with toWorld := w }) ∨
      (∃ w r, body o p s.toWorld = some (w, .ret r) ∧ q = k r ∧ s' = { s with toWorld := w }) ∨
      (q = into p ∧ s' = { s with crashed := true }) := by
  obtain ⟨w, hcall, rfl⟩ := onWorld_eq_some h
  obtain ⟨p', hbody, rfl⟩ | ⟨r, hbody, rfl⟩ | ⟨rfl, rfl⟩ := stepCall_cases hcall
  · exact Or.inl ⟨w, p', hbody, rfl, rfl⟩
  · exact Or.inr (Or.inl ⟨w, r, hbody, rfl, rfl⟩)
  · exact Or.inr (Or.inr ⟨rfl, rfl⟩)

/-- The clients leave the main loop's flags alone. -/
lemma act_loop {a : Command × Choice} {p q : Pc} {s s' : Server} (h : act a p s = some (s', q)) :
    s'.inLoop = s.inLoop ∧ s'.gRunning = s.gRunning := by
  have hworld : ∀ {f : World → Option (World × Pc)}, onWorld f s = some (s', q) →
      s'.inLoop = s.inLoop ∧ s'.gRunning = s.gRunning := by
    intro f hf
    obtain ⟨w, -, rfl⟩ := onWorld_eq_some hf
    exact ⟨rfl, rfl⟩
  replace h := program_of_act h
  cases p
  case name msg =>
      simp only [program] at h
      split at h <;> cases h <;> exact ⟨rfl, rfl⟩
  case lockCfg cfg =>
      obtain ⟨-, rfl, rfl⟩ := lockRes_eq_some h
      exact ⟨rfl, rfl⟩
  case lock msg =>
      obtain ⟨-, rfl, rfl⟩ := lockRes_eq_some h
      exact ⟨rfl, rfl⟩
  case setResolution cfg p => exact hworld h
  case restart p => exact hworld h
  case start f p => exact hworld h
  case stop f dur p => exact hworld h
  all_goals
    cases h
    exact ⟨rfl, rfl⟩

end Clients

end RasPiZeroCam
