import RasPiZeroCam.Camera.Resolution
import RasPiZeroCam.Transition.System

/-!
The server thread of `MjpegServer` and of `WsServer`: `start` makes it, `stop` joins it, and it
clears `running_` when its `listen` returns.  An assignment to a `std::thread` that is joinable, and
its destructor, call `std::terminate`.

* `ThreadedServer`: the members, the server thread, and where the caller of `start`, `stop` and the
  destructor is.  `mjpegServer`, `wsServer`: the two classes.
* `servers_joined`: the thread is never left joinable as long as no `start` and no destructor finds
  that it has ended by itself (`Awaited`); one that does leads to `std::terminate`.
* `ended_thread_not_joined`: the port is taken, and the server is started again, or destroyed.
-/

namespace RasPiZeroCam

open Transition System

/-- Where the function of the server thread is. -/
inductive ServerThreadPc where
  | listen                    -- `server_->listen("0.0.0.0", port_)`
  | clear                     -- `running_ = false`
  | ended
  deriving DecidableEq

/-- Where the caller is; `destroy` tells whether `stop` was called by the destructor. -/
inductive ServerCallerPc (κ : Type*) where
  | idle
  | start (arg : κ)           -- `if (running_) return false`
  | makeServer (arg : κ)      -- `server_ = std::make_unique<httplib::Server>()`, and its handlers
  | setRunning                -- `running_ = true`
  | spawn                     -- `server_thread_ = std::thread(..)`
  | stop (destroy : Bool)     -- `if (server_) server_->stop()`
  | join (destroy : Bool)     -- `if (server_thread_.joinable()) server_thread_.join()`
  | clear (destroy : Bool)    -- `running_ = false`
  | destroy                   -- `if (running_) stop()`
  | destroyThread             -- the destructor of `server_thread_`
  | destroyed
  | overwritten               -- `server_thread_` was joinable: `std::terminate`
  | abandoned                 -- the same, in its destructor

/-- A server with a thread of its own; `κ` is what `start` is given. -/
structure ThreadedServer (κ : Type*) where
  given : Option κ            -- the argument of `start` that the handlers work with
  routes : Option (List Bytes)  -- the handlers of `server_`, if there is one
  running : Bool
  thread : Option ServerThreadPc  -- the thread that `server_thread_` names
  caller : ServerCallerPc κ
  returned : Option Bool      -- by the last call of `start`

namespace ThreadedServer

variable {κ : Type*}

/-- A call, a step of the caller, or a step of the server thread. -/
inductive Step (κ : Type*) where
  | start (arg : κ)
  | stop
  | destroy
  | caller
  | thread

/-- The constructor. -/
def new (κ : Type*) : ThreadedServer κ where
  given := none
  routes := none
  running := false
  thread := none
  caller := .idle
  returned := none

/-- `server_thread_.joinable()`. -/
def joinable (s : ThreadedServer κ) : Bool := s.thread.isSome

/-- A call, while no other is in progress. -/
def call (pc : ServerCallerPc κ) (s : ThreadedServer κ) : Option (ThreadedServer κ) :=
  match s.caller with
  | .idle => some { s with caller := pc }
  | _ => none

/-- A step of the caller, for a server with the given routes. -/
def callerStep (routes : List Bytes) (s : ThreadedServer κ) : Option (ThreadedServer κ) :=
  match s.caller with
  | .start arg =>
      if s.running then
        some { s with
          caller := .idle
          returned := some false }
      else some { s with caller := .makeServer arg }
  | .makeServer arg =>
      some { s with
        given := some arg
        routes := some routes
        caller := .setRunning }
  | .setRunning =>
      some { s with
        running := true
        caller := .spawn }
  | .spawn =>
      if s.joinable then some { s with caller := .overwritten }
      else
        some { s with
          thread := some .listen
          caller := .idle
          returned := some true }
  -- `listen` may return at any time after that; it may do so before, too
  | .stop destroy => some { s with caller := .join destroy }
  | .join destroy =>
      if s.joinable then
        if s.thread = some .ended then
          some { s with
            thread := none
            caller := .clear destroy }
        else none
      else some { s with caller := .clear destroy }
  | .clear destroy =>
      some { s with
        running := false
        caller := if destroy then .destroyThread else .idle }
  | .destroy => some { s with caller := if s.running then .stop true else .destroyThread }
  | .destroyThread =>
      some { s with caller := if s.joinable then .abandoned else .destroyed }
  | _ => none

/-- A step of the server thread. -/
def threadStep (s : ThreadedServer κ) : Option (ThreadedServer κ) :=
  match s.thread with
  | some .listen => some { s with thread := some .clear }
  | some .clear =>
      some { s with
        running := false
        thread := some .ended }
  | _ => none

/-- The caller and the server thread, for a class whose `start` registers the given routes. -/
def system (κ : Type*) (routes : List Bytes) : System (ThreadedServer κ) (Step κ) where
  init s := s = .new κ
  step s
    | .start arg => s.call (.start arg)
    | .stop => s.call (.stop false)
    | .destroy => s.call .destroy
    | .caller => s.callerStep routes
    | .thread => s.threadStep

/-- When `start` or the destructor tests `running_`, the server thread has not ended by itself. -/
def Awaited (s : ThreadedServer κ) : Step κ → Prop
  | .caller => (∃ arg, s.caller = .start arg) ∨ s.caller = .destroy → s.thread ≠ some .ended
  | _ => True

end ThreadedServer

open ThreadedServer

/-- `MjpegServer`: `start(cfg)`. -/
def mjpegServer : System (ThreadedServer ResolutionConfig) (ThreadedServer.Step ResolutionConfig) :=
  ThreadedServer.system ResolutionConfig
    [ascii "/stream.mjpeg", ascii "/snapshot.jpg", ascii "/api/status", ascii "/"]

/-- `WsServer`: `start(on_message)`. -/
def wsServer : System (ThreadedServer (Bytes → Bytes)) (ThreadedServer.Step (Bytes → Bytes)) :=
  ThreadedServer.system (Bytes → Bytes) [ascii "/ws"]

/-- **The thread is joined**: `start` has not overwritten a `server_thread_` that is joinable, and
the destructor has not left it so. -/
def ThreadJoined {κ : Type*} (s : ThreadedServer κ) : Prop :=
  s.caller ≠ .overwritten ∧ s.caller ≠ .abandoned

/-- The thread is joined; and a `start` or a destructor that finds that it has ended by itself has
nothing left to do but to go on to `std::terminate`. -/
structure JoinsAwaited {κ : Type*} (T : System (ThreadedServer κ) (ThreadedServer.Step κ))
    (s : ThreadedServer κ) : Prop where
  joined : ThreadJoined s
  terminates : ∀ e s', ¬ s.Awaited e → T.step s e = some s' →
    ∃ n t, T.exec (fun _ _ => true) s' (List.replicate n .caller) = some t ∧ ¬ ThreadJoined t ∧
      ∀ es u, T.exec (fun _ _ => true) s' es = some u → es <+: List.replicate n .caller

namespace ThreadedServer

variable {κ : Type*} {routes : List Bytes} {s s' : ThreadedServer κ}

/-- The places of the caller where it has made sure that there is no thread. -/
def vacant : ServerCallerPc κ → Bool
  | .makeServer _ => true
  | .setRunning => true
  | .spawn => true
  | .clear _ => true
  | .destroyThread => true
  | _ => false

/-- What the flag and the caller's place say about the thread. -/
structure Flagged (s : ThreadedServer κ) : Prop where
  running : s.thread = some .listen ∨ s.thread = some .clear → s.running = true
  ended : s.thread = some .ended → s.running = false
  spawning : s.caller = .spawn → s.running = true
  vacant : vacant s.caller = true → s.thread = none

/-- The flag is clear and the thread has not ended: there is none. -/
lemma Flagged.thread_eq_none (hs : s.Flagged) (hclear : s.running = false)
    (hended : s.thread ≠ some .ended) : s.thread = none := by
  cases hthread : s.thread with
  | none => rfl
  | some pc =>
      cases pc with
      | ended => exact absurd hthread hended
      | _ =>
          have hrunning := hs.running (by simp [hthread])
          rw [hclear] at hrunning
          cases hrunning

/-- A call only moves the caller. -/
lemma call_cases {pc : ServerCallerPc κ} (h : s.call pc = some s') :
    s.caller = .idle ∧ s' = { s with caller := pc } := by
  rw [call] at h
  split at h
  · next hidle =>
    cases h
    exact ⟨hidle, rfl⟩
  · cases h

lemma Flagged.call {pc : ServerCallerPc κ} (hs : s.Flagged) (h : s.call pc = some s')
    (a : ThreadedServer.vacant pc = false) (b : pc ≠ .spawn) :
    s'.Flagged := by
  obtain ⟨-, rfl⟩ := call_cases h
  exact ⟨hs.running, hs.ended, fun hspawn => absurd hspawn b,
    fun hvacant => absurd (a.symm.trans hvacant) (by decide)⟩

lemma Flagged.threadStep (hs : s.Flagged) (h : s.threadStep = some s') :
    s'.Flagged ∧ s'.caller = s.caller := by
  -- a thread that takes a step exists, and so the caller is at no vacant place
  have hnone : s.thread ≠ none := by
    intro hnone
    simp [ThreadedServer.threadStep, hnone] at h
  have hvacant : ThreadedServer.vacant s.caller = true → False := fun hv => hnone (hs.vacant hv)
  have hspawn : s.caller ≠ .spawn := fun hspawn => hvacant (by rw [hspawn]; rfl)
  rw [ThreadedServer.threadStep] at h
  split at h
  · next hthread =>
    cases h
    exact ⟨⟨fun _ => hs.running (Or.inl hthread), by simp, hs.spawning,
      fun hv => (hvacant hv).elim⟩, rfl⟩
  · cases h
    exact ⟨⟨by simp, fun _ => rfl, fun h => absurd h hspawn, fun hv => (hvacant hv).elim⟩, rfl⟩
  · cases h

/-- A step of the caller. -/
lemma Flagged.callerStep (hs : s.Flagged) (hawaited : s.Awaited .caller)
    (h : s.callerStep routes = some s') : s'.Flagged ∧ ThreadJoined s' := by
  cases hpc : s.caller with
  | start arg =>
      simp only [ThreadedServer.callerStep, hpc] at h
      split_ifs at h with hrunning
      · cases h
        exact ⟨⟨hs.running, hs.ended, by simp, by simp [ThreadedServer.vacant]⟩,
          by simp [ThreadJoined]⟩
      · cases h
        refine ⟨⟨hs.running, hs.ended, by simp, fun _ => ?_⟩, by simp [ThreadJoined]⟩
        exact hs.thread_eq_none (by simpa using hrunning) (hawaited (Or.inl ⟨arg, hpc⟩))
  | makeServer arg =>
      simp only [ThreadedServer.callerStep, hpc] at h
      cases h
      exact ⟨⟨hs.running, hs.ended, by simp, fun _ => hs.vacant (by rw [hpc]; rfl)⟩,
        by simp [ThreadJoined]⟩
  | setRunning =>
      simp only [ThreadedServer.callerStep, hpc] at h
      cases h
      exact ⟨⟨fun _ => rfl, fun h => by simp [hs.vacant (by rw [hpc]; rfl)] at h, fun _ => rfl,
        fun _ => hs.vacant (by rw [hpc]; rfl)⟩,
        by simp [ThreadJoined]⟩
  | spawn =>
      have hnone : s.thread = none := hs.vacant (by rw [hpc]; rfl)
      simp only [ThreadedServer.callerStep, hpc, joinable, hnone, Option.isSome_none,
        Bool.false_eq_true, if_false] at h
      cases h
      exact ⟨⟨fun _ => hs.spawning hpc, by simp, by simp, by simp [ThreadedServer.vacant]⟩,
        by simp [ThreadJoined]⟩
  | stop destroy =>
      simp only [ThreadedServer.callerStep, hpc] at h
      cases h
      exact ⟨⟨hs.running, hs.ended, by simp, by simp [ThreadedServer.vacant]⟩,
        by simp [ThreadJoined]⟩
  | join destroy =>
      simp only [ThreadedServer.callerStep, hpc] at h
      split_ifs at h with hjoinable hended
      · cases h
        exact ⟨⟨by simp, by simp, by simp, fun _ => rfl⟩, by simp [ThreadJoined]⟩
      · cases h
        refine ⟨⟨hs.running, hs.ended, by simp, fun _ => ?_⟩, by simp [ThreadJoined]⟩
        simpa [joinable] using hjoinable
  | clear destroy =>
      have hnone : s.thread = none := hs.vacant (by rw [hpc]; rfl)
      simp only [ThreadedServer.callerStep, hpc] at h
      cases h
      cases destroy
      · exact ⟨⟨by simp [hnone], by simp [hnone], by simp, fun _ => hnone⟩, by simp [ThreadJoined]⟩
      · exact ⟨⟨by simp [hnone], by simp [hnone], by simp, fun _ => hnone⟩, by simp [ThreadJoined]⟩
  | destroy =>
      simp only [ThreadedServer.callerStep, hpc] at h
      split_ifs at h with hrunning
      · cases h
        exact ⟨⟨hs.running, hs.ended, by simp, by simp [ThreadedServer.vacant]⟩,
          by simp [ThreadJoined]⟩
      · have hnone := hs.thread_eq_none (by simpa using hrunning) (hawaited (Or.inr hpc))
        cases h
        exact ⟨⟨by simp [hnone], by simp [hnone], by simp, fun _ => hnone⟩, by simp [ThreadJoined]⟩
  | destroyThread =>
      have hnone : s.thread = none := hs.vacant (by rw [hpc]; rfl)
      have hjoinable : s.joinable = false := by rw [joinable, hnone]; rfl
      simp only [ThreadedServer.callerStep, hpc, hjoinable, Bool.false_eq_true, if_false] at h
      cases h
      exact ⟨⟨by simp [hnone], by simp [hnone], by simp, fun _ => hnone⟩, by simp [ThreadJoined]⟩
  | _ => simp [ThreadedServer.callerStep, hpc] at h

/-- The step lemma: the thread is joined, and the flag says whether there is one. -/
lemma Flagged.step {e : Step κ} (hs : s.Flagged) (hjoined : ThreadJoined s) (hawaited : s.Awaited e)
    (h : (ThreadedServer.system κ routes).step s e = some s') : s'.Flagged ∧ ThreadJoined s' := by
  cases e with
  | start arg =>
      exact ⟨hs.call h rfl (by simp), by obtain ⟨-, rfl⟩ := call_cases h; simp [ThreadJoined]⟩
  | stop =>
      exact ⟨hs.call h rfl (by simp), by obtain ⟨-, rfl⟩ := call_cases h; simp [ThreadJoined]⟩
  | destroy =>
      exact ⟨hs.call h rfl (by simp), by obtain ⟨-, rfl⟩ := call_cases h; simp [ThreadJoined]⟩
  | caller => exact hs.callerStep hawaited h
  | thread =>
      obtain ⟨hs', hcaller⟩ := hs.threadStep h
      rw [ThreadJoined, hcaller]
      exact ⟨hs', hjoined⟩

/-- The run lemma. -/
lemma flagged_of_reach (h : (ThreadedServer.system κ routes).Reach Awaited s) :
    s.Flagged ∧ ThreadJoined s := by
  refine h.invariant (fun s => s.Flagged ∧ ThreadJoined s) ?_ fun s e s' _ hs hawaited hstep =>
    hs.1.step hs.2 hawaited hstep
  rintro s rfl
  exact ⟨⟨by simp [new], by simp [new], by simp [new], fun _ => rfl⟩, by simp [new, ThreadJoined]⟩

/-- Only `start` and the destructor look. -/
lemma ended_of_not_awaited {e : Step κ} (h : ¬ s.Awaited e) : e = .caller ∧
    s.thread = some .ended ∧ ((∃ arg, s.caller = .start arg) ∨ s.caller = .destroy) := by
  cases e with
  | caller =>
      simp only [Awaited, Classical.not_imp, not_not] at h
      exact ⟨rfl, h.2, h.1⟩
  | _ => exact absurd trivial h

/-- In a call, and with the thread ended, the caller alone goes on. -/
lemma only_caller (hbusy : s.caller ≠ .idle) (hended : s.thread = some .ended) :
    ∀ d, (ThreadedServer.system κ routes).step s d ≠ none → d = .caller := by
  have hcall : ∀ pc, s.call pc = none := by
    intro pc
    rw [call]
    split
    · next hidle => exact absurd hidle hbusy
    · rfl
  intro d hd
  cases d with
  | caller => rfl
  | thread => simp [system, threadStep, hended] at hd
  | _ => exact absurd (hcall _) hd

/-- After `std::terminate` nothing goes on. -/
lemma terminated (hpc : s.caller = .overwritten ∨ s.caller = .abandoned)
    (hended : s.thread = some .ended) (d : Step κ) :
    (ThreadedServer.system κ routes).step s d = none := by
  by_contra hd
  obtain rfl := only_caller (by rcases hpc with hpc | hpc <;> simp [hpc]) hended d hd
  rcases hpc with hpc | hpc <;> exact hd (by simp [system, callerStep, hpc])

/-- So its steps are forced. -/
lemma forced_caller {t : ThreadedServer κ} {es : List (Step κ)} (hended : s.thread = some .ended)
    (hbusy : s.caller ≠ .idle) (hstep : s.callerStep routes = some s')
    (h : (ThreadedServer.system κ routes).Forced s' es t) :
    (ThreadedServer.system κ routes).Forced s (.caller :: es) t :=
  .step hstep (only_caller hbusy hended) h

/-- `start` has found the flag clear, and the thread has ended: it overwrites `server_thread_`. -/
lemma start_forced (routes : List Bytes) {arg : κ} (hpc : s.caller = .makeServer arg)
    (hended : s.thread = some .ended) :
    ∃ t, (ThreadedServer.system κ routes).Forced s (List.replicate 3 .caller) t ∧
      t.caller = .overwritten := by
  let made : ThreadedServer κ := { s with
    given := some arg
    routes := some routes
    caller := .setRunning }
  let ready : ThreadedServer κ := { made with
    running := true
    caller := .spawn }
  let gone : ThreadedServer κ := { ready with caller := .overwritten }
  have hmade : s.callerStep routes = some made := by simp only [callerStep, hpc, made]
  have hready : made.callerStep routes = some ready := rfl
  have hjoinable : ready.joinable = true := by simp [ready, made, joinable, hended]
  have hgone : ready.callerStep routes = some gone := if_pos hjoinable
  have hstop : (ThreadedServer.system κ routes).Forced gone [] gone :=
    .stop (terminated (Or.inl rfl) hended)
  refine ⟨gone, ?_, rfl⟩
  refine forced_caller hended (by simp [hpc]) hmade ?_
  refine forced_caller hended (by simp [made]) hready ?_
  exact forced_caller hended (by simp [ready]) hgone hstop

/-- So has the destructor: it leaves `server_thread_` joinable. -/
lemma destroy_forced (routes : List Bytes) (hpc : s.caller = .destroyThread)
    (hended : s.thread = some .ended) :
    ∃ t, (ThreadedServer.system κ routes).Forced s (List.replicate 1 .caller) t ∧
      t.caller = .abandoned := by
  let gone : ThreadedServer κ := { s with caller := .abandoned }
  have hstep : s.callerStep routes = some gone := by
    simp [callerStep, hpc, joinable, hended, gone]
  have hgone : (ThreadedServer.system κ routes).Forced gone [] gone :=
    .stop (terminated (Or.inr rfl) hended)
  exact ⟨gone, forced_caller hended (by simp [hpc]) hstep hgone, rfl⟩

/-- A test that is not in time leads to `std::terminate`. -/
lemma Flagged.terminates {e : Step κ} (hs : s.Flagged) (hlate : ¬ s.Awaited e)
    (h : (ThreadedServer.system κ routes).step s e = some s') :
    ∃ n t, (ThreadedServer.system κ routes).Forced s' (List.replicate n .caller) t ∧
      ¬ ThreadJoined t := by
  obtain ⟨rfl, hended, hpc⟩ := ended_of_not_awaited hlate
  have hclear := hs.ended hended
  have hstep : s.callerStep routes = some s' := h
  rcases hpc with ⟨arg, hpc⟩ | hpc
  · simp only [ThreadedServer.callerStep, hpc, hclear, Bool.false_eq_true, if_false] at hstep
    have hnext : s'.caller = .makeServer arg ∧ s'.thread = some .ended := by
      cases hstep
      exact ⟨rfl, hended⟩
    obtain ⟨t, hforced, ht⟩ := start_forced routes hnext.1 hnext.2
    exact ⟨3, t, hforced, fun hjoined => hjoined.1 ht⟩
  · simp only [ThreadedServer.callerStep, hpc, hclear, Bool.false_eq_true, if_false] at hstep
    have hnext : s'.caller = .destroyThread ∧ s'.thread = some .ended := by
      cases hstep
      exact ⟨rfl, hended⟩
    obtain ⟨t, hforced, ht⟩ := destroy_forced routes hnext.1 hnext.2
    exact ⟨1, t, hforced, fun hjoined => hjoined.2 ht⟩

/-- Any class of this form joins its thread when it is waited for. -/
lemma joinsAwaited (h : (ThreadedServer.system κ routes).Reach Awaited s) :
    JoinsAwaited (ThreadedServer.system κ routes) s where
  joined := (flagged_of_reach h).2
  terminates e s' hlate hstep := by
    obtain ⟨n, t, hforced, ht⟩ := (flagged_of_reach h).1.terminates hlate hstep
    exact ⟨n, t, hforced.exec, ht, fun es u => hforced.prefix⟩

end ThreadedServer

/-- **The threads of both servers are joined**, along every run in which neither `start` nor the
destructor finds that the thread has ended by itself; and a call that does find it so ends in
`std::terminate`. -/
theorem servers_joined {s : ThreadedServer ResolutionConfig} {t : ThreadedServer (Bytes → Bytes)}
    (hs : mjpegServer.Reach Awaited s) (ht : wsServer.Reach Awaited t) :
    JoinsAwaited mjpegServer s ∧ JoinsAwaited wsServer t :=
  ⟨joinsAwaited hs, joinsAwaited ht⟩

namespace ThreadedServer

/-- `start(arg)`, and the destructor while the thread is at `listen`, or on its way out. -/
def startsAndStops {κ : Type*} (arg : κ) : List (Step κ) :=
  .start arg :: List.replicate 4 .caller ++ [.destroy, .caller, .thread, .caller, .thread] ++
    List.replicate 3 .caller

/-- The same test, for a run. -/
def awaited {κ : Type*} (s : ThreadedServer κ) : Step κ → Bool
  | .caller =>
      match s.caller, s.thread with
      | .start _, some .ended => false
      | .destroy, some .ended => false
      | _, _ => true
  | _ => true

lemma awaited_of_check {κ : Type*} {s : ThreadedServer κ} {e : Step κ} (h : awaited s e = true) :
    s.Awaited e := by
  cases e with
  | caller =>
      rintro (⟨arg, hpc⟩ | hpc) hended <;> simp [awaited, hpc, hended] at h
  | _ => trivial

lemma startsAndStops_exec {κ : Type*} (routes : List Bytes) (arg : κ) :
    ∃ t, (ThreadedServer.system κ routes).exec awaited (.new κ) (startsAndStops arg) = some t ∧
      t.caller = .destroyed :=
  ⟨_, rfl, rfl⟩

end ThreadedServer

/-- Both servers are started and destroyed. -/
theorem servers_joined_destroyed : ∃ s t, s.caller = .destroyed ∧ t.caller = .destroyed ∧
    JoinsAwaited mjpegServer s ∧ JoinsAwaited wsServer t := by
  obtain ⟨s, hs, hsend⟩ := startsAndStops_exec
    [ascii "/stream.mjpeg", ascii "/snapshot.jpg", ascii "/api/status", ascii "/"]
    (configOf .medium)
  obtain ⟨t, ht, htend⟩ := startsAndStops_exec [ascii "/ws"] (fun msg : Bytes => msg)
  have hreach : ∀ {κ : Type} {routes : List Bytes} {es : List (ThreadedServer.Step κ)}
      {u : ThreadedServer κ}, (ThreadedServer.system κ routes).exec awaited (.new κ) es = some u →
        (ThreadedServer.system κ routes).Reach Awaited u :=
    fun hexec => .of_exec_check (fun _ _ => awaited_of_check) rfl hexec
  exact ⟨s, t, hsend, htend, servers_joined (hreach hs) (hreach ht)⟩

namespace ThreadedServer

/-- `start(arg)`, and `listen` returns by itself. -/
def startsInVain {κ : Type*} (arg : κ) : List (Step κ) :=
  .start arg :: List.replicate 4 .caller ++ List.replicate 2 .thread

lemma startsInVain_again {κ : Type*} (routes : List Bytes) (arg : κ) :
    ∃ t, (ThreadedServer.system κ routes).exec (fun _ _ => true) (.new κ)
      (startsInVain arg ++ .start arg :: List.replicate 4 .caller) = some t ∧
      t.caller = .overwritten :=
  ⟨_, rfl, rfl⟩

lemma startsInVain_destroy {κ : Type*} (routes : List Bytes) (arg : κ) :
    ∃ t, (ThreadedServer.system κ routes).exec (fun _ _ => true) (.new κ)
      (startsInVain arg ++ .destroy :: List.replicate 2 .caller) = some t ∧
      t.caller = .abandoned :=
  ⟨_, rfl, rfl⟩

end ThreadedServer

/-- The port is taken, so that `listen` returns; then the server is started again, or destroyed. -/
theorem ended_thread_not_joined :
    ¬ (∀ s, mjpegServer.Reach (fun _ _ => True) s → s.caller ≠ .overwritten) ∧
    ¬ (∀ s, mjpegServer.Reach (fun _ _ => True) s → s.caller ≠ .abandoned) ∧
    ¬ (∀ s, wsServer.Reach (fun _ _ => True) s → s.caller ≠ .overwritten) ∧
    ¬ ∀ s, wsServer.Reach (fun _ _ => True) s → s.caller ≠ .abandoned := by
  have hreach : ∀ {κ : Type} {routes : List Bytes} {es : List (ThreadedServer.Step κ)}
      {t : ThreadedServer κ}, (ThreadedServer.system κ routes).exec (fun _ _ => true) (.new κ) es =
        some t → (ThreadedServer.system κ routes).Reach (fun _ _ => True) t :=
    fun hexec => .of_exec_check (fun _ _ _ => trivial) rfl hexec
  refine ⟨fun h => ?_, fun h => ?_, fun h => ?_, fun h => ?_⟩
  · obtain ⟨t, hexec, ht⟩ := ThreadedServer.startsInVain_again _ (configOf .medium)
    exact h t (hreach hexec) ht
  · obtain ⟨t, hexec, ht⟩ := ThreadedServer.startsInVain_destroy _ (configOf .medium)
    exact h t (hreach hexec) ht
  · obtain ⟨t, hexec, ht⟩ := ThreadedServer.startsInVain_again _ (fun msg : Bytes => msg)
    exact h t (hreach hexec) ht
  · obtain ⟨t, hexec, ht⟩ := ThreadedServer.startsInVain_destroy _ (fun msg : Bytes => msg)
    exact h t (hreach hexec) ht

end RasPiZeroCam
