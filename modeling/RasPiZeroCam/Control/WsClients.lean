import RasPiZeroCam.Text
import RasPiZeroCam.Transition.System

/-!
The clients of `WsServer`: each connection has a handler of its own, which puts a pointer to its
`WebSocket` into `clients_` and takes it out before it returns; `broadcast` goes through the set.

* `WsClients`: the members, the handlers with their connections, and the calls of `broadcast`.
* `WsClients.handlerStep`, `WsClients.broadcastStep`: their statements.  A pointer whose handler has
  returned points to nothing, and its use leads to `BroadcastPc.dangling`.
* `Tracked`: the pointers in `clients_` are those of the registered handlers, and the counts are
  right; the steps of the handlers keep it.
-/

namespace RasPiZeroCam

open Transition System

/-- What `ws.read(msg)` returns. -/
inductive WsRead where
  | text (msg : Bytes)
  | binary
  | fail
  deriving DecidableEq

/-- Where the handler of a connection is. -/
inductive WsHandlerPc where
  | absent                  -- it has not been called
  | count                   -- `++client_count_`
  | lockAdd                 -- `add_client(&ws)` takes `clients_mutex_`
  | insert                  -- `clients_.insert(ws)`
  | unlockAdd
  | read                    -- `ws.read(msg)`
  | message (msg : Bytes)   -- `on_message(msg)`, and the reply
  | lockRemove              -- `remove_client(&ws)` takes `clients_mutex_`
  | erase                   -- `clients_.erase(ws)`
  | unlockRemove
  | uncount                 -- `--client_count_`
  | returned                -- and the `WebSocket` is gone
  deriving DecidableEq

/-- Where a call of `broadcast(json)` is: `n` is its number, `todo` what its loop has to reach. -/
inductive BroadcastPc where
  | idle
  | lock (json : Bytes)
  | loop (n : ℕ) (json : Bytes) (todo : List ℕ)            -- `for (auto* ws : clients_)`
  | test (n : ℕ) (json : Bytes) (ws : ℕ) (todo : List ℕ)   -- `ws && ws->is_open()`
  | send (n : ℕ) (json : Bytes) (ws : ℕ) (todo : List ℕ)   -- `ws->send(json)`
  | unlock (n : ℕ)
  | dangling
  deriving DecidableEq

/-- A text that was sent to a connection, by a broadcast or as a reply. -/
structure WsDelivery (ι : Type*) where
  client : ι
  text : Bytes
  broadcast : Option ℕ

/-- The clients of a `WsServer`: the connections `ι`, and the threads `β` that call `broadcast`. -/
structure WsClients (ι β : Type*) where
  clientCount : ℤ
  clients : List ℕ          -- `clients_`
  mutex : Option (ι ⊕ β)    -- who has `clients_mutex_`
  handler : ι → WsHandlerPc
  address : ι → ℕ           -- of the `WebSocket` of a handler
  isOpen : ι → Bool
  broadcast : β → BroadcastPc
  -- the books
  called : List ι           -- the handlers that have been called
  broadcasts : ℕ            -- the broadcasts that have taken the mutex
  deliveries : List (WsDelivery ι)

namespace WsHandlerPc

/-- The handler has been called, and has not returned. -/
def alive : WsHandlerPc → Bool
  | absent => false
  | returned => false
  | _ => true

/-- Its pointer is in `clients_`. -/
def registered : WsHandlerPc → Bool
  | unlockAdd => true
  | read => true
  | message _ => true
  | lockRemove => true
  | erase => true
  | _ => false

/-- It is counted in `client_count_`. -/
def counted : WsHandlerPc → Bool
  | absent => false
  | count => false
  | returned => false
  | _ => true

/-- It has `clients_mutex_`. -/
def locks : WsHandlerPc → Bool
  | insert => true
  | unlockAdd => true
  | erase => true
  | unlockRemove => true
  | _ => false

/-- It is neither entering nor leaving. -/
def settled : WsHandlerPc → Bool
  | absent => true
  | read => true
  | message _ => true
  | returned => true
  | _ => false

end WsHandlerPc

namespace BroadcastPc

/-- The broadcast has `clients_mutex_`; its number, and the pointers it has not done with. -/
def pending : BroadcastPc → Option (ℕ × List ℕ)
  | loop n _ todo => some (n, todo)
  | test n _ ws todo => some (n, ws :: todo)
  | send n _ ws todo => some (n, ws :: todo)
  | unlock n => some (n, [])
  | _ => none

/-- The pointer that the next step uses. -/
def uses : BroadcastPc → Option ℕ
  | test _ _ ws _ => some ws
  | send _ _ ws _ => some ws
  | _ => none

end BroadcastPc

namespace WsClients

variable {ι β : Type*} [DecidableEq ι] [DecidableEq β]

/-- A connection is accepted, its `WebSocket` being at an address, a handler takes a step, a
connection is closed, `broadcast` is called, or takes a step; the set may be gone through in any
order. -/
inductive Step (ι β : Type*) where
  | connect (c : ι) (ws : ℕ)
  | handler (c : ι) (result : WsRead)
  | close (c : ι)
  | call (b : β) (json : Bytes)
  | broadcast (b : β) (ws : ℕ)

/-- `WsServer(port)`. -/
def new (ι β : Type*) : WsClients ι β where
  clientCount := 0
  clients := []
  mutex := none
  handler _ := .absent
  address _ := 0
  isOpen _ := false
  broadcast _ := .idle
  called := []
  broadcasts := 0
  deliveries := []

/-- The handler whose `WebSocket` a pointer points to. -/
def owner? (s : WsClients ι β) (ws : ℕ) : Option ι :=
  s.called.find? fun c => (s.handler c).alive && s.address c = ws

/-- How often a broadcast has sent to a connection. -/
def sentTo (s : WsClients ι β) (n : ℕ) (c : ι) : ℕ :=
  s.deliveries.countP fun d => d.broadcast = some n && d.client = c

/-- How many handlers are at such a place. -/
def handlers (p : WsHandlerPc → Bool) (s : WsClients ι β) : ℕ :=
  s.called.countP fun c => p (s.handler c)

/-- The server calls the handler of a new connection; its `WebSocket` lies apart from those of the
handlers that have not returned. -/
def connect (c : ι) (ws : ℕ) (s : WsClients ι β) : Option (WsClients ι β) :=
  if s.handler c = .absent ∧ ws ≠ 0 ∧ s.owner? ws = none then
    some { s with
      called := c :: s.called
      handler := Function.update s.handler c .count
      address := Function.update s.address c ws
      isOpen := Function.update s.isOpen c true }
  else none

/-- A handler goes on. -/
def goto (c : ι) (pc : WsHandlerPc) (s : WsClients ι β) : WsClients ι β :=
  { s with handler := Function.update s.handler c pc }

/-- `ws.send(text)`. -/
def deliver (d : WsDelivery ι) (s : WsClients ι β) : WsClients ι β :=
  { s with deliveries := s.deliveries ++ [d] }

/-- `clients_mutex_` is taken by a handler, which waits while somebody has it. -/
def lockFor (c : ι) (pc : WsHandlerPc) (s : WsClients ι β) : Option (WsClients ι β) :=
  match s.mutex with
  | none => some ({ s with mutex := some (.inl c) }.goto c pc)
  | some _ => none

/-- A step of the handler, for a server started with `on_message`. -/
def handlerStep (onMessage : Option (Bytes → Bytes)) (c : ι) (result : WsRead)
    (s : WsClients ι β) : Option (WsClients ι β) :=
  match s.handler c with
  | .absent => none
  | .count => some ({ s with clientCount := s.clientCount + 1 }.goto c .lockAdd)
  | .lockAdd => s.lockFor c .insert
  | .insert => some ({ s with clients := s.clients.insert (s.address c) }.goto c .unlockAdd)
  | .unlockAdd => some ({ s with mutex := none }.goto c .read)
  | .read =>
      match result with
      | .fail => some (s.goto c .lockRemove)
      | .text msg => some (s.goto c (.message msg))
      | .binary => some (s.goto c .read)
  | .message msg =>
      match onMessage with
      | none => some (s.goto c .read)
      | some f =>
          if f msg = [] then some (s.goto c .read)
          else
            some ((s.deliver ⟨c, f msg, none⟩).goto c .read)
  | .lockRemove => s.lockFor c .erase
  | .erase => some ({ s with clients := s.clients.erase (s.address c) }.goto c .unlockRemove)
  | .unlockRemove => some ({ s with mutex := none }.goto c .uncount)
  | .uncount => some ({ s with clientCount := s.clientCount - 1 }.goto c .returned)
  | .returned => none

/-- A broadcast goes on. -/
def advance (b : β) (pc : BroadcastPc) (s : WsClients ι β) : WsClients ι β :=
  { s with broadcast := Function.update s.broadcast b pc }

/-- A step of `broadcast`; `next` is the element that the loop takes. -/
def broadcastStep (b : β) (next : ℕ) (s : WsClients ι β) : Option (WsClients ι β) :=
  match s.broadcast b with
  | .idle => none
  | .lock json =>
      match s.mutex with
      | none =>
          some ({ s with
            mutex := some (.inr b)
            broadcasts := s.broadcasts + 1 }.advance b (.loop s.broadcasts json s.clients))
      | some _ => none
  | .loop n json todo =>
      if todo = [] then some (s.advance b (.unlock n))
      else if next ∈ todo then some (s.advance b (.test n json next (todo.erase next)))
      else none
  | .test n json ws todo =>
      if ws = 0 then some (s.advance b (.loop n json todo))
      else
        match s.owner? ws with
        | none => some (s.advance b .dangling)
        | some c =>
            if s.isOpen c then some (s.advance b (.send n json ws todo))
            else some (s.advance b (.loop n json todo))
  | .send n json ws todo =>
      match s.owner? ws with
      | none => some (s.advance b .dangling)
      | some c =>
          some ((s.deliver ⟨c, json, some n⟩).advance b (.loop n json todo))
  | .unlock _ => some ({ s with mutex := none }.advance b .idle)
  | .dangling => none

end WsClients

open WsClients

/-- The connections `ι` of a `WsServer` started with `on_message`, and the threads `β` that call its
`broadcast`. -/
def wsClients (ι β : Type*) [DecidableEq ι] [DecidableEq β] (onMessage : Option (Bytes → Bytes)) :
    System (WsClients ι β) (WsClients.Step ι β) where
  init s := s = .new ι β
  step s
    | .connect c ws => s.connect c ws
    | .handler c result => s.handlerStep onMessage c result
    | .close c => some { s with isOpen := Function.update s.isOpen c false }
    | .call b json =>
        if s.broadcast b = .idle then some (s.advance b (.lock json)) else none
    | .broadcast b next => s.broadcastStep b next

namespace WsHandlerPc

/-- What the rest of the server can tell about a handler. -/
def kind (p : WsHandlerPc) : Bool × Bool × Bool × Bool :=
  (p.alive, p.counted, p.registered, p.locks)

/-- The two critical sections of a handler: before, inside and after their statement, and whether it
ends registered. -/
inductive Section : WsHandlerPc → WsHandlerPc → WsHandlerPc → WsHandlerPc → Bool → Prop
  | add : Section lockAdd insert unlockAdd read true
  | remove : Section lockRemove erase unlockRemove uncount false

end WsHandlerPc

namespace WsClients

variable {ι β : Type*} {onMessage : Option (Bytes → Bytes)} {s s' : WsClients ι β} {c d : ι} {b : β}
  {n : ℕ}

/-! ### What a step can do -/

section Steps

variable [DecidableEq ι]

/-- The steps of a handler: it exchanges messages, counts or uncounts itself, takes the mutex, adds
or removes its pointer, or gives the mutex back. -/
lemma handlerStep_cases {result : WsRead} (h : s.handlerStep onMessage c result = some s') :
    (∃ pc ds, pc.kind = (s.handler c).kind ∧ (s.handler c).alive = true ∧
      (∀ d ∈ ds, WsDelivery.broadcast d = none) ∧
      s' = { s with deliveries := s.deliveries ++ ds }.goto c pc) ∨
    (s.handler c = .count ∧ s' = { s with clientCount := s.clientCount + 1 }.goto c .lockAdd) ∨
    (s.handler c = .uncount ∧ s' = { s with clientCount := s.clientCount - 1 }.goto c .returned) ∨
    ∃ before inside after out r, WsHandlerPc.Section before inside after out r ∧
      ((s.handler c = before ∧ s.mutex = none ∧
          s' = { s with mutex := some (.inl c) }.goto c inside) ∨
        (s.handler c = inside ∧
          s' = { s with clients := if r then s.clients.insert (s.address c)
            else s.clients.erase (s.address c) }.goto c after) ∨
        (s.handler c = after ∧ s' = { s with mutex := none }.goto c out)) := by
  have hlock : ∀ {pc : WsHandlerPc}, s.lockFor c pc = some s' → s.mutex = none ∧
      s' = { s with mutex := some (.inl c) }.goto c pc := by
    intro pc hlock
    rw [lockFor] at hlock
    split at hlock
    · next hfree => exact ⟨hfree, (Option.some.inj hlock).symm⟩
    · cases hlock
  have hquiet : ∀ {pc : WsHandlerPc}, pc.kind = (s.handler c).kind → (s.handler c).alive = true →
      ∃ q ds, WsHandlerPc.kind q = (s.handler c).kind ∧ (s.handler c).alive = true ∧
        (∀ d ∈ ds, WsDelivery.broadcast d = none) ∧
        s.goto c pc = { s with deliveries := s.deliveries ++ ds }.goto c q :=
    fun {pc} hkind halive => ⟨pc, [], hkind, halive, by simp, by simp⟩
  cases hpc : s.handler c with
  | absent => simp [handlerStep, hpc] at h
  | returned => simp [handlerStep, hpc] at h
  | count =>
      simp only [handlerStep, hpc, Option.some.injEq] at h
      exact Or.inr (Or.inl ⟨rfl, h.symm⟩)
  | uncount =>
      simp only [handlerStep, hpc, Option.some.injEq] at h
      exact Or.inr (Or.inr (Or.inl ⟨rfl, h.symm⟩))
  | lockAdd =>
      simp only [handlerStep, hpc] at h
      exact Or.inr (Or.inr (Or.inr ⟨_, _, _, _, _, .add, Or.inl ⟨rfl, hlock h⟩⟩))
  | insert =>
      simp only [handlerStep, hpc, Option.some.injEq] at h
      exact Or.inr (Or.inr (Or.inr ⟨_, _, _, _, _, .add, Or.inr (Or.inl ⟨rfl, h.symm⟩)⟩))
  | unlockAdd =>
      simp only [handlerStep, hpc, Option.some.injEq] at h
      exact Or.inr (Or.inr (Or.inr ⟨_, _, _, _, _, .add, Or.inr (Or.inr ⟨rfl, h.symm⟩)⟩))
  | lockRemove =>
      simp only [handlerStep, hpc] at h
      exact Or.inr (Or.inr (Or.inr ⟨_, _, _, _, _, .remove, Or.inl ⟨rfl, hlock h⟩⟩))
  | erase =>
      simp only [handlerStep, hpc, Option.some.injEq] at h
      exact Or.inr (Or.inr (Or.inr ⟨_, _, _, _, _, .remove, Or.inr (Or.inl ⟨rfl, h.symm⟩)⟩))
  | unlockRemove =>
      simp only [handlerStep, hpc, Option.some.injEq] at h
      exact Or.inr (Or.inr (Or.inr ⟨_, _, _, _, _, .remove, Or.inr (Or.inr ⟨rfl, h.symm⟩)⟩))
  | read =>
      left
      rw [← hpc]
      cases result with
      | fail =>
          simp only [handlerStep, hpc, Option.some.injEq] at h
          exact h ▸ hquiet (by rw [hpc]; rfl) (by rw [hpc]; rfl)
      | text msg =>
          simp only [handlerStep, hpc, Option.some.injEq] at h
          exact h ▸ hquiet (by rw [hpc]; rfl) (by rw [hpc]; rfl)
      | binary =>
          simp only [handlerStep, hpc, Option.some.injEq] at h
          exact h ▸ hquiet (by rw [hpc]) (by rw [hpc]; rfl)
  | message msg =>
      left
      rw [← hpc]
      simp only [handlerStep, hpc] at h
      split at h
      · exact Option.some.inj h ▸ hquiet (by rw [hpc]; rfl) (by rw [hpc]; rfl)
      · split_ifs at h
        · exact Option.some.inj h ▸ hquiet (by rw [hpc]; rfl) (by rw [hpc]; rfl)
        · next f _ =>
          exact ⟨.read, [⟨c, f msg, none⟩], by rw [hpc]; rfl, by rw [hpc]; rfl, by simp,
            (Option.some.inj h).symm⟩

end Steps

/-- A broadcast takes the mutex, goes on in its loop, sends, or gives the mutex back; or it finds
that a pointer dangles. -/
lemma broadcastStep_cases [DecidableEq β] {next : ℕ} (h : s.broadcastStep b next = some s') :
    (∃ json, s.broadcast b = .lock json ∧ s.mutex = none ∧ s' = { s with
      mutex := some (.inr b)
      broadcasts := s.broadcasts + 1 }.advance b (.loop s.broadcasts json s.clients)) ∨
    (∃ n todo pc todo', (s.broadcast b).pending = some (n, todo) ∧ pc.pending = some (n, todo') ∧
      (todo'.Perm todo ∨ ∃ ws, todo = ws :: todo' ∧
        (ws = 0 ∨ ∃ c, s.owner? ws = some c ∧ s.isOpen c = false)) ∧ s' = s.advance b pc) ∨
    (∃ n json ws todo c, s.broadcast b = .send n json ws todo ∧ s.owner? ws = some c ∧
      s' = (s.deliver ⟨c, json, some n⟩).advance b (.loop n json todo)) ∨
    (∃ n, s.broadcast b = .unlock n ∧ s' = { s with mutex := none }.advance b .idle) ∨
    ∃ ws, (s.broadcast b).uses = some ws ∧ s.owner? ws = none ∧ s' = s.advance b .dangling := by
  cases hpc : s.broadcast b with
  | idle => simp [broadcastStep, hpc] at h
  | dangling => simp [broadcastStep, hpc] at h
  | lock json =>
      simp only [broadcastStep, hpc] at h
      split at h
      · next hfree => exact Or.inl ⟨json, rfl, hfree, (Option.some.inj h).symm⟩
      · cases h
  | loop n json todo =>
      right
      left
      simp only [broadcastStep, hpc] at h
      split_ifs at h with hnil hmem
      · cases h
        exact ⟨n, todo, .unlock n, [], rfl, rfl, Or.inl (hnil ▸ .refl _), rfl⟩
      · cases h
        exact ⟨n, todo, _, _, rfl, rfl, Or.inl (List.perm_cons_erase hmem).symm, rfl⟩
  | test n json ws todo =>
      simp only [broadcastStep, hpc] at h
      split_ifs at h with hnull
      · cases h
        exact Or.inr (Or.inl ⟨n, ws :: todo, _, todo, rfl, rfl, Or.inr ⟨ws, rfl, Or.inl hnull⟩,
          rfl⟩)
      · split at h
        · next howner =>
          exact Or.inr (Or.inr (Or.inr (Or.inr ⟨ws, rfl, howner, (Option.some.inj h).symm⟩)))
        · next c howner =>
          split_ifs at h with hopen
          · cases h
            exact Or.inr (Or.inl ⟨n, ws :: todo, _, ws :: todo, rfl, rfl, Or.inl (.refl _), rfl⟩)
          · cases h
            exact Or.inr (Or.inl ⟨n, ws :: todo, _, todo, rfl, rfl,
              Or.inr ⟨ws, rfl, Or.inr ⟨c, howner, by simpa using hopen⟩⟩, rfl⟩)
  | send n json ws todo =>
      simp only [broadcastStep, hpc] at h
      split at h
      · next howner =>
        exact Or.inr (Or.inr (Or.inr (Or.inr ⟨ws, rfl, howner, (Option.some.inj h).symm⟩)))
      · next c howner =>
        exact Or.inr (Or.inr (Or.inl ⟨n, json, ws, todo, c, rfl, howner,
          (Option.some.inj h).symm⟩))
  | unlock n =>
      simp only [broadcastStep, hpc] at h
      exact Or.inr (Or.inr (Or.inr (Or.inl ⟨n, rfl, (Option.some.inj h).symm⟩)))

/-! ### Handlers and their pointers -/

/-- Every pointer in `clients_` is that of a registered handler, and the counts are right. -/
structure Tracked (s : WsClients ι β) : Prop where
  called : ∀ c, c ∈ s.called ↔ s.handler c ≠ .absent
  nodup : s.called.Nodup
  apart : ∀ c d, (s.handler c).alive = true → (s.handler d).alive = true →
    s.address c = s.address d → c = d
  nonNull : ∀ c, (s.handler c).alive = true → s.address c ≠ 0
  clients : ∀ ws, ws ∈ s.clients ↔ ∃ c, (s.handler c).registered = true ∧ s.address c = ws
  set : s.clients.Nodup
  count : s.clientCount = s.handlers (·.counted)
  size : s.clients.length = s.handlers (·.registered)

lemma alive_of_registered {p : WsHandlerPc} (h : p.registered = true) : p.alive = true := by
  cases p <;> first | rfl | cases h

lemma ne_absent_of_alive {p : WsHandlerPc} (h : p.alive = true) : p ≠ .absent := by
  rintro rfl
  cases h

/-- A pointer leads to the handler it belongs to. -/
lemma owner?_eq_some {ws : ℕ} (h : s.owner? ws = some c) :
    (s.handler c).alive = true ∧ s.address c = ws := by
  simpa using List.find?_some h

lemma Tracked.owner?_eq_none (hs : s.Tracked) {ws : ℕ} (h : s.owner? ws = none)
    (halive : (s.handler c).alive = true) : s.address c ≠ ws := by
  have hmem := (hs.called c).mpr (ne_absent_of_alive halive)
  have hnone := List.find?_eq_none.mp h c hmem
  simpa [halive] using hnone

/-- The pointers in `clients_` can be used. -/
lemma Tracked.owner?_isSome (hs : s.Tracked) {ws : ℕ} (h : ws ∈ s.clients) :
    s.owner? ws ≠ none := by
  obtain ⟨c, hreg, haddress⟩ := (hs.clients ws).mp h
  exact fun hnone => hs.owner?_eq_none hnone (alive_of_registered hreg) haddress

/-- It is about the handlers, `clients_` and `client_count_`. -/
lemma Tracked.congr (hs : s.Tracked)
    (hsame : (s'.handler, s'.called, s'.address, s'.clients, s'.clientCount) =
      (s.handler, s.called, s.address, s.clients, s.clientCount)) : s'.Tracked := by
  simp only [Prod.mk.injEq] at hsame
  obtain ⟨hhandler, hcalled, haddress, hclients, hcount⟩ := hsame
  constructor
  case called => rw [hhandler, hcalled]; exact hs.called
  case nodup => exact hcalled ▸ hs.nodup
  case apart => rw [hhandler, haddress]; exact hs.apart
  case nonNull => rw [hhandler, haddress]; exact hs.nonNull
  case clients => rw [hhandler, haddress, hclients]; exact hs.clients
  case set => exact hclients ▸ hs.set
  case count => rw [hcount, hs.count, handlers, handlers, hhandler, hcalled]
  case size => rw [hclients, hs.size, handlers, handlers, hhandler, hcalled]

section Handlers

variable [DecidableEq ι]

@[simp] lemma goto_handler_self (s : WsClients ι β) (c : ι) (pc : WsHandlerPc) :
    (s.goto c pc).handler c = pc := Function.update_self ..

lemma goto_handler_ne (s : WsClients ι β) (pc : WsHandlerPc) (h : d ≠ c) :
    (s.goto c pc).handler d = s.handler d := Function.update_of_ne h ..

/-- What holds of the new place, and of all others before, holds of all. -/
lemma goto_forall {P : ι → WsHandlerPc → Prop} {pc : WsHandlerPc} (hc : P c pc)
    (hs : ∀ d, d ≠ c → P d (s.handler d)) : ∀ d, P d ((s.goto c pc).handler d) := by
  intro d
  by_cases hd : d = c
  · subst hd
    rwa [goto_handler_self]
  · rw [goto_handler_ne s pc hd]
    exact hs d hd

/-- A handler that moves on has been alive. -/
lemma alive_goto (pc : WsHandlerPc) (halive : (s.handler c).alive = true) :
    ∀ x, ((s.goto c pc).handler x).alive = true → (s.handler x).alive = true :=
  goto_forall (P := fun x q => q.alive = true → (s.handler x).alive = true)
    (fun _ => halive) fun _ _ => id

/-- And has been called. -/
lemma Tracked.called_goto (hs : s.Tracked) {pc : WsHandlerPc}
    (halive : (s.handler c).alive = true) (hpc : pc ≠ .absent) :
    ∀ x, x ∈ s.called ↔ (s.goto c pc).handler x ≠ .absent :=
  goto_forall (P := fun x q => x ∈ s.called ↔ q ≠ .absent)
    (iff_of_true ((hs.called c).mpr (ne_absent_of_alive halive)) hpc) fun x _ => hs.called x

/-- One handler more or less is at such a place. -/
lemma handlers_goto (hnodup : s.called.Nodup) (hmem : c ∈ s.called) (p : WsHandlerPc → Bool)
    (pc : WsHandlerPc) : (s.goto c pc).handlers p + (if p (s.handler c) then 1 else 0) =
      s.handlers p + if p pc then 1 else 0 := by
  have hperm := List.perm_cons_erase hmem
  have hrest : (s.called.erase c).countP (fun d => p ((s.goto c pc).handler d)) =
      (s.called.erase c).countP fun d => p (s.handler d) := by
    refine List.countP_congr fun d hd => ?_
    have hne : d ≠ c := by
      rintro rfl
      exact hnodup.not_mem_erase hd
    rw [goto_handler_ne s pc hne]
  have hafter : (s.goto c pc).handlers p = (s.called.erase c).countP
      (fun d => p (s.handler d)) + if p pc then 1 else 0 := by
    rw [handlers, show (s.goto c pc).called = s.called from rfl, hperm.countP_eq,
      List.countP_cons, hrest, goto_handler_self]
  have hbefore : s.handlers p = (s.called.erase c).countP (fun d => p (s.handler d)) +
      if p (s.handler c) then 1 else 0 := by
    rw [handlers, hperm.countP_eq, List.countP_cons]
  omega

/-- None, if the place is alike. -/
lemma handlers_goto_same (hnodup : s.called.Nodup) (hmem : c ∈ s.called)
    (p : WsHandlerPc → Bool) (pc : WsHandlerPc) (h : p pc = p (s.handler c)) :
    (s.goto c pc).handlers p = s.handlers p := by
  have hmove := handlers_goto hnodup hmem p pc
  rw [h] at hmove
  omega

lemma handlers_goto_enter (hnodup : s.called.Nodup) (hmem : c ∈ s.called)
    (p : WsHandlerPc → Bool) (pc : WsHandlerPc) (hout : p (s.handler c) = false)
    (hin : p pc = true) : (s.goto c pc).handlers p = s.handlers p + 1 := by
  simpa [hout, hin] using handlers_goto hnodup hmem p pc

lemma handlers_goto_leave (hnodup : s.called.Nodup) (hmem : c ∈ s.called)
    (p : WsHandlerPc → Bool) (pc : WsHandlerPc) (hin : p (s.handler c) = true)
    (hout : p pc = false) : (s.goto c pc).handlers p + 1 = s.handlers p := by
  simpa [hout, hin] using handlers_goto hnodup hmem p pc

/-- A handler that stays registered, or unregistered, moves on. -/
lemma Tracked.goto (hs : s.Tracked) (pc : WsHandlerPc) (halive : (s.handler c).alive = true)
    (hpc : pc ≠ .absent) (hreg : pc.registered = (s.handler c).registered)
    (hcount : s'.clientCount = (s.goto c pc).handlers (·.counted))
    (a : s'.handler = (s.goto c pc).handler) (b : s'.called = s.called)
    (d : s'.address = s.address) (e : s'.clients = s.clients) :
    s'.Tracked := by
  have hmem : c ∈ s.called := (hs.called c).mpr (ne_absent_of_alive halive)
  have hback : ∀ x, (s'.handler x).alive = true → (s.handler x).alive = true := by
    rw [a]
    exact alive_goto pc halive
  have hsame : ∀ x, (s'.handler x).registered = (s.handler x).registered := by
    rw [a]
    exact goto_forall (P := fun x q => q.registered = (s.handler x).registered) hreg
      fun _ _ => rfl
  refine ⟨fun x => ?_, b ▸ hs.nodup, fun x y hx hy => ?_, fun x hx => ?_, fun ws => ?_, e ▸ hs.set,
    ?_, ?_⟩
  · rw [b, a]
    exact hs.called_goto halive hpc x
  · rw [d]
    exact hs.apart x y (hback x hx) (hback y hy)
  · rw [d]
    exact hs.nonNull x (hback x hx)
  · rw [e, d, hs.clients]
    simp only [hsame]
  · rw [hcount]
    simp only [handlers, a, b]
    rfl
  · rw [e, hs.size, handlers, handlers, b]
    exact List.countP_congr fun x _ => by rw [hsame]

/-- `clients_.insert(ws)`: the pointer was not there. -/
lemma Tracked.insert (hs : s.Tracked) (hpc : s.handler c = .insert) :
    ({ s with clients := s.clients.insert (s.address c) }.goto c .unlockAdd).Tracked := by
  have halive : (s.handler c).alive = true := by rw [hpc]; rfl
  have hmem : c ∈ s.called := (hs.called c).mpr (ne_absent_of_alive halive)
  have hnew : s.address c ∉ s.clients := by
    intro hin
    obtain ⟨d, hreg, haddress⟩ := (hs.clients _).mp hin
    obtain rfl := hs.apart d c (alive_of_registered hreg) halive haddress
    rw [hpc] at hreg
    cases hreg
  have hback := alive_goto .unlockAdd halive
  have hreg : ∀ x, ((s.goto c .unlockAdd).handler x).registered = true ↔
      x = c ∨ (s.handler x).registered = true := by
    refine goto_forall (P := fun x q => q.registered = true ↔
      x = c ∨ (s.handler x).registered = true) (by simp [WsHandlerPc.registered]) fun x hx => ?_
    simp [hx]
  refine ⟨hs.called_goto halive (by simp), hs.nodup,
    fun x y hx hy => hs.apart x y (hback x hx) (hback y hy),
    fun x hx => hs.nonNull x (hback x hx), fun ws => ?_, hs.set.insert, ?_, ?_⟩
  · show ws ∈ s.clients.insert (s.address c) ↔
      ∃ x, ((s.goto c .unlockAdd).handler x).registered = true ∧ s.address x = ws
    simp only [List.mem_insert_iff, hs.clients, hreg]
    constructor
    · rintro (rfl | ⟨x, hx, rfl⟩)
      · exact ⟨c, Or.inl rfl, rfl⟩
      · exact ⟨x, Or.inr hx, rfl⟩
    · rintro ⟨x, rfl | hx, rfl⟩
      · exact Or.inl rfl
      · exact Or.inr ⟨x, hx, rfl⟩
  · have hsame := handlers_goto_same hs.nodup hmem (·.counted) .unlockAdd
      (by rw [hpc]; rfl)
    exact hs.count.trans (congrArg _ hsame.symm)
  · have hmove := handlers_goto_enter hs.nodup hmem (·.registered) .unlockAdd
      (by rw [hpc]; rfl) rfl
    have hlength : (s.clients.insert (s.address c)).length = s.clients.length + 1 :=
      List.length_insert_of_not_mem hnew
    have hsize := hs.size
    show (s.clients.insert (s.address c)).length = (s.goto c .unlockAdd).handlers (·.registered)
    omega

/-- `clients_.erase(ws)`: the pointer was there, once. -/
lemma Tracked.erase (hs : s.Tracked) (hpc : s.handler c = .erase) :
    ({ s with clients := s.clients.erase (s.address c) }.goto c .unlockRemove).Tracked := by
  have halive : (s.handler c).alive = true := by rw [hpc]; rfl
  have hmem : c ∈ s.called := (hs.called c).mpr (ne_absent_of_alive halive)
  have hin : s.address c ∈ s.clients := (hs.clients _).mpr ⟨c, by rw [hpc]; rfl, rfl⟩
  have hback := alive_goto .unlockRemove halive
  have hreg : ∀ x, ((s.goto c .unlockRemove).handler x).registered = true ↔
      x ≠ c ∧ (s.handler x).registered = true := by
    refine goto_forall (P := fun x q => q.registered = true ↔
      x ≠ c ∧ (s.handler x).registered = true) (by simp [WsHandlerPc.registered]) fun x hx => ?_
    simp [hx]
  refine ⟨hs.called_goto halive (by simp), hs.nodup,
    fun x y hx hy => hs.apart x y (hback x hx) (hback y hy),
    fun x hx => hs.nonNull x (hback x hx), fun ws => ?_, hs.set.erase _, ?_, ?_⟩
  · show ws ∈ s.clients.erase (s.address c) ↔
      ∃ x, ((s.goto c .unlockRemove).handler x).registered = true ∧ s.address x = ws
    simp only [hs.set.mem_erase_iff, hs.clients, hreg]
    constructor
    · rintro ⟨hne, x, hx, rfl⟩
      exact ⟨x, ⟨fun hxc => hne (congrArg s.address hxc), hx⟩, rfl⟩
    · rintro ⟨x, ⟨hxc, hx⟩, rfl⟩
      exact ⟨fun heq => hxc (hs.apart x c (alive_of_registered hx) halive heq), x, hx, rfl⟩
  · have hsame := handlers_goto_same hs.nodup hmem (·.counted) .unlockRemove
      (by rw [hpc]; rfl)
    exact hs.count.trans (congrArg _ hsame.symm)
  · have hmove := handlers_goto_leave hs.nodup hmem (·.registered) .unlockRemove
      (by rw [hpc]; rfl) rfl
    have hlength := List.length_erase_of_mem hin
    have hpos := List.length_pos_of_mem hin
    have hsize := hs.size
    show (s.clients.erase (s.address c)).length = (s.goto c .unlockRemove).handlers (·.registered)
    omega

/-- A new handler is not registered, nor counted. -/
lemma Tracked.connect (hs : s.Tracked) {ws : ℕ} (h : s.connect c ws = some s') : s'.Tracked := by
  rw [WsClients.connect] at h
  split_ifs at h with hnew
  cases h
  obtain ⟨habsent, hnull, howner⟩ := hnew
  have hfresh : c ∉ s.called := fun hmem => (hs.called c).mp hmem habsent
  have hother : ∀ x, x ≠ c → Function.update s.handler c .count x = s.handler x :=
    fun x hx => Function.update_of_ne hx ..
  have haddress : ∀ x, x ≠ c → Function.update s.address c ws x = s.address x :=
    fun x hx => Function.update_of_ne hx ..
  have hcount : ∀ p : WsHandlerPc → Bool, p .count = false →
      (c :: s.called).countP (fun x => p (Function.update s.handler c .count x)) =
        s.handlers p := by
    intro p hp
    rw [List.countP_cons, Function.update_self, hp, handlers]
    refine (Nat.add_zero _).trans (List.countP_congr fun x hx => ?_)
    rw [hother x fun hxc => hfresh (hxc ▸ hx)]
  refine ⟨fun x => ?_, List.nodup_cons.mpr ⟨hfresh, hs.nodup⟩, fun x y hx hy heq => ?_,
    fun x hx => ?_, fun p => ?_, hs.set, ?_, ?_⟩
  · by_cases hx : x = c
    · subst hx
      simp
    · simp [hx, hs.called]
  · -- the address was free
    by_cases hxc : x = c <;> by_cases hyc : y = c
    · exact hxc.trans hyc.symm
    · subst hxc
      simp only [hother y hyc] at hy
      simp only [Function.update_self, haddress y hyc] at heq
      exact absurd heq.symm (hs.owner?_eq_none howner hy)
    · subst hyc
      simp only [hother x hxc] at hx
      simp only [Function.update_self, haddress x hxc] at heq
      exact absurd heq (hs.owner?_eq_none howner hx)
    · simp only [hother x hxc] at hx
      simp only [hother y hyc] at hy
      simp only [haddress x hxc, haddress y hyc] at heq
      exact hs.apart x y hx hy heq
  · by_cases hxc : x = c
    · subst hxc
      simpa using hnull
    · simp only [hother x hxc] at hx
      simp only [haddress x hxc]
      exact hs.nonNull x hx
  · rw [hs.clients]
    refine exists_congr fun x => ?_
    by_cases hxc : x = c
    · subst hxc
      simp [habsent, WsHandlerPc.registered]
    · simp only [hother x hxc, haddress x hxc]
  · exact hs.count.trans (congrArg _ (hcount (·.counted) rfl).symm)
  · exact hs.size.trans (hcount (·.registered) rfl).symm

/-- The steps of a handler. -/
lemma Tracked.handlerStep (hs : s.Tracked) {result : WsRead}
    (h : s.handlerStep onMessage c result = some s') : s'.Tracked := by
  have hmem : (s.handler c).alive = true → c ∈ s.called :=
    fun halive => (hs.called c).mpr (ne_absent_of_alive halive)
  -- a handler that is counted as before
  have hquiet : ∀ {pc : WsHandlerPc}, pc.alive = true → (s.handler c).alive = true →
      pc.counted = (s.handler c).counted → pc.registered = (s.handler c).registered →
      s'.clientCount = s.clientCount → s'.handler = (s.goto c pc).handler →
      s'.called = s.called → s'.address = s.address → s'.clients = s.clients → s'.Tracked := by
    intro pc hpc halive hcounted hreg a b d e f
    refine hs.goto pc halive (ne_absent_of_alive hpc) hreg ?_ b d e f
    rw [a, hs.count, handlers_goto_same hs.nodup (hmem halive) _ pc hcounted]
  obtain ⟨pc, ds, hkind, halive, -, rfl⟩ | ⟨hpc, rfl⟩ | ⟨hpc, rfl⟩ |
    ⟨_, _, _, _, _, hsection, ⟨hpc, -, rfl⟩ | ⟨hpc, rfl⟩ | ⟨hpc, rfl⟩⟩ := handlerStep_cases h
  · simp only [WsHandlerPc.kind, Prod.mk.injEq] at hkind
    exact hquiet (hkind.1.trans halive) halive hkind.2.1 hkind.2.2.1 rfl rfl rfl rfl rfl
  · have halive : (s.handler c).alive = true := by rw [hpc]; rfl
    refine hs.goto .lockAdd halive (by simp) (by rw [hpc]; rfl) ?_ rfl rfl rfl rfl
    have hmove := handlers_goto_enter hs.nodup (hmem halive) (·.counted) .lockAdd
      (by rw [hpc]; rfl) rfl
    have hcount := hs.count
    show s.clientCount + 1 = ((s.goto c .lockAdd).handlers (·.counted) : ℤ)
    omega
  · have halive : (s.handler c).alive = true := by rw [hpc]; rfl
    refine hs.goto .returned halive (by simp) (by rw [hpc]; rfl) ?_ rfl rfl rfl rfl
    have hmove := handlers_goto_leave hs.nodup (hmem halive) (·.counted) .returned
      (by rw [hpc]; rfl) rfl
    have hcount := hs.count
    show s.clientCount - 1 = ((s.goto c .returned).handlers (·.counted) : ℤ)
    omega
  · cases hsection <;>
      exact hquiet rfl (by rw [hpc]; rfl) (by rw [hpc]; rfl) (by rw [hpc]; rfl) rfl rfl rfl rfl rfl
  · cases hsection
    · exact hs.insert hpc
    · exact hs.erase hpc
  · cases hsection <;>
      exact hquiet rfl (by rw [hpc]; rfl) (by rw [hpc]; rfl) (by rw [hpc]; rfl) rfl rfl rfl rfl rfl

end Handlers

end WsClients

end RasPiZeroCam
