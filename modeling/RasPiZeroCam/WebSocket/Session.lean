import RasPiZeroCam.Control.Handlers
import RasPiZeroCam.WebSocket.Messages

/-!
A session of a client at `/ws`: its messages are read one after the other, and what `on_message`
returns for a text is sent back.

* `handlerLoop`, `session`: the loop of the handler; `handlerLoop_fuel`: its passes are enough.
* `Spoken`: what a server may write to a client; `session_spoken`: it writes nothing else, whatever
  the client sends; and where every call of `write` takes all of its bytes, in whole frames.
-/

namespace RasPiZeroCam

namespace Ws

open Codes

variable {σ τ : Type}

/-- `MessageHandler`, of a program with a state. -/
abbrev MessageHandler (τ : Type) := τ → Bytes → Except Exception (Bytes × τ)

/-- What the handler of `/ws` does with a message, before it goes on. -/
def handled (on_message : MessageHandler τ)
    (loop : τ → WebSocket σ → Except Exception τ × WebSocket σ) (app : τ) :
    ReadResult × WebSocket σ → Except Exception τ × WebSocket σ
  | (.fail, ws) => (.ok app, ws)
  | (.binary _, ws) => loop app ws
  | (.text msg, ws) =>
      match on_message app msg with
      | .error e => (.error e, ws)
      | .ok (reply, app) => loop app (if reply = [] then ws else ws.send reply)

/-- The loop of the handler, with so many passes at most.  What `on_message` throws leaves it. -/
def handlerLoop (strm : Supply UInt8 σ) (on_message : MessageHandler τ) :
    ℕ → τ → WebSocket σ → Except Exception τ × WebSocket σ
  | 0, app, ws => (.ok app, ws)
  | n + 1, app, ws =>
      handled on_message (handlerLoop strm on_message n) app (ws.read strm true)

/-- A session, on a connection that has been upgraded: a message takes bytes. -/
def session (strm : Supply UInt8 σ) (on_message : MessageHandler τ) (app : τ) (s : σ) :
    Except Exception τ × WebSocket σ :=
  handlerLoop strm on_message ((strm.left s).length + 1) app ⟨s, false, []⟩

variable {strm : Supply UInt8 σ} {is_server_ : Bool} {ws : WebSocket σ} {f : Frame} {s s' : σ}

/-! ### The passes are enough -/

namespace WebSocket

lemma finish_size {n : ℕ} {isText : Bool} {msg : Bytes}
    (h : (ws.finish strm is_server_ n isText msg).1 ≠ .fail) :
    (ws.finish strm is_server_ n isText msg).2 = ws := by
  rw [finish] at h ⊢
  split_ifs at h ⊢
  · rfl
  · exact absurd rfl h
  · rfl

lemma readMessage_size {n : ℕ} {isText : Bool} (hn : ws.size strm < n)
    (h : (ws.readMessage strm is_server_ n isText f).1 ≠ .fail) :
    (ws.readMessage strm is_server_ n isText f).2.size strm ≤ ws.size strm := by
  rw [readMessage] at h ⊢
  split_ifs at h ⊢ with hfin
  · rw [finish_size h]
  · rw [readRest_fuel hn (Nat.lt_succ_self _)] at h ⊢
    have hends : RestEnds strm (ws.size strm + 1)
        (ws.readRest strm is_server_ (ws.size strm + 1) f.payload) :=
      readRest_ends f.payload (Nat.lt_succ_self _)
    rcases hrest : ws.readRest strm is_server_ (ws.size strm + 1) f.payload with ⟨_ | msg, ws'⟩
    · rw [hrest] at h
      exact absurd rfl h
    · rw [hrest] at h hends
      dsimp only at h ⊢
      rw [finish_size h]
      exact Nat.le_of_lt_succ hends.2

/-- A message takes bytes. -/
lemma readLoop_size : ∀ {n : ℕ} {ws : WebSocket σ}, ws.size strm < n →
    (ws.readLoop strm is_server_ n).1 ≠ .fail →
    (ws.readLoop strm is_server_ n).2.size strm < ws.size strm := by
  intro n
  induction n with
  | zero => exact fun h => absurd h (Nat.not_lt_zero _)
  | succ n ih =>
      intro ws hn h
      rw [readLoop] at h ⊢
      split_ifs at h ⊢ with hclosed
      · exact absurd rfl h
      · cases hnext : ws.nextFrame strm is_server_ maxPayloadLength with
        | none =>
            rw [hnext] at h
            exact absurd rfl h
        | some r =>
            obtain ⟨f, ws'⟩ := r
            have hless := (nextFrame_spec hnext).1
            have hmore : ∀ ws'' : WebSocket σ, ws''.size strm = ws'.size strm →
                (ws''.readLoop strm is_server_ n).1 ≠ .fail →
                (ws''.readLoop strm is_server_ n).2.size strm < ws.size strm :=
              fun ws'' hsize hread => (ih (by omega) hread).trans (by omega)
            have hmessage : ∀ isText, (ws'.readMessage strm is_server_ n isText f).1 ≠ .fail →
                (ws'.readMessage strm is_server_ n isText f).2.size strm < ws.size strm :=
              fun isText hread => (readMessage_size (by omega) hread).trans_lt hless
            rw [hnext] at h
            dsimp only at h ⊢
            cases hopcode : f.opcode <;> rw [hopcode] at h <;> dsimp only at h ⊢
            case ping => exact hmore (ws'.write .pong f.payload) rfl h
            case pong => exact hmore ws' rfl h
            case text => exact hmessage true h
            case binary => exact hmessage false h
            all_goals exact absurd rfl h

lemma read_size {r : ReadResult} {ws' : WebSocket σ} (h : ws.read strm is_server_ = (r, ws'))
    (hr : r ≠ .fail) : ws'.size strm < ws.size strm := by
  have hsize : (ws.read strm is_server_).1 ≠ .fail →
      (ws.read strm is_server_).2.size strm < ws.size strm := readLoop_size (Nat.lt_succ_self _)
  rw [h] at hsize
  exact hsize hr

/-- A reply does not read. -/
lemma size_send {reply : Bytes} : (ws.send reply).size strm = ws.size strm := by
  rw [send]
  split_ifs <;> rfl

end WebSocket

/-- **There are enough passes**: more of them change nothing. -/
lemma handlerLoop_fuel {on_message : MessageHandler τ} : ∀ {n m : ℕ} {app : τ} {ws : WebSocket σ},
    ws.size strm < n → ws.size strm < m →
    handlerLoop strm on_message n app ws = handlerLoop strm on_message m app ws := by
  intro n
  induction n with
  | zero => exact fun h => absurd h (Nat.not_lt_zero _)
  | succ n ih =>
      intro m app ws hn hm
      obtain ⟨m, rfl⟩ := Nat.exists_eq_add_one_of_ne_zero (Nat.ne_zero_of_lt hm)
      rw [handlerLoop, handlerLoop]
      rcases hread : ws.read strm true with ⟨_ | msg | msg, ws'⟩
      · rfl
      · have hless := WebSocket.read_size hread (by simp)
        rw [handled, handled]
        cases on_message app msg with
        | error e => rfl
        | ok r =>
            have hsize : (if r.1 = [] then ws' else ws'.send r.1).size strm = ws'.size strm := by
              split_ifs
              · rfl
              · exact WebSocket.size_send
            exact ih (by omega) (by omega)
      · have hless := WebSocket.read_size hread (by simp)
        exact ih (by omega) (by omega)

/-! ### What a server writes -/

/-- What a server may write to a client, with texts of `replies`: behind a close frame there is
nothing, and the connection is closed. -/
structure Spoken (replies : Bytes → Prop) (ws : WebSocket σ) : Prop where
  frames : ∀ f ∈ ws.written, f.fin = true ∧
    ((f.opcode = .pong ∨ f.opcode = .close) ∧ f.payload.length ≤ 125 ∨
      f.opcode = .text ∧ replies f.payload)
  last : ∀ f ∈ ws.written.dropLast, f.opcode ≠ .close
  closed : ∀ f ∈ ws.written, f.opcode = .close → ws.closed_ = true

namespace Spoken

variable {replies : Bytes → Prop}

/-- At the start. -/
lemma start (s : σ) : Spoken replies (⟨s, false, []⟩ : WebSocket σ) where
  frames := List.forall_mem_nil _
  last := List.forall_mem_nil _
  closed := List.forall_mem_nil _

/-- As long as the connection is open, there is no close frame. -/
lemma no_close (h : Spoken replies ws) (hopen : ws.closed_ = false) :
    ∀ f ∈ ws.written, f.opcode ≠ .close := by
  intro f hf hclose
  cases hopen.symm.trans (h.closed f hf hclose)

/-- A pong or a text. -/
lemma write (h : Spoken replies ws) (hopen : ws.closed_ = false) {opcode : Opcode} {payload : Bytes}
    (hframe : (opcode = .pong ∧ payload.length ≤ 125) ∨ (opcode = .text ∧ replies payload)) :
    Spoken replies (ws.write opcode payload) where
  frames := by
    refine List.forall_mem_append.mpr ⟨h.frames, List.forall_mem_singleton.mpr ⟨rfl, ?_⟩⟩
    exact hframe.imp (fun hpong => ⟨Or.inl hpong.1, hpong.2⟩) id
  last := by
    rw [WebSocket.write, List.dropLast_concat]
    exact h.no_close hopen
  closed := by
    refine List.forall_mem_append.mpr ⟨h.closed, List.forall_mem_singleton.mpr fun hclose => ?_⟩
    rcases hframe with ⟨rfl, -⟩ | ⟨rfl, -⟩ <;> cases hclose

/-- A close frame, after which the connection is closed. -/
lemma writeClose (h : Spoken replies ws) (hopen : ws.closed_ = false) {payload : Bytes}
    (hshort : payload.length ≤ 125) : Spoken replies (ws.shut.write .close payload) where
  frames := List.forall_mem_append.mpr ⟨h.frames,
    List.forall_mem_singleton.mpr ⟨rfl, Or.inl ⟨Or.inr rfl, hshort⟩⟩⟩
  last := by
    rw [WebSocket.write, List.dropLast_concat]
    exact h.no_close hopen
  closed := fun _ _ _ => rfl

/-- A step of a read keeps it. -/
lemma step (h : Spoken replies ws) {ws' : WebSocket σ}
    (hstep : WebSocket.Step strm is_server_ ws ws') : Spoken replies ws' := by
  cases hstep with
  | take _ _ => exact ⟨h.frames, h.last, h.closed⟩
  | pong payload hopen hshort => exact h.write hopen (Or.inl ⟨rfl, hshort⟩)
  | shut => exact ⟨h.frames, h.last, fun _ _ _ => rfl⟩
  | close payload hopen hshort => exact h.writeClose hopen hshort

lemma steps (h : Spoken replies ws) {ws' : WebSocket σ}
    (hsteps : WebSocket.Steps strm is_server_ ws ws') : Spoken replies ws' := by
  induction hsteps with
  | refl => exact h
  | tail _ hstep ih => exact ih.step hstep

end Spoken

/-- A handler that replies with texts of `replies` writes nothing else. -/
lemma spoken_handlerLoop {replies : Bytes → Prop} {on_message : MessageHandler τ}
    (hreplies : ∀ app msg reply app', on_message app msg = .ok (reply, app') → replies reply) :
    ∀ {n : ℕ} {app : τ} {ws : WebSocket σ}, Spoken replies ws →
      Spoken replies (handlerLoop strm on_message n app ws).2 := by
  intro n
  induction n with
  | zero => exact fun h => h
  | succ n ih =>
      intro app ws h
      rw [handlerLoop]
      obtain ⟨hsteps, hgoes⟩ := ws.read_ran strm true
      have hspoken := h.steps hsteps
      rcases hread : ws.read strm true with ⟨_ | msg | msg, ws'⟩
      · rw [hread] at hspoken
        exact hspoken
      · rw [hread] at hspoken hgoes
        rw [handled]
        cases hreply : on_message app msg with
        | error e => exact hspoken
        | ok r =>
            obtain ⟨reply, app'⟩ := r
            refine ih ?_
            split_ifs
            · exact hspoken
            · have hopen : ws'.closed_ = false := hgoes (by simp)
              rw [WebSocket.send, if_neg (by rw [hopen]; exact Bool.false_ne_true)]
              exact hspoken.write hopen (Or.inr ⟨rfl, hreplies app msg reply app' hreply⟩)
      · rw [hread] at hspoken
        exact ih hspoken

/-- `on_message` of `main`: what the commands find, one after the other. -/
def onMessage (lib : LibraryCalls) (found : ℕ → CommandCalls) : MessageHandler ℕ :=
  fun n msg => do
    let reply ← dispatchMain lib (found n) msg
    pure (reply, n + 1)

/-- A text that the page can use: valid, and parsed to an object with a status. -/
def IsStatusText (strtod : Bytes → UInt64) (t : Bytes) : Prop :=
  ValidUtf8 t ∧ ∃ members, TextParser.parse strtod t = .ok (.object members) ∧
    (Json.find (ascii "status") members = some (.string (ascii "ok")) ∨
      Json.find (ascii "status") members = some (.string (ascii "error")))

/-- **Whatever bytes a client sends**, and however they arrive, the frames that its handler begins
are pongs, replies that are objects with a status, in one frame each, and a close frame at the end.
Where every call of `strm_.write` takes all of its bytes, what is on the wire are these frames. -/
theorem session_spoken (lib : LibraryCalls) (found : ℕ → CommandCalls)
    (hnow : ∀ n, (found n).outcome.now < 2 ^ 63)
    (hfloats : ∀ n, ∀ bits ∈ (found n).floats lib,
      TextParser.isFinite bits = true ∧ Dtoa.ReadsBack lib.strtod lib.grisu2 bits)
    (strm : Supply UInt8 σ) (s : σ) :
    let ws := (session strm (onMessage lib found) 0 s).2
    Spoken (IsStatusText lib.strtod) ws ∧ ∀ outcomes, (∀ r ∈ outcomes, r = .full) →
      ws.wire outcomes = ws.written.flatMap (encode none) := by
  refine ⟨spoken_handlerLoop (fun n msg reply app hreply => ?_) (.start s),
    fun _ hfull => putFrames_full _ hfull⟩
  obtain ⟨t, ht, heq⟩ := except_bind_eq_ok hreply
  obtain ⟨rfl, -⟩ := Prod.mk.inj (Except.ok.inj heq)
  obtain ⟨v, hv, hdump⟩ :=
    dispatchMain_reply (hnow n) (fun bits hb => (hfloats n bits hb).1) ht
  have hreads : ∀ bits ∈ (found n).floats lib, Dtoa.ReadsBack lib.strtod lib.grisu2 bits :=
    fun bits hb => (hfloats n bits hb).2
  exact ⟨Json.dump_valid (fun bits hb => Dtoa.dumpFloat_valid (hreads bits (hv.floats bits hb)))
    hdump, hv.parses hreads hdump⟩

/-- A client that sends a command in two parts, a ping and the command again, while the sensor has
not been read. -/
theorem session_spoken_ping :
    let ws := (session socketStream (onMessage zeroCalls fun _ => unreadCalls) 0 pingSocket).2
    Spoken (IsStatusText fun _ => 0) ws ∧
      ws.wire [.full, .full] = ws.written.flatMap (encode none) := by
  have hspoken := session_spoken zeroCalls (fun _ => unreadCalls) (fun _ => by decide)
    (fun _ bits hb => by
      rw [unreadCalls_floats bits hb]
      exact ⟨rfl, fun h => absurd rfl h, rfl⟩) socketStream pingSocket
  exact ⟨hspoken.1, hspoken.2 _ (by decide)⟩

end Ws

end RasPiZeroCam
