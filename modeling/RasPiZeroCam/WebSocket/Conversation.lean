import RasPiZeroCam.WebSocket.Session

/-!
What a client gets for its messages.

* `Behind`: a connection that has received a part of what another has; `Behind.handlerLoop`: it has
  written a part of what the other has.
* `conversation`: the pongs and the replies that are owed for messages; `conversation_kept`: these
  are written, in their order.
-/

namespace RasPiZeroCam

namespace Ws

open Codes

variable {σ τ : Type} {strm : Supply UInt8 σ} {is_server_ : Bool} {ws : WebSocket σ}
  {all : WebSocket Bytes} {f : Frame} {s s' : σ}

/-! ### A part of what was sent -/

/-- A connection that has received a part of what the other has. -/
structure Behind (strm : Supply UInt8 σ) (ws : WebSocket σ) (all : WebSocket Bytes) : Prop where
  left : strm.left ws.strm_ <+: all.strm_
  closed : ws.closed_ = all.closed_
  written : ws.written = all.written

/-- A call on the one has failed, and the frames it has written are written by the call on the
other; or both do the same. -/
def Follows {ρ : Type} (strm : Supply UInt8 σ) (failed : ρ) (r : ρ × WebSocket σ)
    (r' : ρ × WebSocket Bytes) : Prop :=
  (r.1 = failed ∧ r.2.written <+: r'.2.written) ∨ (r.1 = r'.1 ∧ Behind strm r.2 r'.2)

/-- What has been written stays. -/
lemma WebSocket.Steps.written {ws' : WebSocket σ} (h : WebSocket.Steps strm is_server_ ws ws') :
    ws.written <+: ws'.written := by
  induction h with
  | refl => exact List.prefix_rfl
  | tail _ hstep ih =>
      refine ih.trans ?_
      cases hstep with
      | take _ _ => exact List.prefix_rfl
      | pong _ _ _ => exact List.prefix_append _ _
      | shut => exact List.prefix_rfl
      | close _ _ _ => exact List.prefix_append _ _

lemma WebSocket.written_send {reply : Bytes} : ws.written <+: (ws.send reply).written := by
  rw [send]
  split_ifs
  · exact List.prefix_rfl
  · exact List.prefix_append _ _

lemma written_handled {on_message : MessageHandler τ}
    {loop : τ → WebSocket σ → Except Exception τ × WebSocket σ} {app : τ}
    (hloop : ∀ app ws, ws.written <+: (loop app ws).2.written) (r : ReadResult × WebSocket σ) :
    r.2.written <+: (handled on_message loop app r).2.written := by
  obtain ⟨_ | msg | msg, ws⟩ := r
  · exact List.prefix_rfl
  · rw [handled]
    cases on_message app msg with
    | error e => exact List.prefix_rfl
    | ok r =>
        refine List.IsPrefix.trans ?_ (hloop _ _)
        split_ifs
        · exact List.prefix_rfl
        · exact WebSocket.written_send
  · exact hloop app ws

lemma written_handlerLoop {on_message : MessageHandler τ} {n : ℕ} : ∀ {app : τ} {ws : WebSocket σ},
    ws.written <+: (handlerLoop strm on_message n app ws).2.written := by
  induction n with
  | zero => exact List.prefix_rfl
  | succ n ih =>
      intro app ws
      exact (ws.read_ran strm true).1.written.trans (written_handled (fun app ws => ih) _)

/-- A call that fails, on connections that have written the same. -/
lemma Follows.fail {ρ : Type} {failed a : ρ} (h : ws.written = all.written) :
    Follows strm failed (failed, ws) (a, all) :=
  Or.inl ⟨rfl, by rw [h]⟩

lemma Behind.nextFrame {max_len : ℕ} {ws' : WebSocket σ} (h : Behind strm ws all)
    (hnext : ws.nextFrame strm is_server_ max_len = some (f, ws')) :
    ∃ all', all.nextFrame (flat UInt8) is_server_ max_len = some (f, all') ∧
      Behind strm ws' all' := by
  obtain ⟨⟨f', s'⟩, hread, heq⟩ := Option.map_eq_some_iff.mp hnext
  obtain ⟨rfl, rfl⟩ := Prod.mk.inj heq
  obtain ⟨u, hu⟩ := h.left
  have hflat := (readFrame_refines strm is_server_ max_len _ _ _ hread).2 u
  rw [hu] at hflat
  exact ⟨_, WebSocket.nextFrame_of_read hflat, ⟨u, rfl⟩, h.closed, h.written⟩

/-- The same frame written on both. -/
lemma Behind.write (h : Behind strm ws all) (opcode : Opcode) (payload : Bytes) :
    Behind strm (ws.write opcode payload) (all.write opcode payload) where
  left := h.left
  closed := h.closed
  written := congrArg (· ++ [_]) h.written

lemma Behind.send (h : Behind strm ws all) (reply : Bytes) :
    Behind strm (ws.send reply) (all.send reply) := by
  rw [WebSocket.send, WebSocket.send, h.closed]
  split_ifs
  · exact h
  · exact h.write .text reply

namespace WebSocket

lemma drain_written : ∀ {n : ℕ} {ws : WebSocket σ},
    (ws.drain strm is_server_ n).written = ws.written := by
  intro n
  induction n with
  | zero => exact rfl
  | succ n ih =>
      intro ws
      rw [drain]
      rcases hnext : ws.nextFrame strm is_server_ 125 with _ | ⟨f, ws'⟩
      · rfl
      · obtain ⟨⟨f', s'⟩, -, heq⟩ := Option.map_eq_some_iff.mp hnext
        obtain ⟨rfl, rfl⟩ := Prod.mk.inj heq
        dsimp only
        split_ifs
        · rfl
        · exact ih

lemma close_written {n status : ℕ} {reason : Bytes} :
    (ws.close strm is_server_ n status reason).written =
      if ws.closed_ then ws.written
      else ws.written ++ [⟨true, .close, lengthBytes 2 status ++ reason.take 123⟩] := by
  rw [close]
  split_ifs
  · rfl
  · exact drain_written

lemma written_finish {n : ℕ} {isText : Bool} {msg : Bytes} :
    ws.written <+: (ws.finish strm is_server_ n isText msg).2.written := by
  rw [finish]
  split_ifs
  · exact List.prefix_rfl
  · show ws.written <+: (ws.close strm is_server_ n _ _).written
    rw [close_written]
    split_ifs
    · exact List.prefix_rfl
    · exact List.prefix_append _ _
  · exact List.prefix_rfl

lemma written_readRest {n : ℕ} {msg : Bytes} (hopen : ws.closed_ = false) :
    ws.written <+: (ws.readRest strm is_server_ n msg).2.written :=
  (readRest_ran hopen).1.written

lemma written_readLoop {n : ℕ} : ws.written <+: (ws.readLoop strm is_server_ n).2.written :=
  readLoop_ran.1.written

end WebSocket

lemma Behind.finish (h : Behind strm ws all) {n m : ℕ} (isText : Bool) (msg : Bytes) :
    Follows strm .fail (ws.finish strm is_server_ n isText msg)
      (all.finish (flat UInt8) is_server_ m isText msg) := by
  rw [WebSocket.finish, WebSocket.finish]
  split_ifs
  · exact Or.inr ⟨rfl, h⟩
  · refine .fail ?_
    show (ws.close strm is_server_ n _ _).written = (all.close _ is_server_ m _ _).written
    rw [WebSocket.close_written, WebSocket.close_written, h.closed, h.written]
  · exact Or.inr ⟨rfl, h⟩

lemma Behind.readRest {n : ℕ} : ∀ {m : ℕ} {msg : Bytes} {ws : WebSocket σ} {all : WebSocket Bytes},
    n ≤ m → Behind strm ws all → ws.closed_ = false →
    Follows strm none (ws.readRest strm is_server_ n msg)
      (all.readRest (flat UInt8) is_server_ m msg) := by
  induction n with
  | zero =>
      intro m msg ws all _ h hopen
      exact Or.inl ⟨rfl, h.written ▸ WebSocket.written_readRest (h.closed.symm.trans hopen)⟩
  | succ n ih =>
      intro m msg ws all hle h hopen
      obtain ⟨m, rfl⟩ := Nat.exists_eq_add_one_of_ne_zero (Nat.ne_zero_of_lt hle)
      rw [WebSocket.readRest]
      rcases hnext : ws.nextFrame strm is_server_ maxPayloadLength with _ | ⟨f, ws'⟩
      · exact Or.inl ⟨rfl, h.written ▸ WebSocket.written_readRest (h.closed.symm.trans hopen)⟩
      · obtain ⟨all', hnext', h'⟩ := h.nextFrame hnext
        have hle' : n ≤ m := Nat.le_of_succ_le_succ hle
        have hopen' : ws'.closed_ = false := (WebSocket.nextFrame_spec hnext).2.2.trans hopen
        have hfail : Follows strm (none : Option Bytes) (none, ws'.shut) (none, all'.shut) :=
          .fail h'.written
        rw [WebSocket.readRest, hnext']
        dsimp only
        cases f.opcode <;> dsimp only
        case continuation =>
            split_ifs
            · exact hfail
            · exact Or.inr ⟨rfl, h'⟩
            · exact ih hle' h' hopen'
        case ping => exact ih hle' (h'.write .pong f.payload) hopen'
        case pong => exact ih hle' h' hopen'
        case close => exact .fail (h'.write .close f.payload).written
        all_goals exact hfail

lemma Behind.readMessage {n m : ℕ} (hle : n ≤ m) (h : Behind strm ws all)
    (hopen : ws.closed_ = false) (isText : Bool) :
    Follows strm .fail (ws.readMessage strm is_server_ n isText f)
      (all.readMessage (flat UInt8) is_server_ m isText f) := by
  rw [WebSocket.readMessage, WebSocket.readMessage]
  split_ifs
  · exact h.finish isText f.payload
  · have hrest : Follows strm none (ws.readRest strm is_server_ n f.payload)
        (all.readRest (flat UInt8) is_server_ m f.payload) := h.readRest hle hopen
    generalize ws.readRest strm is_server_ n f.payload = r at hrest ⊢
    generalize all.readRest (flat UInt8) is_server_ m f.payload = r' at hrest ⊢
    obtain ⟨a, ws'⟩ := r
    obtain ⟨a', all'⟩ := r'
    rcases hrest with ⟨hfail, hpart⟩ | ⟨hsame, hbehind⟩
    · obtain rfl : a = none := hfail
      refine Or.inl ⟨rfl, hpart.trans ?_⟩
      cases a' with
      | none => exact List.prefix_rfl
      | some msg => exact WebSocket.written_finish
    · obtain rfl : a = a' := hsame
      cases a with
      | none => exact .fail hbehind.written
      | some msg => exact hbehind.finish isText msg

lemma Behind.readLoop {n : ℕ} : ∀ {m : ℕ} {ws : WebSocket σ} {all : WebSocket Bytes},
    n ≤ m → Behind strm ws all →
    Follows strm .fail (ws.readLoop strm is_server_ n)
      (all.readLoop (flat UInt8) is_server_ m) := by
  induction n with
  | zero => exact fun _ h => Or.inl ⟨rfl, h.written ▸ WebSocket.written_readLoop⟩
  | succ n ih =>
      intro m ws all hle h
      obtain ⟨m, rfl⟩ := Nat.exists_eq_add_one_of_ne_zero (Nat.ne_zero_of_lt hle)
      by_cases hclosed : ws.closed_ = true
      · rw [WebSocket.readLoop, if_pos hclosed]
        exact Or.inl ⟨rfl, h.written ▸ WebSocket.written_readLoop⟩
      · rw [WebSocket.readLoop, if_neg hclosed]
        rcases hnext : ws.nextFrame strm is_server_ maxPayloadLength with _ | ⟨f, ws'⟩
        · exact Or.inl ⟨rfl, h.written ▸ WebSocket.written_readLoop⟩
        · obtain ⟨all', hnext', h'⟩ := h.nextFrame hnext
          have hle' : n ≤ m := Nat.le_of_succ_le_succ hle
          have hopen' : ws'.closed_ = false :=
            (WebSocket.nextFrame_spec hnext).2.2.trans (Bool.eq_false_of_not_eq_true hclosed)
          rw [WebSocket.readLoop, if_neg (h.closed ▸ hclosed), hnext']
          dsimp only
          cases f.opcode <;> dsimp only
          case ping => exact ih hle' (h'.write .pong f.payload)
          case pong => exact ih hle' h'
          case close => exact .fail (h'.write .close f.payload).written
          case text => exact h'.readMessage hle' hopen' true
          case binary => exact h'.readMessage hle' hopen' false
          all_goals exact .fail h'.written

lemma Behind.read (h : Behind strm ws all) :
    Follows strm .fail (ws.read strm is_server_) (all.read (flat UInt8) is_server_) :=
  h.readLoop (Nat.succ_le_succ h.left.length_le)

/-- **A connection that has received a part** of what the other has, has written a part of what the
other has. -/
lemma Behind.handlerLoop {on_message : MessageHandler τ} {n : ℕ} : ∀ {m : ℕ} {app : τ}
    {ws : WebSocket σ} {all : WebSocket Bytes}, n ≤ m → Behind strm ws all →
    (handlerLoop strm on_message n app ws).2.written <+:
      (handlerLoop (flat UInt8) on_message m app all).2.written := by
  induction n with
  | zero => exact fun _ h => h.written ▸ written_handlerLoop
  | succ n ih =>
      intro m app ws all hle h
      obtain ⟨m, rfl⟩ := Nat.exists_eq_add_one_of_ne_zero (Nat.ne_zero_of_lt hle)
      have hle' : n ≤ m := Nat.le_of_succ_le_succ hle
      have hread : Follows strm .fail (ws.read strm true) (all.read (flat UInt8) true) := h.read
      rw [Ws.handlerLoop, Ws.handlerLoop]
      generalize ws.read strm true = r at hread ⊢
      generalize all.read (flat UInt8) true = r' at hread ⊢
      obtain ⟨a, ws'⟩ := r
      obtain ⟨a', all'⟩ := r'
      rcases hread with ⟨hfail, hpart⟩ | ⟨hsame, hbehind⟩
      · obtain rfl : a = .fail := hfail
        exact hpart.trans (written_handled (fun app ws => written_handlerLoop) _)
      · obtain rfl : a = a' := hsame
        cases a with
        | fail => exact hbehind.written ▸ List.prefix_rfl
        | text msg =>
            rw [handled, handled]
            cases on_message app msg with
            | error e => exact hbehind.written ▸ List.prefix_rfl
            | ok r =>
                refine ih hle' ?_
                split_ifs
                · exact hbehind
                · exact hbehind.send r.1
        | binary msg => exact ih hle' hbehind

/-! ### Messages that a reader accepts -/

/-- What is owed for messages: the pongs and, for a text, the reply. -/
def conversation (on_message : MessageHandler τ) : τ → List Sent → List Frame
  | _, [] => []
  | app, m :: ms =>
      m.answers ++
        if m.isText then
          match on_message app m.payload with
          | .error _ => []
          | .ok (reply, app) =>
              (if reply = [] then [] else [⟨true, .text, reply⟩]) ++ conversation on_message app ms
        else conversation on_message app ms

/-- Where nothing is left, a read fails. -/
lemma read_end (hleft : strm.left ws.strm_ = []) (hopen : ws.closed_ = false) :
    ws.read strm is_server_ = (.fail, ws.shut) := by
  have hnext : ws.nextFrame strm is_server_ maxPayloadLength = none := by
    rw [WebSocket.nextFrame, readFrame_nil strm is_server_ maxPayloadLength hleft]
    rfl
  rw [WebSocket.read, WebSocket.readLoop, if_neg (by rw [hopen]; exact Bool.false_ne_true), hnext]

/-- **Each message is answered**, in its turn. -/
lemma handlerLoop_sent {on_message : MessageHandler τ} (hend : strm.left s' = []) :
    ∀ {ms : List Sent} {n : ℕ} {app : τ} {ws : WebSocket σ}, (∀ m ∈ ms, m.Fits) →
      Delivers strm true (ms.flatMap Sent.frames) ws.strm_ s' → ws.closed_ = false →
      ms.length < n →
      (handlerLoop strm on_message n app ws).2.written =
        ws.written ++ conversation on_message app ms := by
  intro ms
  induction ms with
  | nil =>
      intro n app ws _ hdelivers hopen hn
      obtain ⟨n, rfl⟩ := Nat.exists_eq_add_one_of_ne_zero (Nat.ne_zero_of_lt hn)
      obtain rfl : ws.strm_ = s' := hdelivers
      rw [handlerLoop, read_end hend hopen]
      exact (List.append_nil _).symm
  | cons m ms ih =>
      intro n app ws hfits hdelivers hopen hn
      obtain ⟨n, rfl⟩ := Nat.exists_eq_add_one_of_ne_zero (Nat.ne_zero_of_lt hn)
      obtain ⟨hm, hms⟩ := List.forall_mem_cons.mp hfits
      obtain ⟨s₁, hfirst, hrest⟩ := Delivers.append hdelivers
      have hn' : ms.length < n := Nat.lt_of_succ_lt_succ hn
      let ws₁ := ws.after s₁ m.answers
      rw [handlerLoop, read_sent hm hfirst hopen, conversation, Sent.result]
      by_cases htext : m.isText = true
      · rw [if_pos htext, if_pos htext, handled]
        rcases on_message app m.payload with e | ⟨reply, app'⟩
        · exact (congrArg (ws.written ++ ·) (List.append_nil _)).symm
        · dsimp only
          split_ifs with hempty
          · have hall : (handlerLoop strm on_message n app' ws₁).2.written = _ :=
              ih hms hrest hopen hn'
            rw [hall, List.nil_append]
            exact List.append_assoc _ _ _
          · have hsend : ws₁.send reply = ws₁.write .text reply :=
              if_neg (by rw [show ws₁.closed_ = false from hopen]; exact Bool.false_ne_true)
            have hall :
                (handlerLoop strm on_message n app' (ws₁.write .text reply)).2.written = _ :=
              ih hms hrest hopen hn'
            rw [hsend, hall]
            show ws.written ++ m.answers ++ [_] ++ _ = _
            simp only [List.append_assoc]
      · rw [if_neg htext, if_neg htext, handled]
        have hall : (handlerLoop strm on_message n app ws₁).2.written = _ :=
          ih hms hrest hopen hn'
        rw [hall]
        exact List.append_assoc _ _ _

/-- **A client gets its replies**, in the order of its messages, and the pongs it is owed: however
the bytes of the messages arrive, and wherever they are cut off, the frames that are begun are the
first of these; and all of them, where each call of `recv` finds whole frames, of 4096 bytes at
most, or a part of one frame, the first part with its head.  Where every call of `strm_.write` takes
all of its bytes, what is on the wire are the frames that are begun. -/
theorem conversation_kept (on_message : MessageHandler τ) (app : τ) (ms : List Sent)
    (hfits : ∀ m ∈ ms, m.Fits) (fs : List (Option MaskKey × Frame))
    (hmasked : ∀ f ∈ fs, f.1.isSome = true) (hframes : fs.map Prod.snd = ms.flatMap Sent.frames)
    (s : SocketStream) :
    let ws := (session socketStream on_message app s).2
    (s.left <+: wire fs → ws.written <+: conversation on_message app ms) ∧
    (Arrived headSize (fun f => encode f.1 f.2) fs s →
      ws.written = conversation on_message app ms) ∧
    ∀ outcomes, (∀ r ∈ outcomes, r = .full) →
      ws.wire outcomes = ws.written.flatMap (encode none) := by
  have hlegal : ∀ f ∈ fs, f.1.isSome = true ∧ f.2.Legal maxPayloadLength := fun f hf => by
    have hf₂ : f.2 ∈ ms.flatMap Sent.frames := hframes ▸ List.mem_map_of_mem hf
    obtain ⟨m, hm, hframe⟩ := List.mem_flatMap.mp hf₂
    exact ⟨hmasked f hf, (hfits m hm).legal f.2 hframe⟩
  refine ⟨fun hleft => ?_, fun harrived => ?_, fun outcomes hfull => putFrames_full _ hfull⟩
  · have hflat := delivers_flat hlegal
    rw [hframes] at hflat
    have hbehind : Behind socketStream ⟨s, false, []⟩ ⟨wire fs, false, []⟩ := ⟨hleft, rfl, rfl⟩
    have hle : s.left.length + 1 ≤ ms.length + (wire fs).length + 1 := by
      have hlength := hleft.length_le
      omega
    have hpart : (session socketStream on_message app s).2.written <+: _ :=
      hbehind.handlerLoop hle
    have hall : (handlerLoop (flat UInt8) on_message (ms.length + (wire fs).length + 1) app
        ⟨wire fs, false, []⟩).2.written = [] ++ conversation on_message app ms :=
      handlerLoop_sent rfl hfits hflat rfl (by omega)
    rw [hall] at hpart
    exact hpart
  · obtain ⟨s', hdelivers, hend⟩ := harrived.delivers hlegal
    rw [hframes] at hdelivers
    have hfuel : session socketStream on_message app s =
        handlerLoop socketStream on_message (ms.length + s.left.length + 1) app ⟨s, false, []⟩ :=
      handlerLoop_fuel (Nat.lt_succ_self _) (by show s.left.length < _; omega)
    rw [hfuel]
    exact handlerLoop_sent hend hfits hdelivers rfl (by omega)

/-- A client that sends a command in two parts, a ping and the command again. -/
theorem conversation_kept_ping :
    let ws := (session socketStream (onMessage zeroCalls fun _ => unreadCalls) 0 pingSocket).2
    ws.written = [⟨true, .text, ascii "\x7b\"status\":\"ok\",\"ts\":5\x7d"⟩,
      ⟨true, .pong, ascii "hi"⟩, ⟨true, .text, ascii "\x7b\"status\":\"ok\",\"ts\":5\x7d"⟩] ∧
      ws.wire [.full, .full] = ws.written.flatMap (encode none) := by
  let first : Sent := ⟨[], true, ascii "\x7b\"cmd\":\"ping\"\x7d", []⟩
  let second : Sent := ⟨[.ping (ascii "hi")], true, ascii "\x7b\"cmd\":\"ping\"\x7d", []⟩
  have hshort : 14 ≤ maxPayloadLength := by decide
  have hfirst : first.Fits := ⟨fun _ => rfl, hshort, List.forall_mem_nil _⟩
  have hsecond : second.Fits := ⟨fun _ => rfl, hshort, by decide⟩
  obtain ⟨-, hall, hwire⟩ := conversation_kept (onMessage zeroCalls fun _ => unreadCalls) 0
    [first, second] (List.forall_mem_cons.mpr ⟨hfirst, List.forall_mem_singleton.mpr hsecond⟩)
    pingFrames (by decide) rfl pingSocket
  refine ⟨(hall pingFrames_arrived).trans ?_, hwire _ (by decide)⟩
  have hreply : dispatchMain zeroCalls unreadCalls (ascii "\x7b\"cmd\":\"ping\"\x7d") =
      .ok (ascii "\x7b\"status\":\"ok\",\"ts\":5\x7d") := by decide +kernel
  have hmessage : ∀ n, onMessage zeroCalls (fun _ => unreadCalls) n
      (ascii "\x7b\"cmd\":\"ping\"\x7d") =
      .ok (ascii "\x7b\"status\":\"ok\",\"ts\":5\x7d", n + 1) := fun n => by
    rw [onMessage, hreply]
    rfl
  have hne : ascii "\x7b\"status\":\"ok\",\"ts\":5\x7d" ≠ [] := List.cons_ne_nil _ _
  have hfirst' : onMessage zeroCalls (fun _ => unreadCalls) 0 first.payload = _ := hmessage 0
  have hsecond' : onMessage zeroCalls (fun _ => unreadCalls) 1 second.payload = _ := hmessage 1
  rw [conversation, if_pos rfl, hfirst']
  dsimp only
  rw [if_neg hne, conversation, if_pos rfl, hsecond']
  dsimp only
  rw [if_neg hne]
  rfl

end Ws

end RasPiZeroCam
