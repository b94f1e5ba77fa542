import RasPiZeroCam.WebSocket.Frames
import RasPiZeroCam.WebSocket.Utf8

/-!
The messages of a WebSocket connection, which come in one frame or in several, with pings and pongs
in between.

* `WebSocket`, `WebSocket.read`: an end of a connection, and what it does to read a message.
* `readLoop_fuel`: the passes that `read` is given are enough.
* `read_sound`: whatever arrives, a text that is read is valid UTF-8 and not too long, and an end
  that has failed stays closed.
* `Sent`: a message as its frames carry it; `read_sent`: it is read, and the pings are answered.
-/

namespace RasPiZeroCam

namespace Ws

open Codes

/-- `CPPHTTPLIB_WEBSOCKET_MAX_PAYLOAD_LENGTH`. -/
def maxPayloadLength : ℕ := 16777216

/-- `ReadResult`, with the message. -/
inductive ReadResult where
  | fail
  | text (msg : Bytes)
  | binary (msg : Bytes)
  deriving DecidableEq

/-- An end of a connection: its stream, whether it is closed, and the frames it has written, or has
tried to: what `write_websocket_frame` returns is not looked at. -/
structure WebSocket (σ : Type) where
  strm_ : σ
  closed_ : Bool
  written : List Frame

variable {σ : Type}

namespace WebSocket

/-- `write_websocket_frame(strm_, opcode, payload, true, !is_server_)`, which begins the frame; what
becomes of its calls of `strm_.write` is in `wire`. -/
def write (opcode : Opcode) (payload : Bytes) (ws : WebSocket σ) : WebSocket σ :=
  { ws with written := ws.written ++ [⟨true, opcode, payload⟩] }

/-- What a server has put on the wire, when the calls of `strm_.write` had these outcomes. -/
def wire (outcomes : List WriteOutcome) (ws : WebSocket σ) : Bytes := putFrames outcomes ws.written

/-- `closed_ = true`. -/
def shut (ws : WebSocket σ) : WebSocket σ := { ws with closed_ := true }

variable (strm : Supply UInt8 σ) (is_server_ : Bool)

/-- `read_websocket_frame(strm_, .., is_server_, max_len)`. -/
def nextFrame (max_len : ℕ) (ws : WebSocket σ) : Option (Frame × WebSocket σ) :=
  (readFrame strm is_server_ max_len ws.strm_).map fun r => (r.1, { ws with strm_ := r.2 })

/-- The frames behind a first one that is not the last, up to the end of the message; `none` for
`return Fail`. -/
def readRest : ℕ → Bytes → WebSocket σ → Option Bytes × WebSocket σ
  | 0, _, ws => (none, ws)
  | fuel + 1, msg, ws =>
      match ws.nextFrame strm is_server_ maxPayloadLength with
      | none => (none, ws.shut)
      | some (f, ws) =>
          match f.opcode with
          | .ping => readRest fuel msg (ws.write .pong f.payload)
          | .pong => readRest fuel msg ws
          | .close => (none, (ws.write .close f.payload).shut)
          | .continuation =>
              if maxPayloadLength < (msg ++ f.payload).length then (none, ws.shut)
              else if f.fin then (some (msg ++ f.payload), ws)
              else readRest fuel (msg ++ f.payload) ws
          | _ => (none, ws.shut)

/-- The frames that `close` reads until the peer closes too. -/
def drain : ℕ → WebSocket σ → WebSocket σ
  | 0, ws => ws
  | fuel + 1, ws =>
      match ws.nextFrame strm is_server_ 125 with
      | none => ws
      | some (f, ws) => if f.opcode = .close then ws else drain fuel ws

/-- `close(status, reason)`. -/
def close (fuel : ℕ) (status : ℕ) (reason : Bytes) (ws : WebSocket σ) : WebSocket σ :=
  if ws.closed_ then ws
  else
    let payload := lengthBytes 2 status ++ reason.take 123
    drain strm is_server_ fuel (ws.shut.write .close payload)

/-- What `read` makes of a whole message. -/
def finish (fuel : ℕ) (isText : Bool) (msg : Bytes) (ws : WebSocket σ) :
    ReadResult × WebSocket σ :=
  if isText then
    if isValidUtf8 msg then (.text msg, ws)
    else (.fail, ws.close strm is_server_ fuel 1007 (ascii "invalid UTF-8"))
  else (.binary msg, ws)

/-- A message whose first frame has come. -/
def readMessage (fuel : ℕ) (isText : Bool) (f : Frame) (ws : WebSocket σ) :
    ReadResult × WebSocket σ :=
  if f.fin then ws.finish strm is_server_ fuel isText f.payload
  else
    match ws.readRest strm is_server_ fuel f.payload with
    | (none, ws) => (.fail, ws)
    | (some msg, ws) => ws.finish strm is_server_ fuel isText msg

/-- The loop of `read`, with so many passes at most. -/
def readLoop : ℕ → WebSocket σ → ReadResult × WebSocket σ
  | 0, ws => (.fail, ws)
  | fuel + 1, ws =>
      if ws.closed_ then (.fail, ws)
      else
        match ws.nextFrame strm is_server_ maxPayloadLength with
        | none => (.fail, ws.shut)
        | some (f, ws) =>
            match f.opcode with
            | .ping => readLoop fuel (ws.write .pong f.payload)
            | .pong => readLoop fuel ws
            | .close => (.fail, (ws.write .close f.payload).shut)
            | .text => ws.readMessage strm is_server_ fuel true f
            | .binary => ws.readMessage strm is_server_ fuel false f
            | _ => (.fail, ws.shut)

/-- `read(msg)`: a frame takes bytes, so that there are no more passes than bytes. -/
def read (ws : WebSocket σ) : ReadResult × WebSocket σ :=
  ws.readLoop strm is_server_ ((strm.left ws.strm_).length + 1)

/-- `send(data)`. -/
def send (data : Bytes) (ws : WebSocket σ) : WebSocket σ :=
  if ws.closed_ then ws else ws.write .text data

/-! ### The passes are enough -/

variable {strm is_server_} {ws ws' : WebSocket σ} {f : Frame} {max_len : ℕ}

/-- What is left to read. -/
def size (strm : Supply UInt8 σ) (ws : WebSocket σ) : ℕ := (strm.left ws.strm_).length

/-- A frame makes it less, and is not too long. -/
lemma nextFrame_spec (h : ws.nextFrame strm is_server_ max_len = some (f, ws')) :
    ws'.size strm < ws.size strm ∧ f.payload.length ≤ max_len ∧ ws'.closed_ = ws.closed_ := by
  obtain ⟨⟨f', s'⟩, hread, heq⟩ := Option.map_eq_some_iff.mp h
  obtain ⟨rfl, rfl⟩ := Prod.mk.inj heq
  have hleft := readFrame_left hread
  refine ⟨?_, readFrame_short hread, rfl⟩
  show (strm.left s').length < (strm.left ws.strm_).length
  omega

lemma drain_fuel : ∀ {n m : ℕ} {ws : WebSocket σ}, ws.size strm < n → ws.size strm < m →
    ws.drain strm is_server_ n = ws.drain strm is_server_ m := by
  intro n
  induction n with
  | zero => exact fun h => absurd h (Nat.not_lt_zero _)
  | succ n ih =>
      intro m ws hn hm
      obtain ⟨m, rfl⟩ := Nat.exists_eq_add_one_of_ne_zero (Nat.ne_zero_of_lt hm)
      rw [drain, drain]
      cases hnext : ws.nextFrame strm is_server_ 125 with
      | none => rfl
      | some r =>
          have hless := (nextFrame_spec hnext).1
          dsimp only
          rw [ih (m := m) (by omega) (by omega)]

lemma readRest_fuel : ∀ {n m : ℕ} {msg : Bytes} {ws : WebSocket σ}, ws.size strm < n →
    ws.size strm < m → ws.readRest strm is_server_ n msg = ws.readRest strm is_server_ m msg := by
  intro n
  induction n with
  | zero => exact fun h => absurd h (Nat.not_lt_zero _)
  | succ n ih =>
      intro m msg ws hn hm
      obtain ⟨m, rfl⟩ := Nat.exists_eq_add_one_of_ne_zero (Nat.ne_zero_of_lt hm)
      rw [readRest, readRest]
      cases hnext : ws.nextFrame strm is_server_ maxPayloadLength with
      | none => rfl
      | some r =>
          obtain ⟨f, ws'⟩ := r
          have hless := (nextFrame_spec hnext).1
          have hrest : ∀ (msg : Bytes) {ws'' : WebSocket σ}, ws''.size strm = ws'.size strm →
              ws''.readRest strm is_server_ n msg = ws''.readRest strm is_server_ m msg :=
            fun msg ws'' hsize => ih (by omega) (by omega)
          dsimp only
          cases f.opcode <;> dsimp only
          · rw [hrest _ rfl]
          · exact hrest _ rfl
          · exact hrest _ rfl

lemma finish_fuel {n m : ℕ} {isText : Bool} {msg : Bytes} (hn : ws.size strm < n)
    (hm : ws.size strm < m) :
    ws.finish strm is_server_ n isText msg = ws.finish strm is_server_ m isText msg := by
  have hclose : ∀ status reason, ws.close strm is_server_ n status reason =
      ws.close strm is_server_ m status reason := fun status reason => by
    rw [close, close]
    split_ifs
    · rfl
    · exact drain_fuel hn hm
  rw [finish, finish, hclose]

/-- The end of a message, or of the connection. -/
def RestEnds (strm : Supply UInt8 σ) (n : ℕ) : Option Bytes × WebSocket σ → Prop
  | (none, ws) => ws.closed_ = true
  | (some msg, ws) => msg.length ≤ maxPayloadLength ∧ ws.size strm < n

lemma RestEnds.mono {n m : ℕ} {r : Option Bytes × WebSocket σ} (h : RestEnds strm n r)
    (hle : n ≤ m) : RestEnds strm m r := by
  obtain ⟨_ | msg, ws⟩ := r
  · exact h
  · exact ⟨h.1, h.2.trans_le hle⟩

lemma readRest_ends : ∀ {n : ℕ} (msg : Bytes) {ws : WebSocket σ}, ws.size strm < n →
    RestEnds strm n (ws.readRest strm is_server_ n msg) := by
  intro n
  induction n with
  | zero => exact fun _ _ h => absurd h (Nat.not_lt_zero _)
  | succ n ih =>
      intro msg ws hn
      rw [readRest]
      cases hnext : ws.nextFrame strm is_server_ maxPayloadLength with
      | none => exact rfl
      | some r =>
          obtain ⟨f, ws'⟩ := r
          have hless := (nextFrame_spec hnext).1
          have hmore : ∀ msg {ws'' : WebSocket σ}, ws''.size strm = ws'.size strm →
              RestEnds strm (n + 1) (ws''.readRest strm is_server_ n msg) := fun msg ws'' hsize =>
            (ih msg (by omega)).mono (Nat.le_succ n)
          dsimp only
          cases f.opcode <;> dsimp only
          case continuation =>
              split_ifs with hlong hfin
              · exact rfl
              · exact ⟨Nat.le_of_not_lt hlong, by omega⟩
              · exact hmore _ rfl
          case ping => exact hmore _ rfl
          case pong => exact hmore _ rfl
          all_goals exact rfl

/-- **There are enough passes**: more of them change nothing. -/
lemma readLoop_fuel : ∀ {n m : ℕ} {ws : WebSocket σ}, ws.size strm < n → ws.size strm < m →
    ws.readLoop strm is_server_ n = ws.readLoop strm is_server_ m := by
  intro n
  induction n with
  | zero => exact fun h => absurd h (Nat.not_lt_zero _)
  | succ n ih =>
      intro m ws hn hm
      obtain ⟨m, rfl⟩ := Nat.exists_eq_add_one_of_ne_zero (Nat.ne_zero_of_lt hm)
      rw [readLoop, readLoop]
      cases hnext : ws.nextFrame strm is_server_ maxPayloadLength with
      | none => rfl
      | some r =>
          obtain ⟨f, ws'⟩ := r
          have hless := (nextFrame_spec hnext).1
          have hmore : ∀ ws'' : WebSocket σ, ws''.size strm = ws'.size strm →
              ws''.readLoop strm is_server_ n = ws''.readLoop strm is_server_ m :=
            fun ws'' hsize => ih (by omega) (by omega)
          have hmessage : ∀ isText, ws'.readMessage strm is_server_ n isText f =
              ws'.readMessage strm is_server_ m isText f := fun isText => by
            have hn' : ws'.size strm < n := by omega
            have hm' : ws'.size strm < m := by omega
            have hends : RestEnds strm n (ws'.readRest strm is_server_ n f.payload) :=
              readRest_ends f.payload hn'
            rw [readMessage, readMessage, finish_fuel hn' hm', readRest_fuel hm' hn']
            rcases hrest : ws'.readRest strm is_server_ n f.payload with ⟨_ | msg, ws''⟩
            · rfl
            · rw [hrest] at hends
              have hends' : RestEnds strm m (ws'.readRest strm is_server_ m f.payload) :=
                readRest_ends f.payload hm'
              rw [readRest_fuel hm' hn', hrest] at hends'
              dsimp only
              rw [finish_fuel hends.2 hends'.2]
          dsimp only
          cases f.opcode <;> dsimp only
          · rw [hmessage]
          · rw [hmessage]
          · rw [hmore (ws'.write .pong f.payload) rfl]
          · rw [hmore ws' rfl]

/-! ### What a call does -/

/-- What an end of a connection does to read: it takes a frame, answers a ping, is shut, or closes
the connection. -/
inductive Step (strm : Supply UInt8 σ) (is_server_ : Bool) (ws : WebSocket σ) : WebSocket σ → Prop
  | take {max_len : ℕ} (f : Frame) {s' : σ} :
      readFrame strm is_server_ max_len ws.strm_ = some (f, s') →
        Step strm is_server_ ws { ws with strm_ := s' }
  | pong (payload : Bytes) : ws.closed_ = false → payload.length ≤ 125 →
      Step strm is_server_ ws (ws.write .pong payload)
  | shut : Step strm is_server_ ws ws.shut
  | close (payload : Bytes) : ws.closed_ = false → payload.length ≤ 125 →
      Step strm is_server_ ws (ws.shut.write .close payload)

/-- Any number of steps. -/
abbrev Steps (strm : Supply UInt8 σ) (is_server_ : Bool) : WebSocket σ → WebSocket σ → Prop :=
  Relation.ReflTransGen (Step strm is_server_)

/-- A call that has taken steps, and has left the connection open unless it failed. -/
def Ran (strm : Supply UInt8 σ) (is_server_ : Bool) (failed : Prop) (ws ws' : WebSocket σ) : Prop :=
  Steps strm is_server_ ws ws' ∧ (¬ failed → ws'.closed_ = false)

lemma Ran.fail {failed : Prop} (h : Steps strm is_server_ ws ws') (hfailed : failed) :
    Ran strm is_server_ failed ws ws' := ⟨h, fun hnot => absurd hfailed hnot⟩

lemma Ran.after {failed : Prop} {ws'' : WebSocket σ} (h : Ran strm is_server_ failed ws' ws'')
    (hsteps : Steps strm is_server_ ws ws') : Ran strm is_server_ failed ws ws'' :=
  ⟨hsteps.trans h.1, h.2⟩

lemma nextFrame_step (h : ws.nextFrame strm is_server_ max_len = some (f, ws')) :
    Step strm is_server_ ws ws' ∧ (f.opcode.code &&& 0x08 ≠ 0 → f.payload.length ≤ 125) := by
  obtain ⟨⟨f', s'⟩, hread, heq⟩ := Option.map_eq_some_iff.mp h
  obtain ⟨rfl, rfl⟩ := Prod.mk.inj heq
  exact ⟨.take f' hread, readFrame_control hread⟩

lemma drain_steps : ∀ {n : ℕ} {ws : WebSocket σ},
    Steps strm is_server_ ws (ws.drain strm is_server_ n) := by
  intro n
  induction n with
  | zero => exact .refl
  | succ n ih =>
      intro ws
      rw [drain]
      cases hnext : ws.nextFrame strm is_server_ 125 with
      | none => exact .refl
      | some r =>
          have hstep := (nextFrame_step hnext).1
          dsimp only
          split_ifs
          · exact .single hstep
          · exact .head hstep ih

lemma finish_ran {n : ℕ} {isText : Bool} {msg : Bytes} (hopen : ws.closed_ = false) :
    Ran strm is_server_ ((ws.finish strm is_server_ n isText msg).1 = .fail) ws
      (ws.finish strm is_server_ n isText msg).2 := by
  rw [finish]
  split_ifs
  · exact ⟨.refl, fun _ => hopen⟩
  · have hshort : (lengthBytes 2 1007 ++ (ascii "invalid UTF-8").take 123).length ≤ 125 := by decide
    refine .fail ?_ rfl
    show Steps strm is_server_ ws (ws.close strm is_server_ n _ _)
    rw [close, if_neg (by rw [hopen]; exact Bool.false_ne_true)]
    exact .head (.close _ hopen hshort) drain_steps
  · exact ⟨.refl, fun _ => hopen⟩

lemma readRest_ran : ∀ {n : ℕ} {msg : Bytes} {ws : WebSocket σ}, ws.closed_ = false →
    Ran strm is_server_ ((ws.readRest strm is_server_ n msg).1 = none) ws
      (ws.readRest strm is_server_ n msg).2 := by
  intro n
  induction n with
  | zero => exact fun _ => .fail .refl rfl
  | succ n ih =>
      intro msg ws hopen
      rw [readRest]
      cases hnext : ws.nextFrame strm is_server_ maxPayloadLength with
      | none => exact .fail (.single .shut) rfl
      | some r =>
          obtain ⟨f, ws'⟩ := r
          obtain ⟨-, -, hclosed⟩ := nextFrame_spec hnext
          obtain ⟨htake, hcontrol⟩ := nextFrame_step hnext
          have hopen' : ws'.closed_ = false := hclosed.trans hopen
          have hfail : Ran strm is_server_ ((none : Option Bytes) = none) ws ws'.shut :=
            .fail (.head htake (.single .shut)) rfl
          dsimp only
          cases hopcode : f.opcode <;> dsimp only
          case continuation =>
              split_ifs
              · exact hfail
              · exact ⟨.single htake, fun _ => hopen'⟩
              · exact (ih hopen').after (.single htake)
          case ping =>
              have hshort : f.payload.length ≤ 125 := hcontrol (by rw [hopcode]; decide)
              have hpong : (ws'.write .pong f.payload).closed_ = false := hopen'
              exact (ih hpong).after (.head htake (.single (.pong _ hopen' hshort)))
          case pong => exact (ih hopen').after (.single htake)
          case close =>
              have hshort : f.payload.length ≤ 125 := hcontrol (by rw [hopcode]; decide)
              exact .fail (.head htake (.single (.close _ hopen' hshort))) rfl
          all_goals exact hfail

lemma readMessage_ran {n : ℕ} {isText : Bool} (hopen : ws.closed_ = false) :
    Ran strm is_server_ ((ws.readMessage strm is_server_ n isText f).1 = .fail) ws
      (ws.readMessage strm is_server_ n isText f).2 := by
  rw [readMessage]
  split_ifs
  · exact finish_ran hopen
  · obtain ⟨hsteps, hgoes⟩ : Ran strm is_server_
      ((ws.readRest strm is_server_ n f.payload).1 = none) ws
      (ws.readRest strm is_server_ n f.payload).2 := readRest_ran hopen
    rcases hrest : ws.readRest strm is_server_ n f.payload with ⟨_ | msg, ws'⟩
    · rw [hrest] at hsteps
      exact .fail hsteps rfl
    · rw [hrest] at hsteps hgoes
      exact (finish_ran (hgoes (Option.some_ne_none msg))).after hsteps

lemma readLoop_ran : ∀ {n : ℕ} {ws : WebSocket σ},
    Ran strm is_server_ ((ws.readLoop strm is_server_ n).1 = .fail) ws
      (ws.readLoop strm is_server_ n).2 := by
  intro n
  induction n with
  | zero => exact .fail .refl rfl
  | succ n ih =>
      intro ws
      rw [readLoop]
      split_ifs with hclosed
      · exact .fail .refl rfl
      · cases hnext : ws.nextFrame strm is_server_ maxPayloadLength with
        | none => exact .fail (.single .shut) rfl
        | some r =>
            obtain ⟨f, ws'⟩ := r
            obtain ⟨-, -, hclosed'⟩ := nextFrame_spec hnext
            obtain ⟨htake, hcontrol⟩ := nextFrame_step hnext
            have hopen' : ws'.closed_ = false :=
              hclosed'.trans (Bool.eq_false_of_not_eq_true hclosed)
            dsimp only
            cases hopcode : f.opcode <;> dsimp only
            case ping =>
                have hshort : f.payload.length ≤ 125 := hcontrol (by rw [hopcode]; decide)
                exact ih.after (.head htake (.single (.pong _ hopen' hshort)))
            case pong => exact ih.after (.single htake)
            case close =>
                have hshort : f.payload.length ≤ 125 := hcontrol (by rw [hopcode]; decide)
                exact .fail (.head htake (.single (.close _ hopen' hshort))) rfl
            case text => exact (readMessage_ran hopen').after (.single htake)
            case binary => exact (readMessage_ran hopen').after (.single htake)
            all_goals exact .fail (.head htake (.single .shut)) rfl

/-- **A call of `read`** takes steps, and leaves the connection open unless it fails. -/
lemma read_ran (strm : Supply UInt8 σ) (is_server_ : Bool) (ws : WebSocket σ) :
    Ran strm is_server_ ((ws.read strm is_server_).1 = .fail) ws (ws.read strm is_server_).2 :=
  readLoop_ran

/-! ### What it returns -/

lemma drain_closed : ∀ {n : ℕ} {ws : WebSocket σ},
    (ws.drain strm is_server_ n).closed_ = ws.closed_ := by
  intro n
  induction n with
  | zero => exact rfl
  | succ n ih =>
      intro ws
      rw [drain]
      cases hnext : ws.nextFrame strm is_server_ 125 with
      | none => rfl
      | some r =>
          obtain ⟨f, ws'⟩ := r
          have hclosed := (nextFrame_spec hnext).2.2
          dsimp only
          split_ifs
          · exact hclosed
          · exact ih.trans hclosed

/-- What a call of `read` returns. -/
def Returned : ReadResult × WebSocket σ → Prop
  | (.fail, ws) => ws.closed_ = true
  | (.text msg, _) => ValidUtf8 msg ∧ msg.length ≤ maxPayloadLength
  | (.binary msg, _) => msg.length ≤ maxPayloadLength

lemma returned_finish {n : ℕ} {isText : Bool} {msg : Bytes} (h : msg.length ≤ maxPayloadLength)
    (ws : WebSocket σ) : Returned (ws.finish strm is_server_ n isText msg) := by
  rw [finish]
  split_ifs with htext hvalid
  · exact ⟨(is_valid_utf8_iff msg).mp hvalid, h⟩
  · show (ws.close strm is_server_ n _ _).closed_ = true
    rw [close]
    split_ifs with hclosed
    · exact hclosed
    · exact drain_closed
  · exact h

lemma returned_readMessage {n : ℕ} {isText : Bool} (hf : f.payload.length ≤ maxPayloadLength)
    (hn : ws.size strm < n) : Returned (ws.readMessage strm is_server_ n isText f) := by
  rw [readMessage]
  split_ifs
  · exact returned_finish hf ws
  · have hends : RestEnds strm n (ws.readRest strm is_server_ n f.payload) :=
      readRest_ends f.payload hn
    rcases hrest : ws.readRest strm is_server_ n f.payload with ⟨_ | msg, ws'⟩
    · rw [hrest] at hends
      exact hends
    · rw [hrest] at hends
      exact returned_finish hends.1 ws'

lemma returned_readLoop : ∀ {n : ℕ} {ws : WebSocket σ}, ws.size strm < n →
    Returned (ws.readLoop strm is_server_ n) := by
  intro n
  induction n with
  | zero => exact fun h => absurd h (Nat.not_lt_zero _)
  | succ n ih =>
      intro ws hn
      rw [readLoop]
      split_ifs with hclosed
      · exact hclosed
      · cases hnext : ws.nextFrame strm is_server_ maxPayloadLength with
        | none => exact rfl
        | some r =>
            obtain ⟨f, ws'⟩ := r
            obtain ⟨hless, hshort, -⟩ := nextFrame_spec hnext
            have hmore : ∀ {ws'' : WebSocket σ}, ws''.size strm = ws'.size strm →
                Returned (ws''.readLoop strm is_server_ n) := fun hsize => ih (by omega)
            dsimp only
            cases f.opcode <;> dsimp only
            case ping => exact hmore rfl
            case pong => exact hmore rfl
            case text => exact returned_readMessage hshort (by omega)
            case binary => exact returned_readMessage hshort (by omega)
            all_goals exact rfl

end WebSocket

/-- **Whatever arrives**, a text that is read is valid UTF-8, no message is too long, and when
`read` fails the connection is closed. -/
theorem read_sound (strm : Supply UInt8 σ) (is_server_ : Bool) (ws : WebSocket σ) :
    WebSocket.Returned (ws.read strm is_server_) :=
  WebSocket.returned_readLoop (Nat.lt_succ_self _)

/-! ### Messages that are sent -/

/-- A frame between those of messages. -/
inductive Control where
  | ping (payload : Bytes)
  | pong (payload : Bytes)

namespace Control

def payload : Control → Bytes
  | ping payload => payload
  | pong payload => payload

def frame : Control → Frame
  | ping payload => ⟨true, .ping, payload⟩
  | pong payload => ⟨true, .pong, payload⟩

/-- A ping is answered with its payload. -/
def answer : Control → List Frame
  | ping payload => [⟨true, .pong, payload⟩]
  | pong _ => []

end Control

/-- A message: what comes in front of it, its first part, and the other ones with what comes in
front of each. -/
structure Sent where
  before : List Control
  isText : Bool
  first : Bytes
  rest : List (List Control × Bytes)

namespace Sent

/-- The frames of the other parts. -/
def restFrames : List (List Control × Bytes) → List Frame
  | [] => []
  | (controls, part) :: rest =>
      controls.map Control.frame ++ ⟨rest.isEmpty, .continuation, part⟩ :: restFrames rest

/-- The frames of a message. -/
def frames (m : Sent) : List Frame :=
  m.before.map Control.frame ++
    ⟨m.rest.isEmpty, if m.isText then .text else .binary, m.first⟩ :: restFrames m.rest

def payload (m : Sent) : Bytes := m.first ++ m.rest.flatMap Prod.snd

/-- The pongs that are owed for it. -/
def answers (m : Sent) : List Frame :=
  m.before.flatMap Control.answer ++ m.rest.flatMap fun part => part.1.flatMap Control.answer

/-- What the reader returns. -/
def result (m : Sent) : ReadResult := if m.isText then .text m.payload else .binary m.payload

/-- A message that the reader accepts. -/
structure Fits (m : Sent) : Prop where
  valid : m.isText = true → ValidUtf8 m.payload
  short : m.payload.length ≤ maxPayloadLength
  controls : ∀ control ∈ m.before ++ m.rest.flatMap Prod.fst, control.payload.length ≤ 125

/-- A frame between messages. -/
lemma legal_control {control : Control} (h : control.payload.length ≤ 125) :
    control.frame.Legal maxPayloadLength := by
  have hmax : 125 ≤ maxPayloadLength ∧ 125 < 2 ^ 63 := by decide
  cases control <;>
    exact ⟨fun code hcode => (by cases hcode), fun _ => ⟨rfl, h⟩, h.trans hmax.1,
      lt_of_le_of_lt h hmax.2⟩

/-- A frame of a message. -/
lemma legal_part {fin : Bool} {opcode : Opcode} {part : Bytes}
    (hopcode : opcode = .text ∨ opcode = .binary ∨ opcode = .continuation)
    (h : part.length ≤ maxPayloadLength) : (Frame.mk fin opcode part).Legal maxPayloadLength := by
  have hmax : maxPayloadLength < 2 ^ 63 := by decide
  have hdata : opcode.code &&& 0x08 = 0 := by rcases hopcode with rfl | rfl | rfl <;> rfl
  refine ⟨fun code hcode => ?_, fun hcontrol => absurd hdata hcontrol, h, lt_of_le_of_lt h hmax⟩
  rcases hopcode with rfl | rfl | rfl <;> cases hcode

lemma legal_restFrames : ∀ {rest : List (List Control × Bytes)},
    (∀ part ∈ rest, part.2.length ≤ maxPayloadLength) →
    (∀ control ∈ rest.flatMap Prod.fst, control.payload.length ≤ 125) →
    ∀ f ∈ restFrames rest, f.Legal maxPayloadLength := by
  intro rest
  induction rest with
  | nil => exact fun _ _ => List.forall_mem_nil _
  | cons part rest ih =>
      intro hparts hcontrols
      obtain ⟨hpart, hparts⟩ := List.forall_mem_cons.mp hparts
      rw [List.flatMap_cons, List.forall_mem_append] at hcontrols
      refine List.forall_mem_append.mpr ⟨?_, List.forall_mem_cons.mpr ⟨?_, ih hparts hcontrols.2⟩⟩
      · exact List.forall_mem_map.mpr fun control hc => legal_control (hcontrols.1 control hc)
      · exact legal_part (Or.inr (Or.inr rfl)) hpart

/-- **A message that the reader accepts** comes in frames that a peer may write. -/
lemma Fits.legal {m : Sent} (h : m.Fits) : ∀ f ∈ m.frames, f.Legal maxPayloadLength := by
  have hlength := h.short
  rw [payload, List.length_append] at hlength
  have hcontrols := List.forall_mem_append.mp h.controls
  have hparts : ∀ part ∈ m.rest, part.2.length ≤ maxPayloadLength := fun part hpart => by
    have hpart := List.mem_map_of_mem (f := Prod.snd) hpart
    have hpart := (List.sublist_flatten_of_mem hpart).length_le
    rw [← List.flatMap_def] at hpart
    omega
  refine List.forall_mem_append.mpr ⟨?_, List.forall_mem_cons.mpr
    ⟨legal_part ?_ (by omega), legal_restFrames hparts hcontrols.2⟩⟩
  · exact List.forall_mem_map.mpr fun control hc => legal_control (hcontrols.1 control hc)
  · cases m.isText
    · exact Or.inr (Or.inl rfl)
    · exact Or.inl rfl

end Sent

/-- The frames can be read one after the other. -/
def Delivers (strm : Supply UInt8 σ) (is_server_ : Bool) : List Frame → σ → σ → Prop
  | [], s, s' => s = s'
  | f :: fs, s, s' =>
      ∃ s₁, readFrame strm is_server_ maxPayloadLength s = some (f, s₁) ∧
        Delivers strm is_server_ fs s₁ s'

namespace WebSocket

variable {strm : Supply UInt8 σ} {is_server_ : Bool} {ws : WebSocket σ} {s' : σ}

/-- Further on, with more frames written. -/
def after (ws : WebSocket σ) (s' : σ) (fs : List Frame) : WebSocket σ :=
  { ws with strm_ := s', written := ws.written ++ fs }

lemma after_after {s s' : σ} (fs gs : List Frame) :
    (ws.after s fs).after s' gs = ws.after s' (fs ++ gs) := by
  rw [after, after, after, List.append_assoc]

end WebSocket

variable {is_server_ : Bool}

/-- Legal frames can be read where there is nothing behind them. -/
lemma delivers_flat : ∀ {fs : List (Option MaskKey × Frame)},
    (∀ f ∈ fs, f.1.isSome = is_server_ ∧ f.2.Legal maxPayloadLength) →
    Delivers (flat UInt8) is_server_ (fs.map Prod.snd) (wire fs) [] := by
  intro fs
  induction fs with
  | nil => exact fun _ => rfl
  | cons f fs ih =>
      intro hfs
      obtain ⟨⟨hmask, hlegal⟩, hfs⟩ := List.forall_mem_cons.mp hfs
      have hread := readFrame_flat f.1 hlegal (wire fs)
      rw [hmask] at hread
      exact ⟨_, hread, ih hfs⟩

/-- And where they have arrived. -/
lemma Arrived.delivers {fs : List (Option MaskKey × Frame)} {s : SocketStream}
    (h : Arrived headSize (fun f => encode f.1 f.2) fs s) :
    (∀ f ∈ fs, f.1.isSome = is_server_ ∧ f.2.Legal maxPayloadLength) →
    ∃ s', Delivers socketStream is_server_ (fs.map Prod.snd) s s' ∧ s'.left = [] := by
  induction h with
  | done found => exact fun _ => ⟨_, rfl, rfl⟩
  | next f hfresh _ ih =>
      intro hfs
      obtain ⟨⟨hmask, hlegal⟩, hfs⟩ := List.forall_mem_cons.mp hfs
      obtain ⟨s', hdelivers, hleft⟩ := ih hfs
      have hread := readFrame_fresh hlegal hfresh
      rw [hmask] at hread
      exact ⟨s', ⟨_, hread, hdelivers⟩, hleft⟩

lemma Delivers.append {strm : Supply UInt8 σ} {is_server_ : Bool} :
    ∀ {fs gs : List Frame} {s s' : σ},
    Delivers strm is_server_ (fs ++ gs) s s' →
    ∃ s₁, Delivers strm is_server_ fs s s₁ ∧ Delivers strm is_server_ gs s₁ s' := by
  intro fs
  induction fs with
  | nil => exact fun h => ⟨_, rfl, h⟩
  | cons f fs ih =>
      rintro gs s s' ⟨s₁, hread, hrest⟩
      obtain ⟨s₂, hfs, hgs⟩ := ih hrest
      exact ⟨s₂, ⟨s₁, hread, hfs⟩, hgs⟩

/-- There is no more to read behind the frames. -/
lemma Delivers.size {strm : Supply UInt8 σ} {is_server_ : Bool} : ∀ {fs : List Frame} {s s' : σ},
    Delivers strm is_server_ fs s s' → (strm.left s').length ≤ (strm.left s).length := by
  intro fs
  induction fs with
  | nil => exact fun h => (congrArg (fun s => (strm.left s).length) h).ge
  | cons f fs ih =>
      rintro s s' ⟨s₁, hread, hrest⟩
      have hleft := readFrame_left hread
      have hlater := ih hrest
      omega

namespace WebSocket

variable {strm : Supply UInt8 σ} {is_server_ : Bool} {ws : WebSocket σ} {s' : σ}

lemma nextFrame_of_read {f : Frame} {max_len : ℕ}
    (h : readFrame strm is_server_ max_len ws.strm_ = some (f, s')) :
    ws.nextFrame strm is_server_ max_len = some (f, { ws with strm_ := s' }) := by
  rw [nextFrame, h]
  rfl

/-- **Pings and pongs** are skipped by any loop that answers them and goes on. -/
lemma skip_controls {ρ : Type} (loop : ℕ → WebSocket σ → ρ)
    (hfuel : ∀ {n m ws}, ws.size strm < n → ws.size strm < m → loop n ws = loop m ws)
    (hloop : ∀ n ws (control : Control) s₁, ws.closed_ = false →
      readFrame strm is_server_ maxPayloadLength ws.strm_ = some (control.frame, s₁) →
      loop (n + 1) ws = loop n (ws.after s₁ control.answer)) {n : ℕ} :
    ∀ {controls : List Control} {ws : WebSocket σ},
      Delivers strm is_server_ (controls.map Control.frame) ws.strm_ s' → ws.closed_ = false →
      ws.size strm < n → loop n ws = loop n (ws.after s' (controls.flatMap Control.answer)) := by
  intro controls
  induction controls with
  | nil =>
      intro ws hdelivers _ _
      obtain rfl : ws.strm_ = s' := hdelivers
      rw [after, List.flatMap_nil, List.append_nil]
  | cons control controls ih =>
      rintro ws ⟨s₁, hread, hrest⟩ hopen hn
      obtain ⟨m, rfl⟩ := Nat.exists_eq_add_one_of_ne_zero (Nat.ne_zero_of_lt hn)
      have hsize : (ws.after s₁ control.answer).size strm < m :=
        Nat.lt_of_lt_of_le (nextFrame_spec (nextFrame_of_read hread)).1 (Nat.le_of_lt_succ hn)
      calc loop (m + 1) ws
          = loop m (ws.after s₁ control.answer) := hloop m ws control s₁ hopen hread
        _ = loop (m + 1) (ws.after s₁ control.answer) := hfuel hsize (Nat.lt_succ_of_lt hsize)
        _ = loop (m + 1) ((ws.after s₁ control.answer).after s'
              (controls.flatMap Control.answer)) := ih hrest hopen (Nat.lt_succ_of_lt hsize)
        _ = loop (m + 1) (ws.after s' ((control :: controls).flatMap Control.answer)) := by
          rw [after_after, List.flatMap_cons]

lemma readRest_controls {n : ℕ} {msg : Bytes} {controls : List Control}
    (h : Delivers strm is_server_ (controls.map Control.frame) ws.strm_ s')
    (hopen : ws.closed_ = false) (hn : ws.size strm < n) : ws.readRest strm is_server_ n msg =
      (ws.after s' (controls.flatMap Control.answer)).readRest strm is_server_ n msg := by
  refine skip_controls (fun n ws => ws.readRest strm is_server_ n msg) readRest_fuel ?_ h hopen hn
  intro n ws control s₁ _ hread
  show ws.readRest strm is_server_ (n + 1) msg = _
  rw [readRest, nextFrame_of_read hread]
  cases control with
  | ping payload => rfl
  | pong payload =>
      show WebSocket.readRest strm is_server_ n msg { ws with strm_ := s₁ } = _
      rw [Control.answer, after, List.append_nil]

lemma readLoop_controls {n : ℕ} {controls : List Control}
    (h : Delivers strm is_server_ (controls.map Control.frame) ws.strm_ s')
    (hopen : ws.closed_ = false) (hn : ws.size strm < n) : ws.readLoop strm is_server_ n =
      (ws.after s' (controls.flatMap Control.answer)).readLoop strm is_server_ n := by
  refine skip_controls (fun n ws => ws.readLoop strm is_server_ n) readLoop_fuel ?_ h hopen hn
  intro n ws control s₁ hopen hread
  show ws.readLoop strm is_server_ (n + 1) = _
  rw [readLoop, if_neg (by rw [hopen]; exact Bool.false_ne_true), nextFrame_of_read hread]
  cases control with
  | ping payload => rfl
  | pong payload =>
      show WebSocket.readLoop strm is_server_ n { ws with strm_ := s₁ } = _
      rw [Control.answer, after, List.append_nil]

/-- The other parts of a message. -/
lemma readRest_sent {n : ℕ} : ∀ {rest : List (List Control × Bytes)} {msg : Bytes}
    {ws : WebSocket σ}, rest ≠ [] →
    Delivers strm is_server_ (Sent.restFrames rest) ws.strm_ s' → ws.closed_ = false →
    (msg ++ rest.flatMap Prod.snd).length ≤ maxPayloadLength → ws.size strm < n →
    ws.readRest strm is_server_ n msg = (some (msg ++ rest.flatMap Prod.snd),
      ws.after s' (rest.flatMap fun part => part.1.flatMap Control.answer)) := by
  intro rest
  induction rest with
  | nil => exact fun h => absurd rfl h
  | cons part rest ih =>
      obtain ⟨controls, part⟩ := part
      intro msg ws _ hdelivers hopen hshort hn
      obtain ⟨s₁, hcontrols, s₂, hread, hrest⟩ := hdelivers.append
      obtain ⟨m, rfl⟩ := Nat.exists_eq_add_one_of_ne_zero (Nat.ne_zero_of_lt hn)
      have hsize : (strm.left s₁).length ≤ ws.size strm := hcontrols.size
      rw [List.flatMap_cons, ← List.append_assoc] at hshort
      have hlength : ¬ maxPayloadLength < (msg ++ part).length := by
        rw [List.length_append] at hshort
        exact Nat.not_lt.mpr (le_of_add_le_left hshort)
      let ws₁ := ws.after s₁ (controls.flatMap Control.answer)
      have hnext : ws₁.nextFrame strm is_server_ maxPayloadLength = _ := nextFrame_of_read hread
      have hless : (strm.left s₂).length < (strm.left s₁).length := (nextFrame_spec hnext).1
      rw [readRest_controls hcontrols hopen hn, readRest, hnext]
      dsimp only
      rw [if_neg hlength]
      cases hrest' : rest with
      | nil =>
          subst hrest'
          obtain rfl : s₂ = s' := hrest
          rw [List.isEmpty_nil, if_pos rfl, List.flatMap_singleton, List.flatMap_singleton]
          rfl
      | cons part' rest' =>
          have hne : rest ≠ [] := hrest' ▸ List.cons_ne_nil part' rest'
          have hlast : ¬ (part' :: rest').isEmpty = true := Bool.false_ne_true
          let ws₂ : WebSocket σ := { ws₁ with strm_ := s₂ }
          have hn₁ : ws₂.size strm < m := by
            show (strm.left s₂).length < m
            omega
          have hn₂ : ws₂.size strm < m + 1 := Nat.lt_succ_of_lt hn₁
          have hmore : ws₂.readRest strm is_server_ (m + 1) (msg ++ part) = _ :=
            ih hne hrest hopen hshort hn₂
          rw [if_neg hlast, readRest_fuel hn₁ hn₂, hmore, ← hrest', List.flatMap_cons,
            List.flatMap_cons, ← List.append_assoc, ← after_after (s := s₁)]
          rfl

/-- A message that is accepted. -/
lemma finish_sent {n : ℕ} {m : Sent} (h : m.Fits) (ws : WebSocket σ) :
    ws.finish strm is_server_ n m.isText m.payload = (m.result, ws) := by
  rw [finish, Sent.result]
  split_ifs with htext hvalid
  · rfl
  · exact absurd ((is_valid_utf8_iff m.payload).mpr (h.valid htext)) hvalid
  · rfl

/-- A message behind what comes in front of it. -/
lemma readMessage_sent {n : ℕ} {m : Sent} (h : m.Fits)
    (hdelivers : Delivers strm is_server_ (Sent.restFrames m.rest) ws.strm_ s')
    (hopen : ws.closed_ = false) (hn : ws.size strm < n) {opcode : Opcode} :
    ws.readMessage strm is_server_ n m.isText ⟨m.rest.isEmpty, opcode, m.first⟩ =
      (m.result, ws.after s' (m.rest.flatMap fun part => part.1.flatMap Control.answer)) := by
  rw [readMessage]
  by_cases hrest : m.rest = []
  · have hpayload : m.payload = m.first := by
      rw [Sent.payload, hrest, List.flatMap_nil, List.append_nil]
    rw [hrest] at hdelivers
    obtain rfl : ws.strm_ = s' := hdelivers
    rw [hrest, List.isEmpty_nil, if_pos rfl, ← hpayload, finish_sent h, List.flatMap_nil, after,
      List.append_nil]
  · rw [if_neg (fun hempty => hrest (List.isEmpty_iff.mp hempty)),
      readRest_sent hrest hdelivers hopen h.short hn]
    exact finish_sent h _

end WebSocket

/-- **A message is read as it was sent**, in however many frames, and the pings around them are
answered. -/
lemma read_sent {strm : Supply UInt8 σ} {is_server_ : Bool} {ws : WebSocket σ} {s' : σ} {m : Sent}
    (h : m.Fits) (hdelivers : Delivers strm is_server_ m.frames ws.strm_ s')
    (hopen : ws.closed_ = false) :
    ws.read strm is_server_ = (m.result, ws.after s' m.answers) := by
  obtain ⟨s₁, hcontrols, s₂, hread, hrest⟩ := hdelivers.append
  let ws₁ := ws.after s₁ (m.before.flatMap Control.answer)
  have hnext : ws₁.nextFrame strm is_server_ maxPayloadLength = _ :=
    WebSocket.nextFrame_of_read hread
  have hless : (strm.left s₂).length < (strm.left s₁).length :=
    (WebSocket.nextFrame_spec hnext).1
  have hsize : (strm.left s₁).length ≤ (strm.left ws.strm_).length := hcontrols.size
  let ws₂ : WebSocket σ := { ws₁ with strm_ := s₂ }
  have hloop : ws₁.readLoop strm is_server_ ((strm.left ws.strm_).length + 1) =
      ws₂.readMessage strm is_server_ (strm.left ws.strm_).length m.isText
        ⟨m.rest.isEmpty, if m.isText then .text else .binary, m.first⟩ := by
    have hopen₁ : ¬ ws₁.closed_ = true := by
      show ¬ ws.closed_ = true
      rw [hopen]
      exact Bool.false_ne_true
    rw [WebSocket.readLoop, if_neg hopen₁, hnext]
    cases m.isText <;> rfl
  have hn : ws.size strm < (strm.left ws.strm_).length + 1 := Nat.lt_succ_self _
  have hn₂ : ws₂.size strm < (strm.left ws.strm_).length := Nat.lt_of_lt_of_le hless hsize
  rw [WebSocket.read, WebSocket.readLoop_controls hcontrols hopen hn, hloop,
    ws₂.readMessage_sent h hrest hopen hn₂, Sent.answers, ← WebSocket.after_after (s := s₁)]
  rfl

end Ws

end RasPiZeroCam
