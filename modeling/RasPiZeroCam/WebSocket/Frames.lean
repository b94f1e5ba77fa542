import RasPiZeroCam.WebSocket.Socket

/-!
The frames of a WebSocket connection.

* `Opcode`, `Frame`: what a frame carries.
* `writeFrame`: `write_websocket_frame`, as the calls of `write` it makes; `putFrames`: what the
  frames of a connection put on the wire, where these fail or are cut short or not.
* `readFrame`: `read_websocket_frame`, from any supply of bytes.
* `Frame.Legal`: the frames that a peer may write, which the reader gives back.
* `frames_read_back`: however the bytes of the frames arrive, the frames that are read are the first
  of those that were written; and all of them, where each is next when those before have been read.
-/

namespace RasPiZeroCam

namespace Ws

open Codes

/-- `ws::Opcode`, which the four bits of a frame are cast to. -/
inductive Opcode where
  | continuation
  | text
  | binary
  | close
  | ping
  | pong
  | reserved (code : UInt8)
  deriving DecidableEq

/-- `static_cast<uint8_t>(opcode)`. -/
def Opcode.code : Opcode → UInt8
  | continuation => 0x0
  | text => 0x1
  | binary => 0x2
  | close => 0x8
  | ping => 0x9
  | pong => 0xA
  | reserved code => code

/-- `static_cast<Opcode>(code)`. -/
def Opcode.ofCode (code : UInt8) : Opcode :=
  if code = 0x0 then continuation
  else if code = 0x1 then text
  else if code = 0x2 then binary
  else if code = 0x8 then close
  else if code = 0x9 then ping
  else if code = 0xA then pong
  else reserved code

/-- A frame. -/
structure Frame where
  fin : Bool
  opcode : Opcode
  payload : Bytes
  deriving DecidableEq

/-- The four bytes of the mask, drawn at random for every frame of a client. -/
abbrev MaskKey := Fin 4 → UInt8

/-- The `i`-th byte of a payload and of the mask, `i` counted from `offset`. -/
def maskFrom (key : MaskKey) (offset : ℕ) (data : Bytes) : Bytes :=
  data.mapIdx fun i b => b ^^^ key ⟨(offset + i) % 4, Nat.mod_lt _ (Nat.succ_pos 3)⟩

/-! ### Writing a frame -/

/-- The length of an array of bytes on the wire, the highest byte first. -/
def lengthBytes (n len : ℕ) : Bytes :=
  (List.range n).reverse.map fun i => UInt8.ofNat ((len >>> (i * 8)) &&& 0xFF)

/-- The payload of a client, in chunks of 4096 bytes. -/
def maskedChunks (key : MaskKey) (data : Bytes) : List Bytes :=
  (List.range ((data.length + 4095) / 4096)).map fun j =>
    maskFrom key (4096 * j) ((data.drop (4096 * j)).take 4096)

/-- `write_websocket_frame(strm, opcode, data, len, fin, mask)`: what is written, call by call. -/
def writeFrame (f : Frame) (mask : Option MaskKey) : List Bytes :=
  let header₀ : UInt8 := (if f.fin then 0x80 else 0x00) ||| (f.opcode.code &&& 0x0F)
  let bit : UInt8 := if mask.isSome then 0x80 else 0x00
  let len := f.payload.length
  (if len < 126 then [[header₀, UInt8.ofNat len ||| bit]]
    else if len ≤ 0xFFFF then [[header₀, 126 ||| bit], lengthBytes 2 len]
    else [[header₀, 127 ||| bit], lengthBytes 8 len]) ++
  match mask with
  | some key => List.ofFn key :: maskedChunks key f.payload
  | none => if 0 < len then [f.payload] else []

/-- The bytes of a frame. -/
def encode (mask : Option MaskKey) (f : Frame) : Bytes := (writeFrame f mask).flatten

example : encode none ⟨true, .text, ascii "ok"⟩ = [0x81, 0x02, 0x6F, 0x6B] := rfl

/-- What a call of `strm.write` does. -/
inductive WriteOutcome where
  | full              -- it takes all of its bytes
  | short (n : ℕ)     -- it takes `n` bytes at most, which is not looked at
  | fail              -- it returns a negative number
  deriving DecidableEq

/-- What the calls of a frame put on the wire, up to one that fails, and the outcomes of the later
ones; those behind the list are full. -/
def putCalls : List WriteOutcome → List Bytes → Bytes × List WriteOutcome
  | outcomes, [] => ([], outcomes)
  | [], calls => (calls.flatten, [])
  | .full :: outcomes, b :: calls =>
      let (bytes, outcomes) := putCalls outcomes calls
      (b ++ bytes, outcomes)
  | .short n :: outcomes, b :: calls =>
      let (bytes, outcomes) := putCalls outcomes calls
      (b.take n ++ bytes, outcomes)
  | .fail :: outcomes, _ :: _ => ([], outcomes)

/-- What the frames of a server put on the wire: each is begun, whatever has become of those before
it. -/
def putFrames : List WriteOutcome → List Frame → Bytes
  | _, [] => []
  | outcomes, f :: fs =>
      let (bytes, outcomes) := putCalls outcomes (writeFrame f none)
      bytes ++ putFrames outcomes fs

-- a cut header, and the next frame behind it
example : putFrames [.short 1, .full] [⟨true, .pong, []⟩, ⟨true, .pong, []⟩] =
    [0x8A, 0x8A, 0x00] := rfl

lemma putCalls_full : ∀ (calls : List Bytes) {outcomes : List WriteOutcome},
    (∀ r ∈ outcomes, r = .full) → (putCalls outcomes calls).1 = calls.flatten ∧
      ∀ r ∈ (putCalls outcomes calls).2, r = .full := by
  intro calls
  induction calls with
  | nil =>
      intro outcomes hfull
      cases outcomes <;> exact ⟨rfl, hfull⟩
  | cons b calls ih =>
      intro outcomes hfull
      cases outcomes with
      | nil => exact ⟨rfl, List.forall_mem_nil _⟩
      | cons r outcomes =>
          obtain ⟨rfl, hrest⟩ := List.forall_mem_cons.mp hfull
          obtain ⟨hput, hlater⟩ := ih hrest
          exact ⟨congrArg (b ++ ·) hput, hlater⟩

/-- **Where every call takes all of its bytes**, the wire has the bytes of the frames. -/
lemma putFrames_full : ∀ (fs : List Frame) {outcomes : List WriteOutcome},
    (∀ r ∈ outcomes, r = .full) → putFrames outcomes fs = fs.flatMap (encode none) := by
  intro fs
  induction fs with
  | nil => exact fun _ => rfl
  | cons f fs ih =>
      intro outcomes hfull
      obtain ⟨hput, hlater⟩ := putCalls_full (writeFrame f none) hfull
      rw [putFrames, List.flatMap_cons, ← ih hlater]
      exact congrArg (· ++ _) hput

/-! ### Reading a frame -/

variable {σ : Type}

/-- `payload_len = (payload_len << 8) | ext[i]`, over the bytes of `ext`. -/
def lengthOf (ext : Bytes) : ℕ := ext.foldl (fun payload_len b => payload_len <<< 8 ||| b.toNat) 0

/-- The extended payload length. -/
def readLength (strm : Supply UInt8 σ) (payload_len : ℕ) : StateT σ Option ℕ :=
  if payload_len = 126 then do
    let ext ← strm.exactly 2
    pure (lengthOf ext)
  else if payload_len = 127 then do
    let ext ← strm.exactly 8
    if ext.headD 0 &&& 0x80 ≠ 0 then fun _ => none else pure (lengthOf ext)
  else pure payload_len

/-- The mask key, if there is one, and the payload. -/
def readPayload (strm : Supply UInt8 σ) (masked : Bool) (payload_len : ℕ) : StateT σ Option Bytes :=
  if masked then do
    let mask_key ← strm.exactly 4
    let payload ← strm.fully payload_len payload_len
    pure (maskFrom (fun i => mask_key.getD i 0) 0 payload)
  else strm.fully payload_len payload_len

lemma readPayload_length {strm : Supply UInt8 σ} {masked : Bool} {len : ℕ} {s s' : σ}
    {payload : Bytes} (h : readPayload strm masked len s = some (payload, s')) :
    payload.length = len := by
  rw [readPayload] at h
  split_ifs at h
  · obtain ⟨⟨key, s₁⟩, -, hrest⟩ := Option.bind_eq_some_iff.mp h
    obtain ⟨⟨bytes, s₂⟩, hbytes, hmask⟩ := Option.bind_eq_some_iff.mp hrest
    obtain ⟨rfl, -⟩ := Prod.mk.inj (Option.some.inj hmask)
    rw [maskFrom, List.length_mapIdx]
    exact strm.fully_length hbytes
  · exact strm.fully_length h

/-- What `read_websocket_frame` reads behind the two bytes of the header.  What it refuses, it
refuses one by one, before it reads on. -/
def readBody (strm : Supply UInt8 σ) (expect_masked : Bool) (max_len : ℕ) (header : Bytes) :
    StateT σ Option Frame :=
  let fin := header.getD 0 0 &&& 0x80 ≠ 0
  let opcode := Opcode.ofCode (header.getD 0 0 &&& 0x0F)
  let masked := decide (header.getD 1 0 &&& 0x80 ≠ 0)
  let payload_len := (header.getD 1 0 &&& 0x7F).toNat
  if header.getD 0 0 &&& 0x70 ≠ 0 ∨ (opcode.code &&& 0x08 ≠ 0 ∧ (¬ fin ∨ payload_len > 125)) ∨
      masked ≠ expect_masked then fun _ => none
  else do
    let payload_len ← readLength strm payload_len
    if payload_len > max_len then fun _ => none
    else do
      let payload ← readPayload strm masked payload_len
      pure ⟨fin, opcode, payload⟩

/-- `read_websocket_frame(strm, opcode, payload, fin, expect_masked, max_len)`. -/
def readFrame (strm : Supply UInt8 σ) (expect_masked : Bool) (max_len : ℕ) :
    StateT σ Option Frame :=
  strm.exactly 2 >>= readBody strm expect_masked max_len

/-- The frames of a connection, up to the first that cannot be read. -/
def readFrames (strm : Supply UInt8 σ) (expect_masked : Bool) (max_len : ℕ) : ℕ → σ → List Frame :=
  Supply.readAll (readFrame strm expect_masked max_len)

lemma readBody_refines (strm : Supply UInt8 σ) (expect_masked : Bool) (max_len : ℕ)
    (header : Bytes) : strm.Refines (readBody strm expect_masked max_len header)
      (readBody (flat UInt8) expect_masked max_len header) := by
  refine .ite (.fail _) (.bind ?_ fun len => .ite (.fail _) (.bind ?_ fun payload => .pure _))
  · exact .ite (.bind (.exactly 2) fun ext => .pure _)
      (.ite (.bind (.exactly 8) fun ext => .ite (.fail _) (.pure _)) (.pure _))
  · exact .ite (.bind (.exactly 4) fun key => .bind (.fully len) fun payload => .pure _)
      (.fully len)

/-- **The way the bytes arrive** does not change what is read. -/
lemma readFrame_refines (strm : Supply UInt8 σ) (expect_masked : Bool) (max_len : ℕ) :
    strm.Refines (readFrame strm expect_masked max_len)
      (readFrame (flat UInt8) expect_masked max_len) :=
  .bind (.exactly 2) fun header => readBody_refines strm expect_masked max_len header

/-- A frame takes two bytes at least. -/
lemma readFrame_left {strm : Supply UInt8 σ} {expect_masked : Bool} {max_len : ℕ} {s s' : σ}
    {f : Frame} (h : readFrame strm expect_masked max_len s = some (f, s')) :
    (strm.left s').length + 2 ≤ (strm.left s).length := by
  obtain ⟨⟨header, s₁⟩, hheader, hbody⟩ := Option.bind_eq_some_iff.mp h
  obtain ⟨hlen, hleft⟩ := strm.exactly_eq_some hheader
  have hend := (readBody_refines strm expect_masked max_len header s₁ f s' hbody).1.length_le
  rw [hleft, List.length_append, hlen]
  omega

/-- A payload that is read is not too long. -/
lemma readFrame_short {strm : Supply UInt8 σ} {expect_masked : Bool} {max_len : ℕ} {s s' : σ}
    {f : Frame} (h : readFrame strm expect_masked max_len s = some (f, s')) :
    f.payload.length ≤ max_len := by
  obtain ⟨⟨header, s₁⟩, -, hbody⟩ := Option.bind_eq_some_iff.mp h
  simp only [readBody] at hbody
  split_ifs at hbody
  obtain ⟨⟨len, s₂⟩, -, hrest⟩ := Option.bind_eq_some_iff.mp hbody
  dsimp only at hrest
  split_ifs at hrest with hlong
  obtain ⟨⟨payload, s₃⟩, hpayload, hframe⟩ := Option.bind_eq_some_iff.mp hrest
  obtain ⟨rfl, -⟩ := Prod.mk.inj (Option.some.inj hframe)
  exact (readPayload_length hpayload).le.trans (Nat.le_of_not_lt hlong)

/-- A control frame in one piece, and short. -/
lemma readFrame_control {strm : Supply UInt8 σ} {expect_masked : Bool} {max_len : ℕ}
    {s s' : σ} {f : Frame} (h : readFrame strm expect_masked max_len s = some (f, s'))
    (hcontrol : f.opcode.code &&& 0x08 ≠ 0) : f.payload.length ≤ 125 := by
  obtain ⟨⟨header, s₁⟩, -, hbody⟩ := Option.bind_eq_some_iff.mp h
  simp only [readBody] at hbody
  split_ifs at hbody with hbad
  obtain ⟨⟨len, s₂⟩, hlength, hrest⟩ := Option.bind_eq_some_iff.mp hbody
  dsimp only at hrest
  split_ifs at hrest
  obtain ⟨⟨payload, s₃⟩, hpayload, hframe⟩ := Option.bind_eq_some_iff.mp hrest
  obtain ⟨rfl, -⟩ := Prod.mk.inj (Option.some.inj hframe)
  have hshort : (header.getD 1 0 &&& 0x7F).toNat ≤ 125 :=
    Nat.le_of_not_lt fun hlong => hbad (Or.inr (Or.inl ⟨hcontrol, Or.inr hlong⟩))
  -- the length is the one in the header
  rw [readLength, if_neg (by omega), if_neg (by omega)] at hlength
  obtain ⟨rfl, -⟩ := Prod.mk.inj (Option.some.inj hlength)
  exact (readPayload_length hpayload).le.trans hshort

/-! ### The parts of a frame -/

/-- A frame that a peer may write: an opcode of the enumeration, a control frame in one piece and
short, and a payload that the reader accepts. -/
structure Frame.Legal (max_len : ℕ) (f : Frame) : Prop where
  opcode : ∀ code, f.opcode ≠ .reserved code
  control : f.opcode.code &&& 0x08 ≠ 0 → f.fin = true ∧ f.payload.length ≤ 125
  short : f.payload.length ≤ max_len
  length : f.payload.length < 2 ^ 63

/-- The first byte of a header. -/
lemma header_first {opcode : Opcode} (h : ∀ code, opcode ≠ .reserved code) (fin : Bool) :
    let header₀ : UInt8 := (if fin then 0x80 else 0x00) ||| (opcode.code &&& 0x0F)
    decide (header₀ &&& 0x80 ≠ 0) = fin ∧ header₀ &&& 0x70 = 0 ∧
      Opcode.ofCode (header₀ &&& 0x0F) = opcode := by
  cases opcode
  case reserved code => exact absurd rfl (h code)
  all_goals cases fin <;> exact ⟨rfl, rfl, rfl⟩

/-- The second byte of a header. -/
lemma header_second : ∀ (n : Fin 128) (masked : Bool),
    let header₁ : UInt8 := UInt8.ofNat n ||| if masked then 0x80 else 0x00
    decide (header₁ &&& 0x80 ≠ 0) = masked ∧ (header₁ &&& 0x7F).toNat = n := by
  decide +kernel

/-- A length is read back. -/
lemma foldl_lengthBytes (n len : ℕ) (acc : ℕ) :
    (lengthBytes n len).foldl (fun payload_len b => payload_len <<< 8 ||| b.toNat) acc =
      acc * 256 ^ n + len % 256 ^ n := by
  induction n generalizing acc with
  | zero => rw [pow_zero, Nat.mod_one, Nat.mul_one]; rfl
  | succ n ih =>
      have hcons : lengthBytes (n + 1) len =
          UInt8.ofNat ((len >>> (n * 8)) &&& 0xFF) :: lengthBytes n len := by
        rw [lengthBytes, List.range_succ, List.reverse_append]
        rfl
      have hpow : (2 : ℕ) ^ (n * 8) = 256 ^ n := by rw [mul_comm, pow_mul]; rfl
      have hdigit : (UInt8.ofNat ((len >>> (n * 8)) &&& 0xFF)).toNat = len / 256 ^ n % 256 := by
        rw [UInt8.toNat_ofNat', Nat.shiftRight_eq_div_pow, hpow,
          show (0xFF : ℕ) = 2 ^ 8 - 1 from rfl, Nat.and_two_pow_sub_one_eq_mod, Nat.mod_mod]
      have hlt : (UInt8.ofNat ((len >>> (n * 8)) &&& 0xFF)).toNat < 2 ^ 8 := UInt8.toNat_lt _
      rw [hcons, List.foldl_cons, ih, ← Nat.shiftLeft_add_eq_or_of_lt hlt, Nat.shiftLeft_eq, hdigit,
        Nat.mod_pow_succ, pow_succ]
      ring

lemma lengthOf_lengthBytes {n len : ℕ} (h : len < 256 ^ n) :
    lengthOf (lengthBytes n len) = len := by
  rw [lengthOf, foldl_lengthBytes, Nat.zero_mul, Nat.zero_add, Nat.mod_eq_of_lt h]

/-- The mask takes itself away. -/
lemma maskFrom_maskFrom (key : MaskKey) (data : Bytes) :
    maskFrom key 0 (maskFrom key 0 data) = data := by
  rw [maskFrom, maskFrom, List.mapIdx_mapIdx]
  refine List.ext_getElem (List.length_mapIdx) fun i hi _ => ?_
  simp only [List.getElem_mapIdx, Function.comp_apply]
  rw [UInt8.xor_assoc, UInt8.xor_self, UInt8.xor_zero]

/-- The chunks of a list, one behind the other. -/
lemma flatMap_chunks (l : Bytes) (w n : ℕ) :
    ((List.range n).flatMap fun j => (l.drop (w * j)).take w) = l.take (w * n) := by
  induction n with
  | zero => rfl
  | succ n ih =>
      rw [List.range_succ, List.flatMap_append, ih, List.flatMap_singleton, Nat.mul_succ,
        List.take_add]

/-- A part of what is masked. -/
lemma maskFrom_chunk (key : MaskKey) (data : Bytes) (o n : ℕ) :
    maskFrom key o ((data.drop o).take n) = ((maskFrom key 0 data).drop o).take n := by
  refine List.ext_getElem ?_ fun i hi _ => ?_
  · simp only [maskFrom, List.length_mapIdx, List.length_take, List.length_drop]
  · simp only [maskFrom, List.getElem_mapIdx, List.getElem_take, List.getElem_drop, Nat.zero_add]

lemma flatten_maskedChunks (key : MaskKey) (data : Bytes) :
    (maskedChunks key data).flatten = maskFrom key 0 data := by
  have hlen : (maskFrom key 0 data).length = data.length := List.length_mapIdx
  have hchunk : maskedChunks key data = (List.range ((data.length + 4095) / 4096)).map fun j =>
      ((maskFrom key 0 data).drop (4096 * j)).take 4096 :=
    List.map_congr_left fun j _ => maskFrom_chunk key data (4096 * j) 4096
  rw [hchunk, ← List.flatMap_def, flatMap_chunks, List.take_of_length_le (by omega)]

/-! ### Frames are read back -/

/-- The seven bits of the header that stand for a length. -/
def leadLength (len : ℕ) : ℕ := if len < 126 then len else if len ≤ 0xFFFF then 126 else 127

/-- The bytes that the header is extended by. -/
def extendedLength (len : ℕ) : Bytes :=
  if len < 126 then [] else if len ≤ 0xFFFF then lengthBytes 2 len else lengthBytes 8 len

/-- The mask key, and the payload with the mask. -/
def maskedPayload (mask : Option MaskKey) (payload : Bytes) : Bytes :=
  match mask with
  | some key => List.ofFn key ++ maskFrom key 0 payload
  | none => payload

lemma leadLength_lt (len : ℕ) : leadLength len < 128 := by
  rw [leadLength]
  split_ifs <;> omega

/-- The parts of a frame. -/
lemma encode_eq (mask : Option MaskKey) (f : Frame) : encode mask f =
    [(if f.fin then 0x80 else 0x00) ||| (f.opcode.code &&& 0x0F),
      UInt8.ofNat (leadLength f.payload.length) ||| if mask.isSome then 0x80 else 0x00] ++
    (extendedLength f.payload.length ++ maskedPayload mask f.payload) := by
  have hbody : (match mask with
      | some key => List.ofFn key :: maskedChunks key f.payload
      | none => if 0 < f.payload.length then [f.payload] else []).flatten =
      maskedPayload mask f.payload := by
    cases mask with
    | some key =>
        show List.ofFn key ++ (maskedChunks key f.payload).flatten = _
        rw [flatten_maskedChunks]
        rfl
    | none =>
        show (if 0 < f.payload.length then [f.payload] else []).flatten = f.payload
        split_ifs with hpos
        · exact List.append_nil _
        · exact (List.length_eq_zero_iff.mp (Nat.le_zero.mp (Nat.le_of_not_lt hpos))).symm
  unfold encode writeFrame
  dsimp only
  rw [List.flatten_append, hbody, leadLength, extendedLength, ← List.append_assoc]
  congr 1
  split_ifs <;> rfl

variable {m max_len : ℕ} {s s' : SocketStream}

/-- The length of a payload is read. -/
lemma readLength_ready {len : ℕ} {t : Bytes} (hlen : len < 2 ^ 63)
    (h : Ready m (extendedLength len ++ t) s' s) (hm : 8 ≤ m) :
    ∃ s₁, readLength socketStream (leadLength len) s = some (len, s₁) ∧
      Ready (m - 8) t s' s₁ := by
  rw [extendedLength] at h
  by_cases h₁ : len < 126
  · rw [if_pos h₁] at h
    have hlead : leadLength len = len := if_pos h₁
    rw [hlead, readLength, if_neg (by omega), if_neg (by omega)]
    exact ⟨s, rfl, h.mono (Nat.sub_le _ _)⟩
  · rw [if_neg h₁] at h
    by_cases h₂ : len ≤ 0xFFFF
    · rw [if_pos h₂] at h
      have hlead : leadLength len = 126 := (if_neg h₁).trans (if_pos h₂)
      obtain ⟨s₁, hread, hready⟩ := h.exactly (List.cons_ne_nil _ _) (by
        show 2 ≤ m
        omega)
      refine ⟨s₁, ?_, hready.mono (by show m - 8 ≤ m - 2; omega)⟩
      rw [hlead, readLength, if_pos rfl]
      show (socketStream.exactly (lengthBytes 2 len).length s).bind _ = _
      rw [hread]
      show some (lengthOf (lengthBytes 2 len), s₁) = _
      rw [lengthOf_lengthBytes (by omega)]
    · rw [if_neg h₂] at h
      have hlead : leadLength len = 127 := (if_neg h₁).trans (if_neg h₂)
      obtain ⟨s₁, hread, hready⟩ := h.exactly (List.cons_ne_nil _ _) (by
        show 8 ≤ m
        exact hm)
      refine ⟨s₁, ?_, hready⟩
      have hfirst : (lengthBytes 8 len).headD 0 &&& 0x80 = 0 := by
        have hbyte : (len >>> 56) &&& 0xFF < 128 := by
          refine Nat.lt_of_le_of_lt Nat.and_le_left ?_
          rw [Nat.shiftRight_eq_div_pow]
          omega
        have hall : ∀ n : Fin 128, UInt8.ofNat n &&& 0x80 = 0 := by decide +kernel
        exact hall ⟨_, hbyte⟩
      rw [hlead, readLength, if_neg (by decide), if_pos rfl]
      show (socketStream.exactly (lengthBytes 8 len).length s).bind _ = _
      rw [hread]
      show (if (lengthBytes 8 len).headD 0 &&& 0x80 ≠ 0 then fun _ => none
        else pure (lengthOf (lengthBytes 8 len)) : StateT SocketStream Option ℕ) s₁ = _
      rw [if_neg (not_not.mpr hfirst), lengthOf_lengthBytes (by omega)]
      rfl

/-- The payload is read. -/
lemma readPayload_ready {mask : Option MaskKey} {payload : Bytes}
    (h : Ready m (maskedPayload mask payload) s' s) (hm : 4 ≤ m) :
    readPayload socketStream mask.isSome payload.length s = some (payload, s') := by
  cases mask with
  | none => exact h.fully
  | some key =>
      have hkey : (List.ofFn key).length = 4 := List.length_ofFn
      have hlen : (maskFrom key 0 payload).length = payload.length := List.length_mapIdx
      obtain ⟨s₁, hread, hready⟩ := Ready.exactly h
        (List.ne_nil_of_length_eq_add_one hkey) (by rw [hkey]; exact hm)
      rw [hkey] at hread
      have hfull := hready.fully
      rw [hlen] at hfull
      have hget : (fun i : Fin 4 => (List.ofFn key).getD i 0) = key := by
        funext i
        rw [List.getD_eq_getElem?_getD, List.getElem?_ofFn, dif_pos i.isLt]
        rfl
      show (socketStream.exactly 4 s).bind _ = _
      rw [hread]
      show (socketStream.fully payload.length payload.length s₁).bind _ = _
      rw [hfull]
      show some (maskFrom (fun i : Fin 4 => (List.ofFn key).getD i 0) 0 (maskFrom key 0 payload),
        s') = _
      rw [hget, maskFrom_maskFrom]

/-- A frame, part by part. -/
lemma readFrame_of_parts {f : Frame} {masked : Bool} {header₀ header₁ : UInt8} {len : ℕ}
    {s₁ s₂ : SocketStream} (hheader : socketStream.exactly 2 s = some ([header₀, header₁], s₁))
    (hfin : decide (header₀ &&& 0x80 ≠ 0) = f.fin) (hrsv : header₀ &&& 0x70 = 0)
    (hopcode : Opcode.ofCode (header₀ &&& 0x0F) = f.opcode)
    (hmasked : decide (header₁ &&& 0x80 ≠ 0) = masked)
    (hcontrol : f.opcode.code &&& 0x08 ≠ 0 → f.fin = true ∧ (header₁ &&& 0x7F).toNat ≤ 125)
    (hlength : readLength socketStream (header₁ &&& 0x7F).toNat s₁ = some (len, s₂))
    (hshort : len ≤ max_len)
    (hpayload : readPayload socketStream masked len s₂ = some (f.payload, s')) :
    readFrame socketStream masked max_len s = some (f, s') := by
  have hpass : ¬ (header₀ &&& 0x70 ≠ 0 ∨ ((Opcode.ofCode (header₀ &&& 0x0F)).code &&& 0x08 ≠ 0 ∧
      (¬ header₀ &&& 0x80 ≠ 0 ∨ (header₁ &&& 0x7F).toNat > 125)) ∨
      decide (header₁ &&& 0x80 ≠ 0) ≠ masked) := by
    rintro (hbad | ⟨hcode, hbad⟩ | hbad)
    · exact hbad hrsv
    · rw [hopcode] at hcode
      obtain ⟨hone, hle⟩ := hcontrol hcode
      rw [← hfin, decide_eq_true_eq] at hone
      exact hbad.elim (fun h => h hone) (Nat.not_lt_of_le hle)
    · exact hbad hmasked
  show (socketStream.exactly 2 s).bind _ = _
  rw [hheader]
  refine (congrFun (if_neg hpass) s₁).trans ?_
  show (readLength socketStream (header₁ &&& 0x7F).toNat s₁).bind _ = _
  rw [hlength]
  refine (congrFun (if_neg (Nat.not_lt_of_le hshort)) s₂).trans ?_
  show (readPayload socketStream (decide (header₁ &&& 0x80 ≠ 0)) len s₂).bind _ = _
  rw [hmasked, hpayload]
  show some (Frame.mk (decide (header₀ &&& 0x80 ≠ 0)) (Opcode.ofCode (header₀ &&& 0x0F)) f.payload,
    s') = _
  rw [hfin, hopcode]

/-- What may come before the payload of a frame: the header, the length and the mask key. -/
def headSize : ℕ := 2 + 8 + 4

/-- **A frame is read back** where it is next. -/
lemma readFrame_fresh {mask : Option MaskKey} {f : Frame} (hf : f.Legal max_len)
    (h : Fresh headSize (encode mask f) s' s) :
    readFrame socketStream mask.isSome max_len s = some (f, s') := by
  rw [encode_eq] at h
  obtain ⟨hfin, hrsv, hopcode⟩ := header_first hf.opcode f.fin
  obtain ⟨hmasked, hlead⟩ :=
    header_second ⟨leadLength f.payload.length, leadLength_lt _⟩ mask.isSome
  obtain ⟨s₁, hheader, hready⟩ := h.exactly (List.cons_ne_nil _ _)
    (by show 2 ≤ headSize; decide) (by decide)
  obtain ⟨s₂, hlength, hready₂⟩ := readLength_ready hf.length hready
    (by show 8 ≤ headSize - 2; decide)
  have hpayload := readPayload_ready hready₂ (by show 4 ≤ headSize - 2 - 8; decide)
  refine readFrame_of_parts hheader hfin hrsv hopcode hmasked (fun hcode => ?_) ?_ hf.short hpayload
  · obtain ⟨hone, hle⟩ := hf.control hcode
    have hlen : leadLength f.payload.length = f.payload.length := if_pos (Nat.lt_succ_of_le hle)
    rw [hlead]
    exact ⟨hone, hlen.le.trans hle⟩
  · rw [hlead]
    exact hlength

/-! ### Any number of frames -/

/-- Where nothing is left, no frame is read. -/
lemma readFrame_nil (strm : Supply UInt8 σ) (expect_masked : Bool) (max_len : ℕ) {s : σ}
    (h : strm.left s = []) : readFrame strm expect_masked max_len s = none := by
  have hread : strm.exactly 2 s = none := by
    cases hexactly : strm.exactly 2 s with
    | none => rfl
    | some r =>
        obtain ⟨hlen, hleft⟩ := strm.exactly_eq_some hexactly
        rw [h] at hleft
        rw [(List.append_eq_nil_iff.mp hleft.symm).1] at hlen
        cases hlen
  show (strm.exactly 2 s).bind _ = _
  rw [hread]
  rfl

/-- A frame at the front of what is left. -/
lemma readFrame_flat (mask : Option MaskKey) {f : Frame} (hf : f.Legal max_len) (u : Bytes) :
    readFrame (flat UInt8) mask.isSome max_len (encode mask f ++ u) = some (f, u) := by
  have hfresh : Fresh headSize (encode mask f) ⟨u, ⟨[], []⟩⟩ ⟨encode mask f ++ u, ⟨[], []⟩⟩ :=
    .buffered
  have hread :=
    (readFrame_refines socketStream mask.isSome max_len _ _ _ (readFrame_fresh hf hfresh)).2 []
  have hleft : ∀ bs, socketStream.left ⟨bs, ⟨[], []⟩⟩ = bs := List.append_nil
  rw [hleft, hleft, List.append_nil, List.append_nil] at hread
  exact hread

/-- The bytes of the frames of a peer, with a mask for each if it is a client. -/
def wire (fs : List (Option MaskKey × Frame)) : Bytes := fs.flatMap fun f => encode f.1 f.2

/-- **Wherever the bytes are cut off**, the frames that are read are the first of those written. -/
lemma readFrames_first {fs : List (Option MaskKey × Frame)} {masked : Bool} {max_len : ℕ}
    (hfs : ∀ f ∈ fs, f.1.isSome = masked ∧ f.2.Legal max_len) (n : ℕ) {s : SocketStream}
    (h : s.left <+: wire fs) : readFrames socketStream masked max_len n s <+: fs.map Prod.snd := by
  refine (readFrame_refines socketStream masked max_len).readAll_first
    (readFrame_nil (flat UInt8) masked max_len rfl) n (fun f hf u => ?_) h
  obtain ⟨hmask, hlegal⟩ := hfs f hf
  have hread := readFrame_flat f.1 hlegal u
  rw [hmask] at hread
  exact hread

/-- **The frames of a peer are read back**: however their bytes arrive, and wherever they are cut
off, the frames that are read are the first of those that were written; and all of them, where each
call of `recv` finds whole frames, of 4096 bytes at most, or a part of one frame, the first part
with its head. -/
theorem frames_read_back (fs : List (Option MaskKey × Frame)) (masked : Bool) (max_len : ℕ)
    (hmasked : ∀ f ∈ fs, f.1.isSome = masked) (hlegal : ∀ f ∈ fs, f.2.Legal max_len) :
    (∀ n s, s.left <+: wire fs →
      readFrames socketStream masked max_len n s <+: fs.map Prod.snd) ∧
    ∀ s, Arrived headSize (fun f => encode f.1 f.2) fs s →
      readFrames socketStream masked max_len fs.length s = fs.map Prod.snd := by
  constructor
  · intro n s hleft
    exact readFrames_first (fun f hf => ⟨hmasked f hf, hlegal f hf⟩) n hleft
  · intro s harrived
    refine Supply.readAll_of_held (fun gs s => Arrived headSize (fun f => encode f.1 f.2) gs s ∧
      ∀ f ∈ gs, f.1.isSome = masked ∧ f.2.Legal max_len) ?_ ?_
      ⟨harrived, fun f hf => ⟨hmasked f hf, hlegal f hf⟩⟩ le_rfl
    · rintro f gs s ⟨harrived, hgs⟩
      obtain ⟨hmask, hf⟩ := hgs f List.mem_cons_self
      cases harrived with
      | next _ hfresh hrest =>
          have hread := readFrame_fresh hf hfresh
          rw [hmask] at hread
          exact ⟨_, hread, hrest, fun g hg => hgs g (List.mem_cons_of_mem _ hg)⟩
    · rintro s ⟨harrived, -⟩
      exact readFrame_nil socketStream masked max_len harrived.left

/-- A command of a client, a ping, and the command again. -/
def pingFrames : List (Option MaskKey × Frame) :=
  [(some fun i => UInt8.ofNat i, ⟨true, .text, ascii "\x7b\"cmd\":\"ping\"\x7d"⟩),
    (some fun _ => 7, ⟨true, .ping, ascii "hi"⟩),
    (some fun _ => 9, ⟨true, .text, ascii "\x7b\"cmd\":\"ping\"\x7d"⟩)]

/-- The first is cut, the other ones are found together. -/
def pingSocket : SocketStream := ⟨[], ⟨wire pingFrames, [16, 4, 28]⟩⟩

lemma pingFrames_legal : ∀ f ∈ pingFrames, f.2.Legal 125 := by
  have htext : (Frame.mk true .text (ascii "\x7b\"cmd\":\"ping\"\x7d")).Legal 125 :=
    ⟨fun _ hcode => (by cases hcode), fun hcontrol => absurd rfl hcontrol, by decide, by decide⟩
  have hping : (Frame.mk true .ping (ascii "hi")).Legal 125 :=
    ⟨fun _ hcode => (by cases hcode), fun _ => ⟨rfl, by decide⟩, by decide, by decide⟩
  exact List.forall_mem_cons.mpr ⟨htext, List.forall_mem_cons.mpr ⟨hping,
    List.forall_mem_singleton.mpr htext⟩⟩

lemma pingFrames_arrived : Arrived headSize (fun f => encode f.1 f.2) pingFrames pingSocket := by
  let code := fun f : Option MaskKey × Frame => encode f.1 f.2
  let ping : Option MaskKey × Frame := (some fun _ => 7, ⟨true, .ping, ascii "hi"⟩)
  let last : Option MaskKey × Frame :=
    (some fun _ => 9, ⟨true, .text, ascii "\x7b\"cmd\":\"ping\"\x7d"⟩)
  have hlast : Arrived headSize code [last] ⟨code last ++ [], ⟨[], []⟩⟩ :=
    .next last .buffered (.done [])
  have hping : Arrived headSize code [ping, last]
      ⟨[], ⟨(code ping ++ (code last ++ [])) ++ [], [28]⟩⟩ := by
    have hlen : 28 = (code ping ++ (code last ++ [])).length := by decide
    rw [hlen]
    refine .next ping (.together ?_) hlast
    decide
  rw [List.append_nil] at hping
  refine .next _ (.alone 16 [4] rfl ?_ ?_ ?_ ?_) hping <;> decide

/-- All three are read. -/
theorem frames_read_back_ping : readFrames socketStream true 125 3 pingSocket =
    [⟨true, .text, ascii "\x7b\"cmd\":\"ping\"\x7d"⟩, ⟨true, .ping, ascii "hi"⟩,
      ⟨true, .text, ascii "\x7b\"cmd\":\"ping\"\x7d"⟩] :=
  (frames_read_back pingFrames true 125 (by decide) pingFrames_legal).2 _ pingFrames_arrived

end Ws

end RasPiZeroCam
