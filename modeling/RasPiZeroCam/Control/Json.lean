import RasPiZeroCam.Text

/-!
JSON values as `nlohmann::json` holds them, the accessor `value(key, default)` the command
handlers use, and the serializer behind `dump()`.

* `Json`, `Json.find`, `Json.value`: values, member lookup, and `value` with a string default,
  which throws `type_error` 306 off objects and 302 on a member of another type.
* `Utf8State`, `Utf8State.next`: the decoder the serializer runs over every string.
* `Json.dump`: the compact serialization with the strict error handler.
* `dumpEscaped_isOk_iff`, `dumpString_isOk_iff`: a string is serialized exactly when it is valid
  UTF-8.
-/

namespace RasPiZeroCam

/-- A JSON value.  A floating-point number is kept as its bit pattern; the members of an object
are listed in the order of its `std::map`. -/
inductive Json where
  | null
  | boolean (b : Bool)
  | numberInteger (n : ℤ)
  | numberUnsigned (n : ℕ)
  | numberFloat (bits : UInt64)
  | string (s : Bytes)
  | array (elems : List Json)
  | object (members : List (Bytes × Json))

namespace Json

/-- `type_name()`. -/
def typeName : Json → Bytes
  | null => ascii "null"
  | boolean _ => ascii "boolean"
  | numberInteger _ => ascii "number"
  | numberUnsigned _ => ascii "number"
  | numberFloat _ => ascii "number"
  | string _ => ascii "string"
  | array _ => ascii "array"
  | object _ => ascii "object"

/-- `type_error::create(id, msg)`. -/
def typeError (id : ℕ) (msg : Bytes) : Exception :=
  ⟨ascii "[json.exception.type_error." ++ decimal id ++ ascii "] " ++ msg⟩

/-- `find(key)` on the members of an object. -/
def find (key : Bytes) : List (Bytes × Json) → Option Json
  | [] => none
  | (k, v) :: rest => if k = key then some v else find key rest

/-- `get<std::string>()`. -/
def getString : Json → Except Exception Bytes
  | string s => .ok s
  | j => .error (typeError 302 (ascii "type must be string, but is " ++ j.typeName))

/-- `value(key, default_value)` with a string default. -/
def value (j : Json) (key dflt : Bytes) : Except Exception Bytes :=
  match j with
  | object members =>
      match find key members with
      | some v => v.getString
      | none => .ok dflt
  | j => .error (typeError 306 (ascii "cannot use value() with " ++ j.typeName))

end Json

/-! ### The UTF-8 decoder of the serializer -/

/-- The states of `decode`: `accept` between characters, `reject` after a byte no character
continues with, and the states owing continuation bytes (`s2` to `s8` of the table). -/
inductive Utf8State where
  | accept
  | reject
  | tail1
  | tail2
  | afterE0
  | afterED
  | afterF0
  | tail3
  | afterF4
  deriving DecidableEq, Repr

namespace Utf8State

/-- The state after a continuation byte that has to lie between `lo` and `hi`. -/
def within (lo hi b : UInt8) (q : Utf8State) : Utf8State := if lo ≤ b ∧ b ≤ hi then q else reject

/-- The state after the first byte of a character. -/
def first (b : UInt8) : Utf8State :=
  if b ≤ 0x7F then accept
  else if 0xC2 ≤ b ∧ b ≤ 0xDF then tail1
  else if b = 0xE0 then afterE0
  else if b = 0xED then afterED
  else if 0xE1 ≤ b ∧ b ≤ 0xEF then tail2
  else if b = 0xF0 then afterF0
  else if 0xF1 ≤ b ∧ b ≤ 0xF3 then tail3
  else if b = 0xF4 then afterF4
  else reject

/-- `decode(state, codep, byte)`: one byte of the table walk. -/
def next : Utf8State → UInt8 → Utf8State
  | accept, b => first b
  | reject, _ => reject
  | tail1, b => within 0x80 0xBF b accept
  | tail2, b => within 0x80 0xBF b tail1
  | tail3, b => within 0x80 0xBF b tail2
  | afterE0, b => within 0xA0 0xBF b tail1
  | afterED, b => within 0x80 0x9F b tail1
  | afterF0, b => within 0x90 0xBF b tail2
  | afterF4, b => within 0x80 0x8F b tail2

/-- The state after a byte string. -/
def run (q : Utf8State) (s : Bytes) : Utf8State := s.foldl next q

@[simp] lemma run_nil (q : Utf8State) : q.run [] = q := rfl

@[simp] lemma run_cons (q : Utf8State) (b : UInt8) (s : Bytes) :
    q.run (b :: s) = (q.next b).run s := rfl

/-- No byte leads out of the reject state. -/
lemma run_reject (s : Bytes) : reject.run s = reject := by
  induction s with
  | nil => rfl
  | cons b s ih => rw [run_cons]; exact ih

end Utf8State

/-- Valid UTF-8: the decoder ends between characters. -/
def ValidUtf8 (s : Bytes) : Prop := Utf8State.accept.run s = .accept

instance (s : Bytes) : Decidable (ValidUtf8 s) := inferInstanceAs (Decidable (_ = _))

/-! ### The serializer -/

namespace Json

/-- The bytes `dump_escaped` writes for a byte that completes a character.  Only one-byte
characters are ever escaped, since `ensure_ascii` is off. -/
def escape (q : Utf8State) (b : UInt8) : Bytes :=
  if q = .accept then
    if b = 0x08 then ascii "\\b"
    else if b = 0x09 then ascii "\\t"
    else if b = 0x0A then ascii "\\n"
    else if b = 0x0C then ascii "\\f"
    else if b = 0x0D then ascii "\\r"
    else if b = 0x22 then ascii "\\\""
    else if b = 0x5C then ascii "\\\\"
    else if b ≤ 0x1F then
      ascii "\\u00" ++ (hexByte b).map fun d => if 65 ≤ d then d + 32 else d
    else [b]
  else [b]

/-- `dump_escaped` with the strict error handler, at byte `i` of the string and in decoder state
`q`; `last` is the last byte read. -/
def dumpEscaped (q : Utf8State) (i : ℕ) (last : UInt8) : Bytes → Except Exception Bytes
  | [] =>
      if q = .accept then .ok []
      else .error (typeError 316
        (ascii "incomplete UTF-8 string; last byte: 0x" ++ hexByte last))
  | b :: s =>
      if q.next b = .reject then
        .error (typeError 316
          (ascii "invalid UTF-8 byte at index " ++ decimal i ++ ascii ": 0x" ++ hexByte b))
      else do
        let rest ← dumpEscaped (q.next b) (i + 1) b s
        return (if q.next b = .accept then escape q b else [b]) ++ rest

/-- A string between quotation marks. -/
def dumpString (s : Bytes) : Except Exception Bytes := do
  let t ← dumpEscaped .accept 0 0 s
  return ascii "\"" ++ t ++ ascii "\""

mutual

/-- `dump()`: the compact serialization.  `dumpFloat` prints a floating-point number. -/
def dump (dumpFloat : UInt64 → Bytes) : Json → Except Exception Bytes
  | null => .ok (ascii "null")
  | boolean b => .ok (if b then ascii "true" else ascii "false")
  | numberInteger n => .ok (decimalInt n)
  | numberUnsigned n => .ok (decimal n)
  | numberFloat bits => .ok (dumpFloat bits)
  | string s => dumpString s
  | array elems => do
      let t ← dumpElems dumpFloat elems
      return ascii "[" ++ t ++ ascii "]"
  | object members => do
      let t ← dumpMembers dumpFloat members
      return ascii "\x7b" ++ t ++ ascii "\x7d"

/-- The elements of an array, separated by commas. -/
def dumpElems (dumpFloat : UInt64 → Bytes) : List Json → Except Exception Bytes
  | [] => .ok []
  | [j] => dump dumpFloat j
  | j :: js => do
      let t ← dump dumpFloat j
      let ts ← dumpElems dumpFloat js
      return t ++ ascii "," ++ ts

/-- The members of an object, separated by commas. -/
def dumpMembers (dumpFloat : UInt64 → Bytes) : List (Bytes × Json) → Except Exception Bytes
  | [] => .ok []
  | [(k, j)] => do
      let tk ← dumpString k
      let t ← dump dumpFloat j
      return tk ++ ascii ":" ++ t
  | (k, j) :: ms => do
      let tk ← dumpString k
      let t ← dump dumpFloat j
      let ts ← dumpMembers dumpFloat ms
      return tk ++ ascii ":" ++ t ++ ascii "," ++ ts

end

/-- The serializer gets through a string exactly when the decoder ends between characters. -/
lemma dumpEscaped_isOk_iff (q : Utf8State) (i : ℕ) (last : UInt8) (s : Bytes) (hq : q ≠ .reject) :
    (∃ t, dumpEscaped q i last s = .ok t) ↔ q.run s = .accept := by
  induction s generalizing q i last with
  | nil =>
      by_cases h : q = .accept <;> simp [dumpEscaped, h]
  | cons b s ih =>
      by_cases h : q.next b = .reject
      · simp [dumpEscaped, h, Utf8State.run_reject]
      · rw [Utf8State.run_cons, ← ih (q.next b) (i + 1) b h]
        simp only [dumpEscaped, h, if_false]
        cases dumpEscaped (q.next b) (i + 1) b s <;> simp [bind, Except.bind, pure, Except.pure]

/-- A string is serialized exactly when it is valid UTF-8. -/
lemma dumpString_isOk_iff (s : Bytes) : (∃ t, dumpString s = .ok t) ↔ ValidUtf8 s := by
  rw [ValidUtf8, ← dumpEscaped_isOk_iff .accept 0 0 s (by decide), dumpString]
  cases dumpEscaped .accept 0 0 s <;> simp [bind, Except.bind, pure, Except.pure]

end Json

end RasPiZeroCam
