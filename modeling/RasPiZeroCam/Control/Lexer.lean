import RasPiZeroCam.Codes.Reader
import RasPiZeroCam.Control.Json

/-!
The lexer of `nlohmann::json::parse`: the tokens of a text, one `scan()` at a time.  A text that is
left is what the input adapter has not handed out, with the character of an `unget()` put back.

* `Token`: the tokens, with the value the getters of the lexer give for one.
* `scanString`, `scanNumber`, `scan`: `scan_string()`, `scan_number()` and `scan()`.
* `scanString_spec`: a string that was scanned is valid UTF-8.
* `scan_takes`: every token but the end of the input is taken from the text.
-/

namespace RasPiZeroCam

/-- A `token_type`, with its value; that of `parse_error` is the message. -/
inductive Token where
  | literalTrue
  | literalFalse
  | literalNull
  | valueString (s : Bytes)
  | valueUnsigned (n : ℕ)
  | valueInteger (n : ℤ)
  | valueFloat (bits : UInt64)
  | beginArray
  | beginObject
  | endArray
  | endObject
  | nameSeparator
  | valueSeparator
  | parseError (error_message : Bytes)
  | endOfInput
  deriving DecidableEq

/-- A string is in UTF-8, and a number fits its type. -/
def Token.Valid : Token → Prop
  | .valueString s => ValidUtf8 s
  | .valueUnsigned n => n < 2 ^ 64
  | .valueInteger n => -2 ^ 63 ≤ n ∧ n ≤ 0
  | _ => True

namespace Lexer

/-! ### Strings -/

/-- A pass of the loop of `scan_string()`: the closing quote, bytes for `token_buffer`, or an
error. -/
inductive StringStep where
  | close
  | add (added : Bytes)
  | fail (error_message : Bytes)

/-- The value of a hexadecimal digit. -/
def hexValue (c : UInt8) : Option ℕ :=
  if 0x30 ≤ c ∧ c ≤ 0x39 then some (c.toNat - 0x30)
  else if 0x41 ≤ c ∧ c ≤ 0x46 then some (c.toNat - 0x37)
  else if 0x61 ≤ c ∧ c ≤ 0x66 then some (c.toNat - 0x57)
  else none

/-- `get_codepoint()`. -/
def getCodepoint : Bytes → Option (ℕ × Bytes)
  | c₁ :: c₂ :: c₃ :: c₄ :: s => do
      let d₁ ← hexValue c₁
      let d₂ ← hexValue c₂
      let d₃ ← hexValue c₃
      let d₄ ← hexValue c₄
      some (d₁ * 0x1000 + d₂ * 0x100 + d₃ * 0x10 + d₄, s)
  | _ => none

/-- `next_byte_in_range(ranges)`: the bytes that are added, and what is left. -/
def nextByteInRange : List (UInt8 × UInt8) → Bytes → Option (Bytes × Bytes)
  | [], s => some ([], s)
  | (lo, hi) :: ranges, b :: s =>
      if lo ≤ b ∧ b ≤ hi then (nextByteInRange ranges s).map fun r => (b :: r.1, r.2) else none
  | _ :: _, [] => none

/-- A code point in UTF-8. -/
def encode (codepoint : ℕ) : Bytes :=
  if codepoint < 0x80 then [UInt8.ofNat codepoint]
  else if codepoint ≤ 0x7FF then
    [UInt8.ofNat (0xC0 + codepoint / 0x40), UInt8.ofNat (0x80 + codepoint % 0x40)]
  else if codepoint ≤ 0xFFFF then
    [UInt8.ofNat (0xE0 + codepoint / 0x1000), UInt8.ofNat (0x80 + codepoint / 0x40 % 0x40),
      UInt8.ofNat (0x80 + codepoint % 0x40)]
  else
    [UInt8.ofNat (0xF0 + codepoint / 0x40000), UInt8.ofNat (0x80 + codepoint / 0x1000 % 0x40),
      UInt8.ofNat (0x80 + codepoint / 0x40 % 0x40), UInt8.ofNat (0x80 + codepoint % 0x40)]

def fourDigits : Bytes := ascii "invalid string: '\\u' must be followed by 4 hex digits"

def highSurrogate : Bytes :=
  ascii "invalid string: surrogate U+D800..U+DBFF must be followed by U+DC00..U+DFFF"

def lowSurrogate : Bytes :=
  ascii "invalid string: surrogate U+DC00..U+DFFF must follow U+D800..U+DBFF"

def illFormed : Bytes := ascii "invalid string: ill-formed UTF-8 byte"

/-- Behind `\u`. -/
def scanUnicode (s : Bytes) : StringStep × Bytes :=
  match getCodepoint s with
  | none => (.fail fourDigits, s)
  | some (codepoint₁, s) =>
      if 0xD800 ≤ codepoint₁ ∧ codepoint₁ ≤ 0xDBFF then
        match s with
        | 0x5C :: 0x75 :: s =>
            match getCodepoint s with
            | none => (.fail fourDigits, s)
            | some (codepoint₂, s) =>
                if 0xDC00 ≤ codepoint₂ ∧ codepoint₂ ≤ 0xDFFF then
                  (.add (encode (codepoint₁ * 0x400 + codepoint₂ - 0x35FDC00)), s)
                else (.fail highSurrogate, s)
        | s => (.fail highSurrogate, s)
      else if 0xDC00 ≤ codepoint₁ ∧ codepoint₁ ≤ 0xDFFF then (.fail lowSurrogate, s)
      else (.add (encode codepoint₁), s)

/-- Behind a backslash. -/
def scanEscape : Bytes → StringStep × Bytes
  | [] => (.fail (ascii "invalid string: forbidden character after backslash"), [])
  | c :: s =>
      if c = 0x22 then (.add [0x22], s)
      else if c = 0x5C then (.add [0x5C], s)
      else if c = 0x2F then (.add [0x2F], s)
      else if c = 0x62 then (.add [0x08], s)
      else if c = 0x66 then (.add [0x0C], s)
      else if c = 0x6E then (.add [0x0A], s)
      else if c = 0x72 then (.add [0x0D], s)
      else if c = 0x74 then (.add [0x09], s)
      else if c = 0x75 then scanUnicode s
      else (.fail (ascii "invalid string: forbidden character after backslash"), s)

/-- The names of the control characters. -/
def controlNames : List String :=
  ["NUL", "SOH", "STX", "ETX", "EOT", "ENQ", "ACK", "BEL", "BS", "HT", "LF", "VT", "FF", "CR", "SO",
    "SI", "DLE", "DC1", "DC2", "DC3", "DC4", "NAK", "SYN", "ETB", "CAN", "EM", "SUB", "ESC", "FS",
    "GS", "RS", "US"]

/-- The escape that a control character has of its own. -/
def shortEscape (c : UInt8) : Bytes :=
  if c = 0x08 then ascii " or \\b"
  else if c = 0x09 then ascii " or \\t"
  else if c = 0x0A then ascii " or \\n"
  else if c = 0x0C then ascii " or \\f"
  else if c = 0x0D then ascii " or \\r"
  else []

/-- The message for a control character. -/
def mustEscape (c : UInt8) : Bytes :=
  ascii "invalid string: control character U+00" ++ hexByte c ++ ascii " (" ++
    ascii (controlNames.getD c.toNat "") ++ ascii ") must be escaped to \\u00" ++ hexByte c ++
    shortEscape c

/-- A character of several bytes, of which `b` is the first. -/
def scanTail (b : UInt8) (ranges : List (UInt8 × UInt8)) (s : Bytes) : StringStep × Bytes :=
  match nextByteInRange ranges s with
  | some (tail, s) => (.add (b :: tail), s)
  | none => (.fail illFormed, s)

/-- One pass of the loop of `scan_string()`. -/
def stringStep : Bytes → StringStep × Bytes
  | [] => (.fail (ascii "invalid string: missing closing quote"), [])
  | b :: s =>
      if b = 0x22 then (.close, s)
      else if b = 0x5C then scanEscape s
      else if b ≤ 0x1F then (.fail (mustEscape b), s)
      else if b ≤ 0x7F then (.add [b], s)
      else if 0xC2 ≤ b ∧ b ≤ 0xDF then scanTail b [(0x80, 0xBF)] s
      else if b = 0xE0 then scanTail b [(0xA0, 0xBF), (0x80, 0xBF)] s
      else if b = 0xED then scanTail b [(0x80, 0x9F), (0x80, 0xBF)] s
      else if 0xE1 ≤ b ∧ b ≤ 0xEF then scanTail b [(0x80, 0xBF), (0x80, 0xBF)] s
      else if b = 0xF0 then scanTail b [(0x90, 0xBF), (0x80, 0xBF), (0x80, 0xBF)] s
      else if 0xF1 ≤ b ∧ b ≤ 0xF3 then scanTail b [(0x80, 0xBF), (0x80, 0xBF), (0x80, 0xBF)] s
      else if b = 0xF4 then scanTail b [(0x80, 0x8F), (0x80, 0xBF), (0x80, 0xBF)] s
      else (.fail illFormed, s)

/-- `scan_string()`, in at most `n` passes, with `token_buffer` as it stands. -/
def scanString : ℕ → Bytes → Bytes → Token × Bytes
  | 0, _, s => (.parseError [], s)
  | n + 1, token_buffer, s =>
      match stringStep s with
      | (.close, s) => (.valueString token_buffer, s)
      | (.add added, s) => scanString n (token_buffer ++ added) s
      | (.fail error_message, s) => (.parseError error_message, s)

/-! ### Numbers -/

/-- The labels of `scan_number()`. -/
inductive NumberState where
  | minus
  | zero
  | any1
  | decimal1
  | decimal2
  | exponent
  | sign
  | any2

/-- `number_type`. -/
inductive NumberType where
  | unsigned
  | integer
  | float

/-- What a label does with a character: go to another with it, be done and put it back, or fail. -/
inductive NumberStep where
  | goto (q : NumberState)
  | done
  | fail (error_message : Bytes)

def isDigit (c : UInt8) : Bool := 0x30 ≤ c && c ≤ 0x39

namespace NumberState

/-- The type after a label. -/
def enter : NumberState → NumberType → NumberType
  | minus, _ => .integer
  | decimal1, _ => .float
  | exponent, _ => .float
  | _, t => t

/-- Behind a leading minus sign, or in its place. -/
def first (c : UInt8) : Option NumberState :=
  if c = 0x30 then some zero else if isDigit c then some any1 else none

/-- The jumps; `none` is the end of the file. -/
def step (q : NumberState) (c : Option UInt8) : NumberStep :=
  let digit := c.elim false isDigit
  let point := c = some 0x2E
  let exp := c = some 0x65 ∨ c = some 0x45
  match q with
  | minus =>
      match c.bind first with
      | some q => .goto q
      | none => .fail (ascii "invalid number; expected digit after '-'")
  | zero => if point then .goto decimal1 else if exp then .goto exponent else .done
  | any1 =>
      if digit then .goto any1
      else if point then .goto decimal1 else if exp then .goto exponent else .done
  | decimal1 =>
      if digit then .goto decimal2 else .fail (ascii "invalid number; expected digit after '.'")
  | decimal2 => if digit then .goto decimal2 else if exp then .goto exponent else .done
  | exponent =>
      if c = some 0x2B ∨ c = some 0x2D then .goto sign
      else if digit then .goto any2
      else .fail (ascii "invalid number; expected '+', '-', or digit after exponent")
  | sign =>
      if digit then .goto any2
      else .fail (ascii "invalid number; expected digit after exponent sign")
  | any2 => if digit then .goto any2 else .done

end NumberState

/-- `scan_number()` from a label: the type, the buffer and what is left, or the message. -/
def scanDigits (q : NumberState) (t : NumberType) (token_buffer : Bytes) :
    Bytes → Except Bytes (NumberType × Bytes × Bytes)
  | [] =>
      match q.step none with
      | .fail error_message => .error error_message
      | _ => .ok (t, token_buffer, [])
  | c :: s =>
      match q.step (some c) with
      | .goto q => scanDigits q (q.enter t) (token_buffer ++ [c]) s
      | .done => .ok (t, token_buffer, c :: s)
      | .fail error_message => .error error_message

/-- The number that digits stand for. -/
def digitsValue (digits : Bytes) : ℕ := digits.foldl (fun n d => 10 * n + (d.toNat - 0x30)) 0

/-- The conversions at `scan_number_done`; `strtod` is the one to a floating-point number.  A number
that does not fit becomes one. -/
def convert (strtod : Bytes → UInt64) (t : NumberType) (token_buffer : Bytes) : Token :=
  match t with
  | .unsigned =>
      let x := digitsValue token_buffer
      if x < 2 ^ 64 then .valueUnsigned x else .valueFloat (strtod token_buffer)
  | .integer =>
      let x := digitsValue token_buffer.tail
      if x ≤ 2 ^ 63 then .valueInteger (-x) else .valueFloat (strtod token_buffer)
  | .float => .valueFloat (strtod token_buffer)

/-- `scan_number()`, at its first character. -/
def scanNumber (strtod : Bytes → UInt64) (c : UInt8) (s : Bytes) : Token × Bytes :=
  let q := if c = 0x2D then NumberState.minus else if c = 0x30 then .zero else .any1
  match scanDigits q (q.enter .unsigned) [c] s with
  | .ok (t, token_buffer, s) => (convert strtod t token_buffer, s)
  | .error error_message => (.parseError error_message, s)

/-! ### Tokens -/

/-- `scan_literal(literal_text, length, return_type)`, behind its first character. -/
def scanLiteral (literal_text : Bytes) (return_type : Token) (s : Bytes) : Token × Bytes :=
  match Codes.strip literal_text s with
  | some s => (return_type, s)
  | none => (.parseError (ascii "invalid literal"), s)

def isWhitespace (c : UInt8) : Bool := c = 0x20 || c = 0x09 || c = 0x0A || c = 0x0D

/-- `skip_bom()`; `none` when one is begun and not completed. -/
def skipBom : Bytes → Option Bytes
  | 0xEF :: s =>
      match s with
      | 0xBB :: 0xBF :: s => some s
      | _ => none
  | s => some s

/-- `scan()` behind the byte order mark; comments are not ignored. -/
def scan (strtod : Bytes → UInt64) (s : Bytes) : Token × Bytes :=
  match s.dropWhile isWhitespace with
  | [] => (.endOfInput, [])
  | c :: s =>
      if c = 0x5B then (.beginArray, s)
      else if c = 0x5D then (.endArray, s)
      else if c = 0x7B then (.beginObject, s)
      else if c = 0x7D then (.endObject, s)
      else if c = 0x3A then (.nameSeparator, s)
      else if c = 0x2C then (.valueSeparator, s)
      else if c = 0x74 then scanLiteral (ascii "rue") .literalTrue s
      else if c = 0x66 then scanLiteral (ascii "alse") .literalFalse s
      else if c = 0x6E then scanLiteral (ascii "ull") .literalNull s
      else if c = 0x22 then scanString (s.length + 1) [] s
      else if c = 0x2D ∨ isDigit c then scanNumber strtod c s
      else if c = 0 then (.endOfInput, c :: s)
      else (.parseError (ascii "invalid literal"), s)

/-- The first `scan()`. -/
def scanFirst (strtod : Bytes → UInt64) (s : Bytes) : Token × Bytes :=
  match skipBom s with
  | some s => scan strtod s
  | none => (.parseError (ascii "invalid BOM; must be 0xEF 0xBB 0xBF if given"), s)

example : scanFirst (fun _ => 0) (ascii " -12, ") = (.valueInteger (-12), ascii ", ") := by decide

/-! ### What a string is made of -/

open Utf8State

lemma within_eq {lo hi b : UInt8} (h : lo ≤ b ∧ b ≤ hi) (q : Utf8State) : within lo hi b q = q :=
  if_pos h

/-- The first byte of a character, by its range. -/
lemma first_two {b : UInt8} (h : 0xC2 ≤ b ∧ b ≤ 0xDF) : first b = .tail1 := by
  have hlow : ¬ b ≤ 0x7F := fun h0 => absurd (UInt8.le_trans h.1 h0) (by decide)
  rw [first, if_neg hlow, if_pos h]

lemma first_three {b : UInt8} (h : 0xE1 ≤ b ∧ b ≤ 0xEF) (hne : b ≠ 0xED) : first b = .tail2 := by
  have hlow : ¬ b ≤ 0x7F := fun h0 => absurd (UInt8.le_trans h.1 h0) (by decide)
  have htwo : ¬ (0xC2 ≤ b ∧ b ≤ 0xDF) := fun h2 => absurd (UInt8.le_trans h.1 h2.2) (by decide)
  have hE0 : b ≠ 0xE0 := fun h0 => absurd (h0 ▸ h.1) (by decide)
  rw [first, if_neg hlow, if_neg htwo, if_neg hE0, if_neg hne, if_pos h]

lemma first_four {b : UInt8} (h : 0xF1 ≤ b ∧ b ≤ 0xF3) : first b = .tail3 := by
  have hlow : ¬ b ≤ 0x7F := fun h0 => absurd (UInt8.le_trans h.1 h0) (by decide)
  have htwo : ¬ (0xC2 ≤ b ∧ b ≤ 0xDF) := fun h2 => absurd (UInt8.le_trans h.1 h2.2) (by decide)
  have hE0 : b ≠ 0xE0 := fun h0 => absurd (h0 ▸ h.1) (by decide)
  have hED : b ≠ 0xED := fun h0 => absurd (h0 ▸ h.1) (by decide)
  have hthree : ¬ (0xE1 ≤ b ∧ b ≤ 0xEF) := fun h3 => absurd (UInt8.le_trans h.1 h3.2) (by decide)
  have hF0 : b ≠ 0xF0 := fun h0 => absurd (h0 ▸ h.1) (by decide)
  rw [first, if_neg hlow, if_neg htwo, if_neg hE0, if_neg hED, if_neg hthree, if_neg hF0, if_pos h]

/-- A byte that is in its range. -/
lemma ofNat_range (lo hi : UInt8) {n : ℕ} (hlo : lo.toNat ≤ n) (hhi : n ≤ hi.toNat) :
    lo ≤ UInt8.ofNat n ∧ UInt8.ofNat n ≤ hi := by
  have hbyte : (UInt8.ofNat n).toNat = n := by
    rw [UInt8.toNat_ofNat', Nat.mod_eq_of_lt (hhi.trans_lt hi.toNat_lt)]
  rw [UInt8.le_iff_toNat_le, UInt8.le_iff_toNat_le, hbyte]
  exact ⟨hlo, hhi⟩

/-- A continuation byte. -/
lemma ofNat_tail (n : ℕ) :
    0x80 ≤ UInt8.ofNat (0x80 + n % 0x40) ∧ UInt8.ofNat (0x80 + n % 0x40) ≤ 0xBF := by
  have hmod := Nat.mod_lt n (show 0 < 0x40 by decide)
  refine ofNat_range 0x80 0xBF (Nat.le_add_right _ _) ?_
  show 0x80 + n % 0x40 ≤ 0xBF
  omega

/-- **A code point is encoded as a character**, unless it is a surrogate. -/
lemma encode_valid {codepoint : ℕ} (hmax : codepoint ≤ 0x10FFFF)
    (hsurrogate : ¬ (0xD800 ≤ codepoint ∧ codepoint ≤ 0xDFFF)) : ValidUtf8 (encode codepoint) := by
  have hbyte : ∀ (lo hi : UInt8) (n : ℕ), lo.toNat ≤ n → n ≤ hi.toNat →
      lo ≤ UInt8.ofNat n ∧ UInt8.ofNat n ≤ hi := fun lo hi n => ofNat_range lo hi
  rw [ValidUtf8, encode]
  split_ifs with hone htwo hthree
  · exact if_pos (hbyte 0 0x7F codepoint (Nat.zero_le _) (Nat.le_of_lt_succ hone)).2
  · have hfirst := hbyte 0xC2 0xDF (0xC0 + codepoint / 0x40) (by show 0xC2 ≤ _; omega)
      (by show _ ≤ 0xDF; omega)
    rw [run_cons, run_cons, run_nil, next, first_two hfirst, next, within_eq (ofNat_tail _)]
  · -- the second byte after E0 and after ED is in a smaller range
    have hlast := ofNat_tail codepoint
    rcases Nat.eq_zero_or_pos (codepoint / 0x1000) with hzero | hpos
    · have hsecond := hbyte 0xA0 0xBF (0x80 + codepoint / 0x40 % 0x40) (by show 0xA0 ≤ _; omega)
        (by show _ ≤ 0xBF; omega)
      have hfirst : first (UInt8.ofNat (0xE0 + codepoint / 0x1000)) = .afterE0 := by
        rw [hzero]
        rfl
      rw [run_cons, run_cons, run_cons, run_nil, next, hfirst, next, within_eq hsecond, next,
        within_eq hlast]
    · by_cases hED : codepoint / 0x1000 = 0xD
      · have hsecond := hbyte 0x80 0x9F (0x80 + codepoint / 0x40 % 0x40)
          (Nat.le_add_right _ _) (by show _ ≤ 0x9F; omega)
        have hfirst : first (UInt8.ofNat (0xE0 + codepoint / 0x1000)) = .afterED := by
          rw [hED]
          rfl
        rw [run_cons, run_cons, run_cons, run_nil, next, hfirst, next, within_eq hsecond, next,
          within_eq hlast]
      · have hrange := hbyte 0xE1 0xEF (0xE0 + codepoint / 0x1000) (by show 0xE1 ≤ _; omega)
          (by show _ ≤ 0xEF; omega)
        have hne : UInt8.ofNat (0xE0 + codepoint / 0x1000) ≠ 0xED := by
          intro heq
          have hnat := congrArg UInt8.toNat heq
          rw [UInt8.toNat_ofNat'] at hnat
          have hval : UInt8.toNat 0xED = 0xED := rfl
          omega
        rw [run_cons, run_cons, run_cons, run_nil, next, first_three hrange hne, next,
          within_eq (ofNat_tail _), next, within_eq hlast]
  · -- the second byte after F0 and after F4 is in a smaller range
    have hthird := ofNat_tail (codepoint / 0x40)
    have hlast := ofNat_tail codepoint
    rcases Nat.eq_zero_or_pos (codepoint / 0x40000) with hzero | hpos
    · have hsecond := hbyte 0x90 0xBF (0x80 + codepoint / 0x1000 % 0x40) (by show 0x90 ≤ _; omega)
        (by show _ ≤ 0xBF; omega)
      have hfirst : first (UInt8.ofNat (0xF0 + codepoint / 0x40000)) = .afterF0 := by
        rw [hzero]
        rfl
      rw [run_cons, run_cons, run_cons, run_cons, run_nil, next, hfirst, next, within_eq hsecond,
        next, within_eq hthird, next, within_eq hlast]
    · by_cases hF4 : codepoint / 0x40000 = 4
      · have hsecond := hbyte 0x80 0x8F (0x80 + codepoint / 0x1000 % 0x40)
          (Nat.le_add_right _ _) (by show _ ≤ 0x8F; omega)
        have hfirst : first (UInt8.ofNat (0xF0 + codepoint / 0x40000)) = .afterF4 := by
          rw [hF4]
          rfl
        rw [run_cons, run_cons, run_cons, run_cons, run_nil, next, hfirst, next, within_eq hsecond,
          next, within_eq hthird, next, within_eq hlast]
      · have hrange := hbyte 0xF1 0xF3 (0xF0 + codepoint / 0x40000) (by show 0xF1 ≤ _; omega)
          (by show _ ≤ 0xF3; omega)
        rw [run_cons, run_cons, run_cons, run_cons, run_nil, next, first_four hrange, next,
          within_eq (ofNat_tail _), next, within_eq hthird, next, within_eq hlast]

/-- A decoder that has read valid text is where it was. -/
lemma run_append_valid {s t : Bytes} (hs : ValidUtf8 s) (q : Utf8State) :
    q = .accept → q.run (s ++ t) = q.run t := by
  rintro rfl
  rw [run, List.foldl_append]
  exact congrArg (fun q => List.foldl next q t) hs

/-- Valid texts, one after the other. -/
lemma valid_append {s t : Bytes} (hs : ValidUtf8 s) (ht : ValidUtf8 t) : ValidUtf8 (s ++ t) := by
  rw [ValidUtf8, run_append_valid hs .accept rfl]
  exact ht

/-- What `next_byte_in_range` takes: a byte of each range. -/
lemma nextByteInRange_iff {ranges : List (UInt8 × UInt8)} :
    ∀ {s tail s' : Bytes}, nextByteInRange ranges s = some (tail, s') ↔
      s = tail ++ s' ∧ List.Forall₂ (fun r b => r.1 ≤ b ∧ b ≤ r.2) ranges tail := by
  induction ranges with
  | nil =>
      intro s tail s'
      rw [nextByteInRange]
      constructor
      · intro h
        cases h
        exact ⟨rfl, .nil⟩
      · rintro ⟨rfl, h⟩
        cases h
        rfl
  | cons r ranges ih =>
      intro s tail s'
      obtain ⟨lo, hi⟩ := r
      cases s with
      | nil =>
          rw [nextByteInRange]
          constructor
          · intro h
            cases h
          · rintro ⟨heq, h⟩
            cases h
            cases heq
      | cons b s =>
          rw [nextByteInRange]
          constructor
          · intro h
            split_ifs at h with hb
            obtain ⟨⟨t, u⟩, hnext, heq⟩ := Option.map_eq_some_iff.mp h
            cases heq
            obtain ⟨rfl, hall⟩ := ih.mp hnext
            exact ⟨rfl, .cons hb hall⟩
          · rintro ⟨heq, h⟩
            cases h with
            | cons hb hall =>
                rename_i t
                cases heq
                have hnext : nextByteInRange ranges (t ++ s') = some (t, s') := ih.mpr ⟨rfl, hall⟩
                rw [if_pos hb]
                exact congrArg (Option.map fun r => (b :: r.1, r.2)) hnext

/-- A hexadecimal digit. -/
lemma hexValue_le {c : UInt8} {d : ℕ} (h : hexValue c = some d) : d ≤ 15 := by
  rw [hexValue] at h
  split_ifs at h with h₁ h₂ h₃ <;> cases h
  · have hle : c.toNat ≤ 0x39 := UInt8.le_iff_toNat_le.mp h₁.2
    omega
  · have hle : c.toNat ≤ 0x46 := UInt8.le_iff_toNat_le.mp h₂.2
    omega
  · have hle : c.toNat ≤ 0x66 := UInt8.le_iff_toNat_le.mp h₃.2
    omega

/-- `get_codepoint` takes four characters, and gives sixteen bits. -/
lemma getCodepoint_spec {s s' : Bytes} {codepoint : ℕ} (h : getCodepoint s = some (codepoint, s')) :
    codepoint ≤ 0xFFFF ∧ s.length = s'.length + 4 := by
  match s with
  | c₁ :: c₂ :: c₃ :: c₄ :: s =>
      rw [getCodepoint] at h
      simp only [Option.bind_eq_bind, Option.bind_eq_some_iff, Option.some.injEq,
        Prod.mk.injEq] at h
      obtain ⟨d₁, h₁, d₂, h₂, d₃, h₃, d₄, h₄, rfl, rfl⟩ := h
      have hd₁ := hexValue_le h₁
      have hd₂ := hexValue_le h₂
      have hd₃ := hexValue_le h₃
      have hd₄ := hexValue_le h₄
      exact ⟨by omega, rfl⟩
  | [] => cases h
  | [_] => cases h
  | [_, _] => cases h
  | [_, _, _] => cases h

/-- A pass of the loop adds whole characters, and goes on in the text. -/
structure Passes (s : Bytes) (r : StringStep × Bytes) : Prop where
  valid : ∀ added, r.1 = .add added → ValidUtf8 added
  le : r.2.length ≤ s.length

lemma Passes.fail {s s' : Bytes} (error_message : Bytes) (h : s'.length ≤ s.length) :
    Passes s (.fail error_message, s') := ⟨fun _ hadd => (by cases hadd), h⟩

lemma Passes.add {s s' added : Bytes} (hvalid : ValidUtf8 added) (h : s'.length ≤ s.length) :
    Passes s (.add added, s') := ⟨fun _ hadd => (by cases hadd; exact hvalid), h⟩

lemma Passes.tail {s s₀ : Bytes} {r : StringStep × Bytes} (h : Passes s r)
    (hle : s.length ≤ s₀.length) : Passes s₀ r := ⟨h.valid, h.le.trans hle⟩

lemma Passes.ite {s : Bytes} {c : Prop} [Decidable c] {r r' : StringStep × Bytes}
    (h : c → Passes s r) (h' : ¬ c → Passes s r') : Passes s (if c then r else r') :=
  iteInduction h h'

lemma scanUnicode_passes (s : Bytes) : Passes s (scanUnicode s) := by
  rw [scanUnicode]
  split
  · exact .fail _ le_rfl
  · rename_i codepoint₁ s₁ h₁
    obtain ⟨hmax₁, hlen₁⟩ := getCodepoint_spec h₁
    have hle₁ : s₁.length ≤ s.length := by omega
    split_ifs with hhigh hlow
    · split
      · rename_i s₂
        have hle₂ : s₂.length ≤ s.length := by
          rw [List.length_cons, List.length_cons] at hle₁
          omega
        split
        · exact .fail _ hle₂
        · rename_i codepoint₂ s₃ h₂
          obtain ⟨-, hlen₂⟩ := getCodepoint_spec h₂
          have hle₃ : s₃.length ≤ s.length := by omega
          split_ifs with hlow₂
          · exact .add (encode_valid (by omega) (by omega)) hle₃
          · exact .fail _ hle₃
      · exact .fail _ hle₁
    · exact .fail _ hle₁
    · exact .add (encode_valid (by omega) (by omega)) hle₁

lemma scanEscape_passes (s : Bytes) : Passes s (scanEscape s) := by
  cases s with
  | nil => exact .fail _ le_rfl
  | cons c s =>
      have hle : s.length ≤ (c :: s).length := Nat.le_succ _
      have hadd : ∀ b, b ≤ 0x7F → Passes (c :: s) (.add [b], s) := fun b hb => .add (if_pos hb) hle
      rw [scanEscape]
      refine .ite (fun _ => hadd 0x22 (by decide)) fun _ => ?_
      refine .ite (fun _ => hadd 0x5C (by decide)) fun _ => ?_
      refine .ite (fun _ => hadd 0x2F (by decide)) fun _ => ?_
      refine .ite (fun _ => hadd 0x08 (by decide)) fun _ => ?_
      refine .ite (fun _ => hadd 0x0C (by decide)) fun _ => ?_
      refine .ite (fun _ => hadd 0x0A (by decide)) fun _ => ?_
      refine .ite (fun _ => hadd 0x0D (by decide)) fun _ => ?_
      refine .ite (fun _ => hadd 0x09 (by decide)) fun _ => ?_
      exact .ite (fun _ => (scanUnicode_passes s).tail hle) fun _ => .fail _ hle

/-- A character of several bytes is one when its bytes are in the ranges. -/
lemma scanTail_passes {b : UInt8} {ranges : List (UInt8 × UInt8)} (s : Bytes)
    (hvalid : ∀ tail, List.Forall₂ (fun r b => r.1 ≤ b ∧ b ≤ r.2) ranges tail →
      ValidUtf8 (b :: tail)) : Passes s (scanTail b ranges s) := by
  rw [scanTail]
  split
  · rename_i tail s' h
    obtain ⟨rfl, hall⟩ := nextByteInRange_iff.mp h
    exact .add (hvalid tail hall) (by rw [List.length_append]; exact Nat.le_add_left _ _)
  · exact .fail _ le_rfl

/-- The bytes of a character after the first. -/
lemma run_tail {q q' : Utf8State} {lo hi : UInt8} {ranges : List (UInt8 × UInt8)} {tail : Bytes}
    (hq : ∀ b, q.next b = within lo hi b q')
    (hrest : ∀ tail, List.Forall₂ (fun r b => r.1 ≤ b ∧ b ≤ r.2) ranges tail →
      q'.run tail = .accept)
    (h : List.Forall₂ (fun r b => r.1 ≤ b ∧ b ≤ r.2) ((lo, hi) :: ranges) tail) :
    q.run tail = .accept := by
  cases h with
  | cons hb hall =>
      rw [run_cons, hq, within_eq hb]
      exact hrest _ hall

lemma run_tail1 {tail : Bytes}
    (h : List.Forall₂ (fun r b => r.1 ≤ b ∧ b ≤ r.2) [((0x80 : UInt8), (0xBF : UInt8))] tail) :
    tail1.run tail = .accept :=
  run_tail (fun _ => rfl) (fun t ht => by cases ht; rfl) h

lemma run_tail2 {tail : Bytes}
    (h : List.Forall₂ (fun r b => r.1 ≤ b ∧ b ≤ r.2)
      [((0x80 : UInt8), (0xBF : UInt8)), (0x80, 0xBF)] tail) :
    tail2.run tail = .accept :=
  run_tail (fun _ => rfl) (fun _ => run_tail1) h

/-- **A pass of `scan_string()`.** -/
lemma stringStep_passes (b : UInt8) (s : Bytes) : Passes s (stringStep (b :: s)) := by
  have hchar : ∀ {q : Utf8State} {ranges : List (UInt8 × UInt8)}, first b = q →
      (∀ tail, List.Forall₂ (fun r b => r.1 ≤ b ∧ b ≤ r.2) ranges tail → q.run tail = .accept) →
      Passes s (scanTail b ranges s) := by
    intro q ranges hfirst htail
    refine scanTail_passes s fun tail hall => ?_
    rw [ValidUtf8, run_cons, next, hfirst]
    exact htail tail hall
  rw [stringStep]
  refine .ite (fun _ => ⟨fun _ hadd => (by cases hadd), le_rfl⟩) fun _ => ?_
  refine .ite (fun _ => scanEscape_passes s) fun _ => ?_
  refine .ite (fun _ => .fail _ le_rfl) fun _ => ?_
  refine .ite (fun hone => .add (if_pos hone) le_rfl) fun _ => ?_
  refine .ite (fun htwo => hchar (first_two htwo) fun _ => run_tail1) fun _ => ?_
  refine .ite (fun hE0 => hchar (q := .afterE0) (by rw [hE0]; rfl) fun _ =>
    run_tail (fun _ => rfl) fun _ => run_tail1) fun _ => ?_
  by_cases hED : b = 0xED
  · rw [if_pos hED]
    exact hchar (q := .afterED) (by rw [hED]; rfl) fun _ =>
      run_tail (fun _ => rfl) fun _ => run_tail1
  rw [if_neg hED]
  refine .ite (fun hthree => hchar (first_three hthree hED) fun _ => run_tail2) fun _ => ?_
  refine .ite (fun hF0 => hchar (q := .afterF0) (by rw [hF0]; rfl) fun _ =>
    run_tail (fun _ => rfl) fun _ => run_tail2) fun _ => ?_
  refine .ite (fun hfour => hchar (first_four hfour) fun _ =>
    run_tail (fun _ => rfl) fun _ => run_tail2) fun _ => ?_
  exact .ite (fun hF4 => hchar (q := .afterF4) (by rw [hF4]; rfl) fun _ =>
    run_tail (fun _ => rfl) fun _ => run_tail2) fun _ => .fail _ le_rfl

/-- **A string that was scanned is valid UTF-8**, and was taken from the text. -/
lemma scanString_spec : ∀ (n : ℕ) (token_buffer s : Bytes), ValidUtf8 token_buffer →
    (scanString n token_buffer s).1.Valid ∧ (scanString n token_buffer s).2.length ≤ s.length := by
  intro n
  induction n with
  | zero => exact fun token_buffer s _ => ⟨trivial, le_rfl⟩
  | succ n ih =>
      intro token_buffer s hbuffer
      cases s with
      | nil => exact ⟨trivial, le_rfl⟩
      | cons b s =>
          have hpass := stringStep_passes b s
          rw [scanString]
          rcases hstep : stringStep (b :: s) with ⟨_ | added | error_message, s'⟩ <;>
            rw [hstep] at hpass
          · exact ⟨hbuffer, hpass.le.trans (Nat.le_succ _)⟩
          · obtain ⟨hvalid, hle⟩ :=
              ih (token_buffer ++ added) s' (valid_append hbuffer (hpass.valid added rfl))
            exact ⟨hvalid, (hle.trans hpass.le).trans (Nat.le_succ _)⟩
          · exact ⟨trivial, hpass.le.trans (Nat.le_succ _)⟩

/-! ### What a token takes -/

/-- A number is taken from the text. -/
lemma scanDigits_length {s : Bytes} : ∀ {q : NumberState} {t t' : NumberType} {buf buf' s' : Bytes},
    scanDigits q t buf s = .ok (t', buf', s') → s'.length ≤ s.length := by
  induction s with
  | nil =>
      intro q t t' buf buf' s' h
      rw [scanDigits] at h
      split at h <;> cases h
      exact le_rfl
  | cons c s ih =>
      intro q t t' buf buf' s' h
      rw [scanDigits] at h
      split at h
      · exact (ih h).trans (Nat.le_succ _)
      · cases h
        exact le_rfl
      · cases h

/-- What `scan()` gives for a text: a token other than the end of the input takes something, and a
token is valid. -/
structure Takes (s : Bytes) (r : Token × Bytes) : Prop where
  lt : r.1 = .endOfInput ∨ r.2.length < s.length
  le : r.2.length ≤ s.length
  valid : r.1.Valid

lemma Takes.ite {s : Bytes} {c : Prop} [Decidable c] {r r' : Token × Bytes}
    (h : c → Takes s r) (h' : ¬ c → Takes s r') : Takes s (if c then r else r') :=
  iteInduction h h'

/-- A token behind its first character. -/
lemma Takes.behind {s t : Bytes} {r : Token × Bytes} (hlt : t.length < s.length)
    (hle : r.2.length ≤ t.length) (hvalid : r.1.Valid) : Takes s r :=
  ⟨Or.inr (hle.trans_lt hlt), hle.trans hlt.le, hvalid⟩

lemma scanLiteral_takes {s t : Bytes} (hlt : t.length < s.length) (literal_text : Bytes)
    {return_type : Token} (hvalid : return_type.Valid) :
    Takes s (scanLiteral literal_text return_type t) := by
  rw [scanLiteral]
  split
  · rename_i u hstrip
    refine .behind hlt ?_ hvalid
    rw [Codes.strip] at hstrip
    split_ifs at hstrip
    cases hstrip
    rw [List.length_drop]
    exact Nat.sub_le _ _
  · exact .behind hlt le_rfl trivial

lemma convert_valid (strtod : Bytes → UInt64) (t : NumberType) (token_buffer : Bytes) :
    (convert strtod t token_buffer).Valid := by
  cases t with
  | unsigned =>
      simp only [convert]
      split_ifs with h
      · exact h
      · trivial
  | integer =>
      simp only [convert]
      split_ifs with h
      · show -2 ^ 63 ≤ -(digitsValue token_buffer.tail : ℤ) ∧
          -(digitsValue token_buffer.tail : ℤ) ≤ 0
        omega
      · trivial
  | float => trivial

lemma scanNumber_takes {s t : Bytes} (hlt : t.length < s.length) (strtod : Bytes → UInt64)
    (c : UInt8) : Takes s (scanNumber strtod c t) := by
  rw [scanNumber]
  split
  · rename_i ty buf u hdigits
    exact .behind hlt (scanDigits_length hdigits) (convert_valid strtod ty buf)
  · exact .behind hlt le_rfl trivial

/-- **What `scan()` takes.** -/
lemma scan_takes (strtod : Bytes → UInt64) (s : Bytes) : Takes s (scan strtod s) := by
  have hdrop : (s.dropWhile isWhitespace).length ≤ s.length := (List.dropWhile_sublist _).length_le
  rw [scan]
  split
  · exact ⟨Or.inl rfl, Nat.zero_le _, trivial⟩
  · rename_i c t hct
    rw [hct] at hdrop
    have hlt : t.length < s.length := hdrop
    refine .ite (fun _ => .behind hlt le_rfl trivial) fun _ => ?_
    refine .ite (fun _ => .behind hlt le_rfl trivial) fun _ => ?_
    refine .ite (fun _ => .behind hlt le_rfl trivial) fun _ => ?_
    refine .ite (fun _ => .behind hlt le_rfl trivial) fun _ => ?_
    refine .ite (fun _ => .behind hlt le_rfl trivial) fun _ => ?_
    refine .ite (fun _ => .behind hlt le_rfl trivial) fun _ => ?_
    refine .ite (fun _ => scanLiteral_takes hlt _ trivial) fun _ => ?_
    refine .ite (fun _ => scanLiteral_takes hlt _ trivial) fun _ => ?_
    refine .ite (fun _ => scanLiteral_takes hlt _ trivial) fun _ => ?_
    refine .ite (fun _ => ?_) fun _ => ?_
    · obtain ⟨hvalid, hle⟩ := scanString_spec (t.length + 1) [] t rfl
      exact .behind hlt hle hvalid
    refine .ite (fun _ => scanNumber_takes hlt strtod c) fun _ => ?_
    exact .ite (fun _ => ⟨Or.inl rfl, hdrop, trivial⟩) fun _ => .behind hlt le_rfl trivial

/-- A byte order mark is taken from the text. -/
lemma skipBom_length {s s' : Bytes} (h : skipBom s = some s') : s'.length ≤ s.length := by
  rw [skipBom.eq_def] at h
  split at h
  · split at h
    · cases h
      show _ ≤ s'.length + 1 + 1 + 1
      omega
    · cases h
  · cases h
    exact le_rfl

lemma scanFirst_takes (strtod : Bytes → UInt64) (s : Bytes) :
    (scanFirst strtod s).1.Valid ∧ (scanFirst strtod s).2.length ≤ s.length := by
  rw [scanFirst]
  rcases hbom : skipBom s with _ | s'
  · exact ⟨trivial, le_rfl⟩
  · have h := scan_takes strtod s'
    exact ⟨h.valid, h.le.trans (skipBom_length hbom)⟩

end Lexer

end RasPiZeroCam
