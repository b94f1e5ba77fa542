import Mathlib.Data.List.TakeWhile
import Mathlib.Tactic

/-!
Text as the program holds it: a `std::string` is a sequence of bytes, and file names, command
names, messages and replies are all of that type.

* `Bytes`, `ascii`, `decimal`: byte strings, the literals of the source, and the text of a
  number.
* `cStr`: what a C function reads of a string handed to it as `c_str()`.
* `Exception`: what a `catch (const std::exception& e)` sees of an exception.
* `toTimeT`, `Tm`, `strftime`: a `time_t`, the broken-down local time, and the conversion
  specifiers the program hands to `strftime`.
-/

namespace RasPiZeroCam

/-- A `std::string`. -/
abbrev Bytes := List UInt8

/-- A string literal of the source. -/
def ascii (s : String) : Bytes := s.toList.map fun c => UInt8.ofNat c.toNat

/-- What a C function reads of `s.c_str()`: the bytes before the first NUL. -/
def cStr (s : Bytes) : Bytes := s.takeWhile (· ≠ 0)

lemma cStr_eq_self_iff {s : Bytes} : cStr s = s ↔ 0 ∉ s := by
  rw [cStr, List.takeWhile_eq_self_iff]
  refine ⟨fun h h0 => by simpa using h 0 h0, fun h b hb => ?_⟩
  have hne : b ≠ 0 := fun h0 => h (h0 ▸ hb)
  simpa using hne

/-- What stands behind a NUL is not read. -/
lemma cStr_append_of_mem {s r : Bytes} (h : 0 ∈ s) : cStr (s ++ r) = cStr s := by
  have hlen : ¬ (s.takeWhile (· ≠ 0)).length = s.length := by
    intro hlen
    have hself : cStr s = s := (List.takeWhile_sublist _).eq_of_length hlen
    exact cStr_eq_self_iff.mp hself h
  rw [cStr, List.takeWhile_append, if_neg hlen, cStr]

/-- A `std::exception`, known by its `what()`. -/
structure Exception where
  what : Bytes
  deriving DecidableEq

/-- The decimal text of a number, as `std::to_string` and the JSON serializer print it. -/
def decimal (n : ℕ) : Bytes := ascii (Nat.repr n)

/-- A decimal text consists of digits. -/
lemma digit_of_mem_decimal {n : ℕ} {b : UInt8} (h : b ∈ decimal n) : 48 ≤ b ∧ b ≤ 57 := by
  rw [decimal, ascii, Nat.toList_repr] at h
  obtain ⟨c, hc, rfl⟩ := List.mem_map.mp h
  have hdigit : c.isDigit = true := Nat.isDigit_of_mem_toDigits (by decide) (by decide) hc
  simp only [Char.isDigit, Bool.and_eq_true, decide_eq_true_eq] at hdigit
  obtain ⟨hlo, hhi⟩ : 48 ≤ c.toNat ∧ c.toNat ≤ 57 := hdigit
  rw [UInt8.le_iff_toNat_le, UInt8.le_iff_toNat_le, UInt8.toNat_ofNat',
    Nat.mod_eq_of_lt (by omega)]
  exact ⟨hlo, hhi⟩

/-- On digits, no two characters become one byte. -/
lemma ascii_injOn {l m : List Char} (hl : ∀ c ∈ l, c.isDigit = true)
    (hm : ∀ c ∈ m, c.isDigit = true)
    (h : l.map (fun c => UInt8.ofNat c.toNat) = m.map fun c => UInt8.ofNat c.toNat) : l = m := by
  have hback : ∀ t : List Char, (∀ c ∈ t, c.isDigit = true) →
      (t.map fun c => UInt8.ofNat c.toNat).map (fun b => Char.ofNat b.toNat) = t := by
    intro t ht
    rw [List.map_map]
    refine (List.map_congr_left fun c hc => ?_).trans t.map_id
    have hdigit := ht c hc
    simp only [Char.isDigit, Bool.and_eq_true, decide_eq_true_eq] at hdigit
    obtain ⟨-, hhi⟩ : 48 ≤ c.toNat ∧ c.toNat ≤ 57 := hdigit
    rw [Function.comp_apply, UInt8.toNat_ofNat', Nat.mod_eq_of_lt (by omega), Char.ofNat_toNat]
    rfl
  rw [← hback l hl, h, hback m hm]

/-- Different numbers have different texts. -/
lemma decimal_injective {m n : ℕ} (h : decimal m = decimal n) : m = n := by
  have hdigit : ∀ k : ℕ, ∀ c ∈ Nat.toDigits 10 k, c.isDigit = true :=
    fun k c hc => Nat.isDigit_of_mem_toDigits (by decide) (by decide) hc
  rw [decimal, decimal, ascii, ascii, Nat.toList_repr, Nat.toList_repr] at h
  calc m = Nat.ofDigitChars 10 (Nat.toDigits 10 m) 0 := Nat.ofDigitChars_ten_toDigits.symm
    _ = Nat.ofDigitChars 10 (Nat.toDigits 10 n) 0 := by
        rw [ascii_injOn (hdigit m) (hdigit n) h]
    _ = n := Nat.ofDigitChars_ten_toDigits

/-- The decimal text of a signed number. -/
def decimalInt : ℤ → Bytes
  | .ofNat n => decimal n
  | .negSucc n => ascii "-" ++ decimal (n + 1)

/-- The two upper-case hexadecimal digits of a byte. -/
def hexByte (b : UInt8) : Bytes :=
  let digit (d : ℕ) : UInt8 := if d < 10 then UInt8.ofNat (48 + d) else UInt8.ofNat (55 + d)
  [digit (b.toNat / 16), digit (b.toNat % 16)]

/-- `std::chrono::system_clock::to_time_t` of a number of nanoseconds. -/
def toTimeT (ns : ℤ) : ℤ := ns.tdiv 1000000000

/-- `std::tm`, with the calendar year, month and day already counted as they are printed. -/
structure Tm where
  year : ℕ
  mon : ℕ
  mday : ℕ
  hour : ℕ
  min : ℕ
  sec : ℕ
  deriving DecidableEq, Repr

/-- A number printed with at least two digits. -/
def pad2 (n : ℕ) : Bytes := if n < 10 then ascii "0" ++ decimal n else decimal n

/-- So does a padded one. -/
lemma digit_of_mem_pad2 {n : ℕ} {b : UInt8} (h : b ∈ pad2 n) : 48 ≤ b ∧ b ≤ 57 := by
  rw [pad2] at h
  split_ifs at h
  · obtain hzero | hdigits := List.mem_append.mp h
    · obtain rfl := List.mem_singleton.mp hzero
      decide
    · exact digit_of_mem_decimal hdigits
  · exact digit_of_mem_decimal h

/-- Below 100 it is the two digits. -/
lemma pad2_eq : ∀ n < 100, pad2 n = [UInt8.ofNat (48 + n / 10), UInt8.ofNat (48 + n % 10)] := by
  decide

lemma pad2_injective {m n : ℕ} (hm : m < 100) (hn : n < 100) (h : pad2 m = pad2 n) : m = n := by
  rw [pad2_eq m hm, pad2_eq n hn] at h
  simp only [List.cons.injEq, and_true] at h
  have htens := congrArg UInt8.toNat h.1
  have hones := congrArg UInt8.toNat h.2
  simp only [UInt8.toNat_ofNat'] at htens hones
  omega

/-- `strftime` on the conversion specifiers of the program's formats. -/
def strftime : Bytes → Tm → Bytes
  | 37 :: 89 :: fmt, tm => decimal tm.year ++ strftime fmt tm   -- %Y
  | 37 :: 109 :: fmt, tm => pad2 tm.mon ++ strftime fmt tm      -- %m
  | 37 :: 100 :: fmt, tm => pad2 tm.mday ++ strftime fmt tm     -- %d
  | 37 :: 72 :: fmt, tm => pad2 tm.hour ++ strftime fmt tm      -- %H
  | 37 :: 77 :: fmt, tm => pad2 tm.min ++ strftime fmt tm       -- %M
  | 37 :: 83 :: fmt, tm => pad2 tm.sec ++ strftime fmt tm       -- %S
  | c :: fmt, tm => c :: strftime fmt tm
  | [], _ => []

example : strftime (ascii "rec_%Y%m%d_%H%M%S.mp4") ⟨2025, 3, 9, 7, 30, 5⟩
    = ascii "rec_20250309_073005.mp4" := by decide

end RasPiZeroCam
