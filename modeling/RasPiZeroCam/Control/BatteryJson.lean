import RasPiZeroCam.Control.RoundTrip
import RasPiZeroCam.Power.BatteryMonitor

/-!
`BatteryMonitor::build_json` writes JSON by hand; the text is JSON, and is parsed to the record.

* `fixedText`, `buildText`: the stream with `std::fixed` and `std::setprecision(3)`, and the text.
* `fixed3`, `buildJson`: these for the numbers that a record holds.
* `FloatRecord`, `printFloat`: the members as `float`s, in their bits, and their texts.
* `Rounded`: the doubles that a number to three decimals is read as.
* `build_json_parses`: the text of any members is parsed to them, to three decimals.
-/

namespace RasPiZeroCam

open Lexer TextParser Dtoa Json

namespace BatteryMonitor

/-- To the nearest integer, and to the even one of two. -/
def roundHalfEven (y : ℚ) : ℤ :=
  let r := y - ⌊y⌋
  if r < 1 / 2 then ⌊y⌋
  else if 1 / 2 < r then ⌊y⌋ + 1
  else if ⌊y⌋ % 2 = 0 then ⌊y⌋ else ⌊y⌋ + 1

/-- A number in fixed notation with three decimals, from its sign and its absolute value. -/
def fixedText (negative : Bool) (magnitude : ℚ) : Bytes :=
  let n := (roundHalfEven (magnitude * 1000)).toNat
  (if negative then ascii "-" else []) ++ (decimal (n / 1000) ++
    (ascii "." ++ [digit (n / 100 % 10), digit (n / 10 % 10), digit (n % 10)]))

/-- `j << x`, for a number that a record holds; `buildJson_values` is the way to the `float`s. -/
def fixed3 (x : ℚ) : Bytes := fixedText (decide (x < 0)) |x|

/-- The text around the members. -/
def buildText (voltage current power : Bytes) (percentage : ℤ) (charging low : Bool) : Bytes :=
  ascii "\x7b" ++ ascii "\"type\":\"battery_update\"," ++
    ascii "\"voltage_v\":" ++ voltage ++ ascii "," ++
    ascii "\"current_ma\":" ++ current ++ ascii "," ++
    ascii "\"power_mw\":" ++ power ++ ascii "," ++
    ascii "\"percentage\":" ++ decimalInt percentage ++ ascii "," ++
    ascii "\"charging\":" ++ (if charging then ascii "true" else ascii "false") ++ ascii "," ++
    ascii "\"low_battery_warning\":" ++
    (if low then ascii "true" else ascii "false") ++ ascii "\x7d"

/-- `build_json()`. -/
def buildJson (r : BatteryRecord) : Bytes :=
  buildText (fixed3 r.voltage_) (fixed3 r.current_ma_) (fixed3 r.power_mw_) r.percentage_
    r.charging_ r.low_battery_

example : buildJson ⟨3.712, -104.5, 0, 59, false, false⟩ = ascii (
    "\x7b\"type\":\"battery_update\"," ++
    "\"voltage_v\":3.712,\"current_ma\":-104.500,\"power_mw\":0.000,\"percentage\":59," ++
    "\"charging\":false,\"low_battery_warning\":false\x7d") := by decide +kernel

/-- An object with the members of a record. -/
def recordObject (voltage current power : UInt64) (percentage : ℤ) (charging low : Bool) : Json :=
  .object [(ascii "charging", .boolean charging),
    (ascii "current_ma", .numberFloat current),
    (ascii "low_battery_warning", .boolean low),
    (ascii "percentage", (Json.numberInteger percentage).canon),
    (ascii "power_mw", .numberFloat power),
    (ascii "type", .string (ascii "battery_update")),
    (ascii "voltage_v", .numberFloat voltage)]

/-- What the text of a record is parsed to, its numbers being what `strtod` makes of their texts. -/
def jsonOf (strtod : Bytes → UInt64) (r : BatteryRecord) : Json :=
  recordObject (strtod (fixed3 r.voltage_)) (strtod (fixed3 r.current_ma_))
    (strtod (fixed3 r.power_mw_)) r.percentage_ r.charging_ r.low_battery_

variable {strtod : Bytes → UInt64}

/-- A number in fixed notation is one token. -/
lemma scan_fixedText (negative : Bool) (magnitude : ℚ) {u : Bytes} (hu : Ends u) :
    scan strtod (fixedText negative magnitude ++ u) =
      (.valueFloat (strtod (fixedText negative magnitude)), u) := by
  have hnumeral := fun n : ℕ => numeral_fixed (n / 1000)
    (w := [digit (n / 100 % 10), digit (n / 10 % 10), digit (n % 10)]) (List.cons_ne_nil _ _)
    (by
      simp only [List.mem_cons, List.not_mem_nil, or_false, forall_eq_or_imp, forall_eq]
      exact ⟨isDigit_digit (by omega), isDigit_digit (by omega), isDigit_digit (by omega)⟩)
  rw [fixedText]
  split_ifs
  · exact scan_minus_numeral (hnumeral _) hu
  · exact scan_numeral (hnumeral _) hu

lemma parses_fixedText {negative : Bool} {magnitude : ℚ}
    (h : isFinite (strtod (fixedText negative magnitude)) = true) :
    Parses strtod (fixedText negative magnitude)
      (.numberFloat (strtod (fixedText negative magnitude))) := by
  refine .token (fun heq => ?_) (fun u hu => scan_fixedText _ _ hu) fun states s => ?_
  · have hscan : scan strtod (fixedText negative magnitude ++ []) = _ :=
      scan_fixedText _ _ fun _ hb => (by cases hb)
    rw [heq] at hscan
    cases hscan
  · exact loopPass_float h

lemma parses_bool (b : Bool) :
    Parses strtod (if b then ascii "true" else ascii "false") (.boolean b) := by
  cases b with
  | true => exact .token (List.cons_ne_nil _ _) (fun _ _ => rfl) fun _ _ => rfl
  | false => exact .token (List.cons_ne_nil _ _) (fun _ _ => rfl) fun _ _ => rfl

/-- The members, in the order in which they are kept. -/
lemma assign_members (kind v i p pct chg low : Json) :
    assign [] [(ascii "type", kind), (ascii "voltage_v", v), (ascii "current_ma", i),
      (ascii "power_mw", p), (ascii "percentage", pct), (ascii "charging", chg),
      (ascii "low_battery_warning", low)] =
    [(ascii "charging", chg), (ascii "current_ma", i), (ascii "low_battery_warning", low),
      (ascii "percentage", pct), (ascii "power_mw", p), (ascii "type", kind),
      (ascii "voltage_v", v)] := by
  simp +decide only [assign, List.foldl_cons, List.foldl_nil, insertMember, if_false,
    if_true]

/-- The text leads the parser to the object. -/
lemma parses_buildText {v i p : Bytes} {voltage current power : UInt64} {percentage : ℤ}
    {charging low : Bool} (hv : Parses strtod v (.numberFloat voltage))
    (hi : Parses strtod i (.numberFloat current)) (hp : Parses strtod p (.numberFloat power))
    (hpct : -2 ^ 63 ≤ percentage ∧ percentage < 2 ^ 63) :
    Parses strtod (buildText v i p percentage charging low)
      (recordObject voltage current power percentage charging low) := by
  have hkeys : dumpString (ascii "type") = .ok (ascii "\"type\"") ∧
      dumpString (ascii "voltage_v") = .ok (ascii "\"voltage_v\"") ∧
      dumpString (ascii "current_ma") = .ok (ascii "\"current_ma\"") ∧
      dumpString (ascii "power_mw") = .ok (ascii "\"power_mw\"") ∧
      dumpString (ascii "percentage") = .ok (ascii "\"percentage\"") ∧
      dumpString (ascii "charging") = .ok (ascii "\"charging\"") ∧
      dumpString (ascii "low_battery_warning") = .ok (ascii "\"low_battery_warning\"") :=
    ⟨rfl, rfl, rfl, rfl, rfl, rfl, rfl⟩
  have hupdate : dumpString (ascii "battery_update") = .ok (ascii "\"battery_update\"") := rfl
  obtain ⟨htype, hvoltage, hcurrent, hpower, hpercentage, hcharging, hlow⟩ := hkeys
  have hkind : Parses strtod (ascii "\"battery_update\"") (.string (ascii "battery_update")) :=
    .token (List.cons_ne_nil _ _) (fun u _ => scan_dumpString hupdate u) fun _ _ => rfl
  have hobject := Parses.object <| .cons htype hkind <| .cons hvoltage hv <| .cons hcurrent hi <|
    .cons hpower hp <| .cons hpercentage (parses_integer hpct) <|
    .cons hcharging (parses_bool charging) <| .single hlow (parses_bool low)
  have htext : ∀ v i p pct chg low : Bytes,
      ascii "\x7b" ++ ascii "\"type\":\"battery_update\"," ++ ascii "\"voltage_v\":" ++ v ++
        ascii "," ++ ascii "\"current_ma\":" ++ i ++ ascii "," ++ ascii "\"power_mw\":" ++ p ++
        ascii "," ++ ascii "\"percentage\":" ++ pct ++ ascii "," ++ ascii "\"charging\":" ++ chg ++
        ascii "," ++ ascii "\"low_battery_warning\":" ++ low ++ ascii "\x7d" =
      ascii "\x7b" ++ (ascii "\"type\"" ++ ascii ":" ++ ascii "\"battery_update\"" ++ ascii "," ++
        (ascii "\"voltage_v\"" ++ ascii ":" ++ v ++ ascii "," ++
        (ascii "\"current_ma\"" ++ ascii ":" ++ i ++ ascii "," ++
        (ascii "\"power_mw\"" ++ ascii ":" ++ p ++ ascii "," ++
        (ascii "\"percentage\"" ++ ascii ":" ++ pct ++ ascii "," ++
        (ascii "\"charging\"" ++ ascii ":" ++ chg ++ ascii "," ++
        (ascii "\"low_battery_warning\"" ++ ascii ":" ++ low))))))) ++ ascii "\x7d" := by
    intro v i p pct chg low
    have htype : ascii "\"type\":\"battery_update\"," =
        ascii "\"type\"" ++ ascii ":" ++ ascii "\"battery_update\"" ++ ascii "," := by decide
    have hvoltage : ascii "\"voltage_v\":" = ascii "\"voltage_v\"" ++ ascii ":" := by decide
    have hcurrent : ascii "\"current_ma\":" = ascii "\"current_ma\"" ++ ascii ":" := by decide
    have hpower : ascii "\"power_mw\":" = ascii "\"power_mw\"" ++ ascii ":" := by decide
    have hpercentage : ascii "\"percentage\":" = ascii "\"percentage\"" ++ ascii ":" := by decide
    have hcharging : ascii "\"charging\":" = ascii "\"charging\"" ++ ascii ":" := by decide
    have hlow : ascii "\"low_battery_warning\":" =
        ascii "\"low_battery_warning\"" ++ ascii ":" := by decide
    simp only [htype, hvoltage, hcurrent, hpower, hpercentage, hcharging, hlow, List.append_assoc]
  have hbuild : buildText v i p percentage charging low = _ := htext v i p
    (decimalInt percentage) (if charging then ascii "true" else ascii "false")
    (if low then ascii "true" else ascii "false")
  rw [assign_members] at hobject
  rw [hbuild]
  exact hobject

/-- So does the text of a record, when its numbers are read as finite ones. -/
lemma parses_buildJson {r : BatteryRecord}
    (hfinite : ∀ x ∈ [r.voltage_, r.current_ma_, r.power_mw_], isFinite (strtod (fixed3 x)) = true)
    (hpct : -2 ^ 63 ≤ r.percentage_ ∧ r.percentage_ < 2 ^ 63) :
    Parses strtod (buildJson r) (jsonOf strtod r) :=
  parses_buildText (parses_fixedText (hfinite r.voltage_ (by simp)))
    (parses_fixedText (hfinite r.current_ma_ (by simp)))
    (parses_fixedText (hfinite r.power_mw_ (by simp))) hpct

/-! ### Floating-point numbers and their texts -/

/-- A binary format: the number of bits of its exponents and of its fractions. -/
structure FloatFormat where
  exponent : ℕ
  fraction : ℕ

namespace FloatFormat

/-- `float` and `double`. -/
def binary32 : FloatFormat := ⟨8, 23⟩

def binary64 : FloatFormat := ⟨11, 52⟩

variable (F : FloatFormat)

/-- The sign bit. -/
def negative (bits : ℕ) : Bool := bits.testBit (F.exponent + F.fraction)

/-- The absolute value of a finite number; the fraction of a normal one has a leading 1. -/
def magnitude (bits : ℕ) : ℚ :=
  let e := bits / 2 ^ F.fraction % 2 ^ F.exponent
  let m := bits % 2 ^ F.fraction + if e = 0 then 0 else 2 ^ F.fraction
  (m * 2 ^ max e 1 : ℕ) / (2 ^ (2 ^ (F.exponent - 1) - 1 + F.fraction) : ℕ)

/-- The value of a finite number. -/
def value (bits : ℕ) : ℚ :=
  if F.negative bits then -F.magnitude bits else F.magnitude bits

lemma magnitude_nonneg (bits : ℕ) : 0 ≤ F.magnitude bits :=
  div_nonneg (Nat.cast_nonneg _) (Nat.cast_nonneg _)

lemma abs_value (bits : ℕ) : |F.value bits| = F.magnitude bits := by
  rw [value]
  split_ifs
  · rw [abs_neg, abs_of_nonneg (F.magnitude_nonneg bits)]
  · exact abs_of_nonneg (F.magnitude_nonneg bits)

end FloatFormat

open FloatFormat

/-- The bits of a `float` that is neither infinite nor no number. -/
abbrev FiniteFloat := {bits : UInt32 // (bits >>> 23) &&& 0xFF ≠ 0xFF}

/-- Its value. -/
def FiniteFloat.value (x : FiniteFloat) : ℚ := binary32.value x.val.toNat

/-- `j << x`, for a `float`. -/
def printFloat (x : FiniteFloat) : Bytes :=
  fixedText (binary32.negative x.val.toNat) (binary32.magnitude x.val.toNat)

/-- The value of digits, a point, and digits. -/
def unsignedValue (text : Bytes) : ℚ :=
  let fraction := (text.dropWhile isDigit).tail
  digitsValue (text.takeWhile isDigit) + digitsValue fraction / (10 ^ fraction.length : ℕ)

/-- The value of a text in fixed notation. -/
def fixedValue (text : Bytes) : ℚ :=
  if text.head? = some 0x2D then -unsignedValue text.tail else unsignedValue text

/-- A finite double that no other is closer to `q` than. -/
structure Nearest (q : ℚ) (bits : UInt64) : Prop where
  finite : isFinite bits = true
  near : ∀ b : UInt64, isFinite b = true →
    |binary64.value bits.toNat - q| ≤ |binary64.value b.toNat - q|

/-- A double that is nearest to a whole number of thousandths, which is at most half a thousandth
away from `x`. -/
def Rounded (x : ℚ) (bits : UInt64) : Prop :=
  ∃ n : ℤ, |n / 1000 - x| ≤ 1 / 2000 ∧ Nearest (n / 1000) bits

/-- Rounding goes no further than a half. -/
lemma roundHalfEven_near (y : ℚ) : |roundHalfEven y - y| ≤ 1 / 2 := by
  have hlow : 0 ≤ y - ⌊y⌋ := sub_nonneg.mpr (Int.floor_le y)
  have hhigh : y - ⌊y⌋ < 1 := sub_lt_iff_lt_add'.mpr (Int.lt_floor_add_one y)
  rw [roundHalfEven, abs_le]
  split_ifs with hbelow habove heven <;> push_cast <;> constructor <;> linarith

lemma roundHalfEven_nonneg {y : ℚ} (h : 0 ≤ y) : 0 ≤ roundHalfEven y := by
  have hfloor : 0 ≤ ⌊y⌋ := Int.floor_nonneg.mpr h
  rw [roundHalfEven]
  split_ifs <;> omega

/-- Three digits. -/
lemma digitsValue_three {n : ℕ} :
    digitsValue [digit (n / 100 % 10), digit (n / 10 % 10), digit (n % 10)] = n % 1000 := by
  have hdigit : ∀ d < 10, (digit d).toNat - 0x30 = d := by decide
  rw [digitsValue]
  simp only [List.foldl_cons, List.foldl_nil, hdigit _ (Nat.mod_lt _ (show 10 > 0 by decide))]
  omega

/-- The digits before the point, and three behind it. -/
lemma unsignedValue_digits (n : ℕ) :
    unsignedValue (decimal (n / 1000) ++ (ascii "." ++
      [digit (n / 100 % 10), digit (n / 10 % 10), digit (n % 10)])) = n / 1000 := by
  have htake : ∀ w, (decimal (n / 1000) ++ (ascii "." ++ w)).takeWhile isDigit =
      decimal (n / 1000) := fun w => by
    rw [List.takeWhile_append_of_pos fun c hc => isDigit_of_mem_decimal hc]
    exact List.append_nil _
  have hdrop : ∀ w, ((decimal (n / 1000) ++ (ascii "." ++ w)).dropWhile isDigit).tail = w :=
    fun w => by
      rw [List.dropWhile_append_of_pos fun c hc => isDigit_of_mem_decimal hc]
      rfl
  have hdiv : ((1000 * (n / 1000) + n % 1000 : ℕ) : ℚ) = n := by rw [Nat.div_add_mod]
  simp only [unsignedValue, htake, hdrop, digitsValue_decimal, digitsValue_three,
    List.length_cons, List.length_nil]
  push_cast at hdiv ⊢
  linarith

/-- **What a text in fixed notation says.** -/
lemma fixedValue_fixedText (negative : Bool) {magnitude : ℚ} (h : 0 ≤ magnitude) :
    fixedValue (fixedText negative magnitude) =
      ((if negative then -roundHalfEven (magnitude * 1000)
        else roundHalfEven (magnitude * 1000) : ℤ) : ℚ) / 1000 := by
  obtain ⟨n, hn⟩ := Int.eq_ofNat_of_zero_le
    (roundHalfEven_nonneg (mul_nonneg h (by norm_num : (0 : ℚ) ≤ 1000)))
  obtain ⟨c, w, hw, hc⟩ : ∃ c w, decimal (n / 1000) = c :: w ∧ isDigit c = true := by
    obtain ⟨c, w, q, hw, -⟩ := leads_decimal (n / 1000)
    exact ⟨c, w, hw, isDigit_of_mem_decimal (hw ▸ List.mem_cons_self)⟩
  have hhead : ∀ v, (decimal (n / 1000) ++ v).head? ≠ some 0x2D := fun v hv => by
    rw [hw] at hv
    obtain rfl : c = 0x2D := Option.some.inj hv
    cases hc
  rw [fixedText, hn, Int.toNat_natCast]
  cases negative
  · rw [if_neg Bool.false_ne_true, if_neg Bool.false_ne_true, List.nil_append, fixedValue,
      if_neg (hhead _), unsignedValue_digits, Int.cast_natCast]
  · have hminus : ∀ v, fixedValue (ascii "-" ++ v) = -unsignedValue v := fun v => if_pos rfl
    rw [if_pos rfl, if_pos rfl, hminus, unsignedValue_digits, Int.cast_neg, Int.cast_natCast,
      neg_div]

/-- So it is the number up to half a thousandth. -/
lemma fixedValue_printFloat (x : FiniteFloat) :
    ∃ n : ℤ, fixedValue (printFloat x) = n / 1000 ∧ |n / 1000 - x.value| ≤ 1 / 2000 := by
  refine ⟨_, fixedValue_fixedText _ (binary32.magnitude_nonneg _), ?_⟩
  rw [FiniteFloat.value, FloatFormat.value]
  have hnear := abs_le.mp (roundHalfEven_near (binary32.magnitude x.val.toNat * 1000))
  rw [abs_le]
  split_ifs <;> push_cast <;> constructor <;> linarith

/-- The members of a monitor as they are: three floats and an `int`. -/
structure FloatRecord where
  voltage_ : FiniteFloat
  current_ma_ : FiniteFloat
  power_mw_ : FiniteFloat
  percentage_ : Int32
  charging_ : Bool
  low_battery_ : Bool

namespace FloatRecord

/-- The floats. -/
def floats (r : FloatRecord) : List FiniteFloat := [r.voltage_, r.current_ma_, r.power_mw_]

/-- `build_json()`. -/
def buildJson (r : FloatRecord) : Bytes :=
  buildText (printFloat r.voltage_) (printFloat r.current_ma_) (printFloat r.power_mw_)
    r.percentage_.toInt r.charging_ r.low_battery_

/-- Their values. -/
def values (r : FloatRecord) : BatteryRecord where
  voltage_ := r.voltage_.value
  current_ma_ := r.current_ma_.value
  power_mw_ := r.power_mw_.value
  percentage_ := r.percentage_.toInt
  charging_ := r.charging_
  low_battery_ := r.low_battery_

/-- **The text of the members is that of their values**, a zero having no sign. -/
lemma buildJson_values (r : FloatRecord)
    (hzero : ∀ x ∈ r.floats, x.value = 0 → binary32.negative x.val.toNat = false) :
    BatteryMonitor.buildJson r.values = r.buildJson := by
  have hprint : ∀ x ∈ r.floats, fixed3 x.value = printFloat x := by
    intro x hx
    have hsign : decide (x.value < 0) = binary32.negative x.val.toNat := by
      have hnonneg := binary32.magnitude_nonneg x.val.toNat
      have hx := hzero x hx
      rw [FiniteFloat.value, FloatFormat.value] at hx ⊢
      cases hneg : binary32.negative x.val.toNat
      · rw [hneg] at hx
        simpa using hnonneg
      · rw [hneg, if_pos rfl] at hx
        rw [if_pos rfl]
        refine decide_eq_true (neg_lt_zero.mpr (hnonneg.lt_of_ne' fun heq => ?_))
        cases hx (neg_eq_zero.mpr heq)
    rw [fixed3, printFloat, hsign, FiniteFloat.value, abs_value]
  rw [BatteryMonitor.buildJson, buildJson, ← hprint r.voltage_ (by simp [floats]),
    ← hprint r.current_ma_ (by simp [floats]), ← hprint r.power_mw_ (by simp [floats])]
  rfl

end FloatRecord

/-- **The text of any record is parsed to its members**, when `strtod` reads the three numbers as
the nearest doubles: the object has the record's percentage and flags, and its numbers are the
record's to three decimals. -/
theorem build_json_parses (strtod : Bytes → UInt64) (r : FloatRecord)
    (hstrtod : ∀ x ∈ r.floats, Nearest (fixedValue (printFloat x)) (strtod (printFloat x))) :
    ∃ voltage current power,
      parse strtod r.buildJson = .ok (recordObject voltage current power r.percentage_.toInt
        r.charging_ r.low_battery_) ∧
      Rounded r.voltage_.value voltage ∧ Rounded r.current_ma_.value current ∧
        Rounded r.power_mw_.value power := by
  have hrounded : ∀ x ∈ r.floats, Rounded x.value (strtod (printFloat x)) := by
    intro x hx
    obtain ⟨n, hn, hnear⟩ := fixedValue_printFloat x
    exact ⟨n, hnear, hn ▸ hstrtod x hx⟩
  have hparses : ∀ x ∈ r.floats,
      Parses strtod (printFloat x) (.numberFloat (strtod (printFloat x))) :=
    fun x hx => parses_fixedText (hstrtod x hx).finite
  have hvoltage : r.voltage_ ∈ r.floats := by simp [FloatRecord.floats]
  have hcurrent : r.current_ma_ ∈ r.floats := by simp [FloatRecord.floats]
  have hpower : r.power_mw_ ∈ r.floats := by simp [FloatRecord.floats]
  have hpct : -2 ^ 63 ≤ r.percentage_.toInt ∧ r.percentage_.toInt < 2 ^ 63 := by
    have hlow := r.percentage_.le_toInt
    have hhigh := r.percentage_.toInt_lt
    omega
  exact ⟨_, _, _, (parses_buildText (hparses _ hvoltage) (hparses _ hcurrent)
    (hparses _ hpower) hpct).parse, hrounded _ hvoltage, hrounded _ hcurrent, hrounded _ hpower⟩

/-- `strtod` on three texts. -/
def threeTexts (text : Bytes) : UInt64 :=
  if text = ascii "3.500" then 0x400C000000000000
  else if text = ascii "-104.500" then 0xC05A200000000000
  else 0

/-- A battery that is discharged, at 3.500244 V. -/
def discharging : FloatRecord where
  voltage_ := ⟨0x40600400, by decide⟩
  current_ma_ := ⟨0xC2D10000, by decide⟩
  power_mw_ := ⟨0, by decide⟩
  percentage_ := 41
  charging_ := false
  low_battery_ := false

example : discharging.buildJson = ascii (
    "\x7b\"type\":\"battery_update\"," ++
    "\"voltage_v\":3.500,\"current_ma\":-104.500,\"power_mw\":0.000,\"percentage\":41," ++
    "\"charging\":false,\"low_battery_warning\":false\x7d") := by decide +kernel

/-- A double that is the number itself is nearest. -/
lemma Nearest.of_eq {q : ℚ} {bits : UInt64} (hfinite : isFinite bits = true)
    (h : binary64.value bits.toNat = q) : Nearest q bits where
  finite := hfinite
  near b _ := by
    rw [h, sub_self, abs_zero]
    exact abs_nonneg _

/-- Its voltage is read as 3.5. -/
theorem build_json_parses_discharging : ∃ voltage current power,
    parse threeTexts discharging.buildJson =
      .ok (recordObject voltage current power 41 false false) ∧
    Rounded discharging.voltage_.value voltage ∧ Rounded discharging.current_ma_.value current ∧
      Rounded discharging.power_mw_.value power := by
  refine build_json_parses threeTexts discharging ?_
  have hvoltage : Nearest (fixedValue (printFloat discharging.voltage_))
      (threeTexts (printFloat discharging.voltage_)) :=
    .of_eq (by decide +kernel) (by decide +kernel)
  have hcurrent : Nearest (fixedValue (printFloat discharging.current_ma_))
      (threeTexts (printFloat discharging.current_ma_)) :=
    .of_eq (by decide +kernel) (by decide +kernel)
  have hpower : Nearest (fixedValue (printFloat discharging.power_mw_))
      (threeTexts (printFloat discharging.power_mw_)) :=
    .of_eq (by decide +kernel) (by decide +kernel)
  intro x hx
  simp only [FloatRecord.floats, List.mem_cons, List.not_mem_nil, or_false] at hx
  rcases hx with rfl | rfl | rfl
  · exact hvoltage
  · exact hcurrent
  · exact hpower

end BatteryMonitor

end RasPiZeroCam
