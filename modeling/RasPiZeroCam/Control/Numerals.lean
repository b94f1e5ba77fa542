import RasPiZeroCam.Control.Parser

/-!
The numbers of a JSON text: what `dump` prints is what the lexer reads.

* `Leads`, `Numeral`: a way through the labels of `scan_number()`, and a text that is a number.
* `scan_numeral`, `scan_minus_numeral`: such a text is one token, whatever ends it.
* `numeral_decimal`, `digitsValue_decimal`: the text of an integer.
* `formatBuffer`, `toChars`, `dumpFloat`: `format_buffer`, `to_chars` and `dump_float`; the digits
  of a floating-point number are those of `grisu2`, which is a parameter, as `strtod` is.
* `numeral_formatBuffer`: the text of a floating-point number, in each of its five forms.
-/

namespace RasPiZeroCam

namespace Lexer

/-! ### Ways through the labels -/

/-- The text `w` leads from one label to another. -/
def Leads (q : NumberState) (t : NumberType) (w : Bytes) (q' : NumberState) (t' : NumberType) :
    Prop := ∀ buf u, scanDigits q t buf (w ++ u) = scanDigits q' t' (buf ++ w) u

lemma Leads.nil (q : NumberState) (t : NumberType) : Leads q t [] q t := fun buf u => by
  rw [List.nil_append, List.append_nil]

lemma Leads.append {q q' q'' : NumberState} {t t' t'' : NumberType} {w w' : Bytes}
    (h : Leads q t w q' t') (h' : Leads q' t' w' q'' t'') : Leads q t (w ++ w') q'' t'' :=
  fun buf u => by rw [List.append_assoc, h, h', List.append_assoc]

lemma Leads.byte {q q' : NumberState} {c : UInt8} (h : q.step (some c) = .goto q')
    (t : NumberType) : Leads q t [c] q' (q'.enter t) := fun buf u => by
  rw [List.singleton_append, scanDigits, h]

/-- A label that goes on with digits. -/
lemma Leads.digits {q : NumberState} {t : NumberType} {w : Bytes}
    (hq : ∀ c, isDigit c = true → q.step (some c) = .goto q) (ht : q.enter t = t)
    (hw : ∀ c ∈ w, isDigit c = true) : Leads q t w q t := by
  induction w with
  | nil => exact .nil q t
  | cons c w ih =>
      have hfirst := Leads.byte (hq c (hw c List.mem_cons_self)) t
      rw [ht] at hfirst
      exact hfirst.append (ih fun d hd => hw d (List.mem_cons_of_mem _ hd))

/-- Digits behind a label that wants one. -/
lemma Leads.some_digits {q q' : NumberState} {t : NumberType} {w : Bytes} (hne : w ≠ [])
    (hq : ∀ c, isDigit c = true → q.step (some c) = .goto q')
    (hq' : ∀ c, isDigit c = true → q'.step (some c) = .goto q') (ht : q'.enter t = t)
    (hw : ∀ c ∈ w, isDigit c = true) : Leads q t w q' t := by
  obtain ⟨c, w, rfl⟩ := List.exists_cons_of_ne_nil hne
  have hfirst := Leads.byte (hq c (hw c List.mem_cons_self)) t
  rw [ht] at hfirst
  exact hfirst.append (.digits hq' ht fun d hd => hw d (List.mem_cons_of_mem _ hd))

lemma step_any1 {c : UInt8} (h : isDigit c = true) :
    NumberState.any1.step (some c) = .goto .any1 := if_pos h

lemma step_decimal1 {c : UInt8} (h : isDigit c = true) :
    NumberState.decimal1.step (some c) = .goto .decimal2 := if_pos h

lemma step_decimal2 {c : UInt8} (h : isDigit c = true) :
    NumberState.decimal2.step (some c) = .goto .decimal2 := if_pos h

lemma step_sign {c : UInt8} (h : isDigit c = true) :
    NumberState.sign.step (some c) = .goto .any2 := if_pos h

lemma step_any2 {c : UInt8} (h : isDigit c = true) :
    NumberState.any2.step (some c) = .goto .any2 := if_pos h

/-! ### Numerals -/

/-- What may stand behind a number: no character that goes on with it. -/
def Ends (u : Bytes) : Prop :=
  ∀ c ∈ u.head?, isDigit c = false ∧ c ≠ 0x2E ∧ c ≠ 0x65 ∧ c ≠ 0x45

/-- The labels at which a number may end. -/
def NumberState.final : NumberState → Bool
  | zero => true
  | any1 => true
  | decimal2 => true
  | any2 => true
  | _ => false

lemma NumberState.step_done {q : NumberState} (hq : q.final = true) {c : Option UInt8}
    (hc : ∀ b ∈ c, isDigit b = false ∧ b ≠ 0x2E ∧ b ≠ 0x65 ∧ b ≠ 0x45) : q.step c = .done := by
  cases c with
  | none => cases q <;> first | rfl | cases hq
  | some b =>
      obtain ⟨hdigit, hpoint, hexp, hExp⟩ := hc b rfl
      cases q <;> first
        | simp [step, hdigit, hpoint, hexp, hExp]; done
        | cases hq

/-- A number ends where nothing goes on with it. -/
lemma scanDigits_end {q : NumberState} (hq : q.final = true) (t : NumberType) (buf : Bytes)
    {u : Bytes} (hu : Ends u) : scanDigits q t buf u = .ok (t, buf, u) := by
  cases u with
  | nil => rw [scanDigits, NumberState.step_done hq fun _ h => (by cases h)]
  | cons c u => rw [scanDigits, NumberState.step_done hq (c := some c) hu]

/-- A text that is a number without its sign; `f` is what becomes of its type. -/
structure Numeral (w : Bytes) (f : NumberType → NumberType) : Prop where
  leads : ∃ c w' q q', w = c :: w' ∧ NumberState.first c = some q ∧ q'.final = true ∧
    ∀ t, Leads q t w' q' (f t)

/-- The first digit of a numeral, and its label. -/
lemma first_spec {c : UInt8} {q : NumberState} (h : NumberState.first c = some q) :
    isDigit c = true ∧ q = (if c = 0x30 then .zero else .any1) ∧ ∀ t, q.enter t = t := by
  rw [NumberState.first] at h
  split_ifs at h with hzero hdigit <;> cases h
  · exact ⟨by rw [hzero]; rfl, (if_pos hzero).symm, fun _ => rfl⟩
  · exact ⟨hdigit, (if_neg hzero).symm, fun _ => rfl⟩

/-- A digit begins a number, and so does a minus sign. -/
lemma scan_digit (strtod : Bytes → UInt64) {c : UInt8} (h : c = 0x2D ∨ isDigit c = true)
    (s : Bytes) : scan strtod (c :: s) = scanNumber strtod c s := by
  have hrange : c = 0x2D ∨ 0x30 ≤ c ∧ c ≤ 0x39 := by
    rw [isDigit, Bool.and_eq_true, decide_eq_true_eq, decide_eq_true_eq] at h
    exact h
  have hne : ∀ d : UInt8, d ≠ 0x2D → (d < 0x30 ∨ 0x39 < d) → c ≠ d := by
    rintro d hminus hd rfl
    rcases hrange with heq | ⟨hlo, hhi⟩
    · exact hminus heq
    · rcases hd with hd | hd
      · exact absurd hd (UInt8.not_lt.mpr hlo)
      · exact absurd hd (UInt8.not_lt.mpr hhi)
  have hspace : isWhitespace c = false := by
    simp only [isWhitespace, Bool.or_eq_false_iff, decide_eq_false_iff_not]
    exact ⟨⟨⟨hne _ (by decide) (by decide), hne _ (by decide) (by decide)⟩,
      hne _ (by decide) (by decide)⟩, hne _ (by decide) (by decide)⟩
  rw [scan, List.dropWhile_cons_of_neg (by rw [hspace]; decide)]
  simp only [hne 0x5B (by decide) (by decide), hne 0x5D (by decide) (by decide),
    hne 0x7B (by decide) (by decide), hne 0x7D (by decide) (by decide),
    hne 0x3A (by decide) (by decide), hne 0x2C (by decide) (by decide),
    hne 0x74 (by decide) (by decide), hne 0x66 (by decide) (by decide),
    hne 0x6E (by decide) (by decide), hne 0x22 (by decide) (by decide), if_false, if_pos h]

variable {strtod : Bytes → UInt64} {w u : Bytes} {f : NumberType → NumberType}

/-- **A numeral is one token.** -/
lemma scan_numeral (h : Numeral w f) (hu : Ends u) :
    scan strtod (w ++ u) = (convert strtod (f .unsigned) w, u) := by
  obtain ⟨c, w', q, q', rfl, hfirst, hfinal, hleads⟩ := h.leads
  obtain ⟨hdigit, hq, henter⟩ := first_spec hfirst
  have hminus : c ≠ 0x2D := by
    rintro rfl
    cases hdigit
  rw [List.cons_append, scan_digit strtod (Or.inr hdigit), scanNumber, if_neg hminus, ← hq]
  simp only [henter, hleads .unsigned [c] u, scanDigits_end hfinal _ _ hu, List.singleton_append]

/-- **So is one behind a minus sign.** -/
lemma scan_minus_numeral (h : Numeral w f) (hu : Ends u) :
    scan strtod (0x2D :: (w ++ u)) = (convert strtod (f .integer) (0x2D :: w), u) := by
  obtain ⟨c, w', q, q', rfl, hfirst, hfinal, hleads⟩ := h.leads
  obtain ⟨-, -, henter⟩ := first_spec hfirst
  have hstep : NumberState.minus.step (some c) = .goto q := by
    simp only [NumberState.step, Option.bind_some, hfirst]
  have hall : Leads .minus .integer (c :: w') q' (f .integer) := by
    have hbyte := Leads.byte hstep .integer
    rw [henter] at hbyte
    exact hbyte.append (hleads .integer)
  rw [scan_digit strtod (Or.inl rfl), scanNumber, if_pos rfl]
  simp only [NumberState.enter, hall [0x2D] u, scanDigits_end hfinal _ _ hu, List.singleton_append]

/-! ### Integers -/

/-- The text of a digit. -/
lemma decimal_of_lt {n : ℕ} (h : n < 10) : decimal n = [UInt8.ofNat (0x30 + n)] := by
  interval_cases n <;> rfl

/-- The text of a number is that of its tenth, and the last digit. -/
lemma decimal_of_le {n : ℕ} (h : 10 ≤ n) :
    decimal n = decimal (n / 10) ++ [UInt8.ofNat (0x30 + n % 10)] := by
  have hlast := decimal_of_lt (Nat.mod_lt n (show 0 < 10 by decide))
  rw [decimal, ascii, Nat.toList_repr, Nat.toDigits_of_lt_base (Nat.mod_lt n (by decide))] at hlast
  rw [decimal, decimal, ascii, ascii, Nat.toList_repr, Nat.toList_repr,
    Nat.toDigits_of_base_le (by decide) h, List.map_append, hlast]

lemma isDigit_of_mem_decimal {n : ℕ} {c : UInt8} (h : c ∈ decimal n) : isDigit c = true := by
  rw [isDigit, Bool.and_eq_true, decide_eq_true_eq, decide_eq_true_eq]
  exact digit_of_mem_decimal h

/-- **The digits stand for the number.** -/
lemma digitsValue_decimal (n : ℕ) : digitsValue (decimal n) = n := by
  induction n using Nat.strong_induction_on with
  | _ n ih =>
    have hdigit : ∀ d < 10, (UInt8.ofNat (0x30 + d)).toNat - 0x30 = d := by decide
    rcases Nat.lt_or_ge n 10 with hlt | hge
    · rw [decimal_of_lt hlt]
      exact (Nat.zero_add _).trans (hdigit n hlt)
    · have htenth := ih (n / 10) (Nat.div_lt_self (by omega) (by decide))
      rw [decimal_of_le hge]
      rw [digitsValue] at htenth ⊢
      rw [List.foldl_append, htenth, List.foldl_cons, List.foldl_nil,
        hdigit _ (Nat.mod_lt n (by decide))]
      omega

/-- No number but zero begins with it. -/
lemma decimal_head {n : ℕ} (h : 0 < n) : ∃ c w, decimal n = c :: w ∧ c ≠ 0x30 := by
  induction n using Nat.strong_induction_on with
  | _ n ih =>
    have hdigit : ∀ d < 10, 0 < d → UInt8.ofNat (0x30 + d) ≠ 0x30 := by decide
    rcases Nat.lt_or_ge n 10 with hlt | hge
    · exact ⟨_, [], decimal_of_lt hlt, hdigit n hlt h⟩
    · obtain ⟨c, w, heq, hc⟩ := ih (n / 10) (Nat.div_lt_self h (by decide)) (by omega)
      exact ⟨c, _, by rw [decimal_of_le hge, heq, List.cons_append], hc⟩

/-- The digits of a number lead to the label of the first one. -/
lemma leads_decimal (n : ℕ) : ∃ c w q, decimal n = c :: w ∧ NumberState.first c = some q ∧
    (q = .zero ∨ q = .any1) ∧ ∀ t, Leads q t w q t := by
  rcases Nat.eq_zero_or_pos n with rfl | hpos
  · exact ⟨0x30, [], .zero, rfl, rfl, Or.inl rfl, fun t => .nil _ t⟩
  · obtain ⟨c, w, heq, hc⟩ := decimal_head hpos
    have hdigits : ∀ d ∈ c :: w, isDigit d = true := fun d hd =>
      isDigit_of_mem_decimal (heq ▸ hd)
    have hfirst : NumberState.first c = some .any1 := by
      rw [NumberState.first, if_neg hc, if_pos (hdigits c List.mem_cons_self)]
    exact ⟨c, w, .any1, heq, hfirst, Or.inr rfl, fun t =>
      .digits (fun _ => step_any1) rfl fun d hd => hdigits d (List.mem_cons_of_mem _ hd)⟩

/-- **The text of an integer is a numeral.** -/
lemma numeral_decimal (n : ℕ) : Numeral (decimal n) id := by
  obtain ⟨c, w, q, heq, hfirst, hq, hleads⟩ := leads_decimal n
  exact ⟨c, w, q, q, heq, hfirst, by rcases hq with rfl | rfl <;> rfl, hleads⟩

/-- A fraction, from the point on. -/
lemma leads_fraction {q : NumberState} (hq : q.step (some 0x2E) = .goto .decimal1)
    (hne : w ≠ []) (hw : ∀ c ∈ w, isDigit c = true) (t : NumberType) :
    Leads q t (ascii "." ++ w) .decimal2 .float :=
  (Leads.byte hq t).append
    (.some_digits hne (fun _ => step_decimal1) (fun _ => step_decimal2) rfl hw)

/-- **So is that of a number in fixed notation.** -/
lemma numeral_fixed (n : ℕ) (hne : w ≠ []) (hw : ∀ c ∈ w, isDigit c = true) :
    Numeral (decimal n ++ (ascii "." ++ w)) fun _ => .float := by
  obtain ⟨c, v, q, heq, hfirst, hq, hleads⟩ := leads_decimal n
  have hpoint : q.step (some 0x2E) = .goto .decimal1 := by rcases hq with rfl | rfl <;> rfl
  exact ⟨c, v ++ (ascii "." ++ w), q, .decimal2, by rw [heq, List.cons_append], hfirst, rfl,
    fun t => (hleads t).append (leads_fraction hpoint hne hw t)⟩

lemma scan_decimal {n : ℕ} (hn : n < 2 ^ 64) (hu : Ends u) :
    scan strtod (decimal n ++ u) = (.valueUnsigned n, u) := by
  rw [scan_numeral (numeral_decimal n) hu, id, convert, digitsValue_decimal, if_pos hn]

lemma scan_minus_decimal {n : ℕ} (hn : n ≤ 2 ^ 63) (hu : Ends u) :
    scan strtod (0x2D :: (decimal n ++ u)) = (.valueInteger (-n), u) := by
  rw [scan_minus_numeral (numeral_decimal n) hu, id, convert, List.tail_cons, digitsValue_decimal,
    if_pos hn]

end Lexer

/-! ### Floating-point numbers -/

namespace Dtoa

/-- `'0' + d`. -/
def digit (d : ℕ) : UInt8 := UInt8.ofNat (0x30 + d)

/-- `append_exponent(buf, e)`. -/
def appendExponent (e : ℤ) : Bytes :=
  let k := e.natAbs
  (if e < 0 then ascii "-" else ascii "+") ++
    if k < 10 then [digit 0, digit k]
    else if k < 100 then [digit (k / 10), digit (k % 10)]
    else [digit (k / 100), digit (k % 100 / 10), digit (k % 100 % 10)]

/-- `format_buffer(buf, len, decimal_exponent, min_exp, max_exp)`. -/
def formatBuffer (digits : Bytes) (decimal_exponent min_exp max_exp : ℤ) : Bytes :=
  let k : ℤ := digits.length
  let n := k + decimal_exponent
  if k ≤ n ∧ n ≤ max_exp then digits ++ List.replicate (n - k).toNat 0x30 ++ ascii ".0"
  else if 0 < n ∧ n ≤ max_exp then digits.take n.toNat ++ ascii "." ++ digits.drop n.toNat
  else if min_exp < n ∧ n ≤ 0 then ascii "0." ++ List.replicate (-n).toNat 0x30 ++ digits
  else if k = 1 then digits ++ ascii "e" ++ appendExponent (n - 1)
  else digits.take 1 ++ ascii "." ++ digits.drop 1 ++ ascii "e" ++ appendExponent (n - 1)

/-- `to_chars(first, last, value)`; `grisu2` gives the digits and their exponent. -/
def toChars (grisu2 : UInt64 → Bytes × ℤ) (bits : UInt64) : Bytes :=
  let value := bits &&& 0x7FFFFFFFFFFFFFFF
  (if bits >>> 63 = 1 then ascii "-" else []) ++
    if value = 0 then ascii "0.0" else formatBuffer (grisu2 value).1 (grisu2 value).2 (-4) 15

/-- `dump_float(x)`. -/
def dumpFloat (grisu2 : UInt64 → Bytes × ℤ) (bits : UInt64) : Bytes :=
  if TextParser.isFinite bits then toChars grisu2 bits else ascii "null"

example : formatBuffer (ascii "314") (-2) (-4) 15 = ascii "3.14" := rfl

/-- What `grisu2` writes: decimal digits without a leading zero, with an exponent that
`append_exponent` can print. -/
structure Digits (digits : Bytes) (decimal_exponent : ℤ) : Prop where
  head : ∃ c w, digits = c :: w ∧ c ≠ 0x30
  all : ∀ c ∈ digits, Lexer.isDigit c = true
  exponent : (digits.length + decimal_exponent - 1).natAbs < 1000

open Lexer

lemma isDigit_digit {d : ℕ} (h : d < 10) : isDigit (digit d) = true := by
  interval_cases d <;> rfl

/-- The exponent, behind an `e`. -/
lemma leads_exponent {e : ℤ} (h : e.natAbs < 1000) (t : NumberType) :
    Leads .exponent t (appendExponent e) .any2 t := by
  have hsign : ∀ c, c = 0x2B ∨ c = 0x2D → Leads .exponent t [c] .sign t := fun c hc =>
    .byte (by rcases hc with rfl | rfl <;> rfl) t
  have hdigits : ∀ w : Bytes, w ≠ [] → (∀ c ∈ w, isDigit c = true) → Leads .sign t w .any2 t :=
    fun w hne hw => .some_digits hne (fun _ => step_sign) (fun _ => step_any2) rfl hw
  rw [appendExponent]
  refine Leads.append (show Leads .exponent t _ .sign t from ?_) (hdigits _ ?_ ?_)
  · split_ifs
    · exact hsign 0x2D (Or.inr rfl)
    · exact hsign 0x2B (Or.inl rfl)
  · split_ifs <;> exact List.cons_ne_nil _ _
  · split_ifs <;> simp only [List.mem_cons, List.not_mem_nil, or_false, forall_eq_or_imp, forall_eq]
    · exact ⟨rfl, isDigit_digit (by omega)⟩
    · exact ⟨isDigit_digit (by omega), isDigit_digit (by omega)⟩
    · exact ⟨isDigit_digit (by omega), isDigit_digit (by omega), isDigit_digit (by omega)⟩

/-- A number that begins with digits, the first of which is not zero. -/
lemma numeral_of_digits {digits v w : Bytes} {q : NumberState}
    (hhead : ∃ c w, digits = c :: w ∧ c ≠ 0x30) (hdigits : ∀ c ∈ digits, isDigit c = true)
    (hw : w = digits ++ v) (hv : ∀ t, Leads .any1 t v q .float) (hq : q.final = true) :
    Numeral w fun _ => .float := by
  obtain ⟨c, ds, rfl, hc⟩ := hhead
  have hfirst : NumberState.first c = some .any1 := by
    rw [NumberState.first, if_neg hc, if_pos (hdigits c List.mem_cons_self)]
  refine ⟨c, ds ++ v, .any1, q, hw, hfirst, hq, fun t => ?_⟩
  have hrest : Leads .any1 t ds .any1 t :=
    .digits (fun _ => step_any1) rfl fun d hd => hdigits d (List.mem_cons_of_mem _ hd)
  exact hrest.append (hv t)

/-- **The text of a floating-point number is a numeral**, in each of its forms, and one that is
not read as an integer. -/
lemma numeral_formatBuffer {digits : Bytes} {decimal_exponent : ℤ}
    (h : Digits digits decimal_exponent) (min_exp max_exp : ℤ) :
    Numeral (formatBuffer digits decimal_exponent min_exp max_exp) fun _ => .float := by
  have hzeros : ∀ n, ∀ c ∈ List.replicate n (0x30 : UInt8), isDigit c = true := fun n c hc => by
    rw [List.eq_of_mem_replicate hc]
    rfl
  obtain ⟨⟨c, ds, hcons, hc⟩, hall, hexp⟩ := h
  have hone : ∃ c' w, digits.take 1 = c' :: w ∧ c' ≠ 0x30 := ⟨c, [], by rw [hcons]; rfl, hc⟩
  have htake : ∀ n, ∀ c ∈ digits.take n, isDigit c = true := fun n c hc =>
    hall c (List.mem_of_mem_take hc)
  have hdrop : ∀ n, ∀ c ∈ digits.drop n, isDigit c = true := fun n c hc =>
    hall c (List.mem_of_mem_drop hc)
  rw [formatBuffer]
  split_ifs with hfixed hpoint hsmall hk
  · -- digits[000].0
    refine numeral_of_digits ⟨c, ds ++ _, by rw [hcons]; rfl, hc⟩ (fun d hd => ?_) rfl
      (fun t => leads_fraction rfl (List.cons_ne_nil _ _) (hzeros 1) t) rfl
    rcases List.mem_append.mp hd with hd | hd
    · exact hall d hd
    · exact hzeros _ d hd
  · -- dig.its
    obtain ⟨n, hn⟩ : ∃ n : ℕ, (digits.length + decimal_exponent).toNat = n + 1 :=
      ⟨_, (Nat.succ_pred_eq_of_pos (by omega)).symm⟩
    have hne : digits.drop (digits.length + decimal_exponent).toNat ≠ [] := by
      rw [Ne, List.drop_eq_nil_iff]
      omega
    refine numeral_of_digits ⟨c, ds.take n, by rw [hn, hcons]; rfl, hc⟩ (htake _)
      (List.append_assoc _ _ _) (fun t => leads_fraction rfl hne (hdrop _) t) rfl
  · -- 0.[000]digits
    refine ⟨0x30, _, .zero, .decimal2, List.append_assoc _ _ _, rfl, rfl, fun t => ?_⟩
    refine leads_fraction rfl (w := _ ++ digits) (by rw [hcons]; simp) (fun d hd => ?_) t
    rcases List.mem_append.mp hd with hd | hd
    · exact hzeros _ d hd
    · exact hall d hd
  · -- dE+123
    refine numeral_of_digits (q := .any2) ⟨c, ds, hcons, hc⟩ hall (List.append_assoc _ _ _)
      (fun t => ?_) rfl
    exact (Leads.byte (c := 0x65) rfl t).append (leads_exponent hexp _)
  · -- d.igitsE+123
    have hne : digits.drop 1 ≠ [] := by
      have hpos : 0 < digits.length := by
        rw [hcons]
        exact Nat.succ_pos _
      rw [Ne, List.drop_eq_nil_iff]
      omega
    refine numeral_of_digits (q := .any2) hone (htake 1)
      (v := ascii "." ++ digits.drop 1 ++ (ascii "e" ++ appendExponent _))
      (by simp only [List.append_assoc]; rfl) (fun t => ?_) rfl
    refine (leads_fraction rfl hne (hdrop 1) t).append ?_
    exact (Leads.byte (c := 0x65) rfl .float).append (leads_exponent hexp _)

/-- What a floating-point number needs to be read back: digits of `grisu2`, from which `strtod` gets
the number again. -/
structure ReadsBack (strtod : Bytes → UInt64) (grisu2 : UInt64 → Bytes × ℤ) (bits : UInt64) :
    Prop where
  digits : bits &&& 0x7FFFFFFFFFFFFFFF ≠ 0 → Digits (grisu2 (bits &&& 0x7FFFFFFFFFFFFFFF)).1
    (grisu2 (bits &&& 0x7FFFFFFFFFFFFFFF)).2
  value : strtod (toChars grisu2 bits) = bits

/-- **A floating-point number is read back.** -/
lemma scan_dumpFloat {strtod : Bytes → UInt64} {grisu2 : UInt64 → Bytes × ℤ} {bits : UInt64}
    (hfinite : TextParser.isFinite bits = true) (h : ReadsBack strtod grisu2 bits) {u : Bytes}
    (hu : Ends u) : scan strtod (dumpFloat grisu2 bits ++ u) = (.valueFloat bits, u) := by
  have hnumeral : Numeral (if bits &&& 0x7FFFFFFFFFFFFFFF = 0 then ascii "0.0" else
      formatBuffer (grisu2 (bits &&& 0x7FFFFFFFFFFFFFFF)).1
        (grisu2 (bits &&& 0x7FFFFFFFFFFFFFFF)).2 (-4) 15) fun _ => .float := by
    split_ifs with hzero
    · exact ⟨0x30, _, .zero, .decimal2, rfl, rfl, rfl, fun t =>
        leads_fraction rfl (List.cons_ne_nil _ _) (w := ascii "0")
          (List.all_eq_true.mp rfl) t⟩
    · exact numeral_formatBuffer (h.digits hzero) _ _
  have hvalue := h.value
  rw [toChars] at hvalue
  rw [dumpFloat, if_pos hfinite, toChars]
  by_cases hsign : bits >>> 63 = 1
  · simp only [if_pos hsign] at hvalue ⊢
    refine (scan_minus_numeral hnumeral hu).trans ?_
    rw [convert]
    exact congrArg (fun x => (Token.valueFloat x, u)) hvalue
  · simp only [if_neg hsign, List.nil_append] at hvalue ⊢
    rw [scan_numeral hnumeral hu, convert, hvalue]

end Dtoa

end RasPiZeroCam
