import RasPiZeroCam.Control.RoundTrip

/-!
The UTF-8 check of the WebSocket library, which decodes, and the one of the JSON library, which
walks a table.

* `isValidUtf8`: `ws::impl::is_valid_utf8`.
* `Utf8State.run_owed_iff`: what the table takes, character by character.
* `sequence_iff`: the bytes behind a first byte decode to a character exactly when they lie in the
  ranges of the table.
* `is_valid_utf8_iff`: the two checks accept the same texts.
* `Json.dump_valid`: what is serialized is such a text.
-/

namespace RasPiZeroCam

namespace Ws

/-- The length of a sequence and the bits of its first byte, which is not of ASCII. -/
def sequenceStart (c : UInt8) : Option (ℕ × ℕ) :=
  if c &&& 0xE0 = 0xC0 then some (2, (c &&& 0x1F).toNat)
  else if c &&& 0xF0 = 0xE0 then some (3, (c &&& 0x0F).toNat)
  else if c &&& 0xF8 = 0xF0 then some (4, (c &&& 0x07).toNat)
  else none

/-- The bytes behind the first one: `cp = (cp << 6) | (b & 0x3F)`. -/
def sequenceRest : ℕ → Bytes → Option ℕ
  | cp, [] => some cp
  | cp, b :: s =>
      if b &&& 0xC0 ≠ 0x80 then none else sequenceRest (cp <<< 6 ||| (b &&& 0x3F).toNat) s

/-- An overlong sequence, half of a surrogate pair, or no character at all. -/
def badCodepoint (len cp : ℕ) : Bool :=
  (len = 2 ∧ cp < 0x80) ∨ (len = 3 ∧ cp < 0x800) ∨ (len = 4 ∧ cp < 0x10000) ∨
    (cp ≥ 0xD800 ∧ cp ≤ 0xDFFF) ∨ cp > 0x10FFFF

/-- The loop of `is_valid_utf8`, with so many passes at most. -/
def validLoop : ℕ → Bytes → Bool
  | _, [] => true
  | 0, _ :: _ => false
  | fuel + 1, c :: s =>
      if c < 0x80 then validLoop fuel s
      else
        match sequenceStart c with
        | none => false
        | some (len, cp) =>
            if s.length + 1 < len then false
            else
              match sequenceRest cp (s.take (len - 1)) with
              | none => false
              | some cp => if badCodepoint len cp then false else validLoop fuel (s.drop (len - 1))

/-- `is_valid_utf8(s)`. -/
def isValidUtf8 (s : Bytes) : Bool := validLoop s.length s

example : isValidUtf8 [0xE2, 0x82, 0xAC] = true ∧ isValidUtf8 [0xED, 0xA0, 0x80] = false :=
  ⟨rfl, rfl⟩

end Ws

/-! ### The table, character by character -/

namespace Utf8State

/-- A byte of each range. -/
abbrev InRanges (ranges : List (UInt8 × UInt8)) (tail : Bytes) : Prop :=
  List.Forall₂ (fun r b => r.1 ≤ b ∧ b ≤ r.2) ranges tail

/-- What leads from a state to the end of a character. -/
lemma run_owed_iff {ranges : List (UInt8 × UInt8)} : ∀ {q : Utf8State} {s : Bytes},
    q.owed = ranges → q ≠ .reject → (q.run s = .accept ↔
      ranges.length ≤ s.length ∧ InRanges ranges (s.take ranges.length) ∧
        ValidUtf8 (s.drop ranges.length)) := by
  induction ranges with
  | nil =>
      intro q s hq hreject
      obtain rfl := eq_accept_of_owed hq hreject
      exact ⟨fun h => ⟨Nat.zero_le _, .nil, h⟩, fun h => h.2.2⟩
  | cons r ranges ih =>
      intro q s hq hreject
      obtain ⟨hne, q', hq', hreject', hnext⟩ := next_of_owed hq
      cases s with
      | nil => exact iff_of_false hne fun h => absurd h.1 (Nat.not_succ_le_zero _)
      | cons b s =>
          rw [run_cons, hnext]
          by_cases hb : r.1 ≤ b ∧ b ≤ r.2
          · rw [Lexer.within_eq hb, ih hq' hreject']
            simp only [List.length_cons, Nat.succ_le_succ_iff, List.take_succ_cons,
              List.drop_succ_cons, List.forall₂_cons, hb, and_self, true_and]
          · rw [within, if_neg hb, run_reject]
            refine iff_of_false (by decide) fun h => hb ?_
            rw [List.length_cons, List.take_succ_cons] at h
            exact (List.forall₂_cons.mp h.2.1).1

end Utf8State

namespace Ws

open Utf8State

/-! ### One sequence -/

/-- The bits of a byte, as numbers. -/
lemma byte_bits : ∀ n : Fin 256,
    (UInt8.ofNat n &&& 0xE0 = 0xC0 ↔ 0xC0 ≤ n.val ∧ n.val ≤ 0xDF) ∧
    (UInt8.ofNat n &&& 0xF0 = 0xE0 ↔ 0xE0 ≤ n.val ∧ n.val ≤ 0xEF) ∧
    (UInt8.ofNat n &&& 0xF8 = 0xF0 ↔ 0xF0 ≤ n.val ∧ n.val ≤ 0xF7) ∧
    (UInt8.ofNat n &&& 0xC0 = 0x80 ↔ 0x80 ≤ n.val ∧ n.val ≤ 0xBF) ∧
    (UInt8.ofNat n &&& 0x1F).toNat = n.val % 32 ∧ (UInt8.ofNat n &&& 0x0F).toNat = n.val % 16 ∧
    (UInt8.ofNat n &&& 0x07).toNat = n.val % 8 ∧ (UInt8.ofNat n &&& 0x3F).toNat = n.val % 64 := by
  decide +kernel

/-- The ranges that the library accepts in terms of numbers. -/
lemma sequenceStart_eq (c : UInt8) : sequenceStart c =
    if 0xC0 ≤ c.toNat ∧ c.toNat ≤ 0xDF then some (2, c.toNat % 32)
    else if 0xE0 ≤ c.toNat ∧ c.toNat ≤ 0xEF then some (3, c.toNat % 16)
    else if 0xF0 ≤ c.toNat ∧ c.toNat ≤ 0xF7 then some (4, c.toNat % 8)
    else none := by
  have h := byte_bits ⟨c.toNat, c.toNat_lt⟩
  simp only [UInt8.ofNat_toNat] at h
  obtain ⟨htwo, hthree, hfour, -, h32, h16, h8, -⟩ := h
  simp only [sequenceStart, htwo, hthree, hfour, h32, h16, h8]

lemma sequenceRest_cons (cp : ℕ) (b : UInt8) (s : Bytes) : sequenceRest cp (b :: s) =
    if 0x80 ≤ b.toNat ∧ b.toNat ≤ 0xBF then sequenceRest (cp * 64 + b.toNat % 64) s else none := by
  have h := byte_bits ⟨b.toNat, b.toNat_lt⟩
  simp only [UInt8.ofNat_toNat] at h
  obtain ⟨-, -, -, hcont, -, -, -, h64⟩ := h
  have hlt : b.toNat % 64 < 2 ^ 6 := Nat.mod_lt _ (by decide)
  rw [sequenceRest, h64, ← Nat.shiftLeft_add_eq_or_of_lt hlt, Nat.shiftLeft_eq]
  by_cases hb : b &&& 0xC0 = 0x80
  · rw [if_neg (not_not.mpr hb), if_pos (hcont.mp hb)]
  · rw [if_pos hb, if_neg (mt hcont.mpr hb)]

/-- The table's first step, in terms of numbers. -/
lemma first_eq (c : UInt8) : first c =
    if c.toNat ≤ 0x7F then accept
    else if 0xC2 ≤ c.toNat ∧ c.toNat ≤ 0xDF then tail1
    else if c.toNat = 0xE0 then afterE0
    else if c.toNat = 0xED then afterED
    else if 0xE1 ≤ c.toNat ∧ c.toNat ≤ 0xEF then tail2
    else if c.toNat = 0xF0 then afterF0
    else if 0xF1 ≤ c.toNat ∧ c.toNat ≤ 0xF3 then tail3
    else if c.toNat = 0xF4 then afterF4
    else reject := by
  simp only [first, UInt8.le_iff_toNat_le, ← UInt8.toNat_inj]
  rfl

/-- The bytes behind a first byte, as the table has them. -/
lemma two_iff {c b : UInt8} (hc : 0xC0 ≤ c.toNat ∧ c.toNat ≤ 0xDF) :
    (first c ≠ reject ∧ InRanges (first c).owed [b]) ↔
      ∃ cp, sequenceRest (c.toNat % 32) [b] = some cp ∧ badCodepoint 2 cp = false := by
  rw [sequenceRest_cons, first_eq]
  simp only [sequenceRest, badCodepoint]
  split_ifs <;> simp [owed, UInt8.le_iff_toNat_le] <;> omega

lemma three_iff {c b₁ b₂ : UInt8} (hc : 0xE0 ≤ c.toNat ∧ c.toNat ≤ 0xEF) :
    (first c ≠ reject ∧ InRanges (first c).owed [b₁, b₂]) ↔
      ∃ cp, sequenceRest (c.toNat % 16) [b₁, b₂] = some cp ∧ badCodepoint 3 cp = false := by
  rw [sequenceRest_cons, sequenceRest_cons, first_eq]
  simp only [sequenceRest, badCodepoint]
  split_ifs <;> simp [owed, UInt8.le_iff_toNat_le] <;> omega

lemma four_iff {c b₁ b₂ b₃ : UInt8} (hc : 0xF0 ≤ c.toNat ∧ c.toNat ≤ 0xF7) :
    (first c ≠ reject ∧ InRanges (first c).owed [b₁, b₂, b₃]) ↔
      ∃ cp, sequenceRest (c.toNat % 8) [b₁, b₂, b₃] = some cp ∧ badCodepoint 4 cp = false := by
  rw [sequenceRest_cons, sequenceRest_cons, sequenceRest_cons, first_eq]
  simp only [sequenceRest, badCodepoint]
  split_ifs <;> simp [owed, UInt8.le_iff_toNat_le] <;> omega

/-- **One sequence**: it decodes to a character exactly when the table takes it. -/
lemma sequence_iff {c : UInt8} {len cp : ℕ} (h : sequenceStart c = some (len, cp)) {tail : Bytes}
    (hlen : tail.length = len - 1) : (first c ≠ reject ∧ InRanges (first c).owed tail) ↔
      ∃ cp', sequenceRest cp tail = some cp' ∧ badCodepoint len cp' = false := by
  rw [sequenceStart_eq] at h
  split_ifs at h with htwo hthree hfour <;> cases h
  · obtain ⟨b, rfl⟩ := List.length_eq_one_iff.mp hlen
    exact two_iff htwo
  · obtain ⟨b₁, b₂, rfl⟩ := List.length_eq_two.mp hlen
    exact three_iff hthree
  · obtain ⟨b₁, b₂, b₃, rfl⟩ := List.length_eq_three.mp hlen
    exact four_iff hfour

/-- The table waits for as many bytes as the length tells. -/
lemma owed_length {c : UInt8} {len cp : ℕ} (h : sequenceStart c = some (len, cp))
    (hreject : first c ≠ reject) : (first c).owed.length = len - 1 := by
  rw [sequenceStart_eq] at h
  rw [first_eq] at hreject ⊢
  split_ifs at h with htwo hthree hfour <;> cases h <;> split_ifs at hreject ⊢ <;>
    first | rfl | omega | exact absurd rfl hreject

/-- What is no first byte for the library is none for the table. -/
lemma first_of_start_none {c : UInt8} (hc : ¬ c < 0x80) (h : sequenceStart c = none) :
    first c = reject := by
  have hlow : 0x80 ≤ c.toNat := Nat.le_of_not_lt fun hlt => hc (UInt8.lt_iff_toNat_lt.mpr hlt)
  rw [sequenceStart_eq] at h
  rw [first_eq]
  split_ifs at h ⊢ <;> first | rfl | omega

/-- The table, over a sequence and what is behind it. -/
lemma run_sequence_iff {c : UInt8} {len cp : ℕ} (h : sequenceStart c = some (len, cp)) (s : Bytes) :
    (first c).run s = .accept ↔ len - 1 ≤ s.length ∧
      (first c ≠ reject ∧ InRanges (first c).owed (s.take (len - 1))) ∧
        ValidUtf8 (s.drop (len - 1)) := by
  by_cases hreject : first c = reject
  · rw [hreject, run_reject]
    exact iff_of_false (by decide) fun h => h.2.1.1 rfl
  · rw [run_owed_iff rfl hreject, owed_length h hreject]
    exact ⟨fun h => ⟨h.1, ⟨hreject, h.2.1⟩, h.2.2⟩, fun h => ⟨h.1, h.2.1.2, h.2.2⟩⟩

/-- The loop, with enough passes. -/
lemma validLoop_iff : ∀ {fuel : ℕ} {s : Bytes}, s.length ≤ fuel →
    (validLoop fuel s = true ↔ ValidUtf8 s) := by
  intro fuel
  induction fuel with
  | zero =>
      intro s hs
      obtain rfl := List.length_eq_zero_iff.mp (Nat.le_zero.mp hs)
      exact iff_of_true rfl rfl
  | succ fuel ih =>
      intro s hs
      cases s with
      | nil => exact iff_of_true rfl rfl
      | cons c s =>
          have hlen : s.length ≤ fuel := Nat.le_of_succ_le_succ hs
          have hvalid : ValidUtf8 (c :: s) ↔ (first c).run s = .accept := Iff.rfl
          rw [validLoop, hvalid]
          by_cases hc : c < 0x80
          · have hfirst : first c = .accept := if_pos (UInt8.le_iff_toNat_le.mpr
              (Nat.le_of_lt_succ (UInt8.lt_iff_toNat_lt.mp hc)))
            rw [if_pos hc, hfirst]
            exact ih hlen
          · rw [if_neg hc]
            cases hstart : sequenceStart c with
            | none =>
                rw [first_of_start_none hc hstart, run_reject]
                exact iff_of_false Bool.false_ne_true (by decide)
            | some r =>
                obtain ⟨len, cp⟩ := r
                rw [run_sequence_iff hstart s]
                dsimp only
                split_ifs with hshort
                · exact iff_of_false id fun h => by omega
                · have htail : (s.take (len - 1)).length = len - 1 := by
                    rw [List.length_take]
                    omega
                  have hdrop : (s.drop (len - 1)).length ≤ fuel := by
                    rw [List.length_drop]
                    omega
                  rw [sequence_iff hstart htail, ← ih hdrop]
                  have hle : len - 1 ≤ s.length := by omega
                  cases hrest : sequenceRest cp (s.take (len - 1)) with
                  | none => simp
                  | some cp' => cases hbad : badCodepoint len cp' <;> simp [hle, hbad]

/-- **The two checks of UTF-8 agree**: the library of the connections takes a text exactly when the
serializer and the lexer of the JSON library do. -/
theorem is_valid_utf8_iff (s : Bytes) : isValidUtf8 s = true ↔ ValidUtf8 s :=
  validLoop_iff le_rfl

end Ws

/-! ### What is serialized -/

namespace Json

/-- What the serializer writes for a byte leads the decoder as far as the byte. -/
lemma run_escape {q : Utf8State} {b : UInt8} (h : q.next b = .accept) :
    q.run (escape q b) = .accept := by
  by_cases hq : q = .accept
  · subst hq
    have hascii : ∀ n : Fin 128,
        Utf8State.accept.run (escape .accept (UInt8.ofNat n)) = .accept := by decide +kernel
    have hlow : b.toNat < 128 :=
      Nat.lt_succ_of_le (UInt8.le_iff_toNat_le.mp (Utf8State.le_of_first_accept h))
    have hb := hascii ⟨b.toNat, hlow⟩
    rw [UInt8.ofNat_toNat] at hb
    exact hb
  · rw [escape, if_neg hq]
    exact h

/-- What the serializer writes for a string is valid. -/
lemma run_dumpEscaped : ∀ {s : Bytes} {q : Utf8State} {i : ℕ} {last : UInt8} {t : Bytes},
    dumpEscaped q i last s = .ok t → q.run t = .accept := by
  intro s
  induction s with
  | nil =>
      intro q i last t h
      rw [dumpEscaped] at h
      split_ifs at h with hq
      cases h
      exact hq
  | cons b s ih =>
      intro q i last t h
      obtain ⟨-, t', hrest, rfl⟩ := dumpEscaped_cons h
      have hfirst : q.run (if q.next b = .accept then escape q b else [b]) = q.next b := by
        split_ifs with hnext
        · rw [run_escape hnext, hnext]
        · rfl
      rw [Utf8State.run, List.foldl_append]
      show (q.run (if q.next b = .accept then escape q b else [b])).run t' = .accept
      rw [hfirst]
      exact ih hrest

lemma dumpString_valid {s t : Bytes} (h : dumpString s = .ok t) : ValidUtf8 t := by
  obtain ⟨t', ht', hquotes⟩ := except_bind_eq_ok h
  obtain rfl := Except.ok.inj hquotes
  exact Lexer.valid_append (Lexer.valid_append rfl (run_dumpEscaped ht')) rfl

lemma decimal_valid (n : ℕ) : ValidUtf8 (decimal n) :=
  validUtf8_of_ascii fun _ hb => UInt8.le_trans (digit_of_mem_decimal hb).2 (by decide)

mutual

/-- **What is serialized is valid UTF-8**, whatever the strings of the value hold. -/
lemma dump_valid {f : UInt64 → Bytes} : ∀ {v : Json} {t : Bytes},
    (∀ bits ∈ v.floats, ValidUtf8 (f bits)) → dump f v = .ok t → ValidUtf8 t
  | .null, _, _, h => by
      cases h
      rfl
  | .boolean b, _, _, h => by
      cases h
      cases b <;> rfl
  | .numberInteger n, _, _, h => by
      cases h
      cases n with
      | ofNat n => exact decimal_valid n
      | negSucc n => exact Lexer.valid_append (s := [0x2D]) rfl (decimal_valid _)
  | .numberUnsigned n, _, _, h => by
      cases h
      exact decimal_valid n
  | .numberFloat bits, _, hf, h => by
      cases h
      exact hf bits (List.mem_singleton_self _)
  | .string s, _, _, h => dumpString_valid h
  | .array elems, _, hf, h => by
      obtain ⟨ts, hts, hbrackets⟩ := except_bind_eq_ok h
      obtain rfl := Except.ok.inj hbrackets
      exact Lexer.valid_append (Lexer.valid_append rfl (dumpElems_valid hf hts)) rfl
  | .object members, _, hf, h => by
      obtain ⟨ts, hts, hbraces⟩ := except_bind_eq_ok h
      obtain rfl := Except.ok.inj hbraces
      exact Lexer.valid_append (Lexer.valid_append rfl (dumpMembers_valid hf hts)) rfl

/-- The elements of an array. -/
lemma dumpElems_valid {f : UInt64 → Bytes} : ∀ {js : List Json} {t : Bytes},
    (∀ bits ∈ elemsFloats js, ValidUtf8 (f bits)) → dumpElems f js = .ok t → ValidUtf8 t
  | [], _, _, h => by
      cases h
      rfl
  | [_], _, hf, h => dump_valid (fun bits hb => hf bits (List.mem_append_left _ hb)) h
  | _ :: _ :: _, _, hf, h => by
      obtain ⟨t, ht, hrest⟩ := except_bind_eq_ok h
      obtain ⟨ts, hts, hcomma⟩ := except_bind_eq_ok hrest
      obtain rfl := Except.ok.inj hcomma
      have hfirst := dump_valid (fun bits hb => hf bits (List.mem_append_left _ hb)) ht
      have hothers := dumpElems_valid (fun bits hb => hf bits (List.mem_append_right _ hb)) hts
      exact Lexer.valid_append (Lexer.valid_append hfirst rfl) hothers

/-- The members of an object. -/
lemma dumpMembers_valid {f : UInt64 → Bytes} : ∀ {ms : List (Bytes × Json)} {t : Bytes},
    (∀ bits ∈ membersFloats ms, ValidUtf8 (f bits)) → dumpMembers f ms = .ok t → ValidUtf8 t
  | [], _, _, h => by
      cases h
      rfl
  | [(_, _)], _, hf, h => by
      obtain ⟨tk, hk, hrest⟩ := except_bind_eq_ok h
      obtain ⟨t, ht, hcolon⟩ := except_bind_eq_ok hrest
      obtain rfl := Except.ok.inj hcolon
      have hvalue := dump_valid (fun bits hb => hf bits (List.mem_append_left _ hb)) ht
      exact Lexer.valid_append (Lexer.valid_append (dumpString_valid hk) rfl) hvalue
  | (_, _) :: _ :: _, _, hf, h => by
      obtain ⟨tk, hk, hrest⟩ := except_bind_eq_ok h
      obtain ⟨t, ht, hrest⟩ := except_bind_eq_ok hrest
      obtain ⟨ts, hts, hcomma⟩ := except_bind_eq_ok hrest
      obtain rfl := Except.ok.inj hcomma
      have hvalue := dump_valid (fun bits hb => hf bits (List.mem_append_left _ hb)) ht
      have hothers := dumpMembers_valid (fun bits hb => hf bits (List.mem_append_right _ hb)) hts
      have hmember : ValidUtf8 (tk ++ ascii ":" ++ t) :=
        Lexer.valid_append (Lexer.valid_append (dumpString_valid hk) rfl) hvalue
      exact Lexer.valid_append (Lexer.valid_append hmember rfl) hothers

end

end Json

/-! ### Numbers -/

namespace Dtoa

/-- A text of ASCII, as far as it can be checked. -/
lemma ascii_of_all {t : Bytes} (h : (t.all fun b => decide (b ≤ 0x7F)) = true) :
    ∀ b ∈ t, b ≤ 0x7F := fun b hb => of_decide_eq_true (List.all_eq_true.mp h b hb)

/-- The exponent is of ASCII. -/
lemma appendExponent_ascii {e : ℤ} (h : e.natAbs < 1000) : ∀ b ∈ appendExponent e, b ≤ 0x7F := by
  have hdigit : ∀ d < 10, decide (digit d ≤ 0x7F) = true := by decide
  rw [appendExponent]
  refine List.forall_mem_append.mpr ⟨?_, ascii_of_all ?_⟩
  · split_ifs <;> exact ascii_of_all rfl
  · split_ifs <;> simp only [List.all_cons, List.all_nil, Bool.and_true, Bool.and_eq_true]
    · exact ⟨hdigit _ (by decide), hdigit _ (by omega)⟩
    · exact ⟨hdigit _ (by omega), hdigit _ (by omega)⟩
    · exact ⟨hdigit _ (by omega), hdigit _ (by omega), hdigit _ (by omega)⟩

/-- So are the digits, with the point where it belongs. -/
lemma formatBuffer_ascii {digits : Bytes} {decimal_exponent : ℤ}
    (h : Digits digits decimal_exponent) (min_exp max_exp : ℤ) :
    ∀ b ∈ formatBuffer digits decimal_exponent min_exp max_exp, b ≤ 0x7F := by
  have hdigits : ∀ b ∈ digits, b ≤ 0x7F := fun b hb => by
    have hdigit := h.all b hb
    rw [Lexer.isDigit, Bool.and_eq_true, decide_eq_true_eq, decide_eq_true_eq] at hdigit
    exact UInt8.le_trans hdigit.2 (by decide)
  have hzeros : ∀ n : ℕ, ∀ b ∈ List.replicate n (0x30 : UInt8), b ≤ 0x7F := fun n b hb => by
    rw [List.eq_of_mem_replicate hb]
    decide
  have htake : ∀ n, ∀ b ∈ digits.take n, b ≤ 0x7F := fun n b hb =>
    hdigits b (List.mem_of_mem_take hb)
  have hdrop : ∀ n, ∀ b ∈ digits.drop n, b ≤ 0x7F := fun n b hb =>
    hdigits b (List.mem_of_mem_drop hb)
  have hexponent := appendExponent_ascii h.exponent
  rw [formatBuffer]
  split_ifs <;> simp only [List.forall_mem_append]
  · exact ⟨⟨hdigits, hzeros _⟩, ascii_of_all rfl⟩
  · exact ⟨⟨htake _, ascii_of_all rfl⟩, hdrop _⟩
  · exact ⟨⟨ascii_of_all rfl, hzeros _⟩, hdigits⟩
  · exact ⟨⟨hdigits, ascii_of_all rfl⟩, hexponent⟩
  · exact ⟨⟨⟨⟨htake _, ascii_of_all rfl⟩, hdrop _⟩, ascii_of_all rfl⟩, hexponent⟩

/-- A number is a text of ASCII. -/
lemma dumpFloat_valid {strtod : Bytes → UInt64} {grisu2 : UInt64 → Bytes × ℤ} {bits : UInt64}
    (h : ReadsBack strtod grisu2 bits) : ValidUtf8 (dumpFloat grisu2 bits) := by
  refine validUtf8_of_ascii ?_
  rw [dumpFloat]
  split_ifs
  · rw [toChars]
    refine List.forall_mem_append.mpr ⟨?_, ?_⟩
    · split_ifs <;> exact ascii_of_all rfl
    · split_ifs with hzero
      · exact ascii_of_all rfl
      · exact formatBuffer_ascii (h.digits hzero) _ _
  · exact ascii_of_all rfl

end Dtoa

end RasPiZeroCam
