import RasPiZeroCam.Control.Numerals

/-!
`dump()` and `parse` are inverse to one another: the text of a value is parsed to that value again.

* `Json.canon`, `Json.floats`: a value as the parser gives it back, where an integer that is not
  negative is an unsigned one; and its floating-point numbers.
* `scan_dumpString`: a string that was dumped is one token.
* `Parses`, `ParsesElems`, `ParsesMembers`: a text that leads the loop of the parser to a value.
* `parse_dump`: the round trip.
* `dump_eq_iff`: two values are dumped as one text exactly when they are read as one value.
-/

namespace RasPiZeroCam

open Lexer TextParser Dtoa Json

namespace Json

mutual

/-- The value that `parse` gives for the text of a value. -/
def canon : Json → Json
  | numberInteger (.ofNat n) => numberUnsigned n
  | array elems => array (canonElems elems)
  | object members => object (canonMembers members)
  | j => j

/-- `canon` of the elements of an array. -/
def canonElems : List Json → List Json
  | [] => []
  | j :: js => j.canon :: canonElems js

/-- `canon` of the values of an object. -/
def canonMembers : List (Bytes × Json) → List (Bytes × Json)
  | [] => []
  | (k, j) :: ms => (k, j.canon) :: canonMembers ms

end

mutual

/-- The floating-point numbers of a value. -/
def floats : Json → List UInt64
  | numberFloat bits => [bits]
  | array elems => elemsFloats elems
  | object members => membersFloats members
  | _ => []

/-- Those of the elements of an array. -/
def elemsFloats : List Json → List UInt64
  | [] => []
  | j :: js => j.floats ++ elemsFloats js

/-- Those of the values of an object. -/
def membersFloats : List (Bytes × Json) → List UInt64
  | [] => []
  | (_, j) :: ms => j.floats ++ membersFloats ms

end

lemma canonMembers_keys (ms : List (Bytes × Json)) :
    (canonMembers ms).map Prod.fst = ms.map Prod.fst := by
  induction ms with
  | nil => rfl
  | cons m ms ih =>
      rw [canonMembers, List.map_cons, List.map_cons, ih]

/-! ### Strings -/

/-- The serializer behind a byte. -/
lemma dumpEscaped_cons {q : Utf8State} {i : ℕ} {last b : UInt8} {s t : Bytes}
    (h : dumpEscaped q i last (b :: s) = .ok t) : q.next b ≠ .reject ∧
      ∃ t', dumpEscaped (q.next b) (i + 1) b s = .ok t' ∧
        t = (if q.next b = .accept then escape q b else [b]) ++ t' := by
  rw [dumpEscaped] at h
  by_cases hreject : q.next b = .reject
  · rw [if_pos hreject] at h
    cases h
  · rw [if_neg hreject] at h
    rcases hrest : dumpEscaped (q.next b) (i + 1) b s with e | t'
    · rw [hrest] at h
      cases h
    · rw [hrest] at h
      exact ⟨hreject, t', rfl, (Except.ok.inj h).symm⟩

end Json

namespace Utf8State

/-- The bytes a state of the decoder waits for. -/
def owed : Utf8State → List (UInt8 × UInt8)
  | accept => []
  | reject => []
  | tail1 => [(0x80, 0xBF)]
  | tail2 => [(0x80, 0xBF), (0x80, 0xBF)]
  | tail3 => [(0x80, 0xBF), (0x80, 0xBF), (0x80, 0xBF)]
  | afterE0 => [(0xA0, 0xBF), (0x80, 0xBF)]
  | afterED => [(0x80, 0x9F), (0x80, 0xBF)]
  | afterF0 => [(0x90, 0xBF), (0x80, 0xBF), (0x80, 0xBF)]
  | afterF4 => [(0x80, 0x8F), (0x80, 0xBF), (0x80, 0xBF)]

lemma eq_accept_of_owed {q : Utf8State} (h : q.owed = []) (hq : q ≠ .reject) : q = .accept := by
  cases q <;> first | rfl | exact absurd rfl hq | cases h

/-- A state that waits for bytes takes the first of them. -/
lemma next_of_owed {q : Utf8State} {lo hi : UInt8} {ranges : List (UInt8 × UInt8)}
    (h : q.owed = (lo, hi) :: ranges) :
    q ≠ .accept ∧ ∃ q', q'.owed = ranges ∧ q' ≠ .reject ∧ ∀ b, q.next b = within lo hi b q' := by
  cases q <;> cases h
  · exact ⟨by decide, .accept, rfl, by decide, fun _ => rfl⟩
  · exact ⟨by decide, .tail1, rfl, by decide, fun _ => rfl⟩
  · exact ⟨by decide, .tail1, rfl, by decide, fun _ => rfl⟩
  · exact ⟨by decide, .tail1, rfl, by decide, fun _ => rfl⟩
  · exact ⟨by decide, .tail2, rfl, by decide, fun _ => rfl⟩
  · exact ⟨by decide, .tail2, rfl, by decide, fun _ => rfl⟩
  · exact ⟨by decide, .tail2, rfl, by decide, fun _ => rfl⟩

/-- Only a byte of ASCII is a character. -/
lemma le_of_first_accept {b : UInt8} (h : first b = .accept) : b ≤ 0x7F := by
  rw [first] at h
  split_ifs at h with hle
  exact hle

end Utf8State

/-- A text of ASCII. -/
lemma validUtf8_of_ascii {t : Bytes} (h : ∀ b ∈ t, b ≤ 0x7F) : ValidUtf8 t := by
  induction t with
  | nil => rfl
  | cons b t ih =>
      have hfirst : Utf8State.first b = .accept := if_pos (h b List.mem_cons_self)
      rw [ValidUtf8, Utf8State.run_cons, Utf8State.next, hfirst]
      exact ih fun b' hb' => h b' (List.mem_cons_of_mem _ hb')

/-- Inside a character the serializer copies bytes, up to its end. -/
lemma dumpEscaped_tail {ranges : List (UInt8 × UInt8)} : ∀ {q : Utf8State} {i : ℕ} {last : UInt8}
    {s t : Bytes}, q.owed = ranges → q ≠ .reject → dumpEscaped q i last s = .ok t →
    ∃ tail s' t' i' last', s = tail ++ s' ∧ t = tail ++ t' ∧
      List.Forall₂ (fun r b => r.1 ≤ b ∧ b ≤ r.2) ranges tail ∧
      dumpEscaped .accept i' last' s' = .ok t' := by
  induction ranges with
  | nil =>
      intro q i last s t hq hreject h
      obtain rfl := Utf8State.eq_accept_of_owed hq hreject
      exact ⟨[], s, t, i, last, rfl, rfl, .nil, h⟩
  | cons r ranges ih =>
      intro q i last s t hq hreject h
      obtain ⟨hne, q', hq', hreject', hnext⟩ := Utf8State.next_of_owed hq
      cases s with
      | nil =>
          rw [dumpEscaped, if_neg hne] at h
          cases h
      | cons b s =>
          obtain ⟨hb, t', hrest, rfl⟩ := dumpEscaped_cons h
          have hrange : r.1 ≤ b ∧ b ≤ r.2 := by
            by_contra hout
            exact hb ((hnext b).trans (if_neg hout))
          rw [hnext, within_eq hrange] at hrest ⊢
          obtain ⟨tail, s', t'', i', last', rfl, rfl, hall, hend⟩ := ih hq' hreject' hrest
          refine ⟨b :: tail, s', t'', i', last', rfl, ?_, .cons hrange hall, hend⟩
          rw [escape, if_neg hne, ite_self, List.singleton_append, List.cons_append]

/-- A character of several bytes is one pass of the scanner. -/
lemma stringStep_first {b : UInt8} (hb : ¬ b ≤ 0x7F) (hfirst : Utf8State.first b ≠ .reject)
    (s : Bytes) : stringStep (b :: s) = scanTail b (Utf8State.first b).owed s := by
  have hne : ∀ c : UInt8, c ≤ 0x7F → b ≠ c := fun c hc heq => hb (heq ▸ hc)
  have hcontrol : ¬ b ≤ 0x1F := fun h => hb (UInt8.le_trans h (by decide))
  rw [stringStep, if_neg (hne 0x22 (by decide)), if_neg (hne 0x5C (by decide)), if_neg hcontrol,
    if_neg hb]
  rw [Utf8State.first, if_neg hb] at hfirst ⊢
  split_ifs at hfirst ⊢
  all_goals first | rfl | exact absurd rfl hfirst

/-- A hexadecimal digit, as it is written. -/
def hexDigit (d : ℕ) : UInt8 := if d < 10 then UInt8.ofNat (0x30 + d) else UInt8.ofNat (0x57 + d)

/-- The escapes of the control characters: the short ones, and the ones by code point. -/
lemma escape_control : ∀ n < 0x20, n ∈ [0x08, 0x09, 0x0A, 0x0C, 0x0D] ∨
    escape .accept (UInt8.ofNat n) =
      [0x5C, 0x75, 0x30, 0x30, hexDigit (n / 0x10), hexDigit (n % 0x10)] := by decide

/-- A control character by its code point. -/
lemma stringStep_unicode {n : ℕ} (hn : n < 0x20) (s : Bytes) :
    stringStep (0x5C :: 0x75 :: 0x30 :: 0x30 :: hexDigit (n / 0x10) :: hexDigit (n % 0x10) :: s) =
      (.add [UInt8.ofNat n], s) := by
  have hhex : ∀ d < 16, hexValue (hexDigit d) = some d := by decide
  have hzero : hexValue 0x30 = some 0 := rfl
  have hdigits : n / 0x10 * 0x10 + n % 0x10 = n := Nat.div_add_mod' n 0x10
  have hcodepoint : getCodepoint (0x30 :: 0x30 :: hexDigit (n / 0x10) :: hexDigit (n % 0x10) :: s) =
      some (n, s) := by
    simp [getCodepoint, hzero, hhex (n / 0x10) (by omega), hhex (n % 0x10) (by omega), hdigits]
  show scanUnicode _ = _
  rw [scanUnicode, hcodepoint]
  show ite _ _ _ = _
  rw [if_neg (by omega), if_neg (by omega), encode, if_pos (by omega)]

/-- A character of ASCII is one, too, with its escape. -/
lemma stringStep_escape {b : UInt8} (hb : b ≤ 0x7F) (s : Bytes) :
    stringStep (escape .accept b ++ s) = (.add [b], s) := by
  have hcontrol : ∀ n < 0x20, stringStep (escape .accept (UInt8.ofNat n) ++ s) =
      (.add [UInt8.ofNat n], s) := by
    intro n hn
    rcases escape_control n hn with hshort | hlong
    · simp only [List.mem_cons, List.not_mem_nil, or_false] at hshort
      rcases hshort with rfl | rfl | rfl | rfl | rfl <;> rfl
    · rw [hlong]
      exact stringStep_unicode hn s
  by_cases hlow : b ≤ 0x1F
  · have hlt : b.toNat < 0x20 := Nat.lt_succ_of_le (UInt8.le_iff_toNat_le.mp hlow)
    have heq := hcontrol b.toNat hlt
    rw [UInt8.ofNat_toNat] at heq
    exact heq
  · have hne : ∀ c : UInt8, c ≤ 0x1F → b ≠ c := fun c hc heq => hlow (heq ▸ hc)
    by_cases hquote : b = 0x22
    · rw [hquote]
      rfl
    by_cases hslash : b = 0x5C
    · rw [hslash]
      rfl
    rw [escape, if_pos rfl, if_neg (hne 0x08 (by decide)), if_neg (hne 0x09 (by decide)),
      if_neg (hne 0x0A (by decide)), if_neg (hne 0x0C (by decide)), if_neg (hne 0x0D (by decide)),
      if_neg hquote, if_neg hslash, if_neg hlow, List.singleton_append, stringStep, if_neg hquote,
      if_neg hslash, if_neg hlow, if_pos hb]

lemma escape_ne_nil (q : Utf8State) (b : UInt8) : escape q b ≠ [] := by
  rw [escape]
  split_ifs <;> exact List.cons_ne_nil _ _

/-- **The scanner reads what the serializer wrote**, up to the closing quote. -/
lemma scanString_dumpEscaped : ∀ (m : ℕ) {s : Bytes} {i : ℕ} {last : UInt8} {t : Bytes},
    s.length ≤ m → dumpEscaped .accept i last s = .ok t → ∀ (n : ℕ) (buf u : Bytes),
      t.length < n → scanString n buf (t ++ 0x22 :: u) = (.valueString (buf ++ s), u) := by
  intro m
  induction m with
  | zero =>
      intro s i last t hs h n buf u hn
      obtain rfl := List.eq_nil_of_length_eq_zero (Nat.le_zero.mp hs)
      obtain ⟨n, rfl⟩ := Nat.exists_eq_add_of_lt (Nat.zero_le _ |>.trans_lt hn)
      cases h
      rw [List.append_nil]
      rfl
  | succ m ih =>
      intro s i last t hs h n buf u hn
      cases s with
      | nil => exact ih (Nat.zero_le _) h _ _ _ hn
      | cons b s =>
          have hlen : s.length ≤ m := Nat.le_of_succ_le_succ hs
          obtain ⟨hreject, t', hrest, rfl⟩ := dumpEscaped_cons h
          obtain ⟨n, rfl⟩ : ∃ n', n = n' + 1 := ⟨n - 1, by omega⟩
          rw [Utf8State.next] at hreject hrest hn ⊢
          rw [List.length_append] at hn
          by_cases haccept : Utf8State.first b = .accept
          · have hpos := List.length_pos_iff.mpr (escape_ne_nil .accept b)
            rw [if_pos haccept] at hn ⊢
            rw [haccept] at hrest
            rw [scanString, List.append_assoc,
              stringStep_escape (Utf8State.le_of_first_accept haccept)]
            show scanString n (buf ++ [b]) (t' ++ 0x22 :: u) = _
            rw [ih hlen hrest _ _ _ (by omega), List.append_assoc, List.singleton_append]
          · have hhigh : ¬ b ≤ 0x7F := fun hle => haccept (if_pos hle)
            rw [if_neg haccept] at hn ⊢
            obtain ⟨tail, s', t'', i', last', rfl, rfl, hall, hend⟩ :=
              dumpEscaped_tail rfl hreject hrest
            have hstep : stringStep ([b] ++ (tail ++ t'') ++ 0x22 :: u) =
                (.add (b :: tail), t'' ++ 0x22 :: u) := by
              have htail : nextByteInRange (Utf8State.first b).owed
                  (tail ++ (t'' ++ 0x22 :: u)) = some (tail, t'' ++ 0x22 :: u) :=
                nextByteInRange_iff.mpr ⟨rfl, hall⟩
              rw [List.singleton_append, List.cons_append, List.append_assoc,
                stringStep_first hhigh hreject, scanTail, htail]
            rw [List.length_append] at hlen hn
            rw [scanString, hstep]
            show scanString n (buf ++ b :: tail) (t'' ++ 0x22 :: u) = _
            rw [ih (by omega) hend _ _ _ (by simp only [List.length_singleton] at hn; omega),
              List.append_assoc, List.cons_append]

variable {strtod : Bytes → UInt64} {grisu2 : UInt64 → Bytes × ℤ} {t u : Bytes}

/-- **A string that was dumped is one token.** -/
lemma scan_dumpString {s : Bytes} (h : dumpString s = .ok t) (u : Bytes) :
    scan strtod (t ++ u) = (.valueString s, u) := by
  rw [dumpString] at h
  rcases hbody : dumpEscaped .accept 0 0 s with e | body
  · rw [hbody] at h
    cases h
  · rw [hbody] at h
    obtain rfl : ascii "\"" ++ body ++ ascii "\"" = t := Except.ok.inj h
    have hscan := scanString_dumpEscaped s.length le_rfl hbody ((body ++ 0x22 :: u).length + 1) [] u
      (by rw [List.length_append]; omega)
    rw [List.append_assoc]
    exact hscan

/-! ### Texts that lead the parser to a value -/

lemma parseLoop_again {phase phase' : Phase} {states states' : List TextParser.Frame} {s s' : Bytes}
    (h : loopPass strtod phase states s = .ok (.again phase' states' s')) (n : ℕ) :
    parseLoop strtod (n + 1) phase states s = parseLoop strtod n phase' states' s' := by
  rw [parseLoop, h]
  rfl

lemma parseLoop_error {phase : Phase} {states : List TextParser.Frame} {s : Bytes} {e : ParseError}
    (h : loopPass strtod phase states s = .error e) (n : ℕ) :
    parseLoop strtod (n + 1) phase states s = .error e := by
  rw [parseLoop, h]
  rfl

/-- The text `t` leads the loop to the value `v`, in no more than two passes for each byte. -/
def Parses (strtod : Bytes → UInt64) (t : Bytes) (v : Json) : Prop :=
  ∀ u, Ends u → ∃ k, k ≤ 2 * t.length ∧ ∀ n states,
    parseLoop strtod (n + k) (.value (scan strtod (t ++ u)).1) states (scan strtod (t ++ u)).2 =
      parseLoop strtod n (.done v) states u

/-- A token at which the parser fails does not begin a value. -/
lemma Parses.token_ne {v : Json} (h : Parses strtod t v) (hu : Ends u) (token : Token)
    (hfail : ∀ s, ∃ e, loopPass strtod (.value token) [] s = .error e) :
    (scan strtod (t ++ u)).1 ≠ token := by
  intro heq
  obtain ⟨k, -, hloop⟩ := h u hu
  have hone := hloop 1 []
  obtain ⟨e, he⟩ := hfail (scan strtod (t ++ u)).2
  rw [heq, Nat.add_comm, parseLoop_error he] at hone
  cases hone

/-- A value of one token. -/
lemma Parses.token {v : Json} {token : Token} (hne : t ≠ [])
    (hscan : ∀ u, Ends u → scan strtod (t ++ u) = (token, u))
    (hpass : ∀ states s,
      loopPass strtod (.value token) states s = .ok (.again (.done v) states s)) :
    Parses strtod t v := by
  intro u hu
  have hpos := List.length_pos_iff.mpr hne
  refine ⟨1, by omega, fun n states => ?_⟩
  rw [hscan u hu]
  exact parseLoop_again (hpass states u) n

/-- The text `t` leads the loop to the elements `js`, up to the bracket. -/
def ParsesElems (strtod : Bytes → UInt64) (t : Bytes) (js : List Json) : Prop :=
  ∀ u, (scan strtod (t ++ 0x5D :: u)).1 ≠ .endArray ∧ ∃ k, k ≤ 2 * t.length + 1 ∧
    ∀ n elems states,
      parseLoop strtod (n + k) (.value (scan strtod (t ++ 0x5D :: u)).1) (.array elems :: states)
        (scan strtod (t ++ 0x5D :: u)).2 =
      parseLoop strtod n (.done (.array (elems ++ js))) states u

lemma ends_of_head {c : UInt8} (h : isDigit c = false ∧ c ≠ 0x2E ∧ c ≠ 0x65 ∧ c ≠ 0x45) :
    Ends (c :: u) := fun b hb => by
  obtain rfl : c = b := Option.some.inj hb
  exact h

lemma fails_endArray (s : Bytes) : ∃ e, loopPass strtod (.value .endArray) [] s = .error e :=
  ⟨_, rfl⟩

lemma ParsesElems.single {v : Json} (h : Parses strtod t v) : ParsesElems strtod t [v] := by
  intro u
  have hu : Ends (0x5D :: u) := ends_of_head (by decide)
  obtain ⟨k, hk, hloop⟩ := h _ hu
  refine ⟨h.token_ne hu _ fails_endArray, k + 1, by omega, fun n elems states => ?_⟩
  rw [← Nat.add_assoc, Nat.add_right_comm, hloop]
  exact parseLoop_again rfl n

lemma ParsesElems.cons {v : Json} {ts : Bytes} {js : List Json} (h : Parses strtod t v)
    (hs : ParsesElems strtod ts js) : ParsesElems strtod (t ++ ascii "," ++ ts) (v :: js) := by
  intro u
  have hu : Ends (0x2C :: (ts ++ 0x5D :: u)) := ends_of_head (by decide)
  have heq : t ++ ascii "," ++ ts ++ 0x5D :: u = t ++ 0x2C :: (ts ++ 0x5D :: u) := by
    simp only [List.append_assoc]
    rfl
  obtain ⟨k, hk, hloop⟩ := h _ hu
  obtain ⟨-, k', hk', hloop'⟩ := hs u
  have hlen : (t ++ ascii "," ++ ts).length = t.length + 1 + ts.length := by
    rw [List.length_append, List.length_append]
    rfl
  rw [heq, hlen]
  refine ⟨h.token_ne hu _ fails_endArray, k' + 1 + k, by omega, fun n elems states => ?_⟩
  calc parseLoop strtod (n + (k' + 1 + k)) _ (.array elems :: states) _
      = parseLoop strtod (n + k' + 1) (.done v) (.array elems :: states)
          (0x2C :: (ts ++ 0x5D :: u)) := by
        rw [show n + (k' + 1 + k) = n + k' + 1 + k by omega]
        exact hloop _ _
    _ = parseLoop strtod (n + k') (.value (scan strtod (ts ++ 0x5D :: u)).1)
          (.array (elems ++ [v]) :: states) (scan strtod (ts ++ 0x5D :: u)).2 :=
        parseLoop_again rfl _
    _ = parseLoop strtod n (.done (.array (elems ++ v :: js))) states u := by
        rw [hloop', List.append_assoc, List.singleton_append]

lemma Parses.array {js : List Json} (h : ParsesElems strtod t js) :
    Parses strtod (ascii "[" ++ t ++ ascii "]") (.array js) := by
  intro u _
  obtain ⟨hne, k, hk, hloop⟩ := h u
  have heq : ascii "[" ++ t ++ ascii "]" ++ u = 0x5B :: (t ++ 0x5D :: u) := by
    simp only [List.append_assoc]
    rfl
  have hlen : (ascii "[" ++ t ++ ascii "]").length = 1 + t.length + 1 := by
    rw [List.length_append, List.length_append]
    rfl
  rw [heq, hlen]
  refine ⟨k + 1, by omega, fun n states => ?_⟩
  have hpass : loopPass strtod (.value .beginArray) states (t ++ 0x5D :: u) =
      .ok (.again (.value (scan strtod (t ++ 0x5D :: u)).1) (.array [] :: states)
        (scan strtod (t ++ 0x5D :: u)).2) := by
    unfold loopPass
    dsimp only
    rcases hr : scan strtod (t ++ 0x5D :: u) with ⟨token, s⟩
    rw [hr] at hne
    cases token
    case endArray => exact absurd rfl hne
    all_goals rfl
  rw [← Nat.add_assoc]
  exact (parseLoop_again hpass _).trans (hloop n [] states)

/-- The members of an object, assigned one after the other. -/
def assign (members ms : List (Bytes × Json)) : List (Bytes × Json) :=
  ms.foldl (fun acc m => insertMember m.1 m.2 acc) members

/-- A member that is greater than the others is inserted at the end. -/
lemma insertMember_append {key : Bytes} {v : Json} {ms : List (Bytes × Json)}
    (h : ∀ m ∈ ms, m.1 < key) : insertMember key v ms = ms ++ [(key, v)] := by
  induction ms with
  | nil => rfl
  | cons m ms ih =>
      obtain ⟨k, w⟩ := m
      have hlt : k < key := h _ List.mem_cons_self
      have hne : key ≠ k := fun heq => absurd (heq ▸ hlt) (List.lt_irrefl _)
      rw [insertMember, if_neg hne, if_neg (List.lt_asymm hlt),
        ih fun m hm => h m (List.mem_cons_of_mem _ hm), List.cons_append]

/-- Members in order stay as they are. -/
lemma assign_append {ms members : List (Bytes × Json)}
    (h : ((members ++ ms).map Prod.fst).Pairwise (· < ·)) :
    assign members ms = members ++ ms := by
  induction ms generalizing members with
  | nil => exact (List.append_nil _).symm
  | cons m ms ih =>
      have hlast : ∀ m' ∈ members, m'.1 < m.1 := by
        rw [List.map_append, List.pairwise_append] at h
        exact fun m' hm' => h.2.2 _ (List.mem_map_of_mem hm') _ List.mem_cons_self
      rw [List.append_cons] at h ⊢
      rw [assign, List.foldl_cons, insertMember_append hlast]
      exact ih h

/-- The text `t` leads the loop to the members `ms`, up to the brace. -/
def ParsesMembers (strtod : Bytes → UInt64) (t : Bytes) (ms : List (Bytes × Json)) : Prop :=
  ∀ u, ∃ key token s k, parseKey strtod (scan strtod (t ++ 0x7D :: u)) = .ok (key, token, s) ∧
    k ≤ 2 * t.length ∧ ∀ n members states,
      parseLoop strtod (n + k) (.value token) (.object members key :: states) s =
        parseLoop strtod n (.done (.object (assign members ms))) states u

/-- A member, from its key to its value. -/
lemma parseKey_dump {k tk : Bytes} (hk : dumpString k = .ok tk) (s : Bytes) :
    parseKey strtod (scan strtod (tk ++ ascii ":" ++ s)) =
      .ok (k, (scan strtod s).1, (scan strtod s).2) := by
  rw [List.append_assoc, scan_dumpString hk]
  rfl

lemma ParsesMembers.single {k tk : Bytes} {v : Json} (hk : dumpString k = .ok tk)
    (h : Parses strtod t v) : ParsesMembers strtod (tk ++ ascii ":" ++ t) [(k, v)] := by
  intro u
  have hu : Ends (0x7D :: u) := ends_of_head (by decide)
  obtain ⟨j, hj, hloop⟩ := h _ hu
  have hlen : (tk ++ ascii ":" ++ t).length = tk.length + 1 + t.length := by
    rw [List.length_append, List.length_append]
    rfl
  refine ⟨k, (scan strtod (t ++ 0x7D :: u)).1, (scan strtod (t ++ 0x7D :: u)).2, j + 1, ?_,
    by omega, fun n members states => ?_⟩
  · rw [List.append_assoc]
    exact parseKey_dump hk _
  · rw [← Nat.add_assoc, Nat.add_right_comm, hloop]
    exact parseLoop_again rfl n

lemma ParsesMembers.cons {k tk ts : Bytes} {v : Json} {ms : List (Bytes × Json)}
    (hk : dumpString k = .ok tk) (h : Parses strtod t v) (hs : ParsesMembers strtod ts ms) :
    ParsesMembers strtod (tk ++ ascii ":" ++ t ++ ascii "," ++ ts) ((k, v) :: ms) := by
  intro u
  have hu : Ends (0x2C :: (ts ++ 0x7D :: u)) := ends_of_head (by decide)
  obtain ⟨j, hj, hloop⟩ := h _ hu
  obtain ⟨key, token, s, j', hkey, hj', hloop'⟩ := hs u
  have hlen : (tk ++ ascii ":" ++ t ++ ascii "," ++ ts).length =
      tk.length + 1 + t.length + 1 + ts.length := by
    simp only [List.length_append]
    rfl
  have heq : tk ++ ascii ":" ++ t ++ ascii "," ++ ts ++ 0x7D :: u =
      tk ++ ascii ":" ++ (t ++ 0x2C :: (ts ++ 0x7D :: u)) := by
    simp only [List.append_assoc]
    rfl
  refine ⟨k, (scan strtod (t ++ 0x2C :: (ts ++ 0x7D :: u))).1,
    (scan strtod (t ++ 0x2C :: (ts ++ 0x7D :: u))).2, j' + 1 + j, ?_, by omega,
    fun n members states => ?_⟩
  · rw [heq]
    exact parseKey_dump hk _
  · have hpass : loopPass strtod (.done v) (.object members k :: states)
        (0x2C :: (ts ++ 0x7D :: u)) =
        .ok (.again (.value token) (.object (insertMember k v members) key :: states) s) := by
      show (parseKey strtod (scan strtod (ts ++ 0x7D :: u)) >>= fun r => _) = _
      rw [hkey]
      rfl
    calc parseLoop strtod (n + (j' + 1 + j)) _ (.object members k :: states) _
        = parseLoop strtod (n + j' + 1) (.done v) (.object members k :: states)
            (0x2C :: (ts ++ 0x7D :: u)) := by
          rw [show n + (j' + 1 + j) = n + j' + 1 + j by omega]
          exact hloop _ _
      _ = parseLoop strtod (n + j') (.value token)
            (.object (insertMember k v members) key :: states) s := parseLoop_again hpass _
      _ = parseLoop strtod n (.done (.object (assign members ((k, v) :: ms)))) states u :=
          hloop' n _ _

lemma Parses.object {ms : List (Bytes × Json)} (h : ParsesMembers strtod t ms) :
    Parses strtod (ascii "\x7b" ++ t ++ ascii "\x7d") (.object (assign [] ms)) := by
  intro u _
  obtain ⟨key, token, s, k, hkey, hk, hloop⟩ := h u
  have heq : ascii "\x7b" ++ t ++ ascii "\x7d" ++ u = 0x7B :: (t ++ 0x7D :: u) := by
    simp only [List.append_assoc]
    rfl
  have hlen : (ascii "\x7b" ++ t ++ ascii "\x7d").length = 1 + t.length + 1 := by
    rw [List.length_append, List.length_append]
    rfl
  rw [heq, hlen]
  refine ⟨k + 1, by omega, fun n states => ?_⟩
  have hpass : loopPass strtod (.value .beginObject) states (t ++ 0x7D :: u) =
      .ok (.again (.value token) (.object [] key :: states) s) := by
    unfold loopPass
    dsimp only
    rcases hr : scan strtod (t ++ 0x7D :: u) with ⟨token', s'⟩
    rw [hr] at hkey
    cases token'
    case valueString str =>
        show (parseKey strtod (.valueString str, s') >>= fun r => _) = _
        rw [hkey]
        rfl
    all_goals cases hkey
  rw [← Nat.add_assoc]
  exact (parseLoop_again hpass _).trans (hloop n [] states)

/-! ### The round trip -/

lemma decimal_ne_nil (n : ℕ) : decimal n ≠ [] := by
  obtain ⟨c, w, q, q', heq, -⟩ := (numeral_decimal n).leads
  rw [heq]
  exact List.cons_ne_nil _ _

lemma dumpString_ne_nil {s : Bytes} (h : dumpString s = .ok t) : t ≠ [] := by
  rintro rfl
  have hscan : scan (fun _ => 0) ([] ++ []) = (.valueString s, []) := scan_dumpString h []
  cases hscan

/-- An array without elements, and an object without members. -/
lemma parses_nil : Parses strtod (ascii "[]") (.array []) := fun u _ =>
  ⟨1, by decide, fun n _ => parseLoop_again rfl n⟩

lemma parses_empty : Parses strtod (ascii "\x7b\x7d") (.object []) := fun u _ =>
  ⟨1, by decide, fun n _ => parseLoop_again rfl n⟩

lemma parses_float {bits : UInt64} (hfinite : isFinite bits = true)
    (h : ReadsBack strtod grisu2 bits) :
    Parses strtod (dumpFloat grisu2 bits) (.numberFloat bits) := by
  refine .token (fun heq => ?_) (fun u hu => scan_dumpFloat hfinite h hu) fun states s => ?_
  · have hscan := scan_dumpFloat hfinite h (u := []) fun _ hb => (by cases hb)
    rw [heq] at hscan
    cases hscan
  · exact loopPass_float hfinite

/-- An integer. -/
lemma parses_integer {n : ℤ} (h : -2 ^ 63 ≤ n ∧ n < 2 ^ 63) :
    Parses strtod (decimalInt n) (numberInteger n).canon := by
  cases n with
  | ofNat n =>
      have hlt : n < 2 ^ 64 := by
        have hhi : (n : ℤ) < 2 ^ 63 := h.2
        omega
      have hscan : ∀ u, Ends u → scan strtod (decimal n ++ u) = (.valueUnsigned n, u) :=
        fun u hu => scan_decimal hlt hu
      exact .token (decimal_ne_nil n) hscan fun _ _ => rfl
  | negSucc n =>
      have hle : n + 1 ≤ 2 ^ 63 := by
        have hlo := h.1
        omega
      exact .token (List.cons_ne_nil _ _) (fun u hu => scan_minus_decimal hle hu) fun _ _ => rfl

mutual

/-- A well-formed value is dumped, to a text that leads the parser to it. -/
lemma value_parses : ∀ {v : Json}, v.WellFormed →
    (∀ bits ∈ v.floats, ReadsBack strtod grisu2 bits) →
    ∃ t, dump (dumpFloat grisu2) v = .ok t ∧ Parses strtod t v.canon
  | .null, _, _ => ⟨_, rfl, .token (List.cons_ne_nil _ _) (fun _ _ => rfl) fun _ _ => rfl⟩
  | .boolean true, _, _ => ⟨_, rfl, .token (List.cons_ne_nil _ _) (fun _ _ => rfl) fun _ _ => rfl⟩
  | .boolean false, _, _ => ⟨_, rfl, .token (List.cons_ne_nil _ _) (fun _ _ => rfl) fun _ _ => rfl⟩
  | .numberInteger n, h, _ => ⟨_, rfl, parses_integer h⟩
  | .numberUnsigned n, h, _ => ⟨_, rfl, .token (decimal_ne_nil n) (fun _ hu => scan_decimal h hu)
      fun _ _ => rfl⟩
  | .numberFloat bits, h, hf => ⟨_, rfl, parses_float h (hf bits (List.mem_singleton_self _))⟩
  | .string s, h, _ => by
      obtain ⟨t, ht⟩ := dumpString_ok h
      exact ⟨t, ht, .token (dumpString_ne_nil ht) (fun u _ => scan_dumpString ht u) fun _ _ => rfl⟩
  | .array [], _, _ => ⟨_, rfl, parses_nil⟩
  | .array (j :: js), h, hf => by
      obtain ⟨t, ht, hparses⟩ := elems_parses (j :: js) (List.cons_ne_nil _ _) h hf
      refine ⟨_, ?_, .array hparses⟩
      rw [dump, ht]
      rfl
  | .object [], _, _ => ⟨_, rfl, parses_empty⟩
  | .object (m :: ms), h, hf => by
      obtain ⟨t, ht, hparses⟩ := members_parses (m :: ms) (List.cons_ne_nil _ _) h.1 hf
      have hsorted : ([] ++ canonMembers (m :: ms)).map Prod.fst = (m :: ms).map Prod.fst :=
        canonMembers_keys _
      have hobject := Parses.object hparses
      rw [assign_append (hsorted ▸ h.2)] at hobject
      refine ⟨_, ?_, hobject⟩
      rw [dump, ht]
      rfl

lemma elems_parses : ∀ js : List Json, js ≠ [] → Json.ElemsWellFormed js →
    (∀ bits ∈ elemsFloats js, ReadsBack strtod grisu2 bits) →
    ∃ t, dumpElems (dumpFloat grisu2) js = .ok t ∧ ParsesElems strtod t (canonElems js)
  | [], hne, _, _ => absurd rfl hne
  | [j], _, h, hf => by
      obtain ⟨t, ht, hparses⟩ := value_parses h.1 fun bits hb => hf bits (List.mem_append_left _ hb)
      exact ⟨t, ht, .single hparses⟩
  | j :: j' :: js, _, h, hf => by
      obtain ⟨t, ht, hparses⟩ := value_parses h.1 fun bits hb => hf bits (List.mem_append_left _ hb)
      obtain ⟨ts, hts, hparses'⟩ := elems_parses (j' :: js) (List.cons_ne_nil _ _) h.2
        fun bits hb => hf bits (List.mem_append_right _ hb)
      refine ⟨_, ?_, .cons hparses hparses'⟩
      rw [dumpElems, ht, hts]
      · rfl
      · exact fun heq => (by cases heq)

lemma members_parses : ∀ ms : List (Bytes × Json), ms ≠ [] → Json.MembersWellFormed ms →
    (∀ bits ∈ membersFloats ms, ReadsBack strtod grisu2 bits) →
    ∃ t, dumpMembers (dumpFloat grisu2) ms = .ok t ∧ ParsesMembers strtod t (canonMembers ms)
  | [], hne, _, _ => absurd rfl hne
  | [(k, j)], _, h, hf => by
      obtain ⟨tk, hk⟩ := dumpString_ok h.1
      obtain ⟨t, ht, hparses⟩ :=
        value_parses h.2.1 fun bits hb => hf bits (List.mem_append_left _ hb)
      refine ⟨_, ?_, .single hk hparses⟩
      rw [dumpMembers, hk, ht]
      rfl
  | (k, j) :: m :: ms, _, h, hf => by
      obtain ⟨tk, hk⟩ := dumpString_ok h.1
      obtain ⟨t, ht, hparses⟩ :=
        value_parses h.2.1 fun bits hb => hf bits (List.mem_append_left _ hb)
      obtain ⟨ts, hts, hparses'⟩ := members_parses (m :: ms) (List.cons_ne_nil _ _) h.2.2
        fun bits hb => hf bits (List.mem_append_right _ hb)
      refine ⟨_, ?_, .cons hk hparses hparses'⟩
      rw [dumpMembers, hk, ht, hts]
      · rfl
      · exact fun heq => (by cases heq)

end

/-- A text that leads the parser to a value is parsed to it. -/
lemma Parses.parse {v : Json} (h : Parses strtod t v) : parse strtod t = .ok v := by
  have hend : Ends [] := fun _ hb => (by cases hb)
  obtain ⟨k, hk, hloop⟩ := h [] hend
  have hne := h.token_ne hend (.parseError (ascii "invalid literal")) fun _ => ⟨_, rfl⟩
  rw [List.append_nil] at hne hloop
  have hbom : skipBom t = some t := by
    rw [skipBom.eq_def]
    split
    · exact absurd rfl hne
    · rfl
  have hfirst : scanFirst strtod t = scan strtod t := by rw [scanFirst, hbom]
  obtain ⟨n, hn⟩ : ∃ n, 2 * t.length + 3 = n + 1 + k := ⟨2 * t.length + 2 - k, by omega⟩
  rw [TextParser.parse, hfirst, hn, hloop]
  rfl

/-- **What is dumped is parsed to the value again**, with its integers as the lexer types them. -/
theorem parse_dump (strtod : Bytes → UInt64) (grisu2 : UInt64 → Bytes × ℤ) (v : Json)
    (hv : v.WellFormed) (hf : ∀ bits ∈ v.floats, ReadsBack strtod grisu2 bits) :
    ∃ t, dump (dumpFloat grisu2) v = .ok t ∧ parse strtod t = .ok v.canon := by
  obtain ⟨t, ht, hparses⟩ := value_parses hv hf
  exact ⟨t, ht, hparses.parse⟩

/-- A list, a text in quotes and a number, there and back. -/
theorem parse_dump_reply : ∃ t, dump (dumpFloat fun _ => (ascii "15", -1))
      (.array [.string (ascii "a\"b"), .numberInteger 7, .numberFloat 0x3FF8000000000000]) = .ok t ∧
    parse (fun _ => 0x3FF8000000000000) t =
      .ok (.array [.string (ascii "a\"b"), .numberUnsigned 7,
        .numberFloat 0x3FF8000000000000]) := by
  refine parse_dump _ _ (.array [.string (ascii "a\"b"), .numberInteger 7,
    .numberFloat 0x3FF8000000000000]) ⟨rfl, ⟨by decide, by decide⟩, rfl, trivial⟩ ?_
  intro bits hbits
  obtain rfl := List.mem_singleton.mp hbits
  exact ⟨fun _ => ⟨⟨0x31, ascii "5", rfl, by decide⟩, List.all_eq_true.mp rfl, by decide⟩, rfl⟩

mutual

/-- The signedness of an integer does not show in its text. -/
lemma dump_canon (f : UInt64 → Bytes) : ∀ v : Json, dump f v.canon = dump f v
  | .null => rfl
  | .boolean _ => rfl
  | .numberInteger (.ofNat _) => rfl
  | .numberInteger (.negSucc _) => rfl
  | .numberUnsigned _ => rfl
  | .numberFloat _ => rfl
  | .string _ => rfl
  | .array elems => by rw [canon, dump, dump, dumpElems_canon f elems]
  | .object members => by rw [canon, dump, dump, dumpMembers_canon f members]

lemma dumpElems_canon (f : UInt64 → Bytes) :
    ∀ js : List Json, dumpElems f (canonElems js) = dumpElems f js
  | [] => rfl
  | [j] => dump_canon f j
  | j :: j' :: js => by
      show (dump f j.canon >>= fun t => dumpElems f (canonElems (j' :: js)) >>= fun ts => _) = _
      rw [dump_canon f j, dumpElems_canon f (j' :: js)]
      rfl

lemma dumpMembers_canon (f : UInt64 → Bytes) :
    ∀ ms : List (Bytes × Json), dumpMembers f (canonMembers ms) = dumpMembers f ms
  | [] => rfl
  | [(k, j)] => by rw [canonMembers, canonMembers, dumpMembers, dumpMembers, dump_canon f j]
  | (k, j) :: m :: ms => by
      show (dumpString k >>= fun tk => dump f j.canon >>= fun t =>
        dumpMembers f (canonMembers (m :: ms)) >>= fun ts => _) = _
      rw [dump_canon f j, dumpMembers_canon f (m :: ms)]
      rfl

end

/-- **Values have one text exactly when they are one value**, but for the types of integers. -/
theorem dump_eq_iff (strtod : Bytes → UInt64) (grisu2 : UInt64 → Bytes × ℤ) (v w : Json)
    (hv : v.WellFormed) (hw : w.WellFormed)
    (hf : ∀ bits ∈ v.floats ++ w.floats, ReadsBack strtod grisu2 bits) :
    dump (dumpFloat grisu2) v = dump (dumpFloat grisu2) w ↔ v.canon = w.canon := by
  constructor
  · intro heq
    obtain ⟨t, ht, hparses⟩ := value_parses hv fun bits hb => hf bits (List.mem_append_left _ hb)
    obtain ⟨t', ht', hparses'⟩ :=
      value_parses hw fun bits hb => hf bits (List.mem_append_right _ hb)
    obtain rfl : t = t' := Except.ok.inj (ht.symm.trans (heq.trans ht'))
    exact Except.ok.inj (hparses.parse.symm.trans hparses'.parse)
  · intro heq
    rw [← dump_canon _ v, heq, dump_canon]

/-- Lists of zero, of either integer type, and 1.5. -/
theorem dump_eq_zero :
    let v : Json := .array [.numberInteger 0, .numberFloat 0x3FF8000000000000]
    let w : Json := .array [.numberUnsigned 0, .numberFloat 0x3FF8000000000000]
    dump (dumpFloat fun _ => (ascii "15", -1)) v = dump (dumpFloat fun _ => (ascii "15", -1)) w ↔
      v.canon = w.canon := by
  refine dump_eq_iff (fun _ => 0x3FF8000000000000) _ _ _ ⟨⟨by decide, by decide⟩, rfl, trivial⟩
    ⟨(by decide : 0 < 2 ^ 64), rfl, trivial⟩ fun bits hbits => ?_
  obtain rfl : bits = 0x3FF8000000000000 := by
    rcases List.mem_append.mp hbits with hb | hb <;> exact List.mem_singleton.mp hb
  exact ⟨fun _ => ⟨⟨0x31, ascii "5", rfl, by decide⟩, List.all_eq_true.mp rfl, by decide⟩, rfl⟩

/-! ### What can be dumped -/

mutual

/-- The numbers of a value are of 64 bits and finite, and its keys are in order. -/
def Json.Fits : Json → Prop
  | .numberInteger n => -2 ^ 63 ≤ n ∧ n < 2 ^ 63
  | .numberUnsigned n => n < 2 ^ 64
  | .numberFloat bits => isFinite bits = true
  | .array elems => Json.ElemsFit elems
  | .object members => Json.MembersFit members ∧ (members.map Prod.fst).Pairwise (· < ·)
  | _ => True

/-- `Fits` of the elements of an array. -/
def Json.ElemsFit : List Json → Prop
  | [] => True
  | j :: js => j.Fits ∧ Json.ElemsFit js

/-- `Fits` of the values of an object. -/
def Json.MembersFit : List (Bytes × Json) → Prop
  | [] => True
  | (_, j) :: ms => j.Fits ∧ Json.MembersFit ms

end

lemma except_bind_eq_ok {α β : Type} {x : Except Exception α} {f : α → Except Exception β} {b : β}
    (h : x >>= f = .ok b) : ∃ a, x = .ok a ∧ f a = .ok b := by
  rcases x with e | a
  · cases h
  · exact ⟨a, rfl, h⟩

mutual

/-- A value that is dumped has its strings in UTF-8. -/
lemma Json.Fits.wellFormed {f : UInt64 → Bytes} : ∀ {v : Json} {t : Bytes}, v.Fits →
    dump f v = .ok t → v.WellFormed
  | .null, _, _, _ => trivial
  | .boolean _, _, _, _ => trivial
  | .numberInteger _, _, h, _ => h
  | .numberUnsigned _, _, h, _ => h
  | .numberFloat _, _, h, _ => h
  | .string s, t, _, hdump => (dumpString_isOk_iff s).mp ⟨t, hdump⟩
  | .array _, _, h, hdump => by
      obtain ⟨ts, hts, -⟩ := except_bind_eq_ok hdump
      exact Json.ElemsFit.wellFormed h hts
  | .object _, _, h, hdump => by
      obtain ⟨ts, hts, -⟩ := except_bind_eq_ok hdump
      exact ⟨Json.MembersFit.wellFormed h.1 hts, h.2⟩

lemma Json.ElemsFit.wellFormed {f : UInt64 → Bytes} : ∀ {js : List Json} {t : Bytes},
    Json.ElemsFit js → dumpElems f js = .ok t → Json.ElemsWellFormed js
  | [], _, _, _ => trivial
  | [_], _, h, hdump => ⟨h.1.wellFormed hdump, trivial⟩
  | _ :: _ :: _, _, h, hdump => by
      obtain ⟨t, ht, hrest⟩ := except_bind_eq_ok hdump
      obtain ⟨ts, hts, -⟩ := except_bind_eq_ok hrest
      exact ⟨h.1.wellFormed ht, h.2.wellFormed hts⟩

lemma Json.MembersFit.wellFormed {f : UInt64 → Bytes} : ∀ {ms : List (Bytes × Json)} {t : Bytes},
    Json.MembersFit ms → dumpMembers f ms = .ok t → Json.MembersWellFormed ms
  | [], _, _, _ => trivial
  | [(k, _)], _, h, hdump => by
      obtain ⟨tk, hk, hrest⟩ := except_bind_eq_ok hdump
      obtain ⟨t, ht, -⟩ := except_bind_eq_ok hrest
      exact ⟨(dumpString_isOk_iff k).mp ⟨tk, hk⟩, h.1.wellFormed ht, trivial⟩
  | (k, _) :: _ :: _, _, h, hdump => by
      obtain ⟨tk, hk, hrest⟩ := except_bind_eq_ok hdump
      obtain ⟨t, ht, hrest⟩ := except_bind_eq_ok hrest
      obtain ⟨ts, hts, -⟩ := except_bind_eq_ok hrest
      exact ⟨(dumpString_isOk_iff k).mp ⟨tk, hk⟩, h.1.wellFormed ht, h.2.wellFormed hts⟩

end

mutual

/-- A value whose strings are in UTF-8 is dumped. -/
lemma dump_ok (f : UInt64 → Bytes) : ∀ {v : Json}, v.StringsValid → ∃ t, dump f v = .ok t
  | .null, _ => ⟨_, rfl⟩
  | .boolean _, _ => ⟨_, rfl⟩
  | .numberInteger _, _ => ⟨_, rfl⟩
  | .numberUnsigned _, _ => ⟨_, rfl⟩
  | .numberFloat _, _ => ⟨_, rfl⟩
  | .string _, h => dumpString_ok h
  | .array _, h => by
      obtain ⟨ts, hts⟩ := dumpElems_ok f h
      exact ⟨_, by rw [dump, hts]; rfl⟩
  | .object _, h => by
      obtain ⟨ts, hts⟩ := dumpMembers_ok f h
      exact ⟨_, by rw [dump, hts]; rfl⟩

lemma dumpElems_ok (f : UInt64 → Bytes) : ∀ {js : List Json}, Json.ElemsValid js →
    ∃ t, dumpElems f js = .ok t
  | [], _ => ⟨_, rfl⟩
  | [_], h => dump_ok f h.1
  | _ :: _ :: _, h => by
      obtain ⟨t, ht⟩ := dump_ok f h.1
      obtain ⟨ts, hts⟩ := dumpElems_ok f h.2
      refine ⟨t ++ ascii "," ++ ts, ?_⟩
      rw [dumpElems, ht, hts]
      · rfl
      · exact fun heq => (by cases heq)

lemma dumpMembers_ok (f : UInt64 → Bytes) : ∀ {ms : List (Bytes × Json)}, Json.MembersValid ms →
    ∃ t, dumpMembers f ms = .ok t
  | [], _ => ⟨_, rfl⟩
  | [(_, _)], h => by
      obtain ⟨tk, hk⟩ := dumpString_ok h.1
      obtain ⟨t, ht⟩ := dump_ok f h.2.1
      exact ⟨_, by rw [dumpMembers, hk, ht]; rfl⟩
  | (_, _) :: _ :: _, h => by
      obtain ⟨tk, hk⟩ := dumpString_ok h.1
      obtain ⟨t, ht⟩ := dump_ok f h.2.1
      obtain ⟨ts, hts⟩ := dumpMembers_ok f h.2.2
      refine ⟨tk ++ ascii ":" ++ t ++ ascii "," ++ ts, ?_⟩
      rw [dumpMembers, hk, ht, hts]
      · rfl
      · exact fun heq => (by cases heq)

end

mutual

/-- The numbers and keys of a well-formed value. -/
lemma Json.WellFormed.fits : ∀ {v : Json}, v.WellFormed → v.Fits
  | .null, _ => trivial
  | .boolean _, _ => trivial
  | .numberInteger _, h => h
  | .numberUnsigned _, h => h
  | .numberFloat _, h => h
  | .string _, _ => trivial
  | .array _, h => Json.ElemsWellFormed.elemsFit h
  | .object _, h => ⟨Json.MembersWellFormed.membersFit h.1, h.2⟩

lemma Json.ElemsWellFormed.elemsFit : ∀ {js : List Json}, Json.ElemsWellFormed js →
    Json.ElemsFit js
  | [], _ => trivial
  | _ :: _, h => ⟨h.1.fits, h.2.elemsFit⟩

lemma Json.MembersWellFormed.membersFit : ∀ {ms : List (Bytes × Json)},
    Json.MembersWellFormed ms → Json.MembersFit ms
  | [], _ => trivial
  | _ :: _, h => ⟨h.2.1.fits, h.2.2.membersFit⟩

end

/-- What was dumped is parsed to the value again. -/
lemma parse_of_dump {v : Json} (hfits : v.Fits)
    (hf : ∀ bits ∈ v.floats, ReadsBack strtod grisu2 bits) (h : dump (dumpFloat grisu2) v = .ok t) :
    parse strtod t = .ok v.canon := by
  obtain ⟨t', ht', hparses⟩ := value_parses (hfits.wellFormed h) hf
  obtain rfl : t = t' := Except.ok.inj (h.symm.trans ht')
  exact hparses.parse

end RasPiZeroCam
