import RasPiZeroCam.Control.Dispatcher
import RasPiZeroCam.Control.Lexer

/-!
The parser behind `nlohmann::json::parse`: a loop over the tokens with a stack of the arrays and
objects that are open, which builds the value as `json_sax_dom_parser` does.

* `Frame`, `Phase`, `parseLoop`: the stack, whether a value is to be parsed or has been, and
  `sax_parse_internal`.
* `parse`: `parser::parse` in strict mode, on a whole text.
* `Json.WellFormed`: strings in UTF-8, keys in order, numbers of 64 bits.
* `parse_wellFormed`, `parse_error_id`: what is parsed is well-formed, and nothing is thrown but the
  two errors of the library: the loop ends.
* `nlohmann`: so it is a `JsonParser` for the dispatcher.
-/

namespace RasPiZeroCam

open Lexer

/-- A `parse_error` 101, or the `out_of_range` 406 of a number, by what its text is made of: the
context, the last token, and the one that was expected. -/
structure ParseError where
  id : ℕ
  context : Bytes
  last_token : Token
  expected : Bytes
  deriving DecidableEq

namespace TextParser

/-- An array or an object that is open; an object is at the member `key`. -/
inductive Frame where
  | array (elems : List Json)
  | object (members : List (Bytes × Json)) (key : Bytes)

/-- Where the loop is: at a token that begins a value, or behind a value. -/
inductive Phase where
  | value (last_token : Token)
  | done (v : Json)

/-- `std::isfinite`. -/
def isFinite (bits : UInt64) : Bool := (bits >>> 52) &&& 0x7FF ≠ 0x7FF

/-- `operator[](key)` of an object, and an assignment to it. -/
def insertMember (key : Bytes) (v : Json) : List (Bytes × Json) → List (Bytes × Json)
  | [] => [(key, v)]
  | (k, w) :: members =>
      if key = k then (k, v) :: members
      else if key < k then (key, v) :: (k, w) :: members
      else (k, w) :: insertMember key v members

/-- A member of an object from its key on, up to the value. -/
def parseKey (strtod : Bytes → UInt64) (r : Token × Bytes) :
    Except ParseError (Bytes × Token × Bytes) :=
  match r with
  | (.valueString key, s) =>
      match scan strtod s with
      | (.nameSeparator, s) => .ok (key, scan strtod s)
      | (t, _) => .error ⟨101, ascii "object separator", t, ascii "':'"⟩
  | (t, _) => .error ⟨101, ascii "object key", t, ascii "string literal"⟩

/-- What a pass of the loop leads to: another one, or the end of the hierarchy. -/
inductive Pass where
  | again (phase : Phase) (states : List Frame) (s : Bytes)
  | stop (v : Json) (s : Bytes)

/-- A pass of the loop of `sax_parse_internal(sax)`, with the stack `states`. -/
def loopPass (strtod : Bytes → UInt64) (phase : Phase) (states : List Frame) (s : Bytes) :
    Except ParseError Pass :=
  match phase with
  | .value t =>
      match t with
      | .beginObject =>
          match scan strtod s with
          | (.endObject, s) => .ok (.again (.done (.object [])) states s)
          | r => do
              let (key, t, s) ← parseKey strtod r
              .ok (.again (.value t) (.object [] key :: states) s)
      | .beginArray =>
          match scan strtod s with
          | (.endArray, s) => .ok (.again (.done (.array [])) states s)
          | (t, s) => .ok (.again (.value t) (.array [] :: states) s)
      | .valueFloat bits =>
          if isFinite bits then .ok (.again (.done (.numberFloat bits)) states s)
          else .error ⟨406, ascii "number overflow parsing", t, []⟩
      | .literalFalse => .ok (.again (.done (.boolean false)) states s)
      | .literalNull => .ok (.again (.done .null) states s)
      | .literalTrue => .ok (.again (.done (.boolean true)) states s)
      | .valueInteger x => .ok (.again (.done (.numberInteger x)) states s)
      | .valueString str => .ok (.again (.done (.string str)) states s)
      | .valueUnsigned x => .ok (.again (.done (.numberUnsigned x)) states s)
      | .parseError _ => .error ⟨101, ascii "value", t, []⟩
      | _ => .error ⟨101, ascii "value", t, ascii "'[', '\x7b', or a literal"⟩
  | .done v =>
      match states with
      | [] => .ok (.stop v s)
      | .array elems :: states =>
          match scan strtod s with
          | (.valueSeparator, s) =>
              let (t, s) := scan strtod s
              .ok (.again (.value t) (.array (elems ++ [v]) :: states) s)
          | (.endArray, s) => .ok (.again (.done (.array (elems ++ [v]))) states s)
          | (t, _) => .error ⟨101, ascii "array", t, ascii "']'"⟩
      | .object members key :: states =>
          match scan strtod s with
          | (.valueSeparator, s) => do
              let (key', t, s) ← parseKey strtod (scan strtod s)
              .ok (.again (.value t) (.object (insertMember key v members) key' :: states) s)
          | (.endObject, s) =>
              .ok (.again (.done (.object (insertMember key v members))) states s)
          | (t, _) => .error ⟨101, ascii "object", t, ascii "'\x7d'"⟩

/-- `sax_parse_internal(sax)`, in at most `n` passes. -/
def parseLoop (strtod : Bytes → UInt64) :
    ℕ → Phase → List Frame → Bytes → Except ParseError (Json × Bytes)
  | 0, _, _, _ => .error ⟨0, [], .endOfInput, []⟩
  | n + 1, phase, states, s => do
      match ← loopPass strtod phase states s with
      | .again phase states s => parseLoop strtod n phase states s
      | .stop v s => .ok (v, s)

/-- The test of strict mode: behind the value is the end of the input. -/
def strictEnd (strtod : Bytes → UInt64) (r : Json × Bytes) : Except ParseError Json :=
  match scan strtod r.2 with
  | (.endOfInput, _) => .ok r.1
  | (t, _) => .error ⟨101, ascii "value", t, ascii "end of input"⟩

/-- `parse(i)`, in strict mode. -/
def parse (strtod : Bytes → UInt64) (raw : Bytes) : Except ParseError Json :=
  let r := scanFirst strtod raw
  parseLoop strtod (2 * raw.length + 3) (.value r.1) [] r.2 >>= strictEnd strtod

example : parse (fun _ => 0) (ascii "[true, -3]") =
    .ok (.array [.boolean true, .numberInteger (-3)]) := rfl

end TextParser

open TextParser

mutual

/-- What the value of a text is: strings and keys in UTF-8, numbers that fit their types, finite
floating-point numbers, and the members of an object in the order of their keys. -/
def Json.WellFormed : Json → Prop
  | .numberInteger n => -2 ^ 63 ≤ n ∧ n < 2 ^ 63
  | .numberUnsigned n => n < 2 ^ 64
  | .numberFloat bits => isFinite bits = true
  | .string s => ValidUtf8 s
  | .array elems => Json.ElemsWellFormed elems
  | .object members => Json.MembersWellFormed members ∧ (members.map Prod.fst).Pairwise (· < ·)
  | _ => True

/-- `WellFormed` of the elements of an array. -/
def Json.ElemsWellFormed : List Json → Prop
  | [] => True
  | j :: js => j.WellFormed ∧ Json.ElemsWellFormed js

/-- `WellFormed` of the keys and values of an object. -/
def Json.MembersWellFormed : List (Bytes × Json) → Prop
  | [] => True
  | (k, j) :: ms => ValidUtf8 k ∧ j.WellFormed ∧ Json.MembersWellFormed ms

end

lemma Json.ElemsWellFormed.concat {j : Json} (hj : j.WellFormed) :
    ∀ {js : List Json}, Json.ElemsWellFormed js → Json.ElemsWellFormed (js ++ [j])
  | [], _ => ⟨hj, trivial⟩
  | _ :: _, h => ⟨h.1, h.2.concat hj⟩

namespace TextParser

/-! ### Members -/

/-- An assignment to a member keeps the others. -/
lemma insertMember_wellFormed {key : Bytes} {v : Json} (hkey : ValidUtf8 key)
    (hv : v.WellFormed) {ms : List (Bytes × Json)} (h : Json.MembersWellFormed ms) :
    Json.MembersWellFormed (insertMember key v ms) := by
  induction ms with
  | nil => exact ⟨hkey, hv, trivial⟩
  | cons m ms ih =>
      obtain ⟨k, w⟩ := m
      rw [insertMember]
      split_ifs with heq hlt
      · exact ⟨h.1, hv, h.2.2⟩
      · exact ⟨hkey, hv, h⟩
      · exact ⟨h.1, h.2.1, ih h.2.2⟩

/-- The keys after it. -/
lemma mem_insertMember {key k : Bytes} {v : Json} {ms : List (Bytes × Json)} :
    k ∈ (insertMember key v ms).map Prod.fst ↔ k = key ∨ k ∈ ms.map Prod.fst := by
  induction ms with
  | nil => simp [insertMember]
  | cons m ms ih =>
      obtain ⟨k', w⟩ := m
      rw [insertMember]
      split_ifs with heq hlt
      · simp only [heq, List.map_cons, List.mem_cons]
        tauto
      · simp only [List.map_cons, List.mem_cons]
      · simp only [List.map_cons, List.mem_cons, ih]
        tauto

/-- They stay in order. -/
lemma insertMember_sorted (key : Bytes) (v : Json) {ms : List (Bytes × Json)}
    (h : (ms.map Prod.fst).Pairwise (· < ·)) :
    ((insertMember key v ms).map Prod.fst).Pairwise (· < ·) := by
  induction ms with
  | nil => exact List.pairwise_singleton _ _
  | cons m ms ih =>
      obtain ⟨k, w⟩ := m
      rw [List.map_cons, List.pairwise_cons] at h
      rw [insertMember]
      split_ifs with heq hlt
      · exact List.pairwise_cons.mpr h
      · refine List.pairwise_cons.mpr ⟨fun k' hk' => ?_, List.pairwise_cons.mpr h⟩
        rcases List.mem_cons.mp hk' with rfl | hk'
        · exact hlt
        · exact List.lt_trans hlt (h.1 k' hk')
      · refine List.pairwise_cons.mpr ⟨fun k' hk' => ?_, ih h.2⟩
        rcases mem_insertMember.mp hk' with rfl | hk'
        · exact (List.le_iff_lt_or_eq.mp (List.not_lt.mp hlt)).resolve_right fun h => heq h.symm
        · exact h.1 k' hk'

/-! ### A pass -/

/-- The keys and values of the open arrays and objects. -/
def Frame.WellFormed : Frame → Prop
  | .array elems => Json.ElemsWellFormed elems
  | .object members key => Json.MembersWellFormed members ∧
      (members.map Prod.fst).Pairwise (· < ·) ∧ ValidUtf8 key

def Phase.WellFormed : Phase → Prop
  | .value t => t.Valid
  | .done v => v.WellFormed

/-- The passes that are left, at most: a token that is not the end of the input was taken from the
text. -/
def Phase.cost : Phase → Bytes → ℕ
  | .value .endOfInput, _ => 1
  | .value _, s => 2 * s.length + 2
  | .done _, s => 2 * s.length + 1

lemma Phase.cost_pos (phase : Phase) (s : Bytes) : 0 < phase.cost s := by
  cases phase with
  | value t => cases t <;> exact Nat.succ_pos _
  | done v => exact Nat.succ_pos _

/-- A pass goes on with well-formed values and with less to do, or ends with one. -/
def Pass.Fine (cost : ℕ) : Pass → Prop
  | .again phase states s =>
      phase.WellFormed ∧ (∀ f ∈ states, f.WellFormed) ∧ phase.cost s < cost
  | .stop v _ => v.WellFormed

lemma cost_le (phase : Phase) (s : Bytes) : phase.cost s ≤ 2 * s.length + 2 := by
  cases phase with
  | value t => cases t <;> simp [Phase.cost]
  | done v => exact Nat.le_succ _

/-- After a token, less is left than at the token. -/
lemma cost_value_le {s : Bytes} {r : Token × Bytes} (h : Takes s r) :
    (Phase.value r.1).cost r.2 ≤ 2 * s.length + 1 := by
  rcases h.lt with hend | hlt
  · rw [hend]
    show 1 ≤ _
    omega
  · have hle := cost_le (.value r.1) r.2
    omega

/-- A key and the token behind it. -/
lemma parseKey_spec (strtod : Bytes → UInt64) {s : Bytes} {r : Token × Bytes} (hr : Takes s r) :
    (∀ key t s', parseKey strtod r = .ok (key, t, s') →
      ValidUtf8 key ∧ t.Valid ∧ (Phase.value t).cost s' ≤ 2 * s.length) ∧
      ∀ e, parseKey strtod r = .error e → e.id = 101 := by
  obtain ⟨t, s₁⟩ := r
  cases t
  case valueString key =>
      have hlt : s₁.length < s.length := hr.lt.resolve_left fun h => by cases h
      have hscan := scan_takes strtod s₁
      rw [parseKey]
      rcases hsep : scan strtod s₁ with ⟨t, s₂⟩
      rw [hsep] at hscan
      cases t
      case nameSeparator =>
          refine ⟨fun key' t s' h => ?_, fun e h => (by cases h)⟩
          obtain ⟨rfl, hnext⟩ := Prod.mk.inj (Except.ok.inj h)
          have hnextTakes := scan_takes strtod s₂
          have hcost := cost_value_le hnextTakes
          rw [hnext] at hnextTakes hcost
          have hle : s₂.length ≤ s₁.length := hscan.le
          exact ⟨hr.valid, hnextTakes.valid, hcost.trans (by omega)⟩
      all_goals exact ⟨fun _ _ _ h => (by cases h), fun e h => (by cases h; rfl)⟩
  all_goals exact ⟨fun _ _ _ h => (by cases h), fun e h => (by cases h; rfl)⟩

/-- What a pass does to well-formed values. -/
structure PassSpec (cost : ℕ) (r : Except ParseError Pass) : Prop where
  fine : ∀ p, r = .ok p → p.Fine cost
  error : ∀ e, r = .error e → e.id = 101 ∨ e.id = 406

lemma PassSpec.ok {cost : ℕ} {p : Pass} (h : p.Fine cost) : PassSpec cost (.ok p) :=
  ⟨fun _ heq => (by cases heq; exact h), fun _ heq => (by cases heq)⟩

lemma PassSpec.fail {cost : ℕ} {e : ParseError} (h : e.id = 101 ∨ e.id = 406) :
    PassSpec cost (.error e) :=
  ⟨fun _ heq => (by cases heq), fun _ heq => (by cases heq; exact h)⟩

variable {strtod : Bytes → UInt64} {s : Bytes} {states : List Frame}

/-- A pass that begins a member, in an object whose members are well-formed. -/
lemma parseKey_pass {members : List (Bytes × Json)} {r : Token × Bytes} {cost : ℕ}
    (hr : Takes s r) (hcost : 2 * s.length < cost) (hmembers : Json.MembersWellFormed members)
    (hsorted : (members.map Prod.fst).Pairwise (· < ·)) (hstates : ∀ f ∈ states, f.WellFormed) :
    PassSpec cost (do
      let (key, t, s) ← parseKey strtod r
      .ok (.again (.value t) (.object members key :: states) s)) := by
  obtain ⟨hok, herror⟩ := parseKey_spec strtod hr
  rcases hkey : parseKey strtod r with e | ⟨key, t, s'⟩
  · exact .fail (Or.inl (herror e hkey))
  · obtain ⟨hvalid, ht, hle⟩ := hok key t s' hkey
    refine .ok ⟨ht, fun f hf => ?_, hle.trans_lt hcost⟩
    rcases List.mem_cons.mp hf with rfl | hf
    · exact ⟨hmembers, hsorted, hvalid⟩
    · exact hstates f hf

/-- A pass at a number that has a value. -/
lemma loopPass_float {bits : UInt64} (h : isFinite bits = true) :
    loopPass strtod (.value (.valueFloat bits)) states s =
      .ok (.again (.done (.numberFloat bits)) states s) := if_pos h

/-- A pass at a token. -/
lemma loopPass_value {t : Token} (ht : t.Valid) (hstates : ∀ f ∈ states, f.WellFormed) :
    PassSpec ((Phase.value t).cost s) (loopPass strtod (.value t) states s) := by
  have hdone : ∀ v : Json, v.WellFormed → (Phase.value t).cost s = 2 * s.length + 2 →
      PassSpec ((Phase.value t).cost s) (.ok (.again (.done v) states s)) := by
    intro v hv hcost
    refine .ok ⟨hv, hstates, ?_⟩
    rw [hcost]
    exact Nat.lt_succ_self _
  have hscan := scan_takes strtod s
  cases t
  case beginObject =>
      unfold loopPass
      dsimp only
      rcases hr : scan strtod s with ⟨t, s₁⟩
      rw [hr] at hscan
      have hother : PassSpec (2 * s.length + 2) (do
          let (key, t, s) ← parseKey strtod (t, s₁)
          .ok (.again (.value t) (.object [] key :: states) s)) :=
        parseKey_pass hscan (by omega) trivial List.Pairwise.nil hstates
      cases t
      case endObject =>
          refine .ok ⟨⟨trivial, List.Pairwise.nil⟩, hstates, ?_⟩
          have hle : s₁.length ≤ s.length := hscan.le
          show 2 * s₁.length + 1 < 2 * s.length + 2
          omega
      all_goals exact hother
  case beginArray =>
      unfold loopPass
      dsimp only
      rcases hr : scan strtod s with ⟨t, s₁⟩
      rw [hr] at hscan
      have hother : PassSpec (2 * s.length + 2)
          (.ok (.again (.value t) (.array [] :: states) s₁)) := by
        refine .ok ⟨hscan.valid, fun f hf => ?_, Nat.lt_succ_of_le (cost_value_le hscan)⟩
        rcases List.mem_cons.mp hf with rfl | hf
        · exact trivial
        · exact hstates f hf
      cases t
      case endArray =>
          refine .ok ⟨trivial, hstates, ?_⟩
          have hle : s₁.length ≤ s.length := hscan.le
          show 2 * s₁.length + 1 < 2 * s.length + 2
          omega
      all_goals exact hother
  case valueFloat bits =>
      by_cases hfinite : isFinite bits = true
      · rw [loopPass_float hfinite]
        exact hdone (.numberFloat bits) hfinite rfl
      · unfold loopPass
        dsimp only
        rw [if_neg hfinite]
        exact .fail (Or.inr rfl)
  case literalFalse => exact hdone (.boolean false) trivial rfl
  case literalNull => exact hdone .null trivial rfl
  case literalTrue => exact hdone (.boolean true) trivial rfl
  case valueInteger x =>
      have hlt : x < 2 ^ 63 := lt_of_le_of_lt ht.2 (by norm_num)
      exact hdone (.numberInteger x) ⟨ht.1, hlt⟩ rfl
  case valueString str => exact hdone (.string str) ht rfl
  case valueUnsigned x => exact hdone (.numberUnsigned x) ht rfl
  all_goals exact .fail (Or.inl rfl)

/-- A pass behind a value. -/
lemma loopPass_done {v : Json} (hv : v.WellFormed) (hstates : ∀ f ∈ states, f.WellFormed) :
    PassSpec ((Phase.done v).cost s) (loopPass strtod (.done v) states s) := by
  have hscan := scan_takes strtod s
  rcases states with _ | ⟨elems | ⟨members, key⟩, states⟩
  · exact .ok hv
  · have helems : Json.ElemsWellFormed (elems ++ [v]) :=
      Json.ElemsWellFormed.concat hv (hstates _ List.mem_cons_self)
    have hrest : ∀ f ∈ states, f.WellFormed := fun f hf => hstates f (List.mem_cons_of_mem _ hf)
    unfold loopPass
    dsimp only
    rcases hr : scan strtod s with ⟨t, s₁⟩
    rw [hr] at hscan
    cases t
    case valueSeparator =>
        have hlt : s₁.length < s.length := hscan.lt.resolve_left fun h => by cases h
        have hnext := scan_takes strtod s₁
        refine .ok ⟨hnext.valid, fun f hf => ?_, (cost_value_le hnext).trans_lt ?_⟩
        · rcases List.mem_cons.mp hf with rfl | hf
          · exact helems
          · exact hrest f hf
        · show 2 * s₁.length + 1 < 2 * s.length + 1
          omega
    case endArray =>
        have hlt : s₁.length < s.length := hscan.lt.resolve_left fun h => by cases h
        refine .ok ⟨helems, hrest, ?_⟩
        show 2 * s₁.length + 1 < 2 * s.length + 1
        omega
    all_goals exact .fail (Or.inl rfl)
  · obtain ⟨hmembers, hsorted, hkey⟩ := hstates _ List.mem_cons_self
    have hmembers' := insertMember_wellFormed hkey hv hmembers
    have hsorted' := insertMember_sorted key v hsorted
    have hrest : ∀ f ∈ states, f.WellFormed := fun f hf => hstates f (List.mem_cons_of_mem _ hf)
    unfold loopPass
    dsimp only
    rcases hr : scan strtod s with ⟨t, s₁⟩
    rw [hr] at hscan
    cases t
    case valueSeparator =>
        have hlt : s₁.length < s.length := hscan.lt.resolve_left fun h => by cases h
        exact parseKey_pass (scan_takes strtod s₁) (by show _ < 2 * s.length + 1; omega) hmembers'
          hsorted' hrest
    case endObject =>
        have hlt : s₁.length < s.length := hscan.lt.resolve_left fun h => by cases h
        refine .ok ⟨⟨hmembers', hsorted'⟩, hrest, ?_⟩
        show 2 * s₁.length + 1 < 2 * s.length + 1
        omega
    all_goals exact .fail (Or.inl rfl)

/-- **A pass keeps well-formed values.** -/
lemma loopPass_spec {phase : Phase} (hphase : phase.WellFormed)
    (hstates : ∀ f ∈ states, f.WellFormed) :
    PassSpec (phase.cost s) (loopPass strtod phase states s) := by
  cases phase with
  | value t => exact loopPass_value hphase hstates
  | done v => exact loopPass_done hphase hstates

/-- **The loop ends**, with a well-formed value or one of the errors of the library. -/
lemma parseLoop_spec (strtod : Bytes → UInt64) :
    ∀ (n : ℕ) {phase : Phase} {states : List Frame} {s : Bytes},
    phase.WellFormed → (∀ f ∈ states, f.WellFormed) → phase.cost s ≤ n →
    (∀ v s', parseLoop strtod n phase states s = .ok (v, s') → v.WellFormed) ∧
      ∀ e, parseLoop strtod n phase states s = .error e → e.id = 101 ∨ e.id = 406 := by
  intro n
  induction n with
  | zero =>
      intro phase states s _ _ hn
      have hpos := phase.cost_pos s
      exact absurd (hpos.trans_le hn) (lt_irrefl 0)
  | succ n ih =>
      intro phase states s hphase hstates hn
      have hpass : PassSpec (phase.cost s) (loopPass strtod phase states s) :=
        loopPass_spec hphase hstates
      rw [parseLoop]
      rcases hr : loopPass strtod phase states s with e | ⟨phase', states', s'⟩ | ⟨v, s'⟩
      · exact ⟨fun _ _ h => (by cases h), fun e' h => (by cases h; exact hpass.error e hr)⟩
      · obtain ⟨hphase', hstates', hcost⟩ := hpass.fine _ hr
        exact ih hphase' hstates' (by omega)
      · have hv : v.WellFormed := hpass.fine _ hr
        exact ⟨fun _ _ h => (by cases h; exact hv), fun _ h => (by cases h)⟩

/-- What `parse` gives for a text. -/
lemma parse_spec (raw : Bytes) :
    (∀ v, parse strtod raw = .ok v → v.WellFormed) ∧
      ∀ e, parse strtod raw = .error e → e.id = 101 ∨ e.id = 406 := by
  obtain ⟨hvalid, hle⟩ := scanFirst_takes strtod raw
  have hphase : (Phase.value (scanFirst strtod raw).1).WellFormed := hvalid
  have hstates : ∀ f ∈ ([] : List Frame), f.WellFormed := fun f hf => (by cases hf)
  have hcost := cost_le (.value (scanFirst strtod raw).1) (scanFirst strtod raw).2
  obtain ⟨hok, herror⟩ := parseLoop_spec strtod (2 * raw.length + 3) hphase hstates
    (hcost.trans (by omega))
  rw [parse]
  rcases hr : parseLoop strtod (2 * raw.length + 3) (.value (scanFirst strtod raw).1) []
    (scanFirst strtod raw).2 with e | ⟨v, s⟩
  · exact ⟨fun _ h => (by cases h), fun e' h => (by cases h; exact herror e hr)⟩
  · have hv := hok v s hr
    show (∀ w, strictEnd strtod (v, s) = .ok w → _) ∧ ∀ e, strictEnd strtod (v, s) = .error e → _
    rw [strictEnd]
    rcases scan strtod s with ⟨t, s'⟩
    cases t
    case endOfInput => exact ⟨fun _ h => (by cases h; exact hv), fun _ h => (by cases h)⟩
    all_goals exact ⟨fun _ h => (by cases h), fun _ h => (by cases h; exact Or.inl rfl)⟩

end TextParser

/-- **What is parsed is well-formed**: strings in UTF-8, numbers in the range of their type, and
the members of every object in the order of their keys. -/
theorem parse_wellFormed (strtod : Bytes → UInt64) (raw : Bytes) :
    (∀ v, parse strtod raw = .ok v → v.WellFormed) ∧
      ∀ e, parse strtod raw = .error e → e.id = 101 ∨ e.id = 406 := parse_spec raw

mutual

/-- The strings of a well-formed value. -/
lemma Json.WellFormed.stringsValid : ∀ {j : Json}, j.WellFormed → j.StringsValid
  | .null, _ => trivial
  | .boolean _, _ => trivial
  | .numberInteger _, _ => trivial
  | .numberUnsigned _, _ => trivial
  | .numberFloat _, _ => trivial
  | .string _, h => h
  | .array _, h => Json.ElemsWellFormed.elemsValid h
  | .object _, h => Json.MembersWellFormed.membersValid h.1

lemma Json.ElemsWellFormed.elemsValid : ∀ {js : List Json}, Json.ElemsWellFormed js →
    Json.ElemsValid js
  | [], _ => trivial
  | _ :: _, h => ⟨h.1.stringsValid, h.2.elemsValid⟩

lemma Json.MembersWellFormed.membersValid : ∀ {ms : List (Bytes × Json)},
    Json.MembersWellFormed ms → Json.MembersValid ms
  | [], _ => trivial
  | _ :: _, h => ⟨h.1, h.2.1.stringsValid, h.2.2.membersValid⟩

end

/-- The library as the dispatcher uses it; `describe` is the text of an error. -/
def nlohmann (strtod : Bytes → UInt64) (dumpFloat : UInt64 → Bytes)
    (describe : ParseError → Exception) : JsonParser where
  parse raw := (parse strtod raw).mapError describe
  dumpFloat := dumpFloat
  parse_valid raw j h := by
    rcases hr : parse strtod raw with e | v
    · rw [hr] at h
      cases h
    · rw [hr] at h
      cases h
      exact ((parse_spec raw).1 j hr).stringsValid

end RasPiZeroCam
