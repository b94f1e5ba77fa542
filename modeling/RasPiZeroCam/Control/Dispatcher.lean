import RasPiZeroCam.Control.Json

/-!
`CommandDispatcher`: a message is parsed, its `cmd` member names a registered handler, and the
handler's reply goes back to the client.

* `JsonParser`: the parser, `nlohmann::json::parse`, which is a parameter.  It throws on malformed
  text, and its lexer lets only valid UTF-8 into the strings of a value.
* `dispatch`: the router, an exception that escapes it being the error of its result.
* `Answered`: what a client is promised for a message.
* `dispatch_answers_iff`: the promise is kept exactly on the messages of `Routable`: those whose
  parsed value is an object with a string (or no) `cmd`, and whose handler, if it throws, throws an
  exception with a printable text.
-/

namespace RasPiZeroCam

open Json

mutual

/-- Every string of a value, keys included, is valid UTF-8. -/
def Json.StringsValid : Json → Prop
  | .string s => ValidUtf8 s
  | .array elems => Json.ElemsValid elems
  | .object members => Json.MembersValid members
  | _ => True

/-- `StringsValid` of the elements of an array. -/
def Json.ElemsValid : List Json → Prop
  | [] => True
  | j :: js => j.StringsValid ∧ Json.ElemsValid js

/-- `StringsValid` of the members of an object. -/
def Json.MembersValid : List (Bytes × Json) → Prop
  | [] => True
  | (k, j) :: ms => ValidUtf8 k ∧ j.StringsValid ∧ Json.MembersValid ms

end

lemma Json.MembersValid.find {key : Bytes} {j : Json} :
    ∀ {ms : List (Bytes × Json)}, Json.MembersValid ms → Json.find key ms = some j →
      j.StringsValid
  | [], _, h => by simp [Json.find] at h
  | (k, v) :: ms, hv, h => by
      rw [Json.MembersValid] at hv
      rw [Json.find] at h
      split at h
      · rw [← Option.some.inj h]; exact hv.2.1
      · exact hv.2.2.find h

/-- The JSON library: `parse`, which reports malformed text by throwing, and the text of a
floating-point number in `dump`. -/
structure JsonParser where
  parse : Bytes → Except Exception Json
  dumpFloat : UInt64 → Bytes
  parse_valid : ∀ raw j, parse raw = .ok j → j.StringsValid

/-- `CommandDispatcher::Handler`: a reply, or the exception the handler throws. -/
abbrev Handler := Json → Except Exception Bytes

/-- `handlers_`. -/
abbrev Handlers := Bytes → Option Handler

/-- `register_command(cmd, handler)`. -/
def registerCommand (handlers : Handlers) (cmd : Bytes) (handler : Handler) : Handlers :=
  Function.update handlers cmd (some handler)

/-- The members of an error reply. -/
def errorReply (message : Bytes) : List (Bytes × Json) :=
  [(ascii "message", .string message), (ascii "status", .string (ascii "error"))]

/-- `dispatch(raw_json)`.  Only `parse` and the handler stand inside a `try`. -/
def dispatch (lib : JsonParser) (handlers : Handlers) (rawJson : Bytes) :
    Except Exception Bytes :=
  match lib.parse rawJson with
  | .error _ => dump lib.dumpFloat (.object (errorReply (ascii "invalid JSON")))
  | .ok msg => do
      let cmd ← msg.value (ascii "cmd") []
      if cmd = [] then
        dump lib.dumpFloat (.object (errorReply (ascii "missing cmd")))
      else
        match handlers cmd with
        | none =>
            dump lib.dumpFloat
              (.object ((ascii "cmd", .string cmd) :: errorReply (ascii "unknown command")))
        | some handler =>
            match handler msg with
            | .ok reply => .ok reply
            | .error e => dump lib.dumpFloat (.object (errorReply e.what))

/-! ### What a client is promised -/

/-- The reply of the handler a message names: the message parses to an object whose `cmd` is a
non-empty string, that command is registered, and its handler does not throw. -/
def handlerReply (lib : JsonParser) (handlers : Handlers) (rawJson : Bytes) : Option Bytes :=
  match lib.parse rawJson with
  | .ok (.object members) =>
      match find (ascii "cmd") members with
      | some (.string cmd) =>
          if cmd = [] then none
          else
            match handlers cmd with
            | some handler => (handler (.object members)).toOption
            | none => none
      | _ => none
  | _ => none

/-- A reply that is a JSON object with status `error`. -/
def IsErrorReply (lib : JsonParser) (reply : Bytes) : Prop :=
  ∃ members, dump lib.dumpFloat (.object members) = .ok reply ∧
    find (ascii "status") members = some (.string (ascii "error"))

/-- The promise: `dispatch` returns, with the handler's own reply where there is one and with an
error object everywhere else. -/
def Answered (lib : JsonParser) (handlers : Handlers) (rawJson : Bytes) : Prop :=
  ∃ reply, dispatch lib handlers rawJson = .ok reply ∧
    match handlerReply lib handlers rawJson with
    | some r => reply = r
    | none => IsErrorReply lib reply

/-- An exception the handlers may throw at this message has a `what()` the serializer accepts. -/
def ThrowsPrintable (handlers : Handlers) (cmd : Bytes) (msg : Json) : Prop :=
  cmd ≠ [] → ∀ handler e, handlers cmd = some handler → handler msg = .error e → ValidUtf8 e.what

/-- The messages `dispatch` can route: text that does not parse, or an object whose `cmd` is absent
or a string and whose handler throws nothing but printable exceptions. -/
def Routable (lib : JsonParser) (handlers : Handlers) (rawJson : Bytes) : Prop :=
  match lib.parse rawJson with
  | .error _ => True
  | .ok (.object members) =>
      match find (ascii "cmd") members with
      | none => True
      | some (.string cmd) => ThrowsPrintable handlers cmd (.object members)
      | some _ => False
  | .ok _ => False

/-! ### Serializing the replies of the dispatcher -/

section Reply

variable (dumpFloat : UInt64 → Bytes)

lemma dumpString_ok {s : Bytes} (h : ValidUtf8 s) : ∃ t, dumpString s = .ok t :=
  (dumpString_isOk_iff s).mpr h

/-- An error reply is serialized exactly when its message is valid UTF-8. -/
lemma dump_errorReply_isOk_iff (message : Bytes) :
    (∃ t, dump dumpFloat (.object (errorReply message)) = .ok t) ↔ ValidUtf8 message := by
  obtain ⟨t₁, h₁⟩ := dumpString_ok (s := ascii "message") (by decide)
  obtain ⟨t₂, h₂⟩ := dumpString_ok (s := ascii "status") (by decide)
  obtain ⟨t₃, h₃⟩ := dumpString_ok (s := ascii "error") (by decide)
  rw [← dumpString_isOk_iff]
  simp only [errorReply, dump, dumpMembers, h₁, h₂, h₃]
  cases dumpString message <;> simp [bind, Except.bind, pure, Except.pure]

/-- The reply to an unknown command is serialized, its `cmd` being valid UTF-8. -/
lemma dump_unknownReply_isOk {cmd : Bytes} (h : ValidUtf8 cmd) :
    ∃ t, dump dumpFloat (.object
      ((ascii "cmd", .string cmd) :: errorReply (ascii "unknown command"))) = .ok t := by
  obtain ⟨t₀, h₀⟩ := dumpString_ok (s := ascii "cmd") (by decide)
  obtain ⟨t₁, h₁⟩ := dumpString_ok h
  obtain ⟨t₂, h₂⟩ := (dump_errorReply_isOk_iff dumpFloat (ascii "unknown command")).mpr (by decide)
  simp only [errorReply, dump, dumpMembers, h₀, h₁] at h₂ ⊢
  revert h₂
  cases dumpString (ascii "message") <;> cases dumpString (ascii "unknown command") <;>
    cases dumpString (ascii "status") <;> cases dumpString (ascii "error") <;>
    simp [bind, Except.bind, pure, Except.pure]

end Reply

variable {lib : JsonParser} {handlers : Handlers} {rawJson : Bytes}

/-- An error reply that was serialized is an error object. -/
lemma isErrorReply_errorReply {message reply : Bytes}
    (h : dump lib.dumpFloat (.object (errorReply message)) = .ok reply) :
    IsErrorReply lib reply :=
  ⟨errorReply message, h, rfl⟩

/-- So is the reply to an unknown command. -/
lemma isErrorReply_unknownReply {cmd reply : Bytes}
    (h : dump lib.dumpFloat (.object
      ((ascii "cmd", .string cmd) :: errorReply (ascii "unknown command"))) = .ok reply) :
    IsErrorReply lib reply :=
  ⟨_, h, rfl⟩

/-! ### The case split of `dispatch` -/

lemma answered_of_malformed {e : Exception} (h : lib.parse rawJson = .error e) :
    Answered lib handlers rawJson := by
  obtain ⟨t, ht⟩ := (dump_errorReply_isOk_iff lib.dumpFloat (ascii "invalid JSON")).mpr (by decide)
  refine ⟨t, by simp only [dispatch, h, ht], ?_⟩
  simp only [handlerReply, h]
  exact isErrorReply_errorReply ht

lemma answered_of_missing {members : List (Bytes × Json)}
    (h : lib.parse rawJson = .ok (.object members))
    (hcmd : find (ascii "cmd") members = none ∨
      find (ascii "cmd") members = some (.string [])) :
    Answered lib handlers rawJson := by
  obtain ⟨t, ht⟩ := (dump_errorReply_isOk_iff lib.dumpFloat (ascii "missing cmd")).mpr (by decide)
  have hval : (Json.object members).value (ascii "cmd") [] = .ok [] := by
    rcases hcmd with hc | hc <;> simp [Json.value, hc, getString]
  refine ⟨t, by simp [dispatch, h, hval, bind, Except.bind, ht], ?_⟩
  rcases hcmd with hc | hc <;> simp only [handlerReply, h, hc, if_true] <;>
    exact isErrorReply_errorReply ht

/-- A message with a non-empty string `cmd` is answered exactly when the handler it names, if any,
throws nothing but printable exceptions. -/
lemma answered_iff_of_named {members : List (Bytes × Json)} {cmd : Bytes}
    (h : lib.parse rawJson = .ok (.object members))
    (hcmd : find (ascii "cmd") members = some (.string cmd)) (hne : cmd ≠ []) :
    Answered lib handlers rawJson ↔ ThrowsPrintable handlers cmd (.object members) := by
  have hval : (Json.object members).value (ascii "cmd") [] = .ok cmd := by
    simp [Json.value, hcmd, getString]
  have hutf : ValidUtf8 cmd := by
    have hm := lib.parse_valid _ _ h
    rw [Json.StringsValid] at hm
    have := hm.find hcmd
    rwa [Json.StringsValid] at this
  cases hh : handlers cmd with
  | none =>
      refine iff_of_true ?_ ?_
      · obtain ⟨t, ht⟩ := dump_unknownReply_isOk lib.dumpFloat hutf
        refine ⟨t, by simp [dispatch, h, hval, bind, Except.bind, hne, hh, ht], ?_⟩
        simp only [handlerReply, h, hcmd, hne, hh, if_false]
        exact isErrorReply_unknownReply ht
      · intro _ handler e hsome
        rw [hh] at hsome
        cases hsome
  | some handler =>
      cases hr : handler (.object members) with
      | ok reply =>
          refine iff_of_true ⟨reply, ?_, ?_⟩ ?_
          · simp [dispatch, h, hval, bind, Except.bind, hne, hh, hr]
          · simp [handlerReply, h, hcmd, hne, hh, hr, Except.toOption]
          · intro _ handler' e hsome herr
            rw [hh] at hsome
            cases hsome
            rw [hr] at herr
            cases herr
      | error e =>
          have hd : dispatch lib handlers rawJson
              = dump lib.dumpFloat (.object (errorReply e.what)) := by
            simp [dispatch, h, hval, bind, Except.bind, hne, hh, hr]
          constructor
          · rintro ⟨reply, hreply, -⟩ _ handler' e' hsome herr
            rw [hh] at hsome
            cases hsome
            rw [hr] at herr
            cases herr
            exact (dump_errorReply_isOk_iff lib.dumpFloat e.what).mp ⟨reply, hd ▸ hreply⟩
          · intro hp
            obtain ⟨t, ht⟩ := (dump_errorReply_isOk_iff lib.dumpFloat e.what).mpr
              (hp hne handler e hh hr)
            refine ⟨t, by rw [hd, ht], ?_⟩
            simp only [handlerReply, h, hcmd, hne, hh, hr, if_false, Except.toOption]
            exact isErrorReply_errorReply ht

/-- Where `value` throws, `dispatch` throws. -/
lemma not_answered_of_throw {msg : Json} (h : lib.parse rawJson = .ok msg)
    (hthrow : ∃ e, msg.value (ascii "cmd") [] = .error e) : ¬ Answered lib handlers rawJson := by
  obtain ⟨e, hval⟩ := hthrow
  rintro ⟨reply, hreply, -⟩
  simp [dispatch, h, hval, bind, Except.bind] at hreply

/-- **The messages `dispatch` answers** are exactly the routable ones. -/
theorem dispatch_answers_iff (lib : JsonParser) (handlers : Handlers) (rawJson : Bytes) :
    Answered lib handlers rawJson ↔ Routable lib handlers rawJson := by
  cases h : lib.parse rawJson with
  | error e =>
      refine iff_of_true (answered_of_malformed h) ?_
      simp [Routable, h]
  | ok msg =>
      cases msg with
      | object members =>
          cases hcmd : find (ascii "cmd") members with
          | none =>
              refine iff_of_true (answered_of_missing h (Or.inl hcmd)) ?_
              simp [Routable, h, hcmd]
          | some v =>
              cases v with
              | string cmd =>
                  by_cases hne : cmd = []
                  · subst hne
                    refine iff_of_true (answered_of_missing h (Or.inr hcmd)) ?_
                    simp [Routable, h, hcmd, ThrowsPrintable]
                  · rw [answered_iff_of_named h hcmd hne]
                    simp [Routable, h, hcmd]
              | _ =>
                  refine iff_of_false (not_answered_of_throw h ?_) ?_
                  · simp [Json.value, hcmd, getString]
                  · simp [Routable, h, hcmd]
      | _ =>
          refine iff_of_false (not_answered_of_throw h ?_) ?_
          · simp [Json.value]
          · simp [Routable, h]

/-- A parser that knows the text `[]`, and nothing else. -/
def emptyArrayParser : JsonParser where
  parse raw := if raw = ascii "[]" then .ok (.array []) else .error ⟨ascii "parse error"⟩
  dumpFloat _ := []
  parse_valid raw j h := by
    split at h
    · cases h; simp [Json.StringsValid, Json.ElemsValid]
    · cases h

/-- The empty array is well-formed text, and `value` throws on it outside both `try` blocks. -/
theorem dispatch_throws_on_array :
    ¬ ∀ (lib : JsonParser) (handlers : Handlers) (rawJson : Bytes),
      Answered lib handlers rawJson := by
  intro h
  have hparse : emptyArrayParser.parse (ascii "[]") = .ok (.array []) := by
    simp [emptyArrayParser]
  exact not_answered_of_throw hparse ⟨_, rfl⟩ (h emptyArrayParser (fun _ => none) (ascii "[]"))

end RasPiZeroCam
