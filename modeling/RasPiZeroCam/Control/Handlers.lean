import RasPiZeroCam.Camera.Resolution
import RasPiZeroCam.Control.BatteryJson
import RasPiZeroCam.Control.Commands
import RasPiZeroCam.Control.Listing

/-!
The commands that `main` registers, and what a client reads of their replies.

* `LibraryCalls`, `CommandCalls`: what the JSON library and the handlers find underneath them.
* `ping`, `getBattery`, .. `deleteRecordingCommand`, `commandTable`, `registered`: the handlers, the
  table of `register_command` calls, and what the dispatcher holds after them.
* `IsReply`: an object with a status, `ok` or `error`.
* `replies_parse`: whatever was received, a reply of the dispatcher is parsed to such an object.
-/

namespace RasPiZeroCam

open Lexer TextParser Dtoa Json BatteryMonitor

/-- What the JSON library leaves to others: conversions of floating-point numbers, and the text of
a parse error. -/
structure LibraryCalls where
  strtod : Bytes → UInt64
  grisu2 : UInt64 → Bytes × ℤ
  castUInt32 : UInt64 → UInt32    -- `static_cast<uint32_t>` of a `double`
  describe : ParseError → Exception

/-- What a handler finds: the time, the members of `main`, and what its calls return. -/
structure CommandCalls where
  now_ms : Int64
  power_ok : Bool
  battery : BatteryRecord
  free_mb : Int64
  used_mb : Int64
  cfg_ptr : ResolutionConfig
  stream_clients : Int32
  ws_clients : Int32
  is_recording : Bool
  current_recording : Bytes
  recording_seconds : Int32
  gst_cam : Source                -- at a recording command, with the outcome of its calls
  outcome : Outcome
  set_resolution : ResolutionConfig → Except Exception Bool
  take_snapshot : Bytes → Except Exception Bool
  listed : Except Exception (List Listed)
  clocks : Bytes → ℤ
  size_mb : ℕ → UInt64            -- a size over `1024.0 * 1024.0`
  delete_recording_file : Bytes → Except Exception Bool

/-! ### The handlers -/

/-- `json{{k, v}, ..}`, with different keys. -/
def jsonObject (ms : List (Bytes × Json)) : Json := .object (assign [] ms)

/-- `get<uint32_t>()`. -/
def Json.getUInt32 (castUInt32 : UInt64 → UInt32) : Json → Except Exception UInt32
  | numberUnsigned n => .ok (UInt32.ofNat n)
  | numberInteger n => .ok (UInt32.ofInt n)
  | numberFloat bits => .ok (castUInt32 bits)
  | boolean b => .ok (if b then 1 else 0)
  | j => .error (typeError 302 (ascii "type must be number, but is " ++ j.typeName))

/-- `value(key, 0u)`. -/
def Json.valueUInt32 (castUInt32 : UInt64 → UInt32) (j : Json) (key : Bytes) :
    Except Exception UInt32 :=
  match j with
  | object members =>
      match find key members with
      | some v => v.getUInt32 castUInt32
      | none => .ok 0
  | j => .error (typeError 306 (ascii "cannot use value() with " ++ j.typeName))

/-- `j[key] = v`. -/
def Json.setMember (j : Json) (key : Bytes) (v : Json) : Except Exception Json :=
  match j with
  | null => .ok (object [(key, v)])
  | object members => .ok (object (insertMember key v members))
  | j => .error (typeError 305
      (ascii "cannot use operator[] with a string argument with " ++ j.typeName))

/-- The member `{"status", "ok"}`. -/
def statusOk : Bytes × Json := (ascii "status", .string (ascii "ok"))

section

variable (lib : LibraryCalls) (c : CommandCalls)

/-- `ping`. -/
def ping : Json := jsonObject [statusOk, (ascii "ts", .numberInteger c.now_ms.toInt)]

/-- `json::parse(battery.get_json())`. -/
def batteryJson : Except Exception Json :=
  (parse lib.strtod (buildJson c.battery)).mapError lib.describe

/-- `get_battery`. -/
def getBattery : Except Exception Json :=
  if !c.power_ok then .ok (errorObject (ascii "INA219 not available"))
  else do
    let j ← batteryJson lib c
    j.setMember (ascii "status") (.string (ascii "ok"))

/-- The members of the status that do not come from the battery. -/
def statusMembers : List (Bytes × Json) :=
  assign [] [statusOk,
    (ascii "camera", jsonObject
      [(ascii "resolution", .string (decimal c.cfg_ptr.width.toNat ++ ascii "x" ++
        decimal c.cfg_ptr.height.toNat)),
      (ascii "fps", .numberUnsigned c.cfg_ptr.fps.toNat)]),
    (ascii "streaming", jsonObject [(ascii "clients", .numberInteger c.stream_clients.toInt)]),
    (ascii "ws", jsonObject [(ascii "clients", .numberInteger c.ws_clients.toInt)]),
    (ascii "recording", jsonObject
      [(ascii "active", .boolean c.is_recording),
      (ascii "file", .string c.current_recording),
      (ascii "duration_s", .numberInteger c.recording_seconds.toInt)]),
    (ascii "storage", jsonObject
      [(ascii "free_mb", .numberInteger c.free_mb.toInt),
      (ascii "used_mb", .numberInteger c.used_mb.toInt)])]

/-- `get_status`. -/
def getStatus : Except Exception Json :=
  if c.power_ok then do
    let j ← batteryJson lib c
    return .object (insertMember (ascii "battery") j (statusMembers c))
  else .ok (.object (statusMembers c))

/-- `set_resolution`. -/
def setResolutionCommand (msg : Json) : Except Exception Json := do
  let w ← msg.valueUInt32 lib.castUInt32 (ascii "width")
  let h ← msg.valueUInt32 lib.castUInt32 (ascii "height")
  let new_cfg := configOf (matchPreset w h)
  if !(← c.set_resolution new_cfg) then
    return errorObject (ascii "pipeline restart failed")
  let label := decimal new_cfg.width.toNat ++ ascii "x" ++ decimal new_cfg.height.toNat ++
    ascii "@" ++ decimal new_cfg.fps.toNat
  return jsonObject [statusOk, (ascii "resolution", .string label)]

/-- `snapshot`. -/
def snapshotCommand (msg : Json) : Except Exception Json := do
  let file ← msg.value (ascii "filename") (nextName recDir snapFormat c.outcome.tm)
  if ← c.take_snapshot file then return jsonObject [statusOk, (ascii "file", .string file)]
  else return errorObject (ascii "snapshot failed")

/-- An element of the array of `list_recordings_json`. -/
def listedJson (f : Listed) : Json :=
  jsonObject [(ascii "name", .string f.name),
    (ascii "size_mb", .numberFloat (c.size_mb f.stat.size)),
    (ascii "modified", .numberInteger (Int64.ofInt (f.modified c.clocks)).toInt)]

/-- `list_recordings`. -/
def listRecordingsCommand : Except Exception Json := do
  let files ← c.listed
  return jsonObject [statusOk, (ascii "files", .array (files.map (listedJson c)))]

/-- `delete_recording`. -/
def deleteRecordingCommand (msg : Json) : Except Exception Json := do
  let name ← msg.value (ascii "filename") []
  if ← c.delete_recording_file name then return jsonObject [statusOk]
  else return errorObject (ascii "file not found or not allowed")

/-- The calls of `register_command`, up to `dump()`. -/
def commandTable : List (Bytes × (Json → Except Exception Json)) :=
  [(ascii "ping", fun _ => .ok (ping c)),
    (ascii "get_battery", fun _ => getBattery lib c),
    (ascii "get_status", fun _ => getStatus lib c),
    (ascii "set_resolution", setResolutionCommand lib c),
    (ascii "record_start", fun msg => (recordStart msg c.outcome c.gst_cam).reply),
    (ascii "record_stop", fun _ => (recordStop c.outcome c.gst_cam).reply),
    (ascii "record_restart", fun _ => (recordRestart c.outcome c.gst_cam).reply),
    (ascii "snapshot", snapshotCommand c),
    (ascii "list_recordings", fun _ => listRecordingsCommand c),
    (ascii "delete_recording", deleteRecordingCommand c)]

/-- `handlers_` after them. -/
def registered : Handlers :=
  (commandTable lib c).foldl
    (fun hs cmd => registerCommand hs cmd.1 fun msg => cmd.2 msg >>= dump (dumpFloat lib.grisu2))
    fun _ => none

/-- `CommandDispatcher::dispatch`, with the library and the commands of `main`. -/
def dispatchMain (raw : Bytes) : Except Exception Bytes :=
  dispatch (nlohmann lib.strtod (dumpFloat lib.grisu2) lib.describe) (registered lib c) raw

/-- The floating-point numbers that a handler may print. -/
def CommandCalls.floats : List UInt64 :=
  ((parse lib.strtod (buildJson c.battery)).toOption.elim [] Json.floats) ++
    (c.listed.toOption.elim [] fun files => files.map fun f => c.size_mb f.stat.size)

end

/-! ### Objects -/

lemma membersFit_iff {ms : List (Bytes × Json)} :
    Json.MembersFit ms ↔ ∀ m ∈ ms, m.2.Fits := by
  induction ms with
  | nil => exact iff_of_true trivial fun m hm => (by cases hm)
  | cons m ms ih =>
      rw [List.forall_mem_cons, ← ih]
      exact Iff.rfl

lemma elemsFit_iff {js : List Json} : Json.ElemsFit js ↔ ∀ j ∈ js, j.Fits := by
  induction js with
  | nil => exact iff_of_true trivial fun j hj => (by cases hj)
  | cons j js ih =>
      rw [List.forall_mem_cons, ← ih]
      exact Iff.rfl

lemma mem_membersFloats {ms : List (Bytes × Json)} {bits : UInt64} :
    bits ∈ membersFloats ms ↔ ∃ m ∈ ms, bits ∈ m.2.floats := by
  induction ms with
  | nil => simp [membersFloats]
  | cons m ms ih => rw [membersFloats, List.mem_append, ih, List.exists_mem_cons_iff]

lemma mem_elemsFloats {js : List Json} {bits : UInt64} :
    bits ∈ elemsFloats js ↔ ∃ j ∈ js, bits ∈ j.floats := by
  induction js with
  | nil => simp [elemsFloats]
  | cons j js ih => rw [elemsFloats, List.mem_append, ih, List.exists_mem_cons_iff]

/-- The members after an assignment. -/
lemma of_mem_insertMember {key : Bytes} {v : Json} {m : Bytes × Json} {ms : List (Bytes × Json)}
    (h : m ∈ insertMember key v ms) : m = (key, v) ∨ m ∈ ms := by
  induction ms with
  | nil => exact Or.inl (List.mem_singleton.mp h)
  | cons m' ms ih =>
      obtain ⟨k, w⟩ := m'
      rw [insertMember] at h
      split_ifs at h with heq hlt
      · rcases List.mem_cons.mp h with rfl | h
        · exact Or.inl (by rw [heq])
        · exact Or.inr (List.mem_cons_of_mem _ h)
      · rcases List.mem_cons.mp h with rfl | h
        · exact Or.inl rfl
        · exact Or.inr h
      · rcases List.mem_cons.mp h with rfl | h
        · exact Or.inr List.mem_cons_self
        · exact (ih h).imp_right (List.mem_cons_of_mem _)

lemma of_mem_assign {m : Bytes × Json} {ms members : List (Bytes × Json)}
    (h : m ∈ assign members ms) : m ∈ members ∨ m ∈ ms := by
  induction ms generalizing members with
  | nil => exact Or.inl h
  | cons m' ms ih =>
      rcases ih h with hm | hm
      · rcases of_mem_insertMember hm with rfl | hm
        · exact Or.inr List.mem_cons_self
        · exact Or.inl hm
      · exact Or.inr (List.mem_cons_of_mem _ hm)

lemma membersValid_iff {ms : List (Bytes × Json)} :
    Json.MembersValid ms ↔ ∀ m ∈ ms, ValidUtf8 m.1 ∧ m.2.StringsValid := by
  induction ms with
  | nil => exact iff_of_true trivial fun m hm => (by cases hm)
  | cons m ms ih =>
      rw [List.forall_mem_cons, ← ih, and_assoc]
      exact Iff.rfl

/-- Strings in UTF-8. -/
lemma membersValid_assign {ms : List (Bytes × Json)}
    (h : ∀ m ∈ ms, ValidUtf8 m.1 ∧ m.2.StringsValid) : Json.MembersValid (assign [] ms) := by
  refine membersValid_iff.mpr fun m hm => ?_
  rcases of_mem_assign hm with hm | hm
  · cases hm
  · exact h m hm

/-- What is found after an assignment. -/
lemma find_insertMember (key k : Bytes) (v : Json) (ms : List (Bytes × Json)) :
    find k (insertMember key v ms) = if key = k then some v else find k ms := by
  induction ms with
  | nil => rfl
  | cons m ms ih =>
      obtain ⟨k', w⟩ := m
      rw [insertMember]
      by_cases hkey : key = k'
      · rw [if_pos hkey, find, find, ← hkey]
        split_ifs <;> rfl
      · rw [if_neg hkey]
        by_cases hlt : key < k'
        · rw [if_pos hlt, find]
        · rw [if_neg hlt, find, find, ih]
          split_ifs with hk' hk
          · exact absurd (hk.trans hk'.symm) hkey
          all_goals rfl

lemma find_assign {k : Bytes} {ms members : List (Bytes × Json)} (h : ∀ m ∈ ms, m.1 ≠ k) :
    find k (assign members ms) = find k members := by
  induction ms generalizing members with
  | nil => rfl
  | cons m ms ih =>
      rw [assign, List.foldl_cons]
      refine (ih fun m' hm' => h m' (List.mem_cons_of_mem _ hm')).trans ?_
      rw [find_insertMember, if_neg (h m List.mem_cons_self)]

lemma find_canonMembers (k : Bytes) (ms : List (Bytes × Json)) :
    find k (canonMembers ms) = (find k ms).map canon := by
  induction ms with
  | nil => rfl
  | cons m ms ih =>
      rw [canonMembers, find, find, ih]
      split_ifs <;> rfl

lemma assign_sorted {ms members : List (Bytes × Json)}
    (h : (members.map Prod.fst).Pairwise (· < ·)) :
    ((assign members ms).map Prod.fst).Pairwise (· < ·) := by
  induction ms generalizing members with
  | nil => exact h
  | cons m ms ih => exact ih (insertMember_sorted _ _ h)

/-- An object whose values fit. -/
lemma fits_jsonObject {ms : List (Bytes × Json)} (h : ∀ m ∈ ms, m.2.Fits) :
    (jsonObject ms).Fits := by
  refine ⟨membersFit_iff.mpr fun m hm => ?_, assign_sorted List.Pairwise.nil⟩
  rcases of_mem_assign hm with hm | hm
  · cases hm
  · exact h m hm

/-- The numbers of an object are those of its values. -/
lemma of_mem_floats_jsonObject {ms : List (Bytes × Json)} {bits : UInt64}
    (h : bits ∈ (jsonObject ms).floats) : ∃ m ∈ ms, bits ∈ m.2.floats := by
  obtain ⟨m, hm, hbits⟩ := mem_membersFloats.mp h
  rcases of_mem_assign hm with hm | hm
  · cases hm
  · exact ⟨m, hm, hbits⟩

/-! ### Replies -/

/-- An object with a status, and numbers that are among `fs`. -/
structure IsReply (fs : List UInt64) (v : Json) : Prop where
  status : ∃ members, v = .object members ∧
    (find (ascii "status") members = some (.string (ascii "ok")) ∨
      find (ascii "status") members = some (.string (ascii "error")))
  fits : v.Fits
  floats : ∀ bits ∈ v.floats, bits ∈ fs

/-- What was dumped of a reply is parsed to an object with a status. -/
lemma IsReply.parses {strtod : Bytes → UInt64} {grisu2 : UInt64 → Bytes × ℤ} {fs : List UInt64}
    {v : Json} {t : Bytes} (h : IsReply fs v) (hf : ∀ bits ∈ fs, ReadsBack strtod grisu2 bits)
    (hdump : dump (dumpFloat grisu2) v = .ok t) :
    ∃ members, parse strtod t = .ok (.object members) ∧
      (find (ascii "status") members = some (.string (ascii "ok")) ∨
        find (ascii "status") members = some (.string (ascii "error"))) := by
  have hparse := parse_of_dump h.fits (fun bits hb => hf bits (h.floats bits hb)) hdump
  obtain ⟨members, rfl, hstatus⟩ := h.status
  refine ⟨canonMembers members, hparse, ?_⟩
  rw [find_canonMembers]
  exact hstatus.imp (fun heq => by rw [heq]; rfl) fun heq => by rw [heq]; rfl

/-- A reply that begins with its status. -/
lemma isReply_jsonObject {fs : List UInt64} {ms : List (Bytes × Json)} {s : Bytes}
    (hs : s = ascii "ok" ∨ s = ascii "error") (hfits : ∀ m ∈ ms, m.2.Fits)
    (hfloats : ∀ m ∈ ms, ∀ bits ∈ m.2.floats, bits ∈ fs)
    (hkeys : ascii "status" ∉ ms.map Prod.fst) :
    IsReply fs (jsonObject ((ascii "status", .string s) :: ms)) := by
  have hfind : find (ascii "status") (assign [(ascii "status", .string s)] ms) =
      some (.string s) :=
    (find_assign fun m hm heq => hkeys (List.mem_map.mpr ⟨m, hm, heq⟩)).trans (if_pos rfl)
  refine ⟨⟨_, rfl, ?_⟩, fits_jsonObject ?_, fun bits hbits => ?_⟩
  · rcases hs with rfl | rfl
    · exact Or.inl hfind
    · exact Or.inr hfind
  · exact List.forall_mem_cons.mpr ⟨trivial, hfits⟩
  · obtain ⟨m, hm, hb⟩ := of_mem_floats_jsonObject hbits
    rcases List.mem_cons.mp hm with rfl | hm
    · cases hb
    · exact hfloats m hm bits hb

/-- The replies of the recording commands, in the order of the source. -/
lemma errorObject_eq (message : Bytes) : errorObject message =
    jsonObject [(ascii "status", .string (ascii "error")), (ascii "message", .string message)] := by
  simp +decide only [errorObject, jsonObject, assign, List.foldl_cons, List.foldl_nil,
    insertMember, if_false, if_true]

lemma fileReply_eq (file : Bytes) :
    fileReply file = jsonObject [statusOk, (ascii "file", .string file)] := by
  simp +decide only [fileReply, jsonObject, statusOk, assign, List.foldl_cons,
    List.foldl_nil, insertMember, if_false, if_true]

lemma stopReply_eq (file : Bytes) (dur : ℕ) : stopReply file dur =
    jsonObject [statusOk, (ascii "file", .string file),
      (ascii "duration_s", .numberInteger dur)] := by
  simp +decide only [stopReply, jsonObject, statusOk, assign, List.foldl_cons,
    List.foldl_nil, insertMember, if_false, if_true]

lemma unknownReply_eq (cmd : Bytes) :
    Json.object ((ascii "cmd", .string cmd) :: errorReply (ascii "unknown command")) =
      jsonObject [(ascii "status", .string (ascii "error")),
        (ascii "message", .string (ascii "unknown command")), (ascii "cmd", .string cmd)] := by
  simp +decide only [errorReply, jsonObject, assign, List.foldl_cons, List.foldl_nil,
    insertMember, if_false, if_true]

variable {fs : List UInt64} {lib : LibraryCalls} {c : CommandCalls}

/-- A value that fits, without floating-point numbers. -/
structure Json.Plain (v : Json) : Prop where
  fits : v.Fits
  floats : v.floats = []

lemma plain_string (s : Bytes) : (Json.string s).Plain := ⟨trivial, rfl⟩

lemma plain_boolean (b : Bool) : (Json.boolean b).Plain := ⟨trivial, rfl⟩

lemma plain_uint32 (n : UInt32) : (Json.numberUnsigned n.toNat).Plain :=
  ⟨n.toNat_lt.trans (by decide), rfl⟩

lemma plain_int64 (n : Int64) : (Json.numberInteger n.toInt).Plain :=
  ⟨⟨n.le_toInt, n.toInt_lt⟩, rfl⟩

lemma plain_int32 (n : Int32) : (Json.numberInteger n.toInt).Plain := by
  have hlo := n.le_toInt
  have hhi := n.toInt_lt
  exact ⟨⟨by omega, by omega⟩, rfl⟩

lemma plain_jsonObject {ms : List (Bytes × Json)} (h : ∀ m ∈ ms, m.2.Plain) :
    (jsonObject ms).Plain := by
  refine ⟨fits_jsonObject fun m hm => (h m hm).fits, List.eq_nil_iff_forall_not_mem.mpr ?_⟩
  intro bits hbits
  obtain ⟨m, hm, hb⟩ := of_mem_floats_jsonObject hbits
  rw [(h m hm).floats] at hb
  cases hb

/-- A reply without floating-point numbers. -/
lemma isReply_plain {ms : List (Bytes × Json)} {s : Bytes} (hs : s = ascii "ok" ∨ s = ascii "error")
    (h : ∀ m ∈ ms, m.2.Plain) (hkeys : ascii "status" ∉ ms.map Prod.fst) :
    IsReply fs (jsonObject ((ascii "status", .string s) :: ms)) := by
  refine isReply_jsonObject hs (fun m hm => (h m hm).fits) (fun m hm bits hb => ?_) hkeys
  rw [(h m hm).floats] at hb
  cases hb

lemma isReply_errorObject (message : Bytes) : IsReply fs (errorObject message) := by
  rw [errorObject_eq]
  exact isReply_plain (Or.inr rfl) (List.forall_mem_singleton.mpr (plain_string _))
    (by decide : ascii "status" ∉ [ascii "message"])

lemma isReply_unknown (cmd : Bytes) :
    IsReply fs (.object ((ascii "cmd", .string cmd) :: errorReply (ascii "unknown command"))) := by
  rw [unknownReply_eq]
  exact isReply_plain (Or.inr rfl)
    (List.forall_mem_cons.mpr ⟨plain_string _, List.forall_mem_singleton.mpr (plain_string _)⟩)
    (by decide : ascii "status" ∉ [ascii "message", ascii "cmd"])

lemma isReply_fileReply (file : Bytes) : IsReply fs (fileReply file) := by
  rw [fileReply_eq]
  exact isReply_plain (Or.inl rfl) (List.forall_mem_singleton.mpr (plain_string _))
    (by decide : ascii "status" ∉ [ascii "file"])

lemma isReply_stopReply (file : Bytes) {dur : ℕ} (h : dur < 2 ^ 63) :
    IsReply fs (stopReply file dur) := by
  have hdur : (Json.numberInteger dur).Plain := ⟨⟨by omega, by omega⟩, rfl⟩
  rw [stopReply_eq]
  exact isReply_plain (Or.inl rfl)
    (List.forall_mem_cons.mpr ⟨plain_string _, List.forall_mem_singleton.mpr hdur⟩)
    (by decide : ascii "status" ∉ [ascii "file", ascii "duration_s"])

/-- What a handler returns is a reply. -/
def Replies (fs : List UInt64) (r : Except Exception Json) : Prop := ∀ v, r = .ok v → IsReply fs v

lemma Replies.ok {v : Json} (h : IsReply fs v) : Replies fs (.ok v) := fun w hw => by
  cases hw
  exact h

lemma Replies.error (e : Exception) : Replies fs (.error e) := fun w hw => by cases hw

lemma Replies.bind {α : Type} {x : Except Exception α} {f : α → Except Exception Json}
    (h : ∀ a, x = .ok a → Replies fs (f a)) : Replies fs (x >>= f) := fun v hv => by
  obtain ⟨a, ha, hfa⟩ := except_bind_eq_ok hv
  exact h a ha v hfa

lemma Replies.ite {p : Prop} [Decidable p] {r r' : Except Exception Json}
    (h : p → Replies fs r) (h' : ¬ p → Replies fs r') : Replies fs (if p then r else r') :=
  iteInduction h h'

/-! ### The handlers reply -/

lemma replies_ping : Replies fs (.ok (ping c)) :=
  .ok (isReply_plain (Or.inl rfl) (List.forall_mem_singleton.mpr (plain_int64 _))
    (by decide : ascii "status" ∉ [ascii "ts"]))

/-- The battery's object. -/
lemma batteryJson_spec {j : Json} (h : batteryJson lib c = .ok j) :
    j.Fits ∧ ∀ bits ∈ j.floats, bits ∈ c.floats lib := by
  rw [batteryJson] at h
  rcases hparse : parse lib.strtod (buildJson c.battery) with e | v
  · rw [hparse] at h
    cases h
  · rw [hparse] at h
    obtain rfl : v = j := Except.ok.inj h
    refine ⟨((parse_spec _).1 v hparse).fits, fun bits hb => List.mem_append_left _ ?_⟩
    rw [hparse]
    exact hb

/-- A member that is assigned. -/
lemma insertMember_fits {key : Bytes} {v : Json} {ms : List (Bytes × Json)} (hv : v.Fits)
    (h : (Json.object ms).Fits) : (Json.object (insertMember key v ms)).Fits := by
  refine ⟨membersFit_iff.mpr fun m hm => ?_, insertMember_sorted _ _ h.2⟩
  rcases of_mem_insertMember hm with rfl | hm
  · exact hv
  · exact membersFit_iff.mp h.1 m hm

lemma of_mem_floats_insertMember {key : Bytes} {v : Json} {ms : List (Bytes × Json)} {bits : UInt64}
    (h : bits ∈ (Json.object (insertMember key v ms)).floats) :
    bits ∈ v.floats ∨ bits ∈ (Json.object ms).floats := by
  obtain ⟨m, hm, hb⟩ := mem_membersFloats.mp h
  rcases of_mem_insertMember hm with rfl | hm
  · exact Or.inl hb
  · exact Or.inr (mem_membersFloats.mpr ⟨m, hm, hb⟩)

lemma replies_getBattery : Replies (c.floats lib) (getBattery lib c) := by
  rw [getBattery]
  refine .ite (fun _ => .ok (isReply_errorObject _)) fun _ => .bind fun j hj => ?_
  obtain ⟨hfits, hfloats⟩ := batteryJson_spec hj
  cases j
  case null =>
      exact .ok (isReply_plain (Or.inl rfl) (List.forall_mem_nil _) List.not_mem_nil)
  case object members =>
      refine .ok ⟨⟨_, rfl, Or.inl ?_⟩, insertMember_fits trivial hfits, fun bits hb => ?_⟩
      · rw [find_insertMember, if_pos rfl]
      · exact hfloats bits ((of_mem_floats_insertMember hb).resolve_left fun h => (by cases h))
  all_goals exact .error _

lemma isReply_status : IsReply fs (.object (statusMembers c)) := by
  have hnil : ∀ m ∈ ([] : List (Bytes × Json)), m.2.Plain := fun m hm => (by cases hm)
  have hclients : ∀ n : Int32, (jsonObject [(ascii "clients", .numberInteger n.toInt)]).Plain :=
    fun n => plain_jsonObject (List.forall_mem_singleton.mpr (plain_int32 n))
  refine isReply_plain (Or.inl rfl) ?_ (by decide : ascii "status" ∉
    [ascii "camera", ascii "streaming", ascii "ws", ascii "recording", ascii "storage"])
  simp only [List.forall_mem_cons]
  refine ⟨plain_jsonObject ?_, hclients _, hclients _, plain_jsonObject ?_, plain_jsonObject ?_,
    hnil⟩ <;> simp only [List.forall_mem_cons]
  · exact ⟨plain_string _, plain_uint32 _, hnil⟩
  · exact ⟨plain_boolean _, plain_string _, plain_int32 _, hnil⟩
  · exact ⟨plain_int64 _, plain_int64 _, hnil⟩

lemma replies_getStatus : Replies (c.floats lib) (getStatus lib c) := by
  rw [getStatus]
  refine .ite (fun _ => .bind fun j hj => .ok ?_) fun _ => .ok isReply_status
  obtain ⟨hfits, hfloats⟩ := batteryJson_spec hj
  obtain ⟨⟨members, heq, hfind⟩, hfits', hfloats'⟩ :=
    (isReply_status : IsReply (c.floats lib) (.object (statusMembers c)))
  obtain rfl := Json.object.inj heq
  refine ⟨⟨_, rfl, ?_⟩, insertMember_fits hfits hfits', fun bits hb => ?_⟩
  · rw [find_insertMember, if_neg (by decide)]
    exact hfind
  · exact (of_mem_floats_insertMember hb).elim (hfloats bits) (hfloats' bits)

lemma replies_setResolution (msg : Json) : Replies fs (setResolutionCommand lib c msg) := by
  refine .bind fun w _ => .bind fun h _ => .bind fun ok _ => .ite (fun _ => ?_) fun _ => ?_
  · exact .ok (isReply_errorObject _)
  · exact .ok (isReply_plain (Or.inl rfl) (List.forall_mem_singleton.mpr (plain_string _))
      (by decide : ascii "status" ∉ [ascii "resolution"]))

lemma replies_snapshot (msg : Json) : Replies fs (snapshotCommand c msg) := by
  refine .bind fun file _ => .bind fun ok _ => .ite (fun _ => ?_) fun _ => ?_
  · exact .ok (isReply_plain (Or.inl rfl) (List.forall_mem_singleton.mpr (plain_string _))
      (by decide : ascii "status" ∉ [ascii "file"]))
  · exact .ok (isReply_errorObject _)

lemma replies_delete (msg : Json) : Replies fs (deleteRecordingCommand c msg) := by
  refine .bind fun name _ => .bind fun ok _ => .ite (fun _ => ?_) fun _ => ?_
  · exact .ok (isReply_plain (Or.inl rfl) (List.forall_mem_nil _) List.not_mem_nil)
  · exact .ok (isReply_errorObject _)

lemma replies_recordStart (msg : Json) :
    Replies fs (recordStart msg c.outcome c.gst_cam).reply := by
  rw [recordStart]
  split
  · exact .ok (isReply_errorObject _)
  · split
    · exact .error _
    · split
      · exact .ok (isReply_fileReply _)
      · exact .ok (isReply_errorObject _)
      · exact .error _

lemma replies_recordStop (hnow : c.outcome.now < 2 ^ 63) :
    Replies fs (recordStop c.outcome c.gst_cam).reply := by
  rw [recordStop]
  split
  · exact .ok (isReply_errorObject _)
  · refine .ok (isReply_stopReply _ ?_)
    rw [Source.recordingSeconds]
    split_ifs <;> omega

lemma replies_recordRestart : Replies fs (recordRestart c.outcome c.gst_cam).reply := by
  rw [recordRestart]
  split
  · exact .ok (isReply_fileReply _)
  · exact .error _

/-- The array of recordings, whose sizes are among the numbers. -/
lemma replies_listRecordings (hfinite : ∀ bits ∈ c.floats lib, isFinite bits = true) :
    Replies (c.floats lib) (listRecordingsCommand c) := by
  refine .bind fun files hfiles => .ok ?_
  have hsize : ∀ f ∈ files, c.size_mb f.stat.size ∈ c.floats lib := by
    intro f hf
    refine List.mem_append_right _ ?_
    rw [hfiles]
    exact List.mem_map_of_mem (f := fun f => c.size_mb f.stat.size) hf
  have hfits : ∀ f ∈ files, (listedJson c f).Fits := by
    intro f hf
    refine fits_jsonObject ?_
    simp only [List.forall_mem_cons]
    exact ⟨trivial, hfinite _ (hsize f hf), (plain_int64 _).fits, List.forall_mem_nil _⟩
  have hfloats : ∀ f ∈ files, ∀ bits ∈ (listedJson c f).floats, bits ∈ c.floats lib := by
    intro f hf bits hb
    obtain ⟨m, hm, hbits⟩ := of_mem_floats_jsonObject hb
    simp only [List.mem_cons, List.not_mem_nil, or_false] at hm
    rcases hm with rfl | rfl | rfl
    · cases hbits
    · rw [List.mem_singleton.mp hbits]
      exact hsize f hf
    · cases hbits
  refine isReply_jsonObject (Or.inl rfl) ?_ ?_ (by decide : ascii "status" ∉ [ascii "files"])
  · refine List.forall_mem_singleton.mpr (elemsFit_iff.mpr fun j hj => ?_)
    obtain ⟨f, hf, rfl⟩ := List.mem_map.mp hj
    exact hfits f hf
  · refine List.forall_mem_singleton.mpr fun bits hb => ?_
    obtain ⟨j, hj, hbits⟩ := mem_elemsFloats.mp hb
    obtain ⟨f, hf, rfl⟩ := List.mem_map.mp hj
    exact hfloats f hf bits hbits

/-! ### The dispatcher -/

/-- What is registered after a number of calls was registered by one of them. -/
lemma of_registered {f : UInt64 → Bytes} {cmds : List (Bytes × (Json → Except Exception Json))}
    {hs : Handlers} {cmd : Bytes} {handler : Handler}
    (h : cmds.foldl (fun hs cmd => registerCommand hs cmd.1 fun msg => cmd.2 msg >>= dump f) hs
      cmd = some handler) :
    hs cmd = some handler ∨ ∃ g ∈ cmds.map Prod.snd, handler = fun msg => g msg >>= dump f := by
  induction cmds generalizing hs with
  | nil => exact Or.inl h
  | cons c cmds ih =>
      rcases ih h with hreg | ⟨g, hg, hhandler⟩
      · simp only [registerCommand, Function.update_apply] at hreg
        split_ifs at hreg
        · exact Or.inr ⟨c.2, List.mem_cons_self, (Option.some.inj hreg).symm⟩
        · exact Or.inl hreg
      · exact Or.inr ⟨g, List.mem_cons_of_mem _ hg, hhandler⟩

/-- **Every command replies.** -/
lemma replies_commands (hnow : c.outcome.now < 2 ^ 63)
    (hfinite : ∀ bits ∈ c.floats lib, isFinite bits = true) :
    ∀ g ∈ (commandTable lib c).map Prod.snd, ∀ msg, Replies (c.floats lib) (g msg) := by
  simp only [commandTable, List.map_cons, List.map_nil, List.forall_mem_cons]
  exact ⟨fun _ => replies_ping, fun _ => replies_getBattery, fun _ => replies_getStatus,
    replies_setResolution, replies_recordStart, fun _ => replies_recordStop hnow,
    fun _ => replies_recordRestart, replies_snapshot, fun _ => replies_listRecordings hfinite,
    replies_delete, List.forall_mem_nil _⟩

/-- A reply of the dispatcher is the text of one. -/
lemma dispatchMain_reply (hnow : c.outcome.now < 2 ^ 63)
    (hfinite : ∀ bits ∈ c.floats lib, isFinite bits = true) {raw reply : Bytes}
    (h : dispatchMain lib c raw = .ok reply) :
    ∃ v, IsReply (c.floats lib) v ∧ dump (dumpFloat lib.grisu2) v = .ok reply := by
  rw [dispatchMain, dispatch] at h
  split at h
  · exact ⟨_, isReply_errorObject _, h⟩
  · rename_i msg hparse
    obtain ⟨cmd, hcmd, h⟩ := except_bind_eq_ok h
    split_ifs at h with hempty
    · exact ⟨_, isReply_errorObject _, h⟩
    · split at h
      · exact ⟨_, isReply_unknown cmd, h⟩
      · rename_i handler hhandler
        split at h
        · rename_i r hr
          obtain rfl : r = reply := Except.ok.inj h
          obtain ⟨g, hg, rfl⟩ := (of_registered hhandler).resolve_left fun hnone => (by cases hnone)
          obtain ⟨v, hv, hdump⟩ := except_bind_eq_ok hr
          exact ⟨v, replies_commands hnow hfinite g hg msg v hv, hdump⟩
        · exact ⟨_, isReply_errorObject _, h⟩

/-- **What a client is sent is an object with a status**, whatever it sent, and whatever the
commands found: the reply of the dispatcher, if there is one, is parsed to it. -/
theorem replies_parse (lib : LibraryCalls) (c : CommandCalls) (hnow : c.outcome.now < 2 ^ 63)
    (hfloats : ∀ bits ∈ c.floats lib, isFinite bits = true ∧ ReadsBack lib.strtod lib.grisu2 bits)
    (raw reply : Bytes) (h : dispatchMain lib c raw = .ok reply) :
    ∃ members, parse lib.strtod reply = .ok (.object members) ∧
      (find (ascii "status") members = some (.string (ascii "ok")) ∨
        find (ascii "status") members = some (.string (ascii "error"))) := by
  obtain ⟨v, hreply, hdump⟩ := dispatchMain_reply hnow (fun bits hb => (hfloats bits hb).1) h
  exact hreply.parses (fun bits hb => (hfloats bits hb).2) hdump

/-- A program whose sensor has not been read. -/
def unreadCalls : CommandCalls where
  now_ms := 5
  power_ok := false
  battery := ⟨0, 0, 0, 0, false, false⟩
  free_mb := 900
  used_mb := 100
  cfg_ptr := configOf .medium
  stream_clients := 0
  ws_clients := 1
  is_recording := false
  current_recording := []
  recording_seconds := 0
  gst_cam := streaming
  outcome := smoothly
  set_resolution := fun _ => .ok true
  take_snapshot := fun _ => .ok true
  listed := .ok []
  clocks := fun _ => 0
  size_mb := fun _ => 0
  delete_recording_file := fun _ => .ok false

/-- A library that reads zero. -/
def zeroCalls : LibraryCalls := ⟨fun _ => 0, fun _ => (ascii "0", 0), fun _ => 0, fun _ => ⟨[]⟩⟩

/-- Their only number is zero. -/
lemma unreadCalls_floats : ∀ bits ∈ unreadCalls.floats zeroCalls, bits = 0 := by
  have hparse : parse (fun _ => 0) (buildJson unreadCalls.battery) = .ok _ :=
    (parses_buildJson (fun _ _ => rfl) ⟨by decide, by decide⟩).parse
  have hpct : (Json.numberInteger 0).canon.floats = [] := rfl
  intro bits hbits
  rw [CommandCalls.floats, zeroCalls, hparse] at hbits
  simpa [Except.toOption, jsonOf, recordObject, floats, membersFloats, unreadCalls, hpct]
    using hbits

/-- A `ping`. -/
theorem replies_parse_ping : ∃ members,
    parse (fun _ => 0) (ascii "\x7b\"status\":\"ok\",\"ts\":5\x7d") = .ok (.object members) ∧
      (find (ascii "status") members = some (.string (ascii "ok")) ∨
        find (ascii "status") members = some (.string (ascii "error"))) := by
  refine replies_parse zeroCalls unreadCalls (by decide) (fun bits hb => ?_)
    (ascii "\x7b\"cmd\":\"ping\"\x7d") _ (by decide +kernel)
  rw [unreadCalls_floats bits hb]
  exact ⟨rfl, fun h => absurd rfl h, rfl⟩

end RasPiZeroCam
