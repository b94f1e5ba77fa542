import RasPiZeroCam.Control.Periodic

/-!
What the main loop broadcasts and when, and that it does not throw.

* `FileValid`: the name of the recorded file is valid UTF-8, whatever the clients sent.
* `Timely`, `broadcasts_timed`: in every pass, a block is entered, and its broadcast made, exactly
  when its timer is due.
* `main_loop_never_throws`: no statement of the loop throws, if the sensor's numbers are finite.
* `ReadAs`, `broadcasts_parse`: a client parses what is broadcast to a `recording_status` of the
  file that the source has named, or to a `storage_warning` below 500 MB.
-/

namespace RasPiZeroCam

open Transition System Lexer TextParser Dtoa Json BatteryMonitor

variable {cfg : LoopConfig} {c : LoopCalls} {s s' : LoopState}

/-! ### The name of the file -/

lemma plainByte_le {b : UInt8} (h : plainByte b = true) : b ≤ 0x7F := by
  simp only [plainByte, Bool.or_eq_true, Bool.and_eq_true, decide_eq_true_eq, beq_iff_eq] at h
  rcases h with ((h | h) | h) | rfl
  · exact UInt8.le_trans h.2 (by decide)
  · exact UInt8.le_trans h.2 (by decide)
  · exact UInt8.le_trans h.2 (by decide)
  · decide

lemma validUtf8_nextName (tm : Tm) : ValidUtf8 (nextName recDir recFormat tm) :=
  validUtf8_of_ascii fun b hb => plainByte_le (plainByte_rec tm b hb)

/-- A string member of a message, or the default. -/
lemma validUtf8_value {j : Json} {key dflt t : Bytes} (hj : j.StringsValid) (hd : ValidUtf8 dflt)
    (h : j.value key dflt = .ok t) : ValidUtf8 t := by
  cases j
  case object members =>
      rw [Json.value] at h
      split at h
      · rename_i v hfind
        have hv := Json.MembersValid.find hj hfind
        cases v
        case string str =>
            cases h
            exact hv
        all_goals cases h
      · cases h
        exact hd
  all_goals cases h

/-- `start_recording` takes the name it is given, or leaves it. -/
lemma validUtf8_startRecording (o : RecorderOutcome) (now : ℕ) {file : Bytes} {src : Source}
    (hfile : ValidUtf8 file) (hsrc : ValidUtf8 src.currentFile) :
    ValidUtf8 (src.startRecording o now file).1.currentFile := by
  rw [Source.startRecording]
  split_ifs
  · exact hsrc
  · split
    · exact hfile
    · exact hsrc
    · exact hsrc

lemma stopRecording_currentFile (reply : BusReply) (src : Source) :
    (src.stopRecording reply).source.currentFile = src.currentFile := by
  rw [Source.stopRecording]
  split_ifs <;> rfl

/-- **No message makes the name invalid.** -/
lemma validUtf8_afterMessage (lib : LibraryCalls) (raw : Bytes) (o : Outcome) {src : Source}
    (hsrc : ValidUtf8 src.currentFile) :
    ValidUtf8 (afterMessage lib raw o src).currentFile := by
  rw [afterMessage]
  split
  · exact hsrc
  · rename_i msg hparse
    have hmsg : msg.StringsValid := ((parse_spec raw).1 msg hparse).stringsValid
    split
    · exact hsrc
    · split_ifs
      · rw [recordStart]
        split_ifs
        · exact hsrc
        · split
          · exact hsrc
          · rename_i file hvalue
            have hfile := validUtf8_value hmsg (validUtf8_nextName o.tm) hvalue
            have hstart := validUtf8_startRecording o.recorder o.now hfile hsrc
            split <;> rename_i heq <;> rw [heq] at hstart <;> exact hstart
      · rw [recordStop]
        split_ifs
        · exact hsrc
        · exact (stopRecording_currentFile o.bus src).symm ▸ hsrc
      · have hstop : ValidUtf8 (src.stopRecording o.bus).source.currentFile :=
          (stopRecording_currentFile o.bus src).symm ▸ hsrc
        have hstart := validUtf8_startRecording o.recorder o.now (validUtf8_nextName o.tm) hstop
        rw [recordRestart]
        split <;> rename_i heq <;> rw [heq] at hstart <;> exact hstart
      · exact hsrc

/-- The name that the loop has read is valid. -/
def LoopPc.Named : LoopPc → Prop
  | .push _ name => ValidUtf8 name
  | _ => True

/-- The names of the recorded file: that of the source, and the one the loop has read. -/
structure FileValid (s : LoopState) : Prop where
  source : ValidUtf8 s.gst_cam.currentFile
  named : s.pc.Named

lemma dump_recordingStatus {file : Bytes} (hfile : ValidUtf8 file) (f : UInt64 → Bytes) (n : Int32)
    (size_mb : UInt64) : ∃ json, dump f (recordingStatus file n size_mb) = .ok json := by
  refine dump_ok f (membersValid_assign ?_)
  simp only [List.forall_mem_cons]
  have htype : ValidUtf8 (ascii "recording_status") := by decide
  exact ⟨⟨by decide, htype⟩, ⟨by decide, trivial⟩, ⟨by decide, hfile⟩, ⟨by decide, trivial⟩,
    ⟨by decide, trivial⟩, List.forall_mem_nil _⟩

lemma dump_storageWarning (f : UInt64 → Bytes) (free_mb : Int64) :
    ∃ json, dump f (storageWarning free_mb) = .ok json := by
  refine dump_ok f (membersValid_assign ?_)
  simp only [List.forall_mem_cons]
  have htype : ValidUtf8 (ascii "storage_warning") := by decide
  exact ⟨⟨by decide, htype⟩, ⟨by decide, trivial⟩, List.forall_mem_nil _⟩

/-- A block that is entered makes its broadcast. -/
lemma pushStatus_eq (cfg : LoopConfig) (c : LoopCalls) (s : LoopState) {name : Bytes}
    (hname : ValidUtf8 name) (now : ℕ) : ∃ json,
    dump (dumpFloat cfg.lib.grisu2) (recordingStatus name c.recording_seconds
      (cfg.size_mb (c.file_size.getD 0))) = .ok json ∧
    pushStatus cfg c now name s =
      ((s.emit (.broadcast .recPush now s.clock json)).arm .recPush now).goto (.reset now) := by
  obtain ⟨json, hjson⟩ := dump_recordingStatus hname (dumpFloat cfg.lib.grisu2)
    c.recording_seconds (cfg.size_mb (c.file_size.getD 0))
  refine ⟨json, hjson, ?_⟩
  rw [pushStatus, hjson]

lemma checkStorage_low (cfg : LoopConfig) (s : LoopState) (hfree : c.free_mb < 500) (now : ℕ) :
    ∃ json,
    dump (dumpFloat cfg.lib.grisu2) (storageWarning c.free_mb) = .ok json ∧
    checkStorage cfg c now s = ((s.emit (.broadcast .storageCheck now s.clock json)).arm
      .storageCheck now).goto (.stats now) := by
  obtain ⟨json, hjson⟩ := dump_storageWarning (dumpFloat cfg.lib.grisu2) c.free_mb
  refine ⟨json, hjson, ?_⟩
  rw [checkStorage, if_pos hfree, hjson]

lemma checkStorage_enough (hfree : ¬ c.free_mb < 500) (now : ℕ) :
    checkStorage cfg c now s = (s.arm .storageCheck now).goto (.stats now) := if_neg hfree

/-- A statement keeps the names. -/
lemma loopStep_fileValid (hs : FileValid s) (h : loopStep cfg c s = some s') : FileValid s' := by
  obtain ⟨g_running, gst_cam, clock, next, pc, events⟩ := s
  have hsource := hs.source
  have hnamed := hs.named
  cases pc <;> simp only [loopStep] at h
  case push now name =>
      cases h
      obtain ⟨json, -, heq⟩ := pushStatus_eq cfg c
        ⟨g_running, gst_cam, clock, next, .push now name, events⟩ hnamed now
      rw [heq]
      exact ⟨hsource, trivial⟩
  case storage now =>
      split_ifs at h <;> cases h
      · by_cases hfree : c.free_mb < 500
        · obtain ⟨json, -, heq⟩ := checkStorage_low cfg
            (LoopState.emit (.fire .storageCheck now)
              ⟨g_running, gst_cam, clock, next, .storage now, events⟩) hfree now
          rw [heq]
          exact ⟨hsource, trivial⟩
        · rw [checkStorage_enough hfree]
          exact ⟨hsource, trivial⟩
      · exact ⟨hsource, trivial⟩
  case stats now =>
      split_ifs at h
      · split at h <;> cases h <;> exact ⟨hsource, trivial⟩
      · cases h
        exact ⟨hsource, trivial⟩
  case file now =>
      cases h
      exact ⟨hsource, hsource⟩
  case test =>
      cases h
      refine ⟨hsource, ?_⟩
      simp only [LoopState.goto]
      split_ifs <;> trivial
  case left => cases h
  case thrown => cases h
  case status now =>
      split_ifs at h <;> cases h <;> exact ⟨hsource, trivial⟩
  case reset now =>
      split_ifs at h <;> cases h <;> exact ⟨hsource, trivial⟩
  case sleep since =>
      split_ifs at h
      cases h
      exact ⟨hsource, trivial⟩
  all_goals
    cases h
    exact ⟨hsource, trivial⟩

/-- **The names are valid in every run.** -/
lemma reach_fileValid {C : LoopState → LoopStep → Prop} (h : (loopSystem cfg).Reach C s) :
    FileValid s := by
  refine h.invariant FileValid (fun s hinit => ?_) fun s e s' _ hs _ hst => ?_
  · refine ⟨hinit.1, ?_⟩
    rw [hinit.2]
    trivial
  · cases e with
    | main c => exact loopStep_fileValid hs hst
    | message raw o =>
        cases hst
        exact ⟨validUtf8_afterMessage cfg.lib raw o hs.source, hs.named⟩
    | _ =>
        cases hst
        exact ⟨hs.source, hs.named⟩

/-! ### When the blocks are entered -/

/-- The sensor's numbers, if there is one, are finite. -/
def FiniteNumbers (cfg : LoopConfig) (_ : LoopState) : LoopStep → Prop
  | .main c => cfg.power_ok = true →
      (∀ x ∈ [c.battery.voltage_, c.battery.current_ma_, c.battery.power_mw_],
        isFinite (cfg.lib.strtod (fixed3 x)) = true) ∧
      -2 ^ 63 ≤ c.battery.percentage_ ∧ c.battery.percentage_ < 2 ^ 63
  | _ => True

/-- The line of statistics does not throw. -/
lemma statBattery_ok (h : FiniteNumbers cfg s (.main c)) : statBattery cfg c.battery = .ok () := by
  rw [statBattery]
  split_ifs with hpower
  · obtain ⟨hfinite, hpct⟩ := h hpower
    have hnumber : ∀ n : ℤ, (Json.numberInteger n).canon = .numberInteger n ∨
        ∃ m, (Json.numberInteger n).canon = .numberUnsigned m := by
      intro n
      cases n with
      | ofNat n => exact Or.inr ⟨n, rfl⟩
      | negSucc n => exact Or.inl rfl
    have hfind : ∀ members, jsonOf cfg.lib.strtod c.battery = .object members →
        find (ascii "percentage") members =
          some (Json.numberInteger c.battery.percentage_).canon := by
      intro members heq
      rw [← Json.object.inj heq]
      simp +decide only [find, if_false, if_true]
    rw [(parses_buildJson hfinite hpct).parse]
    show percentageMember (jsonOf cfg.lib.strtod c.battery) = _
    rw [jsonOf, recordObject, percentageMember, hfind _ rfl]
    rcases hnumber c.battery.percentage_ with heq | ⟨m, heq⟩ <;> rw [heq]
  · rfl

/-- **A statement does not throw.** -/
lemma loopStep_goes_on (hs : FileValid s) (hfinite : FiniteNumbers cfg s (.main c))
    (h : loopStep cfg c s = some s') (e : Exception) : s'.pc ≠ .thrown e := by
  have hstat := statBattery_ok hfinite
  have hnamed := hs.named
  obtain ⟨g_running, gst_cam, clock, next, pc, events⟩ := s
  cases pc <;> simp only [loopStep] at h
  case push now name =>
      cases h
      obtain ⟨json, -, heq⟩ := pushStatus_eq cfg c
        ⟨g_running, gst_cam, clock, next, .push now name, events⟩ hnamed now
      rw [heq]
      exact fun hpc => by cases hpc
  case storage now =>
      split_ifs at h <;> cases h
      · by_cases hfree : c.free_mb < 500
        · obtain ⟨json, -, heq⟩ := checkStorage_low cfg
            (LoopState.emit (.fire .storageCheck now)
              ⟨g_running, gst_cam, clock, next, .storage now, events⟩) hfree now
          rw [heq]
          exact fun hpc => by cases hpc
        · rw [checkStorage_enough hfree]
          exact fun hpc => by cases hpc
      · exact fun hpc => by cases hpc
  case stats now =>
      rw [hstat] at h
      split_ifs at h <;> cases h <;> exact fun hpc => by cases hpc
  case test =>
      cases h
      simp only [LoopState.goto]
      split_ifs <;> exact fun hpc => by cases hpc
  case left => cases h
  case thrown => cases h
  case status now =>
      split_ifs at h <;> cases h <;> exact fun hpc => by cases hpc
  case reset now =>
      split_ifs at h <;> cases h <;> exact fun hpc => by cases hpc
  case sleep since =>
      split_ifs at h
      cases h
      exact fun hpc => by cases hpc
  all_goals
    cases h
    exact fun hpc => by cases hpc

/-- **The main loop does not throw**, whatever the clients send and the source does: the name of the
file can always be serialized, and what the battery monitor writes can be read. -/
theorem main_loop_never_throws (cfg : LoopConfig) (s : LoopState)
    (h : (loopSystem cfg).Reach (FiniteNumbers cfg) s) (e : Exception) : s.pc ≠ .thrown e := by
  refine h.invariant (fun s => s.pc ≠ .thrown e) (fun s hinit hpc => ?_)
    fun s e' s' hs hgoes hfinite hst => ?_
  · rw [hinit.2] at hpc
    cases hpc
  · cases e' with
    | main c => exact loopStep_goes_on (reach_fileValid hs) hfinite hst e
    | _ =>
        cases hst
        exact hgoes

/-- A percentage of 64 bits, which is enough where every number is zero. -/
def percentageCheck (_ : LoopState) : LoopStep → Bool
  | .main c => -2 ^ 63 ≤ c.battery.percentage_ && c.battery.percentage_ < 2 ^ 63
  | _ => true

/-- A message that starts a recording with a name of the client's, and a pass of the loop. -/
def namedRecording : List LoopStep :=
  .message (ascii "\x7b\"cmd\":\"record_start\",\"filename\":\"a\"\x7d") smoothly ::
    List.replicate 4 (.main recordingCalls) ++ .tick second ::
      List.replicate 5 (.main recordingCalls)

/-- The pass broadcasts the name, and comes to the storage. -/
theorem namedRecording_goes_on : ∃ s : LoopState, s.gst_cam.currentFile = ascii "a" ∧
    (sent .recPush s.events).length = 1 ∧ s.pc = .storage second ∧ ∀ e, s.pc ≠ .thrown e := by
  have hrun : ((loopSystem ⟨zeroCalls, true, fun _ => 0⟩).exec percentageCheck recordingState
      namedRecording).map
        (fun s => (s.gst_cam.currentFile, (sent .recPush s.events).length, s.pc)) =
        some (ascii "a", 1, .storage second) := rfl
  obtain ⟨s, hexec, hview⟩ := Option.map_eq_some_iff.mp hrun
  simp only [Prod.mk.injEq] at hview
  obtain ⟨hname, hsent, hpc⟩ := hview
  have hinit : (loopSystem ⟨zeroCalls, true, fun _ => 0⟩).init recordingState := ⟨rfl, rfl⟩
  have hcheck : ∀ s e, percentageCheck s e = true →
      FiniteNumbers ⟨zeroCalls, true, fun _ => 0⟩ s e := by
    intro s e he
    cases e with
    | main c =>
        rw [percentageCheck, Bool.and_eq_true, decide_eq_true_eq, decide_eq_true_eq] at he
        have hzero : isFinite 0 = true := by decide
        exact fun _ => ⟨fun _ _ => hzero, he⟩
    | _ => trivial
  exact ⟨s, hname, hsent, hpc,
    main_loop_never_throws _ s (.of_exec_check hcheck hinit hexec)⟩

/-! ### What is broadcast -/

/-- The size of the file is read back. -/
def SizeRead (cfg : LoopConfig) (_ : LoopState) : LoopStep → Prop
  | .main c => isFinite (cfg.size_mb (c.file_size.getD 0)) = true ∧
      ReadsBack cfg.lib.strtod cfg.lib.grisu2 (cfg.size_mb (c.file_size.getD 0))
  | _ => True

/-- What a client reads of an event behind the events `l`: the file that `current_recording()` has
just returned, or the megabytes that are free. -/
def ReadAs (strtod : Bytes → UInt64) (l : List LoopEvent) : LoopEvent → Prop
  | .broadcast .recPush _ _ json => ∃ members file, l.getLast? = some (.recording file) ∧
      parse strtod json = .ok (.object members) ∧
      find (ascii "type") members = some (.string (ascii "recording_status")) ∧
      find (ascii "active") members = some (.boolean true) ∧
      find (ascii "file") members = some (.string file)
  | .broadcast .storageCheck _ _ json => ∃ members n, parse strtod json = .ok (.object members) ∧
      find (ascii "type") members = some (.string (ascii "storage_warning")) ∧
      find (ascii "free_mb") members = some (Json.numberInteger n).canon ∧ n < 500
  | .broadcast .stat _ _ _ => False
  | _ => True

/-- So it is for each of the events. -/
def AllRead (strtod : Bytes → UInt64) (events : List LoopEvent) : Prop :=
  ∀ l e l', events = l ++ e :: l' → ReadAs strtod l e

lemma AllRead.concat {strtod : Bytes → UInt64} {events : List LoopEvent} {e : LoopEvent}
    (h : AllRead strtod events) (he : ReadAs strtod events e) : AllRead strtod (events ++ [e]) := by
  intro l e' l' heq
  rcases List.eq_nil_or_concat l' with rfl | ⟨l', e'', rfl⟩
  · obtain ⟨rfl, hlast⟩ := List.append_inj' heq rfl
    obtain rfl : e = e' := List.head_eq_of_cons_eq hlast
    exact he
  · have hassoc : events ++ [e] = (l ++ e' :: l') ++ [e''] := by
      rw [heq, List.append_assoc, List.cons_append, List.concat_eq_append]
    exact h l e' l' (List.append_inj' hassoc rfl).1

/-- A `recording_status` is read as one. -/
lemma readAs_status {l : List LoopEvent} {name json : Bytes} {now t : ℕ}
    (hlast : l.getLast? = some (.recording name)) (hsize : SizeRead cfg s (.main c))
    (hdump : dump (dumpFloat cfg.lib.grisu2) (recordingStatus name c.recording_seconds
      (cfg.size_mb (c.file_size.getD 0))) = .ok json) :
    ReadAs cfg.lib.strtod l (.broadcast .recPush now t json) := by
  have hfits : (recordingStatus name c.recording_seconds
      (cfg.size_mb (c.file_size.getD 0))).Fits := by
    refine fits_jsonObject ?_
    simp only [List.forall_mem_cons]
    exact ⟨trivial, trivial, trivial, (plain_int32 _).fits, hsize.1, List.forall_mem_nil _⟩
  have hfloats : ∀ bits ∈ (recordingStatus name c.recording_seconds
      (cfg.size_mb (c.file_size.getD 0))).floats,
      ReadsBack cfg.lib.strtod cfg.lib.grisu2 bits := by
    intro bits hbits
    obtain ⟨m, hm, hb⟩ := of_mem_floats_jsonObject hbits
    simp only [List.mem_cons, List.not_mem_nil, or_false] at hm
    rcases hm with rfl | rfl | rfl | rfl | rfl
    case inr.inr.inr.inr =>
        rw [List.mem_singleton.mp hb]
        exact hsize.2
    all_goals cases hb
  refine ⟨_, name, hlast, parse_of_dump hfits hfloats hdump, ?_⟩
  simp +decide only [find_canonMembers, assign, List.foldl_cons, List.foldl_nil,
    find_insertMember, if_true, if_false]
  exact ⟨rfl, rfl, rfl⟩

/-- So is a `storage_warning`. -/
lemma readAs_warning {l : List LoopEvent} {json : Bytes} {now t : ℕ} (hfree : c.free_mb < 500)
    (hdump : dump (dumpFloat cfg.lib.grisu2) (storageWarning c.free_mb) = .ok json) :
    ReadAs cfg.lib.strtod l (.broadcast .storageCheck now t json) := by
  have hplain : (storageWarning c.free_mb).Plain := by
    refine plain_jsonObject ?_
    simp only [List.forall_mem_cons]
    exact ⟨plain_string _, plain_int64 _, List.forall_mem_nil _⟩
  have hfloats : ∀ bits ∈ (storageWarning c.free_mb).floats,
      ReadsBack cfg.lib.strtod cfg.lib.grisu2 bits := by
    rw [hplain.floats]
    exact List.forall_mem_nil _
  refine ⟨_, c.free_mb.toInt, parse_of_dump hplain.fits hfloats hdump, ?_⟩
  simp +decide only [find_canonMembers, assign, List.foldl_cons, List.foldl_nil,
    find_insertMember, if_true, if_false]
  exact ⟨rfl, rfl, Int64.lt_iff_toInt_lt.mp hfree⟩

/-- What a statement broadcasts can be read. -/
lemma loopStep_read (hs : LoopClocked s) (hvalid : FileValid s)
    (hread : AllRead cfg.lib.strtod s.events) (hsize : SizeRead cfg s (.main c))
    (h : loopStep cfg c s = some s') : AllRead cfg.lib.strtod s'.events := by
  have hfired := hs.fired
  have hnamed := hvalid.named
  obtain ⟨g_running, gst_cam, clock, next, pc, events⟩ := s
  cases pc <;> simp only [loopStep] at h
  case push now name =>
      cases h
      obtain ⟨json, hdump, heq⟩ := pushStatus_eq cfg c
        ⟨g_running, gst_cam, clock, next, .push now name, events⟩ hnamed now
      rw [heq]
      exact (hread.concat (readAs_status hfired.2 hsize hdump)).concat trivial
  case storage now =>
      split_ifs at h <;> cases h
      · by_cases hfree : c.free_mb < 500
        · obtain ⟨json, hdump, heq⟩ := checkStorage_low cfg
            (LoopState.emit (.fire .storageCheck now)
              ⟨g_running, gst_cam, clock, next, .storage now, events⟩) hfree now
          rw [heq]
          exact ((hread.concat (e := .fire .storageCheck now) trivial).concat
            (readAs_warning hfree hdump)).concat trivial
        · rw [checkStorage_enough hfree]
          exact (hread.concat (e := .fire .storageCheck now) trivial).concat trivial
      · exact hread
  case stats now =>
      split_ifs at h
      · split at h <;> cases h
        · exact hread.concat trivial
        · exact (hread.concat (e := .fire .stat now) trivial).concat trivial
      · cases h
        exact hread
  case left => cases h
  case thrown => cases h
  case status now =>
      split_ifs at h <;> cases h
      · exact hread.concat trivial
      · exact hread
  case reset now =>
      split_ifs at h <;> cases h
      · exact hread
      · exact hread.concat trivial
  case sleep since =>
      split_ifs at h
      cases h
      exact hread
  all_goals
    cases h
    first | exact hread | exact hread.concat trivial

/-- **The clients can read every broadcast** of the main loop, when the sizes of the files are read
back: it is an object whose type is `recording_status`, with the file that the source has named, or
`storage_warning`, with the megabytes that are free, which are less than 500. -/
theorem broadcasts_parse (cfg : LoopConfig) (s : LoopState)
    (h : (loopSystem cfg).Reach (SizeRead cfg) s) (l l' : List LoopEvent) (e : LoopEvent)
    (hevents : s.events = l ++ e :: l') : ReadAs cfg.lib.strtod l e := by
  have hread : AllRead cfg.lib.strtod s.events := by
    refine h.invariant (fun s => AllRead cfg.lib.strtod s.events) (fun s hinit => ?_)
      fun s e s' hs hread hsize hst => ?_
    · rw [hinit.2]
      intro l e l' heq
      exact absurd heq.symm (by simp)
    · cases e with
      | main c => exact loopStep_read (reach_clocked hs) (reach_fileValid hs) hread hsize hst
      | _ =>
          cases hst
          exact hread
  exact hread l e l' hevents

/-- A recording with a name of the client's, ten seconds, and a pass with little storage left. -/
def lowStorage : List LoopStep :=
  let calls : LoopCalls := ⟨some 0, 1, 100, ⟨0, 0, 0, 0, false, false⟩⟩
  .message (ascii "\x7b\"cmd\":\"record_start\",\"filename\":\"a\"\x7d") smoothly ::
    List.replicate 4 (.main calls) ++ .tick (10 * second) :: List.replicate 6 (.main calls)

/-- The events up to its status. -/
def beforeStatus : List LoopEvent :=
  [.arm .recPush 0, .arm .storageCheck 0, .arm .stat 0, .fire .recPush (10 * second),
    .recording (ascii "a")]

def lowStatus : LoopEvent := .broadcast .recPush (10 * second) (10 * second) (ascii
  ("\x7b\"active\":true,\"duration_s\":1,\"file\":\"a\",\"size_mb\":0.0," ++
    "\"type\":\"recording_status\"\x7d"))

def lowWarning : LoopEvent := .broadcast .storageCheck (10 * second) (10 * second)
  (ascii "\x7b\"free_mb\":100,\"type\":\"storage_warning\"\x7d")

/-- The status and the warning of that pass. -/
theorem lowStorage_read : ReadAs zeroCalls.strtod beforeStatus lowStatus ∧
    ReadAs zeroCalls.strtod (beforeStatus ++ [lowStatus, .arm .recPush (10 * second),
      .fire .storageCheck (10 * second)]) lowWarning := by
  obtain ⟨s, hexec, hevents⟩ : ∃ s, (loopSystem ⟨zeroCalls, true, fun _ => 0⟩).exec
      (fun _ _ => true) recordingState lowStorage = some s ∧
      s.events = beforeStatus ++ lowStatus :: ([.arm .recPush (10 * second),
        .fire .storageCheck (10 * second)] ++ lowWarning :: [.arm .storageCheck (10 * second)]) :=
    ⟨_, rfl, rfl⟩
  have hinit : (loopSystem ⟨zeroCalls, true, fun _ => 0⟩).init recordingState := ⟨rfl, rfl⟩
  have hzero : isFinite 0 = true := by decide
  have hreads : ReadsBack zeroCalls.strtod zeroCalls.grisu2 0 := ⟨fun h => absurd rfl h, rfl⟩
  have hcheck : ∀ s e, (fun (_ : LoopState) (_ : LoopStep) => true) s e = true →
      SizeRead ⟨zeroCalls, true, fun _ => 0⟩ s e := by
    intro s e _
    cases e with
    | main c => exact ⟨hzero, hreads⟩
    | _ => trivial
  have hreach := System.Reach.of_exec_check hcheck hinit hexec
  exact ⟨broadcasts_parse _ s hreach _ _ _ hevents, broadcasts_parse _ s hreach _ _ _ hevents⟩

end RasPiZeroCam
