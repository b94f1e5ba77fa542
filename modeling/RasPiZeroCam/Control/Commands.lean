import RasPiZeroCam.Control.Json
import RasPiZeroCam.Stream.Source

/-!
The recording commands of `main`, executed one at a time.

* `nextName`, `fileReply`, `stopReply`, `errorObject`: the generated file name and the replies.
* `recordStart`, `recordStop`, `recordRestart`: the handlers, on the source and on what the calls
  underneath return (`Outcome`).
* `Truthful`: an ok reply says what happened.  A started recording is active under the name in the
  reply, and a stopped one was finalised by its muxer.
* `command_truthful_iff`: the commands are truthful exactly under `CarriesOutcome`: always for
  `record_start`, for `record_restart` when the start goes through or throws, for `record_stop` when
  a recording that is active ends with EOS.
-/

namespace RasPiZeroCam

open Json Source

/-- `REC_DIR`. -/
def recDir : Bytes := ascii "recordings"

/-- `next_name(dir, fmt)` at local time `tm`. -/
def nextName (dir fmt : Bytes) (tm : Tm) : Bytes := dir ++ ascii "/" ++ strftime fmt tm

/-- The format of a recording's name. -/
def recFormat : Bytes := ascii "rec_%Y%m%d_%H%M%S.mp4"

/-- `{status: ok, file}`. -/
def fileReply (file : Bytes) : Json :=
  .object [(ascii "file", .string file), (ascii "status", .string (ascii "ok"))]

/-- `{status: ok, file, duration_s}`. -/
def stopReply (file : Bytes) (dur : ℕ) : Json :=
  .object [(ascii "duration_s", .numberInteger dur), (ascii "file", .string file),
    (ascii "status", .string (ascii "ok"))]

/-- `{status: error, message}`. -/
def errorObject (message : Bytes) : Json :=
  .object [(ascii "message", .string message), (ascii "status", .string (ascii "error"))]

/-- A reply with status `ok`. -/
def IsOk (reply : Json) : Prop :=
  ∃ members, reply = .object members ∧
    find (ascii "status") members = some (.string (ascii "ok"))

/-- A reply with status `ok` and file `f`. -/
def IsOkFile (reply : Json) (f : Bytes) : Prop :=
  ∃ members, reply = .object members ∧
    find (ascii "status") members = some (.string (ascii "ok")) ∧
    find (ascii "file") members = some (.string f)

lemma isOkFile_fileReply_iff (file f : Bytes) : IsOkFile (fileReply file) f ↔ file = f := by
  constructor
  · rintro ⟨members, hm, -, hf⟩
    cases hm
    have : some (Json.string file) = some (.string f) := hf
    simpa using this
  · rintro rfl
    exact ⟨_, rfl, rfl, rfl⟩

lemma isOk_stopReply (file : Bytes) (dur : ℕ) : IsOk (stopReply file dur) := ⟨_, rfl, rfl⟩

lemma not_isOk_errorObject (message : Bytes) : ¬ IsOk (errorObject message) := by
  rintro ⟨members, hm, hs⟩
  cases hm
  have hne : ascii "error" ≠ ascii "ok" := by decide
  have : some (Json.string (ascii "error")) = some (.string (ascii "ok")) := hs
  exact hne (by simpa using this)

lemma not_isOkFile_errorObject (message f : Bytes) : ¬ IsOkFile (errorObject message) f := by
  rintro ⟨members, hm, hs, -⟩
  exact not_isOk_errorObject message ⟨members, hm, hs⟩

/-- What the calls underneath a command return, and the time it reads. -/
structure Outcome where
  recorder : RecorderOutcome
  bus : BusReply
  tm : Tm
  now : ℕ

/-- What a command did: the source after it, its reply before `dump()`, or the exception that
leaves it, and what `stop_recording` popped from the recorder's bus. -/
structure CommandResult where
  source : Source
  reply : Except Exception Json
  popped : Option BusReply

/-- The recording commands. -/
inductive RecordCommand where
  | start (msg : Json)
  | stop
  | restart

/-- The `record_start` handler. -/
def recordStart (msg : Json) (o : Outcome) (s : Source) : CommandResult :=
  if s.isRecording then ⟨s, .ok (errorObject (ascii "already recording")), none⟩
  else
    match msg.value (ascii "filename") (nextName recDir recFormat o.tm) with
    | .error e => ⟨s, .error e, none⟩
    | .ok file =>
        match s.startRecording o.recorder o.now file with
        | (s, .ok true) => ⟨s, .ok (fileReply file), none⟩
        | (s, .ok false) => ⟨s, .ok (errorObject (ascii "failed to start")), none⟩
        | (s, .error e) => ⟨s, .error e, none⟩

/-- The `record_stop` handler, which ignores the result of `stop_recording`. -/
def recordStop (o : Outcome) (s : Source) : CommandResult :=
  if !s.isRecording then ⟨s, .ok (errorObject (ascii "not recording")), none⟩
  else
    let file := s.currentRecording
    let dur := s.recordingSeconds o.now
    let r := s.stopRecording o.bus
    ⟨r.source, .ok (stopReply file dur), r.popped⟩

/-- The `record_restart` handler, which ignores the results of `stop_recording` and
`start_recording`. -/
def recordRestart (o : Outcome) (s : Source) : CommandResult :=
  let r := s.stopRecording o.bus
  let file := nextName recDir recFormat o.tm
  match r.source.startRecording o.recorder o.now file with
  | (s, .ok _) => ⟨s, .ok (fileReply file), r.popped⟩
  | (s, .error e) => ⟨s, .error e, r.popped⟩

/-- A recording command. -/
def RecordCommand.run : RecordCommand → Outcome → Source → CommandResult
  | start msg => recordStart msg
  | stop => recordStop
  | restart => recordRestart

/-- **An ok reply says what happened.** -/
def Truthful (c : RecordCommand) (o : Outcome) (s : Source) : Prop :=
  ∀ reply, (c.run o s).reply = .ok reply →
    match c with
    | .stop => IsOk reply → (c.run o s).popped = some .eos
    | _ => ∀ f, IsOkFile reply f →
        (c.run o s).source.recording = true ∧ (c.run o s).source.currentRecording = f

/-- The outcomes the handlers carry to the client. -/
def CarriesOutcome (c : RecordCommand) (o : Outcome) (s : Source) : Prop :=
  match c with
  | .start _ => True
  | .restart => s.running = true ∧ (o.recorder.createDirectories ≠ none ∨ o.recorder.Plays)
  | .stop => s.recording = true →
      (∃ r, s.recorder = some r ∧ r.state = .recording) ∧ o.bus = .eos

/-! ### The three commands -/

lemma truthful_start (msg : Json) (o : Outcome) (s : Source) : Truthful (.start msg) o s := by
  intro reply hreply f hf
  simp only [RecordCommand.run, recordStart] at hreply ⊢
  split at hreply
  · cases hreply
    exact absurd hf (not_isOkFile_errorObject _ _)
  · split at hreply
    · cases hreply
    · rename_i hrec _ file hfile
      have hok := startRecording_of_ok o.recorder o.now file s
      split at hreply
      all_goals rename_i s' hst
      · cases hreply
        rw [isOkFile_fileReply_iff] at hf
        subst hf
        simpa [hrec, hfile, hst] using hok
      · cases hreply
        exact absurd hf (not_isOkFile_errorObject _ _)
      · cases hreply

/-- `record_stop` is truthful exactly when an active recording is finalised. -/
lemma truthful_stop_iff (o : Outcome) (s : Source) :
    Truthful .stop o s ↔ CarriesOutcome .stop o s := by
  cases hrec : s.recording with
  | false =>
      refine iff_of_true ?_ (by simp [CarriesOutcome, hrec])
      intro reply hreply hok
      simp only [RecordCommand.run, recordStop, isRecording, hrec, Bool.not_false, if_true,
        Except.ok.injEq] at hreply
      subst hreply
      exact absurd hok (not_isOk_errorObject _)
  | true =>
      have hrun : RecordCommand.stop.run o s = ⟨(s.stopRecording o.bus).source,
          .ok (stopReply s.currentRecording (s.recordingSeconds o.now)),
          (s.stopRecording o.bus).popped⟩ := by
        simp [RecordCommand.run, recordStop, isRecording, hrec]
      have hpop := s.stopRecording_popped_iff o.bus .eos
      simp only [hrec, true_and] at hpop
      simp only [Truthful, hrun, Except.ok.injEq, forall_eq', isOk_stopReply, true_implies,
        CarriesOutcome, hrec, hpop]

/-- `record_restart` is truthful exactly when its start goes through or throws. -/
lemma truthful_restart_iff (o : Outcome) (s : Source) :
    Truthful .restart o s ↔ CarriesOutcome .restart o s := by
  set t := (s.stopRecording o.bus).source with ht
  set file := nextName recDir recFormat o.tm with hfile
  have htrun : t.running = s.running := stopRecording_running _ _
  have htrec : t.recording = false := stopRecording_recording _ _
  have hok := startRecording_ok_iff o.recorder o.now file t
  have herr := startRecording_error_iff o.recorder o.now file t
  have hkeep := startRecording_recording_of_not_ok o.recorder o.now file t
  have hact := startRecording_of_ok o.recorder o.now file t
  simp only [htrun, htrec, true_and] at hok herr hkeep
  simp only [Truthful, CarriesOutcome, RecordCommand.run, recordRestart, ← hfile, ← ht]
  rcases hst : t.startRecording o.recorder o.now file with ⟨s', e | ok⟩ <;>
    simp only [hst] at hok herr hkeep hact ⊢
  · have hthrow := herr.mp ⟨e, rfl⟩
    refine iff_of_true (fun reply hreply => by cases hreply) ⟨hthrow.1, Or.inl hthrow.2⟩
  · have hnoerr : ¬ (s.running = true ∧ o.recorder.createDirectories ≠ none) := by
      rw [← herr]
      rintro ⟨e, he⟩
      cases he
    cases ok with
    | true =>
        have hplay := hok.mp rfl
        refine iff_of_true ?_ ⟨hplay.1, Or.inr hplay.2.2⟩
        intro reply hreply f hf
        cases hreply
        rw [isOkFile_fileReply_iff] at hf
        rw [← hf]
        exact hact rfl
    | false =>
        have hnorec : s'.recording = false := hkeep (by simp)
        refine iff_of_false ?_ ?_
        · intro h
          have hrec := (h (fileReply file) rfl file ((isOkFile_fileReply_iff _ _).mpr rfl)).1
          rw [hnorec] at hrec
          cases hrec
        · rintro ⟨hrun, hdir | hplay⟩
          · exact hnoerr ⟨hrun, hdir⟩
          · have hdir : o.recorder.createDirectories = none := by
              by_contra hdir
              exact hnoerr ⟨hrun, hdir⟩
            simpa using hok.mpr ⟨hrun, hdir, hplay⟩

/-- **The recording commands are truthful exactly when they carry the outcome to the client**:
`record_start` always does, `record_restart` when its start goes through or throws, `record_stop`
when a recording that is active ends with EOS. -/
theorem command_truthful_iff (c : RecordCommand) (o : Outcome) (s : Source) :
    Truthful c o s ↔ CarriesOutcome c o s := by
  cases c with
  | start msg => exact iff_of_true (truthful_start msg o s) trivial
  | stop => exact truthful_stop_iff o s
  | restart => exact truthful_restart_iff o s

/-- A `record_restart` on a source that does not run is answered ok, and nothing records. -/
theorem restart_ok_while_stopped :
    ¬ ∀ (c : RecordCommand) (o : Outcome) (s : Source), Truthful c o s := by
  intro h
  let o : Outcome :=
    { recorder := ⟨none, none, .ok, true, true, true, ⟨126, 0, 1, 0, 0, 0⟩⟩
      bus := .eos
      tm := ⟨126, 0, 1, 0, 0, 0⟩
      now := 0 }
  have := h .restart o (new .zero) (fileReply (nextName recDir recFormat o.tm)) rfl
    (nextName recDir recFormat o.tm) ⟨_, rfl, rfl, rfl⟩
  exact absurd this.1 (by decide)

end RasPiZeroCam
