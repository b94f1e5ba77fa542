import RasPiZeroCam.Control.Commands

/-!
The files that `record_start` and `snapshot` write, and those that `delete_recording` removes.

* `refusedName`, `deleteRecordingFile`, `directoryEntries`: the check of `delete_recording`, and
  what it and `list_recordings` see of the recordings directory.
* `WriteCommand.run`: the two commands that write, and the path each opens.
* `WritesRecording`: an ok reply means that the path opened is in the recordings directory, under a
  name that `delete_recording` accepts (`IsRecordingPath`).
* `writes_recording_iff`: it holds exactly of the messages whose own `filename` is such a path, or
  that leave the name to the program (`NamesRecording`).
-/

namespace RasPiZeroCam

open Json Source

/-! ### The recordings directory -/

/-- The names that `delete_recording_file` refuses: empty, or with `/` or `..` in them. -/
def refusedName (name : Bytes) : Bool :=
  name.isEmpty || name.contains 47 || decide (ascii ".." <:+: name)

/-- The path of a name in a directory. -/
def inDir (dir name : Bytes) : Bytes := dir ++ ascii "/" ++ name

/-- `delete_recording_file(dir, name)`, where `files` are the paths of the regular files. -/
def deleteRecordingFile (dir name : Bytes) (files : List Bytes) : Bool × List Bytes :=
  if refusedName name then (false, files)
  else if inDir dir name ∈ files then (true, files.erase (inDir dir name))
  else (false, files)

/-- The regular files that `directory_iterator(dir)` visits. -/
def directoryEntries (dir : Bytes) (files : List Bytes) : List Bytes :=
  files.filterMap fun path =>
    match path.dropPrefix? (dir ++ ascii "/") with
    | some name => if name.isEmpty || name.contains 47 then none else some name
    | none => none

/-- A path in the recordings directory, under a name that `delete_recording` accepts. -/
def IsRecordingPath (path : Bytes) : Prop :=
  ∃ name, path = inDir recDir name ∧ refusedName name = false

/-! ### The commands -/

/-- `take_snapshot(filepath)` of a single client, and the path that `on_jpeg_sample` opens;
`delivered` says whether a sample comes in time.  `std::ofstream` hands `c_str()` to the operating
system, and no file has the empty name. -/
def Source.takeSnapshot (delivered : Bool) (filepath : Bytes) (s : Source) : Bool × Option Bytes :=
  if !s.running then (false, none)
  else if delivered then (true, if cStr filepath = [] then none else some (cStr filepath))
  else (false, none)

/-- The format of a snapshot's name. -/
def snapFormat : Bytes := ascii "snap_%Y%m%d_%H%M%S.jpg"

/-- The commands that write a file of the client's choice. -/
inductive WriteCommand where
  | recordStart
  | snapshot
  deriving DecidableEq

/-- What a command did: its reply before `dump()`, the recorder it left, and the path it opened for
writing. -/
structure WriteResult where
  reply : Except Exception Json
  recorder : Option Recorder
  opened : Option Bytes

/-- The path that the `filesink` of a recorder opens: `location` is what `gst_parse_launch` reads
from the text after `location=`, if it makes a pipeline of it.  It is handed `c_str()`, too. -/
def openedBy (location : Bytes → Option Bytes) (r : Recorder) : Option Bytes :=
  if r.state = .recording then location (cStr r.currentFile) else none

/-- The handlers of `record_start` and `snapshot`. -/
def WriteCommand.run (location : Bytes → Option Bytes) (c : WriteCommand) (msg : Json) (o : Outcome)
    (delivered : Bool) (s : Source) : WriteResult :=
  match c with
  | .recordStart =>
      let r := RasPiZeroCam.recordStart msg o s
      ⟨r.reply, r.source.recorder, r.source.recorder.bind (openedBy location)⟩
  | .snapshot =>
      match msg.value (ascii "filename") (nextName recDir snapFormat o.tm) with
      | .error e => ⟨.error e, s.recorder, none⟩
      | .ok file =>
          match s.takeSnapshot delivered file with
          | (true, opened) => ⟨.ok (fileReply file), s.recorder, opened⟩
          | (false, opened) =>
              ⟨.ok (errorObject (ascii "snapshot failed")), s.recorder, opened⟩

/-- A recorder that records has a pipeline, so that `gst_parse_launch` has read its location. -/
def WriteResult.Parsed (location : Bytes → Option Bytes) (r : WriteResult) : Prop :=
  ∀ rec, r.recorder = some rec → rec.state = .recording →
    (location (cStr rec.currentFile)).isSome

/-- **Whoever is told ok has written a recording**: the path opened is in the recordings directory,
under a name that `delete_recording` accepts. -/
def WritesRecording (location : Bytes → Option Bytes) (c : WriteCommand) (msg : Json) : Prop :=
  ∀ o delivered s reply, (c.run location msg o delivered s).Parsed location →
    (c.run location msg o delivered s).reply = .ok reply → IsOk reply →
      ∃ path, (c.run location msg o delivered s).opened = some path ∧ IsRecordingPath path

/-- The `filename` of a message is itself the path of a recording, as far as it is read: up to its
first NUL.  A `record_start` with an empty one leaves the name to the recorder. -/
def NamesRecording (location : Bytes → Option Bytes) (c : WriteCommand) (msg : Json) : Prop :=
  ∀ members file, msg = .object members → find (ascii "filename") members = some (.string file) →
    match c with
    | .recordStart => file = [] ∨ ∀ path, location (cStr file) = some path → IsRecordingPath path
    | .snapshot => IsRecordingPath (cStr file)

/-- A byte that means nothing to `gst_parse_launch`: a letter, a digit, or one of `_ - . /`. -/
def plainByte (b : UInt8) : Bool :=
  (65 ≤ b && b ≤ 90) || (97 ≤ b && b ≤ 122) || (45 ≤ b && b ≤ 57) || b == 95

/-! ### Recordings are seen and can be deleted -/

lemma IsRecordingPath.ne_nil {path : Bytes} (h : IsRecordingPath path) : path ≠ [] := by
  obtain ⟨name, rfl, -⟩ := h
  have hdir : recDir ≠ [] := by decide
  simp [inDir, hdir]

lemma refusedName_eq_false_iff {name : Bytes} :
    refusedName name = false ↔ name ≠ [] ∧ 47 ∉ name ∧ ¬ ascii ".." <:+: name := by
  simp [refusedName, and_assoc]

/-- A recording is in the listing, and `delete_recording` removes it, and nothing else. -/
theorem IsRecordingPath.deletable {path : Bytes} (h : IsRecordingPath path) {files : List Bytes}
    (hmem : path ∈ files) :
    ∃ name ∈ directoryEntries recDir files,
      deleteRecordingFile recDir name files = (true, files.erase path) := by
  obtain ⟨name, rfl, hname⟩ := h
  obtain ⟨hne, hslash, -⟩ := refusedName_eq_false_iff.mp hname
  refine ⟨name, List.mem_filterMap.mpr ⟨_, hmem, ?_⟩, ?_⟩
  · have hdrop : (inDir recDir name).dropPrefix? (recDir ++ ascii "/") = some name :=
      List.dropPrefix?_eq_some_iff.mpr ⟨_, rfl, beq_self_eq_true _⟩
    simp [hdrop, hne, hslash]
  · simp [deleteRecordingFile, hname, hmem]

/-! ### Generated names -/

/-- The time stamp in a generated name. -/
def stamp (tm : Tm) : Bytes := strftime (ascii "%Y%m%d_%H%M%S") tm

lemma stamp_eq (tm : Tm) :
    stamp tm = decimal tm.year ++ (pad2 tm.mon ++ (pad2 tm.mday ++ (95 ::
      (pad2 tm.hour ++ (pad2 tm.min ++ (pad2 tm.sec ++ [])))))) := rfl

lemma mem_stamp {tm : Tm} {b : UInt8} (h : b ∈ stamp tm) : b = 95 ∨ 48 ≤ b ∧ b ≤ 57 := by
  simp only [stamp_eq, List.mem_append, List.mem_cons, List.not_mem_nil, or_false] at h
  obtain h | h | h | rfl | h | h | h := h
  · exact Or.inr (digit_of_mem_decimal h)
  · exact Or.inr (digit_of_mem_pad2 h)
  · exact Or.inr (digit_of_mem_pad2 h)
  · exact Or.inl rfl
  · exact Or.inr (digit_of_mem_pad2 h)
  · exact Or.inr (digit_of_mem_pad2 h)
  · exact Or.inr (digit_of_mem_pad2 h)

lemma strftime_recFormat (tm : Tm) :
    strftime recFormat tm = ascii "rec_" ++ (stamp tm ++ ascii ".mp4") := by
  simp only [stamp_eq, List.append_assoc, List.cons_append, List.nil_append]
  rfl

lemma strftime_snapFormat (tm : Tm) :
    strftime snapFormat tm = ascii "snap_" ++ (stamp tm ++ ascii ".jpg") := by
  simp only [stamp_eq, List.append_assoc, List.cons_append, List.nil_append]
  rfl

/-- A name around a time stamp is accepted when its ends have no slash and one dot at most. -/
lemma refusedName_stamped {head tail : Bytes} (tm : Tm) (hne : head ≠ [])
    (hslash : 47 ∉ head ∧ 47 ∉ tail) (hdots : head.count 46 + tail.count 46 ≤ 1) :
    refusedName (head ++ (stamp tm ++ tail)) = false := by
  have hstamp : ∀ b ∈ stamp tm, b ≠ 46 ∧ b ≠ 47 := by
    intro b hb
    obtain rfl | hdigit := mem_stamp hb
    · decide
    · constructor <;> rintro rfl <;> exact absurd hdigit (by decide)
  refine refusedName_eq_false_iff.mpr ⟨by simp [hne], ?_, fun hinfix => ?_⟩
  · simp only [List.mem_append, not_or]
    exact ⟨hslash.1, fun h => (hstamp _ h).2 rfl, hslash.2⟩
  · have hcount := hinfix.sublist.count_le (46 : UInt8)
    have hzero : (stamp tm).count 46 = 0 :=
      List.count_eq_zero.mpr fun h => (hstamp _ h).1 rfl
    rw [List.count_append, List.count_append, hzero] at hcount
    have htwo : (ascii "..").count 46 = 2 := rfl
    omega

/-- The names that the program makes up are those of recordings. -/
lemma isRecordingPath_rec (tm : Tm) : IsRecordingPath (nextName recDir recFormat tm) := by
  refine ⟨strftime recFormat tm, rfl, ?_⟩
  rw [strftime_recFormat]
  exact refusedName_stamped tm (by decide) (by decide) (by decide)

lemma isRecordingPath_snap (tm : Tm) : IsRecordingPath (nextName recDir snapFormat tm) := by
  refine ⟨strftime snapFormat tm, rfl, ?_⟩
  rw [strftime_snapFormat]
  exact refusedName_stamped tm (by decide) (by decide) (by decide)

/-- A path around a time stamp is plain when its ends are. -/
lemma plainByte_stamped {head tail : Bytes} (tm : Tm) (hhead : head.all plainByte = true)
    (htail : tail.all plainByte = true) :
    ∀ b ∈ recDir ++ ascii "/" ++ (head ++ (stamp tm ++ tail)), plainByte b = true := by
  intro b hb
  simp only [List.mem_append] at hb
  have hplain : ∀ l : Bytes, l.all plainByte = true → b ∈ l → plainByte b = true :=
    fun l hl hmem => List.all_eq_true.mp hl b hmem
  obtain (hb | hb) | hb | hb | hb := hb
  · exact hplain _ (by decide) hb
  · exact hplain _ (by decide) hb
  · exact hplain _ hhead hb
  · obtain rfl | ⟨hlo, hhi⟩ := mem_stamp hb
    · decide
    · have hdash : 45 ≤ b := UInt8.le_trans (by decide) hlo
      simp [plainByte, hdash, hhi]
  · exact hplain _ htail hb

lemma plainByte_rec (tm : Tm) : ∀ b ∈ nextName recDir recFormat tm, plainByte b = true := by
  rw [nextName, strftime_recFormat]
  exact plainByte_stamped tm (by decide) (by decide)

lemma plainByte_snap (tm : Tm) : ∀ b ∈ nextName recDir snapFormat tm, plainByte b = true := by
  rw [nextName, strftime_snapFormat]
  exact plainByte_stamped tm (by decide) (by decide)

/-- A plain path is read whole. -/
lemma cStr_of_plain {path : Bytes} (h : ∀ b ∈ path, plainByte b = true) : cStr path = path :=
  cStr_eq_self_iff.mpr fun hzero => absurd (h 0 hzero) (by decide)

/-! ### The two commands -/

/-- A `value(key, dflt)` that gives a text found it, or gives the default. -/
lemma Json.value_eq_ok {msg : Json} {key dflt text : Bytes} (h : msg.value key dflt = .ok text) :
    (∃ members, msg = .object members ∧ find key members = some (.string text)) ∨ text = dflt := by
  cases msg with
  | object members =>
      simp only [value] at h
      split at h
      · next v hv =>
        cases v <;> cases h
        exact Or.inl ⟨members, rfl, hv⟩
      · cases h
        exact Or.inr rfl
  | _ => cases h

/-- A snapshot that was taken has opened its file. -/
lemma takeSnapshot_opened {delivered : Bool} {file : Bytes} {s : Source} {opened : Option Bytes}
    (hne : cStr file ≠ []) (h : s.takeSnapshot delivered file = (true, opened)) :
    opened = some (cStr file) := by
  rw [takeSnapshot] at h
  split_ifs at h <;> cases h
  rfl

lemma Json.value_of_find {members : List (Bytes × Json)} {key dflt text : Bytes}
    (h : find key members = some (.string text)) :
    (Json.object members).value key dflt = .ok text := by
  simp only [value, h, getString]

/-- A recorder that was started in software mode records into the file it was given, or into one of
its own choice. -/
lemma Recorder.start_sw_file (o : RecorderOutcome) (cfg : ResolutionConfig) (f : Bytes)
    {r : Recorder} (hr : r.state = .idle) (h : (r.start o cfg f true).2 = .ok true) :
    (r.start o cfg f true).1.state = .recording ∧
      (r.start o cfg f true).1.currentFile = if f = [] then r.nextFilename o.localtime else f := by
  refine ⟨(Recorder.start_sw_of_ok o cfg f hr h).1, ?_⟩
  obtain ⟨hdir, hplays⟩ := (Recorder.start_ok_iff o cfg f hr).mp h
  obtain ⟨hparse, happsrc, hbus, hplaying⟩ := hplays
  simp [Recorder.start, hr, hdir, Recorder.launch, hparse, happsrc, hbus, hplaying]

/-- A `record_start` that is answered ok leaves a recorder that records. -/
lemma recordStart_ok {msg : Json} {o : Outcome} {s : Source} {reply : Json}
    (hreply : (recordStart msg o s).reply = .ok reply) (hok : IsOk reply) :
    ∃ file rec, msg.value (ascii "filename") (nextName recDir recFormat o.tm) = .ok file ∧
      (recordStart msg o s).source.recorder = some rec ∧ rec.state = .recording ∧
        rec.currentFile = if file = [] then nextName recDir recFormat o.recorder.localtime
          else file := by
  rw [recordStart] at hreply ⊢
  split_ifs at hreply ⊢ with hrec
  · cases hreply
    exact absurd hok (not_isOk_errorObject _)
  split at hreply
  · cases hreply
  next file hfile =>
    split at hreply
    · next s' hst =>
      rw [startRecording] at hst
      split_ifs at hst
      · cases hst
      split at hst
      · next r hstart =>
        cases hst
        have hstarted := Recorder.start_sw_file o.recorder s.cfg file (r := newRecorder) rfl
          (congrArg Prod.snd hstart)
        rw [hstart] at hstarted
        exact ⟨file, r, hfile, rfl, hstarted⟩
      · cases hst
      · cases hst
    · cases hreply
      exact absurd hok (not_isOk_errorObject _)
    · cases hreply

section

variable {location : Bytes → Option Bytes}

lemma writes_of_names
    (hplain : ∀ path ≠ [], (∀ b ∈ path, plainByte b = true) → location path = some path)
    {c : WriteCommand} {msg : Json} (h : NamesRecording location c msg) :
    WritesRecording location c msg := by
  intro o delivered s reply hparsed hreply hok
  cases c with
  | recordStart =>
      obtain ⟨file, rec, hvalue, hrec, hstate, hfile⟩ := recordStart_ok hreply hok
      have hopened : (WriteCommand.recordStart.run location msg o delivered s).opened
          = location (cStr rec.currentFile) := by
        simp only [WriteCommand.run, hrec, Option.bind_some, openedBy, hstate, if_true]
      obtain ⟨path, hpath⟩ := Option.isSome_iff_exists.mp (hparsed rec hrec hstate)
      refine ⟨path, hopened.trans hpath, ?_⟩
      -- the name of the recorder's or the handler's own choice
      have hdefault : ∀ tm, rec.currentFile = nextName recDir recFormat tm →
          IsRecordingPath path := by
        intro tm htm
        rw [htm, cStr_of_plain (plainByte_rec tm),
          hplain _ (isRecordingPath_rec tm).ne_nil (plainByte_rec tm)] at hpath
        cases hpath
        exact isRecordingPath_rec tm
      split_ifs at hfile with hempty
      · exact hdefault _ hfile
      · obtain ⟨members, hmsg, hfind⟩ | hdflt := Json.value_eq_ok hvalue
        · obtain hnil | hgood := h members file hmsg hfind
          · exact absurd hnil hempty
          · exact hgood path (hfile ▸ hpath)
        · exact hdefault _ (hfile.trans hdflt)
  | snapshot =>
      simp only [WriteCommand.run] at hreply ⊢
      split at hreply
      · cases hreply
      next file hfile =>
        have hgood : IsRecordingPath (cStr file) := by
          obtain ⟨members, hmsg, hfind⟩ | hdflt := Json.value_eq_ok hfile
          · exact h members file hmsg hfind
          · rw [hdflt, cStr_of_plain (plainByte_snap o.tm)]
            exact isRecordingPath_snap o.tm
        cases htaken : s.takeSnapshot delivered file with
        | mk ok opened =>
            rw [htaken] at hreply
            cases ok with
            | false =>
                cases hreply
                exact absurd hok (not_isOk_errorObject _)
            | true => exact ⟨cStr file, takeSnapshot_opened hgood.ne_nil htaken, hgood⟩

/-- The calls underneath a command, when nothing fails. -/
def smoothly : Outcome where
  recorder := ⟨none, none, .ok, true, true, true, ⟨2026, 1, 1, 0, 0, 0⟩⟩
  bus := .eos
  tm := ⟨2026, 1, 1, 0, 0, 0⟩
  now := 0

/-- A source that runs and does not record. -/
def streaming : Source := { Source.new .zero with running := true }

lemma recordStart_smoothly {msg : Json} {file : Bytes} (hne : file ≠ [])
    (hvalue : msg.value (ascii "filename") (nextName recDir recFormat smoothly.tm) = .ok file) :
    (recordStart msg smoothly streaming).reply = .ok (fileReply file) ∧
      ∃ rec, (recordStart msg smoothly streaming).source.recorder = some rec ∧
        rec.state = .recording ∧ rec.currentFile = file := by
  have hstart : (newRecorder.start smoothly.recorder streaming.cfg file true).2 = .ok true := rfl
  obtain ⟨hstate, hfile⟩ := Recorder.start_sw_file _ _ _ (r := newRecorder) rfl hstart
  rw [if_neg hne] at hfile
  have hsource : streaming.startRecording smoothly.recorder smoothly.now file =
      ({ streaming with
          recorder := some (newRecorder.start smoothly.recorder streaming.cfg file true).1
          currentFile := file
          recStart := smoothly.now
          recording := true }, .ok true) := rfl
  have hrun : recordStart msg smoothly streaming =
      ⟨{ streaming with
          recorder := some (newRecorder.start smoothly.recorder streaming.cfg file true).1
          currentFile := file
          recStart := smoothly.now
          recording := true }, .ok (fileReply file), none⟩ := by
    rw [recordStart, if_neg (by decide), hvalue]
    simp only [hsource]
  rw [hrun]
  exact ⟨rfl, _, rfl, hstate, hfile⟩

lemma names_of_writes {c : WriteCommand} {msg : Json} (h : WritesRecording location c msg) :
    NamesRecording location c msg := by
  rintro members file rfl hfind
  cases c with
  | recordStart =>
      by_cases hne : file = []
      · exact Or.inl hne
      · refine Or.inr fun path hpath => ?_
        obtain ⟨hreply, rec, hrec, hstate, hfile⟩ :=
          recordStart_smoothly hne (Json.value_of_find hfind)
        have hopened : (WriteCommand.recordStart.run location (.object members) smoothly true
            streaming).opened = some path := by
          simp only [WriteCommand.run, hrec, Option.bind_some, openedBy, hstate, if_true, hfile,
            hpath]
        obtain ⟨path', hpath', hgood⟩ := h smoothly true streaming (fileReply file)
          (fun rec' hrec' _ => by
            obtain rfl : rec = rec' := Option.some.inj (hrec.symm.trans hrec')
            rw [hfile, hpath]
            rfl) hreply ⟨_, rfl, rfl⟩
        rw [hopened] at hpath'
        cases hpath'
        exact hgood
  | snapshot =>
      have hvalue : (Json.object members).value (ascii "filename")
          (nextName recDir snapFormat smoothly.tm) = .ok file := Json.value_of_find hfind
      have hrun : WriteCommand.snapshot.run location (.object members) smoothly true streaming =
          ⟨.ok (fileReply file), none, if cStr file = [] then none else some (cStr file)⟩ := by
        simp only [WriteCommand.run, hvalue, takeSnapshot]
        rfl
      obtain ⟨path, hpath, hgood⟩ := h smoothly true streaming (fileReply file)
        (fun rec hrec _ => by
          rw [hrun] at hrec
          cases hrec) (by rw [hrun]) ⟨_, rfl, rfl⟩
      rw [hrun] at hpath
      dsimp only at hpath
      split_ifs at hpath
      cases hpath
      exact hgood

/-- **The commands write recordings exactly for the names of recordings**, as far as these are
read: neither of them checks the name it is given. -/
theorem writes_recording_iff
    (hplain : ∀ path ≠ [], (∀ b ∈ path, plainByte b = true) → location path = some path)
    (c : WriteCommand) (msg : Json) :
    WritesRecording location c msg ↔ NamesRecording location c msg :=
  ⟨names_of_writes, writes_of_names hplain⟩

end

/-- What `gst_parse_launch` reads from a text of plain bytes. -/
def plainLocation (path : Bytes) : Option Bytes :=
  if path ≠ [] && path.all plainByte then some path else none

lemma plainLocation_of_plain {path : Bytes} (hne : path ≠ [])
    (hpath : ∀ b ∈ path, plainByte b = true) : plainLocation path = some path := by
  refine if_pos ?_
  rw [List.all_eq_true.mpr hpath]
  simpa using hne

/-- A message with a `filename`. -/
def withFilename (file : Bytes) : Json := .object [(ascii "filename", .string file)]

/-- A message that names a recording is carried out as it says. -/
theorem recordStart_writes : WritesRecording plainLocation .recordStart
    (withFilename (ascii "recordings/clip.mp4")) := by
  refine (writes_recording_iff (fun path hne hpath => plainLocation_of_plain hne hpath) _ _).mpr ?_
  intro members file hmsg hfind
  cases hmsg
  cases hfind
  refine Or.inr fun path hpath => ?_
  have hplain : plainLocation (cStr (ascii "recordings/clip.mp4")) =
      some (ascii "recordings/clip.mp4") := by decide
  obtain rfl := Option.some.inj (hplain.symm.trans hpath)
  exact ⟨ascii "clip.mp4", rfl, by decide⟩

/-- `record_start` with the file name of another directory is answered ok and opens that file. -/
theorem recordStart_elsewhere : ¬ ∀ (location : Bytes → Option Bytes),
    (∀ path ≠ [], (∀ b ∈ path, plainByte b = true) → location path = some path) →
      ∀ c msg, WritesRecording location c msg := by
  intro hall
  have hplain : ∀ path ≠ [], (∀ b ∈ path, plainByte b = true) →
      plainLocation path = some path := fun path hne hpath => plainLocation_of_plain hne hpath
  have hnames := names_of_writes
    (hall _ hplain .recordStart (withFilename (ascii "/tmp/clip.mp4")))
  obtain hnil | hgood := hnames _ _ rfl rfl
  · cases hnil
  · obtain ⟨name, hname, -⟩ := hgood (ascii "/tmp/clip.mp4") (by decide)
    have hhead := congrArg List.head? hname
    cases hhead

end RasPiZeroCam
