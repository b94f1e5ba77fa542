import RasPiZeroCam.Record.Recorder

/-!
The pipeline description of a recording, as `gst_parse_launch` reads it: spaces separate its tokens.

* `tokens`, `spaced`: a description split at its spaces, and one written token by token.
  `tokens_spaced` is how the two fit together.
* `Recorder.elements`: the elements and properties of the two pipelines.
  `Recorder.tokens_buildPipelineStr`: a description has these tokens, followed by those of
  `location=` and the path.
* `Recorder.Inert`: a path adds nothing to the description but the location.
  `Recorder.inert_iff`: these are the paths without a space and without a NUL.
* `Recorder.tokens_of_space`: what follows the first space of a path is read as tokens of its own.
* `Recorder.inert_nextFilename`: the names the recorder makes up itself are inert.
-/

namespace RasPiZeroCam

/-! ### Splitting at spaces -/

/-- A text split at its spaces. -/
def tokens (s : Bytes) : List Bytes := s.splitOn 32

/-- Tokens written one after the other, each followed by a space, and the text after the last. -/
def spaced (es : List Bytes) (rest : Bytes) : Bytes := es.foldr (fun e s => e ++ 32 :: s) rest

/-- A token has no space. -/
lemma space_notMem_of_mem_tokens {s e : Bytes} (he : e ∈ tokens s) : (32 : UInt8) ∉ e := by
  induction s generalizing e with
  | nil =>
      rw [tokens, List.splitOn_nil, List.mem_singleton] at he
      simp [he]
  | cons b s ih =>
      rw [tokens, List.splitOn_cons_eq_if_modifyHead] at he
      split_ifs at he with hb
      · obtain rfl | he := List.mem_cons.mp he
        · simp
        · exact ih he
      · -- the byte is put before the first token of the rest
        obtain ⟨first, others, hsplit⟩ :=
          List.exists_cons_of_ne_nil (List.splitOn_ne_nil (32 : UInt8) s)
        rw [hsplit, List.modifyHead_cons] at he
        have hrest : ∀ t ∈ first :: others, (32 : UInt8) ∉ t :=
          fun t ht => ih (by rwa [tokens, hsplit])
        obtain rfl | he := List.mem_cons.mp he
        · have hb' : (32 : UInt8) ≠ b := fun h => hb (by simp [h])
          simp [hb', hrest first List.mem_cons_self]
        · exact hrest e (List.mem_cons_of_mem _ he)

/-- **Tokens without a space are read back**, and then the rest. -/
theorem tokens_spaced {es : List Bytes} (hes : ∀ e ∈ es, (32 : UInt8) ∉ e) (rest : Bytes) :
    tokens (spaced es rest) = es ++ tokens rest := by
  induction es with
  | nil => rfl
  | cons e es ih =>
      obtain ⟨he, hes⟩ := List.forall_mem_cons.mp hes
      have hread : tokens (e ++ 32 :: spaced es rest) = e :: tokens (spaced es rest) :=
        List.splitOn_append_cons_self_of_not_mem he _
      rw [List.cons_append, ← ih hes, ← hread]
      rfl

/-- A byte other than the space comes from the tokens or the rest. -/
lemma mem_spaced {b : UInt8} (hb : b ≠ 32) {es : List Bytes} {rest : Bytes} :
    b ∈ spaced es rest ↔ (∃ e ∈ es, b ∈ e) ∨ b ∈ rest := by
  induction es with
  | nil => simp [spaced]
  | cons e es ih =>
      have hstep : b ∈ spaced (e :: es) rest ↔ b ∈ e ∨ b ∈ spaced es rest := by
        simp [spaced, hb]
      rw [hstep, ih]
      simp [or_assoc]

/-- A text of visible characters: neither a space nor a NUL. -/
def Visible (s : Bytes) : Prop := ∀ b ∈ s, 33 ≤ b

instance (s : Bytes) : Decidable (Visible s) := List.decidableBAll (33 ≤ ·) s

lemma Visible.append {s t : Bytes} (hs : Visible s) (ht : Visible t) : Visible (s ++ t) :=
  List.forall_mem_append.mpr ⟨hs, ht⟩

/-- A literal is visible when its characters are; checked without evaluating the literal. -/
lemma visible_ofList {l : List Char} (h : l.all fun c => 33 ≤ UInt8.ofNat c.toNat) :
    Visible (ascii (String.ofList l)) := by
  rw [ascii, String.toList_ofList]
  intro b hb
  obtain ⟨c, hc, rfl⟩ := List.mem_map.mp hb
  exact of_decide_eq_true (List.all_eq_true.mp h c hc)

lemma visible_of_digits {s : Bytes} (h : ∀ b ∈ s, 48 ≤ b ∧ b ≤ 57) : Visible s :=
  fun b hb => UInt8.le_trans (show (33 : UInt8) ≤ 48 by decide) (h b hb).1

lemma visible_decimal (n : ℕ) : Visible (decimal n) :=
  visible_of_digits fun _ => digit_of_mem_decimal

lemma visible_pad2 (n : ℕ) : Visible (pad2 n) :=
  visible_of_digits fun _ => digit_of_mem_pad2

lemma Visible.space_notMem {s : Bytes} (h : Visible s) : (32 : UInt8) ∉ s :=
  fun hs => absurd (h 32 hs) (by decide)

lemma Visible.zero_notMem {s : Bytes} (h : Visible s) : (0 : UInt8) ∉ s :=
  fun hs => absurd (h 0 hs) (by decide)

namespace Recorder

/-! ### The description -/

/-- The size and the frame rate in the caps. -/
def sizeCaps (cfg : ResolutionConfig) : Bytes :=
  ascii ",width=" ++ decimal cfg.width.toNat ++ ascii ",height=" ++ decimal cfg.height.toNat
    ++ ascii ",framerate=" ++ decimal cfg.fps.toNat ++ ascii "/1"

/-- The elements and properties of the software and of the hardware pipeline, up to `location`. -/
def elements (swEncoder : Bool) (cfg : ResolutionConfig) : List Bytes :=
  if swEncoder then
    [ascii "appsrc", ascii "name=src", ascii "format=time", ascii "is-live=true",
      ascii "block=false", ascii "caps=video/x-raw,format=NV12" ++ sizeCaps cfg,
      ascii "!", ascii "videoconvert",
      ascii "!", ascii "queue", ascii "max-size-buffers=4", ascii "leaky=downstream",
      ascii "!", ascii "openh264enc", ascii "bitrate=" ++ decimal (cfg.bitrateKbps * 1000).toNat,
      ascii "multi-thread=2", ascii "scene-change-detection=true",
      ascii "!", ascii "h264parse", ascii "config-interval=-1",
      ascii "!", ascii "mp4mux",
      ascii "!", ascii "filesink", ascii "name=sink", ascii "sync=false"]
  else
    [ascii "appsrc", ascii "name=src", ascii "format=time", ascii "is-live=true",
      ascii "block=false",
      ascii "caps=video/x-h264" ++ ascii ",stream-format=byte-stream" ++ ascii ",alignment=au"
        ++ sizeCaps cfg,
      ascii "!", ascii "h264parse",
      ascii "!", ascii "mp4mux",
      ascii "!", ascii "filesink", ascii "name=sink", ascii "sync=false"]

/-- The property that names the file. -/
def location (path : Bytes) : Bytes := ascii "location=" ++ path

/-- A description is its elements and the location, separated by spaces. -/
lemma buildPipelineStr_eq_spaced (r : Recorder) (cfg : ResolutionConfig) (path : Bytes) :
    r.buildPipelineStr cfg path = spaced (elements r.swEncoder cfg) (location path) := by
  have hsrc : ascii "appsrc name=src format=time is-live=true block=false"
      = ascii "appsrc" ++ 32 :: (ascii "name=src" ++ 32 :: (ascii "format=time"
        ++ 32 :: (ascii "is-live=true" ++ 32 :: ascii "block=false"))) := by decide
  have hsink : ascii " ! filesink name=sink sync=false location="
      = 32 :: (ascii "!" ++ 32 :: (ascii "filesink" ++ 32 :: (ascii "name=sink"
        ++ 32 :: (ascii "sync=false" ++ 32 :: ascii "location=")))) := by decide
  cases hsw : r.swEncoder
  all_goals
    simp only [buildPipelineStr, elements, sizeCaps, spaced, location, hsw, if_true, if_false,
      Bool.false_eq_true, List.foldr_cons, List.foldr_nil, List.append_assoc, hsrc, hsink,
      List.cons_append]
    rfl

lemma visible_sizeCaps (cfg : ResolutionConfig) : Visible (sizeCaps cfg) := by
  have hwidth := (show Visible (ascii ",width=") from visible_ofList (by decide)).append
    (visible_decimal cfg.width.toNat)
  have hheight := (hwidth.append (show Visible (ascii ",height=") from
    visible_ofList (by decide))).append (visible_decimal cfg.height.toNat)
  have hrate := (hheight.append (show Visible (ascii ",framerate=") from
    visible_ofList (by decide))).append (visible_decimal cfg.fps.toNat)
  exact hrate.append (visible_ofList (by decide))

lemma visible_elements (swEncoder : Bool) (cfg : ResolutionConfig) :
    ∀ e ∈ elements swEncoder cfg, Visible e := by
  have hraw : Visible (ascii "caps=video/x-raw,format=NV12" ++ sizeCaps cfg) :=
    .append (visible_ofList (by decide)) (visible_sizeCaps cfg)
  have hh264 : Visible (ascii "caps=video/x-h264" ++ ascii ",stream-format=byte-stream"
      ++ ascii ",alignment=au") :=
    .append (.append (visible_ofList (by decide)) (visible_ofList (by decide)))
      (visible_ofList (by decide))
  have hbitrate : Visible (ascii "bitrate=" ++ decimal (cfg.bitrateKbps * 1000).toNat) :=
    .append (visible_ofList (by decide)) (visible_decimal _)
  cases swEncoder
  all_goals
    simp only [elements, if_true, if_false, Bool.false_eq_true, List.forall_mem_cons, hraw,
      hbitrate, hh264.append (visible_sizeCaps cfg), List.not_mem_nil, IsEmpty.forall_iff,
      implies_true, and_true, true_and]
    and_intros
    all_goals exact visible_ofList (by decide)

/-- **The tokens of a description**: those of its pipeline, and the tokens of the location. -/
theorem tokens_buildPipelineStr (r : Recorder) (cfg : ResolutionConfig) (path : Bytes) :
    tokens (r.buildPipelineStr cfg path)
      = elements r.swEncoder cfg ++ tokens (location path) := by
  rw [buildPipelineStr_eq_spaced]
  exact tokens_spaced (fun e he => (visible_elements _ cfg e he).space_notMem) _

/-- The description is handed over whole when the path has no NUL. -/
lemma zero_mem_buildPipelineStr_iff (r : Recorder) (cfg : ResolutionConfig) (path : Bytes) :
    0 ∈ r.buildPipelineStr cfg path ↔ 0 ∈ path := by
  have helements : ¬ ∃ e ∈ elements r.swEncoder cfg, (0 : UInt8) ∈ e :=
    fun ⟨e, he, h0⟩ => (visible_elements _ cfg e he).zero_notMem h0
  have hlocation : (0 : UInt8) ∈ location path ↔ 0 ∈ path := by
    rw [location, List.mem_append]
    exact or_iff_right (by decide)
  rw [buildPipelineStr_eq_spaced, mem_spaced (by decide), or_iff_right helements, hlocation]

/-- The path adds nothing to the description but the location, and `gst_parse_launch` is handed the
description whole. -/
structure Inert (r : Recorder) (cfg : ResolutionConfig) (path : Bytes) : Prop where
  tokens : tokens (r.buildPipelineStr cfg path) = elements r.swEncoder cfg ++ [location path]
  whole : cStr (r.buildPipelineStr cfg path) = r.buildPipelineStr cfg path

/-- The location is one token when the path has no space. -/
lemma tokens_location_iff (path : Bytes) :
    tokens (location path) = [location path] ↔ (32 : UInt8) ∉ path := by
  have hspace : (32 : UInt8) ∈ location path ↔ 32 ∈ path := by
    rw [location, List.mem_append]
    exact or_iff_right (by decide)
  rw [← not_congr hspace]
  constructor
  · intro htokens
    exact space_notMem_of_mem_tokens (htokens ▸ List.mem_singleton_self _)
  · exact List.splitOn_eq_singleton

/-- **Which paths are inert**: those without a space and without a NUL. -/
theorem inert_iff (r : Recorder) (cfg : ResolutionConfig) (path : Bytes) :
    r.Inert cfg path ↔ (32 : UInt8) ∉ path ∧ (0 : UInt8) ∉ path := by
  have htokens : tokens (r.buildPipelineStr cfg path) = elements r.swEncoder cfg ++ [location path]
      ↔ (32 : UInt8) ∉ path := by
    rw [tokens_buildPipelineStr, List.append_cancel_left_eq, tokens_location_iff]
  have hwhole : cStr (r.buildPipelineStr cfg path) = r.buildPipelineStr cfg path
      ↔ (0 : UInt8) ∉ path := by
    rw [cStr_eq_self_iff, zero_mem_buildPipelineStr_iff]
  exact ⟨fun h => ⟨htokens.mp h.tokens, hwhole.mp h.whole⟩,
    fun h => ⟨htokens.mpr h.1, hwhole.mpr h.2⟩⟩

/-- **A space in a path ends the location**: what follows it is read as tokens of its own. -/
theorem tokens_of_space (r : Recorder) (cfg : ResolutionConfig) {file : Bytes}
    (hfile : (32 : UInt8) ∉ file) (more : Bytes) :
    tokens (r.buildPipelineStr cfg (file ++ 32 :: more))
      = elements r.swEncoder cfg ++ location file :: tokens more := by
  have hlocation : (32 : UInt8) ∉ location file := by
    rw [location, List.mem_append]
    exact not_or.mpr ⟨by decide, hfile⟩
  have hsplit : tokens (location file ++ 32 :: more) = location file :: tokens more :=
    List.splitOn_append_cons_self_of_not_mem hlocation more
  rw [tokens_buildPipelineStr, location, ← List.append_assoc]
  exact congrArg _ hsplit

/-- A recorder in software mode. -/
def swRecorder : Recorder := { new (ascii "/rec") with swEncoder := true }

/-- A file name with a space gives `filesink` a second location. -/
theorem second_location :
    tokens (swRecorder.buildPipelineStr (configOf .low) (ascii "a.mp4 location=/tmp/b"))
      = elements true (configOf .low) ++ [location (ascii "a.mp4"), location (ascii "/tmp/b")] ∧
    ¬ swRecorder.Inert (configOf .low) (ascii "a.mp4 location=/tmp/b") := by
  have htokens : tokens (swRecorder.buildPipelineStr (configOf .low)
      (ascii "a.mp4" ++ 32 :: ascii "location=/tmp/b"))
      = elements true (configOf .low) ++ location (ascii "a.mp4") :: tokens
        (ascii "location=/tmp/b") :=
    tokens_of_space swRecorder (configOf .low) (by decide) (ascii "location=/tmp/b")
  refine ⟨htokens, fun hinert => ?_⟩
  have hsame := List.append_cancel_left (htokens.symm.trans hinert.tokens)
  exact absurd (congrArg List.length hsame) (by decide)

/-! ### The names of the recorder itself -/

lemma visible_strftime_rec (tm : Tm) :
    Visible (strftime (ascii "rec_%Y%m%d_%H%M%S.mp4") tm) := by
  have hdate := ((visible_decimal tm.year).append (visible_pad2 tm.mon)).append
    (visible_pad2 tm.mday)
  have htime := ((visible_pad2 tm.hour).append (visible_pad2 tm.min)).append
    (visible_pad2 tm.sec)
  have hname := ((((show Visible (ascii "rec_") by decide).append hdate).append
    (show Visible (ascii "_") by decide)).append htime).append
    (show Visible (ascii ".mp4") by decide)
  have heq : strftime (ascii "rec_%Y%m%d_%H%M%S.mp4") tm
      = ascii "rec_" ++ (decimal tm.year ++ pad2 tm.mon ++ pad2 tm.mday) ++ ascii "_"
        ++ (pad2 tm.hour ++ pad2 tm.min ++ pad2 tm.sec) ++ ascii ".mp4" := by
    simp only [List.append_assoc]
    rfl
  rw [heq]
  exact hname

/-- **A recording without a client's name is inert**, when the recordings directory is. -/
theorem inert_nextFilename (r : Recorder) (cfg : ResolutionConfig) (tm : Tm)
    (hdir : Visible r.recordingsDir) : r.Inert cfg (r.nextFilename tm) := by
  have hname : Visible (r.nextFilename tm) :=
    (hdir.append (by decide)).append (visible_strftime_rec tm)
  exact (inert_iff r cfg _).mpr ⟨hname.space_notMem, hname.zero_notMem⟩

end Recorder

end RasPiZeroCam
