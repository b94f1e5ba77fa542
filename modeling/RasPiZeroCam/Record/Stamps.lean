import RasPiZeroCam.Record.PushFrame

/-!
Presentation time stamps of a recording: the drain thread stamps each NV12 sample with its PTS, or
with the steady clock when it has none, and `push_frame` counts from the first of them.

* `Sample.frame`: the frame that `rec_drain_thread_fn` makes of a sample.  `Recorder.feed`: a
  recorder fed with samples.
* `GoodStamps`: the stamps start at zero and never decrease, and no difference is negative.
* `stamps_feed`: the stamps of a recording are the samples' times, counted from the first.
* `SwitchesUp`: where two samples in a row carry stamps of different kinds, the second is not below
  the first.  `goodStamps_iff`: this is when the stamps are good.
* `goodStamps_of_one_base`: they are when all samples have a PTS, or none has.
-/

namespace RasPiZeroCam

/-- `GST_CLOCK_TIME_NONE`. -/
def gstClockTimeNone : GstClockTime := BitVec.allOnes 64

/-- A sample of the tee: its memory, its PTS, and what the steady clock reads when it is drained, in
nanoseconds. -/
structure Sample where
  data : Bytes
  pts : GstClockTime
  now : GstClockTime
  deriving DecidableEq

namespace Sample

/-- `GST_CLOCK_TIME_IS_VALID(pts)`. -/
def valid (s : Sample) : Bool := s.pts ≠ gstClockTimeNone

/-- The frame that `rec_drain_thread_fn` wraps a sample in.  `std::chrono::nanoseconds` counts in a
signed 64-bit number. -/
def frame (s : Sample) : FrameView where
  data := s.data
  dataSize := s.data.length
  timestamp := (if s.valid then s.pts else s.now).toInt
  dmaFd := -1

end Sample

namespace Recorder

/-- Push the samples one after the other. -/
def feed : List Sample → Recorder → Recorder × List Pushed
  | [], r => (r, [])
  | s :: samples, r =>
      let (r, p) := r.pushFrame s.frame
      let (r, ps) := r.feed samples
      (r, p :: ps)

end Recorder

/-- The difference that `push_frame` computes, and the PTS it puts on the buffer. -/
def Pushed.stamp : Pushed → Option (ℤ × GstClockTime)
  | .raw since buf => some (since, buf.pts)
  | _ => none

/-- The stamps start at zero and never decrease, as unsigned numbers, and no difference is
negative. -/
structure GoodStamps (stamps : List (ℤ × GstClockTime)) : Prop where
  zero : ∀ p ∈ stamps.head?, p.2 = 0
  ordered : stamps.Pairwise fun p q => p.2 ≤ q.2
  nonneg : ∀ p ∈ stamps, 0 ≤ p.1

/-- The PTS of the samples that have one do not decrease, nor does the clock that the others are
stamped with. -/
structure Clocked (samples : List Sample) : Prop where
  pts : (samples.filter (·.valid)).Pairwise fun a b => a.pts ≤ b.pts
  now : (samples.filter (!·.valid)).Pairwise fun a b => a.now.toInt ≤ b.now.toInt

/-! ### The time a sample carries -/

/-- What a sample's time counts: a PTS the time since the pipeline's start, unless it is from
`2 ^ 63` on and so negative as a signed number, and the clock the time since its epoch. -/
inductive StampBase where
  | running (negative : Bool)
  | clock
  deriving DecidableEq

namespace Sample

def base (s : Sample) : StampBase := if s.valid then .running s.pts.msb else .clock

/-- The time that a sample carries, in microseconds. -/
def micros (s : Sample) : ℤ := if s.valid then s.pts.toInt.tdiv 1000 else s.now.toInt.tdiv 1000

lemma tsUs_frame (s : Sample) : s.frame.tsUs = s.micros := by
  rw [FrameView.tsUs, frame, micros]
  split_ifs <;> rfl

lemma micros_bounds (s : Sample) : -9223372036854775 ≤ s.micros ∧ s.micros ≤ 9223372036854775 := by
  have hbound (x : GstClockTime) :
      -9223372036854775 ≤ x.toInt.tdiv 1000 ∧ x.toInt.tdiv 1000 ≤ 9223372036854775 := by
    have hlo := BitVec.le_toInt x
    have hhi := BitVec.toInt_le (x := x)
    exact ⟨Int.tdiv_le_tdiv (a := -2 ^ 63) (by decide) hlo,
      Int.tdiv_le_tdiv (b := 2 ^ 63 - 1) (by decide) hhi⟩
  rw [micros]
  split_ifs
  · exact hbound s.pts
  · exact hbound s.now

end Sample

/-- If two samples carry stamps of different kinds, the second is not below the first. -/
def SwitchesUp (a b : Sample) : Prop := a.base ≠ b.base → a.micros ≤ b.micros

/-- Times of one base do not decrease. -/
lemma Clocked.micros_le {samples : List Sample} (h : Clocked samples) :
    samples.Pairwise fun a b => a.base = b.base → a.micros ≤ b.micros := by
  have hpts := List.pairwise_filter.mp h.pts
  have hnow := List.pairwise_filter.mp h.now
  refine (hpts.and hnow).imp ?_
  intro a b ⟨hpts, hnow⟩ hbase
  cases ha : a.valid <;> cases hb : b.valid <;> simp only [Sample.base, ha, hb, if_true, if_false,
    Bool.false_eq_true, reduceCtorEq, StampBase.running.injEq] at hbase
  · have hle : a.now.toInt ≤ b.now.toInt := hnow (by simp [ha]) (by simp [hb])
    simpa [Sample.micros, ha, hb] using Int.tdiv_le_tdiv (by decide) hle
  · -- two stamps on the same side of `2 ^ 63`
    have hle : a.pts ≤ b.pts := hpts ha hb
    have hsigned : a.pts.toInt ≤ b.pts.toInt := by
      have hle := BitVec.le_def.mp hle
      rw [BitVec.toInt_eq_msb_cond, BitVec.toInt_eq_msb_cond, hbase]
      split_ifs <;> omega
    simpa [Sample.micros, ha, hb] using Int.tdiv_le_tdiv (by decide) hsigned

/-- Where the bases do not switch downwards, no time does. -/
lemma Clocked.pairwise_iff {samples : List Sample} (h : Clocked samples) :
    samples.Pairwise (fun a b => a.micros ≤ b.micros) ↔ samples.IsChain SwitchesUp := by
  constructor
  · intro hle
    have hup : samples.Pairwise SwitchesUp := hle.imp <| by
      intro a b hab _
      exact hab
    exact hup.isChain
  · intro hswitch
    have hchain : samples.IsChain fun a b => a.micros ≤ b.micros := by
      refine List.isChain_iff_forall_rel_of_append_cons_cons.mpr fun a b before after heq => ?_
      by_cases hbase : a.base = b.base
      · exact List.isChain_iff_forall_rel_of_append_cons_cons.mp h.micros_le.isChain heq hbase
      · exact List.isChain_iff_forall_rel_of_append_cons_cons.mp hswitch heq hbase
    exact List.isChain_iff_pairwise.mp hchain

/-! ### The stamps of a recording -/

/-- The stamp of a time, counted from a base. -/
def stampFrom (base micros : ℤ) : ℤ × GstClockTime :=
  (micros - base, BitVec.ofInt 64 ((micros - base) * 1000))

/-- A difference of two times, in nanoseconds, fits into a `GstClockTime` when it is not
negative. -/
lemma toNat_stampFrom {base micros : ℤ} (hle : base ≤ micros) (hbase : -9223372036854775 ≤ base)
    (hmicros : micros ≤ 9223372036854775) :
    ((stampFrom base micros).2.toNat : ℤ) = (micros - base) * 1000 := by
  rw [stampFrom, BitVec.toNat_ofInt, Int.toNat_of_nonneg (by omega)]
  exact Int.emod_eq_of_lt (by omega) (by omega)

namespace Recorder

/-- A software recording that has its `appsrc`. -/
structure Recording (r : Recorder) : Prop where
  state : r.state = .recording
  swEncoder : r.swEncoder = true
  appsrc : r.appsrc = true

lemma pushFrame_sample {r : Recorder} (h : r.Recording) (s : Sample) :
    (r.pushFrame s.frame).1.Recording ∧ (r.pushFrame s.frame).1.firstOutput = false ∧
    (r.pushFrame s.frame).1.baseTsUs = (if r.firstOutput then s.micros else r.baseTsUs) ∧
    (r.pushFrame s.frame).2.stamp
      = some (stampFrom (if r.firstOutput then s.micros else r.baseTsUs) s.micros) := by
  have hfd : s.frame.dmaFd < 0 := by simp [Sample.frame]
  have hpush := s.tsUs_frame
  simp only [pushFrame, h.state, h.swEncoder, h.appsrc, hfd, ne_eq, not_true_eq_false, if_true,
    if_false, Bool.not_true, Bool.false_and, Bool.false_eq_true, hpush]
  exact ⟨⟨rfl, rfl, rfl⟩, trivial, trivial, rfl⟩

/-- Once the base is set, every sample is stamped from it. -/
lemma stamps_feed_of_base {r : Recorder} (h : r.Recording) (hbase : r.firstOutput = false)
    (samples : List Sample) :
    (r.feed samples).2.map Pushed.stamp
      = samples.map fun s => some (stampFrom r.baseTsUs s.micros) := by
  induction samples generalizing r with
  | nil => rfl
  | cons s samples ih =>
      obtain ⟨hrec, hfirst, hts, hstamp⟩ := pushFrame_sample h s
      simp only [hbase, Bool.false_eq_true, if_false] at hts hstamp
      have hrest := ih hrec hfirst
      rw [hts] at hrest
      rw [feed, List.map_cons, List.map_cons, hstamp, hrest]

/-- **The stamps of a recording**: every sample is pushed, and stamped from the time of the
first. -/
theorem stamps_feed {r : Recorder} (h : r.Recording) (hfirst : r.firstOutput = true) (s : Sample)
    (samples : List Sample) :
    (r.feed (s :: samples)).2.map Pushed.stamp
      = (s :: samples).map fun t => some (stampFrom s.micros t.micros) := by
  obtain ⟨hrec, hbase, hts, hstamp⟩ := pushFrame_sample h s
  simp only [hfirst, if_true] at hts hstamp
  have hrest := stamps_feed_of_base hrec hbase samples
  rw [hts] at hrest
  rw [feed, List.map_cons, List.map_cons, hstamp, hrest]

/-- A recording that has just started in software mode has no base yet. -/
lemma start_recording {r : Recorder} {o : RecorderOutcome} {cfg : ResolutionConfig}
    {filename : Bytes} (hstart : (r.start o cfg filename true).2 = .ok true) :
    (r.start o cfg filename true).1.Recording ∧
      (r.start o cfg filename true).1.firstOutput = true := by
  have hidle : r.state = .idle := by
    by_contra hstate
    simp [start, hstate] at hstart
  obtain ⟨hdir, hparse, happsrc, hbus, hplaying⟩ := (start_ok_iff o cfg filename hidle).mp hstart
  simp only [start, hidle, hdir, launch, hparse, happsrc, hbus, hplaying, ne_eq, not_true_eq_false,
    if_true, if_false, Bool.not_true, Bool.or_self, Bool.false_eq_true]
  exact ⟨⟨rfl, rfl, rfl⟩, trivial⟩

end Recorder

/-- Stamps from the first sample's time are good when the times do not decrease. -/
lemma goodStamps_stampFrom_iff (s : Sample) (samples : List Sample) :
    GoodStamps ((s :: samples).map fun t => stampFrom s.micros t.micros) ↔
      (s :: samples).Pairwise fun a b => a.micros ≤ b.micros := by
  have hnat {t : Sample} (ht : s.micros ≤ t.micros) :
      ((stampFrom s.micros t.micros).2.toNat : ℤ) = (t.micros - s.micros) * 1000 :=
    toNat_stampFrom ht s.micros_bounds.1 t.micros_bounds.2
  have hfirst : (stampFrom s.micros s.micros).2 = 0 := by
    rw [stampFrom, sub_self, zero_mul]
    rfl
  constructor
  · rintro ⟨-, hordered, hnonneg⟩
    have hge {t : Sample} (ht : t ∈ s :: samples) : s.micros ≤ t.micros :=
      sub_nonneg.mp (hnonneg _ (List.mem_map_of_mem ht))
    refine (List.pairwise_map.mp hordered).imp_of_mem ?_
    intro a b ha hb hab
    have hab := BitVec.le_def.mp hab
    have ha := hnat (hge ha)
    have hb := hnat (hge hb)
    omega
  · intro hle
    have hge {t : Sample} (ht : t ∈ s :: samples) : s.micros ≤ t.micros := by
      obtain rfl | ht := List.mem_cons.mp ht
      · exact le_rfl
      · exact (List.pairwise_cons.mp hle).1 t ht
    refine ⟨?_, List.pairwise_map.mpr (hle.imp_of_mem ?_), ?_⟩
    · intro p hp
      obtain rfl : stampFrom s.micros s.micros = p := by simpa using hp
      exact hfirst
    · intro a b ha hb hab
      have ha := hnat (hge ha)
      have hb := hnat (hge hb)
      exact BitVec.le_def.mpr (by omega)
    · intro p hp
      obtain ⟨t, ht, rfl⟩ := List.mem_map.mp hp
      exact sub_nonneg.mpr (hge ht)

/-- **When the stamps are good**: exactly when no sample switches the base of its time downwards. -/
theorem goodStamps_iff {r : Recorder} {o : RecorderOutcome} {cfg : ResolutionConfig}
    {filename : Bytes} (hstart : (r.start o cfg filename true).2 = .ok true) {samples : List Sample}
    (hclocked : Clocked samples) :
    (∃ stamps, ((r.start o cfg filename true).1.feed samples).2.map Pushed.stamp
        = stamps.map some ∧ GoodStamps stamps) ↔ samples.IsChain SwitchesUp := by
  obtain ⟨hrec, hfirst⟩ := Recorder.start_recording hstart
  generalize (r.start o cfg filename true).1 = started at hrec hfirst
  rw [← hclocked.pairwise_iff]
  cases samples with
  | nil => exact iff_of_true ⟨[], rfl, by simp, .nil, by simp⟩ .nil
  | cons s samples =>
      rw [← goodStamps_stampFrom_iff, Recorder.stamps_feed hrec hfirst]
      have hmap : ((s :: samples).map fun t => some (stampFrom s.micros t.micros))
          = ((s :: samples).map fun t => stampFrom s.micros t.micros).map some := by
        rw [List.map_map]
        rfl
      rw [hmap]
      constructor
      · rintro ⟨stamps, heq, hgood⟩
        exact List.map_injective_iff.mpr (Option.some_injective _) heq ▸ hgood
      · intro hgood
        exact ⟨_, rfl, hgood⟩

/-- Two frames with a PTS. -/
theorem goodStamps_iff_two :
    (∃ stamps, (((Recorder.new (ascii "recordings")).start Recorder.allWell (configOf .medium)
        (ascii "a.mp4") true).1.feed [⟨[], 0, 0⟩, ⟨[], 33000000, 33000000⟩]).2.map Pushed.stamp
        = stamps.map some ∧ GoodStamps stamps) ↔
      [(⟨[], 0, 0⟩ : Sample), ⟨[], 33000000, 33000000⟩].IsChain SwitchesUp :=
  goodStamps_iff (by decide) ⟨by decide, by decide⟩

/-- **Stamps of one base are good**: all samples have a PTS below `2 ^ 63`, or none has a PTS. -/
theorem goodStamps_of_one_base {samples : List Sample} {base : StampBase}
    (hbase : ∀ s ∈ samples, s.base = base) : samples.IsChain SwitchesUp := by
  have hpair : samples.Pairwise SwitchesUp :=
    List.pairwise_of_forall_mem_list fun a ha b hb hne =>
      absurd ((hbase a ha).trans (hbase b hb).symm) hne
  exact hpair.isChain

/-- A sample without a PTS and, a frame later, one with it: the second stamp is wrapped. -/
theorem stamp_wraps :
    Clocked [⟨[], gstClockTimeNone, 1000000000000⟩, ⟨[], 33000000, 1000033000000⟩] ∧
    (((Recorder.new (ascii "recordings")).start Recorder.allWell (configOf .medium)
        (ascii "a.mp4") true).1.feed
        [⟨[], gstClockTimeNone, 1000000000000⟩, ⟨[], 33000000, 1000033000000⟩]).2.map Pushed.stamp
      = [some (0, 0), some (-999967000, 18446743073742551616)] ∧
    ¬ GoodStamps [(0, 0), (-999967000, 18446743073742551616)] := by
  refine ⟨⟨by decide, by decide⟩, by decide, fun hgood => ?_⟩
  have hnonneg := hgood.nonneg (-999967000, 18446743073742551616) (by simp)
  exact absurd hnonneg (by decide)

end RasPiZeroCam
