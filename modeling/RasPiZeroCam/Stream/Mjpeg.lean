import RasPiZeroCam.Text
import RasPiZeroCam.Transition.Latest
import RasPiZeroCam.Transition.Pool

/-!
`MjpegServer`: the latest JPEG with its sequence number, and the handlers of the stream clients that
wait for it.

* `Mjpeg`, `Mjpeg.onJpegReady`: the shared JPEG, and its publication.
* `StreamClient`, `handleStream`: a handler of `/stream.mjpeg`, which waits for a JPEG and writes a
  part to its client.  `mjpeg` is the pool of all handlers.
* `StreamKept`: a client gets some of the published JPEGs, in order, each at most once, each whole
  and the latest when it was taken.
* `stream_kept`: it holds along every run, by the rules of `Transition.Follows`.
-/

namespace RasPiZeroCam

open Transition Pool

/-- The members of `MjpegServer` that the handlers share. -/
structure Mjpeg where
  latestJpeg : Bytes
  latestSeq : ℕ                        -- a `uint64_t`
  clientCount : ℤ
  published : List Bytes               -- what `on_jpeg_ready` was called with

/-- `on_jpeg_ready(data, size)`, under `jpeg_mutex_`. -/
def Mjpeg.onJpegReady (jpeg : Bytes) (s : Mjpeg) : Mjpeg where
  latestJpeg := jpeg
  latestSeq := (s.latestSeq + 1) % 2 ^ 64
  clientCount := s.clientCount
  published := s.published ++ [jpeg]

/-- The end of `wait_for_jpeg(current_seq, ..)`, under `jpeg_mutex_`: it sees a later JPEG, or its
time is over. -/
def Mjpeg.waitForJpeg (currentSeq : ℕ) (s : Mjpeg) : Bytes × ℕ :=
  if s.latestSeq ≤ currentSeq then ([], currentSeq) else (s.latestJpeg, s.latestSeq)

/-- The header of a part. -/
def partHeader (jpeg : Bytes) : Bytes :=
  ascii "--mjpeg\r\nContent-Type: image/jpeg\r\nContent-Length: " ++ decimal jpeg.length ++
    ascii "\r\n\r\n"

/-- What ends a part. -/
def partEnd : Bytes := ascii "\r\n"

/-- A part of the multipart body. -/
def part (jpeg : Bytes) : Bytes := partHeader jpeg ++ jpeg ++ partEnd

/-- Where the handler of a stream is. -/
inductive StreamPc where
  | connect
  | wait                               -- in `wait_for_jpeg`
  | header
  | body
  | ending
  | closed
  deriving DecidableEq

/-- The handler of a client. -/
structure StreamClient where
  pc : StreamPc
  prevSeq : ℕ
  jpeg : Bytes
  written : Bytes                      -- what the client received
  taken : List (ℕ × Bytes)             -- its JPEGs, each with the number of those published by then

/-- What happens to a handler. -/
inductive StreamAct where
  | run
  | fail (n : ℕ)                       -- `sink.write` fails, after the first `n` bytes
  | close                              -- the connection is closed

namespace StreamClient

/-- A connection that is not open yet. -/
def start : StreamClient where
  pc := .connect
  prevSeq := 0
  jpeg := []
  written := []
  taken := []

/-- What a write still has to send, while it is the client's turn to write. -/
def chunk (cl : StreamClient) : Bytes :=
  match cl.pc with
  | .header => partHeader cl.jpeg
  | .body => cl.jpeg
  | .ending => partEnd
  | _ => []

/-- `sink.write(..)`, and the handler goes on to `p`. -/
def write (p : StreamPc) (cl : StreamClient) : StreamClient :=
  { cl with
    pc := p
    written := cl.written ++ cl.chunk }

end StreamClient

/-- The release of the content provider. -/
def Mjpeg.release (s : Mjpeg) : Mjpeg := { s with clientCount := s.clientCount - 1 }

/-- A step of `handle_stream` and of the content provider it installs. -/
def handleStream (a : StreamAct) (cl : StreamClient) (s : Mjpeg) :
    Option (Mjpeg × StreamClient) :=
  match cl.pc, a with
  | .connect, .run =>
      some ({ s with clientCount := s.clientCount + 1 }, { cl with
        pc := .wait
        prevSeq := 0 })
  | .wait, .run =>
      match s.waitForJpeg cl.prevSeq with
      | ([], _) => some (s, cl)        -- the time-out: keep alive
      | (jpeg, seq) =>
          some (s, { cl with
            pc := .header
            prevSeq := seq
            jpeg := jpeg
            taken := cl.taken ++ [(s.published.length, jpeg)] })
  | .wait, .close => some (s.release, { cl with pc := .closed })
  | .header, .run => some (s, cl.write .body)
  | .body, .run => some (s, cl.write .ending)
  | .ending, .run => some (s, cl.write .wait)
  | .header, .fail n | .body, .fail n | .ending, .fail n =>
      some (s.release, { cl with
        pc := .closed
        written := cl.written ++ cl.chunk.take n })
  | _, _ => none

/-- The handlers of the stream clients, and the calls of `on_jpeg_ready`. -/
def mjpeg : Pool Mjpeg StreamClient StreamAct Bytes where
  init s := s.latestJpeg = [] ∧ s.latestSeq = 0 ∧ s.clientCount = 0 ∧ s.published = []
  start := .start
  act := handleStream
  env jpeg s := some (s.onJpegReady jpeg)

/-- **What a client gets**: JPEGs in the order of their publication, none twice, each the latest
when it was taken, and their parts one after the other; the last one is cut short only while it is
being written, or when the connection was closed. -/
structure StreamKept (s : Mjpeg) (cl : StreamClient) : Prop where
  taken : Follows s.published cl.taken
  subsequence : (cl.taken.map Prod.snd).Sublist s.published
  written : cl.written <+: cl.taken.flatMap fun t => part t.2
  complete : cl.pc = .wait → cl.written = cl.taken.flatMap fun t => part t.2

/-! ### The invariant -/

/-- The shared JPEG is the one published last. -/
structure Mjpeg.Sound (s : Mjpeg) : Prop where
  seq : s.latestSeq = s.published.length % 2 ^ 64
  jpeg : s.latestJpeg = s.published.getLast?.getD []

/-- What is still to be written of the part in progress. -/
def StreamClient.rest (cl : StreamClient) : Bytes :=
  match cl.pc with
  | .header => part cl.jpeg
  | .body => cl.jpeg ++ partEnd
  | .ending => partEnd
  | _ => []

/-- The invariant of a handler. -/
structure StreamClient.Sound (s : Mjpeg) (cl : StreamClient) : Prop where
  taken : Follows s.published cl.taken
  cursor : ∃ n ≤ s.published.length, cl.prevSeq = n % 2 ^ 64 ∧ ∀ t ∈ cl.taken, t.1 ≤ n
  start : cl.pc = .connect → cl.taken = []
  written : cl.pc ≠ .closed → cl.written ++ cl.rest = cl.taken.flatMap fun t => part t.2
  cut : cl.written <+: cl.taken.flatMap fun t => part t.2

namespace StreamClient

variable {s s' : Mjpeg} {cl cl' : StreamClient} {a : StreamAct}

lemma sound_start (s : Mjpeg) : StreamClient.start.Sound s where
  taken := .nil
  cursor := ⟨0, Nat.zero_le _, rfl, fun _ ht => absurd ht List.not_mem_nil⟩
  start _ := rfl
  written _ := rfl
  cut := List.nil_prefix

/-- A JPEG is published. -/
lemma Sound.publish (h : cl.Sound s) (jpeg : Bytes) : cl.Sound (s.onJpegReady jpeg) where
  taken := h.taken.publish jpeg
  cursor := by
    obtain ⟨n, hn, hseq, htaken⟩ := h.cursor
    refine ⟨n, ?_, hseq, htaken⟩
    rw [Mjpeg.onJpegReady, List.length_append]
    exact Nat.le_add_right_of_le hn
  start := h.start
  written := h.written
  cut := h.cut

/-- Handlers are only concerned with what is published. -/
lemma Sound.of_published (h : cl.Sound s) (hpub : s'.published = s.published) : cl.Sound s' where
  taken := hpub ▸ h.taken
  cursor := hpub ▸ h.cursor
  start := h.start
  written := h.written
  cut := h.cut

/-- A piece of the part is written. -/
lemma Sound.write (h : cl.Sound s) {p : StreamPc} (hpc : cl.pc ≠ .closed) (hp : p ≠ .connect)
    (hrest : cl.chunk ++ (cl.write p).rest = cl.rest) : (cl.write p).Sound s where
  taken := h.taken
  cursor := h.cursor
  start hconnect := absurd hconnect hp
  written _ := by
    have hwritten := h.written hpc
    rw [← hrest] at hwritten
    simpa [StreamClient.write, List.append_assoc] using hwritten
  cut := by
    refine ⟨(cl.write p).rest, ?_⟩
    have hwritten := h.written hpc
    rw [← hrest] at hwritten
    simpa [StreamClient.write, List.append_assoc] using hwritten

/-- The write of a piece fails. -/
lemma Sound.fail (h : cl.Sound s) (n : ℕ) (hpc : cl.pc ≠ .closed) (hrest : cl.chunk <+: cl.rest) :
    StreamClient.Sound s.release { cl with
      pc := .closed
      written := cl.written ++ cl.chunk.take n } where
  taken := h.taken
  cursor := h.cursor
  start hconnect := by cases hconnect
  written hne := absurd rfl hne
  cut := by
    rw [← h.written hpc]
    exact List.prefix_append_right_inj _ |>.mpr ((List.take_prefix n _).trans hrest)

/-- A later JPEG is taken. -/
lemma Sound.take (h : cl.Sound s) (hs : s.Sound) (hpc : cl.pc = .wait)
    (hlt : cl.prevSeq < s.latestSeq) :
    StreamClient.Sound s { cl with
      pc := .header
      prevSeq := s.latestSeq
      jpeg := s.latestJpeg
      taken := cl.taken ++ [(s.published.length, s.latestJpeg)] } := by
  obtain ⟨n, hn, hseq, htaken⟩ := h.cursor
  -- other sequence numbers, so other numbers of publications
  have hlater : n < s.published.length := by
    refine lt_of_le_of_ne hn fun heq => ?_
    rw [hseq, hs.seq, heq] at hlt
    exact lt_irrefl _ hlt
  obtain ⟨before, jpeg, hpub⟩ : ∃ before jpeg, s.published = before ++ [jpeg] :=
    ⟨_, _, (List.dropLast_append_getLast
      (List.ne_nil_of_length_pos (Nat.zero_lt_of_lt hlater))).symm⟩
  have hlength : s.published.length = before.length + 1 := by
    rw [hpub, List.length_append, List.length_singleton]
  have hjpeg : s.latestJpeg = jpeg := by
    rw [hs.jpeg, hpub, List.getLast?_concat, Option.getD_some]
  have hwritten := h.written (by rw [hpc]; decide)
  have hrest : cl.rest = [] := by rw [rest, hpc]
  rw [hrest, List.append_nil] at hwritten
  refine ⟨?_, ⟨s.published.length, le_rfl, hs.seq, ?_⟩, nofun, fun _ => ?_, ?_⟩
  · have hfollows := h.taken
    dsimp only
    rw [hjpeg, hlength]
    rw [hpub] at hfollows ⊢
    exact hfollows.take fun t ht => by
      have hle := htaken t ht
      omega
  · intro t ht
    obtain hold | hnew := List.mem_append.mp ht
    · exact (htaken t hold).trans hn
    · exact (congrArg Prod.fst (List.mem_singleton.mp hnew)).le
  · rw [List.flatMap_append, ← hwritten]
    simp [rest]
  · rw [List.flatMap_append, ← hwritten]
    exact List.prefix_append _ _

/-- Each step of a handler keeps its invariant, and what is published. -/
lemma Sound.handleStream (h : cl.Sound s) (hs : s.Sound)
    (hstep : handleStream a cl s = some (s', cl')) :
    s'.Sound ∧ s'.published = s.published ∧ cl'.Sound s' := by
  simp only [RasPiZeroCam.handleStream] at hstep
  split at hstep
  · next hpc =>
    cases hstep
    have htaken := h.start hpc
    have hwritten := h.written (by rw [hpc]; decide)
    rw [rest, hpc, List.append_nil] at hwritten
    refine ⟨⟨hs.seq, hs.jpeg⟩, rfl, h.taken, ⟨0, Nat.zero_le _, rfl, ?_⟩, ?_, ?_, ?_⟩
    · intro t ht
      rw [htaken] at ht
      exact absurd ht List.not_mem_nil
    · intro hc
      cases hc
    · intro _
      rwa [rest, List.append_nil]
    · exact hwritten ▸ List.prefix_refl _
  · next hpc =>
    by_cases hle : s.latestSeq ≤ cl.prevSeq
    · rw [Mjpeg.waitForJpeg, if_pos hle] at hstep
      cases hstep
      exact ⟨hs, rfl, h⟩
    · rw [Mjpeg.waitForJpeg, if_neg hle] at hstep
      have htake := h.take hs hpc (not_le.mp hle)
      cases hjpeg : s.latestJpeg with
      | nil =>
          -- an empty JPEG was published: it counts as a time-out
          rw [hjpeg] at hstep
          cases hstep
          exact ⟨hs, rfl, h⟩
      | cons b l =>
          rw [hjpeg] at hstep htake
          cases hstep
          exact ⟨hs, rfl, htake⟩
  · next hpc =>
    cases hstep
    have hwritten := h.written (by rw [hpc]; decide)
    rw [rest, hpc, List.append_nil] at hwritten
    exact ⟨⟨hs.seq, hs.jpeg⟩, rfl, h.taken, h.cursor, nofun, fun hne => absurd rfl hne,
      hwritten ▸ List.prefix_refl _⟩
  · next hpc =>
    cases hstep
    refine ⟨hs, rfl, h.write (by rw [hpc]; decide) (by decide) ?_⟩
    simp [chunk, rest, StreamClient.write, hpc, part]
  · next hpc =>
    cases hstep
    refine ⟨hs, rfl, h.write (by rw [hpc]; decide) (by decide) ?_⟩
    simp [chunk, rest, StreamClient.write, hpc]
  · next hpc =>
    cases hstep
    refine ⟨hs, rfl, h.write (by rw [hpc]; decide) (by decide) ?_⟩
    simp [chunk, rest, StreamClient.write, hpc]
  · next n hpc =>
    cases hstep
    refine ⟨⟨hs.seq, hs.jpeg⟩, rfl, h.fail n (by rw [hpc]; decide) ?_⟩
    simp [chunk, rest, hpc, part, List.append_assoc]
  · next n hpc =>
    cases hstep
    refine ⟨⟨hs.seq, hs.jpeg⟩, rfl, h.fail n (by rw [hpc]; decide) ?_⟩
    simp [chunk, rest, hpc]
  · next n hpc =>
    cases hstep
    refine ⟨⟨hs.seq, hs.jpeg⟩, rfl, h.fail n (by rw [hpc]; decide) ?_⟩
    simp [chunk, rest, hpc]
  · cases hstep

end StreamClient

/-- The run lemma: the shared JPEG and every handler are sound. -/
lemma Mjpeg.sound_of_reach {ι : Type*} [DecidableEq ι] {s : Config ι Mjpeg StreamClient}
    (h : (mjpeg.system ι).Reach (fun _ _ => True) s) :
    s.shared.Sound ∧ ∀ c, (s.pc c).Sound s.shared := by
  refine h.invariant (fun s => s.shared.Sound ∧ ∀ c, (s.pc c).Sound s.shared) ?_ ?_
  · rintro s ⟨⟨hjpeg, hseq, -, hpub⟩, hpc⟩
    refine ⟨⟨?_, ?_⟩, fun c => ?_⟩
    · rw [hseq, hpub, List.length_nil, Nat.zero_mod]
    · rw [hjpeg, hpub]
      rfl
    · rw [hpc c]
      exact StreamClient.sound_start s.shared
  · rintro s e s' - ⟨hs, hcl⟩ - hstep
    cases e with
    | run d a =>
        obtain ⟨w, cl, hact, rfl⟩ := step_run_iff.mp hstep
        obtain ⟨hw, hpub, hd⟩ := (hcl d).handleStream hs hact
        refine ⟨hw, fun c => ?_⟩
        dsimp only
        by_cases hc : c = d
        · rw [hc, Function.update_self]
          exact hd
        · rw [Function.update_of_ne hc]
          exact (hcl c).of_published hpub
    | env jpeg =>
        obtain ⟨w, henv, rfl⟩ := step_env_iff.mp hstep
        cases henv
        refine ⟨⟨?_, ?_⟩, fun c => (hcl c).publish jpeg⟩
        · rw [Mjpeg.onJpegReady, hs.seq, List.length_append, List.length_singleton,
            Nat.mod_add_mod]
        · rw [Mjpeg.onJpegReady, List.getLast?_concat, Option.getD_some]

/-- Between two parts, all that was taken is written. -/
lemma StreamClient.Sound.complete {s : Mjpeg} {cl : StreamClient} (h : cl.Sound s)
    (hwait : cl.pc = .wait) : cl.written = cl.taken.flatMap fun t => part t.2 := by
  have hwritten := h.written (by rw [hwait]; decide)
  rwa [StreamClient.rest, hwait, List.append_nil] at hwritten

/-- **Every client gets a subsequence of the published JPEGs**, whatever the order of the
publications, the wake-ups and the time-outs. -/
theorem stream_kept {ι : Type*} [DecidableEq ι] {s : Config ι Mjpeg StreamClient}
    (h : (mjpeg.system ι).Reach (fun _ _ => True) s) (c : ι) : StreamKept s.shared (s.pc c) := by
  have hcl := (Mjpeg.sound_of_reach h).2 c
  exact ⟨hcl.taken, hcl.taken.sublist, hcl.cut, hcl.complete⟩

/-- Two clients and three JPEGs, of which the second is empty: the first client gets the first and
the third, the second client the third only. -/
def threeJpegs : List (Event Bool StreamAct Bytes) :=
  [.run false .run, .run false .run, .env [1], .run false .run, .env [], .run false .run,
    .run false .run, .run false .run, .run false .run, .run true .run, .run true .run, .env [3],
    .run false .run, .run true .run, .run true .run]

/-- Both clients get what the sequence of the JPEGs allows. -/
theorem threeJpegs_kept : ∃ s : Config Bool Mjpeg StreamClient,
    (mjpeg.system Bool).exec (fun _ _ => true) ⟨⟨[], 0, 0, []⟩, fun _ => .start⟩ threeJpegs =
        some s ∧
      (s.pc false).taken = [(1, [1]), (3, [3])] ∧ (s.pc true).taken = [(3, [3])] ∧
        StreamKept s.shared (s.pc false) ∧ StreamKept s.shared (s.pc true) := by
  obtain ⟨s, hs⟩ := Option.isSome_iff_exists.mp (by decide :
    ((mjpeg.system Bool).exec (fun _ _ => true) ⟨⟨[], 0, 0, []⟩, fun _ => .start⟩
      threeJpegs).isSome)
  have hreach : (mjpeg.system Bool).Reach (fun _ _ => True) s :=
    .of_exec_check (fun _ _ _ => trivial) ⟨⟨rfl, rfl, rfl, rfl⟩, fun _ => rfl⟩ hs
  refine ⟨s, hs, ?_, ?_, stream_kept hreach false, stream_kept hreach true⟩
  all_goals
    cases hs
    rfl

end RasPiZeroCam
