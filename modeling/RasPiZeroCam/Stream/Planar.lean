import RasPiZeroCam.Copies.Moves
import RasPiZeroCam.Text

/-!
The two conversions of a camera frame from NV12 to planar YUV.

* `JpegHwEncoder.encodeMoves`: the loops of `encode` that fill an output slot.
* `JpegMtEncoder.copyMoves`: the loops of `encode_thread_fn` that fill its three vectors.
* `cells`: the moves of both, cell by cell; `encodeMoves_eq` and `copyMoves_eq` take the strides
  and plane offsets out of the 32-bit arithmetic.
* `PlanarAgree`: the slot holds the three vectors one behind the other, nothing outside the frame
  is read, every byte is written once, and the planes hold the visible part of the frame.
* `planar_agree`: it holds for every even width and every stride, as long as the sizes fit 32 bits.
-/

namespace RasPiZeroCam

open Copies

/-- The planes of a frame. -/
inductive Plane where
  | y
  | cb
  | cr
  deriving DecidableEq

/-- The vectors `y_buf`, `cb_buf` and `cr_buf`. -/
structure Planes where
  y : Bytes
  cb : Bytes
  cr : Bytes
  deriving DecidableEq

/-- The byte at an index of the frame. -/
def byteAt (data : Bytes) (i : ℕ) : UInt8 := data.getD i 0

/-! ### The loops -/

namespace JpegHwEncoder

/-- The moves with which `encode` fills a slot. -/
def encodeMoves (width_ height_ stride_ : UInt32) : List (Move ℕ) :=
  let UV := (stride_ * height_).toNat
  let dst := (width_ * height_).toNat
  let uv_w := width_ / 2
  let uv_h := height_ / 2
  let cb := dst
  let cr := dst + (uv_w * uv_h).toNat
  (countUp height_ fun r =>
    memcpy (fun i => (r * width_).toNat + i) (r * stride_).toNat width_.toNat) ++
  countUp uv_h fun r =>
    let uv_row := UV + (r * stride_).toNat
    countUp uv_w fun c =>
      [⟨cb + (r * uv_w + c).toNat, uv_row + (c * 2).toNat⟩,
        ⟨cr + (r * uv_w + c).toNat, uv_row + (c * 2 + 1).toNat⟩]

/-- What a slot holds after `encode` has filled it. -/
def fillSlot (width_ height_ stride_ : UInt32) (data : Bytes) (slot : ℕ → UInt8) : ℕ → UInt8 :=
  run (byteAt data) (encodeMoves width_ height_ stride_) slot

/-- The `bytesused` with which the slot is queued. -/
def bytesUsed (width_ height_ : UInt32) : UInt32 := width_ * height_ * 3 / 2

end JpegHwEncoder

namespace JpegMtEncoder

/-- The moves with which `encode_thread_fn` fills its three vectors. -/
def copyMoves (W H S : UInt32) : List (Move (Plane × ℕ)) :=
  let uvW := W / 2
  let uvH := H / 2
  let srcUV := (S * H).toNat
  (countUp H fun r =>
    memcpy (fun i => (.y, (r * W).toNat + i)) (r * S).toNat W.toNat) ++
  countUp uvH fun r =>
    let row := srcUV + (r * S).toNat
    countUp uvW fun c =>
      [⟨(.cb, (r * uvW + c).toNat), row + (c * 2).toNat⟩,
        ⟨(.cr, (r * uvW + c).toNat), row + (c * 2 + 1).toNat⟩]

/-- The vectors after the loops; `std::vector` fills them with zeros before. -/
def planes (W H S : UInt32) (data : Bytes) : Planes :=
  let uvW := W / 2
  let uvH := H / 2
  let filled := run (byteAt data) (copyMoves W H S) fun _ => 0
  { y := (List.range (W * H).toNat).map fun i => filled (.y, i)
    cb := (List.range (uvW * uvH).toNat).map fun i => filled (.cb, i)
    cr := (List.range (uvW * uvH).toNat).map fun i => filled (.cr, i) }

end JpegMtEncoder

/-! ### The loops, cell by cell -/

/-- Where a cell of the Y plane is in a frame. -/
def lumaAt (w s i : ℕ) : ℕ := i / w * s + i % w

/-- Where a cell of the Cb plane is in a frame; that of the Cr plane is next to it. -/
def chromaAt (w h s i : ℕ) : ℕ := s * h + i / (w / 2) * s + i % (w / 2) * 2

/-- The moves of the Y plane, one for each cell; `place` is where a cell of a plane is written. -/
def lumaCells {δ : Type} (place : Plane × ℕ → δ) (w h s : ℕ) : List (Move δ) :=
  (List.range (h * w)).map fun i => ⟨place (.y, i), lumaAt w s i⟩

/-- Those of the chroma planes, two for each cell. -/
def chromaCells {δ : Type} (place : Plane × ℕ → δ) (w h s : ℕ) : List (Move δ) :=
  (List.range (h / 2 * (w / 2))).flatMap fun i =>
    [⟨place (.cb, i), chromaAt w h s i⟩, ⟨place (.cr, i), chromaAt w h s i + 1⟩]

/-- The moves of a conversion. -/
def cells {δ : Type} (place : Plane × ℕ → δ) (w h s : ℕ) : List (Move δ) :=
  lumaCells place w h s ++ chromaCells place w h s

/-- Where a cell of a plane is in the slot. -/
def inSlot (w h : ℕ) : Plane × ℕ → ℕ
  | (.y, i) => i
  | (.cb, i) => w * h + i
  | (.cr, i) => w * h + w / 2 * (h / 2) + i

/-- The bytes of the three planes. -/
def planarBytes (w h : ℕ) : ℕ := w * h + 2 * (w / 2 * (h / 2))

section

variable {W H S : UInt32}

/-- The sizes for which the 32-bit arithmetic is exact. -/
structure Fits (W H S : UInt32) : Prop where
  stride : W.toNat ≤ S.toNat
  frame : S.toNat * H.toNat < 2 ^ 32

lemma Fits.plane (h : Fits W H S) : W.toNat * H.toNat < 2 ^ 32 :=
  (Nat.mul_le_mul_right _ h.stride).trans_lt h.frame

/-- A product of 32-bit numbers that fits. -/
lemma toNat_mul_of_lt {a b : UInt32} (h : a.toNat * b.toNat < 2 ^ 32) :
    (a * b).toNat = a.toNat * b.toNat := by
  rw [UInt32.toNat_mul, Nat.mod_eq_of_lt h]

lemma toNat_div_two (a : UInt32) : (a / 2).toNat = a.toNat / 2 := UInt32.toNat_div a 2

/-- The offset of a row that a loop visits. -/
lemma toNat_row {r n k : UInt32} (hr : r.toNat < n.toNat) (h : k.toNat * n.toNat < 2 ^ 32) :
    (r * k).toNat = r.toNat * k.toNat := by
  refine toNat_mul_of_lt (lt_of_le_of_lt ?_ h)
  calc r.toNat * k.toNat ≤ n.toNat * k.toNat := Nat.mul_le_mul_right _ hr.le
    _ = k.toNat * n.toNat := Nat.mul_comm _ _

lemma Fits.toNat_chroma (h : Fits W H S) :
    (W / 2 * (H / 2)).toNat = W.toNat / 2 * (H.toNat / 2) := by
  have hle : W.toNat / 2 * (H.toNat / 2) ≤ W.toNat * H.toNat :=
    Nat.mul_le_mul (Nat.div_le_self _ _) (Nat.div_le_self _ _)
  rw [toNat_mul_of_lt] <;> rw [toNat_div_two, toNat_div_two]
  exact hle.trans_lt h.plane

/-- The indices of a chroma cell, as the loops compute them. -/
lemma Fits.toNat_cell (h : Fits W H S) {r c : UInt32} (hr : r.toNat < (H / 2).toNat)
    (hc : c.toNat < (W / 2).toNat) :
    (r * (W / 2) + c).toNat = r.toNat * (W.toNat / 2) + c.toNat ∧
      (r * S).toNat = r.toNat * S.toNat ∧ (c * 2).toNat = c.toNat * 2 ∧
        (c * 2 + 1).toNat = c.toNat * 2 + 1 := by
  have hlimit : W.toNat < 2 ^ 32 := W.toNat_lt
  have hcell := cell_lt hr hc
  have hchroma := h.toNat_chroma
  have hplane : (W / 2 * (H / 2)).toNat < 2 ^ 32 := UInt32.toNat_lt _
  rw [toNat_div_two] at hr hc
  rw [toNat_div_two, toNat_div_two, Nat.mul_comm (H.toNat / 2)] at hcell
  have hrow : (r * (W / 2)).toNat = r.toNat * (W.toNat / 2) := by
    rw [toNat_mul_of_lt] <;> rw [toNat_div_two]
    omega
  have hdouble : (c * 2).toNat = c.toNat * 2 := by
    refine toNat_mul_of_lt ?_
    show c.toNat * 2 < 2 ^ 32
    omega
  refine ⟨?_, ?_, hdouble, ?_⟩
  · rw [UInt32.toNat_add, hrow, Nat.mod_eq_of_lt (by omega)]
  · exact toNat_row (n := H) (by omega) h.frame
  · have hone : (1 : UInt32).toNat = 1 := rfl
    rw [UInt32.toNat_add, hdouble, hone, Nat.mod_eq_of_lt (by omega)]

/-- The copy of the rows. -/
lemma rows_eq {δ : Type} (place : Plane × ℕ → δ) (h : Fits W H S) {dst : UInt32 → ℕ → δ}
    (hdst : ∀ r i, dst r i = place (.y, (r * W).toNat + i)) :
    (countUp H fun r => memcpy (dst r) (r * S).toNat W.toNat) =
      lumaCells place W.toNat H.toNat S.toNat := by
  let cell (r c : ℕ) : Move δ := ⟨place (.y, r * W.toNat + c), r * S.toNat + c⟩
  have hbody : ∀ r : UInt32, r.toNat < H.toNat → memcpy (dst r) (r * S).toNat W.toNat =
      (List.range W.toNat).map (cell r.toNat) := by
    intro r hr
    simp only [memcpy, hdst, toNat_row hr h.plane, toNat_row hr h.frame, cell]
  calc (countUp H fun r => memcpy (dst r) (r * S).toNat W.toNat)
      = (List.range H.toNat).flatMap fun r => (List.range W.toNat).map (cell r) :=
        countUp_eq (f := fun r => (List.range W.toNat).map (cell r)) hbody
    _ = (List.range (H.toNat * W.toNat)).map fun i => cell (i / W.toNat) (i % W.toNat) :=
        flatMap_map_range_mul H.toNat W.toNat cell
    _ = lumaCells place W.toNat H.toNat S.toNat := by
        simp only [cell, lumaCells, lumaAt, Nat.div_add_mod']

/-- The de-interleaving of the chroma rows. -/
lemma chroma_eq {δ : Type} (place : Plane × ℕ → δ) (h : Fits W H S)
    {body : UInt32 → UInt32 → List (Move δ)}
    (hbody : ∀ r c, body r c =
      [⟨place (.cb, (r * (W / 2) + c).toNat), (S * H).toNat + (r * S).toNat + (c * 2).toNat⟩,
        ⟨place (.cr, (r * (W / 2) + c).toNat),
          (S * H).toNat + (r * S).toNat + (c * 2 + 1).toNat⟩]) :
    (countUp (H / 2) fun r => countUp (W / 2) fun c => body r c) =
      chromaCells place W.toNat H.toNat S.toNat := by
  have hUV : (S * H).toNat = S.toNat * H.toNat := toNat_mul_of_lt h.frame
  let cell (r c : ℕ) : List (Move δ) :=
    [⟨place (.cb, r * (W.toNat / 2) + c), S.toNat * H.toNat + r * S.toNat + c * 2⟩,
      ⟨place (.cr, r * (W.toNat / 2) + c), S.toNat * H.toNat + r * S.toNat + (c * 2 + 1)⟩]
  have hcell : ∀ r c : UInt32, r.toNat < (H / 2).toNat → c.toNat < (W / 2).toNat →
      body r c = cell r.toNat c.toNat := by
    intro r c hr hc
    obtain ⟨hindex, hrow, hdouble, hnext⟩ := h.toNat_cell hr hc
    rw [hbody, hindex, hUV, hrow, hdouble, hnext]
  calc (countUp (H / 2) fun r => countUp (W / 2) fun c => body r c)
      = (List.range (H / 2).toNat).flatMap fun r =>
          (List.range (W / 2).toNat).flatMap (cell r) :=
        countUp_eq (f := fun r => (List.range (W / 2).toNat).flatMap (cell r))
          fun r hr => countUp_eq (f := cell r.toNat) fun c hc => hcell r c hr hc
    _ = (List.range ((H / 2).toNat * (W / 2).toNat)).flatMap fun i =>
          cell (i / (W / 2).toNat) (i % (W / 2).toNat) := flatMap_range_mul _ _ cell
    _ = chromaCells place W.toNat H.toNat S.toNat := by
        simp only [cell, chromaCells, chromaAt, toNat_div_two, Nat.div_add_mod', Nat.add_assoc]

/-- **`encode` fills its slot cell by cell.** -/
theorem encodeMoves_eq (h : Fits W H S) :
    JpegHwEncoder.encodeMoves W H S =
      cells (inSlot W.toNat H.toNat) W.toNat H.toNat S.toNat := by
  rw [cells, ← rows_eq (inSlot W.toNat H.toNat) h fun _ _ => rfl,
    ← chroma_eq (inSlot W.toNat H.toNat) h fun _ _ => rfl]
  simp only [JpegHwEncoder.encodeMoves, inSlot, toNat_mul_of_lt h.plane, h.toNat_chroma]

/-- **`encode_thread_fn` fills its vectors cell by cell.** -/
theorem copyMoves_eq (h : Fits W H S) :
    JpegMtEncoder.copyMoves W H S = cells id W.toNat H.toNat S.toNat := by
  rw [cells, ← rows_eq id h fun _ _ => rfl, ← chroma_eq id h fun _ _ => rfl]
  rfl

end

/-! ### What the conversions do -/

/-- The places of the cells of the three planes. -/
def places {δ : Type} (place : Plane × ℕ → δ) (w h : ℕ) : List δ :=
  ((List.range (h * w)).map fun i => place (.y, i)) ++
    (((List.range (h / 2 * (w / 2))).map fun i => place (.cb, i)) ++
      (List.range (h / 2 * (w / 2))).map fun i => place (.cr, i))

/-- The planes, interleaved again. -/
def interleave (p : Planes) : Bytes := p.y ++ (p.cb.zip p.cr).flatMap fun b => [b.1, b.2]

/-- The visible part of an NV12 frame: the first `w` bytes of each of its rows. -/
def visible (w h s : ℕ) (data : Bytes) : Bytes :=
  ((List.range h).flatMap fun r => (data.drop (r * s)).take w) ++
    (List.range (h / 2)).flatMap fun r => (data.drop (s * h + r * s)).take w

/-- **The two conversions agree**, and do what they are for. -/
structure PlanarAgree (W H S : UInt32) (data : Bytes) : Prop where
  /-- A filled slot holds the three vectors, one behind the other. -/
  slot : ∀ slot, (List.range (planarBytes W.toNat H.toNat)).map
    (JpegHwEncoder.fillSlot W H S data slot) =
      (JpegMtEncoder.planes W H S data).y ++ (JpegMtEncoder.planes W H S data).cb ++
        (JpegMtEncoder.planes W H S data).cr
  /-- Behind them it holds what it held. -/
  behind : ∀ slot i, planarBytes W.toNat H.toNat ≤ i →
    JpegHwEncoder.fillSlot W H S data slot i = slot i
  size : Even H.toNat → planarBytes W.toNat H.toNat = W.toNat * H.toNat * 3 / 2 ∧
    (JpegHwEncoder.bytesUsed W H).toNat = W.toNat * H.toNat * 3 / 2
  reads : (∀ m ∈ JpegHwEncoder.encodeMoves W H S, m.src < data.length) ∧
    ∀ m ∈ JpegMtEncoder.copyMoves W H S, m.src < data.length
  /-- Every byte is written once, and no other. -/
  once : ((JpegHwEncoder.encodeMoves W H S).map Move.dst).Perm
      (List.range (planarBytes W.toNat H.toNat)) ∧
    ((JpegMtEncoder.copyMoves W H S).map Move.dst).Perm (places id W.toNat H.toNat)
  y : ∀ r < H.toNat, ∀ c < W.toNat,
    (JpegMtEncoder.planes W H S data).y[r * W.toNat + c]? = data[r * S.toNat + c]?
  cb : ∀ r < H.toNat / 2, ∀ c < W.toNat / 2,
    (JpegMtEncoder.planes W H S data).cb[r * (W.toNat / 2) + c]? =
      data[S.toNat * H.toNat + r * S.toNat + 2 * c]?
  cr : ∀ r < H.toNat / 2, ∀ c < W.toNat / 2,
    (JpegMtEncoder.planes W H S data).cr[r * (W.toNat / 2) + c]? =
      data[S.toNat * H.toNat + r * S.toNat + 2 * c + 1]?
  visible : interleave (JpegMtEncoder.planes W H S data) =
    visible W.toNat H.toNat S.toNat data

section

variable {δ : Type} {place : Plane × ℕ → δ} {w h s : ℕ}

/-- The moves write every cell of the planes once. -/
lemma cells_dst (place : Plane × ℕ → δ) (w h s : ℕ) :
    ((cells place w h s).map Move.dst).Perm (places place w h) := by
  have hpairs : (chromaCells place w h s).map Move.dst =
      (List.range (h / 2 * (w / 2))).flatMap fun i => [place (.cb, i)] ++ [place (.cr, i)] :=
    List.map_flatMap
  rw [cells, lumaCells, List.map_append, List.map_map, hpairs]
  refine List.Perm.append_left _ ?_
  rw [List.map_eq_flatMap, List.map_eq_flatMap]
  exact (List.flatMap_append_perm _ _ _).symm

/-- In the slot they are its first bytes. -/
lemma places_inSlot (w h : ℕ) : places (inSlot w h) w h = List.range (planarBytes w h) := by
  have hsize : planarBytes w h = h * w + (h / 2 * (w / 2) + h / 2 * (w / 2)) := by
    rw [planarBytes, Nat.mul_comm w h, Nat.mul_comm (w / 2), Nat.two_mul]
  rw [hsize, List.range_add, List.range_add, List.map_append, List.map_map]
  simp only [places, inSlot, List.map_id', Function.comp_def, Nat.mul_comm w h,
    Nat.mul_comm (w / 2), Nat.add_assoc]

/-- In the vectors they are apart. -/
lemma places_id_nodup (w h : ℕ) : (places id w h).Nodup := by
  have hmap : (places id w h).map (inSlot w h) = places (inSlot w h) w h := by
    simp only [places, List.map_append, List.map_map]
    rfl
  refine List.Nodup.of_map (inSlot w h) ?_
  rw [hmap, places_inSlot]
  exact List.nodup_range

variable [DecidableEq δ] (src : ℕ → UInt8) (mem : δ → UInt8) (s)

/-- What the moves leave in the planes. -/
lemma run_cells (hnodup : (places place w h).Nodup) :
    (∀ i < h * w, run src (cells place w h s) mem (place (.y, i)) = src (lumaAt w s i)) ∧
      (∀ i < h / 2 * (w / 2),
        run src (cells place w h s) mem (place (.cb, i)) = src (chromaAt w h s i) ∧
          run src (cells place w h s) mem (place (.cr, i)) = src (chromaAt w h s i + 1)) := by
  have honce : ((cells place w h s).map Move.dst).Nodup :=
    (cells_dst place w h s).nodup_iff.mpr hnodup
  refine ⟨fun i hi => ?_, fun i hi => ⟨?_, ?_⟩⟩
  · exact run_of_mem honce (List.mem_append_left _
      (List.mem_map.mpr ⟨i, List.mem_range.mpr hi, rfl⟩))
  · exact run_of_mem honce (List.mem_append_right _
      (List.mem_flatMap.mpr ⟨i, List.mem_range.mpr hi, List.mem_cons_self⟩))
  · exact run_of_mem honce (List.mem_append_right _
      (List.mem_flatMap.mpr ⟨i, List.mem_range.mpr hi, List.mem_cons_of_mem _ List.mem_cons_self⟩))

/-- All of it at once. -/
lemma map_run_cells (hnodup : (places place w h).Nodup) :
    (places place w h).map (run src (cells place w h s) mem) =
      ((List.range (h * w)).map fun i => src (lumaAt w s i)) ++
        (((List.range (h / 2 * (w / 2))).map fun i => src (chromaAt w h s i)) ++
          (List.range (h / 2 * (w / 2))).map fun i => src (chromaAt w h s i + 1)) := by
  obtain ⟨hy, hc⟩ := run_cells s src mem hnodup
  simp only [places, List.map_append, List.map_map]
  congr 1
  · exact List.map_congr_left fun i hi => hy i (List.mem_range.mp hi)
  congr 1
  · exact List.map_congr_left fun i hi => (hc i (List.mem_range.mp hi)).1
  · exact List.map_congr_left fun i hi => (hc i (List.mem_range.mp hi)).2

end

section

variable {W H S : UInt32} {data : Bytes}

/-- The vectors, cell by cell. -/
lemma planes_eq (h : Fits W H S) (data : Bytes) : JpegMtEncoder.planes W H S data =
    { y := (List.range (H.toNat * W.toNat)).map fun i => byteAt data (lumaAt W.toNat S.toNat i)
      cb := (List.range (H.toNat / 2 * (W.toNat / 2))).map fun i =>
        byteAt data (chromaAt W.toNat H.toNat S.toNat i)
      cr := (List.range (H.toNat / 2 * (W.toNat / 2))).map fun i =>
        byteAt data (chromaAt W.toNat H.toNat S.toNat i + 1) } := by
  obtain ⟨hy, hc⟩ := run_cells S.toNat (byteAt data) (fun _ => 0) (places_id_nodup W.toNat H.toNat)
  simp only [JpegMtEncoder.planes, copyMoves_eq h, toNat_mul_of_lt h.plane, h.toNat_chroma,
    Nat.mul_comm W.toNat, Nat.mul_comm (W.toNat / 2), Planes.mk.injEq]
  exact ⟨List.map_congr_left fun i hi => hy i (List.mem_range.mp hi),
    List.map_congr_left fun i hi => (hc i (List.mem_range.mp hi)).1,
    List.map_congr_left fun i hi => (hc i (List.mem_range.mp hi)).2⟩

end

section

variable {w h s : ℕ}

/-- A cell of the Y plane is read from the rows of the frame. -/
lemma lumaAt_lt (hw : w ≤ s) {i : ℕ} (hi : i < h * w) : lumaAt w s i < s * h := by
  have hpos : 0 < w := Nat.pos_of_mul_pos_left (Nat.zero_lt_of_lt hi)
  have hrow : i / w < h := Nat.div_lt_of_lt_mul (by rwa [Nat.mul_comm])
  have hcol : i % w < s := (Nat.mod_lt i hpos).trans_le hw
  calc lumaAt w s i < h * s := cell_lt hrow hcol
    _ = s * h := Nat.mul_comm h s

/-- There are half as many chroma rows. -/
lemma two_mul_half_rows_le (h s : ℕ) : 2 * (h / 2 * s) ≤ s * h :=
  calc 2 * (h / 2 * s) = h / 2 * 2 * s := by ring
    _ ≤ h * s := Nat.mul_le_mul_right s (Nat.div_mul_le_self h 2)
    _ = s * h := Nat.mul_comm h s

/-- A cell of the chroma planes is read from the rows behind them. -/
lemma chromaAt_lt (hw : w ≤ s) {i : ℕ} (hi : i < h / 2 * (w / 2)) :
    chromaAt w h s i + 1 < s * h * 3 / 2 := by
  have hpos : 0 < w / 2 := Nat.pos_of_mul_pos_left (Nat.zero_lt_of_lt hi)
  have hrow : i / (w / 2) < h / 2 := Nat.div_lt_of_lt_mul (by rwa [Nat.mul_comm])
  have hcol : i % (w / 2) < w / 2 := Nat.mod_lt i hpos
  have hcell : i / (w / 2) * s + (i % (w / 2) * 2 + 1) < h / 2 * s := cell_lt hrow (by omega)
  have hhalf := two_mul_half_rows_le h s
  rw [chromaAt]
  omega

/-- No move reads outside the frame. -/
lemma cells_src_lt {δ : Type} (place : Plane × ℕ → δ) (hw : w ≤ s) {m : Move δ}
    (hm : m ∈ cells place w h s) : m.src < s * h * 3 / 2 := by
  obtain hm | hm := List.mem_append.mp hm
  · obtain ⟨i, hi, rfl⟩ := List.mem_map.mp hm
    have hlt := lumaAt_lt hw (List.mem_range.mp hi)
    show lumaAt w s i < s * h * 3 / 2
    omega
  · obtain ⟨i, hi, hm⟩ := List.mem_flatMap.mp hm
    have hlt := chromaAt_lt hw (List.mem_range.mp hi)
    simp only [List.mem_cons, List.not_mem_nil, or_false] at hm
    obtain rfl | rfl := hm
    · exact (Nat.lt_succ_self _).trans hlt
    · exact hlt

/-- A row that a loop visits ends before the last one does. -/
lemma row_end_le {r n : ℕ} (hr : r < n) (s : ℕ) : r * s + s ≤ n * s :=
  calc r * s + s = (r + 1) * s := (Nat.succ_mul r s).symm
    _ ≤ n * s := Nat.mul_le_mul_right s hr

/-- The rows of the Y plane are the visible parts of the rows of the frame. -/
lemma luma_visible {data : Bytes} (hw : w ≤ s) (hdata : s * h ≤ data.length) :
    ((List.range (h * w)).map fun i => byteAt data (lumaAt w s i)) =
      (List.range h).flatMap fun r => (data.drop (r * s)).take w := by
  refine (flatMap_map_range_mul h w fun r c => byteAt data (r * s + c)).symm.trans ?_
  refine List.flatMap_congr fun r hr => ?_
  have hlast : r * s + s ≤ h * s := row_end_le (List.mem_range.mp hr) s
  rw [Nat.mul_comm] at hdata
  exact (take_drop_eq_map 0 (by omega)).symm

/-- The chroma planes, interleaved, are those of the rows behind. -/
lemma chroma_visible {data : Bytes} (heven : Even w) (hw : w ≤ s)
    (hdata : s * h * 3 / 2 ≤ data.length) :
    ((List.range (h / 2 * (w / 2))).flatMap fun i =>
        [byteAt data (chromaAt w h s i), byteAt data (chromaAt w h s i + 1)]) =
      (List.range (h / 2)).flatMap fun r => (data.drop (s * h + r * s)).take w := by
  let pair (r c : ℕ) : Bytes :=
    [byteAt data (s * h + r * s + c * 2), byteAt data (s * h + r * s + (c * 2 + 1))]
  have hhalf := two_mul_half_rows_le h s
  calc ((List.range (h / 2 * (w / 2))).flatMap fun i =>
        [byteAt data (chromaAt w h s i), byteAt data (chromaAt w h s i + 1)])
      = (List.range (h / 2)).flatMap fun r => (List.range (w / 2)).flatMap (pair r) :=
        (flatMap_range_mul (h / 2) (w / 2) pair).symm
    _ = (List.range (h / 2)).flatMap fun r => (data.drop (s * h + r * s)).take w := by
        refine List.flatMap_congr fun r hr => ?_
        have hlast : r * s + s ≤ h / 2 * s := row_end_le (List.mem_range.mp hr) s
        rw [take_drop_eq_map 0 (by omega : s * h + r * s + w ≤ data.length),
          ← Nat.div_mul_cancel heven.two_dvd]
        rw [Nat.mul_div_cancel _ (by decide)]
        exact flatMap_range_pair (w / 2) fun c => byteAt data (s * h + r * s + c)

/-- A byte of the frame. -/
lemma byteAt_eq {data : Bytes} {i : ℕ} (h : i < data.length) : data[i]? = some (byteAt data i) := by
  rw [byteAt, List.getD_eq_getElem?_getD, List.getElem?_eq_getElem h, Option.getD_some]

lemma lumaAt_cell {r c : ℕ} (hc : c < w) : lumaAt w s (r * w + c) = r * s + c := by
  rw [lumaAt, Nat.mul_comm r w, Nat.mul_add_div (by omega), Nat.div_eq_of_lt hc, Nat.mul_add_mod,
    Nat.mod_eq_of_lt hc, Nat.add_zero]

lemma chromaAt_cell {r c : ℕ} (hc : c < w / 2) :
    chromaAt w h s (r * (w / 2) + c) = s * h + r * s + 2 * c := by
  rw [chromaAt, Nat.mul_comm r (w / 2), Nat.mul_add_div (by omega), Nat.div_eq_of_lt hc,
    Nat.mul_add_mod, Nat.mod_eq_of_lt hc, Nat.add_zero, Nat.mul_comm c 2]

end

/-- Of an even number of columns and rows, every four pixels take six bytes. -/
lemma planarBytes_eq {w h : ℕ} (hw : Even w) (hh : Even h) : planarBytes w h = w * h * 3 / 2 := by
  obtain ⟨j, rfl⟩ := hw
  obtain ⟨k, rfl⟩ := hh
  have hhalves : (j + j) / 2 = j ∧ (k + k) / 2 = k := by omega
  have hplane : (j + j) * (k + k) = 4 * (j * k) := by ring
  rw [planarBytes, hhalves.1, hhalves.2, hplane]
  omega

lemma toNat_bytesUsed {W H S : UInt32} (h : Fits W H S)
    (hplanar : W.toNat * H.toNat * 3 < 2 ^ 32) :
    (JpegHwEncoder.bytesUsed W H).toNat = W.toNat * H.toNat * 3 / 2 := by
  have hmul : (W * H).toNat = W.toNat * H.toNat := toNat_mul_of_lt h.plane
  have hthree : (W * H * 3).toNat = (W * H).toNat * 3 :=
    toNat_mul_of_lt (by rw [hmul]; exact hplanar)
  rw [JpegHwEncoder.bytesUsed, toNat_div_two, hthree, hmul]

/-- **The slot of the one encoder and the vectors of the other hold the same planes**, for every
even width and every stride. -/
theorem planar_agree {W H S : UInt32} (heven : Even W.toNat) (hstride : W ≤ S)
    (hplanar : W.toNat * H.toNat * 3 < 2 ^ 32) (hframe : S.toNat * H.toNat * 3 / 2 < 2 ^ 32)
    {data : Bytes} (hdata : data.length = S.toNat * H.toNat * 3 / 2) : PlanarAgree W H S data := by
  have hfits : Fits W H S := ⟨UInt32.le_iff_toNat_le.mp hstride, by omega⟩
  have hw := hfits.stride
  have hrows : S.toNat * H.toNat ≤ data.length := by omega
  have hplanes := planes_eq hfits data
  constructor
  case slot =>
    intro slot
    have hnodup : (places (inSlot W.toNat H.toNat) W.toNat H.toNat).Nodup := by
      rw [places_inSlot]
      exact List.nodup_range
    rw [hplanes, ← places_inSlot, JpegHwEncoder.fillSlot, encodeMoves_eq hfits,
      map_run_cells _ _ _ hnodup, List.append_assoc]
  case behind =>
    intro slot i hi
    rw [JpegHwEncoder.fillSlot, encodeMoves_eq hfits]
    refine run_of_not_written fun hmem => ?_
    rw [(cells_dst _ _ _ _).mem_iff, places_inSlot, List.mem_range] at hmem
    omega
  case size =>
    intro hheight
    exact ⟨planarBytes_eq heven hheight, toNat_bytesUsed hfits hplanar⟩
  case reads =>
    rw [encodeMoves_eq hfits, copyMoves_eq hfits, hdata]
    exact ⟨fun m hm => cells_src_lt _ hw hm, fun m hm => cells_src_lt _ hw hm⟩
  case once =>
    rw [encodeMoves_eq hfits, copyMoves_eq hfits, ← places_inSlot]
    exact ⟨cells_dst _ _ _ _, cells_dst _ _ _ _⟩
  case y =>
    intro r hr c hc
    have hcell := cell_lt hr hc
    have hlt := lumaAt_lt hw hcell
    rw [lumaAt_cell hc] at hlt
    rw [hplanes, byteAt_eq (hlt.trans_le hrows)]
    simp only [List.getElem?_map, List.getElem?_range hcell, Option.map_some, lumaAt_cell hc]
  case cb =>
    intro r hr c hc
    have hcell := cell_lt hr hc
    have hlt := chromaAt_lt hw hcell
    rw [chromaAt_cell hc, ← hdata] at hlt
    rw [hplanes, byteAt_eq (Nat.lt_of_succ_lt hlt)]
    simp only [List.getElem?_map, List.getElem?_range hcell, Option.map_some, chromaAt_cell hc]
  case cr =>
    intro r hr c hc
    have hcell := cell_lt hr hc
    have hlt := chromaAt_lt hw hcell
    rw [chromaAt_cell hc, ← hdata] at hlt
    rw [hplanes, byteAt_eq hlt]
    simp only [List.getElem?_map, List.getElem?_range hcell, Option.map_some, chromaAt_cell hc]
  case visible =>
    rw [hplanes, interleave, RasPiZeroCam.visible, luma_visible hw hrows,
      ← chroma_visible heven hw hdata.ge, List.zip_map', List.flatMap_map]

/-- A frame of two pixels by two, in rows of four bytes. -/
theorem planar_agree_padded : PlanarAgree 2 2 4 [1, 2, 0, 0, 3, 4, 0, 0, 5, 6, 0, 0] ∧
    JpegMtEncoder.planes 2 2 4 [1, 2, 0, 0, 3, 4, 0, 0, 5, 6, 0, 0] =
      ⟨[1, 2, 3, 4], [5], [6]⟩ :=
  ⟨planar_agree ⟨1, rfl⟩ (by decide) (by decide) (by decide) rfl, by decide⟩

end RasPiZeroCam
