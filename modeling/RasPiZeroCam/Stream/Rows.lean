import RasPiZeroCam.Copies.Loop
import RasPiZeroCam.Stream.Planar

/-!
The rows that `do_encode` of the software encoder gives to libjpeg, sixteen at a time.

* `JpegMtEncoder.doEncode`: its calls of libjpeg; the pointers are offsets into the three vectors.
* `RowsFed`: the blocks hold the rows in order, then copies of the last ones; each chroma row comes
  with its two luma rows; every pointer is the start of a row.
* `rows_fed`: it holds for every height from 2 on, and the loop ends after `⌈H / 16⌉` passes.
-/

namespace RasPiZeroCam

open Copies

namespace JpegMtEncoder

/-- `y_rows`, `cb_rows` and `cr_rows`. -/
structure RowBlock where
  yRows : List ℕ
  cbRows : List ℕ
  crRows : List ℕ

/-- What `cinfo` is set up with. -/
structure CompressSettings where
  imageWidth : UInt32
  imageHeight : UInt32
  inputComponents : ℕ
  restartInterval : ℕ
  rawDataIn : Bool
  quality : ℤ

/-- The calls of libjpeg. -/
inductive JpegCall where
  | startCompress (cinfo : CompressSettings)
  | writeRawData (planes : RowBlock) (numLines : ℕ)
  | finishCompress

/-- The planes of a call of `jpeg_write_raw_data`. -/
def JpegCall.planes? : JpegCall → Option RowBlock
  | writeRawData planes _ => some planes
  | _ => none

/-- `Y_last`. -/
def yLast (W H : UInt32) : ℕ := ((H - 1) * W).toNat

/-- `cb_last`, and `cr_last`. -/
def chromaLast (W H : UInt32) : ℕ :=
  let uv_w := W / 2
  let uv_h := H / 2
  ((uv_h - 1) * uv_w).toNat

/-- `p`, of row `i` of the block at `row`. -/
def yRow (W H row : UInt32) (i : ℕ) : ℕ := (min (row + .ofNat i) (H - 1) * W).toNat

/-- `pc`, and `pv`. -/
def chromaRow (W H row : UInt32) (i : ℕ) : ℕ :=
  let uv_w := W / 2
  let uv_h := H / 2
  let uvr := row / 2 + .ofNat i
  (min uvr (uv_h - 1) * uv_w).toNat

/-- A pass of the loop. -/
def rowBlock (W H row : UInt32) : RowBlock where
  yRows := (List.range 16).map fun i => min (yRow W H row i) (yLast W H)
  cbRows := (List.range 8).map fun i => min (chromaRow W H row i) (chromaLast W H)
  crRows := (List.range 8).map fun i => min (chromaRow W H row i) (chromaLast W H)

/-- `for (uint32_t row = 0; row < H; row += 16)`. -/
def rowBlocks (W H : UInt32) (fuel : ℕ) : Option (List RowBlock) :=
  forLoop (fun row => decide (row < H)) (fun row => row + 16) (rowBlock W H) fuel 0

/-- `do_encode`. -/
def doEncode (quality_ : ℤ) (W H : UInt32) (fuel : ℕ) : Option (List JpegCall) :=
  (rowBlocks W H fuel).map fun blocks =>
    [.startCompress ⟨W, H, 3, 0, true, quality_⟩] ++ blocks.map (.writeRawData · 16) ++
      [.finishCompress]

end JpegMtEncoder

open JpegMtEncoder

/-- The rows of a plane, `rowBytes` apart: `n` of them, and copies of the last up to `total`. -/
def paddedRows (rowBytes n total : ℕ) : List ℕ :=
  (List.range n ++ List.replicate (total - n) (n - 1)).map (· * rowBytes)

/-- A row that starts at `p` is one of a plane. -/
def IsRow (rowBytes : ℕ) (plane : Bytes) (p : ℕ) : Prop :=
  rowBytes ∣ p ∧ p + rowBytes ≤ plane.length

/-- **The rows are fed in order**, for a frame of `w` by `h`: those of each plane, and then the last
one again up to the end of the block; the chroma row `k` is in the block of the luma rows `2 * k`
and `2 * k + 1`; and every pointer is the start of a row of its vector. -/
structure RowsFed (w h : ℕ) (buf : Planes) (blocks : List RowBlock) : Prop where
  count : blocks.length = (h + 15) / 16
  luma : blocks.flatMap (·.yRows) = paddedRows w h (16 * blocks.length)
  cb : blocks.flatMap (·.cbRows) = paddedRows (w / 2) (h / 2) (8 * blocks.length)
  cr : blocks.flatMap (·.crRows) = paddedRows (w / 2) (h / 2) (8 * blocks.length)
  aligned : ∀ k < 8 * blocks.length, ∃ b, blocks[k / 8]? = some b ∧
    b.cbRows[k % 8]? = some (min k (h / 2 - 1) * (w / 2)) ∧
    b.crRows[k % 8]? = some (min k (h / 2 - 1) * (w / 2)) ∧
    b.yRows[2 * (k % 8)]? = some (min (2 * k) (h - 1) * w) ∧
    b.yRows[2 * (k % 8) + 1]? = some (min (2 * k + 1) (h - 1) * w)
  inside : ∀ b ∈ blocks, (∀ p ∈ b.yRows, IsRow w buf.y p) ∧
    (∀ p ∈ b.cbRows, IsRow (w / 2) buf.cb p) ∧ ∀ p ∈ b.crRows, IsRow (w / 2) buf.cr p

/-- A loop over rows that are cut off at the last one. -/
lemma paddedRows_eq {rowBytes n total : ℕ} (hn : 0 < n) (htotal : n ≤ total) :
    paddedRows rowBytes n total = (List.range total).map fun k => min k (n - 1) * rowBytes := by
  have hrows := map_min_range (show n - 1 < total by omega)
  rw [Nat.sub_add_cancel hn] at hrows
  rw [paddedRows, ← hrows, List.map_map]
  rfl

/-- Such a row lies in its plane. -/
lemma isRow_clamped {rowBytes n : ℕ} {plane : Bytes} (hn : 0 < n)
    (hlength : plane.length = n * rowBytes) (k : ℕ) :
    IsRow rowBytes plane (min k (n - 1) * rowBytes) := by
  refine ⟨Dvd.intro_left _ rfl, ?_⟩
  calc min k (n - 1) * rowBytes + rowBytes
      = (min k (n - 1) + 1) * rowBytes := (Nat.succ_mul ..).symm
    _ ≤ n * rowBytes := Nat.mul_le_mul_right _ (by omega)
    _ = plane.length := hlength.symm

namespace JpegMtEncoder

variable {W H row : UInt32} {i k b : ℕ}

/-! ### The arithmetic of a pass -/

lemma toNat_min (a c : UInt32) : (min a c).toNat = min a.toNat c.toNat := by
  show (if a ≤ c then a else c).toNat = _
  split_ifs with hle
  · exact (min_eq_left (UInt32.le_iff_toNat_le.mp hle)).symm
  · have hlt : ¬ a.toNat ≤ c.toNat := fun h => hle (UInt32.le_iff_toNat_le.mpr h)
    exact (min_eq_right (not_le.mp hlt).le).symm

lemma toNat_ofNat {n : ℕ} (h : n < 2 ^ 32) : (UInt32.ofNat n).toNat = n :=
  UInt32.toNat_ofNat_of_lt' h

lemma toNat_pred {n : UInt32} (hn : 0 < n.toNat) : (n - 1).toNat = n.toNat - 1 :=
  UInt32.toNat_sub_of_le n 1 (UInt32.le_iff_toNat_le.mpr hn)

/-- The offset of the last row. -/
lemma toNat_last {n w : UInt32} (hn : 0 < n.toNat) (hfit : n.toNat * w.toNat < 2 ^ 32) :
    ((n - 1) * w).toNat = (n.toNat - 1) * w.toNat := by
  have hlast := toNat_pred hn
  rw [toNat_mul_of_lt, hlast]
  rw [hlast]
  exact lt_of_le_of_lt (Nat.mul_le_mul_right _ (Nat.sub_le _ _)) hfit

/-- A row index that is cut off at the last one keeps the offset within 32 bits. -/
lemma toNat_clamped {n w : UInt32} (x : UInt32) (hn : 0 < n.toNat)
    (hfit : n.toNat * w.toNat < 2 ^ 32) :
    (min x (n - 1) * w).toNat = min x.toNat (n.toNat - 1) * w.toNat := by
  have hrow : (min x (n - 1)).toNat = min x.toNat (n.toNat - 1) := by
    rw [toNat_min, toNat_pred hn]
  rw [toNat_mul_of_lt, hrow]
  rw [hrow]
  refine lt_of_le_of_lt (Nat.mul_le_mul_right _ ?_) hfit
  omega

/-- The frames for which the offsets are exact. -/
structure Encodes (W H : UInt32) : Prop where
  width : 2 ≤ W.toNat
  height : 2 ≤ H.toNat
  fits : W.toNat * H.toNat < 2 ^ 32

lemma Encodes.luma (h : Encodes W H) : H.toNat * W.toNat < 2 ^ 32 := Nat.mul_comm _ _ ▸ h.fits

lemma Encodes.chroma (h : Encodes W H) : (H / 2).toNat * (W / 2).toNat < 2 ^ 32 := by
  rw [toNat_div_two, toNat_div_two]
  exact (Nat.mul_le_mul (Nat.div_le_self _ _) (Nat.div_le_self _ _)).trans_lt h.luma

/-- No row number comes near the end of 32 bits. -/
lemma Encodes.height_lt (h : Encodes W H) : H.toNat < 2 ^ 31 := by
  have hle : 2 * H.toNat ≤ W.toNat * H.toNat := Nat.mul_le_mul_right _ h.width
  have hfits := h.fits
  omega

lemma Encodes.rows_pos (h : Encodes W H) : 0 < H.toNat := by
  have hheight := h.height
  omega

lemma Encodes.uvRows_pos (h : Encodes W H) : 0 < (H / 2).toNat := by
  rw [toNat_div_two]
  have hheight := h.height
  omega

/-- **The outer `std::min` on the pointers changes nothing.** -/
lemma Encodes.yRow_le (h : Encodes W H) (row : UInt32) (i : ℕ) : yRow W H row i ≤ yLast W H := by
  rw [yLast, yRow, toNat_clamped _ h.rows_pos h.luma, toNat_last h.rows_pos h.luma]
  exact Nat.mul_le_mul_right _ (min_le_right _ _)

lemma Encodes.chromaRow_le (h : Encodes W H) (row : UInt32) (i : ℕ) :
    chromaRow W H row i ≤ chromaLast W H := by
  simp only [chromaLast, chromaRow]
  rw [toNat_clamped _ h.uvRows_pos h.chroma, toNat_last h.uvRows_pos h.chroma]
  exact Nat.mul_le_mul_right _ (min_le_right _ _)

/-- The block number `b`. -/
def paddedBlock (w h b : ℕ) : RowBlock where
  yRows := (List.range 16).map fun i => min (b * 16 + i) (h - 1) * w
  cbRows := (List.range 8).map fun i => min (b * 8 + i) (h / 2 - 1) * (w / 2)
  crRows := (List.range 8).map fun i => min (b * 8 + i) (h / 2 - 1) * (w / 2)

/-- A pass, without 32-bit arithmetic. -/
lemma Encodes.rowBlock_eq (h : Encodes W H) (hb : b * 16 < H.toNat) :
    rowBlock W H (.ofNat (b * 16)) = paddedBlock W.toNat H.toNat b := by
  have hlt := h.height_lt
  have hrow : (UInt32.ofNat (b * 16)).toNat = b * 16 := toNat_ofNat (by omega)
  have hindex : ∀ i < 16, (UInt32.ofNat (b * 16) + .ofNat i).toNat = b * 16 + i := by
    intro i hi
    rw [UInt32.toNat_add, hrow, toNat_ofNat (by omega), Nat.mod_eq_of_lt (by omega)]
  have huv : ∀ i < 8, (UInt32.ofNat (b * 16) / 2 + .ofNat i).toNat = b * 8 + i := by
    intro i hi
    rw [UInt32.toNat_add, toNat_div_two, hrow, toNat_ofNat (by omega),
      Nat.mod_eq_of_lt (by omega)]
    omega
  have hluma : ∀ i ∈ List.range 16, min (yRow W H (.ofNat (b * 16)) i) (yLast W H) =
      min (b * 16 + i) (H.toNat - 1) * W.toNat := by
    intro i hi
    rw [min_eq_left (h.yRow_le _ _), yRow, toNat_clamped _ h.rows_pos h.luma,
      hindex i (List.mem_range.mp hi)]
  have hchroma : ∀ i ∈ List.range 8, min (chromaRow W H (.ofNat (b * 16)) i) (chromaLast W H) =
      min (b * 8 + i) (H.toNat / 2 - 1) * (W.toNat / 2) := by
    intro i hi
    rw [min_eq_left (h.chromaRow_le _ _)]
    simp only [chromaRow]
    rw [toNat_clamped _ h.uvRows_pos h.chroma, huv i (List.mem_range.mp hi), toNat_div_two,
      toNat_div_two]
  rw [rowBlock, paddedBlock, List.map_congr_left hluma, List.map_congr_left hchroma]

/-- **The passes of the loop.** -/
lemma Encodes.rowBlocks_eq (h : Encodes W H) (fuel : ℕ) :
    rowBlocks W H fuel = if (H.toNat + 15) / 16 < fuel then
      some ((List.range ((H.toNat + 15) / 16)).map (paddedBlock W.toNat H.toNat)) else none := by
  have hlt := h.height_lt
  have hrow : ∀ k ≤ (H.toNat + 15) / 16, (UInt32.ofNat (k * 16)).toNat = k * 16 :=
    fun k hk => toNat_ofNat (by omega)
  have hloop := forLoop_eq (n := (H.toNat + 15) / 16) (fun row => decide (row < H))
    (fun row => row + 16) (rowBlock W H) fuel (fun k => .ofNat (k * 16)) ?_ ?_
  · rw [rowBlocks]
    refine hloop.trans ?_
    congr 2
    refine List.map_congr_left fun k hk => h.rowBlock_eq ?_
    have hlt := List.mem_range.mp hk
    omega
  · intro k hk
    refine ⟨?_, ?_⟩
    · rw [decide_eq_true_eq, UInt32.lt_iff_toNat_lt, hrow k hk.le]
      omega
    · refine UInt32.toNat_inj.mp ?_
      rw [UInt32.toNat_add, hrow k hk.le, hrow (k + 1) hk]
      show (k * 16 + 16) % 2 ^ 32 = (k + 1) * 16
      rw [Nat.mod_eq_of_lt (by omega), Nat.succ_mul]
  · rw [decide_eq_false_iff_not, UInt32.lt_iff_toNat_lt, hrow _ le_rfl]
    omega

/-! ### The blocks together -/

/-- The rows of the first `n` blocks. -/
lemma flatMap_clamped (n c rowBytes rows : ℕ) (hrows : 0 < rows) (hn : rows ≤ c * n) :
    ((List.range n).flatMap fun b =>
      (List.range c).map fun i => min (b * c + i) (rows - 1) * rowBytes) =
        paddedRows rowBytes rows (c * n) := by
  rw [paddedRows_eq hrows hn, Nat.mul_comm c n]
  exact flatMap_blocks n c fun k => min k (rows - 1) * rowBytes

lemma planes_length (W H S : UInt32) (data : Bytes) :
    (planes W H S data).y.length = (W * H).toNat ∧
      (planes W H S data).cb.length = (W / 2 * (H / 2)).toNat ∧
        (planes W H S data).cr.length = (W / 2 * (H / 2)).toNat := by
  simp [planes]

/-- The vectors have room for all rows. -/
lemma Encodes.planes_length_eq (h : Encodes W H) (S : UInt32) (data : Bytes) :
    (planes W H S data).y.length = H.toNat * W.toNat ∧
      (planes W H S data).cb.length = H.toNat / 2 * (W.toNat / 2) ∧
        (planes W H S data).cr.length = H.toNat / 2 * (W.toNat / 2) := by
  obtain ⟨hy, hcb, hcr⟩ := planes_length W H S data
  have hluma : (W * H).toNat = H.toNat * W.toNat := by
    rw [toNat_mul_of_lt h.fits, Nat.mul_comm]
  have hfit : (W / 2).toNat * (H / 2).toNat < 2 ^ 32 := Nat.mul_comm _ _ ▸ h.chroma
  have hchroma : (W / 2 * (H / 2)).toNat = H.toNat / 2 * (W.toNat / 2) :=
    calc (W / 2 * (H / 2)).toNat = (W / 2).toNat * (H / 2).toNat := toNat_mul_of_lt hfit
      _ = W.toNat / 2 * (H.toNat / 2) := by rw [toNat_div_two, toNat_div_two]
      _ = H.toNat / 2 * (W.toNat / 2) := Nat.mul_comm _ _
  exact ⟨hy.trans hluma, hcb.trans hchroma, hcr.trans hchroma⟩

/-- **All blocks together.** -/
lemma Encodes.rowsFed (h : Encodes W H) (S : UInt32) (data : Bytes) :
    RowsFed W.toNat H.toNat (planes W H S data)
      ((List.range ((H.toNat + 15) / 16)).map (paddedBlock W.toNat H.toNat)) := by
  obtain ⟨hy, hcb, hcr⟩ := h.planes_length_eq S data
  have hpos := h.rows_pos
  have huv := h.uvRows_pos
  rw [toNat_div_two] at huv
  refine ⟨by simp, ?_, ?_, ?_, fun k hk => ?_, fun b hb => ?_⟩
  · rw [List.flatMap_map, List.length_map, List.length_range]
    exact flatMap_clamped _ 16 _ _ hpos (by omega)
  · rw [List.flatMap_map, List.length_map, List.length_range]
    exact flatMap_clamped _ 8 _ _ huv (by omega)
  · rw [List.flatMap_map, List.length_map, List.length_range]
    exact flatMap_clamped _ 8 _ _ huv (by omega)
  · rw [List.length_map, List.length_range] at hk
    have hblock : k / 8 < (H.toNat + 15) / 16 := by omega
    have hchroma : k % 8 < 8 := Nat.mod_lt _ (by omega)
    have hluma : 2 * (k % 8) + 1 < 16 := by omega
    refine ⟨paddedBlock W.toNat H.toNat (k / 8), by simp [hblock], ?_, ?_, ?_, ?_⟩
    · simp [paddedBlock, hchroma, Nat.div_add_mod']
    · simp [paddedBlock, hchroma, Nat.div_add_mod']
    · have hindex : k / 8 * 16 + 2 * (k % 8) = 2 * k := by omega
      have hlt : 2 * (k % 8) < 16 := by omega
      simp [paddedBlock, hlt, hindex]
    · have hindex : k / 8 * 16 + (2 * (k % 8) + 1) = 2 * k + 1 := by omega
      simp [paddedBlock, hluma, hindex]
  · obtain ⟨c, -, rfl⟩ := List.mem_map.mp hb
    refine ⟨fun p hp => ?_, fun p hp => ?_, fun p hp => ?_⟩
    · obtain ⟨i, -, rfl⟩ := List.mem_map.mp hp
      exact isRow_clamped hpos hy _
    · obtain ⟨i, -, rfl⟩ := List.mem_map.mp hp
      exact isRow_clamped huv hcb _
    · obtain ⟨i, -, rfl⟩ := List.mem_map.mp hp
      exact isRow_clamped huv hcr _

/-- The blocks in the calls of libjpeg. -/
lemma doEncode_planes (quality_ : ℤ) {fuel : ℕ} {blocks : List RowBlock}
    (h : rowBlocks W H fuel = some blocks) : ∃ calls, doEncode quality_ W H fuel = some calls ∧
      calls.filterMap JpegCall.planes? = blocks := by
  refine ⟨_, by rw [doEncode, h, Option.map_some], ?_⟩
  have hwrites : (blocks.map (JpegCall.writeRawData · 16)).filterMap JpegCall.planes? = blocks := by
    rw [List.filterMap_map]
    exact List.filterMap_some
  rw [List.filterMap_append, List.filterMap_append, hwrites]
  exact List.append_nil _

end JpegMtEncoder

/-- **`do_encode` feeds the rows in order**: its loop ends after `⌈H / 16⌉` passes. -/
theorem rows_fed {W H : UInt32} (hW : 2 ≤ W.toNat) (hH : 2 ≤ H.toNat)
    (hfit : W.toNat * H.toNat < 2 ^ 32) (quality_ : ℤ) (S : UInt32) (data : Bytes) (fuel : ℕ) :
    (fuel ≤ (H.toNat + 15) / 16 → doEncode quality_ W H fuel = none) ∧
    ((H.toNat + 15) / 16 < fuel → ∃ calls, doEncode quality_ W H fuel = some calls ∧
      RowsFed W.toNat H.toNat (planes W H S data) (calls.filterMap JpegCall.planes?)) ∧
    ∀ row i, yRow W H row i ≤ yLast W H ∧ chromaRow W H row i ≤ chromaLast W H := by
  have h : Encodes W H := ⟨hW, hH, hfit⟩
  have hblocks := h.rowBlocks_eq fuel
  refine ⟨fun hfuel => ?_, fun hfuel => ?_, fun row i => ⟨h.yRow_le row i, h.chromaRow_le row i⟩⟩
  · rw [if_neg (by omega)] at hblocks
    rw [doEncode, hblocks, Option.map_none]
  · rw [if_pos hfuel] at hblocks
    obtain ⟨calls, hcalls, heq⟩ := doEncode_planes quality_ hblocks
    exact ⟨calls, hcalls, heq ▸ h.rowsFed S data⟩

/-- The height 1080 is no multiple of 16: 68 blocks, the last half full. -/
theorem fullHd_fed : ∃ calls, doEncode 80 1920 1080 69 = some calls ∧
    RowsFed 1920 1080 (planes 1920 1080 1920 []) (calls.filterMap JpegCall.planes?) :=
  (rows_fed (W := 1920) (H := 1080) (by decide) (by decide) (by decide) 80 1920 [] 69).2.1
    (by decide)

end RasPiZeroCam
