import RasPiZeroCam.Power.BatteryMonitor

/-!
The driver of the sensor, byte by byte, and the chip at the other end of the bus.

* `Wire`: the registers of the chip, its register pointer, and which transfers are acknowledged.
  A write of three bytes stores a register, one of a single byte sets the pointer, and a read of
  two bytes takes the register there.
* `Wire.writeRegister`, `Wire.readRegister`, `Wire.calibrate`, `Wire.configure`,
  `Wire.initializeChip`, `Wire.readAndStore`: the driver over these transfers.
* `wire_record_eq`: a record that is read over the wire is one of the registers.
* `initializeChip_iff`: when `initialize()` returns true, and how it leaves the chip.
-/

namespace RasPiZeroCam

open Ina219 BatteryMonitor

/-- The value of an enumerator of `Register`. -/
def Register.code : Register → UInt8
  | .config => 0x00
  | .shuntVoltage => 0x01
  | .busVoltage => 0x02
  | .power => 0x03
  | .current => 0x04
  | .calibration => 0x05

/-- The chip, and the transfers on its bus. -/
structure Wire where
  acks : ℕ → Bool                     -- whether the `n`-th transfer succeeds
  measured : ℕ → UInt8 → UInt16       -- what the other registers hold by then
  transfers : ℕ
  pointer : UInt8
  config : UInt16
  calibration : UInt16

namespace Wire

def CONFIG_RESET_VALUE : UInt16 := 0x399F
def CONFIG_RST_BIT : UInt16 := 0x8000

/-- A register is written.  The RST bit resets the chip, and clears itself. -/
def store (w : Wire) (reg : UInt8) (value : UInt16) : Wire :=
  if reg = Register.code .config then
    if value &&& CONFIG_RST_BIT ≠ 0 then
      { w with
        config := CONFIG_RESET_VALUE
        calibration := 0 }
    else { w with config := value }
  else if reg = Register.code .calibration then { w with calibration := value }
  else w

/-- What a register holds. -/
def content (w : Wire) (reg : UInt8) : UInt16 :=
  if reg = Register.code .config then w.config
  else if reg = Register.code .calibration then w.calibration
  else w.measured w.transfers reg

/-- `write(fd_, buf, n)`: how many bytes were written, or -1. -/
def write (fd_ : ℤ) (buf : List UInt8) (w : Wire) : ℤ × Wire :=
  if fd_ < 0 then (-1, w)
  else if w.acks w.transfers then
    let w := match buf with
      | [reg] => { w with pointer := reg }
      | [reg, high, low] =>
          { w with pointer := reg }.store reg ((high.toUInt16 <<< 8) ||| low.toUInt16)
      | _ => w
    (buf.length, { w with transfers := w.transfers + 1 })
  else (-1, { w with transfers := w.transfers + 1 })

/-- `read(fd_, buf, 2)`: how many bytes were read, or -1, and the bytes. -/
def read (fd_ : ℤ) (w : Wire) : ℤ × (UInt8 × UInt8) × Wire :=
  if fd_ < 0 then (-1, (0, 0), w)
  else if w.acks w.transfers then
    let value := w.content w.pointer
    (2, ((value >>> 8).toUInt8, value.toUInt8), { w with transfers := w.transfers + 1 })
  else (-1, (0, 0), { w with transfers := w.transfers + 1 })

/-- `write_register(reg, value)`; a failure is only reported. -/
def writeRegister (fd_ : ℤ) (reg : Register) (value : UInt16) (w : Wire) : Wire :=
  (w.write fd_ [reg.code, ((value >>> 8) &&& 0xFF).toUInt8, (value &&& 0xFF).toUInt8]).2

/-- `read_register(reg)`. -/
def readRegister (fd_ : ℤ) (reg : Register) (w : Wire) : UInt16 × Wire :=
  let (n, w) := w.write fd_ [reg.code]
  if n ≠ 1 then (0, w)
  else
    let (n, buf, w) := w.read fd_
    if n ≠ 2 then (0, w) else ((buf.1.toUInt16 <<< 8) ||| buf.2.toUInt16, w)

/-- `calibrate()`. -/
def calibrate (s : Ina219) (w : Wire) : Ina219 × Wire :=
  let current_lsb_ma_ := MAX_EXPECTED_CURRENT_MA / MAX_CURR_BEFORE_OVERFLOW
  let power_lsb_mw_ := current_lsb_ma_ * POWER_LSB_FACTOR
  let calibration_value_ := UInt16.ofNat
    (truncate (ADAC_SCALING_CONSTANT / (current_lsb_ma_ / 1000 * R_SHUNT_OHM))).toNat
  ({ s with
    current_lsb_ma_ := current_lsb_ma_
    power_lsb_mw_ := power_lsb_mw_
    calibration_value_ := calibration_value_ },
    w.writeRegister s.fd_ .calibration calibration_value_)

/-- `configure(..)`, its arguments being the bits of their enumerators. -/
def configure (fd_ : ℤ) (bus_range gain bus_adc shunt_adc mode : UInt16) (w : Wire) : Wire :=
  w.writeRegister fd_ .config
    ((bus_range <<< 13) ||| (gain <<< 11) ||| (bus_adc <<< 7) ||| (shunt_adc <<< 3) ||| mode)

/-- `initialize()`. -/
def initializeChip (s : Ina219) (w : Wire) : Bool × Ina219 × Wire :=
  if s.fd_ < 0 then (false, s, w)
  else
    let w := w.writeRegister s.fd_ .config CONFIG_RST_BIT
    let (config, w) := w.readRegister s.fd_ .config
    if config ≠ CONFIG_RESET_VALUE then (false, s, w)
    else
      let (s, w) := calibrate s w
      let w := w.configure s.fd_ 0x00 0x01 0x0D 0x0D 0x07
      let (cal, w) := w.readRegister s.fd_ .calibration
      if cal ≠ s.calibration_value_ then (false, s, w) else (true, s, w)

/-- `read_bus_voltage_v()`. -/
def readBusVoltageV (s : Ina219) (w : Wire) : ℚ × Wire :=
  let w := w.writeRegister s.fd_ .calibration s.calibration_value_
  let (raw, w) := w.readRegister s.fd_ .busVoltage
  (busVolts raw, w)

/-- `read_current_ma()`. -/
def readCurrentMa (s : Ina219) (w : Wire) : ℚ × Wire :=
  let (raw, w) := w.readRegister s.fd_ .current
  (raw.toInt16.toInt * s.current_lsb_ma_, w)

/-- `read_power_mw()`. -/
def readPowerMw (s : Ina219) (w : Wire) : ℚ × Wire :=
  let w := w.writeRegister s.fd_ .calibration s.calibration_value_
  let (raw, w) := w.readRegister s.fd_ .power
  (raw.toInt16.toInt * s.power_lsb_mw_, w)

/-- `read_percentage()`. -/
def readPercentage (s : Ina219) (w : Wire) : ℤ × Wire :=
  let (v, w) := readBusVoltageV s w
  (percentage v, w)

/-- `is_charging()`. -/
def isCharging (s : Ina219) (w : Wire) : Bool × Wire :=
  let (i, w) := readCurrentMa s w
  (decide (i > 0), w)

/-- `read_and_store()`. -/
def readAndStore (s : Ina219) (w : Wire) : BatteryRecord × Wire :=
  let (v, w) := readBusVoltageV s w
  let (i, w) := readCurrentMa s w
  let (p, w) := readPowerMw s w
  let (pct, w) := readPercentage s w
  let (chg, w) := isCharging s w
  ({ voltage_ := v
     current_ma_ := i
     power_mw_ := p
     percentage_ := pct
     charging_ := chg
     low_battery_ := decide (pct < LOW_BATTERY_PCT) }, w)

/-! ### One transfer -/

/-- Two bytes, the high one first. -/
lemma toNat_join (high low : UInt8) :
    ((high.toUInt16 <<< 8) ||| low.toUInt16).toNat = high.toNat * 256 + low.toNat := by
  have hhigh := high.toNat_lt
  have hlow : low.toNat < 2 ^ 8 := low.toNat_lt
  rw [UInt16.toNat_or, UInt16.toNat_shiftLeft, UInt8.toNat_toUInt16, UInt8.toNat_toUInt16]
  have hshift : (high.toNat <<< (UInt16.toNat 8 % 16)) % 2 ^ 16 = high.toNat <<< 8 := by
    rw [show UInt16.toNat 8 % 16 = 8 from rfl, Nat.shiftLeft_eq]
    omega
  rw [hshift, ← Nat.shiftLeft_add_eq_or_of_lt hlow, Nat.shiftLeft_eq]

/-- The bytes of a value give it back. -/
lemma join_bytes (value : UInt16) :
    ((value >>> 8).toUInt8.toUInt16 <<< 8) ||| value.toUInt8.toUInt16 = value := by
  have hvalue := value.toNat_lt
  apply UInt16.toNat_inj.mp
  rw [toNat_join, UInt16.toNat_toUInt8, UInt16.toNat_toUInt8, UInt16.toNat_shiftRight,
    show UInt16.toNat 8 % 16 = 8 from rfl, Nat.shiftRight_eq_div_pow]
  omega

/-- A byte is its low eight bits. -/
lemma toUInt8_and (value : UInt16) : (value &&& 0xFF).toUInt8 = value.toUInt8 := by
  apply UInt8.toNat_inj.mp
  rw [UInt16.toNat_toUInt8, UInt16.toNat_toUInt8, UInt16.toNat_and,
    show UInt16.toNat 0xFF = 2 ^ 8 - 1 from rfl, Nat.and_two_pow_sub_one_eq_mod]
  omega

variable {fd_ : ℤ} {w : Wire} {reg : Register}

/-- A register is written. -/
lemma writeRegister_acked (hfd : ¬ fd_ < 0) (hack : w.acks w.transfers = true) (value : UInt16) :
    w.writeRegister fd_ reg value =
      { ({ w with pointer := reg.code }).store reg.code value with
        transfers := w.transfers + 1 } := by
  have hkept : (({ w with pointer := reg.code }).store reg.code value).transfers =
      w.transfers := by
    rw [store]
    split_ifs <;> rfl
  rw [writeRegister, write, if_neg hfd, if_pos hack, toUInt8_and, toUInt8_and, join_bytes]
  simp only [hkept]

/-- A write that fails. -/
lemma writeRegister_failed (hfd : ¬ fd_ < 0) (hack : w.acks w.transfers = false) (value : UInt16) :
    w.writeRegister fd_ reg value = { w with transfers := w.transfers + 1 } := by
  rw [writeRegister, write, if_neg hfd, hack]
  rfl

/-- A register is read. -/
lemma readRegister_acked (hfd : ¬ fd_ < 0) (hack : w.acks w.transfers = true)
    (hack' : w.acks (w.transfers + 1) = true) :
    w.readRegister fd_ reg =
      (({ w with transfers := w.transfers + 1 }).content reg.code,
        { w with
          pointer := reg.code
          transfers := w.transfers + 2 }) := by
  rw [readRegister, write, if_neg hfd, if_pos hack]
  simp only [List.length_singleton, Nat.cast_one, ne_eq, not_true_eq_false, if_false]
  rw [read, if_neg hfd, if_pos hack']
  simp only [not_true_eq_false, if_false, join_bytes]
  rfl

/-- A read of which one of the two transfers fails. -/
lemma readRegister_failed (hfd : ¬ fd_ < 0)
    (hack : ¬ (w.acks w.transfers = true ∧ w.acks (w.transfers + 1) = true)) :
    (w.readRegister fd_ reg).1 = 0 := by
  rw [readRegister, write, if_neg hfd]
  by_cases hfirst : w.acks w.transfers = true
  · have hsecond : w.acks (w.transfers + 1) = false :=
      Bool.eq_false_iff.mpr fun h => hack ⟨hfirst, h⟩
    rw [if_pos hfirst]
    simp only [List.length_singleton, Nat.cast_one, ne_eq, not_true_eq_false, if_false]
    rw [read, if_neg hfd, hsecond]
    rfl
  · rw [if_neg hfirst]
    rfl

/-- A sensor that is not open. -/
lemma readRegister_closed (hfd : fd_ < 0) : (w.readRegister fd_ reg).1 = 0 := by
  rw [readRegister, write, if_pos hfd]
  rfl

/-- **A value read over the wire** is what two bytes, or a failure, stand for on the bus. -/
lemma readRegister_answer (fd_ : ℤ) (reg : Register) (w : Wire) :
    ∃ answer : Option (UInt8 × UInt8), ∀ (bus : I2c) (n : ℕ) (reg' : Register),
      bus.answer n reg' = answer → bus.value n reg' = (w.readRegister fd_ reg).1 := by
  have hnone : (w.readRegister fd_ reg).1 = 0 → ∃ answer : Option (UInt8 × UInt8),
      ∀ (bus : I2c) (n : ℕ) (reg' : Register), bus.answer n reg' = answer →
        bus.value n reg' = (w.readRegister fd_ reg).1 := by
    intro hzero
    refine ⟨none, fun bus n reg' hanswer => ?_⟩
    rw [I2c.value, hanswer, hzero]
  by_cases hfd : fd_ < 0
  · exact hnone (readRegister_closed hfd)
  · by_cases hack : w.acks w.transfers = true ∧ w.acks (w.transfers + 1) = true
    · rw [readRegister_acked hfd hack.1 hack.2]
      generalize ({ w with transfers := w.transfers + 1 }).content reg.code = value
      refine ⟨some ((value >>> 8).toUInt8, value.toUInt8), fun bus n reg' hanswer => ?_⟩
      rw [I2c.value, hanswer]
      exact join_bytes value
    · exact hnone (readRegister_failed hfd hack)

/-! ### Initialization -/

/-- The value that `calibrate` writes, and the one that `configure` does. -/
def CALIBRATION_VALUE : UInt16 := 26842

def CONFIG_VALUE : UInt16 := 0x0EEF

/-- The formula of `calibrate`. -/
lemma calibrate_eq (s : Ina219) (w : Wire) :
    (calibrate s w).1.calibration_value_ = CALIBRATION_VALUE ∧
      (calibrate s w).1.fd_ = s.fd_ ∧
      (calibrate s w).2 = w.writeRegister s.fd_ .calibration CALIBRATION_VALUE := by
  have hvalue : truncate (ADAC_SCALING_CONSTANT /
      (MAX_EXPECTED_CURRENT_MA / MAX_CURR_BEFORE_OVERFLOW / 1000 * R_SHUNT_OHM)) = 26842 := by
    have hformula : ADAC_SCALING_CONSTANT /
        (MAX_EXPECTED_CURRENT_MA / MAX_CURR_BEFORE_OVERFLOW / 1000 * R_SHUNT_OHM) =
          (1048544 / 39.0625 : ℚ) := by
      norm_num [ADAC_SCALING_CONSTANT, MAX_EXPECTED_CURRENT_MA, MAX_CURR_BEFORE_OVERFLOW,
        R_SHUNT_OHM]
    rw [hformula, truncate, if_neg (by norm_num), Int.floor_eq_iff]
    norm_num
  have hcal : UInt16.ofNat (truncate (ADAC_SCALING_CONSTANT /
      (MAX_EXPECTED_CURRENT_MA / MAX_CURR_BEFORE_OVERFLOW / 1000 * R_SHUNT_OHM))).toNat =
        CALIBRATION_VALUE := by
    rw [hvalue]
    rfl
  exact ⟨hcal, rfl, congrArg (fun v => w.writeRegister s.fd_ .calibration v) hcal⟩

/-- What `configure` writes. -/
lemma configure_eq (w : Wire) : w.configure fd_ 0x00 0x01 0x0D 0x0D 0x07 =
    w.writeRegister fd_ .config CONFIG_VALUE := rfl

/-- A write, to CONFIG or to CALIBRATION. -/
lemma writeRegister_state (reg : Register) (hfd : ¬ fd_ < 0) (value : UInt16) :
    (w.writeRegister fd_ reg value).acks = w.acks ∧
      (w.writeRegister fd_ reg value).transfers = w.transfers + 1 ∧
      (w.writeRegister fd_ .config value).config =
        (if w.acks w.transfers = true then
          if value &&& CONFIG_RST_BIT ≠ 0 then CONFIG_RESET_VALUE else value
        else w.config) ∧
      (w.writeRegister fd_ .config value).calibration =
        (if w.acks w.transfers = true ∧ value &&& CONFIG_RST_BIT ≠ 0 then 0 else w.calibration) ∧
      (w.writeRegister fd_ .calibration value).config = w.config ∧
      (w.writeRegister fd_ .calibration value).calibration =
        (if w.acks w.transfers = true then value else w.calibration) := by
  by_cases hack : w.acks w.transfers = true
  · rw [writeRegister_acked hfd hack, writeRegister_acked hfd hack, writeRegister_acked hfd hack]
    have hkept : ∀ v : Wire, (v.store reg.code value).acks = v.acks := by
      intro v
      rw [store]
      split_ifs <;> rfl
    refine ⟨hkept _, rfl, ?_, ?_, ?_, ?_⟩
    · rw [if_pos hack, store, if_pos rfl]
      split_ifs <;> rfl
    · rw [store, if_pos rfl]
      by_cases hreset : value &&& CONFIG_RST_BIT ≠ 0
      · rw [if_pos hreset, if_pos ⟨hack, hreset⟩]
      · rw [if_neg hreset, if_neg fun h => hreset h.2]
    · rfl
    · rw [if_pos hack]
      rfl
  · rw [writeRegister_failed hfd (Bool.eq_false_iff.mpr hack),
      writeRegister_failed hfd (Bool.eq_false_iff.mpr hack),
      writeRegister_failed hfd (Bool.eq_false_iff.mpr hack)]
    refine ⟨rfl, rfl, ?_, ?_, rfl, ?_⟩
    · rw [if_neg hack]
    · rw [if_neg fun h => hack h.1]
    · rw [if_neg hack]

/-- A read of CONFIG or CALIBRATION gives `value`, if not 0, when both transfers succeed. -/
lemma readRegister_eq_iff (hfd : ¬ fd_ < 0) {value : UInt16} (hne : value ≠ 0) :
    (w.readRegister fd_ reg).1 = value ↔
      w.acks w.transfers = true ∧ w.acks (w.transfers + 1) = true ∧
        ({ w with transfers := w.transfers + 1 }).content reg.code = value := by
  by_cases hack : w.acks w.transfers = true ∧ w.acks (w.transfers + 1) = true
  · rw [readRegister_acked hfd hack.1 hack.2]
    exact ⟨fun h => ⟨hack.1, hack.2, h⟩, fun h => h.2.2⟩
  · rw [readRegister_failed hfd hack]
    exact iff_of_false (fun h => hne h.symm) fun h => hack ⟨h.1, h.2.1⟩

/-! ### A record -/

/-- The registers that `read_and_store` reads, in that order, and the transfers that read them when
none fails. -/
def order : Fin 5 → Register := ![.busVoltage, .current, .power, .busVoltage, .current]

def position : Fin 5 → ℕ := ![2, 4, 7, 10, 12]

/-- `w'` is what is left of `w` after some transfers, all acknowledged. -/
structure After (w w' : Wire) (n : ℕ) : Prop where
  acks : w'.acks = w.acks
  measured : w'.measured = w.measured
  transfers : w'.transfers = w.transfers + n

/-- A write that succeeds is one transfer. -/
lemma After.write {w₀ : Wire} {n : ℕ} (h : After w₀ w n) (reg : Register) (hfd : ¬ fd_ < 0)
    (hall : ∀ n, w₀.acks n = true) (value : UInt16) :
    After w₀ (w.writeRegister fd_ reg value) (n + 1) := by
  rw [writeRegister_acked hfd (by rw [h.acks]; exact hall _)]
  have hkept : ∀ v : Wire, (v.store reg.code value).acks = v.acks ∧
      (v.store reg.code value).measured = v.measured := by
    intro v
    rw [store]
    split_ifs <;> exact ⟨rfl, rfl⟩
  exact ⟨(hkept _).1.trans h.acks, (hkept _).2.trans h.measured, congrArg (· + 1) h.transfers⟩

/-- A read that succeeds is two, and gives what the chip has measured by the second. -/
lemma After.read {w₀ : Wire} {n : ℕ} (h : After w₀ w n) (hfd : ¬ fd_ < 0)
    (hall : ∀ n, w₀.acks n = true) (hreg : reg ≠ .config ∧ reg ≠ .calibration) :
    After w₀ (w.readRegister fd_ reg).2 (n + 2) ∧
      (w.readRegister fd_ reg).1 = w₀.measured (w₀.transfers + n + 1) reg.code := by
  rw [readRegister_acked hfd (by rw [h.acks]; exact hall _) (by rw [h.acks]; exact hall _)]
  refine ⟨⟨h.acks, h.measured, congrArg (· + 2) h.transfers⟩, ?_⟩
  have hcode : reg.code ≠ Register.code .config ∧ reg.code ≠ Register.code .calibration := by
    obtain ⟨hconfig, hcalibration⟩ := hreg
    cases reg <;> first | exact absurd rfl hconfig | exact absurd rfl hcalibration | decide
  rw [content, if_neg hcode.1, if_neg hcode.2, h.measured, h.transfers]

/-- The chip before each of the five reads. -/
def beforeRead (s : Ina219) (w : Wire) : Fin 5 → Wire :=
  let w₀ := w.writeRegister s.fd_ .calibration s.calibration_value_
  let w₁ := (w₀.readRegister s.fd_ .busVoltage).2
  let w₂ := (w₁.readRegister s.fd_ .current).2.writeRegister s.fd_ .calibration
    s.calibration_value_
  let w₃ := (w₂.readRegister s.fd_ .power).2.writeRegister s.fd_ .calibration s.calibration_value_
  let w₄ := (w₃.readRegister s.fd_ .busVoltage).2
  ![w₀, w₁, w₂, w₃, w₄]

/-- What they give. -/
def raw (s : Ina219) (w : Wire) (k : Fin 5) : UInt16 :=
  ((beforeRead s w k).readRegister s.fd_ (order k)).1

/-- A record is made of the five readings. -/
lemma readAndStore_raw (s : Ina219) (w : Wire) : (readAndStore s w).1 =
    { voltage_ := busVolts (raw s w 0)
      current_ma_ := (raw s w 1).toInt16.toInt * s.current_lsb_ma_
      power_mw_ := (raw s w 2).toInt16.toInt * s.power_lsb_mw_
      percentage_ := percentage (busVolts (raw s w 3))
      charging_ := decide ((raw s w 4).toInt16.toInt * s.current_lsb_ma_ > 0)
      low_battery_ := decide (percentage (busVolts (raw s w 3)) < LOW_BATTERY_PCT) } := by
  -- whatever the transfers do
  unfold readAndStore isCharging readPercentage readPowerMw readCurrentMa readBusVoltageV raw
    beforeRead
  generalize readRegister = read
  generalize writeRegister = write
  rfl

/-- When nothing fails, a reading is what the chip has measured by then. -/
lemma raw_acked {s : Ina219} {w : Wire} (hfd : ¬ s.fd_ < 0) (hall : ∀ n, w.acks n = true)
    (k : Fin 5) : raw s w k = w.measured (w.transfers + position k) (order k).code := by
  have hstart : After w w 0 := ⟨rfl, rfl, rfl⟩
  have hvoltage : Register.busVoltage ≠ .config ∧ Register.busVoltage ≠ .calibration := by decide
  have hcurrent : Register.current ≠ .config ∧ Register.current ≠ .calibration := by decide
  have hpower : Register.power ≠ .config ∧ Register.power ≠ .calibration := by decide
  have h₀ := hstart.write .calibration hfd hall s.calibration_value_
  have h₁ := (h₀.read hfd hall hvoltage).1
  have h₂ := (h₁.read hfd hall hcurrent).1.write .calibration hfd hall
    s.calibration_value_
  have h₃ := (h₂.read hfd hall hpower).1.write .calibration hfd hall s.calibration_value_
  have h₄ := (h₃.read hfd hall hvoltage).1
  fin_cases k
  · exact (h₀.read hfd hall hvoltage).2
  · exact (h₁.read hfd hall hcurrent).2
  · exact (h₂.read hfd hall hpower).2
  · exact (h₃.read hfd hall hvoltage).2
  · exact (h₄.read hfd hall hcurrent).2

end Wire

open Wire

/-- **The driver on the wire refines the registers**: whatever the chip holds and whichever
transfers fail, a record is one that `read_and_store` reads from a bus of registers; and when none
fails, that bus answers with what the chip has measured. -/
theorem wire_record_eq (s : Ina219) (w : Wire) : ∃ bus : I2c,
    (Wire.readAndStore s w).1 = ((BatteryMonitor.readAndStore s).run bus).1 ∧
      (¬ s.fd_ < 0 → (∀ n, w.acks n = true) → ∀ k : Fin 5,
        reading bus k (order k) = w.measured (w.transfers + position k) (order k).code) := by
  choose answer hanswer using fun k =>
    readRegister_answer s.fd_ (order k) (beforeRead s w k)
  -- the `n`-th read is answered as that of the wire
  let bus : I2c := {
    answer := fun n _ => if h : n < 5 then answer ⟨n, h⟩ else none
    reads := 0
    written := [] }
  have hreading : ∀ k : Fin 5, ∀ reg, reading bus k reg = raw s w k := by
    intro k reg
    refine hanswer k bus (0 + k) reg ?_
    rw [Nat.zero_add]
    exact dif_pos k.isLt
  refine ⟨bus, ?_, fun hfd hall k => (hreading k _).trans (raw_acked hfd hall k)⟩
  rw [readAndStore_raw]
  by_cases hfd : s.fd_ < 0
  · have hraw : ∀ k, raw s w k = 0 := fun k => readRegister_closed hfd
    rw [readAndStore_closed hfd, hraw, hraw, hraw, hraw, hraw]
    have hzero : ((0 : UInt16).toInt16.toInt : ℚ) = 0 := Int.cast_eq_zero.mpr (by decide)
    rw [hzero, zero_mul, zero_mul]
    rfl
  · rw [readAndStore_open hfd]
    rw [← hreading 0 .busVoltage, ← hreading 1 .current, ← hreading 2 .power,
      ← hreading 3 .busVoltage, ← hreading 4 .current]
    rfl

namespace Wire

variable {s : Ina219} {w : Wire}

/-- The chip after the reset, after the first check, and after `calibrate` and `configure`. -/
def wasReset (s : Ina219) (w : Wire) : Wire := w.writeRegister s.fd_ .config CONFIG_RST_BIT

def wasChecked (s : Ina219) (w : Wire) : Wire := ((wasReset s w).readRegister s.fd_ .config).2

def wasConfigured (s : Ina219) (w : Wire) : Wire :=
  ((wasChecked s w).writeRegister s.fd_ .calibration CALIBRATION_VALUE).writeRegister s.fd_ .config
    CONFIG_VALUE

/-- The two checks of `initialize()`. -/
lemma initializeChip_checks (hfd : ¬ s.fd_ < 0) :
    ((initializeChip s w).1 = true ↔
      ((wasReset s w).readRegister s.fd_ .config).1 = CONFIG_RESET_VALUE ∧
        ((wasConfigured s w).readRegister s.fd_ .calibration).1 = CALIBRATION_VALUE) ∧
    ((initializeChip s w).1 = true →
      (initializeChip s w).2.1.calibration_value_ = CALIBRATION_VALUE ∧
        (initializeChip s w).2.2 = ((wasConfigured s w).readRegister s.fd_ .calibration).2) := by
  obtain ⟨hcal, hfd', hwire⟩ := calibrate_eq s (wasChecked s w)
  have hunfold : initializeChip s w =
      if ((wasReset s w).readRegister s.fd_ .config).1 ≠ CONFIG_RESET_VALUE then
        (false, s, wasChecked s w)
      else
        let c := calibrate s (wasChecked s w)
        let v := c.2.configure c.1.fd_ 0x00 0x01 0x0D 0x0D 0x07
        if (v.readRegister c.1.fd_ .calibration).1 ≠ c.1.calibration_value_ then
          (false, c.1, (v.readRegister c.1.fd_ .calibration).2)
        else (true, c.1, (v.readRegister c.1.fd_ .calibration).2) := by
    rw [initializeChip, if_neg hfd]
    rfl
  have hfold : ((wasChecked s w).writeRegister s.fd_ .calibration CALIBRATION_VALUE).writeRegister
      s.fd_ .config CONFIG_VALUE = wasConfigured s w := rfl
  rw [hunfold]
  simp only [hfd', hcal, hwire, configure_eq, hfold]
  by_cases hconfig : ((wasReset s w).readRegister s.fd_ .config).1 = CONFIG_RESET_VALUE
  · by_cases hread : ((wasConfigured s w).readRegister s.fd_ .calibration).1 = CALIBRATION_VALUE
    · rw [if_neg (not_not.mpr hconfig), if_neg (not_not.mpr hread)]
      exact ⟨iff_of_true rfl ⟨hconfig, hread⟩, fun _ => ⟨hcal, rfl⟩⟩
    · rw [if_neg (not_not.mpr hconfig), if_pos hread]
      exact ⟨iff_of_false (fun h => by cases h) fun h => hread h.2, fun h => by cases h⟩
  · rw [if_pos hconfig]
    exact ⟨iff_of_false (fun h => by cases h) fun h => hconfig h.1, fun h => by cases h⟩

/-- The first check. -/
lemma reset_check_iff (hfd : ¬ s.fd_ < 0) :
    ((wasReset s w).readRegister s.fd_ .config).1 = CONFIG_RESET_VALUE ↔
      w.acks (w.transfers + 1) = true ∧ w.acks (w.transfers + 2) = true ∧
        (w.acks w.transfers = true ∨ w.config = CONFIG_RESET_VALUE) := by
  obtain ⟨hacks, htransfers, hconfig, -⟩ :=
    writeRegister_state (w := w) .config hfd CONFIG_RST_BIT
  have hcontent : ∀ t, ({ wasReset s w with transfers := t }).content (Register.code .config) =
      if w.acks w.transfers = true then CONFIG_RESET_VALUE else w.config := fun t => hconfig
  rw [readRegister_eq_iff hfd (by decide), hcontent]
  rw [wasReset, hacks, htransfers]
  refine and_congr_right fun _ => and_congr_right fun _ => ?_
  split_ifs with hack
  · exact iff_of_true rfl (Or.inl hack)
  · exact (or_iff_right hack).symm

/-- The chip after the first check, when it is passed. -/
lemma wasChecked_state (hfd : ¬ s.fd_ < 0)
    (hcheck : w.acks (w.transfers + 1) = true ∧ w.acks (w.transfers + 2) = true) :
    (wasChecked s w).acks = w.acks ∧ (wasChecked s w).transfers = w.transfers + 3 ∧
      (wasChecked s w).calibration = if w.acks w.transfers = true then 0 else w.calibration := by
  obtain ⟨hacks, htransfers, -, hcalibration, -⟩ :=
    writeRegister_state (w := w) .config hfd CONFIG_RST_BIT
  have hack₁ : (wasReset s w).acks (wasReset s w).transfers = true := by
    rw [wasReset, hacks, htransfers]
    exact hcheck.1
  have hack₂ : (wasReset s w).acks ((wasReset s w).transfers + 1) = true := by
    rw [wasReset, hacks, htransfers]
    exact hcheck.2
  rw [wasChecked, readRegister_acked hfd hack₁ hack₂]
  refine ⟨hacks, congrArg (· + 2) htransfers, hcalibration.trans ?_⟩
  have hreset : CONFIG_RST_BIT &&& CONFIG_RST_BIT ≠ 0 := by decide
  simp only [hreset, ne_eq, not_false_eq_true, and_true]

/-- The chip when its calibration is read back. -/
lemma wasConfigured_state (hfd : ¬ s.fd_ < 0)
    (hcheck : w.acks (w.transfers + 1) = true ∧ w.acks (w.transfers + 2) = true) :
    (wasConfigured s w).acks = w.acks ∧ (wasConfigured s w).transfers = w.transfers + 5 ∧
      (wasConfigured s w).calibration =
        (if w.acks (w.transfers + 3) = true then CALIBRATION_VALUE
        else if w.acks w.transfers = true then 0 else w.calibration) ∧
      ((wasChecked s w).config = CONFIG_RESET_VALUE → (wasConfigured s w).config =
        if w.acks (w.transfers + 4) = true then CONFIG_VALUE else CONFIG_RESET_VALUE) := by
  obtain ⟨hacks, htransfers, hcalibration⟩ := wasChecked_state hfd hcheck
  obtain ⟨hacks₁, htransfers₁, -, -, hconfig₁, hcalibration₁⟩ :=
    writeRegister_state (w := wasChecked s w) .calibration hfd CALIBRATION_VALUE
  obtain ⟨hacks₂, htransfers₂, hconfig₂, hcalibration₂, -⟩ :=
    writeRegister_state (w := (wasChecked s w).writeRegister s.fd_ .calibration CALIBRATION_VALUE)
      .config hfd CONFIG_VALUE
  have hplain : ¬ CONFIG_VALUE &&& CONFIG_RST_BIT ≠ 0 := by decide
  rw [wasConfigured]
  refine ⟨hacks₂.trans (hacks₁.trans hacks), by rw [htransfers₂, htransfers₁, htransfers], ?_, ?_⟩
  · rw [hcalibration₂, if_neg fun h => hplain h.2, hcalibration₁, hacks, htransfers, hcalibration]
  · intro hreset
    rw [hconfig₂, if_neg hplain, hacks₁, htransfers₁, hconfig₁, hacks, htransfers, hreset]

end Wire

/-- **When `initialize()` returns true**: the sensor is open, both registers were read back, the
chip was reset (or looked so), and the calibration was written (or was there).  Then the chip is
calibrated; whether it is configured was not checked. -/
theorem initializeChip_iff (s : Ina219) (w : Wire) :
    ((initializeChip s w).1 = true ↔
      ¬ s.fd_ < 0 ∧ (∀ k ∈ [1, 2, 5, 6], w.acks (w.transfers + k) = true) ∧
        (w.acks w.transfers = true ∨ w.config = CONFIG_RESET_VALUE) ∧
        (w.acks (w.transfers + 3) = true ∨
          (w.acks w.transfers = false ∧ w.calibration = CALIBRATION_VALUE))) ∧
    ((initializeChip s w).1 = true →
      (initializeChip s w).2.1.calibration_value_ = CALIBRATION_VALUE ∧
      (initializeChip s w).2.2.calibration = CALIBRATION_VALUE ∧
      (initializeChip s w).2.2.config =
        if w.acks (w.transfers + 4) = true then CONFIG_VALUE else CONFIG_RESET_VALUE) := by
  by_cases hfd : s.fd_ < 0
  · have hfalse : (initializeChip s w).1 = false := by rw [initializeChip, if_pos hfd]
    rw [hfalse]
    exact ⟨iff_of_false Bool.false_ne_true fun h => h.1 hfd, fun h => by cases h⟩
  obtain ⟨hchecks, hresult⟩ := initializeChip_checks (w := w) hfd
  have hne : CALIBRATION_VALUE ≠ 0 := by decide
  -- the second check, once the first is passed
  have hsecond : w.acks (w.transfers + 1) = true ∧ w.acks (w.transfers + 2) = true →
      (((wasConfigured s w).readRegister s.fd_ .calibration).1 = CALIBRATION_VALUE ↔
        w.acks (w.transfers + 5) = true ∧ w.acks (w.transfers + 6) = true ∧
          (w.acks (w.transfers + 3) = true ∨
            (w.acks w.transfers = false ∧ w.calibration = CALIBRATION_VALUE))) := by
    intro hcheck
    obtain ⟨hacks, htransfers, hcalibration, -⟩ := wasConfigured_state hfd hcheck
    have hcontent : ∀ t,
        ({ wasConfigured s w with transfers := t }).content (Register.code .calibration) =
          if w.acks (w.transfers + 3) = true then CALIBRATION_VALUE
          else if w.acks w.transfers = true then 0 else w.calibration := fun t => hcalibration
    rw [readRegister_eq_iff hfd hne, hcontent, hacks, htransfers]
    refine and_congr_right fun _ => and_congr_right fun _ => ?_
    split_ifs with hthird hfirst
    · exact iff_of_true rfl (Or.inl hthird)
    · refine iff_of_false (fun h => hne h.symm) ?_
      rintro (h | ⟨h, -⟩)
      · exact hthird h
      · cases hfirst.symm.trans h
    · have hfirst' : w.acks w.transfers = false := Bool.eq_false_iff.mpr hfirst
      exact ⟨fun h => Or.inr ⟨hfirst', h⟩, fun h => (h.resolve_left hthird).2⟩
  have hiff : (initializeChip s w).1 = true ↔
      ¬ s.fd_ < 0 ∧ (∀ k ∈ [1, 2, 5, 6], w.acks (w.transfers + k) = true) ∧
        (w.acks w.transfers = true ∨ w.config = CONFIG_RESET_VALUE) ∧
        (w.acks (w.transfers + 3) = true ∨
          (w.acks w.transfers = false ∧ w.calibration = CALIBRATION_VALUE)) := by
    rw [hchecks, reset_check_iff hfd]
    constructor
    · rintro ⟨⟨h₁, h₂, hreset⟩, hread⟩
      obtain ⟨h₅, h₆, hwritten⟩ := (hsecond ⟨h₁, h₂⟩).mp hread
      refine ⟨hfd, ?_, hreset, hwritten⟩
      simp [h₁, h₂, h₅, h₆]
    · rintro ⟨-, hacks, hreset, hwritten⟩
      have hack : ∀ k ∈ [1, 2, 5, 6], w.acks (w.transfers + k) = true := hacks
      have h₁ := hack 1 (by simp)
      have h₂ := hack 2 (by simp)
      refine ⟨⟨h₁, h₂, hreset⟩, (hsecond ⟨h₁, h₂⟩).mpr ⟨hack 5 (by simp), hack 6 (by simp), ?_⟩⟩
      exact hwritten
  refine ⟨hiff, fun htrue => ?_⟩
  obtain ⟨hvalue, hend⟩ := hresult htrue
  obtain ⟨hfirst, hread⟩ := hchecks.mp htrue
  obtain ⟨-, hacks, -, -⟩ := hiff.mp htrue
  have h₁ := hacks 1 (by simp)
  have h₂ := hacks 2 (by simp)
  have h₅ := hacks 5 (by simp)
  have h₆ := hacks 6 (by simp)
  obtain ⟨hacks', htransfers, -, hconfig⟩ := wasConfigured_state hfd ⟨h₁, h₂⟩
  have hack₁ : (wasConfigured s w).acks (wasConfigured s w).transfers = true := by
    rw [hacks', htransfers]
    exact h₅
  have hack₂ : (wasConfigured s w).acks ((wasConfigured s w).transfers + 1) = true := by
    rw [hacks', htransfers]
    exact h₆
  have hcalibrated := ((readRegister_eq_iff hfd hne).mp hread).2.2
  -- the first check has read CONFIG
  have hchecked : (wasChecked s w).config = CONFIG_RESET_VALUE := by
    obtain ⟨hack₁, hack₂, hcontent⟩ := (readRegister_eq_iff hfd (by decide)).mp hfirst
    rw [wasChecked, readRegister_acked hfd hack₁ hack₂]
    exact hcontent
  rw [hend, readRegister_acked hfd hack₁ hack₂]
  exact ⟨hvalue, hcalibrated, hconfig hchecked⟩

end RasPiZeroCam
