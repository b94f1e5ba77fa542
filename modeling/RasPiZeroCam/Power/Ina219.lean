import Mathlib.Tactic
import Mathlib.Data.Rat.Floor

/-!
The sensor `INA219`, whose registers are read over I2C one at a time.

* `I2c`: the bus, with what the chip answers to each read and what has been written so far.
* `Ina219`: the members; `readBusVoltageV`, `readCurrentMa`, `readPowerMw`, `readPercentage` and
  `isCharging` read the registers, in exact rational arithmetic.
* `percentage_eq`: the percentage of a bus voltage in steps of 12 mV.
-/

namespace RasPiZeroCam

/-- `enum class Register`. -/
inductive Register where
  | config
  | shuntVoltage
  | busVoltage
  | power
  | current
  | calibration
  deriving DecidableEq

/-- The I2C bus: the two bytes that the chip answers to the `n`-th read of a register, `none` when a
call fails, and what has been read and written so far. -/
structure I2c where
  answer : ℕ → Register → Option (UInt8 × UInt8)
  reads : ℕ
  written : List (Register × UInt16)

/-- What a read gives: the high byte first, 0 when it fails. -/
def I2c.value (bus : I2c) (n : ℕ) (reg : Register) : UInt16 :=
  match bus.answer n reg with
  | some (high, low) => (high.toUInt16 <<< 8) ||| low.toUInt16
  | none => 0

/-- A sensor. -/
structure Ina219 where
  fd_ : ℤ
  current_lsb_ma_ : ℚ
  power_lsb_mw_ : ℚ
  calibration_value_ : UInt16

/-- A conversion to an integer type drops the fraction. -/
def truncate (x : ℚ) : ℤ := if x < 0 then ⌈x⌉ else ⌊x⌋

namespace Ina219

def R_SHUNT_OHM : ℚ := 1 / 100
def MAX_CURR_BEFORE_OVERFLOW : ℚ := 32767
def POWER_LSB_FACTOR : ℚ := 20
def MAX_EXPECTED_CURRENT_MA : ℚ := 5000
def ADAC_SCALING_CONSTANT : ℚ := 4096 / 100000
def BUS_VOLTAGE_LSB_V : ℚ := 4 / 1000
def BUS_VOLTAGE_DATA_SHIFT : UInt16 := 3

/-- `write_register(reg, value)`; a failure is only reported. -/
def writeRegister (s : Ina219) (reg : Register) (value : UInt16) : StateM I2c Unit :=
  if s.fd_ < 0 then pure ()
  else modify fun bus => { bus with written := bus.written ++ [(reg, value)] }

/-- `read_register(reg)`. -/
def readRegister (s : Ina219) (reg : Register) : StateM I2c UInt16 :=
  if s.fd_ < 0 then pure 0
  else modifyGet fun bus => (bus.value bus.reads reg, { bus with reads := bus.reads + 1 })

/-- `calibrate()`. -/
def calibrate (s : Ina219) : StateM I2c Ina219 := do
  let current_lsb_ma_ := MAX_EXPECTED_CURRENT_MA / MAX_CURR_BEFORE_OVERFLOW
  let power_lsb_mw_ := current_lsb_ma_ * POWER_LSB_FACTOR
  let calibration_value_ := UInt16.ofNat
    (truncate (ADAC_SCALING_CONSTANT / (current_lsb_ma_ / 1000 * R_SHUNT_OHM))).toNat
  s.writeRegister .calibration calibration_value_
  pure { s with
    current_lsb_ma_ := current_lsb_ma_
    power_lsb_mw_ := power_lsb_mw_
    calibration_value_ := calibration_value_ }

/-- `configure(..)`, its arguments being the bits of their enumerators. -/
def configure (s : Ina219) (bus_range gain bus_adc shunt_adc mode : UInt16) : StateM I2c Unit :=
  s.writeRegister .config
    ((bus_range <<< 13) ||| (gain <<< 11) ||| (bus_adc <<< 7) ||| (shunt_adc <<< 3) ||| mode)

/-- `INA219(i2c_dev, address)`; `fd` is what `open` returns, and `addressed` what `ioctl` does. -/
def new (fd addressed : ℤ) : StateM I2c Ina219 :=
  if fd < 0 then pure ⟨fd, 0, 0, 0⟩
  else if addressed < 0 then pure ⟨-1, 0, 0, 0⟩
  else do
    let s ← calibrate ⟨fd, 0, 0, 0⟩
    -- RANGE_16V, DIV_2_80MV, ADCRES_12BIT_32S twice, SHUNT_AND_BUS_CONTINUOUS
    s.configure 0x00 0x01 0x0D 0x0D 0x07
    pure s

/-- The volts of a reading, whose low bits are flags. -/
def busVolts (raw : UInt16) : ℚ := (raw >>> BUS_VOLTAGE_DATA_SHIFT).toNat * BUS_VOLTAGE_LSB_V

/-- `read_bus_voltage_v()`. -/
def readBusVoltageV (s : Ina219) : StateM I2c ℚ := do
  s.writeRegister .calibration s.calibration_value_
  let raw ← s.readRegister .busVoltage
  pure (busVolts raw)

/-- `read_current_ma()`. -/
def readCurrentMa (s : Ina219) : StateM I2c ℚ := do
  let raw ← s.readRegister .current
  pure (raw.toInt16.toInt * s.current_lsb_ma_)

/-- `read_power_mw()`. -/
def readPowerMw (s : Ina219) : StateM I2c ℚ := do
  s.writeRegister .calibration s.calibration_value_
  let raw ← s.readRegister .power
  pure (raw.toInt16.toInt * s.power_lsb_mw_)

/-- The formula of `read_percentage`: 0 at 3.0 V, 100 at 4.2 V. -/
def percentage (v : ℚ) : ℤ :=
  let p := truncate ((v - 3) / (12 / 10) * 100)
  let p := if p > 100 then 100 else p
  if p < 0 then 0 else p

/-- `read_percentage()`. -/
def readPercentage (s : Ina219) : StateM I2c ℤ := do
  let v ← s.readBusVoltageV
  pure (percentage v)

/-- `is_charging()`. -/
def isCharging (s : Ina219) : StateM I2c Bool := do
  let i ← s.readCurrentMa
  pure (decide (i > 0))

/-! ### What the methods read -/

variable {s : Ina219}

/-- One read of an open sensor. -/
lemma readRegister_run (h : ¬ s.fd_ < 0) (reg : Register) (bus : I2c) :
    (s.readRegister reg).run bus =
      (bus.value bus.reads reg, { bus with reads := bus.reads + 1 }) := by
  rw [readRegister, if_neg h]
  rfl

/-- A write leaves the answers alone. -/
lemma writeRegister_run (h : ¬ s.fd_ < 0) (reg : Register) (value : UInt16) (bus : I2c) :
    (s.writeRegister reg value).run bus =
      ((), { bus with written := bus.written ++ [(reg, value)] }) := by
  rw [writeRegister, if_neg h]
  rfl

/-- A sensor that the constructor could not open reads zeros. -/
lemma readRegister_closed (h : s.fd_ < 0) (reg : Register) :
    s.readRegister reg = pure 0 := if_pos h

lemma writeRegister_closed (h : s.fd_ < 0) (reg : Register) (value : UInt16) :
    s.writeRegister reg value = pure () := if_pos h

/-- The constructor calibrates a sensor that it can open. -/
lemma new_fd (fd addressed : ℤ) (bus : I2c) : (((new fd addressed).run bus).1.fd_ < 0 ↔
    fd < 0 ∨ addressed < 0) ∧ (((new fd addressed).run bus).1.fd_ < 0 ∨
      0 < ((new fd addressed).run bus).1.current_lsb_ma_) := by
  rw [new]
  split_ifs with hfd haddressed
  · exact ⟨iff_of_true hfd (Or.inl hfd), Or.inl hfd⟩
  · have hclosed : (-1 : ℤ) < 0 := by omega
    exact ⟨iff_of_true hclosed (Or.inr haddressed), Or.inl hclosed⟩
  · have hmade : ((do
        let s ← calibrate ⟨fd, 0, 0, 0⟩
        s.configure 0x00 0x01 0x0D 0x0D 0x07
        pure s : StateM I2c Ina219).run bus).1 =
          ((calibrate ⟨fd, 0, 0, 0⟩).run bus).1 := rfl
    refine ⟨iff_of_false (fun h => hfd h) (by omega), Or.inr ?_⟩
    rw [hmade]
    show 0 < MAX_EXPECTED_CURRENT_MA / MAX_CURR_BEFORE_OVERFLOW
    norm_num [MAX_EXPECTED_CURRENT_MA, MAX_CURR_BEFORE_OVERFLOW]

/-! ### Percentages -/

/-- The percentage that a reading of the bus voltage stands for: one for each 12 mV above 3 V. -/
def level (raw : UInt16) : ℕ := min 100 (((raw >>> BUS_VOLTAGE_DATA_SHIFT).toNat - 750) / 3)

/-- **The formula, in whole numbers.** -/
lemma percentage_eq (raw : UInt16) : percentage (busVolts raw) = level raw := by
  have hformula : ∀ n : ℕ, ((n : ℚ) * BUS_VOLTAGE_LSB_V - 3) / (12 / 10) * 100 =
      ((n : ℤ) - 750 : ℤ) / (3 : ℕ) := by
    intro n
    rw [BUS_VOLTAGE_LSB_V]
    push_cast
    ring
  rw [percentage, busVolts, level, hformula]
  generalize (raw >>> BUS_VOLTAGE_DATA_SHIFT).toNat = n
  rcases Nat.lt_or_ge n 750 with hlow | hhigh
  · have hneg : (((n : ℤ) - 750 : ℤ) : ℚ) / (3 : ℕ) < 0 := by
      have hlt : (((n : ℤ) - 750 : ℤ) : ℚ) < 0 := by exact_mod_cast (by omega : (n : ℤ) - 750 < 0)
      exact div_neg_of_neg_of_pos hlt (by norm_num)
    have hceil : truncate ((((n : ℤ) - 750 : ℤ) : ℚ) / (3 : ℕ)) ≤ 0 := by
      rw [truncate, if_pos hneg]
      exact Int.ceil_le.mpr (by exact_mod_cast hneg.le)
    split_ifs <;> omega
  · have hfloor : truncate ((((n : ℤ) - 750 : ℤ) : ℚ) / (3 : ℕ)) = ((n : ℤ) - 750) / 3 := by
      have hpos : ¬ (((n : ℤ) - 750 : ℤ) : ℚ) / (3 : ℕ) < 0 := by
        refine not_lt.mpr (div_nonneg ?_ (by norm_num))
        exact_mod_cast (by omega : (0 : ℤ) ≤ (n : ℤ) - 750)
      rw [truncate, if_neg hpos, Rat.floor_intCast_div_natCast]
      rfl
    rw [hfloor]
    split_ifs <;> omega

end Ina219

end RasPiZeroCam
