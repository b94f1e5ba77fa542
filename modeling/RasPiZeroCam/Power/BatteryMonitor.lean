import RasPiZeroCam.Power.Ina219

/-!
What `BatteryMonitor` publishes about the battery.

* `BatteryRecord`, `BatteryMonitor.readAndStore`: the members, and how one call fills them from five
  reads of the sensor.
* `Consistent`: the record agrees with itself.
* `record_consistent_iff`: it does when the two readings of the current, and the two of the voltage,
  tell the same.
-/

namespace RasPiZeroCam

open Ina219

/-- The members under `data_mutex_`. -/
structure BatteryRecord where
  voltage_ : ℚ
  current_ma_ : ℚ
  power_mw_ : ℚ
  percentage_ : ℤ
  charging_ : Bool
  low_battery_ : Bool

/-- **The record agrees with itself**: charging exactly when the current is positive, the percentage
that of the voltage, and low exactly when it is below 20. -/
structure BatteryRecord.Consistent (r : BatteryRecord) : Prop where
  charging : r.charging_ = true ↔ 0 < r.current_ma_
  percentage : r.percentage_ = percentage r.voltage_
  lowBattery : r.low_battery_ = true ↔ r.percentage_ < 20

namespace BatteryMonitor

def LOW_BATTERY_PCT : ℤ := 20

/-- `read_and_store()`. -/
def readAndStore (sensor_ : Ina219) : StateM I2c BatteryRecord := do
  let v ← sensor_.readBusVoltageV
  let i ← sensor_.readCurrentMa
  let p ← sensor_.readPowerMw
  let pct ← sensor_.readPercentage
  let chg ← sensor_.isCharging
  pure {
    voltage_ := v
    current_ma_ := i
    power_mw_ := p
    percentage_ := pct
    charging_ := chg
    low_battery_ := decide (pct < LOW_BATTERY_PCT) }

/-- What a call of `readAndStore` on an open sensor reads: the `k`-th read of the call. -/
def reading (bus : I2c) (k : ℕ) (reg : Register) : UInt16 := bus.value (bus.reads + k) reg

/-- Between the readings of a call, neither the direction of the current nor the percentage
changes. -/
def Steady (bus : I2c) : Prop :=
  (0 < (reading bus 1 .current).toInt16.toInt ↔ 0 < (reading bus 4 .current).toInt16.toInt) ∧
    level (reading bus 0 .busVoltage) = level (reading bus 3 .busVoltage)

variable {s : Ina219}

/-- The record of an open sensor. -/
lemma readAndStore_open (h : ¬ s.fd_ < 0) (bus : I2c) : ((readAndStore s).run bus).1 =
    { voltage_ := busVolts (reading bus 0 .busVoltage)
      current_ma_ := (reading bus 1 .current).toInt16.toInt * s.current_lsb_ma_
      power_mw_ := (reading bus 2 .power).toInt16.toInt * s.power_lsb_mw_
      percentage_ := percentage (busVolts (reading bus 3 .busVoltage))
      charging_ := decide ((reading bus 4 .current).toInt16.toInt * s.current_lsb_ma_ > 0)
      low_battery_ := decide
        (percentage (busVolts (reading bus 3 .busVoltage)) < LOW_BATTERY_PCT) } := by
  simp only [readAndStore, readBusVoltageV, readCurrentMa, readPowerMw, readPercentage, isCharging,
    StateT.run_bind, StateT.run_pure, readRegister_run h, writeRegister_run h]
  rfl

/-- That of a sensor that could not be opened. -/
lemma readAndStore_closed (h : s.fd_ < 0) : readAndStore s = pure
    { voltage_ := busVolts 0
      current_ma_ := 0
      power_mw_ := 0
      percentage_ := percentage (busVolts 0)
      charging_ := false
      low_battery_ := decide (percentage (busVolts 0) < LOW_BATTERY_PCT) } := by
  simp [readAndStore, readBusVoltageV, readCurrentMa, readPowerMw, readPercentage, isCharging,
    readRegister_closed h, writeRegister_closed h]

/-- A current has the sign of its reading. -/
lemma current_pos (h : 0 < s.current_lsb_ma_) (raw : UInt16) :
    0 < (raw.toInt16.toInt : ℚ) * s.current_lsb_ma_ ↔ 0 < raw.toInt16.toInt :=
  (mul_pos_iff_of_pos_right h).trans Int.cast_pos

/-- The record of an open sensor agrees with itself as far as the readings do. -/
lemma consistent_open (h : ¬ s.fd_ < 0) (hlsb : 0 < s.current_lsb_ma_) (bus : I2c) :
    ((readAndStore s).run bus).1.Consistent ↔ Steady bus := by
  rw [readAndStore_open h]
  constructor
  · rintro ⟨hcharging, hpercentage, -⟩
    refine ⟨?_, ?_⟩
    · rw [← current_pos hlsb, ← current_pos hlsb]
      exact (decide_eq_true_iff.symm.trans hcharging).symm
    · rw [percentage_eq, percentage_eq] at hpercentage
      exact (Int.natCast_inj.mp hpercentage).symm
  · rintro ⟨hcurrent, hvoltage⟩
    refine ⟨?_, ?_, decide_eq_true_iff⟩
    · rw [← current_pos hlsb, ← current_pos hlsb] at hcurrent
      exact decide_eq_true_iff.trans hcurrent.symm
    · show percentage _ = percentage _
      rw [percentage_eq, percentage_eq, hvoltage]

/-- The record of a closed one always does. -/
lemma consistent_closed (h : s.fd_ < 0) (bus : I2c) :
    ((readAndStore s).run bus).1.Consistent := by
  rw [readAndStore_closed h]
  refine ⟨iff_of_false Bool.false_ne_true (lt_irrefl 0), rfl, decide_eq_true_iff⟩

end BatteryMonitor

open BatteryMonitor

/-- **When the record agrees with itself**: when the sensor could not be opened, or when what is
read twice tells the same both times. -/
theorem record_consistent_iff (fd addressed : ℤ) (bus₀ bus : I2c) :
    ((readAndStore ((Ina219.new fd addressed).run bus₀).1).run bus).1.Consistent ↔
      fd < 0 ∨ addressed < 0 ∨ Steady bus := by
  obtain ⟨hopened, hlsb⟩ := new_fd fd addressed bus₀
  rw [← or_assoc, ← hopened]
  by_cases hclosed : ((Ina219.new fd addressed).run bus₀).1.fd_ < 0
  · exact iff_of_true (consistent_closed hclosed bus) (Or.inl hclosed)
  · rw [consistent_open hclosed (hlsb.resolve_left hclosed), or_iff_right hclosed]

namespace BatteryMonitor

/-- The battery is charged with 15 mA, and the charger is unplugged before the last read. -/
def unplugged : I2c where
  answer n reg :=
    match reg, n with
    | .busVoltage, _ => some (0x1F, 0x40)
    | .current, 4 => some (0xFF, 0x9C)
    | .current, _ => some (0x00, 0x64)
    | _, _ => some (0, 0)
  reads := 0
  written := []

end BatteryMonitor

/-- The record has a positive current, and does not say that the battery is charging. -/
theorem unplugged_inconsistent : ¬ ∀ (fd addressed : ℤ) (bus₀ bus : I2c),
    ((readAndStore ((Ina219.new fd addressed).run bus₀).1).run bus).1.Consistent := by
  intro hall
  have hopen : ¬ (3 : ℤ) < 0 := by omega
  obtain ⟨hopened, hlsb⟩ := new_fd 3 0 unplugged
  have hsensor : ¬ ((Ina219.new 3 0).run unplugged).1.fd_ < 0 := by
    rw [hopened]
    omega
  have hsteady := (consistent_open hsensor (hlsb.resolve_left hsensor) unplugged).mp
    (hall 3 0 unplugged unplugged)
  have hfirst : 0 < (reading unplugged 1 .current).toInt16.toInt := by decide
  have hlast : ¬ 0 < (reading unplugged 4 .current).toInt16.toInt := by decide
  exact hlast (hsteady.1.mp hfirst)

end RasPiZeroCam
