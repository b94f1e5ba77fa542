import RasPiZeroCam.Text

/-!
Resolution presets: the preset identifiers, the parameters of each preset, the lookup table, and
the match of a client's `width` and `height` to a preset.
-/

namespace RasPiZeroCam

/-- The preset identifiers. -/
inductive Resolution where
  | low
  | medium
  | high
  deriving DecidableEq, Repr

/-- The parameters of a preset. -/
structure ResolutionConfig where
  width : UInt32
  height : UInt32
  fps : UInt32
  bitrateKbps : UInt32
  label : String
  deriving DecidableEq, Repr

/-- `ResolutionConfig{}`. -/
def ResolutionConfig.zero : ResolutionConfig := ⟨0, 0, 0, 0, ""⟩

/-- `config_of(r)`: the lookup table, indexed by the preset. -/
def configOf : Resolution → ResolutionConfig
  | .low => ⟨640, 480, 30, 500, "640x480@30"⟩
  | .medium => ⟨1280, 720, 30, 1500, "1280x720@30"⟩
  | .high => ⟨1920, 1080, 25, 3000, "1920x1080@25"⟩

/-- The preset the `set_resolution` handler matches to a client's numbers. -/
def matchPreset (w h : UInt32) : Resolution :=
  if w = 640 ∧ h = 480 then .low
  else if w = 1920 ∧ h = 1080 then .high
  else .medium

end RasPiZeroCam
