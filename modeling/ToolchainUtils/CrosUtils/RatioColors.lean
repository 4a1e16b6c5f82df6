import Mathlib.Algebra.Order.Floor.Ring
import Mathlib.Data.Rat.Floor
import Mathlib.Tactic.Linarith
import Mathlib.Tactic.NormNum
import Mathlib.Tactic.Ring
import ToolchainUtils.PyString

set_option autoImplicit false

namespace ToolchainUtils.CrosUtils.Tabulator

open PyString

section Model

def mean (values : List ℚ) : ℚ := values.sum / values.length

def lowerIsBetterKeys : List Text :=
  ["milliseconds", "ms_", "seconds_", "KB", "rdbytes", "wrbytes", "dropped_percent", "(ms)", "(seconds)", "--ms",
    "--average_num_missing_tiles", "--experimental_jank", "--experimental_mean_frame", "--experimental_median_frame_time",
    "--total_deferred_image_decode_count", "--seconds"].map String.toList

def isLowerBetter (key : Text) : Bool := lowerIsBetterKeys.any fun lower => (find lower key).isSome

def invertIfLowerIsBetter (key : Text) (value : ℚ) : ℚ := if isLowerBetter key ∧ value ≠ 0 then 1 / value else value

-- A value of 0 stands for a big difference and one of 1 for none.
def ameanRatio (values baselineValues : List ℚ) : ℚ :=
  if mean baselineValues ≠ 0 then mean values / mean baselineValues else if mean values ≠ 0 then 0 else 1

-- The value of a cell without values or without a baseline is the empty text.
def ameanRatioValue (key : Text) (values baselineValues : List ℚ) : Option ℚ :=
  if values.isEmpty || baselineValues.isEmpty then none else some (invertIfLowerIsBetter key (ameanRatio values baselineValues))

structure Color (Component : Type) where
  r : Component
  g : Component
  b : Component
  a : Component
deriving DecidableEq

-- int() drops what is behind the point.
def truncate (component : ℚ) : ℤ := if 0 ≤ component then ⌊component⌋ else ⌈component⌉

def round (color : Color ℚ) : Color ℤ := ⟨truncate color.r, truncate color.g, truncate color.b, truncate color.a⟩

def lerp (ratio : ℚ) (a b : Color ℚ) : Color ℚ :=
  ⟨(b.r - a.r) * ratio + a.r, (b.g - a.g) * ratio + a.g, (b.b - a.b) * ratio + a.b, (b.a - a.a) * ratio + a.a⟩

structure Scale where
  low : Color ℚ
  mid : Color ℚ
  high : Color ℚ

-- none stands for a failed assertion.
def getColorBetweenRange (value minValue midValue maxValue : ℚ) (scale : Scale) (power : ℕ) : Option (Color ℤ) :=
  if value ≤ maxValue ∧ minValue ≤ value then
    if midValue < value then some (round (lerp (((maxValue - value) / (maxValue - midValue)) ^ power) scale.high scale.mid))
    else some (round (lerp (((value - minValue) / (midValue - minValue)) ^ power) scale.low scale.mid))
  else none

def getColor (value : ℚ) (scale : Scale) (power : ℕ) (midValue : ℚ) : Option (Color ℤ) :=
  getColorBetweenRange (if midValue < value then 2 - midValue / value else value) 0 midValue 2 scale power

def blackScale : Scale := ⟨⟨255, 0, 0, 0⟩, ⟨0, 0, 0, 0⟩, ⟨0, 255, 0, 0⟩⟩

def whiteScale : Scale := ⟨⟨255, 0, 0, 0⟩, ⟨255, 255, 255, 0⟩, ⟨0, 255, 0, 0⟩⟩

def percentFormat (value : ℚ) : Option (Color ℤ) := getColor value blackScale 6 1

def ratioFormat (value : ℚ) : Option (Color ℤ) := getColor value blackScale 6 1

def colorBoxFormat (value : ℚ) : Option (Color ℤ) := getColor value whiteScale 6 1

inductive Format where
  | percent
  | ratio
  | colorBox

def Format.color : Format → ℚ → Option (Color ℤ)
  | .percent => percentFormat
  | .ratio => ratioFormat
  | .colorBox => colorBoxFormat

end Model

section Components

variable {Component : Type} [LE Component] [OfNat Component 0] [OfNat Component 255]

structure InByte (color : Color Component) : Prop where
  r : 0 ≤ color.r ∧ color.r ≤ 255
  g : 0 ≤ color.g ∧ color.g ≤ 255
  b : 0 ≤ color.b ∧ color.b ≤ 255
  a : 0 ≤ color.a ∧ color.a ≤ 255

end Components

section Colors

theorem truncate_in_byte (component : ℚ) (low : 0 ≤ component) (high : component ≤ 255) :
    0 ≤ truncate component ∧ truncate component ≤ 255 := by
  rw [truncate, if_pos low]
  exact ⟨Int.floor_nonneg.mpr low, by exact_mod_cast (Int.floor_le component).trans high⟩

-- A point between two others, by its share of the way.
theorem between (ratio first second : ℚ) (low : 0 ≤ ratio) (high : ratio ≤ 1) (firstIn : 0 ≤ first ∧ first ≤ 255)
    (secondIn : 0 ≤ second ∧ second ≤ 255) : 0 ≤ (second - first) * ratio + first ∧ (second - first) * ratio + first ≤ 255 := by
  have mixed : (second - first) * ratio + first = second * ratio + first * (1 - ratio) := by ring
  have rest : 0 ≤ 1 - ratio := by linarith
  rw [mixed]
  constructor
  · exact add_nonneg (mul_nonneg secondIn.1 low) (mul_nonneg firstIn.1 rest)
  · have upper := add_le_add (mul_le_mul_of_nonneg_right secondIn.2 low) (mul_le_mul_of_nonneg_right firstIn.2 rest)
    linarith

theorem round_lerp_in_byte (ratio : ℚ) (first second : Color ℚ) (low : 0 ≤ ratio) (high : ratio ≤ 1) (firstIn : InByte first)
    (secondIn : InByte second) : InByte (round (lerp ratio first second)) := by
  have component (a b : ℚ) (aIn : 0 ≤ a ∧ a ≤ 255) (bIn : 0 ≤ b ∧ b ≤ 255) := between ratio a b low high aIn bIn
  have red := component first.r second.r firstIn.r secondIn.r
  have green := component first.g second.g firstIn.g secondIn.g
  have blue := component first.b second.b firstIn.b secondIn.b
  have alpha := component first.a second.a firstIn.a secondIn.a
  exact ⟨truncate_in_byte _ red.1 red.2, truncate_in_byte _ green.1 green.2, truncate_in_byte _ blue.1 blue.2,
    truncate_in_byte _ alpha.1 alpha.2⟩

structure ScaleInByte (scale : Scale) : Prop where
  low : InByte scale.low
  mid : InByte scale.mid
  high : InByte scale.high

theorem share_in_unit (power : ℕ) (part whole : ℚ) (positive : 0 < whole) (low : 0 ≤ part) (high : part ≤ whole) :
    0 ≤ (part / whole) ^ power ∧ (part / whole) ^ power ≤ 1 := by
  have nonneg := div_nonneg low positive.le
  exact ⟨pow_nonneg nonneg power, pow_le_one₀ nonneg ((div_le_one positive).mpr high)⟩

theorem color_between_range_iff (scale : Scale) (scaled : ScaleInByte scale) (power : ℕ) (value minValue midValue maxValue : ℚ)
    (below : minValue < midValue) (above : midValue < maxValue) :
    (∃ color, getColorBetweenRange value minValue midValue maxValue scale power = some color ∧ InByte color) ↔
      minValue ≤ value ∧ value ≤ maxValue := by
  constructor
  · rintro ⟨color, made, _⟩
    unfold getColorBetweenRange at made
    split at made
    · exact ⟨‹_ ∧ _›.2, ‹_ ∧ _›.1⟩
    · cases made
  · rintro ⟨low, high⟩
    rw [getColorBetweenRange, if_pos ⟨high, low⟩]
    by_cases upper : midValue < value
    · obtain ⟨nonneg, small⟩ := share_in_unit power (maxValue - value) (maxValue - midValue) (by linarith) (by linarith) (by linarith)
      exact ⟨_, if_pos upper, round_lerp_in_byte _ _ _ nonneg small scaled.high scaled.mid⟩
    · obtain ⟨nonneg, small⟩ := share_in_unit power (value - minValue) (midValue - minValue) (by linarith) (by linarith) (by linarith)
      exact ⟨_, if_neg upper, round_lerp_in_byte _ _ _ nonneg small scaled.low scaled.mid⟩

-- A value above the middle is folded into the upper half of the range.
theorem get_color_iff (scale : Scale) (scaled : ScaleInByte scale) (power : ℕ) (value : ℚ) :
    (∃ color, getColor value scale power 1 = some color ∧ InByte color) ↔ 0 ≤ value := by
  rw [getColor, color_between_range_iff scale scaled power _ 0 1 2 one_pos one_lt_two]
  by_cases upper : 1 < value
  · have positive : 0 < value := one_pos.trans upper
    have share : 1 / value ≤ 1 := (div_le_one positive).mpr upper.le
    have nonneg : 0 ≤ 1 / value := (one_div_pos.mpr positive).le
    rw [if_pos upper]
    exact ⟨fun _ => positive.le, fun _ => ⟨by linarith, by linarith⟩⟩
  · rw [if_neg upper]
    exact ⟨And.left, fun low => ⟨low, by linarith⟩⟩

theorem black_scale_in_byte : ScaleInByte blackScale := by
  refine ⟨⟨?_, ?_, ?_, ?_⟩, ⟨?_, ?_, ?_, ?_⟩, ⟨?_, ?_, ?_, ?_⟩⟩ <;> norm_num [blackScale]

theorem white_scale_in_byte : ScaleInByte whiteScale := by
  refine ⟨⟨?_, ?_, ?_, ?_⟩, ⟨?_, ?_, ?_, ?_⟩, ⟨?_, ?_, ?_, ?_⟩⟩ <;> norm_num [whiteScale]

theorem format_color_iff (format : Format) (value : ℚ) : (∃ color, format.color value = some color ∧ InByte color) ↔ 0 ≤ value := by
  cases format with
  | percent => exact get_color_iff blackScale black_scale_in_byte 6 value
  | ratio => exact get_color_iff blackScale black_scale_in_byte 6 value
  | colorBox => exact get_color_iff whiteScale white_scale_in_byte 6 value

end Colors

section Ratio

variable (key : Text) (values baselineValues : List ℚ)

theorem inverted_sign (value : ℚ) : 0 ≤ invertIfLowerIsBetter key value ↔ 0 ≤ value := by
  rw [invertIfLowerIsBetter]
  split
  · exact one_div_nonneg
  · exact Iff.rfl

theorem ratio_sign : 0 ≤ ameanRatio values baselineValues ↔ 0 ≤ mean values * mean baselineValues := by
  rw [ameanRatio]
  by_cases zero : mean baselineValues = 0
  · rw [if_neg (not_not.mpr zero), zero, mul_zero]
    split
    · exact Iff.rfl
    · exact ⟨fun _ => le_rfl, fun _ => zero_le_one⟩
  · rw [if_pos zero, div_nonneg_iff, mul_nonneg_iff]

theorem ratio_coloured_iff (someValue : values ≠ []) (someBaseline : baselineValues ≠ []) (format : Format) :
    (∃ value color, ameanRatioValue key values baselineValues = some value ∧ format.color value = some color ∧ InByte color) ↔
      0 ≤ mean values * mean baselineValues := by
  have computed : ameanRatioValue key values baselineValues = some (invertIfLowerIsBetter key (ameanRatio values baselineValues)) := by
    simp [ameanRatioValue, someValue, someBaseline]
  rw [← ratio_sign, ← inverted_sign key, ← format_color_iff format, computed]
  simp

theorem halved_time_coloured : ∃ value color, ameanRatioValue "time_(ms)".toList [1, 3] [4] = some value ∧
    Format.percent.color value = some color ∧ InByte color :=
  (ratio_coloured_iff "time_(ms)".toList [1, 3] [4] (by simp) (by simp) .percent).mpr (by norm_num [mean])

-- The ratio of means with different signs is below the range of the assertion.
theorem opposite_means_fail : ¬ ∃ value color, ameanRatioValue "score".toList [-1] [1] = some value ∧
    Format.percent.color value = some color ∧ InByte color := by
  rintro ⟨value, color, computed, coloured, bytes⟩
  have negative : value = -1 := by
    have same : ameanRatioValue "score".toList [-1] [1] = some (-1) := by decide +kernel
    exact Option.some.inj (computed.symm.trans same)
  have nonneg := (format_color_iff .percent value).mp ⟨color, coloured, bytes⟩
  rw [negative] at nonneg
  norm_num at nonneg

end Ratio

end ToolchainUtils.CrosUtils.Tabulator
