import LoadSweep.Colour

/-! Colours are spread and darkened by hue, saturation and lightness, in numbers of 32 bits. -/
namespace LoadSweep

/-- A colour by its hue in degrees, saturation and lightness. -/
structure Tint where
  hue : Float32
  saturation : Float32
  lightness : Float32

namespace Tint

/-- The tint of a colour. Rounding may lift a saturation above 1, which is the most that there is. -/
def ofColour (c : Colour) : Tint :=
  let r := c.red.toNat.toFloat32 / 255
  let g := c.green.toNat.toFloat32 / 255
  let b := c.blue.toNat.toFloat32 / 255
  let (high, low, gap, sector) : Float32 × Float32 × Float32 × Float32 :=
    if g < r then (r, g, g - b, 0) else (g, r, b - r, 2)
  let (high, low, gap, sector) : Float32 × Float32 × Float32 × Float32 :=
    if high < b then (b, low, r - g, 4) else (high, if b < low then b else low, gap, sector)
  let sum := high + low
  let lightness := sum / 2
  if high == low then ⟨0, 0, lightness⟩
  else
    let spread := high - low
    let saturation := if 1 < sum then spread / (2 - sum) else spread / sum
    ⟨(gap / spread + sector) * 60, if 1 < saturation then 1 else saturation, lightness⟩

/-- A share of full brightness as a byte. -/
def channel (x : Float32) : UInt8 :=
  ((if x < 0 then 0 else if 1 < x then 1 else x) * 255).toUInt8

def toColour (t : Tint) : Colour :=
  let chroma := (1 - (t.lightness * 2 - 1).abs) * t.saturation
  let sector := (t.hue - (t.hue / 360).floor * 360) / 60
  let second := chroma * (1 - ((sector - (sector * 0.5).floor * 2) - 1).abs)
  let base := t.lightness - chroma * 0.5
  let (r, g, b) : Float32 × Float32 × Float32 :=
    if sector < 1 then (chroma, second, 0)
    else if sector < 2 then (second, chroma, 0)
    else if sector < 3 then (0, chroma, second)
    else if sector < 4 then (0, second, chroma)
    else if sector < 5 then (second, 0, chroma)
    else (chroma, 0, second)
  ⟨channel (r + base), channel (g + base), channel (b + base)⟩

end Tint

namespace Colour

/-- A darker colour of the same hue, for the baseline that belongs to a curve. -/
def shade (c : Colour) : Colour :=
  let t := Tint.ofColour c
  { t with lightness := t.lightness * 0.7 }.toColour

/-- The colour at position `i` of `n` evenly spaced hues. -/
def spread (n i : Nat) : Colour := (⟨i.toFloat32 / n.toFloat32 * 360, 0.75, 0.55⟩ : Tint).toColour

def palette (n : Nat) : List Colour := (List.range n).map (spread n)

theorem getElem_palette (n i : Nat) (h : i < (palette n).length) : (palette n)[i] = spread n i := by
  simp [palette]

end Colour
end LoadSweep
