/-!
Colours, and the scale of colours on which scores are shown: a smooth curve through seven colours,
worked out in single precision.
-/
namespace Trendline

structure Color where
  red : UInt8
  green : UInt8
  blue : UInt8
  deriving Repr, DecidableEq

namespace Color

def hexPair (n : UInt8) : String :=
  let digit (n : Nat) : Char :=
    if n < 10 then Char.ofNat ('0'.toNat + n) else Char.ofNat ('a'.toNat + (n - 10))
  String.ofList [digit (n.toNat / 16), digit (n.toNat % 16)]

/-- The colour as a number sign and six hexadecimal digits. -/
def text (c : Color) : String :=
  "#" ++ hexPair c.red ++ hexPair c.green ++ hexPair c.blue

end Color

namespace Gradient

/-- A polynomial of degree three by the bits of its coefficients, highest power first. -/
structure Cubic where
  a : UInt32
  b : UInt32
  c : UInt32
  d : UInt32

/-- The value of a channel at `u`, brought to a byte. -/
def Cubic.byte (p : Cubic) (u : Float32) : UInt8 :=
  let u2 := u * u
  let u3 := u2 * u
  let channel := Float32.ofBits p.a * u3 + Float32.ofBits p.b * u2 + Float32.ofBits p.c * u
    + Float32.ofBits p.d
  (channel * 255 + 0.5).toUInt8

/-- A stretch of the scale: where it ends, and its channels. -/
structure Segment where
  stop : UInt32
  red : Cubic
  green : Cubic
  blue : Cubic

/-- The stretches of the scale, a sixth of it each. -/
def segments : List Segment :=
  [⟨0x3e2aaaab, ⟨0x3d81c510, 0xbd81c514, 0x3e969697, 0x00000000⟩,
      ⟨0x00000000, 0x00000000, 0x00000000, 0x00000000⟩,
      ⟨0xbc008080, 0x3c008000, 0x3c008080, 0x3f008081⟩⟩,
    ⟨0x3eaaaaab, ⟨0xbf5ba305, 0x3f8148ad, 0x3f0dc663, 0x3e969697⟩,
      ⟨0xbfb7b7b8, 0x4009c9ca, 0x00000000, 0x00000000⟩,
      ⟨0x3f5d0690, 0xbfae4307, 0x00000000, 0x3f028283⟩⟩,
    ⟨0x3f000000, ⟨0x00000000, 0x00000000, 0x00000000, 0x3f800000⟩,
      ⟨0x3e172397, 0xbea1e820, 0x00000000, 0x3f37b7b8⟩,
      ⟨0x3b4d6d68, 0x3bb41418, 0xbca71314, 0x3c40c0c1⟩⟩,
    ⟨0x3f2aaaab, ⟨0x00000000, 0x00000000, 0x00000000, 0x3f800000⟩,
      ⟨0x3daaea0c, 0xbdf20818, 0xbe798e1d, 0x3f0c8c8d⟩,
      ⟨0x00000000, 0x00000000, 0x00000000, 0x00000000⟩⟩,
    ⟨0x3f555555, ⟨0x3eb4a53b, 0xbf279fec, 0x00000000, 0x3f800000⟩,
      ⟨0xbcbca270, 0x3d40b574, 0xbe252599, 0x3e8a8a8b⟩,
      ⟨0xbe888889, 0x3eccccce, 0x00000000, 0x00000000⟩⟩,
    ⟨0x3f800000, ⟨0xbcd309b0, 0x3d5309bc, 0xbe36fdd1, 0x3f32b2b3⟩,
      ⟨0xba7d4a00, 0x3afd4a00, 0xbe0985d4, 0x3e088889⟩,
      ⟨0x3e088889, 0xbe88888a, 0x00000000, 0x3e088889⟩⟩]

/-- The colour in the first of some stretches that reaches `t`; `start` is where they begin. -/
def colorIn (t start : Float32) : List Segment → Color
  | [] => ⟨0, 0, 0⟩
  | segment :: rest =>
      let stop := Float32.ofBits segment.stop
      if t ≤ stop then
        let u := (t - start) / (stop - start)
        ⟨segment.red.byte u, segment.green.byte u, segment.blue.byte u⟩
      else
        colorIn t stop rest

/-- The colour at a place on the scale from zero to one. What is not a number is black. -/
def color (place : Float) : Color :=
  let t := place.toFloat32
  if t ≤ 0 then ⟨0x00, 0x00, 0x80⟩
  else if 1 ≤ t then ⟨0x8b, 0x00, 0x00⟩
  else colorIn t 0 segments

end Gradient

end Trendline
