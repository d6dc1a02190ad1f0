import Symbology.Number.Exact
import Symbology.Number.Text

set_option autoImplicit false

/-! # Colors

A color has a red, a green, a blue and an alpha channel. Channels are meant to lie between 0 and 1
and are not multiplied by alpha. -/

namespace Symbology

/-- A color in single precision. -/
structure Color where
  red : Float32
  green : Float32
  blue : Float32
  /-- The opacity. -/
  alpha : Float32
deriving DecidableEq

namespace Color

/-- Black without any opacity, which is what the word `transparent` stands for. -/
def transparent : Color := ⟨0, 0, 0, 0⟩

/-- Equality channel by channel, as numbers: the two zeros are equal and "not a number" equals
nothing. -/
def beq (a b : Color) : Bool :=
  a.red == b.red && a.green == b.green && a.blue == b.blue && a.alpha == b.alpha

instance : BEq Color := ⟨beq⟩

/-! ## Bytes -/

/-- A channel in 255 steps: it is brought into range first, and a half is rounded up. -/
def byte (channel : Float32) : Nat :=
  (Number.roundHalfAway (Number.clamp 0 1 channel * 255)).toUInt8.toNat

/-- The four channels as numbers from 0 to 255, alpha last. -/
def bytes (c : Color) : List Nat :=
  [byte c.red, byte c.green, byte c.blue, byte c.alpha]

/-- The channel of a byte: the byte times the single-precision number nearest to 1/255. -/
def channelOfByte (n : Nat) : Float32 :=
  Float32.ofNat n * (1 / 255)

/-- The color of a number whose three bytes are red, green and blue. -/
def ofRgb (rgb : Nat) (alpha : Float32) : Color :=
  ⟨channelOfByte (rgb / 0x10000 % 0x100), channelOfByte (rgb / 0x100 % 0x100),
    channelOfByte (rgb % 0x100), Number.clamp 0 1 alpha⟩

/-! ## Blending -/

/-- The number that lies at `t` on the way from `a` to `b`. -/
def blendChannel (t a b : Float32) : Float32 :=
  a + (b - a) * t

/-- The color that lies at `t` on the way from `a` to `b`, channel by channel. -/
def blend (a b : Color) (t : Float32) : Color :=
  ⟨blendChannel t a.red b.red, blendChannel t a.green b.green, blendChannel t a.blue b.blue,
    blendChannel t a.alpha b.alpha⟩

/-! ## Text -/

/-- The color in the notation `rgba(red,green,blue,alpha)`, with bytes for the colors and the
exact alpha. -/
def chars (c : Color) : List Char :=
  "rgba(".toList ++ Nat.toDigits 10 (byte c.red) ++ ',' :: Nat.toDigits 10 (byte c.green) ++
    ',' :: Nat.toDigits 10 (byte c.blue) ++ ',' :: DecimalStyle.plain.ofFloat32 c.alpha ++ [')']

/-- The color as it is written for the author, with its first three channels in 255 steps. -/
def text (c : Color) : String :=
  String.ofList c.chars

end Color

end Symbology
