import Wireframe.Decimal.Shortest
/-!
# Coordinates in messages

In the texts shown to users a coordinate is written with the fewest digits
that tell it from the other coordinates, always in full and never with an
exponent. A negative zero keeps its sign.
-/

namespace Wireframe

/-- Numbers that can be written in a message. -/
class DecimalText (κ : Type) where
  decimalText : κ → String

/-- A 32-bit float in a message. -/
def float32Text (x : Float32) : String :=
  let bits := x.toBits
  let fraction := (bits &&& 0x7fffff).toNat
  let exponent := (bits >>> 23 &&& 0xff).toNat
  let sign := if bits >>> 31 = 1 then "-" else ""
  if exponent = 255 then
    if fraction = 0 then sign ++ "inf" else "NaN"
  else if exponent = 0 ∧ fraction = 0 then sign ++ "0"
  else sign ++ (Binary.ofFields fraction exponent).shortest.text

instance : DecimalText Float32 := ⟨float32Text⟩

end Wireframe
