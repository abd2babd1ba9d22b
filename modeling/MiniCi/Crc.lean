/-
# Reflected cyclic redundancy checks, bit by bit

The register of a reflected CRC of 32 bits with the polynomial `poly` takes a byte by
xoring it in and shifting eight times.  A message is taken byte after byte, so a register
may be updated chunk by chunk (`update_append`).
-/
import Mathlib.Data.UInt

namespace Crc

/-- One shift: `(crc >> 1) ^ (poly & -(crc & 1))`. -/
def shift (poly crc : UInt32) : UInt32 := (crc >>> 1) ^^^ (poly &&& -(crc &&& 1))

/-- Take one byte. -/
def step (poly crc : UInt32) (b : UInt8) : UInt32 := (shift poly)^[8] (crc ^^^ b.toUInt32)

/-- Take the bytes of a message. -/
def update (poly crc : UInt32) (p : List UInt8) : UInt32 := p.foldl (step poly) crc

@[simp] theorem update_nil (poly crc : UInt32) : update poly crc [] = crc := rfl

/-- A message may be cut anywhere. -/
theorem update_append (poly crc : UInt32) (p q : List UInt8) :
    update poly crc (p ++ q) = update poly (update poly crc p) q :=
  List.foldl_append

end Crc
