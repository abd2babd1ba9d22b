/-
# Integers on the wire

`htonl` and `htons` followed by writing the integer to a stream put out its bytes with
the most significant one first; reading them back and applying `ntohl` or `ntohs`
gives the integer again.
-/
import MiniCi.CStr

namespace Wire

open CStr (Bytes)

/-- The four bytes of `htonl(x)` in memory. -/
def be32 (x : UInt32) : Bytes :=
  [(x >>> 24).toUInt8, (x >>> 16).toUInt8, (x >>> 8).toUInt8, x.toUInt8]

/-- The four bytes of `x` in memory on a little-endian machine. -/
def le32 (x : UInt32) : Bytes := (be32 x).reverse

/-- The two bytes of `htons(x)` in memory. -/
def be16 (x : UInt16) : Bytes := [(x >>> 8).toUInt8, x.toUInt8]

/-- The number whose digits to base 256 are the given bytes. -/
def ofBytes (p : Bytes) : ℕ := p.foldl (fun acc c => acc * 256 + c.toNat) 0

/-- `ntohl` of a field read from the stream. -/
def ntohl (p : Bytes) : UInt32 := UInt32.ofNat (ofBytes p)

/-- `ntohs` of a field read from the stream. -/
def ntohs (p : Bytes) : UInt16 := UInt16.ofNat (ofBytes p)

@[simp] theorem ntohl_be32 (x : UInt32) : ntohl (be32 x) = x := by
  apply UInt32.toNat_inj.mp
  have hx := x.toNat_lt
  simp only [ntohl, ofBytes, be32, List.foldl_cons, List.foldl_nil, UInt32.toNat_toUInt8,
    UInt32.toNat_shiftRight, UInt32.toNat_ofNat', Nat.shiftRight_eq_div_pow, UInt32.reduceToNat,
    Nat.reduceMod, Nat.reducePow]
  omega

@[simp] theorem ntohs_be16 (x : UInt16) : ntohs (be16 x) = x := by
  apply UInt16.toNat_inj.mp
  have hx := x.toNat_lt
  simp only [ntohs, ofBytes, be16, List.foldl_cons, List.foldl_nil, UInt16.toNat_toUInt8,
    UInt16.toNat_shiftRight, UInt16.toNat_ofNat', Nat.shiftRight_eq_div_pow, UInt16.reduceToNat,
    Nat.reduceMod, Nat.reducePow]
  omega

end Wire
