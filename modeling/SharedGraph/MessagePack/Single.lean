/-!
# Single-precision floats

Every single-precision float is a double-precision one.  Its bits are moved to their
places in the wider format; a number below the normal range of the narrow format is
normal in the wide one, so its leading one becomes implicit there.
-/

namespace SharedGraph
namespace MessagePack

def doubleBits (sign exponent fraction : Nat) : UInt64 :=
  UInt64.ofNat (sign <<< 63 + exponent <<< 52 + fraction)

/-- The bits of the double that equals a single. -/
def widen (bits : UInt32) : UInt64 :=
  let sign := bits.toNat >>> 31
  let exponent := bits.toNat >>> 23 % 256
  let fraction := bits.toNat % 8388608
  if exponent = 255 then doubleBits sign 2047 (fraction <<< 29)
  else if exponent ≠ 0 then doubleBits sign (exponent + 896) (fraction <<< 29)
  else if fraction = 0 then doubleBits sign 0 0
  else
    let top := fraction.log2
    doubleBits sign (top + 874) (fraction <<< (52 - top) - 1 <<< 52)

end MessagePack
end SharedGraph
