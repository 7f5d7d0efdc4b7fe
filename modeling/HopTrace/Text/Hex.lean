import HopTrace.Text.Digits

/-!
# Bytes as text

Two digits of base sixteen a byte, in small letters.
-/

namespace HopTrace.Text

def hexOfBytes (bytes : List UInt8) : String :=
  String.ofList (bytes.flatMap fun b => [digitChar (b.toNat / 16), digitChar (b.toNat % 16)])

def bytesOfHex? : List Char → Option (List UInt8)
  | [] => some []
  | [_] => none
  | hi :: lo :: s => do
    let h ← digitOf? 16 hi
    let l ← digitOf? 16 lo
    let rest ← bytesOfHex? s
    return UInt8.ofNat (16 * h + l) :: rest

end HopTrace.Text
