import FlanTerminal.Foundation.JsString

/-!
# UTF-8

The bytes that the encoder of the language makes of a string.  A lone surrogate
becomes the replacement character, so only well-formed strings can be read
back.
-/

namespace FlanTerminal
namespace Foundation

def unitUtf8 (u : UInt16) : List UInt8 :=
  if u.toNat < 0x80 then [UInt8.ofNat u.toNat]
  else if u.toNat < 0x800 then
    [UInt8.ofNat (0xC0 + u.toNat / 64), UInt8.ofNat (0x80 + u.toNat % 64)]
  else if isSurrogate u then [0xEF, 0xBF, 0xBD]
  else
    [UInt8.ofNat (0xE0 + u.toNat / 4096),
      UInt8.ofNat (0x80 + u.toNat / 64 % 64),
      UInt8.ofNat (0x80 + u.toNat % 64)]

def pairCodePoint (u v : UInt16) : Nat :=
  0x10000 + (u.toNat - 0xD800) * 0x400 + (v.toNat - 0xDC00)

def pairUtf8 (u v : UInt16) : List UInt8 :=
  let c := pairCodePoint u v
  [UInt8.ofNat (0xF0 + c / 262144), UInt8.ofNat (0x80 + c / 4096 % 64),
    UInt8.ofNat (0x80 + c / 64 % 64), UInt8.ofNat (0x80 + c % 64)]

/-- `new TextEncoder().encode(s)`. -/
def utf8Bytes : JsString -> List UInt8
  | [] => []
  | [u] => unitUtf8 u
  | u :: v :: rest =>
      if isHighSurrogate u && isLowSurrogate v then
        pairUtf8 u v ++ utf8Bytes rest
      else unitUtf8 u ++ utf8Bytes (v :: rest)

/-- `s.isWellFormed()`: every surrogate is part of a pair. -/
def isWellFormed : JsString -> Bool
  | [] => true
  | [u] => !isSurrogate u
  | u :: v :: rest =>
      if isHighSurrogate u && isLowSurrogate v then isWellFormed rest
      else !isSurrogate u && isWellFormed (v :: rest)

theorem length_unitUtf8 (u : UInt16) : (unitUtf8 u).length = unitBytes u := by
  unfold unitUtf8 unitBytes
  split
  · rfl
  · split
    · rfl
    · split
      · rfl
      · rfl

theorem length_utf8Bytes (s : JsString) :
    (utf8Bytes s).length = utf8ByteLength s := by
  induction s using utf8Bytes.induct with
  | case1 => rfl
  | case2 u => exact length_unitUtf8 u
  | case3 u v rest hpair ih =>
      rw [utf8Bytes, utf8ByteLength, if_pos hpair, if_pos hpair,
        List.length_append, ih]
      rfl
  | case4 u v rest hpair ih =>
      rw [utf8Bytes, utf8ByteLength, if_neg hpair, if_neg hpair,
        List.length_append, ih, length_unitUtf8]

end Foundation
end FlanTerminal
