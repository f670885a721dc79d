import Mathlib.Data.Rat.Floor
import Mathlib.Data.Nat.Log

/-!
# Strings and numbers of the language

A string is a list of UTF-16 code units, with no promise that surrogates come
in pairs.  A number is an IEEE double; only the values that can come out of a
decimal literal are needed, so there is no not-a-number.
-/

namespace FlanTerminal
namespace Foundation

abbrev JsString := List UInt16

instance : LawfulBEq JsString := inferInstance

/-- A string literal.  Characters beyond the basic plane become a pair. -/
def js (s : String) : JsString :=
  s.toList.flatMap fun c =>
    if c.toNat < 0x10000 then [UInt16.ofNat c.toNat]
    else [UInt16.ofNat (0xD800 + (c.toNat - 0x10000) / 0x400),
      UInt16.ofNat (0xDC00 + (c.toNat - 0x10000) % 0x400)]

def isHighSurrogate (u : UInt16) : Bool :=
  0xD800 ≤ u.toNat && u.toNat ≤ 0xDBFF

def isLowSurrogate (u : UInt16) : Bool :=
  0xDC00 ≤ u.toNat && u.toNat ≤ 0xDFFF

def isSurrogate (u : UInt16) : Bool :=
  0xD800 ≤ u.toNat && u.toNat ≤ 0xDFFF

/-- The lower case of a unit, as far as a comparison with ASCII can tell: the
Kelvin sign becomes a `k`, the capital `I` with a dot an `i` and a mark, and no
other unit outside ASCII becomes one inside. -/
def lowerUnit (u : UInt16) : JsString :=
  if 65 ≤ u.toNat ∧ u.toNat ≤ 90 then [u + 32]
  else if u = 0x212A then [107]
  else if u = 0x130 then [105, 0x307]
  else [u]

def toLowerCase (s : JsString) : JsString :=
  s.flatMap lowerUnit

/-- Bytes of one code unit that is not part of a pair.  A lone surrogate is
encoded as the replacement character. -/
def unitBytes (u : UInt16) : Nat :=
  if u.toNat < 0x80 then 1 else if u.toNat < 0x800 then 2 else 3

/-- `new TextEncoder().encode(s).byteLength`, which is also
`Buffer.byteLength(s, 'utf8')`. -/
def utf8ByteLength : JsString -> Nat
  | [] => 0
  | [u] => unitBytes u
  | u :: v :: rest =>
      if isHighSurrogate u && isLowSurrogate v then 4 + utf8ByteLength rest
      else unitBytes u + utf8ByteLength (v :: rest)

/-!
## Byte lengths of concatenations

Byte lengths add up when the left part does not end inside a pair.  The left
parts that occur are ASCII, or a whole pair.
-/

theorem not_isHighSurrogate_of_lt {u : UInt16} (hu : u.toNat < 0xD800) :
    isHighSurrogate u = false := by
  simp [isHighSurrogate]
  omega

theorem utf8ByteLength_cons {u : UInt16} (hu : isHighSurrogate u = false)
    (rest : JsString) :
    utf8ByteLength (u :: rest) = unitBytes u + utf8ByteLength rest := by
  cases rest with
  | nil => simp [utf8ByteLength]
  | cons v rest => simp [utf8ByteLength, hu]

theorem utf8ByteLength_pair {u v : UInt16} (hu : isHighSurrogate u = true)
    (hv : isLowSurrogate v = true) (rest : JsString) :
    utf8ByteLength (u :: v :: rest) = 4 + utf8ByteLength rest := by
  simp [utf8ByteLength, hu, hv]

theorem ascii_of_all {xs : JsString}
    (h : xs.all (fun u => decide (u.toNat < 0x80)) = true) :
    forall u, u ∈ xs -> u.toNat < 0x80 :=
  fun u hu => of_decide_eq_true (List.all_eq_true.mp h u hu)

theorem utf8ByteLength_ascii_append {xs : JsString}
    (hxs : forall u, u ∈ xs -> u.toNat < 0x80) (rest : JsString) :
    utf8ByteLength (xs ++ rest) = xs.length + utf8ByteLength rest := by
  induction xs with
  | nil => simp
  | cons u xs ih =>
      have hu : u.toNat < 0x80 := hxs u List.mem_cons_self
      have hhigh : isHighSurrogate u = false :=
        not_isHighSurrogate_of_lt (by omega)
      rw [List.cons_append, utf8ByteLength_cons hhigh,
        ih (fun v hv => hxs v (List.mem_cons_of_mem u hv))]
      simp [unitBytes, hu]
      omega

/-!
## Numbers
-/

inductive JsNumber where
  | finite (q : ℚ)
  | negZero
  | infinity (negative : Bool)
  deriving DecidableEq

/-- Division of naturals to the nearest integer, ties to the even one. -/
def roundHalfEven (a b : Nat) : Nat :=
  let f := a / b
  let r := a % b
  if 2 * r < b then f
  else if b < 2 * r then f + 1
  else if f % 2 = 0 then f else f + 1

/-- The binary exponent of the positive quotient `a / b`. -/
def binaryExponent (a b : Nat) : Int :=
  let e : Int := (a.log2 : Int) - b.log2
  if 0 ≤ e then
    if b * 2 ^ e.toNat ≤ a then e else e - 1
  else
    if b ≤ a * 2 ^ (-e).toNat then e else e - 1

/-- The double nearest to a rational, ties to even: 53 significant bits, the
least exponent -1074, and infinity from 2^1024 on. -/
def roundToDouble (q : ℚ) : JsNumber :=
  if q = 0 then JsNumber.finite 0
  else
    let a := q.num.natAbs
    let b := q.den
    let ulp := max (binaryExponent a b - 52) (-1074)
    let m :=
      if 0 ≤ ulp then roundHalfEven a (b * 2 ^ ulp.toNat)
      else roundHalfEven (a * 2 ^ (-ulp).toNat) b
    let size : ℚ := (m : ℚ) * (2 : ℚ) ^ ulp
    if (2 : ℚ) ^ (1024 : Nat) ≤ size then JsNumber.infinity (decide (q < 0))
    else if m = 0 then
      if q < 0 then JsNumber.negZero else JsNumber.finite 0
    else JsNumber.finite (if q < 0 then -size else size)

/-!
## Number to string

The shortest decimal digits that read back as the same double, closest first,
and the layout of `Number::toString`.
-/

def decimalDigits (n : Nat) : JsString :=
  (Nat.toDigits 10 n).map fun c => UInt16.ofNat c.toNat

/-- The number of decimal places before the point: `10 ^ (n - 1) ≤ q < 10 ^ n`. -/
def decimalExponent (q : ℚ) : Int :=
  if 1 ≤ q then (Nat.log 10 (q.num.natAbs / q.den) : Int) + 1
  else 1 - (Nat.clog 10 ((q.den + q.num.natAbs - 1) / q.num.natAbs) : Int)

/-- The `k`-digit decimal nearest to `q` that reads back as `q`, if any. -/
def digitsAt (q : ℚ) (n : Int) (k : Nat) : Option Nat :=
  let unit : ℚ := (10 : ℚ) ^ (n - k)
  let low := (q / unit).floor.toNat
  let candidates := if q / unit - low ≤ 1 / 2 then [low, low + 1] else [low + 1, low]
  candidates.find? fun d => roundToDouble (d * unit) == JsNumber.finite q

/-- The digits as a number, how many they are, and the places before the
point.  Digits that round up to the next power of ten are one place longer. -/
def shortestDigits (q : ℚ) : Nat × Nat × Int :=
  let n := decimalExponent q
  let (d, k) := ((List.range 17).findSome? fun i =>
    (digitsAt q n (i + 1)).map fun d => (d, i + 1)).getD (0, 1)
  if d = 10 ^ k then (10 ^ (k - 1), k, n + 1) else (d, k, n)

def positiveText (q : ℚ) : JsString :=
  let (d, k, n) := shortestDigits q
  let digits := decimalDigits d
  let zeros := fun (m : Int) => List.replicate m.toNat (48 : UInt16)
  if k ≤ n ∧ n ≤ 21 then digits ++ zeros (n - k)
  else if 0 < n ∧ n ≤ 21 then
    digits.take n.toNat ++ 46 :: digits.drop n.toNat
  else if -6 < n ∧ n ≤ 0 then 48 :: 46 :: zeros (-n) ++ digits
  else
    let e := n - 1
    let expo := 101 :: (if 0 ≤ e then 43 else 45) :: decimalDigits e.natAbs
    match digits with
    | [] => expo
    | [c] => c :: expo
    | c :: rest => c :: 46 :: rest ++ expo

def JsNumber.text : JsNumber -> JsString
  | negZero => [48]
  | infinity true => js "-Infinity"
  | infinity false => js "Infinity"
  | finite q =>
      if q = 0 then [48]
      else if q < 0 then 45 :: positiveText (-q)
      else positiveText q

end Foundation
end FlanTerminal
