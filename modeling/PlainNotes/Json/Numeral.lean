import PlainNotes.Json.Basic

/-!
# Numerals of JSON

How the digits of a number become its value. A numeral without a fraction and without an exponent is
an integer if it fits in 64 bits. Any other is a significand of 64 bits, scaled by a power of ten in
floating point, so its last bit can differ from the nearest number.
-/

namespace PlainNotes.Json

def byte (c : Char) : UInt8 :=
  UInt8.ofNat c.toNat

def isDigit (b : UInt8) : Bool :=
  byte '0' ≤ b && b ≤ byte '9'

def takeDigits (s : List UInt8) : List Nat × List UInt8 :=
  ((s.takeWhile isDigit).map fun b => (b - byte '0').toNat, s.dropWhile isDigit)

/-- The number of words of 64 bits: `2 ^ 64`. -/
def wordRange : Nat := 18446744073709551616

/-- Appends digits to a significand for as long as it fits in 64 bits, and counts them. -/
def appendDigits : Nat → List Nat → Nat × Nat
  | n, [] => (n, 0)
  | n, d :: ds =>
    if n * 10 + d < wordRange then
      let (m, count) := appendDigits (n * 10 + d) ds
      (m, count + 1)
    else (n, 0)

def tenTo (exponent : Nat) : Float :=
  Float.ofScientific 1 false exponent

/-- Scales by a power of ten, at most 308 places at once. `steps` bounds the divisions; a
significand of 64 bits is zero after two of them. -/
def scaleWithin : Nat → Float → Int → Option Float
  | steps, x, exponent =>
    if exponent.natAbs ≤ 308 then
      if 0 ≤ exponent then
        let y := x * tenTo exponent.natAbs
        if y.isInf then none else some y
      else some (x / tenTo exponent.natAbs)
    else if x == 0 then some x
    else if 0 ≤ exponent then none
    else
      match steps with
      | 0 => some 0
      | steps + 1 => scaleWithin steps (x / tenTo 308) (exponent + 308)

/-- The number with a sign, a significand and an exponent of ten, unless it is too large. -/
def scale (negative : Bool) (significand : Nat) (exponent : Int) : Except Fault Number :=
  match scaleWithin 4 (UInt64.ofNat significand).toFloat exponent with
  | some x => .ok (.float (if negative then -x else x))
  | none => .error .numberOutOfRange

/-- The number of a numeral without fraction and exponent. Negative zero and what does not fit in 64
bits with its sign are floating-point numbers. -/
def integer (negative : Bool) (significand : Nat) : Number :=
  if !negative then .int significand
  else if 0 < significand && 2 * significand ≤ wordRange then .int (-significand)
  else .float (-(UInt64.ofNat significand).toFloat)

/-- Whether an exponent begins here. -/
def isExponentMark (b : UInt8) : Bool :=
  b == byte 'e' || b == byte 'E'

/-- Takes the sign off an exponent; `true` is minus. -/
def takeSign : List UInt8 → Bool × List UInt8
  | [] => (false, [])
  | b :: s =>
    if b == byte '-' then (true, s) else if b == byte '+' then (false, s) else (false, b :: s)

/-- Digits that have to be there. -/
def takeDigits1 (s : List UInt8) : Except Fault (List Nat × List UInt8) :=
  match takeDigits s with
  | ([], []) => .error .unfinishedValue
  | ([], _ :: _) => .error .invalidNumber
  | found => .ok found

/-- Reads the exponent, if there is one, and scales the significand by it. -/
def readExponent (negative : Bool) (significand : Nat) (exponent : Int) :
    List UInt8 → Except Fault (Number × List UInt8)
  | [] => do return (← scale negative significand exponent, [])
  | b :: s =>
    if isExponentMark b then do
      let (minus, t) := takeSign s
      let (ds, rest) ← takeDigits1 t
      let given : Int := (ds.foldl (fun n d => n * 10 + d) 0 : Nat)
      return (← scale negative significand (if minus then exponent - given else exponent + given),
        rest)
    else do return (← scale negative significand exponent, b :: s)

def readNumeral (negative : Bool) (s : List UInt8) : Except Fault (Number × List UInt8) := do
  let (ds, rest) ← takeDigits1 s
  if ds.head? == some 0 && 1 < ds.length then throw .invalidNumber
  let (significand, kept) := appendDigits 0 ds
  let dropped : Int := (ds.length - kept : Nat)
  match rest with
  | [] =>
    if dropped = 0 then return (integer negative significand, [])
    else readExponent negative significand dropped []
  | b :: t =>
    if b == byte '.' then
      let (fs, u) ← takeDigits1 t
      let (whole, places) := appendDigits significand fs
      readExponent negative whole (dropped - places) u
    else if isExponentMark b || dropped ≠ 0 then readExponent negative significand dropped (b :: t)
    else return (integer negative significand, b :: t)

end PlainNotes.Json
