/-!
# Shortest decimals

The shortest decimal that reads back as a given floating-point number, and the text of it.

A finite number is `m · 2 ^ q`, and the reals that round to it form an interval around it. For one
digit, two digits and so on, the two decimals next to the number are tried; the first number of
digits for which one of them lies in the interval wins, and of two such decimals the nearer. A tie
between two equally near ones goes to the even last digit.
-/

namespace PlainNotes.Decimal

/-- A floating-point number that is no infinity: `significand · 2 ^ exponent`, with a sign. -/
structure Binary where
  negative : Bool
  significand : Nat
  exponent : Int
  deriving DecidableEq, Repr

/-- The bit of a significand that is not written, because it is always one: `2 ^ 52`. -/
def hiddenBit : Nat := 4503599627370496

/-- The parts of a finite number of 64 bits. -/
def Binary.ofBits (bits : Nat) : Binary :=
  let fraction := bits % hiddenBit
  let biased := bits / hiddenBit % 2048
  { negative := bits / (2048 * hiddenBit) == 1
    significand := if biased = 0 then fraction else hiddenBit + fraction
    exponent := (if biased = 0 then 1 else biased : Nat) - 1075 }

/-- A decimal: `digits · 10 ^ exponent`. -/
structure Scientific where
  digits : Nat
  exponent : Int
  deriving DecidableEq, Repr

/-- A fraction `num / den`, here always of natural numbers. -/
structure Ratio where
  num : Nat
  den : Nat

/-- `n · base ^ exponent` as a fraction. -/
def Ratio.scaled (n base : Nat) (exponent : Int) : Ratio :=
  if 0 ≤ exponent then ⟨n * Nat.pow base exponent.toNat, 1⟩
  else ⟨n, Nat.pow base (-exponent).toNat⟩

def Ratio.le (x y : Ratio) : Bool :=
  x.num * y.den ≤ y.num * x.den

def Ratio.lt (x y : Ratio) : Bool :=
  x.num * y.den < y.num * x.den

def Ratio.dist (x y : Ratio) : Ratio :=
  let a := x.num * y.den
  let b := y.num * x.den
  ⟨(a - b) + (b - a), x.den * y.den⟩

/-- The fraction that a decimal stands for. -/
def Scientific.value (d : Scientific) : Ratio :=
  .scaled d.digits 10 d.exponent

/-- The ends of the interval of reals that round to a positive number: half a unit away, and below a
power of two a quarter of one. Both are counted in quarters of a unit. -/
def Binary.bounds (x : Binary) : Ratio × Ratio :=
  let below := if x.significand = hiddenBit && -1074 < x.exponent then 1 else 2
  (.scaled (4 * x.significand - below) 2 (x.exponent - 2),
    .scaled (4 * x.significand + 2) 2 (x.exponent - 2))

/-- Whether a decimal reads back as the number. The ends belong to numbers of even significand. -/
def Binary.hasReading (x : Binary) (d : Scientific) : Bool :=
  let r := d.value
  let (low, high) := x.bounds
  if x.significand % 2 = 0 then low.le r && r.le high else low.lt r && r.lt high

/-- The exponent of ten of the first digit of a positive fraction above `10 ^ -400`. -/
def Ratio.leading (r : Ratio) : Int :=
  ((Nat.toDigits 10 (r.num * Nat.pow 10 400 / r.den)).length : Int) - 401

/-- The decimals with a given place of their last digit next to a fraction, below and above. -/
def Ratio.neighbours (r : Ratio) (place : Int) : Scientific × Scientific :=
  let unit := Ratio.scaled 1 10 place
  let n := r.num * unit.den / (r.den * unit.num)
  (⟨n, place⟩, ⟨n + 1, place⟩)

/-- Of the decimals next to a fraction the nearer, and on a tie the one whose last digit is even. -/
def Ratio.nearer (r : Ratio) (low high : Scientific) : Scientific :=
  let below := r.dist low.value
  let above := high.value.dist r
  if below.lt above then low
  else if above.lt below then high
  else if low.digits % 2 = 0 then low else high

/-- Of the decimals with so many digits, the one that reads back as the number and is nearest. -/
def Binary.reading? (x : Binary) (digits : Nat) : Option Scientific :=
  let r := Ratio.scaled x.significand 2 x.exponent
  let (low, high) := r.neighbours (r.leading - digits + 1)
  match x.hasReading low, x.hasReading high with
  | true, true => some (r.nearer low high)
  | true, false => some low
  | false, true => some high
  | false, false => none

/-- Takes the zeros off the end of a decimal. `steps` bounds their number. -/
def Scientific.strip : Nat → Scientific → Scientific
  | 0, d => d
  | steps + 1, d =>
    if d.digits ≠ 0 && d.digits % 10 = 0 then strip steps ⟨d.digits / 10, d.exponent + 1⟩ else d

/-- The shortest decimal that reads back as a number other than zero. Seventeen digits are always
enough. -/
def Binary.shortest (x : Binary) : Scientific :=
  let reading := (List.range 17).findSome? fun n => x.reading? (n + 1)
  (reading.getD ⟨x.significand, x.exponent⟩).strip 20

/-- Which numbers are written without an exponent: those whose first digit stands for a power of ten
from `lowest` to `highest`. -/
structure Layout where
  lowest : Int
  highest : Int

/-- The way of messages: positional from `10 ^ -5` up to below `10 ^ 16`. -/
def Layout.ofMessages : Layout := ⟨-5, 15⟩

/-- The text of a decimal: positional with at least one digit on both sides of the point, or else
with one digit in front of the point and an exponent that always has its sign. -/
def Scientific.text (w : Layout) (d : Scientific) : String :=
  let ds := Nat.toDigits 10 d.digits
  let first := d.exponent + ds.length - 1
  if w.lowest ≤ first && first ≤ w.highest then
    if 0 ≤ d.exponent then
      String.ofList (ds ++ List.replicate d.exponent.toNat '0' ++ ".0".toList)
    else if 0 ≤ first then
      String.ofList (ds.take (first.toNat + 1) ++ '.' :: ds.drop (first.toNat + 1))
    else String.ofList ("0.".toList ++ List.replicate (-first - 1).toNat '0' ++ ds)
  else
    let fraction := if ds.length = 1 then [] else '.' :: ds.drop 1
    let sign := if 0 ≤ first then '+' else '-'
    String.ofList (ds.take 1 ++ fraction ++ 'e' :: sign :: Nat.toDigits 10 first.natAbs)

def ofFloat (w : Layout) (x : Float) : String :=
  let b := Binary.ofBits x.toBits.toNat
  (if b.negative then "-" else "") ++
    (if b.significand = 0 then "0.0" else b.shortest.text w)

end PlainNotes.Decimal
