import LazyStack.Decimal.Shortest

/-!
Text of a double given by its bits: the shortest digits that read back, laid out positionally inside
a range of exponents and with an exponent outside it. Every finite text shows a point or an exponent.
-/

namespace LazyStack

structure FloatLayout where
  lowestPlain : Int
  highestPlain : Int
  exponentWidth : Nat
  infinite : String
  notNumber : String

def floatLayout : FloatLayout := ⟨-4, 15, 2, "inf", "nan"⟩

def FloatLayout.exponentText (layout : FloatLayout) (exponent : Int) : List Char :=
  let digits := Nat.toDigits 10 exponent.natAbs
  'e' :: (if exponent < 0 then '-' else '+') ::
    List.replicate (layout.exponentWidth - digits.length) '0' ++ digits

def FloatLayout.plainText (digits : List Char) (exponent : Int) : List Char :=
  if exponent < 0 then
    '0' :: '.' :: List.replicate (-exponent - 1).toNat '0' ++ digits
  else
    let whole := exponent.toNat + 1
    let padding := List.replicate (whole - digits.length) '0'
    let fraction := digits.drop whole
    digits.take whole ++ padding ++ '.' :: (if fraction.isEmpty then ['0'] else fraction)

def FloatLayout.digitsText (layout : FloatLayout) (number : DecimalDigits) : List Char :=
  if layout.lowestPlain ≤ number.exponent ∧ number.exponent ≤ layout.highestPlain then
    FloatLayout.plainText number.digits number.exponent
  else
    let fraction := number.digits.drop 1
    number.digits.take 1 ++ (if fraction.isEmpty then [] else '.' :: fraction) ++
      layout.exponentText number.exponent

def floatMantissa (bits : UInt64) : Nat := bits.toNat % Nat.pow 2 52

def floatExponent (bits : UInt64) : Nat := bits.toNat / Nat.pow 2 52 % Nat.pow 2 11

def floatNegative (bits : UInt64) : Bool := Nat.pow 2 63 ≤ bits.toNat

/-- The interval of a finite double. Below a power of two the neighbours stand at half the distance. -/
def floatInterval (bits : UInt64) : BinaryInterval :=
  let mantissa := floatMantissa bits
  let exponent := floatExponent bits
  let significand := if exponent = 0 then mantissa else mantissa + Nat.pow 2 52
  { scaled := 4 * significand
    below := if mantissa = 0 ∧ 1 < exponent then 1 else 2
    exponent := (max exponent 1 : Int) - 1075
    closed := significand % 2 = 0 }

def FloatLayout.text (layout : FloatLayout) (bits : UInt64) : String :=
  let sign := if floatNegative bits then "-" else ""
  if floatExponent bits = 2047 then
    if floatMantissa bits = 0 then sign ++ layout.infinite else layout.notNumber
  else if floatExponent bits = 0 ∧ floatMantissa bits = 0 then
    sign ++ String.ofList (FloatLayout.plainText ['0'] 0)
  else
    sign ++ String.ofList (layout.digitsText (floatInterval bits).shortest)

def floatText (bits : UInt64) : String := floatLayout.text bits

end LazyStack
