/-!
Shortest decimal digits of a binary number. `scaled · 2^exponent / 4` stands for the number, and the
reals that round to it lie between `scaled - below` and `scaled + 2` in the same unit. The digits
taken are the fewest whose decimal lies in that interval, the nearer of two candidates, and the even
one at equal distance. All arithmetic is exact, on natural numbers.
-/

namespace LazyStack

structure BinaryInterval where
  scaled : Nat
  below : Nat
  exponent : Int
  closed : Bool

structure DecimalDigits where
  digits : List Char
  exponent : Int
  deriving DecidableEq, Repr

def powerUp (base : Nat) (exponent : Int) : Nat := Nat.pow base exponent.toNat

def digitCount (value : Nat) : Nat := (Nat.toDigits 10 value).length

def leadingExponent (numerator denominator : Nat) : Int :=
  if denominator ≤ numerator then (digitCount (numerator / denominator) : Int) - 1
  else -(digitCount ((denominator - 1) / numerator) : Int)

def BinaryInterval.holds (interval : BinaryInterval) (candidate : Nat) (place : Int) : Bool :=
  let left := candidate * powerUp 10 place * powerUp 2 (2 - interval.exponent)
  let unit := powerUp 10 (-place) * powerUp 2 (interval.exponent - 2)
  let low := (interval.scaled - interval.below) * unit
  let high := (interval.scaled + 2) * unit
  if interval.closed then low ≤ left && left ≤ high else low < left && left < high

def BinaryInterval.quotient (interval : BinaryInterval) (place : Int) : Nat × Nat :=
  (interval.scaled * powerUp 10 (-place) * powerUp 2 (interval.exponent - 2),
    powerUp 10 place * powerUp 2 (2 - interval.exponent))

def BinaryInterval.candidate? (interval : BinaryInterval) (place : Int) : Option Nat :=
  let (numerator, denominator) := interval.quotient place
  let lower := numerator / denominator
  let upper := lower + 1
  match interval.holds lower place, interval.holds upper place with
  | false, false => none
  | true, false => some lower
  | false, true => some upper
  | true, true =>
      let twice := 2 * (numerator % denominator)
      if twice < denominator then some lower
      else if denominator < twice then some upper
      else if lower % 2 = 0 then some lower else some upper

def stripZeros (digits : List Char) : List Char :=
  (digits.reverse.dropWhile (· = '0')).reverse

def BinaryInterval.shortestFrom (interval : BinaryInterval) (leading : Int) :
    (remaining count : Nat) → DecimalDigits
  | 0, _ => ⟨['0'], 0⟩
  | remaining + 1, count =>
      let place := leading - count
      match interval.candidate? place with
      | some value =>
          let digits := Nat.toDigits 10 value
          ⟨stripZeros digits, place + digits.length - 1⟩
      | none => interval.shortestFrom leading remaining (count + 1)

/-- Seventeen digits always tell two neighbouring numbers apart, so no more are tried. -/
def BinaryInterval.shortest (interval : BinaryInterval) : DecimalDigits :=
  let (numerator, denominator) := interval.quotient 0
  interval.shortestFrom (leadingExponent numerator denominator) 17 0

end LazyStack
