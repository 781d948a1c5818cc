import LazyStack.Decimal.Integer
import LazyStack.Text.Blank
import LazyStack.Text.DecimalDigit

/-!
The call-depth setting. Its text is an integer in decimal digits of any script, with blanks around
it, one sign before it and single underscores between digits; more digits than `digitLimit` are
refused. An absent, malformed or non-positive setting yields the default. The limit on calls never passes a
ceiling, which is what the nesting of the machine leaves room for, and one at least, so a limit is always usable.
-/

namespace LazyStack

def levelsPerCall : Nat := 8

/-- The ceiling for calls under a limit on the nesting of the machine. -/
def ceilingUnder (nesting : Nat) : Nat := max 1 (nesting / levelsPerCall)

def callCeiling : Nat := ceilingUnder 1000

/-- The values of a nonempty run of digits in which single underscores may stand between digits. -/
def digitValues? : List Char → Option (List Nat)
  | [] => none
  | [last] => (digitValue? last).map fun value => [value]
  | digit :: '_' :: rest => do
      let value ← digitValue? digit
      let values ← digitValues? rest
      return value :: values
  | digit :: next :: rest => do
      let value ← digitValue? digit
      let values ← digitValues? (next :: rest)
      return value :: values

def natural? (characters : List Char) : Option Nat := do
  let values ← digitValues? characters
  if values.length ≤ digitLimit then
    return values.foldl (fun total value => 10 * total + value) 0
  else
    none

def signed? : List Char → Option Int
  | '+' :: rest => (natural? rest).map Int.ofNat
  | '-' :: rest => (natural? rest).map fun value => -Int.ofNat value
  | characters => (natural? characters).map Int.ofNat

def integer? (text : String) : Option Int :=
  signed? (trim text.toList)

def positiveSetting (raw : Option String) (fallback : Int) : Int :=
  match raw.bind integer? with
  | some value => if 0 < value then value else fallback
  | none => fallback

def limitUnder (ceiling : Nat) (raw : Option String) : Nat :=
  (min (positiveSetting raw ceiling) ceiling).toNat

def callLimit (raw : Option String) : Nat :=
  limitUnder callCeiling raw

end LazyStack
