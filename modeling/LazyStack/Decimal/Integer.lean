import LazyStack.Text.Written

/-!
Text of an integer: a minus sign for a negative one, then the digits without leading zeros. An integer of
more digits than the limit has no text.
-/

namespace LazyStack

/-- How many digits an integer has at most for its text to be written or read. -/
def digitLimit : Nat := 4300

def IsShort (value : Int) : Prop :=
  (Nat.toDigits 10 value.natAbs).length ≤ digitLimit

instance (value : Int) : Decidable (IsShort value) :=
  inferInstanceAs (Decidable (_ ≤ _))

theorem isShort_iff {value : Int} : IsShort value ↔ value.natAbs < Nat.pow 10 digitLimit := by
  have positive : 0 < digitLimit := by decide
  rw [IsShort]
  generalize digitLimit = limit at positive ⊢
  exact Nat.length_toDigits_le_iff (by decide) positive

def integerDigits (value : Int) : List Char :=
  if value < 0 then '-' :: Nat.toDigits 10 value.natAbs else Nat.toDigits 10 value.natAbs

def integerText (value : Int) : Written String :=
  if IsShort value then .ok (String.ofList (integerDigits value)) else .error .longInteger

end LazyStack
