/-!
Texts that may not come about. An integer of too many digits has none, and neither has a promise that is
shown within its own text. The parts of a text are written in order, and the first that cannot be written
decides why the whole cannot.
-/

namespace LazyStack

inductive Unwritable
  | longInteger
  | endless
  deriving DecidableEq, Repr

abbrev Written (α : Type) := Except Unwritable α

def gathered {α : Type} : List (Written α) → Written (List α)
  | [] => .ok []
  | part :: rest => do return (← part) :: (← gathered rest)

@[simp] theorem gathered_nil {α : Type} : gathered ([] : List (Written α)) = .ok [] :=
  rfl

@[simp] theorem gathered_cons_ok {α : Type} (first : α) (rest : List (Written α)) :
    gathered (.ok first :: rest) = (gathered rest).map (first :: ·) := by
  rw [gathered]
  cases gathered rest <;> rfl

def joined (separator : String) (parts : List (Written String)) : Written String :=
  (gathered parts).map (String.intercalate separator)

def enclosed (opening closing : String) (text : Written String) : Written String :=
  text.map fun inner => opening ++ inner ++ closing

@[simp] theorem enclosed_ok (opening closing inner : String) :
    enclosed opening closing (.ok inner) = .ok (opening ++ inner ++ closing) :=
  rfl

end LazyStack
