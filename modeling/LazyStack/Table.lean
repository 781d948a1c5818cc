/-!
Tables in order of first insertion. Putting under a present key replaces its entry in place, and
under a new key appends one, so a key is never moved. What is put under a key is what is got there,
and every other key is got as before.
-/

namespace LazyStack

abbrev Table (κ α : Type) := List (κ × α)

variable {κ α : Type} [DecidableEq κ]

def Table.get? (key : κ) : Table κ α → Option α
  | [] => none
  | (present, value) :: rest => if present = key then some value else Table.get? key rest

def Table.put (key : κ) (value : α) : Table κ α → Table κ α
  | [] => [(key, value)]
  | (present, old) :: rest =>
      if present = key then (key, value) :: rest else (present, old) :: Table.put key value rest

def Table.keys (table : Table κ α) : List κ :=
  table.map Prod.fst

@[simp]
theorem Table.get?_put_self (key : κ) (value : α) (table : Table κ α) :
    (Table.put key value table).get? key = some value := by
  induction table with
  | nil => simp [Table.put, Table.get?]
  | cons entry rest ih =>
      by_cases found : entry.1 = key
      · simp [Table.put, Table.get?, found]
      · simp [Table.put, Table.get?, found, ih]

theorem Table.get?_put_of_ne {key other : κ} (distinct : key ≠ other) (value : α)
    (table : Table κ α) : (Table.put key value table).get? other = table.get? other := by
  induction table with
  | nil => simp [Table.put, Table.get?, distinct]
  | cons entry rest ih =>
      by_cases found : entry.1 = key
      · simp [Table.put, Table.get?, found, distinct]
      · simp [Table.put, Table.get?, found, ih]

theorem Table.mem_of_get? {key : κ} {value : α} {table : Table κ α}
    (found : table.get? key = some value) : (key, value) ∈ table := by
  induction table with
  | nil => cases found
  | cons entry rest ih =>
      rw [Table.get?] at found
      split at found
      next same =>
        cases found
        rw [← same]
        exact List.mem_cons_self
      next => exact List.mem_cons_of_mem entry (ih found)

theorem Table.keys_put (key : κ) (value : α) (table : Table κ α) :
    (Table.put key value table).keys = if key ∈ table.keys then table.keys else table.keys ++ [key] := by
  induction table with
  | nil => simp [Table.put, Table.keys]
  | cons entry rest ih =>
      by_cases found : entry.1 = key
      · simp [Table.put, Table.keys, found]
      · have unequal : ¬ key = entry.1 := fun same => found same.symm
        by_cases inRest : key ∈ Table.keys rest <;>
          simp_all [Table.put, Table.keys]

theorem Table.get?_isSome_iff {key : κ} {table : Table κ α} :
    (table.get? key).isSome ↔ key ∈ table.keys := by
  induction table with
  | nil => simp [Table.get?, Table.keys]
  | cons entry rest ih =>
      by_cases same : entry.1 = key
      · simp [Table.get?, Table.keys, same]
      · have apart : ¬ key = entry.1 := fun equal => same equal.symm
        rw [Table.get?, if_neg same, ih, Table.keys, Table.keys, List.map_cons, List.mem_cons]
        simp [apart]

theorem Table.get?_eq_none {key : κ} {table : Table κ α} (absent : key ∉ table.keys) :
    table.get? key = none :=
  Option.not_isSome_iff_eq_none.mp fun present => absent (Table.get?_isSome_iff.mp present)

end LazyStack
