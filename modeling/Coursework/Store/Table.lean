/-!
# Tables

A table is the list of its rows in the order in which they were added.
-/

namespace Coursework.Table

/-- Adds a row that clashes with none. -/
def add? {α : Type} (clash : α → α → Bool) (row : α) (rows : List α) : Option (List α) :=
  if rows.any (clash row) then none else some (rows ++ [row])

/-- Changes the first row that has the property, and answers what it became. -/
def modify? {α : Type} (p : α → Bool) (f : α → α) : List α → Option (α × List α)
  | [] => none
  | x :: xs => if p x then some (f x, f x :: xs) else (modify? p f xs).map fun (y, ys) => (y, x :: ys)

/-- Removes the first row that has the property. -/
def remove? {α : Type} (p : α → Bool) : List α → Option (List α)
  | [] => none
  | x :: xs => if p x then some xs else (remove? p xs).map (x :: ·)

/-- The rows in the order of a comparison, rows that it does not tell apart staying as they were. -/
def sorted {α : Type} (le : α → α → Bool) (rows : List α) : List α := rows.mergeSort le

theorem modify?_eq_none {α : Type} {p : α → Bool} {f : α → α} {rows : List α} :
    modify? p f rows = none ↔ ∀ x ∈ rows, p x = false := by
  induction rows with
  | nil => simp [modify?]
  | cons x xs ih => by_cases h : p x <;> simp [modify?, h, ih]

theorem remove?_eq_none {α : Type} {p : α → Bool} {rows : List α} :
    remove? p rows = none ↔ ∀ x ∈ rows, p x = false := by
  induction rows with
  | nil => simp [remove?]
  | cons x xs ih => by_cases h : p x <;> simp [remove?, h, ih]

end Coursework.Table
