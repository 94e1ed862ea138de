/-!
# Splitting

A list is cut at a separator, at every one or at the first.
-/

namespace Coursework.Text

/-- The pieces between separators; there is always one more piece than there are separators. -/
def split {α : Type} [DecidableEq α] (sep : α) : List α → List (List α)
  | [] => [[]]
  | x :: xs =>
    if x = sep then [] :: split sep xs
    else match split sep xs with
      | [] => [[x]]
      | piece :: pieces => (x :: piece) :: pieces

/-- What stands before the first separator and what follows it, which is nothing if there is none. -/
def cut {α : Type} [DecidableEq α] (sep : α) (xs : List α) : List α × List α :=
  (xs.takeWhile (· ≠ sep), (xs.dropWhile (· ≠ sep)).drop 1)

theorem split_of_not_mem {α : Type} [DecidableEq α] {sep : α} {xs : List α} (h : sep ∉ xs) :
    split sep xs = [xs] := by
  induction xs with
  | nil => rfl
  | cons x xs ih =>
    simp only [List.mem_cons, not_or] at h
    simp [split, ih h.2, Ne.symm h.1]

theorem split_append_cons {α : Type} [DecidableEq α] {sep : α} {xs : List α} (h : sep ∉ xs) (ys : List α) :
    split sep (xs ++ sep :: ys) = xs :: split sep ys := by
  induction xs with
  | nil => simp [split]
  | cons x xs ih =>
    simp only [List.mem_cons, not_or] at h
    simp [split, ih h.2, Ne.symm h.1]

theorem cut_append_cons {α : Type} [DecidableEq α] {sep : α} {xs : List α} (h : sep ∉ xs) (ys : List α) :
    cut sep (xs ++ sep :: ys) = (xs, ys) := by
  induction xs with
  | nil => simp [cut]
  | cons x xs ih =>
    simp only [List.mem_cons, not_or] at h
    have hx : decide (x ≠ sep) = true := decide_eq_true (Ne.symm h.1)
    have step := ih h.2
    simp only [cut, Prod.mk.injEq] at step
    simp only [cut, List.cons_append, List.takeWhile_cons, List.dropWhile_cons, hx, ↓reduceIte, step]

theorem cut_of_not_mem {α : Type} [DecidableEq α] {sep : α} {xs : List α} (h : sep ∉ xs) :
    cut sep xs = (xs, []) := by
  induction xs with
  | nil => rfl
  | cons x xs ih =>
    simp only [List.mem_cons, not_or] at h
    have hx : decide (x ≠ sep) = true := decide_eq_true (Ne.symm h.1)
    have step := ih h.2
    simp only [cut, Prod.mk.injEq] at step
    simp only [cut, List.takeWhile_cons, List.dropWhile_cons, hx, ↓reduceIte, step]

end Coursework.Text
