import Coursework.Failure

/-!
# Callers and roles

A caller is known by the subject of a verified token and holds a set of roles, kept as a strictly ascending list.
A gate lets a caller pass who holds at least one of its roles.
-/

namespace Coursework

namespace RoleSet

/-- Adds a role to an ascending list, once. -/
def insert (r : String) : List String → List String
  | [] => [r]
  | x :: xs => if r < x then r :: x :: xs else if r = x then x :: xs else x :: insert r xs

def ofList (rs : List String) : List String := rs.foldr insert []

theorem mem_insert {r x : String} {xs : List String} : x ∈ insert r xs ↔ x = r ∨ x ∈ xs := by
  induction xs with
  | nil => simp [insert]
  | cons y ys ih =>
    unfold insert
    split
    · simp
    · split
      · simp_all
      · simp only [List.mem_cons, ih]
        constructor <;> intro h <;> rcases h with h | h | h <;> simp [h]

theorem mem_ofList {x : String} {rs : List String} : x ∈ ofList rs ↔ x ∈ rs := by
  induction rs with
  | nil => simp [ofList]
  | cons r rs ih => simp only [ofList, List.foldr_cons, mem_insert, List.mem_cons]; rw [← ofList, ih]

end RoleSet

structure Caller where
  subject : String
  username : Option String
  roles : List String
  deriving DecidableEq, Repr, Inhabited

namespace Caller

def hasRole (c : Caller) (r : String) : Bool := r ∈ c.roles

end Caller

namespace Gate

def admin : List String := ["admin"]

def staff : List String := ["admin", "teacher"]

/-- Passes a caller who holds one of the required roles. -/
def check (required : List String) : Option Caller → Except Failure Unit
  | none => .error (.unauthorized "Authentication required")
  | some c =>
    if c.roles.any (fun r => r ∈ required) then .ok ()
    else .error (.forbidden ("Requires one of the roles: " ++ ", ".intercalate required))

theorem check_ok_iff {required : List String} {c : Option Caller} :
    check required c = .ok () ↔ ∃ x, c = some x ∧ ∃ r ∈ x.roles, r ∈ required := by
  cases c with
  | none => simp [check]
  | some x =>
    by_cases h : ∃ r ∈ x.roles, r ∈ required
    · simp [check, h]
    · simp only [check, List.any_eq_true, decide_eq_true_eq]
      simp [h]

end Gate

end Coursework
