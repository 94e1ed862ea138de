/-!
# Arithmetic modulo a number

Powers by repeated squaring, inverses modulo a prime, and integer roots.
-/

namespace Coursework.Crypto

/-- `base ^ e % m`, reading the lowest `bits` bits of the exponent. -/
def powModBits (m : Nat) : Nat → Nat → Nat → Nat
  | 0, _, _ => 1 % m
  | bits + 1, base, e =>
    let rest := powModBits m bits (base * base % m) (e / 2)
    if e % 2 = 1 then base * rest % m else rest

def powMod (base e m : Nat) : Nat := powModBits m (e.log2 + 1) (base % m) e

/-- The inverse modulo a prime. -/
def invMod (a p : Nat) : Nat := powMod a (p - 2) p

def subMod (a b p : Nat) : Nat := (a + (p - b % p)) % p

/-- The largest number of at most `bits` bits whose `k`-th power does not exceed `n`. -/
def root (bits k n : Nat) : Nat :=
  (List.range bits).foldl
    (fun r i => let s := r + Nat.pow 2 (bits - 1 - i); if Nat.pow s k ≤ n then s else r) 0

theorem powModBits_eq (m bits base e : Nat) (h : e < Nat.pow 2 bits) :
    powModBits m bits base e = Nat.pow base e % m := by
  induction bits generalizing base e with
  | zero =>
    have he : e = 0 := Nat.lt_one_iff.mp h
    subst he
    rfl
  | succ bits ih =>
    have hlt : e / 2 < Nat.pow 2 bits := Nat.div_lt_of_lt_mul (by rw [Nat.mul_comm]; exact h)
    have key : Nat.pow base e = Nat.pow base (e % 2) * Nat.pow (base * base) (e / 2) := by
      simp only [Nat.pow_eq]
      rw [← Nat.pow_two, ← Nat.pow_mul, ← Nat.pow_add, Nat.mod_add_div]
    simp only [powModBits, ih _ _ hlt]
    rw [key]
    simp only [Nat.pow_eq]
    split
    · next h1 => rw [h1, Nat.pow_one, Nat.mul_mod base, Nat.mod_mod, ← Nat.pow_mod, ← Nat.mul_mod]
    · next h1 => rw [Nat.mod_two_ne_one.mp h1, Nat.pow_zero, Nat.one_mul, ← Nat.pow_mod]

theorem powMod_eq (base e m : Nat) : powMod base e m = Nat.pow base e % m := by
  rw [powMod, powModBits_eq _ _ _ _ Nat.lt_log2_self]
  exact (Nat.pow_mod base e m).symm

end Coursework.Crypto
