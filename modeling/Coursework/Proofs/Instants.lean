import Coursework.Timestamp
import Mathlib.Data.Nat.Digits.Defs

/-!
# Times as texts

The store keeps times as texts.  Nothing is lost by it: a time is read back from its text.  Every field is written as
digits that end before something else, and so each reader takes just the field that it is for.
-/
namespace Coursework.Timestamp

theorem isBlank_of_isDigit {c : Char} (h : isDigit c = true) : Text.isBlank c = false := by
  simp only [isDigit, Bool.and_eq_true, decide_eq_true_eq, Char.le_def, UInt32.le_iff_toNat_le] at h
  obtain ⟨hlo, hhi⟩ := h
  have hlo : 48 ≤ c.toNat := hlo
  have hhi : c.toNat ≤ 57 := hhi
  simp [Text.isBlank]
  omega

theorem digitsValue_eq (ds : List Char) : digitsValue ds = Nat.ofDigitChars 10 ds 0 := by
  simp [digitsValue, Nat.ofDigitChars, Nat.mul_comm]

section

variable {width n : Nat} {c : Char} {rest : List Char}

theorem padded_digits (hc : c ∈ padded width n) : isDigit c = true := by
  rcases List.mem_append.mp hc with hc | hc
  · rw [List.eq_of_mem_replicate hc]
    rfl
  · exact Nat.isDigit_of_mem_toDigits (by decide) (by decide) hc

theorem digitsValue_padded (width n : Nat) : digitsValue (padded width n) = n := by
  rw [digitsValue_eq, padded, Nat.ofDigitChars_append, Nat.ofDigitChars_replicate_zero, Nat.mul_zero,
    Nat.ofDigitChars_ten_toDigits]

theorem padded_ne_nil (width n : Nat) : padded width n ≠ [] :=
  List.append_ne_nil_of_right_ne_nil _ Nat.toDigits_ne_nil

theorem length_padded (hwidth : 0 < width) (hn : n < 10 ^ width) : (padded width n).length = width := by
  have hlength := (Nat.length_toDigits_le_iff (by decide) hwidth).mpr hn
  rw [padded, List.length_append, List.length_replicate]
  omega

/-- Digits that end before something else are read, however many more could be. -/
theorem digitRun_take {ds : List Char} (hds : ∀ d ∈ ds, isDigit d = true) (hc : isDigit c = false)
    (hlength : ds.length ≤ width) : digitRun ((ds ++ c :: rest).take width) = ds := by
  rw [List.take_append, List.take_of_length_le hlength, digitRun, List.takeWhile_append_of_pos hds]
  cases width - ds.length with
  | zero => simp
  | succ k => simp [hc]

theorem digitRun_append {ds : List Char} (hds : ∀ d ∈ ds, isDigit d = true) (hc : isDigit c = false) :
    digitRun (ds ++ c :: rest) = ds := by
  rw [digitRun, List.takeWhile_append_of_pos hds]
  simp [hc]

theorem padded_cons (width n : Nat) : ∃ d ds, padded width n = d :: ds ∧ isDigit d = true := by
  obtain ⟨d, ds, h⟩ := List.exists_cons_of_ne_nil (padded_ne_nil width n)
  exact ⟨d, ds, h, padded_digits (h ▸ List.mem_cons_self)⟩

theorem trimStart_padded (width n : Nat) (rest : List Char) :
    Text.trimStart (padded width n ++ rest) = padded width n ++ rest := by
  obtain ⟨d, ds, h, hd⟩ := padded_cons width n
  rw [h, List.cons_append, Text.trimStart, List.dropWhile_cons_of_neg (by simp [isBlank_of_isDigit hd])]

/-- Digits are read as their number, up to what follows them. -/
theorem number_none (hc : isDigit c = false) (hn : n < 0x8000000000000000) :
    number none (padded width n ++ c :: rest) = .ok (n, c :: rest) := by
  have hrun : digitRun (padded width n ++ c :: rest) = padded width n := digitRun_append (fun _ => padded_digits) hc
  have hsmall : ¬ 0x8000000000000000 ≤ n := by omega
  simp only [number, hrun, padded_ne_nil, if_false, digitsValue_padded, hsmall, List.drop_left]

theorem number_some {most : Nat} (hc : isDigit c = false) (hmost : (padded width n).length ≤ most)
    (hn : n < 0x8000000000000000) : number (some most) (padded width n ++ c :: rest) = .ok (n, c :: rest) := by
  have hrun : digitRun ((padded width n ++ c :: rest).take most) = padded width n :=
    digitRun_take (fun _ => padded_digits) hc hmost
  have hsmall : ¬ 0x8000000000000000 ≤ n := by omega
  simp only [number, hrun, padded_ne_nil, if_false, digitsValue_padded, hsmall, List.drop_left]

end

section

variable {c : Char} {rest : List Char}

theorem literal_cons (hc : Text.isBlank c = false) : literal c (c :: rest) = .ok ((), rest) := by
  simp [literal, Text.trimStart, hc]

theorem field_padded {lo hi n : Nat} (hc : isDigit c = false) (hlo : lo ≤ n) (hhi : n ≤ hi) (hi99 : hi ≤ 99) :
    field lo hi (padded 2 n ++ c :: rest) = .ok (n, c :: rest) := by
  have hlength : (padded 2 n).length = 2 := length_padded (by decide) (by omega)
  have hnumber : number (some 2) (padded 2 n ++ c :: rest) = .ok (n, c :: rest) :=
    number_some hc (by omega) (by omega)
  rw [field, trimStart_padded, hnumber]
  exact if_pos ⟨hlo, hhi⟩

theorem year_fits {y : Int} (hy : Calendar.yearOk y = true) :
    Int32.minValue.toInt ≤ y ∧ y ≤ Int32.maxValue.toInt := by
  have hmin : Int32.minValue.toInt = -2147483648 := rfl
  have hmax : Int32.maxValue.toInt = 2147483647 := rfl
  simp only [Calendar.yearOk, Bool.decide_and, Bool.and_eq_true, decide_eq_true_eq] at hy
  omega

/-- A year of four digits stands without a sign. -/
theorem yearField_unsigned {y : Int} (hy : Calendar.yearOk y = true) (hfour : 0 ≤ y ∧ y ≤ 9999)
    (hc : isDigit c = false) : yearField (padded 4 y.toNat ++ c :: rest) = .ok (y, c :: rest) := by
  have hlength : (padded 4 y.toNat).length = 4 := length_padded (by decide) (by omega)
  have hnumber : number (some 4) (padded 4 y.toNat ++ c :: rest) = .ok (y.toNat, c :: rest) :=
    number_some hc (by omega) (by omega)
  obtain ⟨d, ds, hd, hdigit⟩ := padded_cons 4 y.toNat
  have hplus : d ≠ '+' := by
    rintro rfl
    cases hdigit
  have hminus : d ≠ '-' := by
    rintro rfl
    cases hdigit
  rw [yearField, trimStart_padded]
  rw [hd, List.cons_append] at hnumber ⊢
  simpa [hnumber, hplus, hminus, bind, Except.bind, hfour.1] using year_fits hy

theorem yearField_chars {y : Int} (hy : Calendar.yearOk y = true) (hc : isDigit c = false) :
    yearField (yearChars y ++ c :: rest) = .ok (y, c :: rest) := by
  have hnumber : number none (padded 4 y.natAbs ++ c :: rest) = .ok (y.natAbs, c :: rest) := by
    simp only [Calendar.yearOk, Bool.decide_and, Bool.and_eq_true, decide_eq_true_eq] at hy
    exact number_none hc (by omega)
  have hminus : ∀ cs, Text.trimStart ('-' :: cs) = '-' :: cs := fun _ => rfl
  have hplus : ∀ cs, Text.trimStart ('+' :: cs) = '+' :: cs := fun _ => rfl
  unfold yearChars
  split
  · exact yearField_unsigned hy ‹_› hc
  · split
    · have habs : -(y.natAbs : Int) = y := by omega
      simp only [yearField, List.cons_append, hminus, hnumber, bind, Except.bind, habs]
      exact if_pos (year_fits hy)
    · have habs : (y.natAbs : Int) = y := by omega
      simp only [yearField, List.cons_append, hplus, hnumber, bind, Except.bind, habs]
      exact if_pos (year_fits hy)

theorem fraction_digits (width k : Nat) (rest : List Char) (hwidth : 0 < width) (hnine : width ≤ 9)
    (hk : k < 10 ^ width) (hc : isDigit c = false) :
    fraction ('.' :: (padded width k ++ c :: rest)) = .ok (k * 10 ^ (9 - width), c :: rest) := by
  have hlength := length_padded hwidth hk
  have hbound : 10 ^ width ≤ 10 ^ 9 := Nat.pow_le_pow_right (by decide) hnine
  have hnumber : number (some 9) (padded width k ++ c :: rest) = .ok (k, c :: rest) :=
    number_some hc (by omega) (by omega)
  have hread : (padded width k ++ c :: rest).length - (c :: rest).length = width := by
    rw [List.length_append, hlength, Nat.add_sub_cancel]
  simp only [fraction, hnumber, bind, Except.bind, hread, Nat.pow_eq]
  rw [List.dropWhile_cons_of_neg (by simp [hc])]

theorem fraction_chars {n : Nat} (hn : n < 1000000000) (hc : isDigit c = false) (hdot : c ≠ '.') :
    fraction (fractionChars n ++ c :: rest) = .ok (n, c :: rest) := by
  unfold fractionChars
  split
  · rename_i hzero
    simp [fraction, hdot, hzero]
  · split
    · have hread := fraction_digits 3 (n / 1000000) rest (by decide) (by decide) (by omega) hc
      have hexact : n / 1000000 * 10 ^ (9 - 3) = n := Nat.div_mul_cancel (Nat.dvd_of_mod_eq_zero ‹_›)
      rw [List.cons_append, hread, hexact]
    · split
      · have hread := fraction_digits 6 (n / 1000) rest (by decide) (by decide) (by omega) hc
        have hexact : n / 1000 * 10 ^ (9 - 6) = n := Nat.div_mul_cancel (Nat.dvd_of_mod_eq_zero ‹_›)
        rw [List.cons_append, hread, hexact]
      · have hread := fraction_digits 9 n rest (by decide) (by decide) (by omega) hc
        rw [List.cons_append, hread, Nat.sub_self, Nat.pow_zero, Nat.mul_one]

end

theorem shiftBack_zero (t : Timestamp) : t.shiftBack 0 = some t := by
  have hvalid := t.valid
  simp only [Bool.and_eq_true, decide_eq_true_eq] at hvalid
  simp only [shiftBack]
  rw [if_neg (by omega), if_neg (by omega)]
  have hhour : ((t.hour * 60 + t.minute - 0 : Int) % 1440).toNat / 60 = t.hour := by omega
  have hminute : ((t.hour * 60 + t.minute - 0 : Int) % 1440).toNat % 60 = t.minute := by omega
  rw [hhour, hminute, ofFields?, dif_pos t.valid]

/-- Whether or not a fraction follows, the seconds end there. -/
theorem field_second {n : Nat} (nano : Nat) (hn : n ≤ 60) :
    field 0 60 (padded 2 n ++ (fractionChars nano ++ ['Z'])) = .ok (n, fractionChars nano ++ ['Z']) := by
  obtain ⟨c, rest, hcs, hc⟩ : ∃ c rest, fractionChars nano ++ ['Z'] = c :: rest ∧ isDigit c = false := by
    unfold fractionChars
    split_ifs <;> exact ⟨_, _, rfl, rfl⟩
  rw [hcs]
  exact field_padded hc (Nat.zero_le n) hn (by decide)

theorem separator_t (rest : List Char) : separator ('T' :: rest) = .ok ((), rest) := rfl

theorem zone_utc : zone (Text.trimStart ['Z']) = .ok (0, []) := rfl

/-- A time is read back from its text. -/
theorem parse_text (t : Timestamp) : parse t.text = .ok t := by
  have hvalid := t.valid
  simp only [Bool.and_eq_true, decide_eq_true_eq] at hvalid
  obtain ⟨⟨⟨⟨⟨⟨hyear, hmonth⟩, hday⟩, hhour⟩, hminute⟩, hsecond⟩, hnano⟩ := hvalid
  have hdays : Calendar.daysInMonth t.year t.month ≤ 31 := by
    unfold Calendar.daysInMonth
    split_ifs <;> decide
  have hfields : ofFields? t.year t.month t.day t.hour t.minute t.second t.nano = some t := dif_pos t.valid
  rw [parse, text, String.toList_ofList, chars, parseChars]
  simp only [List.append_assoc, List.cons_append]
  simp (disch := first | assumption | decide | omega) only [yearField_chars, literal_cons, field_padded,
    field_second, separator_t, fraction_chars, zone_utc, hfields, shiftBack_zero, bind, Except.bind]
  rfl

end Coursework.Timestamp
