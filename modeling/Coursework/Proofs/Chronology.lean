import Coursework.Proofs.Instants
import Coursework.Proofs.Reads
import Mathlib.Data.List.Pairwise
import Mathlib.Data.String.Basic

/-!
# Text order and time

Rows that are listed by a time are sorted by its text.  Texts compare character by character, and a fraction of a second
ends before the letter that closes the text, which is above every digit and above the point: so a time whose decimals
are only the first of another one's comes after it, though it is earlier.  Years that do not have four digits are put
between others by their signs.  Apart from these the order of the texts is that of the times.
-/
namespace Coursework

namespace Timestamp

section

variable {ds es u v s t : List Char} {c d : Char} {width m n : Nat}

theorem digitsValue_cons (d : Char) (ds : List Char) :
    digitsValue (d :: ds) = 10 ^ ds.length * (d.toNat - 48) + digitsValue ds := by
  rw [digitsValue_eq, digitsValue_eq, Nat.ofDigitChars_cons, Nat.ofDigitChars_eq_ofDigitChars_zero]
  simp

theorem digitsValue_append (ds es : List Char) :
    digitsValue (ds ++ es) = 10 ^ es.length * digitsValue ds + digitsValue es := by
  rw [digitsValue_eq, digitsValue_eq, digitsValue_eq, Nat.ofDigitChars_append, Nat.ofDigitChars_eq_ofDigitChars_zero]

theorem toNat_of_isDigit (h : isDigit c = true) : 48 ≤ c.toNat ∧ c.toNat ≤ 57 := by
  simpa [isDigit, Char.le_def, UInt32.le_iff_toNat_le] using h

theorem char_lt_iff : c < d ↔ c.toNat < d.toNat := by
  rw [Char.lt_def, UInt32.lt_iff_toNat_lt]
  rfl

theorem digitsValue_lt (hds : ∀ d ∈ ds, isDigit d = true) : digitsValue ds < 10 ^ ds.length := by
  induction ds with
  | nil => exact Nat.one_pos
  | cons d ds ih =>
    obtain ⟨hd, hds⟩ := List.forall_mem_cons.mp hds
    have hrest := ih hds
    have hdigit : d.toNat - 48 ≤ 9 := by have := toNat_of_isDigit hd; omega
    have hprod := Nat.mul_le_mul_left (10 ^ ds.length) hdigit
    rw [digitsValue_cons, List.length_cons, Nat.pow_succ]
    omega

theorem mul_add_lt_iff {b x y i j : Nat} (hi : i < b) (hj : j < b) : b * x + i < b * y + j ↔ x < y ∨ x = y ∧ i < j := by
  rcases Nat.lt_trichotomy x y with h | rfl | h
  · have hstep := Nat.mul_le_mul_left b h
    rw [Nat.mul_succ] at hstep
    omega
  · simp
  · have hstep := Nat.mul_le_mul_left b h
    rw [Nat.mul_succ] at hstep
    omega

/-- As many digits compare as their numbers do. -/
theorem lt_iff_digitsValue_lt (hds : ∀ d ∈ ds, isDigit d = true) (hes : ∀ d ∈ es, isDigit d = true)
    (hlength : ds.length = es.length) : ds < es ↔ digitsValue ds < digitsValue es := by
  induction ds generalizing es with
  | nil =>
    rw [List.length_nil, eq_comm, List.length_eq_zero_iff] at hlength
    simp [hlength]
  | cons d ds ih =>
    obtain ⟨e, es, rfl⟩ := List.exists_cons_of_length_eq_add_one hlength.symm
    obtain ⟨hd, hds⟩ := List.forall_mem_cons.mp hds
    obtain ⟨he, hes⟩ := List.forall_mem_cons.mp hes
    have hlength : ds.length = es.length := Nat.succ.inj hlength
    have hlow := digitsValue_lt hds
    have hlow' := digitsValue_lt hes
    have hdigit := toNat_of_isDigit hd
    have hdigit' := toNat_of_isDigit he
    have hsame : d = e ↔ d.toNat - 48 = e.toNat - 48 := by
      rw [← Char.toNat_inj]
      omega
    rw [List.cons_lt_cons_iff, ih hds hes hlength, char_lt_iff, digitsValue_cons, digitsValue_cons, ← hlength,
      mul_add_lt_iff hlow (hlength ▸ hlow'), hsame]
    exact or_congr_left (by omega)

/-- Texts that begin with fronts neither of which goes on as the other compare by these first. -/
theorem append_lt_append_iff (huv : u <+: v → u = v) (hvu : v <+: u → u = v) :
    u ++ s < v ++ t ↔ u < v ∨ u = v ∧ s < t := by
  induction u generalizing v with
  | nil =>
    obtain rfl := huv List.nil_prefix
    simp
  | cons a u ih =>
    cases v with
    | nil => cases hvu List.nil_prefix
    | cons b v =>
      simp only [List.cons_append, List.cons_lt_cons_iff, List.cons.injEq]
      by_cases hab : a = b
      · subst hab
        have hrest := @ih v (fun h => (List.cons.inj (huv (List.cons_prefix_cons.mpr ⟨rfl, h⟩))).2)
          fun h => (List.cons.inj (hvu (List.cons_prefix_cons.mpr ⟨rfl, h⟩))).2
        simpa using hrest
      · simp [hab]

theorem append_lt_append_of_length (hlength : u.length = v.length) : u ++ s < v ++ t ↔ u < v ∨ u = v ∧ s < t :=
  append_lt_append_iff (fun h => h.eq_of_length hlength) fun h => (h.eq_of_length hlength.symm).symm

theorem padded_lt_iff (hwidth : 0 < width) (hm : m < 10 ^ width) (hn : n < 10 ^ width) :
    padded width m < padded width n ↔ m < n := by
  have hlength : (padded width m).length = (padded width n).length :=
    (length_padded hwidth hm).trans (length_padded hwidth hn).symm
  rw [lt_iff_digitsValue_lt (fun _ => padded_digits) (fun _ => padded_digits) hlength, digitsValue_padded,
    digitsValue_padded]

theorem padded_inj : padded width m = padded width n ↔ m = n := by
  refine ⟨fun h => ?_, congrArg _⟩
  rw [← digitsValue_padded width m, h, digitsValue_padded]

/-- Fields of two digits compare as their numbers do, and what follows them counts where they are equal. -/
theorem field_lt_iff (hm : m < 100) (hn : n < 100) :
    padded 2 m ++ s < padded 2 n ++ t ↔ m < n ∨ m = n ∧ s < t := by
  have hlength : (padded 2 m).length = (padded 2 n).length :=
    (length_padded (by decide) hm).trans (length_padded (by decide) hn).symm
  rw [append_lt_append_of_length hlength, padded_lt_iff (by decide) hm hn, padded_inj]

/-- How many decimals are written. -/
def decimals (n : Nat) : Nat := if n = 0 then 0 else if n % 1000000 = 0 then 3 else if n % 1000 = 0 then 6 else 9

/-- The one has fewer decimals than the other, which begins with them. -/
def CutShort (m n : Nat) : Prop :=
  decimals m < decimals n ∧ n / 10 ^ (9 - decimals m) = m / 10 ^ (9 - decimals m)

theorem fractionChars_eq (n : Nat) : fractionChars n =
    if decimals n = 0 then [] else '.' :: padded (decimals n) (n / 10 ^ (9 - decimals n)) := by
  unfold fractionChars decimals
  split_ifs <;> simp_all

theorem decimals_le (n : Nat) : decimals n ≤ 9 := by
  unfold decimals
  split_ifs <;> decide

theorem decimals_exact (n : Nat) : n / 10 ^ (9 - decimals n) * 10 ^ (9 - decimals n) = n := by
  unfold decimals
  split_ifs <;> simp <;> omega

theorem decimals_fit (hn : n < 1000000000) : n / 10 ^ (9 - decimals n) < 10 ^ decimals n := by
  unfold decimals
  split_ifs <;> simp <;> omega

theorem fraction_inj (hm : m < 1000000000) (hn : n < 1000000000)
    (h : fractionChars m ++ ['Z'] = fractionChars n ++ ['Z']) : m = n := by
  have hread : fraction (fractionChars m ++ ['Z']) = .ok (m, ['Z']) := fraction_chars hm (by decide) (by decide)
  rw [h, fraction_chars hn (by decide) (by decide)] at hread
  exact (congrArg Prod.fst (Except.ok.inj hread)).symm

theorem lt_closing (h : isDigit c = true) : c < 'Z' := by
  have hdigit := toNat_of_isDigit h
  rw [char_lt_iff]
  exact Nat.lt_of_le_of_lt hdigit.2 (by decide)

theorem not_closed_lt (hds : ∀ d ∈ ds, d < 'Z') : ¬ ['Z'] < ds ++ ['Z'] := by
  cases ds with
  | nil => exact List.lt_irrefl _
  | cons d ds =>
    have hd := hds d List.mem_cons_self
    rw [List.cons_append, List.cons_lt_cons_iff]
    exact fun h => h.elim (lt_asymm hd) fun h => hd.ne' h.1

theorem fraction_below (n : Nat) : ∀ c ∈ fractionChars n, c < 'Z' := by
  rw [fractionChars_eq]
  split
  · exact List.forall_mem_nil _
  · exact List.forall_mem_cons.mpr ⟨by decide, fun _ hc => lt_closing (padded_digits hc)⟩

/-- The first of some digits make what is left of their number without the last ones. -/
theorem digitsValue_take (hds : ∀ d ∈ ds, isDigit d = true) (k : Nat) :
    digitsValue (ds.take k) = digitsValue ds / 10 ^ (ds.length - k) := by
  have hlow : digitsValue (ds.drop k) < 10 ^ (ds.length - k) := by
    rw [← List.length_drop]
    exact digitsValue_lt fun d hd => hds d (List.mem_of_mem_drop hd)
  have hsplit : digitsValue ds = 10 ^ (ds.length - k) * digitsValue (ds.take k) + digitsValue (ds.drop k) := by
    rw [← List.length_drop, ← digitsValue_append, List.take_append_drop]
  rw [hsplit, Nat.mul_add_div (Nat.pow_pos (by decide)), Nat.div_eq_of_lt hlow, Nat.add_zero]

/-- Digits before the end of the text are compared as far as both have some. -/
theorem closed_lt_iff {x y k : Nat} (hwidth : 0 < width) (hx : x < 10 ^ width) (hy : y < 10 ^ (width + k)) :
    padded width x ++ ['Z'] < padded (width + k) y ++ ['Z'] ↔ x < y / 10 ^ k := by
  have hlength : (padded (width + k) y).length = width + k := length_padded (by omega) hy
  have hdigits : ∀ d ∈ padded (width + k) y, isDigit d = true := fun _ => padded_digits
  have hfirst : (padded width x).length = ((padded (width + k) y).take width).length := by
    rw [length_padded hwidth hx, List.length_take, hlength]
    omega
  have hvalue : digitsValue ((padded (width + k) y).take width) = y / 10 ^ k := by
    rw [digitsValue_take hdigits, hlength, digitsValue_padded, Nat.add_sub_cancel_left]
  have hlast : ¬ ['Z'] < (padded (width + k) y).drop width ++ ['Z'] :=
    not_closed_lt fun d hd => lt_closing (hdigits d (List.mem_of_mem_drop hd))
  rw [← List.take_append_drop width (padded (width + k) y), List.append_assoc, append_lt_append_of_length hfirst,
    lt_iff_digitsValue_lt (fun _ => padded_digits) (fun d hd => hdigits d (List.mem_of_mem_take hd)) hfirst, hvalue,
    digitsValue_padded, or_iff_left fun h => hlast h.2]

/-- Decimals stand below as many or more only if the first of these are more already. -/
theorem fraction_lt_iff (hm : m < 1000000000) (hn : n < 1000000000) (hfewer : decimals m ≤ decimals n) :
    fractionChars m ++ ['Z'] < fractionChars n ++ ['Z'] ↔
      m / 10 ^ (9 - decimals m) < n / 10 ^ (9 - decimals m) := by
  have hfit := decimals_fit hm
  have hfit' := decimals_fit hn
  have hnine := decimals_le n
  obtain ⟨k, hk⟩ := Nat.exists_eq_add_of_le hfewer
  by_cases hnone : decimals m = 0
  · have hzero : n / 10 ^ (9 - 0) = 0 := Nat.div_eq_of_lt hn
    rw [fractionChars_eq m, if_pos hnone, hnone, hzero]
    exact iff_of_false (not_closed_lt (fraction_below n)) (Nat.not_lt_zero _)
  · have hsome : decimals n ≠ 0 := by omega
    have hcut : n / 10 ^ (9 - decimals n) / 10 ^ k = n / 10 ^ (9 - decimals m) := by
      rw [Nat.div_div_eq_div_mul, ← Nat.pow_add, show 9 - decimals n + k = 9 - decimals m by omega]
    rw [fractionChars_eq m, fractionChars_eq n, if_neg hnone, if_neg hsome, List.cons_append, List.cons_append,
      List.cons_lt_cons_iff]
    rw [hk] at hfit' hcut ⊢
    rw [closed_lt_iff (by omega) hfit hfit', hcut]
    simp

/-- An earlier fraction does not stand below a later one only if it is cut short. -/
theorem fraction_misplaced (hm : m < 1000000000) (hn : n < 1000000000) :
    m < n ∧ ¬ fractionChars m ++ ['Z'] < fractionChars n ++ ['Z'] ↔ CutShort m n := by
  rcases Nat.lt_trichotomy (decimals m) (decimals n) with hfewer | hsame | hmore
  · rw [fraction_lt_iff hm hn hfewer.le]
    have hexact := decimals_exact m
    have hbound := Nat.div_mul_le_self n (10 ^ (9 - decimals m))
    constructor
    · rintro ⟨hlt, hnot⟩
      have hle := Nat.div_le_div_right (c := 10 ^ (9 - decimals m)) hlt.le
      exact ⟨hfewer, by omega⟩
    · rintro ⟨-, hcut⟩
      have hne : m ≠ n := by
        rintro rfl
        exact Nat.lt_irrefl _ hfewer
      rw [hcut, hexact] at hbound
      exact ⟨by omega, by omega⟩
  · have hexact := decimals_exact m
    have hexact' := decimals_exact n
    rw [fraction_lt_iff hm hn hsame.le, CutShort, hsame]
    rw [hsame] at hexact
    refine iff_of_false (fun ⟨hlt, hnot⟩ => hnot ?_) (by omega)
    refine Nat.lt_of_mul_lt_mul_right (a := 10 ^ (9 - decimals n)) ?_
    rwa [hexact, hexact']
  · have hless := fraction_lt_iff hn hm hmore.le
    refine iff_of_false (fun ⟨hlt, hnot⟩ => ?_) fun h => Nat.lt_asymm h.1 hmore
    have hle := Nat.div_le_div_right (c := 10 ^ (9 - decimals n)) hlt.le
    rcases lt_trichotomy (fractionChars m ++ ['Z']) (fractionChars n ++ ['Z']) with h | h | h
    · exact hnot h
    · exact Nat.ne_of_lt hlt (fraction_inj hm hn h)
    · have := hless.mp h
      omega

end

/-- A year with the mark that ends it, so that none goes on as another one. -/
def yearFront (y : Int) : List Char := yearChars y ++ ['-']

theorem year_eq_of_front {x y : Int} (hx : Calendar.yearOk x = true) (hy : Calendar.yearOk y = true)
    (h : yearFront x <+: yearFront y) : x = y := by
  obtain ⟨rest, hrest⟩ := h
  have hread : yearField (yearChars x ++ '-' :: rest) = .ok (x, '-' :: rest) := yearField_chars hx (by decide)
  have hread' : yearField (yearChars y ++ ['-']) = .ok (y, ['-']) := yearField_chars hy (by decide)
  rw [yearFront, yearFront, List.append_assoc, List.singleton_append] at hrest
  rw [hrest, hread'] at hread
  exact (congrArg Prod.fst (Except.ok.inj hread)).symm

theorem year_lt_iff {x y : Int} {s t : List Char} (hx : Calendar.yearOk x = true) (hy : Calendar.yearOk y = true) :
    yearChars x ++ '-' :: s < yearChars y ++ '-' :: t ↔ yearFront x < yearFront y ∨ x = y ∧ s < t := by
  have hfront : ∀ z (rest : List Char), yearChars z ++ '-' :: rest = yearFront z ++ rest := by simp [yearFront]
  have hinj : yearFront x = yearFront y ↔ x = y :=
    ⟨fun h => year_eq_of_front hx hy (h ▸ List.prefix_rfl), congrArg _⟩
  rw [hfront, hfront, append_lt_append_iff (fun h => congrArg _ (year_eq_of_front hx hy h))
    (fun h => congrArg _ (year_eq_of_front hy hx h).symm), hinj]

/-- The first year is earlier, and is not put first. -/
def YearsSwapped (x y : Int) : Prop := x < y ∧ yearFront y < yearFront x

/-- Years of four digits are never swapped. -/
theorem not_yearsSwapped {x y : Int} (hx : 0 ≤ x) (hy : y ≤ 9999) : ¬ YearsSwapped x y := by
  rintro ⟨hlt, hswapped⟩
  have hx' : 0 ≤ x ∧ x ≤ 9999 := by omega
  have hy' : 0 ≤ y ∧ y ≤ 9999 := by omega
  have hlength : (padded 4 y.toNat).length = (padded 4 x.toNat).length :=
    (length_padded (by decide) (by omega)).trans (length_padded (by decide) (by omega)).symm
  rw [yearFront, yearFront, yearChars, yearChars, if_pos hx', if_pos hy', append_lt_append_of_length hlength,
    padded_lt_iff (by decide) (by omega) (by omega), padded_inj] at hswapped
  omega

/-- What is compared field by field, with the fraction by another comparison. -/
def ClockLt (fractionLt : Prop) (a b : Timestamp) : Prop :=
  a.month < b.month ∨ a.month = b.month ∧ (a.day < b.day ∨ a.day = b.day ∧ (a.hour < b.hour ∨ a.hour = b.hour ∧
    (a.minute < b.minute ∨ a.minute = b.minute ∧ (a.second < b.second ∨ a.second = b.second ∧ fractionLt))))

theorem two_digits (t : Timestamp) :
    t.month < 100 ∧ t.day < 100 ∧ t.hour < 100 ∧ t.minute < 100 ∧ t.second < 100 := by
  have hvalid := t.valid
  have hdays : Calendar.daysInMonth t.year t.month ≤ 31 := by
    unfold Calendar.daysInMonth
    split_ifs <;> decide
  simp only [Bool.and_eq_true, decide_eq_true_eq] at hvalid
  omega

theorem year_ok (t : Timestamp) : Calendar.yearOk t.year = true := by
  have hvalid := t.valid
  simp only [Bool.and_eq_true] at hvalid
  exact hvalid.1.1.1.1.1.1

theorem text_lt_iff (a b : Timestamp) : a.text < b.text ↔
    yearFront a.year < yearFront b.year ∨
      a.year = b.year ∧ ClockLt (fractionChars a.nano ++ ['Z'] < fractionChars b.nano ++ ['Z']) a b := by
  obtain ⟨hmonth, hday, hhour, hminute, hsecond⟩ := two_digits a
  obtain ⟨hmonth', hday', hhour', hminute', hsecond'⟩ := two_digits b
  rw [String.lt_iff_toList_lt, text, text, String.toList_ofList, String.toList_ofList, chars, chars]
  simp only [List.append_assoc, List.cons_append, year_lt_iff a.year_ok b.year_ok, List.cons_lt_cons_self,
    field_lt_iff hmonth hmonth', field_lt_iff hday hday', field_lt_iff hhour hhour', field_lt_iff hminute hminute',
    field_lt_iff hsecond hsecond', ClockLt]

theorem lt_iff (a b : Timestamp) :
    a.lt b = true ↔ a.year < b.year ∨ a.year = b.year ∧ ClockLt (a.nano < b.nano) a b := by
  simp [lt, before, fields, ClockLt]

/-- Both are in the same second. -/
def SameSecond (a b : Timestamp) : Prop := a.fields.dropLast = b.fields.dropLast

/-- Two comparisons that go by a number first differ only where the numbers are equal. -/
theorem lex_and_not_lex {x y : Nat} {p q : Prop} :
    (x < y ∨ x = y ∧ p) ∧ ¬ (x < y ∨ x = y ∧ q) ↔ x = y ∧ p ∧ ¬ q := by
  rcases Nat.lt_trichotomy x y with h | rfl | h
  · simp [h, Nat.ne_of_lt h]
  · simp
  · simp [Nat.lt_asymm h, Nat.ne_of_gt h]

theorem clockLt_and_not_clockLt {p q : Prop} {a b : Timestamp} (hyear : a.year = b.year) :
    ClockLt p a b ∧ ¬ ClockLt q a b ↔ SameSecond a b ∧ p ∧ ¬ q := by
  simp only [ClockLt, lex_and_not_lex]
  simp [SameSecond, fields, hyear, and_assoc]

/-- The first instant is earlier and is not put first: their years are swapped, or the one is cut short in the second
that they share. -/
inductive Misplaced (a b : Timestamp) : Prop
  | years (swapped : YearsSwapped a.year b.year)
  | fraction (second : SameSecond a b) (cut : CutShort a.nano b.nano)

theorem misplaced_iff_cutShort {a b : Timestamp} (ha : 0 ≤ a.year) (hb : b.year ≤ 9999) :
    a.Misplaced b ↔ SameSecond a b ∧ CutShort a.nano b.nano := by
  refine ⟨fun h => ?_, fun h => .fraction h.1 h.2⟩
  cases h with
  | years swapped => exact absurd swapped (not_yearsSwapped ha hb)
  | fraction second cut => exact ⟨second, cut⟩

theorem misplaced_iff (a b : Timestamp) : a.lt b = true ∧ ¬ a.text < b.text ↔ Misplaced a b := by
  rw [lt_iff, text_lt_iff]
  by_cases hyear : a.year = b.year
  · have hclock := clockLt_and_not_clockLt (p := a.nano < b.nano)
      (q := fractionChars a.nano ++ ['Z'] < fractionChars b.nano ++ ['Z']) hyear
    rw [fraction_misplaced a.nano_lt b.nano_lt] at hclock
    simp only [hyear, lt_irrefl, false_or, true_and, hclock]
    refine ⟨fun h => .fraction h.1 h.2, fun h => ?_⟩
    cases h with
    | years swapped => exact absurd hyear swapped.1.ne
    | fraction second cut => exact ⟨second, cut⟩
  · have hfront : yearFront a.year ≠ yearFront b.year := fun h =>
      hyear (year_eq_of_front a.year_ok b.year_ok (h ▸ List.prefix_rfl))
    simp only [hyear, false_and, or_false]
    refine ⟨fun h => .years ⟨h.1, lt_of_le_of_ne (not_lt.mp h.2) hfront.symm⟩, fun h => ?_⟩
    cases h with
    | years swapped => exact ⟨swapped.1, not_lt.mpr swapped.2.le⟩
    | fraction second => exact absurd (List.cons.inj second).1 hyear

theorem lt_irrefl_iff (a : Timestamp) : a.lt a = false := by
  rw [← Bool.not_eq_true, lt_iff]
  simp [ClockLt]

theorem text_inj {a b : Timestamp} (h : a.text = b.text) : a = b := by
  have hread := parse_text a
  rw [h, parse_text] at hread
  exact (Except.ok.inj hread).symm

end Timestamp

namespace Store

/-- No row stands before an earlier one that it is compared with by time. -/
def Chronological {α : Type} (compared : α → α → Prop) (time : α → Timestamp) (rows : List α) : Prop :=
  rows.Pairwise fun a b => compared a b → (time b).lt (time a) = false

def NoneMisplaced {α : Type} (compared : α → α → Prop) (time : α → Timestamp) (rows : List α) : Prop :=
  ∀ a ∈ rows, ∀ b ∈ rows, compared a b → ¬ (time a).Misplaced (time b)

theorem related_of_pairwise {α : Type} {R : α → α → Prop} {rows : List α} {a b : α} (h : rows.Pairwise R)
    (ha : a ∈ rows) (hb : b ∈ rows) (hne : a ≠ b) : R a b ∨ R b a :=
  have : Std.Symm fun x y => R x y ∨ R y x := ⟨fun _ _ => Or.symm⟩
  (h.imp fun hab => Or.inl hab : rows.Pairwise fun x y => R x y ∨ R y x).forall ha hb hne

/-- A list that is sorted by the texts is in the order of time unless two of its rows are misplaced. -/
theorem chronological_iff {α : Type} {le : α → α → Bool} {compared : α → α → Prop} {time : α → Timestamp}
    {rows shown : List α} (symm : ∀ a b, compared a b → compared b a)
    (byTime : ∀ a b, compared a b → (le a b = true ↔ timeLe (time a) (time b) = true))
    (sorted : shown.Pairwise fun a b => le a b = true) (hperm : shown.Perm rows) :
    Chronological compared time shown ↔ NoneMisplaced compared time rows := by
  constructor
  · intro hchron a ha b hb hab hmisplaced
    obtain ⟨hlt, hnot⟩ := (Timestamp.misplaced_iff _ _).mpr hmisplaced
    have hne : a ≠ b := by
      rintro rfl
      rw [Timestamp.lt_irrefl_iff] at hlt
      cases hlt
    rcases related_of_pairwise (sorted.and hchron) (hperm.mem_iff.mpr ha) (hperm.mem_iff.mpr hb) hne with
      ⟨hfirst, -⟩ | ⟨-, hlast⟩
    · -- the texts would be equal, and so the times
      have hle : (time a).text ≤ (time b).text := of_decide_eq_true ((byTime a b hab).mp hfirst)
      have hsame := Timestamp.text_inj (String.le_antisymm hle (String.not_lt.mp hnot))
      rw [hsame, Timestamp.lt_irrefl_iff] at hlt
      cases hlt
    · rw [hlast (symm a b hab)] at hlt
      cases hlt
  · intro h
    refine sorted.imp_of_mem fun {a b} ha hb hle hab => Bool.not_eq_true _ ▸ fun hlt => ?_
    have htext : (time a).text ≤ (time b).text := of_decide_eq_true ((byTime a b hab).mp hle)
    exact h b (hperm.mem_iff.mp hb) a (hperm.mem_iff.mp ha) (symm a b hab)
      ((Timestamp.misplaced_iff _ _).mp ⟨hlt, String.not_lt.mpr htext⟩)

theorem byTime_iff {α : Type} (time : α → Timestamp) (rows : List α) :
    Chronological (fun _ _ => True) time (Table.sorted (fun a b => timeLe (time a) (time b)) rows) ↔
      NoneMisplaced (fun _ _ => True) time rows := by
  have trans : ∀ a b c, timeLe (time a) (time b) = true → timeLe (time b) (time c) = true →
      timeLe (time a) (time c) = true := fun _ _ _ => timeLe_trans
  have total : ∀ a b, (timeLe (time a) (time b) || timeLe (time b) (time a)) = true := fun _ _ => timeLe_total ..
  exact chronological_iff (fun _ _ _ => trivial) (fun _ _ _ => Iff.rfl) (Table.sorted_pairwise trans total rows)
    (Table.sorted_perm _ rows)

theorem siblings_iff {α : Type} (order : α → Int32) (time : α → Timestamp) (rows : List α) :
    Chronological (fun a b => order a = order b) time
        (Table.sorted (fun a b => siblingLe (order a) (order b) (time a) (time b)) rows) ↔
      NoneMisplaced (fun a b => order a = order b) time rows := by
  have byTime : ∀ a b, order a = order b →
      (siblingLe (order a) (order b) (time a) (time b) = true ↔ timeLe (time a) (time b) = true) := by
    intro a b hab
    simp [siblingLe_iff, hab]
  exact chronological_iff (fun _ _ => Eq.symm) byTime (siblings_sorted order time rows) (Table.sorted_perm _ rows)

/-- Courses, attachments and grants, and chapters and lessons of one order, are listed in the order of their times
exactly where no two of them are misplaced, which among years of four digits is to say that none is cut short. -/
theorem listed_in_time_unless_misplaced (s : Store) (id : String) :
    (Chronological (fun _ _ => True) Course.createdAt s.sortedCourses ↔
        NoneMisplaced (fun _ _ => True) Course.createdAt s.courses) ∧
      (Chronological (fun _ _ => True) Attachment.createdAt (s.attachmentsOf id) ↔
        NoneMisplaced (fun _ _ => True) Attachment.createdAt (s.attachments.filter fun a => a.lessonId = id)) ∧
      (Chronological (fun _ _ => True) Grant.grantedAt (s.grantsOf id) ↔
        NoneMisplaced (fun _ _ => True) Grant.grantedAt (s.grants.filter fun g => g.lessonId = id)) ∧
      (Chronological (fun a b => a.order = b.order) Chapter.createdAt (s.chaptersOf id) ↔
        NoneMisplaced (fun a b => a.order = b.order) Chapter.createdAt (s.chapters.filter fun c => c.courseId = id)) ∧
      (Chronological (fun a b => a.order = b.order) Lesson.createdAt (s.lessonsOf id) ↔
        NoneMisplaced (fun a b => a.order = b.order) Lesson.createdAt (s.lessons.filter fun l => l.chapterId = id)) ∧
      ∀ a b : Timestamp, 0 ≤ a.year → b.year ≤ 9999 →
        (a.Misplaced b ↔ a.SameSecond b ∧ Timestamp.CutShort a.nano b.nano) := by
  refine ⟨byTime_iff _ _, byTime_iff _ _, byTime_iff _ _, siblings_iff _ _ _, siblings_iff _ _ _, fun a b ha hb => ?_⟩
  exact Timestamp.misplaced_iff_cutShort ha hb

def sampleWhole : Timestamp := ⟨2024, 6, 1, 0, 0, 0, 0, by decide⟩

def sampleQuarter : Timestamp := ⟨2024, 6, 1, 0, 0, 0, 250000000, by decide⟩

def sampleHalf : Timestamp := ⟨2024, 6, 1, 0, 0, 0, 500000000, by decide⟩

/-- Two courses that were made at these times. -/
def sampleCourses (first second : Timestamp) : Store :=
  { empty with courses := [⟨"early", "", "", first, first⟩, ⟨"late", "", "", second, second⟩] }

/-- Quarters of a second are told apart by their texts, but the full second is put after them. -/
theorem listed_in_time_unless_misplaced_sample :
    (0 ≤ sampleWhole.year ∧ sampleHalf.year ≤ 9999) ∧ sampleWhole.Misplaced sampleHalf ∧
      ¬ Chronological (fun _ _ => True) Course.createdAt (sampleCourses sampleWhole sampleHalf).sortedCourses ∧
      Chronological (fun _ _ => True) Course.createdAt (sampleCourses sampleQuarter sampleHalf).sortedCourses := by
  obtain ⟨hcourses, -, -, -, -, hmisplaced⟩ :=
    listed_in_time_unless_misplaced (sampleCourses sampleWhole sampleHalf) ""
  obtain ⟨hcourses', -⟩ := listed_in_time_unless_misplaced (sampleCourses sampleQuarter sampleHalf) ""
  have hcut : sampleWhole.Misplaced sampleHalf :=
    (hmisplaced sampleWhole sampleHalf (by decide) (by decide)).mpr ⟨rfl, by decide, by decide⟩
  refine ⟨⟨by decide, by decide⟩, hcut, fun h => ?_, hcourses'.mpr fun a ha b hb _ h => ?_⟩
  · exact hcourses.mp h ⟨"early", "", "", sampleWhole, sampleWhole⟩ (by simp [sampleCourses])
      ⟨"late", "", "", sampleHalf, sampleHalf⟩ (by simp [sampleCourses]) trivial hcut
  · have hthree : ∀ c ∈ (sampleCourses sampleQuarter sampleHalf).courses,
        c.createdAt.year = 2024 ∧ Timestamp.decimals c.createdAt.nano = 3 := by
      simp [sampleCourses, sampleQuarter, sampleHalf, Timestamp.decimals]
    obtain ⟨hyear, hdecimals⟩ := hthree a ha
    obtain ⟨hyear', hdecimals'⟩ := hthree b hb
    have hfewer := ((hmisplaced _ _ (by omega) (by omega)).mp h).2.1
    omega

/-- Of two courses of one second the later one is listed first, because the time of the earlier one has no decimals. -/
theorem later_course_listed_first :
    sampleWhole.lt sampleHalf = true ∧
      (sampleCourses sampleWhole sampleHalf).sortedCourses.map Course.id = ["late", "early"] ∧
      ¬ Chronological (fun _ _ => True) Course.createdAt (sampleCourses sampleWhole sampleHalf).sortedCourses := by
  have hlt : sampleWhole.lt sampleHalf = true := by decide
  have hnot : timeLe sampleWhole sampleHalf = false := by decide +kernel
  have hsorted : (sampleCourses sampleWhole sampleHalf).sortedCourses =
      [⟨"late", "", "", sampleHalf, sampleHalf⟩, ⟨"early", "", "", sampleWhole, sampleWhole⟩] := by
    simp [sortedCourses, Table.sorted, sampleCourses, List.mergeSort, List.MergeSort.Internal.splitInTwo, hnot]
  rw [hsorted]
  refine ⟨hlt, rfl, fun h => ?_⟩
  have hlate := List.rel_of_pairwise_cons h (List.mem_singleton_self _) trivial
  rw [hlt] at hlate
  cases hlate

end Store

end Coursework
