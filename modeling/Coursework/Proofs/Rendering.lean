import Coursework.Json.Codec
import Mathlib.Data.List.TakeDrop
import Mathlib.Data.List.TakeWhile

/-!
# Written values are read back

The text of a value is read as one tree, which can be told from the value alone: no escape, no digit and no bracket of
it is lost, and the reading stops where the value ends.  So whoever wants to know what becomes of a written value looks
at its tree and at no text.
-/
namespace Coursework

namespace Bytes

theorem text?_ofText (s : String) : text? (ofText s) = some s := by
  have hbytes : (⟨(ofText s).toArray⟩ : ByteArray) = s.toByteArray := by simp [ofText]
  simp only [text?, hbytes, String.fromUTF8?, dif_pos s.isValidUTF8, String.fromUTF8]

theorem ofText_ofList (cs : List Char) : ofText (String.ofList cs) = cs.flatMap String.utf8EncodeChar := by
  simp [ofText, List.utf8Encode]

theorem utf8EncodeChar_of_lt {n : Nat} (h : n < 128) : String.utf8EncodeChar (Char.ofNat n) = [UInt8.ofNat n] := by
  have hvalid : n.isValidChar := Or.inl (by omega)
  have hpoint : (Char.ofNat n).val.toNat = n := by
    rw [Char.ofNat, dif_pos hvalid]
    rfl
  simp only [String.utf8EncodeChar, hpoint, if_pos (show n ≤ 127 by omega)]

/-- A text of ASCII characters has one byte for each. -/
theorem ofText_ascii {bs : Bytes} (h : ∀ b ∈ bs, b < 128) :
    ofText (String.ofList (bs.map fun b => Char.ofNat b.toNat)) = bs := by
  rw [ofText_ofList, List.flatMap_map]
  induction bs with
  | nil => rfl
  | cons b bs ih =>
    obtain ⟨hb, hbs⟩ := List.forall_mem_cons.mp h
    have hlt : b.toNat < 128 := hb
    rw [List.flatMap_cons, utf8EncodeChar_of_lt hlt, ih hbs]
    simp

end Bytes

namespace Json

namespace StringToken

theorem hexValue?_lowerHex : ∀ n < 16, Bytes.hexValue? (lowerHex n) = some n := by decide

theorem hex4?_control (b : UInt8) (h : b < 32) :
    hex4? 48 48 (lowerHex (b.toNat / 16)) (lowerHex (b.toNat % 16)) = some b.toNat := by
  have hlt : b.toNat < 32 := h
  have hhigh := hexValue?_lowerHex (b.toNat / 16) (by omega)
  have hlow := hexValue?_lowerHex (b.toNat % 16) (by omega)
  have hzero : Bytes.hexValue? 48 = some 0 := by decide
  simp only [hex4?, hhigh, hlow, hzero, Option.bind_eq_bind, Option.bind_some]
  congr 1
  omega

theorem utf8_of_lt {n : Nat} (h : n < 128) : utf8 n = [UInt8.ofNat n] := by
  simp [utf8, Bytes.ofText, List.utf8Encode, Bytes.utf8EncodeChar_of_lt h]

/-- A byte is written as a letter behind a backslash, as its code point, or as itself. -/
theorem escapeByte_cases (b : UInt8) :
    (∃ c, escapeByte b = [92, c] ∧ escape? c = some b) ∨
    (b < 32 ∧ escapeByte b = [92, 117, 48, 48, lowerHex (b.toNat / 16), lowerHex (b.toNat % 16)]) ∨
    (b ≠ 34 ∧ b ≠ 92 ∧ ¬ b < 32 ∧ escapeByte b = [b]) := by
  unfold escapeByte
  split
  iterate 7 exact Or.inl ⟨_, rfl, rfl⟩
  rename_i hquote hbackslash _ _ _ _ _
  by_cases hcontrol : b < 32
  · exact Or.inr (Or.inl ⟨hcontrol, if_pos hcontrol⟩)
  · exact Or.inr (Or.inr ⟨hquote, hbackslash, hcontrol, if_neg hcontrol⟩)

/-- The search for the closing quote passes every written byte. -/
theorem scan_escapeByte (b : UInt8) (seen r : Bytes) :
    scan seen (escapeByte b ++ r) = scan ((escapeByte b).reverse ++ seen) r := by
  obtain ⟨c, hwritten, hletter⟩ | ⟨hcontrol, hwritten⟩ | ⟨hquote, hbackslash, hcontrol, hwritten⟩ :=
    escapeByte_cases b
  · have hc : c ≠ 117 := by rintro rfl; cases hletter
    rw [hwritten, List.cons_append, scan.eq_def]
    simp [quote, backslash, hletter, hc]
  · have hhex := hex4?_control b hcontrol
    simp [hwritten, scan, quote, backslash, hhex]
  · rw [hwritten, List.singleton_append, scan.eq_def]
    simp [quote, backslash, hquote, hbackslash, hcontrol]

theorem unescape_escapeByte (b : UInt8) (done r : Bytes) :
    unescape .closed done (escapeByte b ++ r) = unescape .closed (b :: done) r := by
  obtain ⟨c, hwritten, hletter⟩ | ⟨hcontrol, hwritten⟩ | ⟨hquote, hbackslash, hcontrol, hwritten⟩ :=
    escapeByte_cases b
  · have hc : c ≠ 117 := by rintro rfl; cases hletter
    rw [hwritten, List.cons_append, List.singleton_append, unescape.eq_def]
    simp [hletter, hc]
  · -- a control character is far from the surrogates
    have hlt : b.toNat < 32 := hcontrol
    have htrailing : isTrailing b.toNat = false := by simp [isTrailing]; omega
    have hleading : isLeading b.toNat = false := by simp [isLeading]; omega
    have hutf8 := utf8_of_lt (n := b.toNat) (by omega)
    rw [hwritten, unescape.eq_def]
    simp [hex4?_control b hcontrol, htrailing, hleading, hutf8]
  · rw [hwritten, List.singleton_append, unescape.eq_def]
    simp [hbackslash]

theorem scan_written (bs seen r : Bytes) :
    scan seen (bs.flatMap escapeByte ++ quote :: r) = (⟨seen.reverse ++ bs.flatMap escapeByte, .closed⟩, r) := by
  induction bs generalizing seen with
  | nil =>
    rw [List.flatMap_nil, List.nil_append, scan.eq_def]
    simp
  | cons b bs ih => simp [scan_escapeByte, ih]

theorem unescape_written (bs done : Bytes) :
    unescape .closed done (bs.flatMap escapeByte) = .ok (done.reverse ++ bs) := by
  induction bs generalizing done with
  | nil => simp [unescape, StringEnd.fault?]
  | cons b bs ih => simp [unescape_escapeByte, ih]

/-- A written text as it is found between its quotes. -/
def ofText (s : String) : StringToken := ⟨escaped s, .closed⟩

theorem scan_escaped (s : String) (r : Bytes) : scan [] (escaped s ++ quote :: r) = (ofText s, r) :=
  scan_written _ _ _

@[simp] theorem text_ofText (s : String) : (ofText s).text = .ok s := by
  simp [text, ofText, escaped, unescape_written, Bytes.text?_ofText, bind, Except.bind]

end StringToken

/-- The decimal digits of a number. -/
def digitBytes (n : Nat) : Bytes := (Nat.toDigits 10 n).map fun c => UInt8.ofNat c.toNat

/-- The number that these digits write after those of another number. -/
def weigh (s : Nat) (ds : Bytes) : Nat := ds.foldl (fun n d => n * 10 + NumberToken.digit d) s

/-- What may stand behind a value: nothing, a comma or a closing bracket. -/
inductive Ended : Bytes → Prop
  | nothing : Ended []
  | comma (r : Bytes) : Ended (44 :: r)
  | bracket (r : Bytes) : Ended (93 :: r)
  | brace (r : Bytes) : Ended (125 :: r)

namespace NumberToken

theorem isDigit_digitChar : ∀ d < 10, isDigit (UInt8.ofNat (Nat.digitChar d).toNat) = true := by decide

theorem digit_digitChar : ∀ d < 10, digit (UInt8.ofNat (Nat.digitChar d).toNat) = d := by decide

theorem digitChar_ne_zero : ∀ d < 10, d ≠ 0 → UInt8.ofNat (Nat.digitChar d).toNat ≠ 48 := by decide

theorem digitBytes_of_lt {n : Nat} (h : n < 10) : digitBytes n = [UInt8.ofNat (Nat.digitChar n).toNat] := by
  simp [digitBytes, Nat.toDigits_of_lt_base h]

theorem digitBytes_of_le {n : Nat} (h : 10 ≤ n) :
    digitBytes n = digitBytes (n / 10) ++ [UInt8.ofNat (Nat.digitChar (n % 10)).toNat] := by
  simp [digitBytes, Nat.toDigits_of_base_le (by decide) h]

theorem isDigit_of_mem (n : Nat) : ∀ b ∈ digitBytes n, isDigit b = true := by
  induction n using Nat.strongRecOn with
  | _ n ih =>
    by_cases h : n < 10
    · simp [digitBytes_of_lt h, isDigit_digitChar n h]
    · rw [digitBytes_of_le (by omega)]
      intro b hb
      rcases List.mem_append.mp hb with hb | hb
      · exact ih (n / 10) (by omega) b hb
      · rw [List.mem_singleton.mp hb]
        exact isDigit_digitChar _ (by omega)

theorem weigh_digitBytes (n : Nat) : weigh 0 (digitBytes n) = n := by
  induction n using Nat.strongRecOn with
  | _ n ih =>
    by_cases h : n < 10
    · simp [digitBytes_of_lt h, weigh, digit_digitChar n h]
    · have hfront : (digitBytes (n / 10)).foldl (fun n d => n * 10 + digit d) 0 = n / 10 := ih (n / 10) (by omega)
      rw [digitBytes_of_le (by omega), weigh, List.foldl_append, hfront]
      simp only [List.foldl_cons, List.foldl_nil, digit_digitChar (n % 10) (by omega)]
      omega

/-- Only the number zero begins with the digit zero. -/
theorem exists_digitBytes (n : Nat) :
    ∃ d ds, digitBytes n = d :: ds ∧ isDigit d = true ∧ (d = 48 → n = 0 ∧ ds = []) := by
  induction n using Nat.strongRecOn with
  | _ n ih =>
    by_cases h : n < 10
    · refine ⟨_, [], digitBytes_of_lt h, isDigit_digitChar n h, fun hzero => ⟨?_, rfl⟩⟩
      by_contra hn
      exact digitChar_ne_zero n h hn hzero
    · obtain ⟨d, ds, hfront, hdigit, hzero⟩ := ih (n / 10) (by omega)
      refine ⟨d, ds ++ [UInt8.ofNat (Nat.digitChar (n % 10)).toNat], ?_, hdigit, fun hd => ?_⟩
      · rw [digitBytes_of_le (by omega), hfront, List.cons_append]
      · have hn := (hzero hd).1
        omega

theorem le_weigh (s : Nat) (ds : Bytes) : s ≤ weigh s ds := by
  induction ds generalizing s with
  | nil => exact Nat.le_refl s
  | cons d ds ih =>
    have hrest : s * 10 + digit d ≤ weigh s (d :: ds) := ih (s * 10 + digit d)
    omega

theorem accumulate_of_weigh_lt {s : Nat} {ds : Bytes} (h : weigh s ds < UInt64.size) :
    accumulate s ds = (weigh s ds, ds.length) := by
  induction ds generalizing s with
  | nil => rfl
  | cons d ds ih =>
    have hstep : s * 10 + digit d ≤ weigh s (d :: ds) := le_weigh (s * 10 + digit d) ds
    have hrest := ih (s := s * 10 + digit d) h
    rw [accumulate, if_neg (by omega), hrest]
    rfl

/-- A written integer as it is found in a text. -/
def ofInt (n : Int) : NumberToken where
  negative := decide (n < 0)
  whole := digitBytes n.natAbs

theorem read_digitBytes (isNegative : Bool) (n : Nat) {rest : Bytes} (hrest : Ended rest) :
    read isNegative (digitBytes n ++ rest) = (⟨isNegative, digitBytes n, none, none, none⟩, rest) := by
  have hdigits := isDigit_of_mem n
  have hstop : rest.takeWhile isDigit = [] ∧ rest.dropWhile isDigit = rest := by
    cases hrest <;> exact ⟨rfl, rfl⟩
  have hspan : (digitBytes n ++ rest).span isDigit = (digitBytes n, rest) := by
    rw [List.span_eq_takeWhile_dropWhile, List.takeWhile_append_of_pos hdigits, List.dropWhile_append_of_pos hdigits,
      hstop.1, hstop.2, List.append_nil]
  have hafter (t : NumberToken) : afterWhole t rest = (t, rest) := by cases hrest <;> rfl
  obtain ⟨d, ds, hds, -, hzero⟩ := exists_digitBytes n
  rw [read, hspan, hds]
  split
  · simp_all
  · simp_all
  · rename_i hfound
    simp only [Prod.mk.injEq, List.cons.injEq] at hfound
    obtain ⟨⟨hd, htail⟩, -⟩ := hfound
    exact absurd ((hzero hd).2.symm.trans htail) (by simp)
  · rename_i hfound
    simp only [Prod.mk.injEq] at hfound
    obtain ⟨rfl, rfl⟩ := hfound
    exact hafter _

/-- An integer of 64 bits, with a sign or without, is understood as itself. -/
theorem value_ofInt {n : Int} (hlo : -0x8000000000000000 ≤ n) (hhi : n < UInt64.size) :
    ∃ v, (ofInt n).value = .ok v ∧ Found.ofNumber v = .integer n := by
  have hweigh := weigh_digitBytes n.natAbs
  have hsize : UInt64.size = 0x10000000000000000 := rfl
  have hrun : accumulate 0 (digitBytes n.natAbs) = (n.natAbs, (digitBytes n.natAbs).length) := by
    have h : weigh 0 (digitBytes n.natAbs) < UInt64.size := by omega
    rw [accumulate_of_weigh_lt h, hweigh]
  by_cases hn : n < 0
  · have hmagnitude : 0 < n.natAbs ∧ n.natAbs ≤ 0x8000000000000000 := by omega
    have hback : -(n.natAbs : Int) = n := by omega
    refine ⟨.negative n.natAbs, ?_, congrArg Found.integer hback⟩
    simp only [value, ofInt, hrun, hn, Nat.sub_self, and_self, ↓reduceIte, decide_true, Bool.not_true,
      Bool.false_eq_true, if_pos hmagnitude]
  · have hback : (n.natAbs : Int) = n := by omega
    refine ⟨.natural n.natAbs, ?_, congrArg Found.integer hback⟩
    simp only [value, ofInt, hrun, hn, Nat.sub_self, and_self, ↓reduceIte, decide_false, Bool.not_false]

end NumberToken

theorem integerBytes_of_neg {n : Int} (h : n < 0) : integerBytes n = 45 :: digitBytes n.natAbs := by
  simp [integerBytes, digitBytes, h]

theorem integerBytes_of_nonneg {n : Int} (h : 0 ≤ n) : integerBytes n = digitBytes n.natAbs := by
  simp [integerBytes, digitBytes, Int.not_lt.mpr h]

/-- Values are built from keywords, numbers and texts by arrays and objects. -/
@[elab_as_elim, induction_eliminator]
theorem induction {motive : Json → Prop} (null : motive .null) (bool : ∀ b, motive (.bool b))
    (int : ∀ n, motive (.int n)) (str : ∀ s, motive (.str s))
    (arr : ∀ items, (∀ v ∈ items, motive v) → motive (.arr items))
    (obj : ∀ members, (∀ m ∈ members, motive m.2) → motive (.obj members)) (j : Json) : motive j := by
  refine @Json.rec motive (fun items => ∀ v ∈ items, motive v) (fun members => ∀ m ∈ members, motive m.2)
    (fun m => motive m.2) null bool int str arr obj ?_ ?_ ?_ ?_ ?_ j
  · exact fun _ h => nomatch h
  · exact fun _ _ hv hvs => List.forall_mem_cons.mpr ⟨hv, hvs⟩
  · exact fun _ h => nomatch h
  · exact fun _ _ hm hms => List.forall_mem_cons.mpr ⟨hm, hms⟩
  · exact fun _ _ hv => hv

mutual

/-- The tree of a written value that stands inside some containers. -/
def tree : Nat → Json → Node
  | _, null => .null
  | _, bool b => .bool b
  | _, int n => .number (.ofInt n)
  | _, str s => .string (.ofText s)
  | depth, arr items => Node.container (depth + 1) (.array (treeItems (depth + 1) items) .closed)
  | depth, obj members => Node.container (depth + 1) (.object (treeMembers (depth + 1) members) .closed)

def treeItems : Nat → List Json → List Node
  | _, [] => []
  | depth, v :: vs => tree depth v :: treeItems depth vs

def treeMembers : Nat → List (String × Json) → List (StringToken × Node)
  | _, [] => []
  | depth, (k, v) :: ms => (.ofText k, tree depth v) :: treeMembers depth ms

end

theorem treeItems_eq_map (depth : Nat) (items : List Json) : treeItems depth items = items.map (tree depth) := by
  induction items with
  | nil => rfl
  | cons v vs ih => simp [treeItems, ih]

theorem treeMembers_eq_map (depth : Nat) (members : List (String × Json)) :
    treeMembers depth members = members.map fun (k, v) => (StringToken.ofText k, tree depth v) := by
  induction members with
  | nil => rfl
  | cons m ms ih => simp [treeMembers, ih]

section Steps

variable {fuel depth : Nat} {bs r r' : Bytes} {n : Node}

theorem skipSpace_cons {b : UInt8} (h : Node.isSpace b = false) : Node.skipSpace (b :: r) = b :: r := by
  simp [Node.skipSpace, h]

theorem isSpace_of_isDigit {b : UInt8} (h : NumberToken.isDigit b = true) : Node.isSpace b = false := by
  have hspaces : b ≠ 32 ∧ b ≠ 10 ∧ b ≠ 9 ∧ b ≠ 13 := by refine ⟨?_, ?_, ?_, ?_⟩ <;> (rintro rfl; cases h)
  simp [Node.isSpace, hspaces]

theorem readValue_digit {d : UInt8} (hd : NumberToken.isDigit d = true) :
    Node.readValue (fuel + 1) depth (d :: r) =
      (.number (NumberToken.read false (d :: r)).1, (NumberToken.read false (d :: r)).2) := by
  have hhead : d ≠ 110 ∧ d ≠ 116 ∧ d ≠ 102 ∧ d ≠ 45 ∧ d ≠ 34 ∧ d ≠ 91 ∧ d ≠ 123 := by
    refine ⟨?_, ?_, ?_, ?_, ?_, ?_, ?_⟩ <;> (rintro rfl; cases hd)
  obtain ⟨h1, h2, h3, h4, h5, h6, h7⟩ := hhead
  rw [Node.readValue, skipSpace_cons (isSpace_of_isDigit hd)]
  simp [hd]

theorem readItems_last {done : List Node} (hvalue : Node.readValue fuel depth bs = (n, 93 :: r)) :
    Node.readItems (fuel + 1) depth done bs = ((n :: done).reverse, .closed, r) := by
  rw [Node.readItems, hvalue]
  rfl

theorem readItems_step {done : List Node} {b : UInt8} (hvalue : Node.readValue fuel depth bs = (n, 44 :: b :: r))
    (hspace : Node.isSpace b = false) (hb : b ≠ 93) :
    Node.readItems (fuel + 1) depth done bs = Node.readItems fuel depth (n :: done) (b :: r) := by
  have hcomma : Node.skipSpace (44 :: b :: r) = 44 :: b :: r := rfl
  simp [Node.readItems, hvalue, hcomma, skipSpace_cons hspace, hb]

theorem readMembers_last {done : List (StringToken × Node)} {k : StringToken}
    (hkey : StringToken.scan [] bs = (k, 58 :: r)) (hvalue : Node.readValue fuel depth r = (n, 125 :: r')) :
    Node.readMembers (fuel + 1) depth done bs = (((k, n) :: done).reverse, .closed, r') := by
  have hcolon : Node.skipSpace (58 :: r) = 58 :: r := rfl
  rw [Node.readMembers, hkey]
  simp only [hcolon, hvalue]
  rfl

theorem readMembers_step {done : List (StringToken × Node)} {k : StringToken}
    (hkey : StringToken.scan [] bs = (k, 58 :: r)) (hvalue : Node.readValue fuel depth r = (n, 44 :: 34 :: r')) :
    Node.readMembers (fuel + 1) depth done bs = Node.readMembers fuel depth ((k, n) :: done) r' := by
  have hcolon : Node.skipSpace (58 :: r) = 58 :: r := rfl
  rw [Node.readMembers, hkey]
  simp only [hcolon, hvalue]
  rfl

end Steps

theorem ended_renderItems (vs : List Json) (rest : Bytes) : Ended (renderItems vs ++ rest) := by
  cases vs with
  | nil => exact .bracket rest
  | cons v vs => exact .comma _

theorem ended_renderMembers (ms : List (String × Json)) (rest : Bytes) : Ended (renderMembers ms ++ rest) := by
  cases ms with
  | nil => exact .brace rest
  | cons m ms => exact .comma _

/-- A written value begins with neither space nor a closing bracket. -/
theorem exists_render (j : Json) : ∃ b r, j.render = b :: r ∧ Node.isSpace b = false ∧ b ≠ 93 := by
  cases j with
  | null => exact ⟨_, _, rfl, by decide⟩
  | bool b => cases b <;> exact ⟨_, _, rfl, by decide⟩
  | int n =>
    by_cases hn : n < 0
    · exact ⟨_, _, integerBytes_of_neg hn, by decide⟩
    · obtain ⟨d, ds, hds, hdigit, -⟩ := NumberToken.exists_digitBytes n.natAbs
      refine ⟨d, ds, ?_, isSpace_of_isDigit hdigit, ?_⟩
      · rw [render, integerBytes_of_nonneg (Int.not_lt.mp hn), hds]
      · rintro rfl
        cases hdigit
  | str s => exact ⟨_, _, rfl, by decide⟩
  | arr items => cases items <;> exact ⟨_, _, rfl, by decide⟩
  | obj members => cases members <;> exact ⟨_, _, rfl, by decide⟩

/-- Wherever this value stands in a text, its tree is read and what follows it is left, given a step for each of its
bytes. -/
def ReadBack (j : Json) : Prop :=
  ∀ fuel depth rest, j.render.length ≤ fuel + 1 → Ended rest →
    Node.readValue (fuel + 1) depth (j.render ++ rest) = (j.tree depth, rest)

theorem ReadBack.reads {j : Json} (h : j.ReadBack) (depth : Nat) {fuel : Nat} {rest : Bytes}
    (hfuel : j.render.length ≤ fuel) (hrest : Ended rest) :
    Node.readValue fuel depth (j.render ++ rest) = (j.tree depth, rest) := by
  obtain ⟨b, r, hr, -⟩ := j.exists_render
  obtain _ | fuel := fuel
  · simp [hr] at hfuel
  · exact h fuel depth rest hfuel hrest

theorem readItems_render {v : Json} {vs : List Json} (h : ∀ w ∈ v :: vs, w.ReadBack) {fuel : Nat}
    (hfuel : (v.render ++ renderItems vs).length ≤ fuel) (depth : Nat) (done : List Node) (rest : Bytes) :
    Node.readItems fuel depth done (v.render ++ (renderItems vs ++ rest)) =
      (done.reverse ++ treeItems depth (v :: vs), .closed, rest) := by
  have hv := h v List.mem_cons_self
  induction vs generalizing v fuel done with
  | nil =>
    obtain _ | fuel := fuel
    · simp [renderItems] at hfuel
    have hlength : v.render.length ≤ fuel := by simpa [renderItems] using hfuel
    have hvalue := hv.reads depth hlength (ended_renderItems [] rest)
    rw [readItems_last hvalue]
    simp [treeItems]
  | cons w ws ih =>
    obtain _ | fuel := fuel
    · simp [renderItems] at hfuel
    simp only [renderItems, List.length_append, List.length_cons] at hfuel
    have hshort : v.render.length ≤ fuel := by omega
    have hvalue := hv.reads depth hshort (ended_renderItems (w :: ws) rest)
    obtain ⟨b, r, hw, hspace, hb⟩ := w.exists_render
    have hbehind : renderItems (w :: ws) ++ rest = 44 :: b :: (r ++ (renderItems ws ++ rest)) := by
      simp [renderItems, hw]
    have hlength : (w.render ++ renderItems ws).length ≤ fuel := by
      rw [List.length_append]
      omega
    have hlater := fun u hu => h u (List.mem_cons_of_mem v hu)
    have hrest := ih hlater hlength (v.tree depth :: done) (hlater w List.mem_cons_self)
    rw [hw, List.cons_append] at hrest
    rw [hbehind] at hvalue ⊢
    rw [readItems_step hvalue hspace hb, hrest]
    simp [treeItems]

theorem readMembers_render {k : String} {v : Json} {ms : List (String × Json)} (h : ∀ m ∈ (k, v) :: ms, m.2.ReadBack)
    {fuel : Nat} (hfuel : (v.render ++ renderMembers ms).length ≤ fuel) (depth : Nat)
    (done : List (StringToken × Node)) (rest : Bytes) :
    Node.readMembers fuel depth done
        (StringToken.escaped k ++ StringToken.quote :: 58 :: (v.render ++ (renderMembers ms ++ rest))) =
      (done.reverse ++ treeMembers depth ((k, v) :: ms), .closed, rest) := by
  have hv : v.ReadBack := h (k, v) List.mem_cons_self
  induction ms generalizing k v fuel done with
  | nil =>
    obtain _ | fuel := fuel
    · simp [renderMembers] at hfuel
    have hlength : v.render.length ≤ fuel := by simpa [renderMembers] using hfuel
    have hkey := StringToken.scan_escaped k (58 :: (v.render ++ (renderMembers [] ++ rest)))
    have hvalue := hv.reads depth hlength (ended_renderMembers [] rest)
    rw [readMembers_last hkey hvalue]
    simp [treeMembers]
  | cons m ms ih =>
    obtain ⟨k', w⟩ := m
    obtain _ | fuel := fuel
    · simp [renderMembers] at hfuel
    simp only [renderMembers, List.length_append, List.length_cons] at hfuel
    have hkey := StringToken.scan_escaped k (58 :: (v.render ++ (renderMembers ((k', w) :: ms) ++ rest)))
    have hshort : v.render.length ≤ fuel := by omega
    have hvalue := hv.reads depth hshort (ended_renderMembers ((k', w) :: ms) rest)
    have hbehind : renderMembers ((k', w) :: ms) ++ rest = 44 :: 34 ::
        (StringToken.escaped k' ++ StringToken.quote :: 58 :: (w.render ++ (renderMembers ms ++ rest))) := by
      simp [renderMembers, StringToken.render, StringToken.quote]
    have hlength : (w.render ++ renderMembers ms).length ≤ fuel := by
      rw [List.length_append]
      omega
    have hlater := fun u hu => h u (List.mem_cons_of_mem (k, v) hu)
    have hrest := ih hlater hlength ((.ofText k, v.tree depth) :: done) (hlater (k', w) List.mem_cons_self)
    rw [hbehind] at hkey hvalue ⊢
    rw [readMembers_step hkey hvalue, hrest]
    simp [treeMembers]

theorem readBack_int (n : Int) : (int n).ReadBack := by
  intro fuel depth rest _ hrest
  obtain ⟨d, ds, hds, hdigit, -⟩ := NumberToken.exists_digitBytes n.natAbs
  by_cases hn : n < 0
  · have hread := NumberToken.read_digitBytes true n.natAbs hrest
    rw [render, integerBytes_of_neg hn, List.cons_append, Node.readValue, skipSpace_cons (by decide)]
    simp [hread, tree, NumberToken.ofInt, hn]
  · have hread := NumberToken.read_digitBytes false n.natAbs hrest
    rw [hds, List.cons_append] at hread
    rw [render, integerBytes_of_nonneg (Int.not_lt.mp hn), hds, List.cons_append, readValue_digit hdigit, hread]
    simp [tree, NumberToken.ofInt, hn, hds]

theorem readBack_str (s : String) : (str s).ReadBack := by
  intro fuel depth rest _ _
  have htext : (str s).render ++ rest = 34 :: (StringToken.escaped s ++ StringToken.quote :: rest) := by
    simp [render, StringToken.render, StringToken.quote]
  rw [htext, Node.readValue, skipSpace_cons (by decide)]
  simp [StringToken.scan_escaped, tree]

theorem readBack_arr {items : List Json} (h : ∀ v ∈ items, v.ReadBack) : (arr items).ReadBack := by
  intro fuel depth rest hfuel _
  cases items with
  | nil => rfl
  | cons v vs =>
    simp only [render, List.length_cons, Nat.add_le_add_iff_right] at hfuel
    have hitems := readItems_render h hfuel (depth + 1) [] rest
    obtain ⟨b, r, hv, hspace, hb⟩ := v.exists_render
    have htext : (arr (v :: vs)).render ++ rest = 91 :: (v.render ++ (renderItems vs ++ rest)) := by simp [render]
    rw [htext, Node.readValue, skipSpace_cons (by decide)]
    rw [hv, List.cons_append] at hitems ⊢
    simp [skipSpace_cons hspace, hb, hitems, tree]

theorem readBack_obj {members : List (String × Json)} (h : ∀ m ∈ members, m.2.ReadBack) : (obj members).ReadBack := by
  intro fuel depth rest hfuel _
  cases members with
  | nil => rfl
  | cons m ms =>
    obtain ⟨k, v⟩ := m
    simp only [render, List.length_cons, List.length_append] at hfuel
    have hlength : (v.render ++ renderMembers ms).length ≤ fuel := by
      rw [List.length_append]
      omega
    have hmembers := readMembers_render h hlength (depth + 1) [] rest
    have htext : (obj ((k, v) :: ms)).render ++ rest = 123 :: 34 ::
        (StringToken.escaped k ++ StringToken.quote :: 58 :: (v.render ++ (renderMembers ms ++ rest))) := by
      simp [render, StringToken.render, StringToken.quote]
    rw [htext, Node.readValue, skipSpace_cons (by decide)]
    simp [skipSpace_cons (b := 34) (by decide), hmembers, tree]

theorem readBack (j : Json) : j.ReadBack := by
  induction j with
  | null => exact fun _ _ _ _ _ => rfl
  | bool b => cases b <;> exact fun _ _ _ _ _ => rfl
  | int n => exact readBack_int n
  | str s => exact readBack_str s
  | arr items ih => exact readBack_arr ih
  | obj members ih => exact readBack_obj ih

/-- A text that is a written value is read as its tree, with nothing left over. -/
theorem read_render (j : Json) : Node.read j.render = (j.tree 0, []) := by
  have h := j.readBack (2 * j.render.length + 1) 0 [] (by omega) .nothing
  rwa [List.append_nil] at h

end Json

end Coursework
