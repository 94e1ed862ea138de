import Coursework.Proofs.Rendering
import Coursework.Token.Base64

/-!
# Encoded bytes are read back

Three bytes are four symbols of six bits each.  What an encoding leaves at its end, where the bytes do not come in
threes, has no stray bits, so the strict reader takes every encoding and gives the bytes again.
-/
namespace Coursework.Base64

theorem value?_symbol : ∀ n < 64, value? (symbol n) = some n := by decide

/-- The six-bit values whose symbols encode these bytes. -/
def sextets : Bytes → List Nat
  | a :: b :: c :: rest =>
    let n := (a.toNat * 256 + b.toNat) * 256 + c.toNat
    n / 262144 :: n / 4096 % 64 :: n / 64 % 64 :: n % 64 :: sextets rest
  | [a, b] =>
    let n := (a.toNat * 256 + b.toNat) * 4
    [n / 4096, n / 64 % 64, n % 64]
  | [a] => [a.toNat / 4, a.toNat % 4 * 16]
  | [] => []

theorem encode_eq_map (bs : Bytes) : encode bs = (sextets bs).map symbol := by
  fun_induction encode bs with
  | case1 a b c rest n ih => simp [sextets, n, ih]
  | case2 a b n => simp [sextets, n]
  | case3 a => rfl
  | case4 => rfl

theorem lt_of_mem_sextets (bs : Bytes) : ∀ v ∈ sextets bs, v < 64 := by
  fun_induction sextets bs with
  | case1 a b c rest n ih =>
    have ha := a.toNat_lt
    have hb := b.toNat_lt
    have hc := c.toNat_lt
    simp only [List.forall_mem_cons]
    exact ⟨by omega, by omega, by omega, by omega, ih⟩
  | case2 a b n =>
    have ha := a.toNat_lt
    have hb := b.toNat_lt
    simp only [List.forall_mem_cons]
    exact ⟨by omega, by omega, by omega, nofun⟩
  | case3 a =>
    have ha := a.toNat_lt
    simp only [List.forall_mem_cons]
    exact ⟨by omega, by omega, nofun⟩
  | case4 => nofun

theorem gather_sextets (bs : Bytes) : gather (sextets bs) = bs := by
  fun_induction sextets bs with
  | case1 a b c rest n ih =>
    have ha := a.toNat_lt
    have hb := b.toNat_lt
    have hc := c.toNat_lt
    have hjoin : ((n / 262144 * 64 + n / 4096 % 64) * 64 + n / 64 % 64) * 64 + n % 64 = n := by omega
    simp only [gather, hjoin, ih, List.cons.injEq, ← UInt8.toNat_inj, UInt8.toNat_ofNat']
    exact ⟨by omega, by omega, by omega, trivial⟩
  | case2 a b n =>
    have ha := a.toNat_lt
    have hb := b.toNat_lt
    have hjoin : (n / 4096 * 64 + n / 64 % 64) * 64 + n % 64 = n := by omega
    simp only [gather, hjoin, List.cons.injEq, ← UInt8.toNat_inj, UInt8.toNat_ofNat']
    exact ⟨by omega, by omega, trivial⟩
  | case3 a =>
    have ha := a.toNat_lt
    simp only [gather, List.cons.injEq, ← UInt8.toNat_inj, UInt8.toNat_ofNat']
    exact ⟨by omega, trivial⟩
  | case4 => rfl

/-- The last group of an encoding, where it is not a whole one, has two or three symbols and leaves no bits over. -/
theorem last_sextets (bs : Bytes) :
    (sextets bs).length % 4 ≠ 1 ∧ strayBits ((sextets bs).drop (4 * ((sextets bs).length / 4))) = 0 := by
  fun_induction sextets bs with
  | case1 a b c rest n ih =>
    have hgroups : 4 * (((sextets rest).length + 1 + 1 + 1 + 1) / 4) = 4 * ((sextets rest).length / 4) + 4 := by omega
    simp only [List.length_cons, hgroups, List.drop_succ_cons]
    exact ⟨by omega, ih.2⟩
  | case2 a b n =>
    simp [strayBits, n]
  | case3 a => simp [strayBits]
  | case4 => simp [strayBits]

theorem strayBits_of_length {vs : List Nat} (h2 : vs.length ≠ 2) (h3 : vs.length ≠ 3) : strayBits vs = 0 := by
  unfold strayBits
  split
  · exact absurd rfl h2
  · exact absurd rfl h3
  · rfl

theorem symbol_ne_pad : ∀ n < 64, symbol n ≠ padSymbol := by decide

theorem values_symbols {vs : List Nat} (h : ∀ v ∈ vs, v < 64) (i : Nat) : values i (vs.map symbol) = .ok vs := by
  induction vs generalizing i with
  | nil => rfl
  | cons v vs ih =>
    obtain ⟨hv, hvs⟩ := List.forall_mem_cons.mp h
    simp [values, value?_symbol v hv, ih hvs, Except.map]

theorem lastValues_symbols {vs : List Nat} (h : ∀ v ∈ vs, v < 64) (start i : Nat) :
    lastValues start i none (vs.map symbol) = .ok (vs, none) := by
  induction vs generalizing i with
  | nil => rfl
  | cons v vs ih =>
    obtain ⟨hv, hvs⟩ := List.forall_mem_cons.mp h
    simp [lastValues, symbol_ne_pad v hv, value?_symbol v hv, ih hvs, Except.map]

/-- What is read where every symbol is one and the last group is clean. -/
theorem decode_of_groups {text : Bytes} {whole last : List Nat} (hdangling : dangling? text = none)
    (hwhole : values 0 (text.take (wholeLength text.length)) = .ok whole)
    (hlast : lastValues (wholeLength text.length) 0 none (text.drop (wholeLength text.length)) = .ok (last, none))
    (hfull : text = [] ∨ 2 ≤ last.length) (hclean : strayBits last = 0) :
    decode text = .ok (gather (whole ++ last)) := by
  have hlong : ¬ (text ≠ [] ∧ last.length < 2) := by
    rintro ⟨hne, hshort⟩
    rcases hfull with he | hle
    · exact hne he
    · omega
  simp only [decode, hdangling, hwhole, hlast, bind, Except.bind, if_neg hlong, hclean]
  rfl

/-- Every list of bytes is read back from its encoding. -/
theorem decode_encode (bs : Bytes) : decode (encode bs) = .ok bs := by
  have hlt := lt_of_mem_sextets bs
  obtain ⟨hlength, hstray⟩ := last_sextets bs
  have hdangling : dangling? ((sextets bs).map symbol) = none := by
    simp only [dangling?, List.length_map]
    split <;> simp [hlength]
  have hstart : wholeLength (sextets bs).length =
      if (sextets bs).length % 4 = 0 then (sextets bs).length - 4 else 4 * ((sextets bs).length / 4) := by
    unfold wholeLength
    split <;> omega
  have hfull : (sextets bs).map symbol = [] ∨ 2 ≤ ((sextets bs).drop (wholeLength (sextets bs).length)).length := by
    rw [List.map_eq_nil_iff, ← List.length_eq_zero_iff, List.length_drop, hstart]
    split <;> omega
  have hclean : strayBits ((sextets bs).drop (wholeLength (sextets bs).length)) = 0 := by
    rw [hstart]
    split
    · apply strayBits_of_length <;> rw [List.length_drop] <;> omega
    · exact hstray
  have hwhole := values_symbols (fun v hv => hlt v (List.mem_of_mem_take (i := wholeLength (sextets bs).length) hv)) 0
  have hlast := lastValues_symbols
    (fun v hv => hlt v (List.mem_of_mem_drop (i := wholeLength (sextets bs).length) hv))
    (wholeLength (sextets bs).length) 0
  rw [encode_eq_map, decode_of_groups hdangling ?_ ?_ hfull hclean, List.take_append_drop, gather_sextets]
  · rw [List.length_map, ← List.map_take]
    exact hwhole
  · rw [List.length_map, ← List.map_drop]
    exact hlast

/-- The encoding as a text. -/
def text (bs : Bytes) : String := String.ofList ((encode bs).map fun b => Char.ofNat b.toNat)

theorem symbol_lt : ∀ n < 64, symbol n < 128 := by decide

theorem ofText_text (bs : Bytes) : Bytes.ofText (text bs) = encode bs := by
  refine Bytes.ofText_ascii fun b hb => ?_
  rw [encode_eq_map] at hb
  obtain ⟨v, hv, rfl⟩ := List.mem_map.mp hb
  exact symbol_lt v (lt_of_mem_sextets bs v hv)

end Coursework.Base64
