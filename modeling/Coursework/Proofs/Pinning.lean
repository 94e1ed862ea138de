import Coursework.Proofs.Acceptance

/-!
# Declared algorithms

A key may declare the algorithm that it is meant for.  One that signs pins the key to itself.  One that does not sign,
such as an algorithm of encryption, is passed over: the key then verifies with every algorithm of its type, as though
it had declared nothing.
-/
namespace Coursework

namespace Algorithm

theorem ofName?_name (a : Algorithm) : ofName? a.name = some a := by cases a <;> decide

theorem name_mem_names (a : Algorithm) : a.name ∈ names := List.mem_map_of_mem a.mem_all

theorem name_injective {a b : Algorithm} (h : a.name = b.name) : a = b := by
  have hsome := a.ofName?_name
  rw [h, ofName?_name] at hsome
  exact (Option.some.inj hsome).symm

theorem ofName?_eq_none {s : String} : ofName? s = none ↔ s ∉ names := by
  simp [ofName?, names]

end Algorithm

namespace Key

theorem mem_allowed_of_signs {k : Key} {a : Algorithm} {name : String} (declared : k.declared = some name)
    (signs : name ∈ Algorithm.names) : a ∈ k.allowed ↔ a.name = name := by
  obtain ⟨b, -, rfl⟩ := List.mem_map.mp signs
  have hdeclared : k.declared.bind Algorithm.ofName? = some b := by
    rw [declared]
    exact b.ofName?_name
  simp only [allowed, hdeclared, List.mem_singleton]
  constructor
  · rintro rfl
    rfl
  · exact Algorithm.name_injective

/-- The key as it counts: without a declared algorithm that does not sign. -/
def effective (k : Key) : Key := { k with declared := k.declared.filter (· ∈ Algorithm.names) }

theorem allowed_effective (k : Key) : k.effective.allowed = k.allowed := by
  obtain ⟨kid, declared, parameters⟩ := k
  cases declared with
  | none => rfl
  | some name =>
    by_cases signs : name ∈ Algorithm.names
    · simp [effective, Option.filter, signs]
    · have hnone := Algorithm.ofName?_eq_none.mpr signs
      simp [effective, allowed, Option.filter, signs, hnone]

theorem find?_map_effective (keys : KeySet) (kid : String) :
    find? (keys.map effective) kid = (find? keys kid).map effective := by
  simp only [find?, List.find?_map]
  rfl

end Key

namespace Token

theorem verifyWith_effective (policy : TokenPolicy) (now : Int) (token : Bytes) (h : TokenHeader) (kid : String)
    (key : Key) : verifyWith policy now token h kid key.effective = verifyWith policy now token h kid key := by
  unfold verifyWith
  rw [key.allowed_effective]
  rfl

theorem verify_effective (keys : KeySet) (policy : TokenPolicy) (now : Int) (token : Bytes) :
    verify (keys.map Key.effective) policy now token = verify keys policy now token := by
  unfold verify
  simp only [Key.find?_map_effective]
  refine bind_congr fun ⟨h, kid⟩ => ?_
  cases Key.find? keys kid with
  | none => rfl
  | some key => exact verifyWith_effective policy now token h kid key

end Token

namespace Verifier

/-- A token is accepted only under an algorithm of its key's type, which is the one that the key declares exactly if
that one signs; and declared algorithms that do not sign make no difference to what becomes of any token. -/
theorem declared_algorithm_pins_if_it_signs (v : Verifier) (p : Provider) (now : Moment) (token : Bytes) :
    let keys := (v.verify p now token).2.1.keys
    (∀ caller, (v.verify p now token).1 = .ok caller →
      ∃ h kid key, TokenHeader.ofToken token = .ok h ∧ h.kid = some kid ∧
        keys.find? (fun k => k.kid = some kid) = some key ∧ h.algorithm.family = key.parameters.family ∧
        ∀ name, key.declared = some name → (h.algorithm.name = name ↔ name ∈ Algorithm.names)) ∧
      (v.verify p now token).1 = Token.verify (keys.map Key.effective) v.policy now.unix token := by
  intro keys
  have hdecided := v.verify_fst p now token
  refine ⟨fun caller accepted => ?_, by rw [Token.verify_effective, hdecided]⟩
  rw [hdecided] at accepted
  obtain ⟨h, kid, key, hheader, hkey, hwith⟩ := Token.verify_eq_ok.mp accepted
  obtain ⟨hread, hnamed⟩ := Token.header_eq_ok.mp hheader
  obtain ⟨material, c, husable, hallowed, hclaims, -⟩ := Token.verifyWith_eq_ok.mp hwith
  obtain ⟨hfamily, -⟩ := Token.claims_eq_ok.mp hclaims
  refine ⟨h, kid, key, hread, hnamed, hkey, ?_, fun name declared => ⟨?_, fun signs => ?_⟩⟩
  · rw [hfamily _ hallowed, KeyParameters.family_of_material husable]
  · rintro rfl
    exact h.algorithm.name_mem_names
  · exact (Key.mem_allowed_of_signs declared signs).mp hallowed

/-- The sample keys, the one that counts being meant for this algorithm. -/
def keysFor (name : String) : KeySet := ⟨some "k", some name, .secret "a2V5"⟩ :: sampleKeys.tail

/-- The header of the sample token. -/
def sampleHeader : { h : TokenHeader // TokenHeader.ofToken sampleToken = .ok h } :=
  ⟨⟨.hs256, some "k"⟩, by decide +kernel⟩

theorem sample_header : TokenHeader.ofToken sampleToken = .ok ⟨.hs256, some "k"⟩ := sampleHeader.property

/-- A key that is meant for encryption verifies the signature of a token. -/
theorem encryption_key_verifies_token :
    TokenHeader.ofToken sampleToken = .ok ⟨.hs256, some "k"⟩ ∧
      Token.verify (keysFor "RSA-OAEP") (.ofSettings sampleSettings) 60 sampleToken = .ok ⟨"u", none, ["teacher"]⟩ := by
  have heffective : (keysFor "RSA-OAEP").map Key.effective = sampleKeys.map Key.effective := by decide
  refine ⟨sample_header, ?_⟩
  rw [← Token.verify_effective, heffective, Token.verify_effective]
  exact sample_verifies

/-- The caller whom the sample token names, where the key is meant for its algorithm. -/
def pinnedCaller :
    { c : Caller // Token.verify (keysFor "HS256") (.ofSettings sampleSettings) 60 sampleToken = .ok c } :=
  ⟨⟨"u", none, ["teacher"]⟩, by decide +kernel⟩

/-- Of keys that are meant for an algorithm that signs, only one for the algorithm of the token verifies it. -/
theorem declared_algorithm_pins_if_it_signs_sample :
    (∃ caller, ((fixed sampleSettings (keysFor "HS256")).verify (.ofSettings sampleSettings []) ⟨60, 0⟩
        sampleToken).1 = .ok caller) ∧
      ∀ name ∈ Algorithm.names, ∀ caller, ((fixed sampleSettings (keysFor name)).verify
        (.ofSettings sampleSettings []) ⟨60, 0⟩ sampleToken).1 = .ok caller → name = "HS256" := by
  constructor
  · rw [verify_fixed]
    exact ⟨pinnedCaller, pinnedCaller.property⟩
  · intro name signs caller accepted
    obtain ⟨h, kid, key, hread, hnamed, hkey, -, hpinned⟩ :=
      (declared_algorithm_pins_if_it_signs _ _ _ _).1 caller accepted
    rw [sample_header] at hread
    cases hread
    cases hnamed
    rw [verify_fixed] at hkey
    cases hkey
    exact ((hpinned name rfl).mpr signs).symm

end Verifier

end Coursework
