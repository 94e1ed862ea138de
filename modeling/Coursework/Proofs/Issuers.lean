import Coursework.Proofs.Acceptance

/-!
# Issuers

A verifier that checks the issuer compares it with what a token says.  A token that says nothing of the kind passes, so
the check only refuses tokens that name others and not this one.
-/
namespace Coursework

namespace TokenPolicy

/-- The policy that takes tokens of any issuer. -/
def anyIssuer (policy : TokenPolicy) : TokenPolicy := { policy with issuer := none }

/-- Where an issuer is expected and a token names some, it names the expected one. -/
def Admits (policy : TokenPolicy) (named : Option (List String)) : Prop :=
  ∀ expected issuers, policy.issuer = some expected → named = some issuers → expected ∈ issuers

theorem admits_none (policy : TokenPolicy) : policy.Admits none := fun _ _ _ h => by cases h

theorem admits_some {policy : TokenPolicy} {expected : String} (hissuer : policy.issuer = some expected)
    {issuers : List String} : policy.Admits (some issuers) ↔ expected ∈ issuers := by
  simp [Admits, hissuer]

end TokenPolicy

namespace RegisteredClaims

/-- The issuers that a payload names in its first `iss`; none when that is absent, or neither a text nor a list of
texts. -/
def named? (payload : Bytes) : Option (List String) :=
  match (Json.Node.read payload).1 with
  | .object ms _ => (Json.Fields.find? "iss" ms).bind issuers?
  | _ => none

theorem check_eq_ok_iff {policy : TokenPolicy} {now : Int} {c : Claims} {payload : Bytes} :
    check policy now c payload = .ok () ↔
      check policy.anyIssuer now c payload = .ok () ∧ policy.Admits (named? payload) := by
  unfold check named? TokenPolicy.anyIssuer
  cases (Json.Node.read payload).1 with
  | object ms stop =>
    simp only
    cases memberDefect? [] ms with
    | some d => simp
    | none =>
      by_cases hexp : (c.exp.toNat : Int) < cutoff now
      · simp [hexp]
      · cases hissuer : policy.issuer with
        | none => simp [hexp, TokenPolicy.Admits, hissuer]
        | some expected =>
          cases (Json.Fields.find? "iss" ms).bind issuers? with
          | none => simp [hexp, TokenPolicy.admits_none]
          | some named => by_cases hmem : expected ∈ named <;> simp [hexp, TokenPolicy.admits_some hissuer, hmem]
  | _ => simp

end RegisteredClaims

namespace Token

/-- The issuers that a token names. -/
def issuers? (token : Bytes) : Option (List String) := do
  let p ← TokenParts.ofToken? token
  let payload ← (Base64.decode p.payload).toOption
  RegisteredClaims.named? payload

variable {policy : TokenPolicy} {now : Int} {token : Bytes}

theorem claims_eq_ok_iff {material : KeyMaterial} {allowed : List Algorithm} {c : Claims} :
    claims material allowed policy now token = .ok c ↔
      claims material allowed policy.anyIssuer now token = .ok c ∧ policy.Admits (issuers? token) := by
  -- the issuers are read off the same part as the checked claims
  have hread : ∀ p payload, TokenParts.ofToken? token = some p → Base64.decode p.payload = .ok payload →
      issuers? token = RegisteredClaims.named? payload := by
    intro p payload hp hpayload
    simp [issuers?, hp, hpayload, Except.toOption]
  rw [claims_eq_ok, claims_eq_ok]
  constructor
  · rintro ⟨hfamily, p, h, payload, hp, hh, hallowed, hsigned, hc, hpayload, hchecked⟩
    obtain ⟨hrest, hnamed⟩ := RegisteredClaims.check_eq_ok_iff.mp hchecked
    rw [hread p payload hp hpayload]
    exact ⟨⟨hfamily, p, h, payload, hp, hh, hallowed, hsigned, hc, hpayload, hrest⟩, hnamed⟩
  · rintro ⟨⟨hfamily, p, h, payload, hp, hh, hallowed, hsigned, hc, hpayload, hrest⟩, hnamed⟩
    rw [hread p payload hp hpayload] at hnamed
    have hchecked := RegisteredClaims.check_eq_ok_iff.mpr ⟨hrest, hnamed⟩
    exact ⟨hfamily, p, h, payload, hp, hh, hallowed, hsigned, hc, hpayload, hchecked⟩

theorem verifyWith_eq_ok_iff {h : TokenHeader} {kid : String} {key : Key} {caller : Caller} :
    verifyWith policy now token h kid key = .ok caller ↔
      verifyWith policy.anyIssuer now token h kid key = .ok caller ∧ policy.Admits (issuers? token) := by
  rw [verifyWith_eq_ok, verifyWith_eq_ok]
  constructor
  · rintro ⟨material, c, husable, hallowed, hclaims, hcaller⟩
    obtain ⟨hrest, hnamed⟩ := claims_eq_ok_iff.mp hclaims
    exact ⟨⟨material, c, husable, hallowed, hrest, hcaller⟩, hnamed⟩
  · rintro ⟨⟨material, c, husable, hallowed, hrest, hcaller⟩, hnamed⟩
    exact ⟨material, c, husable, hallowed, claims_eq_ok_iff.mpr ⟨hrest, hnamed⟩, hcaller⟩

theorem verify_eq_ok_iff {keys : KeySet} {caller : Caller} :
    verify keys policy now token = .ok caller ↔
      verify keys policy.anyIssuer now token = .ok caller ∧ policy.Admits (issuers? token) := by
  rw [verify_eq_ok, verify_eq_ok]
  constructor
  · rintro ⟨h, kid, key, hheader, hkey, hwith⟩
    obtain ⟨hrest, hnamed⟩ := verifyWith_eq_ok_iff.mp hwith
    exact ⟨⟨h, kid, key, hheader, hkey, hrest⟩, hnamed⟩
  · rintro ⟨⟨h, kid, key, hheader, hkey, hrest⟩, hnamed⟩
    exact ⟨h, kid, key, hheader, hkey, verifyWith_eq_ok_iff.mpr ⟨hrest, hnamed⟩⟩

end Token

namespace Verifier

/-- What a verifier learns does not depend on what it expects of a token. -/
theorem verify_keys_of_policy (v : Verifier) (policy : TokenPolicy) (p : Provider) (now : Moment) (token : Bytes) :
    (verify { v with policy } p now token).2.1.keys = (v.verify p now token).2.1.keys := by
  -- a refresh looks at the cooldown and at the provider only
  have hrefresh : (refreshKeys { v with policy } p now).2.1.keys = (v.refreshKeys p now).2.1.keys := by
    unfold refreshKeys isCooling
    dsimp only
    split
    · rfl
    · rcases p.fetchKeys with ⟨_ | keys, q⟩ <;> rfl
  unfold verify learnKey
  cases Token.header token with
  | error e => rfl
  | ok named =>
    obtain ⟨h, kid⟩ := named
    dsimp only
    cases Key.find? v.keys kid with
    | some key => rfl
    | none =>
      dsimp only
      rw [← hrefresh]
      cases Key.find? (refreshKeys { v with policy } p now).2.1.keys kid <;> simp [hrefresh]

/-- With the check on, a token is accepted exactly when it would be with the check off and, where its payload has an
`iss` that is a text or a list of texts, that names the configured realm.  So a token is held to the realm only if it
names issuers at all. -/
theorem issuer_checked_where_named (s : Settings) (checks : s.checksIssuer = true) (v : Verifier)
    (configured : v.policy = .ofSettings s) (p : Provider) (now : Moment) (token : Bytes) (caller : Caller) :
    (v.verify p now token).1 = .ok caller ↔
      (verify { v with policy := .ofSettings { s with checksIssuer := false } } p now token).1 = .ok caller ∧
        ∀ named, Token.issuers? token = some named → s.issuerUrl ∈ named := by
  have hissuer : v.policy.issuer = some s.issuerUrl := by simp [configured, TokenPolicy.ofSettings, checks]
  have hlenient : TokenPolicy.ofSettings { s with checksIssuer := false } = v.policy.anyIssuer := by
    rw [configured]
    rfl
  have hadmits : v.policy.Admits (Token.issuers? token) ↔
      ∀ named, Token.issuers? token = some named → s.issuerUrl ∈ named := by
    constructor
    · exact fun h named hnamed => h _ named hissuer hnamed
    · intro h expected named he hnamed
      rw [hissuer, Option.some.injEq] at he
      exact he ▸ h named hnamed
  rw [hlenient, verify_fst v, verify_fst { v with policy := v.policy.anyIssuer },
    verify_keys_of_policy v v.policy.anyIssuer, Token.verify_eq_ok_iff, hadmits]

def strictSettings : Settings :=
  { sampleSettings with checksIssuer := true, providerUrl := "http://keycloak:8080", realm := "lms" }

def strictVerifier : Verifier := fixed strictSettings sampleKeys

/-- The sample token has no `iss`, and it is accepted by a verifier that checks issuers. -/
theorem issuerless_token_accepted :
    Token.issuers? sampleToken = none ∧
      (strictVerifier.verify (.ofSettings strictSettings []) ⟨60, 0⟩ sampleToken).1 =
        .ok ⟨"u", none, ["teacher"]⟩ := by
  have hnone : Token.issuers? sampleToken = none := by decide +kernel
  have hlenient : (TokenPolicy.ofSettings strictSettings).anyIssuer = .ofSettings sampleSettings := rfl
  refine ⟨hnone, ?_⟩
  rw [strictVerifier, verify_fixed]
  refine Token.verify_eq_ok_iff.mpr ⟨?_, hnone ▸ TokenPolicy.admits_none _⟩
  rw [hlenient]
  exact sample_verifies

/-- A token of the user `u` that names two other issuers. -/
def foreignToken : Bytes :=
  Bytes.ofText ("eyJhbGciOiJIUzI1NiIsImtpZCI6ImsifQ.eyJzdWIiOiJ1IiwiZXhwIjowLCJpc3MiOlsiYSIsImIiXX0" ++
    ".MaKl3eBgqZ9XNXw-xFvOnvlcipIiJQY2b-vUzvDLZfQ")

/-- The caller whom the other token names. -/
def foreignCaller : { c : Caller // Token.verify sampleKeys (.ofSettings sampleSettings) 60 foreignToken = .ok c } :=
  ⟨⟨"u", none, []⟩, by decide +kernel⟩

theorem issuer_checked_where_named_sample :
    strictSettings.checksIssuer = true ∧ Token.issuers? foreignToken = some ["a", "b"] ∧
      Token.verify sampleKeys (.ofSettings sampleSettings) 60 foreignToken = .ok ⟨"u", none, []⟩ ∧
      ∀ caller, (strictVerifier.verify (.ofSettings strictSettings []) ⟨60, 0⟩ foreignToken).1 ≠ .ok caller := by
  have hnamed : Token.issuers? foreignToken = some ["a", "b"] := by decide +kernel
  have hother : strictSettings.issuerUrl ∉ ["a", "b"] := by decide +kernel
  refine ⟨rfl, hnamed, foreignCaller.property, fun caller accepted => ?_⟩
  have hadmitted := (issuer_checked_where_named strictSettings rfl strictVerifier rfl (.ofSettings strictSettings [])
    ⟨60, 0⟩ foreignToken caller).mp accepted
  exact hother (hadmitted.2 _ hnamed)

end Verifier

end Coursework
