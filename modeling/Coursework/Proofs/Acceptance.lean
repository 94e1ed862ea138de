import Coursework.Text.Split
import Coursework.Token.Verifier
import Mathlib.Data.List.TakeWhile

/-!
# Accepted tokens

A token is accepted after a chain of readings and checks, each of which can refuse it.  What they come to together is
said of the text of the token: it has three parts, and the key that the first one names has signed the first two with
an algorithm of its own type.
-/
namespace Coursework

open TokenParts (dot)

section Checks

variable {ε ε' α β : Type}

theorem bind_eq_ok {x : Except ε α} {f : α → Except ε β} {b : β} :
    x >>= f = .ok b ↔ ∃ a, x = .ok a ∧ f a = .ok b := by
  cases x <;> simp [bind, Except.bind]

/-- A check that refuses under a condition. -/
theorem refuse_eq_ok {condition : Prop} [Decidable condition] {e : ε} {f : Unit → Except ε β} {b : β} :
    (if condition then throw e >>= f else f ()) = .ok b ↔ ¬ condition ∧ f () = .ok b := by
  by_cases h : condition <;> simp [h, throw, throwThe, MonadExceptOf.throw, bind, Except.bind]

theorem mapError_eq_ok {g : ε → ε'} {x : Except ε α} {a : α} : x.mapError g = .ok a ↔ x = .ok a := by
  cases x <;> simp [Except.mapError]

end Checks

namespace Base64

theorem value?_of_values {i : Nat} {text : Bytes} {vs : List Nat} (h : values i text = .ok vs) :
    ∀ b ∈ text, (value? b).isSome = true := by
  induction text generalizing i vs with
  | nil => simp
  | cons b rest ih =>
    simp only [values] at h
    cases hv : value? b with
    | none => simp [hv] at h
    | some v =>
      cases hr : values (i + 1) rest with
      | error e => simp [hv, hr, Except.map] at h
      | ok ws =>
        intro x hx
        rcases List.mem_cons.mp hx with rfl | hx
        · rw [hv]
          rfl
        · exact ih hr x hx

theorem value?_of_lastValues {start i : Nat} {pad : Option Nat} {text : Bytes} {r : List Nat × Option Nat}
    (h : lastValues start i pad text = .ok r) : ∀ b ∈ text, b = padSymbol ∨ (value? b).isSome = true := by
  induction text generalizing i pad r with
  | nil => simp
  | cons b rest ih =>
    simp only [lastValues] at h
    by_cases hb : b = padSymbol
    · rw [if_pos hb] at h
      by_cases hi : i < 2
      · simp [hi] at h
      · rw [if_neg hi] at h
        exact List.forall_mem_cons.mpr ⟨Or.inl hb, ih h⟩
    · rw [if_neg hb] at h
      cases pad with
      | some p => simp at h
      | none =>
        cases hv : value? b with
        | none => simp [hv] at h
        | some v =>
          cases hr : lastValues start (i + 1) none rest with
          | error e => simp [hv, hr, Except.map] at h
          | ok s => exact List.forall_mem_cons.mpr ⟨Or.inr (by rw [hv]; rfl), ih hr⟩

/-- What can be read consists of symbols and padding. -/
theorem value?_of_decode {text bytes : Bytes} (h : decode text = .ok bytes) :
    ∀ b ∈ text, b = padSymbol ∨ (value? b).isSome = true := by
  simp only [decode, bind, Except.bind, throw, throwThe, MonadExceptOf.throw] at h
  cases hd : dangling? text with
  | some e => simp [hd] at h
  | none =>
    cases hw : values 0 (text.take (wholeLength text.length)) with
    | error e => simp [hd, hw] at h
    | ok whole =>
      cases hl : lastValues (wholeLength text.length) 0 none (text.drop (wholeLength text.length)) with
      | error e => simp [hd, hw, hl] at h
      | ok last =>
        intro b hb
        rw [← List.take_append_drop (wholeLength text.length) text] at hb
        rcases List.mem_append.mp hb with hb | hb
        · exact Or.inr (value?_of_values hw b hb)
        · exact value?_of_lastValues hl b hb

theorem dot_not_mem_of_decode {text bytes : Bytes} (h : decode text = .ok bytes) : dot ∉ text := by
  intro hdot
  have hvalue := value?_of_decode h dot hdot
  revert hvalue
  decide

end Base64

namespace TokenParts

/-- A cut is made at the last dot. -/
theorem cut?_eq_some {bs front back : Bytes} :
    cut? bs = some (front, back) ↔ bs = front ++ dot :: back ∧ dot ∉ back := by
  constructor
  · intro h
    have hjoin := List.takeWhile_append_dropWhile (p := (· ≠ dot)) (l := bs.reverse)
    simp only [cut?] at h
    cases hdrop : bs.reverse.dropWhile (· ≠ dot) with
    | nil =>
      rw [hdrop] at h
      cases h
    | cons d rest =>
      have hd : d = dot := by
        have hhead := List.head?_dropWhile_not (· ≠ dot) bs.reverse
        rw [hdrop] at hhead
        simpa using hhead
      rw [hdrop] at h
      simp only [Option.some.injEq, Prod.mk.injEq] at h
      obtain ⟨rfl, rfl⟩ := h
      constructor
      · rw [hdrop, hd] at hjoin
        simpa using (congrArg List.reverse hjoin).symm
      · intro hmem
        have hkept := List.mem_takeWhile_imp (List.mem_reverse.mp hmem)
        simp at hkept
  · rintro ⟨rfl, hback⟩
    have hall : ∀ b ∈ back.reverse, decide (b ≠ dot) = true := by
      intro b hb
      refine decide_eq_true fun hbd => hback ?_
      exact hbd ▸ List.mem_reverse.mp hb
    have hturned : (front ++ dot :: back).reverse = back.reverse ++ dot :: front.reverse := by simp
    simp only [cut?, hturned, List.takeWhile_append_of_pos hall, List.dropWhile_append_of_pos hall]
    simp

theorem ofToken?_eq_some {token : Bytes} {p : TokenParts} :
    ofToken? token = some p ↔
      token = p.header ++ dot :: p.payload ++ dot :: p.signature ∧ dot ∉ p.payload ∧ dot ∉ p.signature := by
  obtain ⟨header, payload, signature⟩ := p
  simp only [ofToken?, Option.bind_eq_bind, Option.bind_eq_some_iff, Prod.exists, cut?_eq_some]
  constructor
  · rintro ⟨message, last, ⟨rfl, hlast⟩, front, middle, ⟨rfl, hmiddle⟩, hp⟩
    cases hp
    exact ⟨rfl, hmiddle, hlast⟩
  · rintro ⟨rfl, hmiddle, hlast⟩
    exact ⟨_, signature, ⟨rfl, hlast⟩, header, payload, ⟨rfl, hmiddle⟩, rfl⟩

theorem split_of_dotless {header payload signature : Bytes} (hh : dot ∉ header) (hp : dot ∉ payload)
    (hs : dot ∉ signature) :
    Text.split dot (header ++ dot :: payload ++ dot :: signature) = [header, payload, signature] := by
  have hshape : header ++ dot :: payload ++ dot :: signature = header ++ dot :: (payload ++ dot :: signature) := by
    simp
  rw [hshape, Text.split_append_cons hh, Text.split_append_cons hp, Text.split_of_not_mem hs]

end TokenParts

theorem readPart_eq_ok {α : Type} {c : Json.Codec α} {part : Bytes} {x : α} :
    readPart c part = .ok x ↔ ∃ bytes, Base64.decode part = .ok bytes ∧ c.read bytes = .ok x := by
  unfold readPart
  cases Base64.decode part with
  | error e => simp
  | ok bytes => cases hr : c.read bytes <;> simp [hr, Except.mapError]

theorem KeyParameters.family_of_material {ps : KeyParameters} {material : KeyMaterial}
    (h : ps.material = .ok material) : material.family = ps.family := by
  cases ps with
  | elliptic x y =>
    simp only [KeyParameters.material, bind, Except.bind] at h
    split at h
    · cases h
    · split at h <;> cases h
      rfl
  | rsa n e =>
    simp only [KeyParameters.material, bind, Except.bind] at h
    split at h
    · cases h
    · split at h <;> cases h
      rfl
  | secret k =>
    simp only [KeyParameters.material] at h
    cases hb : KeyParameters.bytes k <;> rw [hb] at h <;> cases h
    rfl
  | octetPair x =>
    simp only [KeyParameters.material] at h
    cases hb : KeyParameters.bytes x <;> rw [hb] at h <;> cases h
    rfl

namespace RegisteredClaims

theorem le_cutoff (now : Int) : now - leeway ≤ cutoff now := by
  unfold cutoff
  split <;> omega

/-- A payload that passes is an object without defects, has not expired, and does not name other issuers only. -/
theorem object_of_check {policy : TokenPolicy} {now : Int} {c : Claims} {payload : Bytes}
    (h : check policy now c payload = .ok ()) :
    ∃ ms stop, (Json.Node.read payload).1 = .object ms stop ∧ memberDefect? [] ms = none ∧
      now - leeway ≤ c.exp.toNat ∧
      ∀ expected named, policy.issuer = some expected → (Json.Fields.find? "iss" ms).bind issuers? = some named →
        expected ∈ named := by
  unfold check at h
  split at h
  · rename_i ms stop hread
    cases hdefect : memberDefect? [] ms with
    | some d => simp [hdefect] at h
    | none =>
      by_cases hexp : (c.exp.toNat : Int) < cutoff now
      · simp [hdefect, hexp] at h
      · have hearlier := le_cutoff now
        refine ⟨ms, stop, hread, hdefect, by omega, fun expected named hissuer hnamed => ?_⟩
        by_contra hother
        simp [hdefect, hexp, hissuer, hnamed, hother] at h
  · cases h
  · cases h

end RegisteredClaims

namespace Token

theorem signatureOk_iff {material : KeyMaterial} {algorithm : Algorithm} {p : TokenParts} :
    signatureOk material algorithm p = true ↔
      ∃ signature, Base64.decode p.signature = .ok signature ∧
        material.verifies algorithm p.message signature = true := by
  unfold signatureOk
  cases Base64.decode p.signature <;> simp

theorem claims_eq_ok {material : KeyMaterial} {allowed : List Algorithm} {policy : TokenPolicy} {now : Int}
    {token : Bytes} {c : Claims} :
    claims material allowed policy now token = .ok c ↔
      (∀ a ∈ allowed, a.family = material.family) ∧
      ∃ p h payload, TokenParts.ofToken? token = some p ∧ readPart TokenHeader.codec p.header = .ok h ∧
        h.algorithm ∈ allowed ∧ signatureOk material h.algorithm p = true ∧
        readPart Claims.codec p.payload = .ok c ∧ Base64.decode p.payload = .ok payload ∧
        RegisteredClaims.check policy now c payload = .ok () := by
  have hfamily : ¬ (allowed.any fun a => a.family ≠ material.family) = true ↔
      ∀ a ∈ allowed, a.family = material.family := by simp
  simp only [claims, refuse_eq_ok, hfamily]
  refine and_congr_right fun _ => ?_
  cases hp : TokenParts.ofToken? token with
  | none => simp [throw, throwThe, MonadExceptOf.throw]
  | some p =>
    simp only [bind_eq_ok, refuse_eq_ok, mapError_eq_ok, Decidable.not_not, Bool.not_eq_true', Bool.not_eq_false]
    constructor
    · rintro ⟨h, hh, hmem, hsigned, c', hc, payload, hpayload, ⟨⟩, hchecked, he⟩
      cases he
      exact ⟨p, h, payload, rfl, hh, hmem, hsigned, hc, hpayload, hchecked⟩
    · rintro ⟨p', h, payload, he, hh, hmem, hsigned, hc, hpayload, hchecked⟩
      cases he
      exact ⟨h, hh, hmem, hsigned, c, hc, payload, hpayload, (), hchecked, rfl⟩

theorem header_eq_ok {token : Bytes} {h : TokenHeader} {kid : String} :
    header token = .ok (h, kid) ↔ TokenHeader.ofToken token = .ok h ∧ h.kid = some kid := by
  unfold header
  cases TokenHeader.ofToken token with
  | error e => simp
  | ok g =>
    obtain ⟨algorithm, named⟩ := g
    cases named with
    | none =>
      simp only [reduceCtorEq, Except.ok.injEq, false_iff, not_and]
      rintro rfl
      exact nofun
    | some k =>
      simp only [Except.ok.injEq, Prod.mk.injEq]
      refine and_congr_right ?_
      rintro rfl
      exact Option.some_inj.symm

theorem verifyWith_eq_ok {policy : TokenPolicy} {now : Int} {token : Bytes} {h : TokenHeader} {kid : String} {key : Key}
    {caller : Caller} :
    verifyWith policy now token h kid key = .ok caller ↔
      ∃ material c, key.parameters.material = .ok material ∧ h.algorithm ∈ key.allowed ∧
        claims material key.allowed policy now token = .ok c ∧ caller = c.caller policy.rolesClient := by
  unfold verifyWith
  cases key.parameters.material with
  | error e => simp
  | ok material =>
    by_cases hmem : h.algorithm ∈ key.allowed
    · cases hc : claims material key.allowed policy now token <;> simp [hmem, hc, eq_comm]
    · simp [hmem]

theorem verify_eq_ok {keys : KeySet} {policy : TokenPolicy} {now : Int} {token : Bytes} {caller : Caller} :
    verify keys policy now token = .ok caller ↔
      ∃ h kid key, header token = .ok (h, kid) ∧ Key.find? keys kid = some key ∧
        verifyWith policy now token h kid key = .ok caller := by
  simp only [verify, bind_eq_ok, Prod.exists]
  refine exists_congr fun h => exists_congr fun kid => ?_
  cases Key.find? keys kid <;> simp

/-- A refused token is the caller's own fault. -/
theorem kind_of_verify_error {keys : KeySet} {policy : TokenPolicy} {now : Int} {token : Bytes} {f : Failure}
    (h : verify keys policy now token = .error f) : f.kind = .unauthorized := by
  have hheader : ∀ e, header token = .error e → e.kind = .unauthorized := by
    intro e he
    unfold header at he
    split at he
    · cases he
      rfl
    · split at he <;> cases he
      rfl
  have hwith : ∀ header kid key, verifyWith policy now token header kid key = .error f → f.kind = .unauthorized := by
    intro header kid key he
    unfold verifyWith at he
    split at he
    · cases he
      rfl
    · split at he
      · split at he <;> cases he
        rfl
      · cases he
        rfl
  unfold verify at h
  cases hh : header token with
  | error e =>
    rw [hh] at h
    cases h
    exact hheader _ hh
  | ok named =>
    rw [hh] at h
    simp only [bind, Except.bind] at h
    split at h
    · cases h
      rfl
    · exact hwith _ _ _ h

/-- Everything that is true of an accepted token: of its text, of the key that its header names, of its signature and
of its claims. -/
structure Genuine (keys : KeySet) (now : Int) (token : Bytes) (p : TokenParts) (h : TokenHeader) (kid : String)
    (key : Key) (material : KeyMaterial) (signature : Bytes) (c : Claims) : Prop where
  parts : Text.split dot token = [p.header, p.payload, p.signature]
  header : readPart TokenHeader.codec p.header = .ok h
  named : h.kid = some kid
  first : keys.find? (fun k => k.kid = some kid) = some key
  usable : key.parameters.material = .ok material
  allowed : h.algorithm ∈ key.allowed
  family : h.algorithm.family = key.parameters.family
  decoded : Base64.decode p.signature = .ok signature
  signed : material.verifies h.algorithm (p.header ++ dot :: p.payload) signature = true
  payload : readPart Claims.codec p.payload = .ok c
  unexpired : now - 60 ≤ c.exp.toNat

theorem genuine_of_verify {keys : KeySet} {policy : TokenPolicy} {now : Int} {token : Bytes} {caller : Caller}
    (accepted : verify keys policy now token = .ok caller) :
    ∃ p h kid key material signature c, Genuine keys now token p h kid key material signature c ∧
      caller = c.caller policy.rolesClient := by
  obtain ⟨h, kid, key, hheader, hkey, hwith⟩ := verify_eq_ok.mp accepted
  obtain ⟨hread, hnamed⟩ := header_eq_ok.mp hheader
  obtain ⟨material, c, husable, hallowed, hclaims, hcaller⟩ := verifyWith_eq_ok.mp hwith
  obtain ⟨hfamily, p, h', bytes, hparts, hh', -, hsigned, hpayload, hbytes, hchecked⟩ := claims_eq_ok.mp hclaims
  -- the header that was read to find the key is the one that is checked
  obtain rfl : h' = h := by
    simp only [TokenHeader.ofToken, hparts, hh', Except.ok.injEq] at hread
    exact hread
  obtain ⟨signature, hdecoded, hverifies⟩ := signatureOk_iff.mp hsigned
  obtain ⟨htoken, hp, hs⟩ := TokenParts.ofToken?_eq_some.mp hparts
  obtain ⟨text, htext, -⟩ := readPart_eq_ok.mp hh'
  obtain ⟨-, -, -, -, hexp, -⟩ := RegisteredClaims.object_of_check hchecked
  refine ⟨p, h', kid, key, material, signature, c, ?_, hcaller⟩
  exact {
    parts := htoken ▸ TokenParts.split_of_dotless (Base64.dot_not_mem_of_decode htext) hp hs
    header := hh'
    named := hnamed
    first := hkey
    usable := husable
    allowed := hallowed
    family := (hfamily _ hallowed).trans (KeyParameters.family_of_material husable)
    decoded := hdecoded
    signed := hverifies
    payload := hpayload
    unexpired := hexp }

end Token

namespace Claims

/-- A caller holds the roles of the realm and those of the client that is looked at, and no others. -/
theorem mem_roles_caller {c : Claims} {client role : String} :
    role ∈ (c.caller client).roles ↔
      (∃ realm, c.realmAccess = some realm ∧ role ∈ realm.roles) ∨
        ∃ access, Json.Dictionary.get? client c.resourceAccess = some access ∧ role ∈ access.roles := by
  simp only [caller, RoleSet.mem_ofList, roles, List.mem_append]
  cases c.realmAccess <;> cases Json.Dictionary.get? client c.resourceAccess <;> simp

end Claims

namespace Verifier

theorem refreshKeys_policy (v : Verifier) (p : Provider) (now : Moment) :
    (v.refreshKeys p now).2.1.policy = v.policy := by
  unfold refreshKeys
  split
  · rfl
  · dsimp only
    split <;> rfl

theorem learnKey_fst (v : Verifier) (p : Provider) (now : Moment) (kid : String) :
    (v.learnKey p now kid).1 = Key.find? (v.learnKey p now kid).2.1.keys kid := by
  unfold learnKey
  cases hk : Key.find? v.keys kid with
  | some key => exact hk.symm
  | none => rfl

theorem learnKey_policy (v : Verifier) (p : Provider) (now : Moment) (kid : String) :
    (v.learnKey p now kid).2.1.policy = v.policy := by
  unfold learnKey
  split
  · rfl
  · exact v.refreshKeys_policy p now

/-- A verifier decides by the keys that it has in the end. -/
theorem verify_fst (v : Verifier) (p : Provider) (now : Moment) (token : Bytes) :
    (v.verify p now token).1 = Token.verify (v.verify p now token).2.1.keys v.policy now.unix token := by
  unfold verify Token.verify
  cases Token.header token with
  | error e => rfl
  | ok named =>
    obtain ⟨h, kid⟩ := named
    have hfind := v.learnKey_fst p now kid
    have hpolicy := v.learnKey_policy p now kid
    simp only [bind, Except.bind]
    generalize v.learnKey p now kid = learned at hfind hpolicy ⊢
    obtain ⟨found, v', p'⟩ := learned
    obtain rfl : found = Key.find? v'.keys kid := hfind
    rw [← hpolicy]
    cases hk : Key.find? v'.keys kid <;> simp [hk]

/-- An accepted token has three parts, the first of which names a key and an algorithm of the key's own type; the third
part is the signature of the text of the first two under that key; and the caller is who the second part says, with the
roles of the realm and of the configured client. -/
theorem accepted_token_is_genuine (s : Settings) (v : Verifier) (configured : v.policy = .ofSettings s) (p : Provider)
    (now : Moment) (token : Bytes) (caller : Caller) (accepted : (v.verify p now token).1 = .ok caller) :
    ∃ parts h kid key material signature c,
      Token.Genuine (v.verify p now token).2.1.keys now.unix token parts h kid key material signature c ∧
      caller.subject = c.sub ∧ caller.username = c.preferredUsername ∧
      ∀ role, role ∈ caller.roles ↔
        (∃ realm, c.realmAccess = some realm ∧ role ∈ realm.roles) ∨
          ∃ access, Json.Dictionary.get? s.rolesClient c.resourceAccess = some access ∧ role ∈ access.roles := by
  rw [verify_fst] at accepted
  obtain ⟨parts, h, kid, key, material, signature, c, hgenuine, rfl⟩ := Token.genuine_of_verify accepted
  refine ⟨parts, h, kid, key, material, signature, c, hgenuine, rfl, rfl, fun role => ?_⟩
  have hclient : v.policy.rolesClient = s.rolesClient := by rw [configured]; rfl
  rw [Claims.mem_roles_caller, hclient]

def sampleSettings : Settings := { (default : Settings) with rolesClient := "lms" }

/-- Two keys of one name, the first of which counts. -/
def sampleKeys : KeySet := [⟨some "k", none, .secret "a2V5"⟩, ⟨some "k", some "RS256", .rsa "" ""⟩]

/-- A token of the user `u` that expired at the start of time, with roles of two clients. -/
def sampleToken : Bytes :=
  Bytes.ofText ("eyJhbGciOiJIUzI1NiIsImtpZCI6ImsifQ." ++
    "eyJzdWIiOiJ1IiwiZXhwIjowLCJyZXNvdXJjZV9hY2Nlc3MiOnsibG1zIjp7InJvbGVzIjpbInRlYWNoZXIiXX0s" ++
    "ImNybSI6eyJyb2xlcyI6WyJhZG1pbiJdfX19" ++
    ".k5d2CGlR4J-z-jrBmDhfcROqkldmHcW1OcHrbYEiEkA")

/-- The caller whom the sample token names. -/
def sampleCaller : { c : Caller // Token.verify sampleKeys (.ofSettings sampleSettings) 60 sampleToken = .ok c } :=
  ⟨⟨"u", none, ["teacher"]⟩, by decide +kernel⟩

theorem sample_verifies :
    Token.verify sampleKeys (.ofSettings sampleSettings) 60 sampleToken = .ok ⟨"u", none, ["teacher"]⟩ :=
  sampleCaller.property

theorem accepted_token_is_genuine_sample :
    ((fixed sampleSettings sampleKeys).verify (.ofSettings sampleSettings []) ⟨60, 0⟩ sampleToken).1 =
        .ok ⟨"u", none, ["teacher"]⟩ ∧
      ∃ parts h kid key material signature c,
        Token.Genuine sampleKeys 60 sampleToken parts h kid key material signature c ∧ c.sub = "u" := by
  have hverify := verify_fixed sampleSettings sampleKeys (.ofSettings sampleSettings []) ⟨60, 0⟩ sampleToken
  have accepted : ((fixed sampleSettings sampleKeys).verify (.ofSettings sampleSettings []) ⟨60, 0⟩ sampleToken).1 =
      .ok ⟨"u", none, ["teacher"]⟩ := by
    rw [hverify]
    exact sample_verifies
  obtain ⟨parts, h, kid, key, material, signature, c, hgenuine, hsub, -⟩ :=
    accepted_token_is_genuine sampleSettings _ rfl _ _ _ _ accepted
  rw [hverify] at hgenuine
  exact ⟨accepted, parts, h, kid, key, material, signature, c, hgenuine, hsub.symm⟩

end Verifier

end Coursework
