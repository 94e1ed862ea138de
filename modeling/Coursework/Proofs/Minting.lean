import Coursework.Proofs.Base64
import Coursework.Proofs.Codecs
import Coursework.Proofs.Pinning

/-!
# Minted tokens

A token is minted from claims by whoever shares a secret with the server: the claims and the configured issuer are
written as JSON, and so is a header with the algorithm and the name of the key; both are put into base64 and signed.
Reading undoes all of it, so such a token admits its bearer as the caller of those very claims until it has expired.
-/
namespace Coursework

open Json
open TokenParts (dot)

/-- The algorithms that sign with a secret. -/
inductive Hmac
  | hs256 | hs384 | hs512
  deriving DecidableEq, Repr

namespace Hmac

def algorithm : Hmac → Algorithm
  | hs256 => .hs256
  | hs384 => .hs384
  | hs512 => .hs512

def digest : Hmac → Crypto.Digest
  | hs256 => .sha256
  | hs384 => .sha384
  | hs512 => .sha512

def sign (h : Hmac) (secret message : Bytes) : Bytes := h.digest.keyed secret message

theorem family_algorithm (h : Hmac) : h.algorithm.family = .secret := by cases h <;> rfl

theorem verifies_sign (h : Hmac) (secret message : Bytes) :
    (KeyMaterial.secret secret).verifies h.algorithm message (h.sign secret message) = true := by
  cases h <;> simp [KeyMaterial.verifies, algorithm, sign, digest]

end Hmac

namespace Key

/-- The key of a secret, as it is listed in a key set. -/
def ofSecret (kid : String) (declared : Option String) (secret : Bytes) : Key :=
  ⟨some kid, declared, .secret (Base64.text secret)⟩

theorem material_ofSecret (kid : String) (declared : Option String) (secret : Bytes) :
    (ofSecret kid declared secret).parameters.material = .ok (.secret secret) := by
  simp [ofSecret, KeyParameters.material, KeyParameters.bytes, Base64.ofText_text, Base64.decode_encode, Except.map]

variable {kid : String} {declared : Option String} {secret : Bytes} {h : Hmac}

theorem family_of_mem_allowed (fits : ∀ name ∈ declared, name = h.algorithm.name) :
    ∀ a ∈ (ofSecret kid declared secret).allowed, a.family = .secret := by
  cases declared with
  | none => exact fun a ha => Algorithm.mem_ofFamily.mp ha
  | some name =>
    obtain rfl := fits name rfl
    simp [allowed, ofSecret, Algorithm.ofName?_name, h.family_algorithm]

theorem mem_allowed (fits : ∀ name ∈ declared, name = h.algorithm.name) :
    h.algorithm ∈ (ofSecret kid declared secret).allowed := by
  cases declared with
  | none => exact Algorithm.mem_ofFamily.mpr h.family_algorithm
  | some name =>
    obtain rfl := fits name rfl
    simp [allowed, ofSecret, Algorithm.ofName?_name]

end Key

namespace TokenHeader

theorem algorithmCodec_restores (a : Algorithm) : algorithmCodec.Restores 0 a := by
  intro depth _
  simp [algorithmCodec, tree, Choice.ofText, Choice.known, a.name_mem_names, a.ofName?_name, Except.map, bind,
    Except.bind]

/-- The members of a header: the algorithm, the name of the key, and maybe what kind of token it heads. -/
def membersOf (h : Hmac) (kid : String) (kind : Option String) : List (String × Json) :=
  (kind.map fun k => ("typ", .str k)).toList ++ [("alg", .str h.algorithm.name), ("kid", .str kid)]

theorem names_membersOf (h : Hmac) (kid : String) (kind : Option String) :
    ((membersOf h kid kind).map Prod.fst).Sublist ["typ", "alg", "kid"] := by
  cases kind with
  | none => exact .cons "typ" (.refl _)
  | some k => exact .refl _

theorem decode_membersOf {h : Hmac} {kid : String} {kind : Option String} {members : List (String × Json)}
    (hperm : members.Perm (membersOf h kid kind)) :
    codec.decode (.object (treeMembers 1 members) .closed) = .ok ⟨h.algorithm, some kid⟩ := by
  have hnames := names_membersOf h kid kind
  have distinct : (members.map Prod.fst).Nodup := (hperm.map Prod.fst).nodup_iff.mpr (hnames.nodup (by decide))
  have halg : ("alg", .str h.algorithm.name) ∈ members := hperm.mem_iff.mpr (by simp [membersOf])
  have hkid : ("kid", .str kid) ∈ members := hperm.mem_iff.mpr (by simp [membersOf])
  have hlisted : ∀ name ∈ members.map Prod.fst, name ∈ ["typ", "alg", "kid"] :=
    fun name hmem => hnames.subset ((hperm.map Prod.fst).mem_iff.mp hmem)
  have habsent : ∀ name, name ∉ ["typ", "alg", "kid"] → name ∉ members.map Prod.fst :=
    fun name hname hmem => hname (hlisted name hmem)
  have hkind : ("typ", Codec.text.optional.encode kind) ∈ members ∧ Codec.text.optional.Restores 0 kind ∨
      "typ" ∉ members.map Prod.fst ∧ some none = some kind := by
    cases kind with
    | none => exact Or.inr ⟨by simp [(hperm.map Prod.fst).mem_iff, membersOf], rfl⟩
    | some k => exact Or.inl ⟨hperm.mem_iff.mpr List.mem_cons_self, Codec.optional_text_restores _⟩
  have hroom : 1 + 0 < Node.depthLimit := by decide
  refine Fields.codec_of_held distinct hroom (kind, h.algorithm, none, none, none, some kid, none, none, none, none, ())
    ⟨hkind, Or.inl ⟨halg, algorithmCodec_restores _⟩, Or.inr ⟨habsent _ (by decide), rfl⟩,
      Or.inr ⟨habsent _ (by decide), rfl⟩, Or.inr ⟨habsent _ (by decide), rfl⟩,
      Or.inl ⟨hkid, Codec.optional_text_restores (some kid)⟩, Or.inr ⟨habsent _ (by decide), rfl⟩,
      Or.inr ⟨habsent _ (by decide), rfl⟩, Or.inr ⟨habsent _ (by decide), rfl⟩,
      Or.inr ⟨habsent _ (by decide), rfl⟩, trivial⟩ ?_
  intro m hm hother
  refine absurd ((?_ : ["typ", "alg", "kid"] ⊆ _) (hlisted m.1 (List.mem_map_of_mem hm))) hother
  decide

end TokenHeader

theorem RoleClaim.restores (r : RoleClaim) : RoleClaim.codec.Restores 2 r := by
  refine Fields.codec_restores (by decide) rfl ?_
  simp only [Fields.restored_withDefault]
  exact ⟨Codec.list_restores fun s _ => Codec.text_restores s, trivial⟩

theorem RoleClaim.optional_restores (o : Option RoleClaim) : RoleClaim.codec.optional.Restores 2 o :=
  Codec.optional_restores nofun fun r _ => r.restores

theorem RoleClaim.dictionary_restores {d : List (String × RoleClaim)} (distinct : (d.map Prod.fst).Nodup) :
    RoleClaim.codec.dictionary.Restores 3 d :=
  Codec.dictionary_restores distinct fun e _ => e.2.restores

theorem Json.Codec.optional_uint64_restores (o : Option UInt64) : uint64.optional.Restores 0 o :=
  optional_restores nofun fun n _ => uint64_restores n

namespace Claims

/-- The members of the object that claims are written as. -/
def members (c : Claims) : List (String × Json) :=
  match codec.encode c with
  | .obj ms => ms
  | _ => []

def names : List String := ["sub", "preferred_username", "realm_access", "resource_access", "exp", "iat"]

theorem names_members (c : Claims) : c.members.map Prod.fst = names := rfl

/-- The members of a payload: the issuer and the claims. -/
def membersFrom (issuer : String) (c : Claims) : List (String × Json) := ("iss", .str issuer) :: c.members

theorem names_membersFrom (issuer : String) (c : Claims) : (c.membersFrom issuer).map Prod.fst = "iss" :: names := rfl

theorem decode_among {c : Claims} (distinctClients : (c.resourceAccess.map Prod.fst).Nodup)
    {others members : List (String × Json)} {depth : Nat} (hperm : members.Perm (others ++ c.members))
    (distinct : (others.map Prod.fst).Nodup) (hdepth : depth + 3 < Node.depthLimit)
    (hothers : ∀ m ∈ others, m.1 ∉ names ∧ (m.2.tree depth).skipFault? = none) :
    codec.decode (.object (treeMembers depth members) .closed) = .ok c := by
  refine Fields.codec_among (by decide) rfl ?_ hperm distinct hdepth hothers
  simp only [Fields.restored_required, Fields.restored_optional, Fields.restored_withDefault]
  exact ⟨(Codec.text_restores c.sub).mono (by decide),
    (Codec.optional_text_restores c.preferredUsername).mono (by decide),
    (RoleClaim.optional_restores c.realmAccess).mono (by decide), RoleClaim.dictionary_restores distinctClients,
    (Codec.uint64_restores c.exp).mono (by decide), (Codec.optional_uint64_restores c.iat).mono (by decide), trivial⟩

theorem decode_membersFrom {c : Claims} (distinctClients : (c.resourceAccess.map Prod.fst).Nodup) {issuer : String}
    {members : List (String × Json)} (hperm : members.Perm (c.membersFrom issuer)) :
    codec.decode (.object (treeMembers 1 members) .closed) = .ok c := by
  have hissuer : ∀ m ∈ [("iss", Json.str issuer)], m.1 ∉ names ∧ (m.2.tree 1).skipFault? = none := by
    intro m hm
    rw [List.mem_singleton.mp hm]
    exact ⟨show "iss" ∉ names by decide, rfl⟩
  have hparts : members.Perm ([("iss", Json.str issuer)] ++ c.members) := hperm
  exact decode_among distinctClients hparts (List.pairwise_singleton _ "iss") (by decide) hissuer

end Claims

namespace RegisteredClaims

theorem isHalfRead_of_ne {name : String} (n : Node) (hnbf : name ≠ "nbf") (hiss : name ≠ "iss") (haud : name ≠ "aud") :
    isHalfRead name n = false := by
  unfold isHalfRead
  split
  · exact absurd rfl hnbf
  · exact absurd rfl hnbf
  · exact absurd rfl hiss
  · exact absurd rfl haud
  · rfl

theorem memberDefect?_treeMembers {members : List (String × Json)} {depth : Nat} {seen : List String}
    (distinct : (members.map Prod.fst).Nodup) (unseen : ∀ m ∈ members, m.1 ∉ seen)
    (whole : ∀ m ∈ members, isHalfRead m.1 (m.2.tree depth) = false) :
    memberDefect? seen (treeMembers depth members) = none := by
  induction members generalizing seen with
  | nil => rfl
  | cons m ms ih =>
    obtain ⟨k, j⟩ := m
    obtain ⟨hfresh, hdistinct⟩ := List.nodup_cons.mp distinct
    obtain ⟨hunseen, hunseens⟩ := List.forall_mem_cons.mp unseen
    obtain ⟨hwhole, hwholes⟩ := List.forall_mem_cons.mp whole
    simp only [treeMembers, memberDefect?, StringToken.text_ofText]
    by_cases hname : k ∈ names
    · rw [if_pos hname, if_neg hunseen, hwhole, ih hdistinct (Fields.unseen_cons hfresh hunseens) hwholes]
      rfl
    · rw [if_neg hname, ih hdistinct hunseens hwholes]

/-- From the end of the first minute on, a token is good until a minute after it expires. -/
theorem cutoff_le_iff {now : Int} (late : leeway ≤ now) (exp : Nat) : cutoff now ≤ exp ↔ now ≤ exp + 60 := by
  rw [cutoff, if_pos late, leeway]
  omega

/-- A payload that was minted passes until it has expired. -/
theorem check_membersFrom (s : Settings) (c : Claims) (now : Int) {members : List (String × Json)}
    (hperm : members.Perm (c.membersFrom s.issuerUrl)) :
    check (.ofSettings s) now c (Json.obj members).render =
      if cutoff now ≤ c.exp.toNat then .ok () else .error .expired := by
  have hnames := hperm.map Prod.fst
  rw [Claims.names_membersFrom] at hnames
  have distinct : (members.map Prod.fst).Nodup := hnames.nodup_iff.mpr (by decide)
  have hread : (Node.read (Json.obj members).render).1 = .object (treeMembers 1 members) .closed := by
    rw [Json.read_render]
    exact tree_obj (show 0 + 1 < Node.depthLimit by decide) members
  have hwhole : ∀ m ∈ members, isHalfRead m.1 (m.2.tree 1) = false := by
    intro m hm
    rcases List.mem_cons.mp (hperm.mem_iff.mp hm) with rfl | hm
    · simp [isHalfRead, tree, Node.wholeFault?, Node.faultOf]
    · have hname : m.1 ∈ Claims.names := c.names_members ▸ List.mem_map_of_mem hm
      have hne : ∀ name ∈ Claims.names, name ≠ "nbf" ∧ name ≠ "iss" ∧ name ≠ "aud" := by decide
      obtain ⟨hnbf, hiss, haud⟩ := hne m.1 hname
      exact isHalfRead_of_ne _ hnbf hiss haud
  have hdefect : memberDefect? [] (treeMembers 1 members) = none :=
    memberDefect?_treeMembers distinct (fun _ _ => List.not_mem_nil) hwhole
  have hissuer : ("iss", .str s.issuerUrl) ∈ members := hperm.mem_iff.mpr List.mem_cons_self
  have hnamed : (Fields.find? "iss" (treeMembers 1 members)).bind issuers? = some [s.issuerUrl] := by
    rw [Fields.find?_treeMembers, Dictionary.get?_of_mem distinct hissuer]
    simp [tree, issuers?, Except.toOption]
  simp only [check, hread, hdefect, hnamed, TokenPolicy.ofSettings]
  by_cases hexp : cutoff now ≤ c.exp.toNat
  · rw [if_pos hexp, if_neg (Int.not_lt.mpr hexp)]
    cases s.checksIssuer <;> simp
  · rw [if_neg hexp, if_pos (Int.not_le.mp hexp)]

end RegisteredClaims

namespace Token

/-- What is signed of a token with these members in its header and its payload. -/
def unsigned (header payload : List (String × Json)) : Bytes :=
  Base64.encode (Json.obj header).render ++ dot :: Base64.encode (Json.obj payload).render

/-- The token with these members in its header and its payload, signed with a secret. -/
def mint (h : Hmac) (secret : Bytes) (header payload : List (String × Json)) : Bytes :=
  unsigned header payload ++ dot :: Base64.encode (h.sign secret (unsigned header payload))

def mintedParts (h : Hmac) (secret : Bytes) (header payload : List (String × Json)) : TokenParts where
  header := Base64.encode (Json.obj header).render
  payload := Base64.encode (Json.obj payload).render
  signature := Base64.encode (h.sign secret (unsigned header payload))

theorem ofToken?_mint (h : Hmac) (secret : Bytes) (header payload : List (String × Json)) :
    TokenParts.ofToken? (mint h secret header payload) = some (mintedParts h secret header payload) := by
  have hdotless : ∀ bs, dot ∉ Base64.encode bs := fun bs => Base64.dot_not_mem_of_decode (Base64.decode_encode bs)
  exact TokenParts.ofToken?_eq_some.mpr ⟨rfl, hdotless _, hdotless _⟩

theorem signatureOk_mintedParts (h : Hmac) (secret : Bytes) (header payload : List (String × Json)) :
    signatureOk (.secret secret) h.algorithm (mintedParts h secret header payload) = true :=
  signatureOk_iff.mpr ⟨_, Base64.decode_encode _, h.verifies_sign _ _⟩

/-- A part is read from the members of an object that was encoded. -/
theorem readPart_encode {α : Type} {c : Codec α} {members : List (String × Json)} {v : α}
    (h : c.decode (.object (treeMembers 1 members) .closed) = .ok v) :
    readPart c (Base64.encode (Json.obj members).render) = .ok v := by
  have htree : (Json.obj members).tree 0 = .object (treeMembers 1 members) .closed := tree_obj (by decide) members
  exact readPart_eq_ok.mpr ⟨_, Base64.decode_encode _, Codec.read_render (htree ▸ h)⟩

/-- Where everything else about a token is in order, its registered claims decide. -/
theorem claims_of_check {material : KeyMaterial} {allowed : List Algorithm} {policy : TokenPolicy} {now : Int}
    {token : Bytes} {p : TokenParts} {h : TokenHeader} {c : Claims} {payload : Bytes}
    (family : ∀ a ∈ allowed, a.family = material.family) (parts : TokenParts.ofToken? token = some p)
    (header : readPart TokenHeader.codec p.header = .ok h) (listed : h.algorithm ∈ allowed)
    (signed : signatureOk material h.algorithm p = true) (read : readPart Claims.codec p.payload = .ok c)
    (decoded : Base64.decode p.payload = .ok payload) :
    claims material allowed policy now token = (RegisteredClaims.check policy now c payload).map fun _ => c := by
  have hfamily : ¬ (allowed.any fun a => a.family ≠ material.family) = true := by simpa using family
  simp only [claims, if_neg hfamily, parts, header, signed, read, decoded, listed, not_true, ↓reduceIte, bind,
    Except.bind, Except.mapError]
  cases RegisteredClaims.check policy now c payload <;> rfl

end Token

namespace Verifier

/-- A token minted from claims under a key of the set is accepted until a minute after it expires, and its bearer is the
caller whom those claims describe; from then on it is refused as expired.  Neither what the claims say nor the order in
which they are written matters, and nothing is asked of the provider.  Only a clock that stands within a minute of the
epoch counts otherwise. -/
theorem minted_token_good_until_expiry (s : Settings) (v : Verifier) (configured : v.policy = .ofSettings s) (h : Hmac)
    (secret : Bytes) (kid : String) (declared : Option String) (fits : ∀ name ∈ declared, name = h.algorithm.name)
    (first : Key.find? v.keys kid = some (.ofSecret kid declared secret)) (c : Claims)
    (distinctClients : (c.resourceAccess.map Prod.fst).Nodup) (kind : Option String)
    (header payload : List (String × Json)) (isHeader : header.Perm (TokenHeader.membersOf h kid kind))
    (isPayload : payload.Perm (c.membersFrom s.issuerUrl)) (p : Provider) (now : Moment) :
    v.verify p now (Token.mint h secret header payload) =
        (if RegisteredClaims.cutoff now.unix ≤ c.exp.toNat then .ok (c.caller s.rolesClient)
          else .error (.unauthorized "Invalid token: ExpiredSignature"), v, p) ∧
      (60 ≤ now.unix → (RegisteredClaims.cutoff now.unix ≤ c.exp.toNat ↔ now.unix ≤ c.exp.toNat + 60)) := by
  refine ⟨?_, fun late => RegisteredClaims.cutoff_le_iff late _⟩
  have hparts := Token.ofToken?_mint h secret header payload
  have hheader : readPart TokenHeader.codec (Token.mintedParts h secret header payload).header =
      .ok ⟨h.algorithm, some kid⟩ := Token.readPart_encode (TokenHeader.decode_membersOf isHeader)
  have hpayload : readPart Claims.codec (Token.mintedParts h secret header payload).payload = .ok c :=
    Token.readPart_encode (Claims.decode_membersFrom distinctClients isPayload)
  have hclaims : Token.claims (.secret secret) (Key.ofSecret kid declared secret).allowed (.ofSettings s) now.unix
      (Token.mint h secret header payload) =
        if RegisteredClaims.cutoff now.unix ≤ c.exp.toNat then .ok c else .error .expired := by
    rw [Token.claims_of_check (Key.family_of_mem_allowed fits) hparts hheader (Key.mem_allowed fits)
      (Token.signatureOk_mintedParts h secret header payload) hpayload (Base64.decode_encode _),
      RegisteredClaims.check_membersFrom s c now.unix isPayload]
    split <;> rfl
  have hnamed : Token.header (Token.mint h secret header payload) = .ok (⟨h.algorithm, some kid⟩, kid) :=
    Token.header_eq_ok.mpr ⟨by simp only [TokenHeader.ofToken, hparts, hheader], rfl⟩
  have hkey : v.learnKey p now kid = (some (.ofSecret kid declared secret), v, p) := by simp only [learnKey, first]
  simp only [verify, hnamed, hkey, Token.verifyWith, Key.material_ofSecret, if_pos (Key.mem_allowed fits), configured,
    hclaims]
  by_cases hexp : RegisteredClaims.cutoff now.unix ≤ c.exp.toNat
  · simp only [if_pos hexp]
    rfl
  · simp only [if_neg hexp]
    rfl

/-- Claims of a user with a quotation mark in the name and with roles of the realm and of two clients. -/
def mintedClaims : Claims where
  sub := "u"
  preferredUsername := some "Ü\"n"
  realmAccess := some ⟨["reader"]⟩
  resourceAccess := [("crm", ⟨["admin"]⟩), ("lms", ⟨["teacher"]⟩)]
  exp := 100
  iat := none

/-- The token of those claims under the first of the sample keys, its issuer written last. -/
def mintedToken : Bytes :=
  Token.mint .hs384 (Bytes.ofText "key") (TokenHeader.membersOf .hs384 "k" (some "JWT"))
    (mintedClaims.members ++ [("iss", .str sampleSettings.issuerUrl)])

theorem minted_token_good_until_expiry_sample :
    let v := fixed sampleSettings sampleKeys
    let p := Provider.ofSettings sampleSettings []
    v.verify p ⟨160, 0⟩ mintedToken = (.ok ⟨"u", some "Ü\"n", ["reader", "teacher"]⟩, v, p) ∧
      v.verify p ⟨161, 0⟩ mintedToken = (.error (.unauthorized "Invalid token: ExpiredSignature"), v, p) := by
  have hfirst : Key.find? sampleKeys "k" = some (.ofSecret "k" none (Bytes.ofText "key")) := by decide +kernel
  have hcaller : mintedClaims.caller sampleSettings.rolesClient = ⟨"u", some "Ü\"n", ["reader", "teacher"]⟩ := by
    decide +kernel
  have hminted := minted_token_good_until_expiry sampleSettings (fixed sampleSettings sampleKeys) rfl .hs384
    (Bytes.ofText "key") "k" none nofun hfirst mintedClaims (by decide) (some "JWT") _ _ (.refl _)
    (List.perm_append_singleton _ _) (.ofSettings sampleSettings [])
  obtain ⟨hgood, hgoodUntil⟩ := hminted ⟨160, 0⟩
  obtain ⟨hexpired, hexpiredFrom⟩ := hminted ⟨161, 0⟩
  rw [if_pos ((hgoodUntil (by decide)).mpr (by decide)), hcaller] at hgood
  rw [if_neg fun h => absurd ((hexpiredFrom (by decide)).mp h) (by decide)] at hexpired
  exact ⟨hgood, hexpired⟩

end Verifier

end Coursework
