import Coursework.Json.Record
import Coursework.Role

/-!
# Claims

The payload of a token.  The roles of its bearer are those of the realm and those of the one client that this
server looks at.
-/

namespace Coursework

open Json

structure RoleClaim where
  roles : List String
  deriving DecidableEq, Repr, Inhabited

structure Claims where
  sub : String
  preferredUsername : Option String
  realmAccess : Option RoleClaim
  resourceAccess : List (String × RoleClaim)
  exp : UInt64
  iat : Option UInt64
  deriving DecidableEq, Inhabited

def RoleClaim.codec : Codec RoleClaim :=
  (Fields.withDefault "roles" Codec.text.list [] .nil).codec "struct RoleClaim"
    (fun (roles, _) => ⟨roles⟩) (fun r => (r.roles, ()))

namespace Claims

def codec : Codec Claims :=
  (Fields.required "sub" .text <| .optional "preferred_username" .text <|
    .optional "realm_access" RoleClaim.codec <| .withDefault "resource_access" RoleClaim.codec.dictionary [] <|
    .required "exp" .uint64 <| .optional "iat" .uint64 .nil).codec "struct Claims"
    (fun (sub, preferredUsername, realmAccess, resourceAccess, exp, iat, _) =>
      ⟨sub, preferredUsername, realmAccess, resourceAccess, exp, iat⟩)
    (fun c => (c.sub, c.preferredUsername, c.realmAccess, c.resourceAccess, c.exp, c.iat, ()))

/-- The roles of the realm, then those of the given client. -/
def roles (c : Claims) (rolesClient : String) : List String :=
  (c.realmAccess.map RoleClaim.roles).getD [] ++
    ((Dictionary.get? rolesClient c.resourceAccess).map RoleClaim.roles).getD []

def caller (c : Claims) (rolesClient : String) : Caller where
  subject := c.sub
  username := c.preferredUsername
  roles := RoleSet.ofList (c.roles rolesClient)

end Claims

end Coursework
