import Coursework.Failure
import Coursework.Text.Decimal

/-!
# Settings

What the server is told by its environment, with a default for everything that is absent or unreadable.
-/

namespace Coursework

structure Settings where
  environment : String
  databaseUrl : String
  databaseName : String
  host : String
  /-- The number of the socket the server listens at. -/
  socket : Nat
  providerUrl : String
  realm : String
  clientId : String
  clientSecret : Option String
  rolesClient : String
  checksIssuer : Bool
  refreshCooldown : Nat
  attachmentBucket : String
  maxUploadBytes : Nat
  allowedOrigin : Option String
  deriving DecidableEq, Repr, Inhabited

namespace Settings

def defaultProviderUrl : String := "http://localhost:8081"

def defaultMaxUploadBytes : Nat := 32 * 1024 * 1024

def flag? : String → Option Bool
  | "true" => some true
  | "false" => some false
  | _ => none

def nonEmpty? (s : String) : Option String := if s = "" then none else some s

/-- Settings from the variables that `var` knows. -/
def ofEnvironment (var : String → Option String) : Settings where
  environment := (var "APP_ENV").getD "development"
  databaseUrl := (var "MONGO_CONN_STRING").getD "mongodb://localhost:27017"
  databaseName := (var "MONGO_DB_NAME").getD "lms-local"
  host := (var "WEB_SERVER_HOST").getD "localhost"
  socket := ((var "WEB_SERVER_PORT").bind (Text.numeral? UInt16.size)).getD 8080
  providerUrl := (var "KEYCLOAK_BASE_URL").getD defaultProviderUrl
  realm := (var "KEYCLOAK_REALM").getD "lms"
  clientId := (var "OIDC_CLIENT_ID").getD "backend-client"
  clientSecret := (var "OIDC_CLIENT_SECRET").bind nonEmpty?
  rolesClient := (var "OIDC_ROLES_CLIENT").getD "lms-app"
  checksIssuer := ((var "OIDC_VALIDATE_ISSUER").bind flag?).getD true
  refreshCooldown := ((var "JWKS_REFRESH_COOLDOWN_SECS").bind (Text.numeral? UInt64.size)).getD 60
  attachmentBucket := (var "ATTACHMENT_BUCKET").getD "attachments"
  maxUploadBytes := ((var "MAX_UPLOAD_BYTES").bind (Text.numeral? UInt64.size)).getD defaultMaxUploadBytes
  allowedOrigin := (var "CORS_ALLOWED_ORIGIN").bind nonEmpty?

def lowerAscii (cs : List Char) : List Char := cs.map Char.toLower

def isProduction (s : Settings) : Bool := lowerAscii s.environment.toList = "production".toList

/-- The realm's address, which is also the issuer its tokens name. -/
def issuerUrl (s : Settings) : String :=
  String.ofList (s.providerUrl.toList.reverse.dropWhile (· = '/')).reverse ++ "/realms/" ++ s.realm

def keysUrl (s : Settings) : String := s.issuerUrl ++ "/protocol/openid-connect/certs"

def tokenUrl (s : Settings) : String := s.issuerUrl ++ "/protocol/openid-connect/token"

/-- Refuses settings that only make sense on a developer's machine. -/
def checkProduction (s : Settings) : Except Failure Unit :=
  if s.providerUrl = defaultProviderUrl then
    .error (.internal "KEYCLOAK_BASE_URL is using its default value; point it at the identity provider")
  else if s.maxUploadBytes = 0 then
    .error (.internal "MAX_UPLOAD_BYTES must be greater than zero")
  else .ok ()

end Settings

end Coursework
