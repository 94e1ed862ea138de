import Coursework.Json.Record

/-!
# Token replies

What the identity provider hands out after a successful login or refresh, passed on to the client.
-/

namespace Coursework

open Json

structure TokenReply where
  accessToken : String
  refreshToken : Option String
  expiresIn : Int64
  refreshExpiresIn : Option Int64
  tokenType : String
  deriving DecidableEq, Inhabited

def TokenReply.codec : Codec TokenReply :=
  (Fields.required "access_token" .text <| .omissible "refresh_token" .text <| .required "expires_in" .int64 <|
    .omissible "refresh_expires_in" .int64 <| .required "token_type" .text .nil).codec "struct TokenResponse"
    (fun (accessToken, refreshToken, expiresIn, refreshExpiresIn, tokenType, _) =>
      ⟨accessToken, refreshToken, expiresIn, refreshExpiresIn, tokenType⟩)
    (fun r => (r.accessToken, r.refreshToken, r.expiresIn, r.refreshExpiresIn, r.tokenType, ()))

end Coursework
