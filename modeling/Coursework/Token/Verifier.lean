import Coursework.Provider.Client
import Coursework.Token.Verification

/-!
# The verifier

A verifier keeps a key set.  One that is backed by the provider fetches a new set when a token names a key it does
not know, but waits for the cooldown after every attempt.
-/

namespace Coursework

/-- The time since the epoch, in seconds and a fraction. -/
structure ClockTime where
  seconds : Int
  nano : Fin 1000000000
  deriving DecidableEq, Repr

instance : Coe Int ClockTime := ⟨fun seconds => ⟨seconds, 0⟩⟩

instance (n : Nat) : OfNat ClockTime n := ⟨⟨n, 0⟩⟩

/-- A point in time: of the calendar, and of a clock that only ever runs on. -/
structure Moment where
  time : ClockTime
  uptime : Nat
  deriving DecidableEq, Repr

namespace Moment

/-- The whole seconds since the epoch, by which tokens expire. -/
def unix (m : Moment) : Int := m.time.seconds

/-- The instant by which rows are dated. -/
def stamp (m : Moment) : Timestamp := (Timestamp.ofUnix m.time.seconds).withNano m.time.nano

end Moment

structure Verifier where
  keys : KeySet
  isBacked : Bool
  /-- The uptime of the last attempt to fetch keys. -/
  lastAttempt : Option Nat
  cooldown : Nat
  policy : TokenPolicy
  deriving DecidableEq

namespace Verifier

def fixed (s : Settings) (keys : KeySet) : Verifier :=
  { keys, isBacked := false, lastAttempt := none, cooldown := s.refreshCooldown, policy := .ofSettings s }

def backed (s : Settings) : Verifier :=
  { keys := [], isBacked := true, lastAttempt := none, cooldown := s.refreshCooldown, policy := .ofSettings s }

/-- Whether the last attempt is too recent for another one. -/
def isCooling (v : Verifier) (now : Moment) : Bool :=
  v.lastAttempt.any fun last => now.uptime < last + v.cooldown

/-- Fetches a new key set, and answers whether there is one. -/
def refreshKeys (v : Verifier) (p : Provider) (now : Moment) : Except Failure Bool × Verifier × Provider :=
  if !v.isBacked || v.isCooling now then (.ok false, v, p)
  else
    let v := { v with lastAttempt := some now.uptime }
    match p.fetchKeys with
    | (.ok keys, p) => (.ok true, { v with keys }, p)
    | (.error e, p) => (.error e, v, p)

/-- The key of a token, after one attempt to learn it if need be. -/
def learnKey (v : Verifier) (p : Provider) (now : Moment) (kid : String) : Option Key × Verifier × Provider :=
  match Key.find? v.keys kid with
  | some key => (some key, v, p)
  | none =>
    let (_, v, p) := v.refreshKeys p now
    (Key.find? v.keys kid, v, p)

def verify (v : Verifier) (p : Provider) (now : Moment) (token : Bytes) :
    Except Failure Caller × Verifier × Provider :=
  match Token.header token with
  | .error e => (.error e, v, p)
  | .ok (h, kid) =>
    match v.learnKey p now kid with
    | (none, v, p) => (.error (Token.unknownKey kid), v, p)
    | (some key, v, p) => (Token.verifyWith v.policy now.unix token h kid key, v, p)

/-- A fixed verifier neither learns nor forgets. -/
theorem verify_fixed (s : Settings) (keys : KeySet) (p : Provider) (now : Moment) (token : Bytes) :
    (fixed s keys).verify p now token =
      (Token.verify keys (.ofSettings s) now.unix token, fixed s keys, p) := by
  unfold verify Token.verify
  cases Token.header token with
  | error e => rfl
  | ok hk =>
    rcases hk with ⟨h, kid⟩
    simp only [learnKey, refreshKeys, fixed, Except.bind, bind]
    cases hf : Key.find? keys kid <;> simp [hf]

end Verifier

end Coursework
