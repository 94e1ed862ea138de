import Coursework.Proofs.Acceptance

/-!
# Learning keys

A verifier that is backed by the provider asks it for keys when a token names one that it does not have.  Over any run
of calls, whatever the replies, it asks no more often than the cooldown lets it, gives up its keys only for a set that
was brought to it whole, and decides each token as a fixed verifier with the keys that it then has would.
-/
namespace Coursework

/-- A success whose body can be read as a key set. -/
def ProviderReply.Brings (reply : ProviderReply) (keys : KeySet) : Prop :=
  ∃ status body, reply = .answer status body ∧ Provider.isSuccess status = true ∧ KeySet.codec.read body = .ok keys

namespace Provider

/-- The reply to the next request. -/
def nextReply (p : Provider) : ProviderReply := p.script.headD (.answer 500 [])

/-- The keys that the next reply brings, or else those that one has. -/
def keysOr (p : Provider) (old : KeySet) : KeySet := p.fetchKeys.1.toOption.getD old

theorem send_fst (p : Provider) (r : ProviderRequest) : (p.send r).1 = p.nextReply := by
  unfold send nextReply
  cases p.script <;> rfl

theorem send_sent (p : Provider) (r : ProviderRequest) : (p.send r).2.sent = p.sent ++ [r] := by
  unfold send
  cases p.script <;> rfl

theorem fetchKeys_sent (p : Provider) : p.fetchKeys.2.sent = p.sent ++ [⟨p.keysUrl, none⟩] :=
  p.send_sent ⟨p.keysUrl, none⟩

theorem fetchKeys_eq_ok {p : Provider} {keys : KeySet} : p.fetchKeys.1 = .ok keys ↔ p.nextReply.Brings keys := by
  have hreply : p.fetchKeys.1 = readReply KeySet.codec keysRefused p.nextReply := by
    rw [← p.send_fst ⟨p.keysUrl, none⟩]
    rfl
  rw [hreply]
  unfold ProviderReply.Brings
  cases p.nextReply with
  | dropped => simp [readReply]
  | answer status body => cases hs : isSuccess status <;> simp [readReply, hs, mapError_eq_ok, and_assoc]

theorem keysOr_of_brings {p : Provider} {keys : KeySet} (h : p.nextReply.Brings keys) (old : KeySet) :
    p.keysOr old = keys := by
  rw [keysOr, fetchKeys_eq_ok.mpr h]
  rfl

theorem keysOr_of_not_brings {p : Provider} (h : ∀ keys, ¬ p.nextReply.Brings keys) (old : KeySet) :
    p.keysOr old = old := by
  cases hf : p.fetchKeys.1 with
  | ok keys => exact absurd (fetchKeys_eq_ok.mp hf) (h keys)
  | error e =>
    rw [keysOr, hf]
    rfl

end Provider

namespace Verifier

/-- The token names a key that the verifier does not have. -/
def Lacks (v : Verifier) (token : Bytes) : Prop :=
  ∃ h kid, TokenHeader.ofToken token = .ok h ∧ h.kid = some kid ∧ Key.find? v.keys kid = none

theorem lacks_iff {v : Verifier} {token : Bytes} :
    v.Lacks token ↔ ∃ h kid, Token.header token = .ok (h, kid) ∧ Key.find? v.keys kid = none := by
  simp only [Lacks, Token.header_eq_ok, and_assoc]

theorem isCooling_eq_false {v : Verifier} {now : Moment} :
    v.isCooling now = false ↔ ∀ last, v.lastAttempt = some last → last + v.cooldown ≤ now.uptime := by
  unfold isCooling
  cases v.lastAttempt <;> simp

theorem refreshKeys_cooling {v : Verifier} {now : Moment} (cooling : v.isCooling now = true) (p : Provider) :
    v.refreshKeys p now = (.ok false, v, p) := by
  simp [refreshKeys, cooling]

/-- An attempt counts from when it is made, whatever comes of it. -/
theorem refreshKeys_ready {v : Verifier} {now : Moment} (backed : v.isBacked = true) (ready : v.isCooling now = false)
    (p : Provider) :
    (v.refreshKeys p now).2 =
      ({ v with lastAttempt := some now.uptime, keys := p.keysOr v.keys }, p.fetchKeys.2) := by
  simp only [refreshKeys, backed, ready, Provider.keysOr]
  rcases p.fetchKeys with ⟨_ | keys, q⟩ <;> rfl

theorem verify_of_not_lacks {v : Verifier} {token : Bytes} (known : ¬ v.Lacks token) (p : Provider) (now : Moment) :
    (v.verify p now token).2 = (v, p) := by
  unfold verify
  cases hh : Token.header token with
  | error e => rfl
  | ok named =>
    obtain ⟨h, kid⟩ := named
    cases hk : Key.find? v.keys kid with
    | none => exact absurd (lacks_iff.mpr ⟨h, kid, hh, hk⟩) known
    | some key => simp [learnKey, hk]

theorem verify_of_lacks {v : Verifier} {token : Bytes} (lacking : v.Lacks token) (p : Provider) (now : Moment) :
    (v.verify p now token).2 = (v.refreshKeys p now).2 := by
  obtain ⟨h, kid, hh, hk⟩ := lacks_iff.mp lacking
  simp only [verify, hh, learnKey, hk]
  cases Key.find? (v.refreshKeys p now).2.1.keys kid <;> rfl

/-- What a call does to a backed verifier and to the provider: nothing, or one attempt. -/
theorem verify_cases {v : Verifier} (backed : v.isBacked = true) (p : Provider) (now : Moment) (token : Bytes) :
    ((¬ v.Lacks token ∨ v.isCooling now = true) ∧ (v.verify p now token).2 = (v, p)) ∨
    (v.Lacks token ∧ v.isCooling now = false ∧ (v.verify p now token).2 =
      ({ v with lastAttempt := some now.uptime, keys := p.keysOr v.keys }, p.fetchKeys.2)) := by
  by_cases lacking : v.Lacks token
  · have hverify := verify_of_lacks lacking p now
    cases hc : v.isCooling now with
    | true =>
      rw [refreshKeys_cooling hc] at hverify
      exact Or.inl ⟨Or.inr rfl, hverify⟩
    | false =>
      rw [refreshKeys_ready backed hc] at hverify
      exact Or.inr ⟨lacking, rfl, hverify⟩
  · exact Or.inl ⟨Or.inl lacking, verify_of_not_lacks lacking p now⟩

end Verifier

/-- One call of a verifier, with what it began with. -/
structure Inspection where
  verifier : Verifier
  provider : Provider
  now : Moment
  token : Bytes

namespace Inspection

def result (i : Inspection) : Except Failure Caller := (i.verifier.verify i.provider i.now i.token).1

/-- The verifier as it stands when the call ends. -/
def after (i : Inspection) : Verifier := (i.verifier.verify i.provider i.now i.token).2.1

def left (i : Inspection) : Provider := (i.verifier.verify i.provider i.now i.token).2.2

/-- What the call sent to the provider. -/
def requests (i : Inspection) : List ProviderRequest := i.left.sent.drop i.provider.sent.length

variable {s : Settings} {i : Inspection}

theorem requests_of_left {rs : List ProviderRequest} (h : i.left.sent = i.provider.sent ++ rs) : i.requests = rs := by
  rw [requests, h, List.drop_left]

/-- A call without an attempt, or with one. -/
theorem attempt_cases (backed : i.verifier.isBacked = true) :
    ((¬ i.verifier.Lacks i.token ∨ i.verifier.isCooling i.now = true) ∧ i.requests = [] ∧ i.after = i.verifier ∧
      i.left = i.provider) ∨
    (i.verifier.Lacks i.token ∧ i.verifier.isCooling i.now = false ∧ i.requests = [⟨i.provider.keysUrl, none⟩] ∧
      i.after = { i.verifier with
        lastAttempt := some i.now.uptime, keys := i.provider.keysOr i.verifier.keys } ∧
      i.left = i.provider.fetchKeys.2) := by
  rcases Verifier.verify_cases backed i.provider i.now i.token with ⟨hidle, h⟩ | ⟨hlacks, hready, h⟩
  · have hleft : i.left = i.provider := by rw [left, h]
    have hsent : i.left.sent = i.provider.sent ++ [] := by rw [hleft, List.append_nil]
    exact Or.inl ⟨hidle, requests_of_left hsent, by rw [after, h], hleft⟩
  · have hleft : i.left = i.provider.fetchKeys.2 := by rw [left, h]
    have hsent := hleft ▸ i.provider.fetchKeys_sent
    exact Or.inr ⟨hlacks, hready, requests_of_left hsent, by rw [after, h], hleft⟩

/-- What is true of one call on a verifier that is backed by the provider. -/
structure Sound (s : Settings) (i : Inspection) : Prop where
  sent : i.left.sent = i.provider.sent ++ i.requests
  known : ¬ i.verifier.Lacks i.token → i.requests = []
  cooling : i.verifier.isCooling i.now = true → i.requests = []
  asks : i.verifier.Lacks i.token → i.verifier.isCooling i.now = false → i.requests = [⟨i.provider.keysUrl, none⟩]
  learned : ∀ keys, i.requests ≠ [] → i.provider.nextReply.Brings keys → i.after.keys = keys
  kept : i.requests = [] ∨ (∀ keys, ¬ i.provider.nextReply.Brings keys) → i.after.keys = i.verifier.keys
  decided : ∀ p, i.result = ((Verifier.fixed s i.after.keys).verify p i.now i.token).1
  refused : ∀ f, i.result = .error f → f.kind = .unauthorized

theorem sound (backed : i.verifier.isBacked = true) (configured : i.verifier.policy = .ofSettings s) : i.Sound s := by
  have hdecided : i.result = Token.verify i.after.keys i.verifier.policy i.now.unix i.token :=
    i.verifier.verify_fst i.provider i.now i.token
  have decided : ∀ p, i.result = ((Verifier.fixed s i.after.keys).verify p i.now i.token).1 := by
    intro p
    rw [Verifier.verify_fixed, hdecided, configured]
  have refused : ∀ f, i.result = .error f → f.kind = .unauthorized := by
    intro f hf
    rw [hdecided] at hf
    exact Token.kind_of_verify_error hf
  rcases attempt_cases backed with ⟨hidle, hnone, hafter, hleft⟩ | ⟨hlacks, hready, hone, hafter, hleft⟩
  · exact {
      sent := by rw [hleft, hnone, List.append_nil]
      known := fun _ => hnone
      cooling := fun _ => hnone
      asks := fun hlacks hready => absurd hlacks (hidle.resolve_right (by simp [hready]))
      learned := fun _ hsome => absurd hnone hsome
      kept := fun _ => congrArg Verifier.keys hafter
      decided, refused }
  · have hkeys : i.after.keys = i.provider.keysOr i.verifier.keys := congrArg Verifier.keys hafter
    exact {
      sent := by rw [hleft, hone, Provider.fetchKeys_sent]
      known := fun hknown => absurd hlacks hknown
      cooling := fun hcooling => absurd (hcooling.symm.trans hready) Bool.true_eq_false.mp
      asks := fun _ _ => hone
      learned := fun keys _ hbrings => hkeys.trans (Provider.keysOr_of_brings hbrings _)
      kept := fun h => hkeys.trans (Provider.keysOr_of_not_brings (h.resolve_left (by simp [hone])) _)
      decided, refused }

end Inspection

/-- Each time is at least `gap` after all those before it. -/
def Spaced (gap : Nat) (times : List Nat) : Prop := times.Pairwise fun earlier later => earlier + gap ≤ later

theorem Spaced.after {gap time : Nat} {last : Option Nat} {times : List Nat} (spaced : Spaced gap (time :: times))
    (waits : ∀ earlier, last = some earlier → earlier + gap ≤ time) : Spaced gap (last.toList ++ time :: times) := by
  cases last with
  | none => exact spaced
  | some earlier =>
    have hnow := waits earlier rfl
    have hrest := (List.pairwise_cons.mp spaced).1
    refine List.pairwise_cons.mpr ⟨List.forall_mem_cons.mpr ⟨hnow, fun later hlater => ?_⟩, spaced⟩
    have hlater := hrest later hlater
    omega

namespace Inspection

/-- When the calls of a run that asked the provider were made. -/
def attempts (run : List Inspection) : List Nat :=
  (run.filter fun i => i.requests ≠ []).map fun i => i.now.uptime

theorem attempts_cons (i : Inspection) (run : List Inspection) :
    attempts (i :: run) = if i.requests = [] then attempts run else i.now.uptime :: attempts run := by
  by_cases h : i.requests = [] <;> simp [attempts, h]

end Inspection

namespace Verifier

/-- The calls of a run, each of which begins where the one before it ended. -/
def inspections (v : Verifier) (p : Provider) : List (Moment × Bytes) → List Inspection
  | [] => []
  | (now, token) :: calls =>
    let i : Inspection := ⟨v, p, now, token⟩
    i :: inspections i.after i.left calls

/-- A verifier that is backed by the provider, with the keys and the last attempt that it has come to. -/
def learning (s : Settings) (keys : KeySet) (last : Option Nat) : Verifier :=
  { backed s with keys, lastAttempt := last }

variable (s : Settings) (keys : KeySet) (last : Option Nat)

section Call

variable {s keys last} {i : Inspection} (begins : i.verifier = learning s keys last)

include begins

theorem after_learning : ∃ new, i.after = learning s new (if i.requests = [] then last else some i.now.uptime) := by
  have backed : i.verifier.isBacked = true := by rw [begins]; rfl
  rcases Inspection.attempt_cases backed with ⟨-, hnone, hafter, -⟩ | ⟨-, -, hone, hafter, -⟩
  · exact ⟨keys, by rw [hafter, begins, if_pos hnone]⟩
  · exact ⟨i.provider.keysOr i.verifier.keys, by rw [hafter, begins, hone]; rfl⟩

theorem learning_waits (asks : i.requests ≠ []) :
    ∀ earlier, last = some earlier → earlier + s.refreshCooldown ≤ i.now.uptime := by
  have backed : i.verifier.isBacked = true := by rw [begins]; rfl
  rcases Inspection.attempt_cases backed with ⟨-, hnone, -⟩ | ⟨-, hready, -⟩
  · exact absurd hnone asks
  · rw [begins] at hready
    exact isCooling_eq_false.mp hready

end Call

theorem inspections_sound (p : Provider) (calls : List (Moment × Bytes)) :
    ∀ i ∈ inspections (learning s keys last) p calls, i.Sound s := by
  induction calls generalizing keys last p with
  | nil => exact List.forall_mem_nil _
  | cons call calls ih =>
    obtain ⟨now, token⟩ := call
    obtain ⟨new, hafter⟩ := after_learning (i := ⟨learning s keys last, p, now, token⟩) rfl
    refine List.forall_mem_cons.mpr ⟨Inspection.sound rfl rfl, ?_⟩
    rw [hafter]
    exact ih _ _ _

theorem attempts_spaced (p : Provider) (calls : List (Moment × Bytes)) :
    Spaced s.refreshCooldown
      (last.toList ++ Inspection.attempts (inspections (learning s keys last) p calls)) := by
  induction calls generalizing keys last p with
  | nil => cases last <;> simp [inspections, Inspection.attempts, Spaced]
  | cons call calls ih =>
    obtain ⟨now, token⟩ := call
    let i : Inspection := ⟨learning s keys last, p, now, token⟩
    obtain ⟨new, hafter⟩ := after_learning (i := i) rfl
    -- the attempt that the rest of the run has to wait for is this one, or the last before it
    have hrest := ih new (if i.requests = [] then last else some i.now.uptime) i.left
    rw [← hafter] at hrest
    change Spaced _ (last.toList ++ Inspection.attempts (i :: inspections i.after i.left calls))
    rw [Inspection.attempts_cons]
    by_cases hnone : i.requests = []
    · rw [if_pos hnone] at hrest ⊢
      exact hrest
    · rw [if_neg hnone] at hrest ⊢
      exact hrest.after (learning_waits rfl hnone)

/-- Over any run of calls on a verifier that is backed by the provider, whatever the times and the replies: a call asks
for keys only for a token that names an unknown one, at most once and never before the cooldown after the last attempt
is over; the keys change only to a set that was brought; and each call ends as on a fixed verifier with the keys that
there are then, a refusal always being the caller's own fault. -/
theorem learning_run_is_sound (p : Provider) (calls : List (Moment × Bytes)) :
    (∀ i ∈ inspections (learning s keys last) p calls, i.Sound s) ∧
      Spaced s.refreshCooldown
        (last.toList ++ Inspection.attempts (inspections (learning s keys last) p calls)) :=
  ⟨inspections_sound s keys last p calls, attempts_spaced s keys last p calls⟩

def samplePatience : Settings := { sampleSettings with refreshCooldown := 30 }

/-- A provider whose first reply is lost. -/
def sampleProvider : Provider :=
  let body := Bytes.ofText "\x7b\"keys\":[\x7b\"kty\":\"oct\",\"kid\":\"k\",\"k\":\"a2V5\"\x7d]\x7d"
  .ofSettings samplePatience [.dropped, .answer 200 body]

def sampleCalls : List (Moment × Bytes) :=
  [(⟨0, 0⟩, sampleToken), (⟨10, 10⟩, sampleToken), (⟨40, 40⟩, sampleToken)]

def sampleRun : List Inspection := inspections (learning samplePatience [] none) sampleProvider sampleCalls

/-- The first call learns nothing, the second comes too early to ask again, and the third learns the key. -/
theorem learning_run_is_sound_sample :
    Inspection.attempts sampleRun = [0, 40] ∧ Spaced 30 [0, 40] ∧
      (sampleRun.map fun i => i.after.keys.map Key.kid) = [[], [], [some "k"]] ∧
      ∀ i ∈ sampleRun, i.Sound samplePatience := by
  have hattempts : Inspection.attempts sampleRun = [0, 40] := by decide +kernel
  have hkeys : (sampleRun.map fun i => i.after.keys.map Key.kid) = [[], [], [some "k"]] := by decide +kernel
  obtain ⟨hsound, hspaced⟩ := learning_run_is_sound samplePatience [] none sampleProvider sampleCalls
  rw [Option.toList_none, List.nil_append, ← sampleRun, hattempts] at hspaced
  exact ⟨hattempts, hspaced, hkeys, hsound⟩

end Verifier

end Coursework
