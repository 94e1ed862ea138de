import Coursework.Proofs.Admission
import Coursework.Proofs.Calls

/-!
# Grants beside each other

A grant looks for the row of its pair and adds one if it saw none.  Two grants of one pair can both see none; then the
unique index refuses the later row, and that grant is answered like one that found the row.  So every pair ends with one
row, and one grant only, that of the row, is told that it is new.
-/
namespace Coursework

open Program

-- names are compared here after they are trimmed, and how that is done does not matter
attribute [local irreducible] Text.trimmed

/-- What a grant has exchanged when it ends, and what it answers then. -/
inductive GrantEnds (now : Timestamp) (rawUser lessonId : String) : List Exchange → Except Failure Bool → Prop
  | nobody (blank : Text.trimmed rawUser = "") : GrantEnds now rawUser lessonId [] (.error Grants.noUser)
  | unknown (named : Text.trimmed rawUser ≠ "") (f : Failure) :
      GrantEnds now rawUser lessonId [⟨.findLesson lessonId, .error f⟩] (.error f)
  | unsought (named : Text.trimmed rawUser ≠ "") (lesson : Lesson) (f : Failure) :
      GrantEnds now rawUser lessonId
        [⟨.findLesson lessonId, .ok lesson⟩, ⟨.seekGrant (Text.trimmed rawUser) lessonId, .error f⟩] (.error f)
  | refused (named : Text.trimmed rawUser ≠ "") (lesson : Lesson) (e : DatabaseError) :
      GrantEnds now rawUser lessonId
        [⟨.findLesson lessonId, .ok lesson⟩, ⟨.seekGrant (Text.trimmed rawUser) lessonId, .ok (.error e)⟩]
        (Grants.settle (.error e))
  | found (named : Text.trimmed rawUser ≠ "") (lesson : Lesson) :
      GrantEnds now rawUser lessonId
        [⟨.findLesson lessonId, .ok lesson⟩, ⟨.seekGrant (Text.trimmed rawUser) lessonId, .ok (.ok true)⟩] (.ok false)
  | added (named : Text.trimmed rawUser ≠ "") (lesson : Lesson) (r : Except Failure (Except DatabaseError Unit)) :
      GrantEnds now rawUser lessonId
        [⟨.findLesson lessonId, .ok lesson⟩, ⟨.seekGrant (Text.trimmed rawUser) lessonId, .ok (.ok false)⟩,
          ⟨.addGrant ⟨Text.trimmed rawUser, lessonId, now⟩, r⟩]
        (r >>= fun added => Grants.settle (added.map fun _ => true))

/-- How the upsert of a grant leaves it to end. -/
def UpsertEnds (now : Timestamp) (rawUser lessonId : String) (past : List Exchange) :
    Except Failure (Except DatabaseError Bool) → Prop
  | .ok result => GrantEnds now rawUser lessonId past (Grants.settle result)
  | .error f => GrantEnds now rawUser lessonId past (.error f)

namespace Operation

/-- How an operation ends, as far as it is a grant. -/
def EndsGrant (now : Timestamp) : (op : Operation) → List Exchange → Except Failure op.Result → Prop
  | .grant rawUser lessonId, past, r => GrantEnds now rawUser lessonId past r
  | _, _, _ => True

theorem upsert_ends_so {now : Timestamp} (rawUser lessonId : String) (named : Text.trimmed rawUser ≠ "")
    (lesson : Lesson) :
    (Grants.upsert ⟨Text.trimmed rawUser, lessonId, now⟩).Keeps (MayCall now (.grant rawUser lessonId))
      (UpsertEnds now rawUser lessonId) [⟨.findLesson lessonId, .ok lesson⟩] := by
  refine keeps_ask .seekGrant (fun found => ?_) fun f => .unsought named lesson f
  match found with
  | .ok true => exact GrantEnds.found named lesson
  | .error e => exact GrantEnds.refused named lesson e
  | .ok false =>
    refine keeps_ask .addGrant (fun added => ?_) fun f => .added named lesson (.error f)
    exact GrantEnds.added named lesson (.ok added)

theorem grant_ends_so (now : Timestamp) (rawUser lessonId : String) :
    (program now (.grant rawUser lessonId)).Keeps (MayCall now (.grant rawUser lessonId))
      (EndsGrant now (.grant rawUser lessonId)) [] := by
  refine keeps_require (fun hnamed => ?_) fun hblank => .nobody (by simpa using hblank)
  have named : Text.trimmed rawUser ≠ "" := of_decide_eq_true hnamed
  refine keeps_ask (.read rfl) (fun lesson => ?_) fun f => .unknown named f
  refine keeps_bind (upsert_ends_so rawUser lessonId named lesson) (fun past result h => h) fun past e h => h

end Operation

namespace Store

variable {s : Store}

/-- Who has access to what. -/
def pairs (s : Store) : List (String × String) := s.grants.map fun g => (g.userId, g.lessonId)

theorem hasGrant_append {s t : Store} {rows : List Grant} {user lessonId : String} (h : t.grants = s.grants ++ rows)
    (present : s.hasGrant user lessonId = true) : t.hasGrant user lessonId = true := by
  rw [hasGrant_iff] at present ⊢
  obtain ⟨g, hg, hpair⟩ := present
  exact ⟨g, h ▸ List.mem_append_left rows hg, hpair⟩

theorem filter_isGrantFor {g : Grant} (unique : s.pairs.Nodup) (hg : g ∈ s.grants) :
    s.grants.filter (isGrantFor g.userId g.lessonId) = [g] := by
  obtain ⟨before, after, hsplit⟩ := List.append_of_mem hg
  rw [pairs, hsplit, List.map_append, List.map_cons] at unique
  have hnew := (List.nodup_cons.mp (List.nodup_middle.mp unique)).1
  have hothers : ∀ x ∈ before ++ after, ¬ isGrantFor g.userId g.lessonId x = true := by
    intro x hx hfor
    simp only [isGrantFor, Bool.and_eq_true, decide_eq_true_eq] at hfor
    rw [← List.map_append] at hnew
    exact hnew (List.mem_map.mpr ⟨x, hx, Prod.ext hfor.1 hfor.2⟩)
  have hself : isGrantFor g.userId g.lessonId g = true := by simp [isGrantFor]
  rw [hsplit, List.filter_append, List.filter_cons_of_pos hself,
    List.filter_eq_nil_iff.mpr fun x hx => hothers x (List.mem_append_left _ hx),
    List.filter_eq_nil_iff.mpr fun x hx => hothers x (List.mem_append_right _ hx)]
  rfl

end Store

namespace Traffic

/-- Requests to grant access, each at its time: for whom, and to which lesson. -/
def grantRequests (asked : List (Timestamp × String × String)) : List (Timestamp × Operation) :=
  asked.map fun (now, user, lessonId) => (now, .grant user lessonId)

def newGrant? : Exchange → Option Grant
  | ⟨.addGrant row, .ok (.ok ())⟩ => some row
  | _ => none

/-- The rows that were added, each with the place of the grant that added it. -/
def added (log : List (Nat × Exchange)) : List (Nat × Grant) :=
  log.filterMap fun (i, e) => (newGrant? e).map fun row => (i, row)

variable {asked : List (Timestamp × String × String)} {first s t : Store} {log : List (Nat × Exchange)} {i : Nat}

theorem added_append (log : List (Nat × Exchange)) (i : Nat) (e : Exchange) :
    added (log ++ [(i, e)]) = added log ++ ((newGrant? e).map fun row => (i, row)).toList := by
  rw [added, List.filterMap_append, added]
  cases h : newGrant? e <;> simp [h]

theorem newGrant?_eq_some {e : Exchange} {row : Grant} (h : newGrant? e = some row) :
    e = ⟨.addGrant row, .ok (.ok ())⟩ := by
  unfold newGrant? at h
  split at h
  · cases h
    rfl
  · cases h

theorem mem_added {row : Grant} : (i, row) ∈ added log ↔ (i, ⟨.addGrant row, .ok (.ok ())⟩) ∈ log := by
  constructor
  · intro h
    obtain ⟨⟨j, e⟩, hmem, he⟩ := List.mem_filterMap.mp h
    obtain ⟨row', hrow, hpair⟩ := Option.map_eq_some_iff.mp he
    cases hpair
    exact newGrant?_eq_some hrow ▸ hmem
  · exact fun h => List.mem_filterMap.mpr ⟨_, h, rfl⟩

/-- An exchange of a grant where nothing goes wrong: a lesson is found if it is there, a row that was seen or refused is
there, and a row is added only for the pair that was asked for. -/
inductive Fair (asked : List (Timestamp × String × String)) (first s : Store) : Nat → Exchange → Prop
  | read {c : Call} (i : Nat) (hc : c.isRead = true) (hl : ∀ id, c ≠ .findLesson id) (r : Except Failure c.Answer) :
      Fair asked first s i ⟨c, r⟩
  | lookedUp {id : String} {r : Except Failure Lesson} (i : Nat)
      (h : (first.lesson? id).isSome = true → ∃ lesson, r = .ok lesson) : Fair asked first s i ⟨.findLesson id, r⟩
  | sought {user lessonId : String} {found : Bool} (i : Nat) (h : found = true → s.hasGrant user lessonId = true) :
      Fair asked first s i ⟨.seekGrant user lessonId, .ok (.ok found)⟩
  | added {i : Nat} {row : Grant}
      (h : ∃ rawUser, asked[i]? = some (row.grantedAt, rawUser, row.lessonId) ∧ Text.trimmed rawUser = row.userId)
      (present : s.hasGrant row.userId row.lessonId = true) : Fair asked first s i ⟨.addGrant row, .ok (.ok ())⟩
  | lost {row : Grant} (i : Nat) (present : s.hasGrant row.userId row.lessonId = true) :
      Fair asked first s i ⟨.addGrant row, .ok (.error Store.duplicate)⟩

theorem Fair.later {e : Exchange} {rows : List Grant} (h : Fair asked first s i e)
    (hrows : t.grants = s.grants ++ rows) : Fair asked first t i e := by
  cases h with
  | read _ hc hl r => exact .read i hc hl r
  | lookedUp _ h => exact .lookedUp i h
  | sought _ h => exact .sought i fun hfound => Store.hasGrant_append hrows (h hfound)
  | added h present => exact .added h (Store.hasGrant_append hrows present)
  | lost _ present => exact .lost i (Store.hasGrant_append hrows present)

/-- The rows are those of the start and those that were added, one for each pair. -/
structure Orderly (asked : List (Timestamp × String × String)) (first : Store) (log : List (Nat × Exchange))
    (s : Store) : Prop where
  lessons : s.lessons = first.lessons
  grants : s.grants = first.grants ++ (added log).map Prod.snd
  unique : s.pairs.Nodup
  fair : ∀ i e, (i, e) ∈ log → Fair asked first s i e

theorem Orderly.note {e : Exchange} (h : Orderly asked first log s) (hlessons : t.lessons = s.lessons)
    (hgrants : t.grants = s.grants ++ (newGrant? e).toList) (unique : t.pairs.Nodup)
    (hfair : Fair asked first t i e) : Orderly asked first (log ++ [(i, e)]) t where
  lessons := hlessons.trans h.lessons
  grants := by
    rw [hgrants, h.grants, added_append, List.map_append, List.append_assoc]
    cases newGrant? e <;> rfl
  unique := unique
  fair := by
    intro j e' hmem
    rcases List.mem_append.mp hmem with hmem | hmem
    · exact (h.fair j e' hmem).later hgrants
    · cases List.mem_singleton.mp hmem
      exact hfair

theorem newGrant?_read {c : Call} (hc : c.isRead = true) (r : Except Failure c.Answer) : newGrant? ⟨c, r⟩ = none := by
  cases c <;> first | rfl | cases hc

theorem Orderly.call {c : Call} {r : Except Failure c.Answer} {now : Timestamp} {op : Operation}
    (h : Orderly asked first log s) (hrequest : (grantRequests asked)[i]? = some (now, op))
    (hmay : Operation.MayCall now op (own i log) c) (hanswer : s.Answers .nothing c r t) :
    Orderly asked first (log ++ [(i, ⟨c, r⟩)]) t := by
  rw [grantRequests, List.getElem?_map, Option.map_eq_some_iff] at hrequest
  obtain ⟨⟨_, rawUser, lessonId⟩, hasked, he⟩ := hrequest
  cases he
  obtain ⟨rfl, rfl⟩ := hanswer.exact
  cases hmay with
  | read hc =>
    rw [Store.apply_read hc s]
    refine h.note rfl (by rw [newGrant?_read hc]; simp) h.unique ?_
    by_cases hl : ∃ id, c = .findLesson id
    · obtain ⟨id, rfl⟩ := hl
      refine .lookedUp i fun hknown => ?_
      obtain ⟨lesson, hlesson⟩ := Option.isSome_iff_exists.mp hknown
      have hfound : s.lesson? id = some lesson := by rw [Store.lesson?, h.lessons]; exact hlesson
      exact ⟨lesson, Store.lookUp_eq_ok.mpr hfound⟩
    · exact .read i hc (fun id he => hl ⟨id, he⟩) _
  | seekGrant => exact h.note rfl (List.append_nil _).symm h.unique (.sought i id)
  | addGrant =>
    generalize hr : (s.apply (.addGrant ⟨Text.trimmed rawUser, lessonId, now⟩)).1 = r at hanswer ⊢
    generalize ht : (s.apply (.addGrant ⟨Text.trimmed rawUser, lessonId, now⟩)).2 = t at hanswer ⊢
    cases hanswer.effect with
    | failed _ e he =>
      rcases he with he | he
      · cases he
      · simp only [Store.apply] at he
        split at he <;> cases he
    | read hc => cases hc
    | granted fresh =>
      refine h.note rfl rfl ?_ (.added ⟨rawUser, hasked, rfl⟩ ?_)
      · refine Table.nodup_map_append h.unique fun g hg he => ?_
        have hpresent := Store.hasGrant_iff.mpr ⟨g, hg, congrArg Prod.fst he, congrArg Prod.snd he⟩
        rw [hpresent] at fresh
        cases fresh
      · exact Store.hasGrant_iff.mpr ⟨_, List.mem_append_right _ (List.mem_singleton_self _), rfl, rfl⟩
    | grantedBefore present => exact h.note rfl (List.append_nil _).symm h.unique (.lost i present)

/-- The grant at a place has ended with this answer. -/
def Answered (t : Traffic) (i : Nat) (r : Except Failure Bool) : Prop :=
  ∃ now rawUser lessonId, t.tasks[i]? = some ⟨now, .grant rawUser lessonId, .done r⟩

/-- The request at a place is for this pair. -/
def AsksFor (asked : List (Timestamp × String × String)) (i : Nat) (user lessonId : String) : Prop :=
  ∃ now rawUser, asked[i]? = some (now, rawUser, lessonId) ∧ Text.trimmed rawUser = user

/-- A pair that was asked for has one row.  If it had it before, no grant is told that it is new; else just one grant
is, and the row has the time of that grant. -/
structure Settled (asked : List (Timestamp × String × String)) (first : Store) (t : Traffic) (user lessonId : String)
    (row : Grant) : Prop where
  only : t.store.grants.filter (Store.isGrantFor user lessonId) = [row]
  old : first.hasGrant user lessonId = true →
    row ∈ first.grants ∧ ∀ i, AsksFor asked i user lessonId → t.Answered i (.ok false)
  new : first.hasGrant user lessonId = false →
    ∃ i now rawUser, asked[i]? = some (now, rawUser, lessonId) ∧ Text.trimmed rawUser = user ∧
      row = ⟨user, lessonId, now⟩ ∧ t.Answered i (.ok true) ∧
        ∀ j, j ≠ i → AsksFor asked j user lessonId → t.Answered j (.ok false)

variable {tr : Traffic}

/-- What is known of a run of grants that has come to its end. -/
structure Concluded (asked : List (Timestamp × String × String)) (first : Store) (tr : Traffic) : Prop where
  orderly : Orderly asked first tr.log tr.store
  ended : ∀ i now rawUser lessonId, asked[i]? = some (now, rawUser, lessonId) →
    ∃ r, tr.tasks[i]? = some ⟨now, .grant rawUser lessonId, .done r⟩ ∧
      GrantEnds now rawUser lessonId (own i tr.log) r

theorem Concluded.blank {now : Timestamp} {rawUser lessonId : String} (h : Concluded asked first tr)
    (hasked : asked[i]? = some (now, rawUser, lessonId)) (hblank : Text.trimmed rawUser = "") :
    tr.Answered i (.error Grants.noUser) := by
  obtain ⟨r, htask, hends⟩ := h.ended i now rawUser lessonId hasked
  generalize own i tr.log = past at hends
  cases hends with
  | nobody => exact ⟨_, _, _, htask⟩
  | unknown named | unsought named | refused named | found named | added named => exact absurd hblank named

/-- A grant for a user is answered, and the row is there then.  It is told that the row is new just if it added it. -/
theorem Concluded.named {now : Timestamp} {rawUser lessonId : String} (h : Concluded asked first tr)
    (hasked : asked[i]? = some (now, rawUser, lessonId)) (hnamed : Text.trimmed rawUser ≠ "")
    (known : (first.lesson? lessonId).isSome = true) :
    tr.store.hasGrant (Text.trimmed rawUser) lessonId = true ∧
      (tr.Answered i (.ok true) ∧ (i, ⟨Text.trimmed rawUser, lessonId, now⟩) ∈ added tr.log ∨
        tr.Answered i (.ok false) ∧ ∀ row, (i, row) ∉ added tr.log) := by
  obtain ⟨r, htask, hends⟩ := h.ended i now rawUser lessonId hasked
  have hfair : ∀ e ∈ own i tr.log, Fair asked first tr.store i e := fun e he => h.orderly.fair i e (mem_own.mp he)
  have hadded : ∀ row, (i, row) ∈ added tr.log ↔ ⟨.addGrant row, .ok (.ok ())⟩ ∈ own i tr.log := fun row => by
    rw [mem_added, mem_own]
  generalize own i tr.log = past at hends hfair hadded
  cases hends with
  | nobody blank => exact absurd blank hnamed
  | unknown _ f =>
    cases hfair _ (List.mem_singleton_self _) with
    | read _ _ hl => exact absurd rfl (hl _)
    | lookedUp _ h =>
      obtain ⟨_, hr⟩ := h known
      cases hr
  | unsought _ lesson f | refused _ lesson e =>
    cases hfair _ (List.mem_cons_of_mem _ (List.mem_singleton_self _)) with
    | read _ hc => cases hc
  | found _ lesson =>
    cases hfair _ (List.mem_cons_of_mem _ (List.mem_singleton_self _)) with
    | read _ hc => cases hc
    | sought _ h => exact ⟨h rfl, Or.inr ⟨⟨_, _, _, htask⟩, fun row => by simp [hadded]⟩⟩
  | added _ lesson r =>
    cases hfair _ (List.mem_cons_of_mem _ (List.mem_cons_of_mem _ (List.mem_singleton_self _))) with
    | read _ hc => cases hc
    | added _ present => exact ⟨present, Or.inl ⟨⟨_, _, _, htask⟩, (hadded _).mpr (by simp)⟩⟩
    | lost _ present => exact ⟨present, Or.inr ⟨⟨_, _, _, htask⟩, fun row => by simp [hadded]⟩⟩

theorem Orderly.pairs (h : Orderly asked first log s) :
    s.pairs = first.pairs ++ (added log).map fun entry => (entry.2.userId, entry.2.lessonId) := by
  rw [Store.pairs, h.grants, List.map_append, List.map_map]
  rfl

/-- Two grants add no rows of one pair. -/
theorem Orderly.added_unique {j : Nat} {row row' : Grant} (h : Orderly asked first log s) (hrow : (i, row) ∈ added log)
    (hrow' : (j, row') ∈ added log) (hpair : (row.userId, row.lessonId) = (row'.userId, row'.lessonId)) : i = j := by
  have hunique := h.unique
  rw [h.pairs] at hunique
  exact congrArg Prod.fst (List.inj_on_of_nodup_map (List.nodup_append.mp hunique).2.1 hrow hrow' hpair)

/-- No grant adds a row of a pair that had one before. -/
theorem Orderly.added_fresh {row : Grant} (h : Orderly asked first log s) (hrow : (i, row) ∈ added log) :
    first.hasGrant row.userId row.lessonId = false := by
  refine Bool.eq_false_iff.mpr fun hold => ?_
  obtain ⟨g, hg, huser, hlesson⟩ := Store.hasGrant_iff.mp hold
  have hunique := h.unique
  rw [h.pairs] at hunique
  refine (List.nodup_append.mp hunique).2.2 _ (List.mem_map_of_mem hg) _ (List.mem_map_of_mem hrow) ?_
  rw [huser, hlesson]

theorem Concluded.settled {now : Timestamp} {rawUser lessonId : String} (h : Concluded asked first tr)
    (known : ∀ now user lessonId, (now, user, lessonId) ∈ asked → (first.lesson? lessonId).isSome = true)
    (hasked : asked[i]? = some (now, rawUser, lessonId)) (hnamed : Text.trimmed rawUser ≠ "") :
    ∃ row, Settled asked first tr (Text.trimmed rawUser) lessonId row := by
  have hknown := known _ _ _ (List.mem_of_getElem? hasked)
  obtain ⟨row, hrow, huser, hlesson⟩ := Store.hasGrant_iff.mp (h.named hasked hnamed hknown).1
  have horigin : row ∈ first.grants ∨ ∃ k, (k, row) ∈ added tr.log := by
    rw [h.orderly.grants, List.mem_append, List.mem_map] at hrow
    refine hrow.imp_right fun hnew => ?_
    obtain ⟨⟨k, _⟩, hk, rfl⟩ := hnew
    exact ⟨k, hk⟩
  -- a grant of this pair is told that the row is new only if it added it
  have hanswer : ∀ j, AsksFor asked j (Text.trimmed rawUser) lessonId →
      tr.Answered j (.ok true) ∧ (∃ row', (j, row') ∈ added tr.log ∧
        (row'.userId, row'.lessonId) = (row.userId, row.lessonId)) ∨
      tr.Answered j (.ok false) ∧ ∀ row', (j, row') ∉ added tr.log := by
    rintro j ⟨now', rawUser', hasked', hsame⟩
    refine (h.named hasked' (hsame ▸ hnamed) hknown).2.imp_left fun hnew => ⟨hnew.1, _, hnew.2, ?_⟩
    rw [huser, hlesson, hsame]
  refine ⟨row, ?_, fun hold => ⟨?_, fun j hj => ?_⟩, fun hfresh => ?_⟩
  · rw [← huser, ← hlesson]
    exact Store.filter_isGrantFor h.orderly.unique hrow
  · refine horigin.resolve_right fun ⟨k, hk⟩ => ?_
    have hfresh := h.orderly.added_fresh hk
    rw [huser, hlesson, hold] at hfresh
    cases hfresh
  · rcases hanswer j hj with ⟨-, row', hrow', hpair⟩ | ⟨hfalse, -⟩
    · have hfresh := h.orderly.added_fresh hrow'
      simp only [Prod.mk.injEq] at hpair
      rw [hpair.1, hpair.2, huser, hlesson, hold] at hfresh
      cases hfresh
    · exact hfalse
  · have hnew : row ∉ first.grants := fun hmem => by
      rw [Store.hasGrant_iff.mpr ⟨row, hmem, huser, hlesson⟩] at hfresh
      cases hfresh
    obtain ⟨k, hk⟩ := horigin.resolve_left hnew
    cases h.orderly.fair k _ (mem_added.mp hk) with
    | read _ hc => cases hc
    | added hauthor _ =>
      obtain ⟨rawUser', hasked', hsame⟩ := hauthor
      rw [hlesson] at hasked'
      have hsame : Text.trimmed rawUser' = Text.trimmed rawUser := hsame.trans huser
      refine ⟨k, row.grantedAt, rawUser', hasked', hsame, by rw [← huser, ← hlesson], ?_, fun j hne hj => ?_⟩
      · rcases hanswer k ⟨_, rawUser', hasked', hsame⟩ with ⟨htrue, -⟩ | ⟨-, hnone⟩
        · exact htrue
        · exact absurd hk (hnone row)
      · rcases hanswer j hj with ⟨-, row', hrow', hpair⟩ | ⟨hfalse, -⟩
        · exact absurd (h.orderly.added_unique hrow' hk hpair) hne
        · exact hfalse

theorem grantRequests_follow (b : Backend) (asked : List (Timestamp × String × String)) :
    (Traffic.start b (grantRequests asked)).Follows Operation.MayCall Operation.EndsGrant (grantRequests asked) := by
  refine start_follows b fun now op hmem => ?_
  obtain ⟨⟨_, rawUser, lessonId⟩, -, he⟩ := List.mem_map.mp hmem
  cases he
  exact Operation.grant_ends_so now rawUser lessonId

theorem grants_stay_orderly {b : Backend} (calm : b.Allows .nothing) (asked : List (Timestamp × String × String))
    (unique : b.store.pairs.Nodup) (schedule : List Nat) :
    Orderly asked b.store ((Traffic.start b (grantRequests asked)).run schedule).log
      ((Traffic.start b (grantRequests asked)).run schedule).store :=
  run_induction (P := Orderly asked b.store) (grantRequests_follow b asked) calm
    { lessons := rfl
      grants := (List.append_nil _).symm
      unique
      fair := fun _ _ h => by cases h }
    (fun _ _ _ _ _ _ _ _ hrequest hmay hanswer h => h.call hrequest hmay hanswer) schedule

/-- However grants of access to lessons that are there meet: one that names no user is refused; every other one is
answered, its pair ends with one row, and if there was none before, just the grant that added it is told so.  A row that
is there stays as it is, in its place. -/
theorem grants_settle (b : Backend) (calm : b.Allows .nothing) (unique : b.store.pairs.Nodup)
    (asked : List (Timestamp × String × String))
    (known : ∀ now user lessonId, (now, user, lessonId) ∈ asked → (b.store.lesson? lessonId).isSome = true)
    (schedule : List Nat) (finished : ((Traffic.start b (grantRequests asked)).run schedule).isFinished = true) :
    let t := (Traffic.start b (grantRequests asked)).run schedule
    (∀ i now rawUser lessonId, asked[i]? = some (now, rawUser, lessonId) → Text.trimmed rawUser = "" →
      t.Answered i (.error Grants.noUser)) ∧
    (∀ i now rawUser lessonId, asked[i]? = some (now, rawUser, lessonId) → Text.trimmed rawUser ≠ "" →
      (∃ isNew, t.Answered i (.ok isNew)) ∧ ∃ row, Settled asked b.store t (Text.trimmed rawUser) lessonId row) ∧
    ∀ earlier later, schedule = earlier ++ later →
      ((Traffic.start b (grantRequests asked)).run earlier).store.grants <+: t.store.grants := by
  intro t
  have horderly := grants_stay_orderly calm asked unique
  have hfollows := (grantRequests_follow b asked).run schedule
  have hconcluded : Concluded asked b.store t := by
    refine ⟨horderly schedule, fun i now rawUser lessonId hasked => ?_⟩
    have hrequest : (grantRequests asked)[i]? = some (now, .grant rawUser lessonId) := by
      rw [grantRequests, List.getElem?_map, hasked]
      rfl
    obtain ⟨r, htask⟩ := hfollows.result finished hrequest
    exact ⟨r, htask, hfollows.ended htask⟩
  refine ⟨fun i now rawUser lessonId hasked => hconcluded.blank hasked, fun i now rawUser lessonId hasked hnamed => ?_,
    fun earlier later hsplit => ?_⟩
  · refine ⟨?_, hconcluded.settled known hasked hnamed⟩
    rcases (hconcluded.named hasked hnamed (known _ _ _ (List.mem_of_getElem? hasked))).2 with ⟨h, -⟩ | ⟨h, -⟩
    · exact ⟨true, h⟩
    · exact ⟨false, h⟩
  · have hlog : ((Traffic.start b (grantRequests asked)).run earlier).log <+: t.log := by
      have hrun : t = ((Traffic.start b (grantRequests asked)).run earlier).run later := by
        rw [← run_append, ← hsplit]
      rw [hrun]
      exact run_log _ later
    rw [(horderly earlier).grants, show t.store.grants = _ from (horderly schedule).grants]
    exact (List.prefix_append_right_inj _).mpr ((hlog.filterMap _).map _)

/-- A store with one lesson. -/
def sampleLesson : Backend :=
  { Backend.start .numbered .numbered [] with
    store := { Store.empty with lessons := [⟨"a", "A", "", "", 1, "h", .epoch, .epoch⟩] } }

theorem sampleLesson_known (asked : List (Timestamp × String × String)) (h : ∀ ask ∈ asked, ask.2.2 = "a") :
    ∀ now user lessonId, (now, user, lessonId) ∈ asked → (sampleLesson.store.lesson? lessonId).isSome = true := by
  intro now user lessonId hmem
  obtain rfl : lessonId = "a" := h _ hmem
  decide +kernel

theorem sampleLesson_calm : sampleLesson.Allows .nothing := by
  constructor <;> exact fun _ h => by cases h

/-- Both grants see no row before one of them adds it. -/
theorem grants_settle_sample :
    ∃ row, Settled [(.epoch, "u", "a"), (.epoch, " u ", "a")] sampleLesson.store
      ((Traffic.start sampleLesson (grantRequests [(.epoch, "u", "a"), (.epoch, " u ", "a")])).run [0, 1, 0, 1, 1, 0])
      (Text.trimmed " u ") "a" row := by
  obtain ⟨-, hnamed, -⟩ := grants_settle sampleLesson sampleLesson_calm (by decide +kernel)
    [(.epoch, "u", "a"), (.epoch, " u ", "a")] (sampleLesson_known _ (by decide +kernel)) [0, 1, 0, 1, 1, 0]
    (by decide +kernel)
  exact (hnamed 1 .epoch " u " "a" rfl (by decide +kernel)).2

/-- Not every run of grants that come to their end answers each of them: one that names no user is refused. -/
theorem blank_grant_refused :
    ¬ ∀ (b : Backend) (asked : List (Timestamp × String × String)) (schedule : List Nat), b.Allows .nothing →
      b.store.pairs.Nodup →
      (∀ now user lessonId, (now, user, lessonId) ∈ asked → (b.store.lesson? lessonId).isSome = true) →
      ((Traffic.start b (grantRequests asked)).run schedule).isFinished = true →
      ∀ i < asked.length, ∃ isNew, ((Traffic.start b (grantRequests asked)).run schedule).Answered i (.ok isNew) := by
  intro h
  obtain ⟨isNew, now, rawUser, lessonId, htask⟩ := h sampleLesson [(.epoch, "  ", "a")] [0] sampleLesson_calm
    (by decide +kernel) (sampleLesson_known _ (by decide +kernel)) (by decide +kernel) 0 (by decide)
  have hfollows := (grantRequests_follow sampleLesson [(.epoch, "  ", "a")]).run [0]
  have hblank : Text.trimmed "  " = "" := by decide +kernel
  cases hfollows.request htask
  have hends : GrantEnds .epoch "  " "a" _ (.ok isNew) := hfollows.ended htask
  generalize own 0 _ = past at hends
  generalize hresult : (Except.ok isNew : Except Failure Bool) = result at hends
  cases hends with
  | nobody => cases hresult
  | unknown named | unsought named | refused named | found named | added named => exact named hblank

end Traffic

end Coursework
