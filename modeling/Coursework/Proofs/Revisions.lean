import Coursework.Proofs.Calls

/-!
# Blobs as a map

No put replaces a blob that is there: it adds a revision.  A read takes the revision that was stored last, and a
removal the first one there is.  As long as no key is put over, that is, put again before it is removed, this is a map
from keys to bytes.  Otherwise there are revisions that a map does not hold, and a removal brings them to light.
-/
namespace Coursework

namespace Timestamp

theorem before_iff {as bs : List Int} (h : as.length = bs.length) : before as bs = true ↔ as < bs := by
  induction as generalizing bs with
  | nil => simp [before, List.eq_nil_of_length_eq_zero h.symm]
  | cons a as ih =>
    cases bs with
    | nil => cases h
    | cons b bs => simp [before, List.cons_lt_cons_iff, ih (Nat.succ.inj h)]

theorem lt_iff_fields (a b : Timestamp) : a.lt b = true ↔ a.fields < b.fields := before_iff rfl

theorem not_lt_iff_fields (a b : Timestamp) : a.lt b = false ↔ ¬ a.fields < b.fields := by
  rw [← Bool.not_eq_true, lt_iff_fields]

theorem not_lt_trans {a b c : Timestamp} (hab : a.lt b = false) (hbc : b.lt c = false) : a.lt c = false := by
  rw [not_lt_iff_fields] at hab hbc ⊢
  exact List.not_lt.mpr (List.le_trans (List.not_lt.mp hbc) (List.not_lt.mp hab))

theorem lt_asymm {a b : Timestamp} (h : a.lt b = true) : b.lt a = false := by
  rw [lt_iff_fields] at h
  rw [not_lt_iff_fields]
  exact List.lt_asymm h

end Timestamp

namespace Store

/-- The blobs under a key, in the order in which they were put. -/
def under (s : Store) (key : String) : List Blob := s.blobs.filter fun b => b.key = key

/-- The one of several blobs that was stored last, and the first of those that were stored at that time. -/
def IsLatest (blob : Blob) (blobs : List Blob) : Prop :=
  ∃ front back, blobs = front ++ blob :: back ∧ (∀ b ∈ front, b.storedAt.lt blob.storedAt = true) ∧
    ∀ b ∈ back, blob.storedAt.lt b.storedAt = false

theorem latest_eq_none {blobs : List Blob} (h : latest blobs = none) : blobs = [] := by
  cases blobs with
  | nil => rfl
  | cons b bs => exact absurd h (latest_ne_none b bs)

theorem isLatest_of_latest {blobs : List Blob} {blob : Blob} (h : latest blobs = some blob) : IsLatest blob blobs := by
  induction blobs generalizing blob with
  | nil => cases h
  | cons b bs ih =>
    simp only [latest] at h
    cases hrest : latest bs with
    | none =>
      rw [hrest] at h
      cases h
      exact ⟨[], [], by rw [latest_eq_none hrest]; rfl, List.forall_mem_nil _, List.forall_mem_nil _⟩
    | some c =>
      obtain ⟨front, back, rfl, hfront, hback⟩ := ih hrest
      simp only [hrest] at h
      by_cases hlt : b.storedAt.lt c.storedAt = true
      · rw [if_pos hlt] at h
        cases h
        exact ⟨b :: front, back, rfl, List.forall_mem_cons.mpr ⟨hlt, hfront⟩, hback⟩
      · rw [if_neg hlt] at h
        cases h
        have hnot : b.storedAt.lt c.storedAt = false := Bool.not_eq_true _ ▸ hlt
        refine ⟨[], front ++ c :: back, rfl, List.forall_mem_nil _, fun x hx => ?_⟩
        rcases List.mem_append.mp hx with hx | hx
        · exact Timestamp.not_lt_trans hnot (Timestamp.lt_asymm (hfront x hx))
        · rcases List.mem_cons.mp hx with rfl | hx
          · exact hnot
          · exact Timestamp.not_lt_trans hnot (hback x hx)

/-- Whether blobs were stored one after another. -/
def InTime (blobs : List Blob) : Prop := blobs.Pairwise fun a b => a.storedAt.lt b.storedAt = true

/-- Of blobs that were stored one after another the last one is read. -/
theorem IsLatest.eq_of_inTime {front : List Blob} {last blob : Blob} (h : IsLatest blob (front ++ [last]))
    (inTime : InTime (front ++ [last])) : blob = last := by
  obtain ⟨older, newer, hsplit, -, hnewer⟩ := h
  rcases List.eq_nil_or_concat newer with rfl | ⟨between, x, rfl⟩
  · exact (List.cons.inj (List.append_inj_right' hsplit rfl)).1.symm
  · -- a blob behind the one that is read would have been stored later
    have hlater : blob.storedAt.lt x.storedAt = true := by
      rw [InTime, hsplit] at inTime
      exact List.rel_of_pairwise_cons (List.pairwise_append.mp inTime).2.1 (by simp)
    rw [hnewer x (by simp)] at hlater
    cases hlater

/-- Keys that are all different have one blob each at most. -/
theorem length_under_le {s : Store} (single : (s.blobs.map Blob.key).Nodup) (key : String) :
    (s.under key).length ≤ 1 := by
  have hsame : (s.under key).map Blob.key = List.replicate (s.under key).length key := by
    refine List.eq_replicate_iff.mpr ⟨List.length_map _, fun k hk => ?_⟩
    obtain ⟨b, hb, rfl⟩ := List.mem_map.mp hk
    exact of_decide_eq_true (List.mem_filter.mp hb).2
  have hnodup : ((s.under key).map Blob.key).Nodup := single.sublist (List.filter_sublist.map Blob.key)
  rw [hsame] at hnodup
  exact List.nodup_replicate.mp hnodup

end Store

inductive BlobCall
  | put (key : String) (bytes : Bytes) (now : Timestamp)
  | get (key : String)
  | remove (key : String)

namespace BlobCall

@[reducible] def call : BlobCall → Call
  | put key bytes now => .putBlob key bytes now
  | get key => .getBlob key
  | remove key => .removeBlob key

def key : BlobCall → String
  | put key _ _ | get key | remove key => key

def isPut : BlobCall → Bool
  | put _ _ _ => true
  | _ => false

/-- What a map holds under a key after a call. -/
def write (key : String) (held : Option Bytes) : BlobCall → Option Bytes
  | put k bytes _ => if k = key then some bytes else held
  | get _ => held
  | remove k => if k = key then none else held

/-- The revisions under a key after a call. -/
def revise (key : String) (revs : List Blob) : BlobCall → List Blob
  | put k bytes now => if k = key then revs ++ [⟨key, bytes, now.wholeMillis⟩] else revs
  | get _ => revs
  | remove k => if k = key then revs.tail else revs

variable {c : BlobCall} {k : String} {held : Option Bytes} {revs : List Blob}

@[simp] theorem write_put (bytes : Bytes) (now : Timestamp) : (put k bytes now).write k held = some bytes := if_pos rfl

@[simp] theorem write_remove : (remove k).write k held = none := if_pos rfl

@[simp] theorem revise_put (bytes : Bytes) (now : Timestamp) :
    (put k bytes now).revise k revs = revs ++ [⟨k, bytes, now.wholeMillis⟩] := if_pos rfl

@[simp] theorem revise_remove : (remove k).revise k revs = revs.tail := if_pos rfl

theorem write_of_ne (h : c.key ≠ k) : c.write k held = held := by
  cases c with
  | get _ => rfl
  | _ => exact if_neg h

theorem revise_of_ne (h : c.key ≠ k) : c.revise k revs = revs := by
  cases c with
  | get _ => rfl
  | _ => exact if_neg h

/-- Under one key a call puts something, removes something, or changes nothing. -/
theorem step_induction {P : Option Bytes → List Blob → Prop} (c : BlobCall) (key : String) (still : P held revs)
    (put : ∀ bytes now, c = .put key bytes now → P (some bytes) (revs ++ [⟨key, bytes, now.wholeMillis⟩]))
    (removed : c = .remove key → P none revs.tail) : P (c.write key held) (c.revise key revs) := by
  by_cases hk : c.key = key
  · subst hk
    cases c with
    | put k bytes now => exact write_put bytes now ▸ revise_put bytes now ▸ put bytes now rfl
    | get k => exact still
    | remove k => exact write_remove ▸ revise_remove ▸ removed rfl
  · rw [write_of_ne hk, revise_of_ne hk]
    exact still

end BlobCall

/-- The revisions under a key after several calls. -/
def revisions (key : String) (first : List Blob) (calls : List BlobCall) : List Blob :=
  calls.foldl (BlobCall.revise key) first

/-- A map from keys to bytes. -/
abbrev Holdings : Type := String → Option Bytes

namespace Holdings

def after (m : Holdings) (c : BlobCall) : Holdings := fun key => c.write key (m key)

def afterAll (m : Holdings) (calls : List BlobCall) : Holdings := calls.foldl after m

def answer (m : Holdings) : (c : BlobCall) → Except Failure c.call.Answer
  | .put _ _ _ => .ok ()
  | .get key =>
    match m key with
    | some bytes => .ok bytes
    | none => .error (Store.noBlob key)
  | .remove key => .ok (m key).isSome

/-- Whether every put is of a key under which the map holds nothing at the time. -/
def NeverPutOver (m : Holdings) : List BlobCall → Prop
  | [] => True
  | c :: calls => (c.isPut = true → m c.key = none) ∧ NeverPutOver (m.after c) calls

instance decidableNeverPutOver (m : Holdings) : (calls : List BlobCall) → Decidable (m.NeverPutOver calls)
  | [] => .isTrue trivial
  | c :: calls =>
    have := decidableNeverPutOver (m.after c) calls
    inferInstanceAs (Decidable ((c.isPut = true → m c.key = none) ∧ (m.after c).NeverPutOver calls))

end Holdings

/-- The map of what is read under each key. -/
def Store.holdings (s : Store) : Holdings := fun key => (s.blob? key).map Blob.bytes

namespace Backend

/-- The backend after calls to its blob store. -/
def served (b : Backend) (calls : List BlobCall) : Backend := calls.foldl (fun b c => (b.perform c.call).2) b

/-- Whether calls are answered as a map would answer them. -/
def Agrees (b : Backend) (m : Holdings) : List BlobCall → Prop
  | [] => True
  | c :: calls => (b.perform c.call).1 = m.answer c ∧ Agrees (b.perform c.call).2 (m.after c) calls

/-- How calls about a key are answered when it has these revisions. -/
structure Tells (b : Backend) (key : String) (revs : List Blob) : Prop where
  put : ∀ bytes now, (b.perform (.putBlob key bytes now)).1 = .ok ()
  get : revs = [] ∧ (b.perform (.getBlob key)).1 = .error (Store.noBlob key) ∨
    ∃ blob, Store.IsLatest blob revs ∧ (b.perform (.getBlob key)).1 = .ok blob.bytes
  remove : (b.perform (.removeBlob key)).1 = .ok (!revs.isEmpty)

end Backend

namespace Store

theorem under_eq_nil {s : Store} {key : String} :
    s.under key = [] ↔ ∀ b ∈ s.blobs, decide (b.key = key) = false := by
  simp [under, List.filter_eq_nil_iff]

theorem under_remove (s : Store) (k key : String) :
    (s.apply (.removeBlob k)).2.under key = if k = key then (s.under key).tail else s.under key := by
  cases hrest : Table.remove? (fun b => decide (b.key = k)) s.blobs with
  | none =>
    have hnone := under_eq_nil.mpr (Table.remove?_eq_none.mp hrest)
    simp only [apply, removeBlob?, hrest, Option.map_none]
    by_cases hk : k = key
    · rw [if_pos hk, ← hk, hnone, List.tail_nil]
    · rw [if_neg hk]
  | some rest =>
    simp only [apply, removeBlob?, hrest, Option.map_some, under]
    by_cases hk : k = key
    · rw [if_pos hk]
      exact hk ▸ Table.filter_remove?_self hrest
    · rw [if_neg hk]
      refine Table.filter_remove? (fun b hb => decide_eq_false fun he => hk ?_) hrest
      rw [← he, of_decide_eq_true hb]

theorem under_apply (s : Store) (c : BlobCall) (key : String) :
    (s.apply c.call).2.under key = c.revise key (s.under key) := by
  cases c with
  | put k bytes now =>
    by_cases hk : k = key <;> simp [apply, putBlob, under, BlobCall.revise, hk]
  | get k => exact congrArg (fun t => under t key) (apply_read (c := .getBlob k) rfl s)
  | remove k => exact s.under_remove k key

theorem answer_remove (s : Store) (key : String) :
    (s.apply (.removeBlob key)).1 = .ok (!(s.under key).isEmpty) := by
  cases hrest : Table.remove? (fun b => decide (b.key = key)) s.blobs with
  | none =>
    have hnone := under_eq_nil.mpr (Table.remove?_eq_none.mp hrest)
    simp [apply, removeBlob?, hrest, hnone]
  | some rest =>
    have hsome : s.under key ≠ [] := fun h => by
      rw [Table.remove?_eq_none.mpr (under_eq_nil.mp h)] at hrest
      cases hrest
    simp [apply, removeBlob?, hrest, hsome]

theorem answer_get (s : Store) (key : String) :
    s.under key = [] ∧ (s.apply (.getBlob key)).1 = .error (noBlob key) ∨
      ∃ blob, IsLatest blob (s.under key) ∧ (s.apply (.getBlob key)).1 = .ok blob.bytes := by
  have hblob : s.blob? key = latest (s.under key) := rfl
  cases hlatest : latest (s.under key) with
  | none => exact Or.inl ⟨latest_eq_none hlatest, by simp [apply, lookUp, hblob, hlatest]⟩
  | some blob => exact Or.inr ⟨blob, isLatest_of_latest hlatest, by simp [apply, lookUp, hblob, hlatest]⟩

end Store

namespace Backend

variable {b : Backend} {m : Holdings}

/-- Where nothing can go wrong a call is just carried out. -/
theorem perform_calm (calm : b.Allows .nothing) (c : Call) :
    (b.perform c).1 = (b.store.apply c).1 ∧ (b.perform c).2.store = (b.store.apply c).2 ∧
      (b.perform c).2.Allows .nothing := by
  obtain ⟨store, plan, armed, he, hallows, hanswers⟩ := perform_replies calm c
  obtain ⟨hanswer, hstore⟩ := hanswers.exact
  exact ⟨hanswer, by rw [he, ← hstore]; rfl, hallows⟩

theorem under_perform (calm : b.Allows .nothing) (c : BlobCall) (key : String) :
    (b.perform c.call).2.store.under key = c.revise key (b.store.under key) := by
  rw [(perform_calm calm c.call).2.1, Store.under_apply]

theorem tells (calm : b.Allows .nothing) (key : String) : b.Tells key (b.store.under key) := by
  have hcarried := fun c => (perform_calm calm c).1
  constructor
  · exact fun bytes now => hcarried (.putBlob key bytes now)
  · rw [hcarried]
    exact b.store.answer_get key
  · rw [hcarried]
    exact b.store.answer_remove key

theorem served_calm (calm : b.Allows .nothing) (calls : List BlobCall) : (b.served calls).Allows .nothing := by
  induction calls generalizing b with
  | nil => exact calm
  | cons c calls ih => exact ih (perform_calm calm c.call).2.2

theorem under_served (calm : b.Allows .nothing) (calls : List BlobCall) (key : String) :
    (b.served calls).store.under key = revisions key (b.store.under key) calls := by
  induction calls generalizing b with
  | nil => rfl
  | cons c calls ih =>
    have hstep := ih (perform_calm calm c.call).2.2
    rw [under_perform calm] at hstep
    exact hstep

end Backend

/-- Whether what a map holds is what was put last. -/
def Tops (held : Option Bytes) (revs : List Blob) : Prop :=
  ∀ bytes, held = some bytes → ∃ front last, revs = front ++ [last] ∧ last.bytes = bytes

/-- Whether the one revision, if any, is what a map holds. -/
def Mirrors (held : Option Bytes) (revs : List Blob) : Prop := revs.map Blob.bytes = held.toList

/-- Whether there are more revisions than a map holds. -/
def Outgrown (held : Option Bytes) (revs : List Blob) : Prop := held.toList.length < revs.length

section

variable {c : BlobCall} {key : String} {held : Option Bytes} {revs : List Blob}

theorem Tops.nil (h : Tops held []) : held = none := by
  cases held with
  | none => rfl
  | some bytes =>
    obtain ⟨front, last, hsplit, -⟩ := h bytes rfl
    simp at hsplit

theorem Mirrors.tops (h : Mirrors held revs) : Tops held revs := by
  rintro bytes rfl
  obtain ⟨last, rfl, hbytes⟩ := List.map_eq_singleton_iff.mp h
  exact ⟨[], last, rfl, hbytes⟩

theorem Mirrors.nil (h : Mirrors none revs) : revs = [] := List.map_eq_nil_iff.mp h

theorem Mirrors.inTime (h : Mirrors held revs) : Store.InTime revs := by
  cases held with
  | none => exact h.nil ▸ List.Pairwise.nil
  | some bytes =>
    obtain ⟨last, rfl, -⟩ := List.map_eq_singleton_iff.mp h
    exact List.pairwise_singleton _ _

/-- What is put last is on top, and a map holds nothing that was removed. -/
theorem Tops.step (h : Tops held revs) (c : BlobCall) : Tops (c.write key held) (c.revise key revs) := by
  refine BlobCall.step_induction c key h (fun bytes now _ => ?_) fun _ => ?_
  · rintro _ ⟨⟩
    exact ⟨revs, ⟨key, bytes, now.wholeMillis⟩, rfl, rfl⟩
  · rintro _ ⟨⟩

theorem Tops.afterAll {m : Holdings} (h : Tops (m key) revs) (calls : List BlobCall) :
    Tops (m.afterAll calls key) (revisions key revs calls) := by
  induction calls generalizing m revs with
  | nil => exact h
  | cons c calls ih => exact ih (h.step c)

theorem Mirrors.step (h : Mirrors held revs) (fresh : c.isPut = true → c.key = key → held = none) :
    Mirrors (c.write key held) (c.revise key revs) := by
  refine BlobCall.step_induction c key h ?put ?removed
  case put =>
    rintro bytes now rfl
    obtain rfl : held = none := fresh rfl rfl
    simp [Mirrors, h.nil]
  case removed =>
    intro _
    rw [Mirrors, List.map_tail, h]
    cases held <;> rfl

/-- A key that is put over has more revisions than a map holds. -/
theorem outgrown_of_put_over (put : c.isPut = true) (isHeld : held ≠ none) (h : Tops held revs) :
    Outgrown (c.write c.key held) (c.revise c.key revs) := by
  cases c with
  | put k bytes now =>
    have hsome : revs ≠ [] := by
      rintro rfl
      exact isHeld h.nil
    simpa [Outgrown, BlobCall.key] using List.length_pos_iff.mpr hsome
  | _ => cases put

end

theorem Store.mirrors_holdings {s : Store} (single : (s.blobs.map Blob.key).Nodup) (key : String) :
    Mirrors (s.holdings key) (s.under key) := by
  have hlength := length_under_le single key
  have hheld : s.holdings key = (latest (s.under key)).map Blob.bytes := rfl
  cases hunder : s.under key with
  | nil => rw [hheld, hunder]; rfl
  | cons blob rest =>
    obtain rfl : rest = [] := by
      rw [hunder, List.length_cons] at hlength
      exact List.eq_nil_of_length_eq_zero (by omega)
    rw [hheld, hunder]
    rfl

namespace Backend

variable {b : Backend} {m : Holdings} {c : BlobCall} {calls : List BlobCall} {key : String} {revs : List Blob}

theorem Tells.agrees_remove_iff (h : b.Tells key revs) :
    (b.perform (.removeBlob key)).1 = m.answer (.remove key) ↔ (revs = [] ↔ m key = none) := by
  rw [h.remove, Holdings.answer, Except.ok.injEq]
  cases revs <;> cases m key <;> simp

theorem Tells.agrees_get_iff (h : b.Tells key revs) (tops : Tops (m key) revs) (inTime : Store.InTime revs) :
    (b.perform (.getBlob key)).1 = m.answer (.get key) ↔ (m key = none → revs = []) := by
  rw [Holdings.answer]
  rcases h.get with ⟨rfl, hget⟩ | ⟨blob, hlatest, hget⟩
  · rw [hget, tops.nil]
    exact iff_of_true rfl fun _ => rfl
  · rw [hget]
    cases hm : m key with
    | none =>
      obtain ⟨front, back, rfl, -⟩ := hlatest
      simp
    | some bytes =>
      obtain ⟨front, last, rfl, rfl⟩ := tops bytes hm
      rw [hlatest.eq_of_inTime inTime]
      simp

/-- As long as revisions are stored one after another, only of a key that a map no longer has is told otherwise. -/
theorem Tells.agrees_iff (h : b.Tells c.key revs) (tops : Tops (m c.key) revs) (inTime : Store.InTime revs) :
    (b.perform c.call).1 = m.answer c ↔ c.isPut = true ∨ (m c.key = none → revs = []) := by
  cases c with
  | put k bytes now => exact iff_of_true (h.put bytes now) (Or.inl rfl)
  | get k =>
    simp only [BlobCall.isPut, Bool.false_eq_true, false_or]
    exact h.agrees_get_iff tops inTime
  | remove k =>
    have hnil : revs = [] → m k = none := by
      rintro rfl
      exact tops.nil
    simp only [BlobCall.isPut, Bool.false_eq_true, false_or]
    exact h.agrees_remove_iff.trans ⟨fun hiff => hiff.mpr, fun hknown => ⟨hnil, hknown⟩⟩

/-- As long as the answers are those of a map, there stay more revisions than it holds: only a removal could take them
away, and it would be answered otherwise. -/
theorem Tells.outgrown_step (h : b.Tells key revs) (outgrown : Outgrown (m key) revs)
    (agree : (b.perform c.call).1 = m.answer c) : Outgrown (m.after c key) (c.revise key revs) := by
  refine BlobCall.step_induction c key outgrown ?put ?removed
  case put =>
    intro bytes now _
    have hpos : 0 < revs.length := Nat.zero_lt_of_lt outgrown
    simpa [Outgrown] using hpos
  case removed =>
    rintro rfl
    have hiff := h.agrees_remove_iff.mp agree
    simp only [Outgrown, Option.toList_none, List.length_nil, List.length_tail] at outgrown ⊢
    cases hm : m key with
    | none =>
      rw [hiff.mpr hm] at outgrown
      cases outgrown
    | some bytes =>
      rw [hm, Option.toList_some, List.length_singleton] at outgrown
      omega

/-- Whatever is called before, two removals bring to light what a map does not hold. -/
theorem not_agrees_of_outgrown (calm : b.Allows .nothing) (outgrown : Outgrown (m key) (b.store.under key)) :
    ¬ b.Agrees m (calls ++ [.remove key, .remove key]) := by
  induction calls generalizing b m with
  | nil =>
    rintro ⟨hfirst, hsecond, -⟩
    have hleft := (tells calm key).outgrown_step outgrown hfirst
    rw [← under_perform calm] at hleft
    have hnone : m.after (.remove key) key = none := BlobCall.write_remove
    have hempty := ((tells (perform_calm calm _).2.2 key).agrees_remove_iff.mp hsecond).mpr hnone
    rw [hempty] at hleft
    cases hleft
  | cons c calls ih =>
    rintro ⟨hagree, hrest⟩
    have hstep := (tells calm key).outgrown_step outgrown hagree
    rw [← under_perform calm] at hstep
    exact ih (perform_calm calm c.call).2.2 hstep hrest

/-- A key that is never put over has no other revision than the one that a map holds. -/
theorem agrees_of_neverPutOver (calm : b.Allows .nothing) (mirrors : ∀ key, Mirrors (m key) (b.store.under key))
    (fresh : m.NeverPutOver calls) : b.Agrees m calls := by
  induction calls generalizing b m with
  | nil => trivial
  | cons c calls ih =>
    obtain ⟨hput, hfresh⟩ := fresh
    have hmirrors := mirrors c.key
    have hknown : m c.key = none → b.store.under c.key = [] := fun hnone => (hnone ▸ hmirrors).nil
    refine ⟨((tells calm c.key).agrees_iff hmirrors.tops hmirrors.inTime).mpr (Or.inr hknown), ?_⟩
    refine ih (perform_calm calm c.call).2.2 (fun key => ?_) hfresh
    rw [under_perform calm]
    exact (mirrors key).step fun hc hk => hk ▸ hput hc

/-- Once a key has been put over, two more removals of it are one too many for a map. -/
theorem disagrees_of_put_over (calm : b.Allows .nothing) (tops : ∀ key, Tops (m key) (b.store.under key))
    (putOver : ¬ m.NeverPutOver calls) : ∃ key, ¬ b.Agrees m (calls ++ [.remove key, .remove key]) := by
  -- on the calls up to the first put over; from there on the revisions of its key exceed what the map holds
  induction calls generalizing b m with
  | nil => exact absurd trivial putOver
  | cons c calls ih =>
    have hcalm := (perform_calm calm c.call).2.2
    by_cases hput : c.isPut = true → m c.key = none
    · have htops : ∀ key, Tops (m.after c key) ((b.perform c.call).2.store.under key) := fun key => by
        rw [under_perform calm]
        exact (tops key).step c
      obtain ⟨key, hkey⟩ := ih hcalm htops fun hfresh => putOver ⟨hput, hfresh⟩
      exact ⟨key, fun h => hkey h.2⟩
    · obtain ⟨hc, hheld⟩ := Classical.not_imp.mp hput
      have houtgrown := outgrown_of_put_over hc hheld (tops c.key)
      rw [← under_perform calm] at houtgrown
      exact ⟨c.key, fun h => not_agrees_of_outgrown hcalm houtgrown h.2⟩

/-- Every call to the blob store is answered by the revisions that the calls before it have left under its key.  As long
as no key is put over, this is how a map from keys to bytes answers; once one is, two more removals of a key tell the
difference.  Where the revisions of a key were stored one after another, the difference shows exactly when the map has
nothing under the key and there are still revisions of it. -/
theorem blobs_answer_as_map_unless_put_over (b : Backend) (calm : b.Allows .nothing)
    (single : (b.store.blobs.map Blob.key).Nodup) :
    let m := b.store.holdings
    (∀ calls key, (b.served calls).Tells key (revisions key (b.store.under key) calls)) ∧
      (∀ calls, m.NeverPutOver calls → b.Agrees m calls) ∧
      (∀ calls, ¬ m.NeverPutOver calls → ∃ key, ¬ b.Agrees m (calls ++ [.remove key, .remove key])) ∧
      ∀ calls c, Store.InTime (revisions c.key (b.store.under c.key) calls) →
        (((b.served calls).perform c.call).1 = (m.afterAll calls).answer c ↔
          c.isPut = true ∨ (m.afterAll calls c.key = none → revisions c.key (b.store.under c.key) calls = [])) := by
  intro m
  have hmirrors : ∀ key, Mirrors (m key) (b.store.under key) := Store.mirrors_holdings single
  have htells : ∀ calls key, (b.served calls).Tells key (revisions key (b.store.under key) calls) := by
    intro calls key
    rw [← under_served calm]
    exact tells (served_calm calm calls) key
  refine ⟨htells, fun calls => agrees_of_neverPutOver calm hmirrors,
    fun calls => disagrees_of_put_over calm fun key => (hmirrors key).tops, fun calls c inTime => ?_⟩
  exact (htells calls c.key).agrees_iff ((hmirrors c.key).tops.afterAll calls) inTime

/-- A key that is put, removed and put again. -/
def samplePuts : List BlobCall :=
  [.put "k" [1] .epoch, .get "k", .remove "k", .remove "k", .get "k", .put "k" [2] .epoch, .get "k"]

/-- A key that is put over. -/
def samplePutOver : List BlobCall := [.put "k" [1] (.ofUnix 0), .put "k" [2] (.ofUnix 1)]

/-- Beside the blob of an upload, with a key that is put over and read before it is removed. -/
theorem blobs_answer_as_map_unless_put_over_sample :
    let b := History.sample.backend
    b.Allows .nothing ∧ (b.store.blobs.map Blob.key).Nodup ∧
      b.store.holdings.NeverPutOver samplePuts ∧ b.Agrees b.store.holdings samplePuts ∧
      ¬ b.store.holdings.NeverPutOver samplePutOver ∧
      (∃ key, ¬ b.Agrees b.store.holdings (samplePutOver ++ [.remove key, .remove key])) ∧
      Store.InTime (revisions "k" (b.store.under "k") samplePutOver) ∧
      ((b.served samplePutOver).perform (.getBlob "k")).1 = .ok [2] := by
  intro b
  have calm : b.Allows .nothing := History.sample_allows .nothing
  have single : (b.store.blobs.map Blob.key).Nodup := by decide +kernel
  have fresh : b.store.holdings.NeverPutOver samplePuts := by decide +kernel
  have putOver : ¬ b.store.holdings.NeverPutOver samplePutOver := by decide +kernel
  have inTime : Store.InTime (revisions "k" (b.store.under "k") samplePutOver) := by
    unfold Store.InTime
    decide +kernel
  have held : b.store.holdings.afterAll samplePutOver "k" = some [2] := by decide +kernel
  obtain ⟨-, hfresh, hover, hinTime⟩ := blobs_answer_as_map_unless_put_over b calm single
  refine ⟨calm, single, fresh, hfresh _ fresh, putOver, hover _ putOver, inTime, ?_⟩
  have hread := (hinTime samplePutOver (.get "k") inTime).mpr (Or.inr fun hnone => by
    rw [BlobCall.key, held] at hnone
    cases hnone)
  rwa [Holdings.answer, held] at hread

/-- Not every run of calls is answered as a map would answer it: of two blobs under a key only the first is removed, so
that the other can still be read and removed.  Where both were stored at one time, the first is read and not the
last. -/
theorem blob_put_over_comes_back :
    let b := Backend.start .numbered .numbered []
    (¬ ∀ b : Backend, b.Allows .nothing → b.store.blobs = [] → ∀ calls, b.Agrees b.store.holdings calls) ∧
      ((b.served (samplePutOver ++ [.remove "k"])).perform (.getBlob "k")).1 = .ok [2] ∧
      ((b.served (samplePutOver ++ [.remove "k"])).perform (.removeBlob "k")).1 = .ok true ∧
      ((b.served [.put "k" [1] .epoch, .put "k" [2] .epoch]).perform (.getBlob "k")).1 = .ok [1] := by
  intro b
  have hremoved : ((b.served (samplePutOver ++ [.remove "k"])).perform (.removeBlob "k")).1 = .ok true := by
    decide +kernel
  refine ⟨fun h => ?_, by decide +kernel, hremoved, by decide +kernel⟩
  have calm : b.Allows .nothing := ⟨List.forall_mem_nil _, List.forall_mem_nil _⟩
  obtain ⟨-, -, -, hsecond, -⟩ := h b calm rfl (samplePutOver ++ [.remove "k", .remove "k"])
  have hclash : (Except.ok true : Except Failure Bool) = .ok false := hremoved.symm.trans hsecond
  cases hclash

end Backend

end Coursework
