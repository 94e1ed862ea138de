import Coursework.Proofs.Calls
import Coursework.Proofs.Integrity

/-!
# Orphans

A row is added after its parent has been seen, and a parent is removed after it was found without rows; nothing holds
the two apart.  A row whose parent is gone can therefore come about, but only where an addition and a deletion overlap:
the parent was seen before it was removed, and it was found without rows before the row was there.
-/
namespace Coursework

/-- The kinds of rows that belong to parents. -/
inductive Tier
  | chapters
  | lessons
  | attachments
  deriving DecidableEq

/-- What a call finds out or does about parents and their rows. -/
inductive Deed
  | seen (parent : String)
  | childless (parent : String)
  | added (child parent : String)
  | removed (parent : String)
  deriving DecidableEq

namespace Tier

def parents (s : Store) : Tier → List String
  | chapters => s.courses.map Course.id
  | lessons => s.chapters.map Chapter.id
  | attachments => s.lessons.map Lesson.id

/-- The rows of a tier with the parents that they name. -/
def links (s : Store) : Tier → List (String × String)
  | chapters => s.chapters.map fun c => (c.id, c.courseId)
  | lessons => s.lessons.map fun l => (l.id, l.chapterId)
  | attachments => s.attachments.map fun a => (a.id, a.lessonId)

/-- Whether every row of a tier has its parent. -/
def Whole (s : Store) (tier : Tier) : Prop := ∀ child parent, (child, parent) ∈ tier.links s → parent ∈ tier.parents s

def deed? : Tier → Exchange → Option Deed
  | chapters, ⟨.hasCourse id, .ok true⟩ => some (.seen id)
  | chapters, ⟨.countChapters id, .ok (0 : Nat)⟩ => some (.childless id)
  | chapters, ⟨.addChapter row, .ok _⟩ => some (.added row.id row.courseId)
  | chapters, ⟨.removeCourse id, .ok _⟩ => some (.removed id)
  | lessons, ⟨.hasChapter id, .ok true⟩ => some (.seen id)
  | lessons, ⟨.countLessons id, .ok (0 : Nat)⟩ => some (.childless id)
  | lessons, ⟨.addLesson row, .ok _⟩ => some (.added row.id row.chapterId)
  | lessons, ⟨.removeChapter id, .ok _⟩ => some (.removed id)
  | attachments, ⟨.findLesson id, .ok _⟩ => some (.seen id)
  | attachments, ⟨.countAttachments id, .ok (0 : Nat)⟩ => some (.childless id)
  | attachments, ⟨.addAttachment row, .ok _⟩ => some (.added row.id row.lessonId)
  | attachments, ⟨.removeLesson id, .ok _⟩ => some (.removed id)
  | _, _ => none

/-- The deeds of a log, each with the place of the operation that it is of. -/
def deeds (tier : Tier) (log : List (Nat × Exchange)) : List (Nat × Deed) :=
  log.filterMap fun (i, e) => (tier.deed? e).map fun deed => (i, deed)

/-- The parent under which an operation adds a row. -/
def addsUnder? : Tier → Operation → Option String
  | chapters, .addChapter courseId _ => some courseId
  | lessons, .addLesson chapterId _ => some chapterId
  | attachments, .upload lessonId _ _ => some lessonId
  | _, _ => none

/-- The parent that an operation deletes. -/
def deletes? : Tier → Operation → Option String
  | chapters, .deleteCourse id => some id
  | lessons, .deleteChapter id => some id
  | attachments, .deleteLesson id => some id
  | _, _ => none

variable {tier : Tier} {m : Mishaps} {s t : Store}

/-- What a deed tells about the store before it and the store after it. -/
structure Moves (tier : Tier) (s t : Store) (deed : Option Deed) : Prop where
  parents : ∀ p ∈ tier.parents s, p ∈ tier.parents t ∨ deed = some (.removed p)
  links : ∀ x p, (x, p) ∈ tier.links t → (x, p) ∈ tier.links s ∨ deed = some (.added x p)
  seen : ∀ p, deed = some (.seen p) → p ∈ tier.parents s
  childless : ∀ p, deed = some (.childless p) → ∀ x, (x, p) ∉ tier.links s

/-- New parents and lost rows make no orphans. -/
theorem moves_unharmed (hparents : tier.parents s ⊆ tier.parents t) (hlinks : tier.links t ⊆ tier.links s) :
    tier.Moves s t none where
  parents p hp := Or.inl (hparents hp)
  links x p hx := Or.inl (hlinks hx)
  seen p h := by cases h
  childless p h := by cases h

theorem moves_still (hparents : tier.parents t = tier.parents s) (hlinks : tier.links t = tier.links s) :
    tier.Moves s t none :=
  moves_unharmed (hparents ▸ List.Subset.refl _) (hlinks ▸ List.Subset.refl _)

theorem moves_seen {p : String} (h : p ∈ tier.parents s) : tier.Moves s s (some (.seen p)) where
  parents p hp := Or.inl hp
  links x p hx := Or.inl hx
  seen p h := by cases h; assumption
  childless p h := by cases h

theorem moves_childless {p : String} (h : ∀ x, (x, p) ∉ tier.links s) : tier.Moves s s (some (.childless p)) where
  parents p hp := Or.inl hp
  links x p hx := Or.inl hx
  seen p h := by cases h
  childless p h := by cases h; assumption

theorem moves_added {x p : String} (hparents : tier.parents t = tier.parents s)
    (hlinks : tier.links t = tier.links s ++ [(x, p)]) : tier.Moves s t (some (.added x p)) where
  parents p hp := Or.inl (hparents ▸ hp)
  links y q hy := by
    rw [hlinks, List.mem_append, List.mem_singleton] at hy
    exact hy.imp_right fun h => by cases h; rfl
  seen p h := by cases h
  childless p h := by cases h

theorem moves_removed {p : String} (hparents : ∀ q ∈ tier.parents s, q ≠ p → q ∈ tier.parents t)
    (hlinks : tier.links t ⊆ tier.links s) : tier.Moves s t (some (.removed p)) where
  parents q hq := by
    by_cases hp : q = p
    · exact Or.inr (hp ▸ rfl)
    · exact Or.inl (hparents q hq hp)
  links x p hx := Or.inl (hlinks hx)
  seen p h := by cases h
  childless p h := by cases h

theorem deed?_error (tier : Tier) (c : Call) (e : Failure) : tier.deed? ⟨c, .error e⟩ = none := by
  cases tier <;> cases c <;> rfl

theorem moves_of_asked {p : String} {known : Bool} (h : known = true → p ∈ tier.parents s) :
    tier.Moves s s (if known then some (.seen p) else none) := by
  cases known with
  | true => exact moves_seen (h rfl)
  | false => exact moves_still rfl rfl

theorem moves_of_counted {α : Type} {p : String} {rows : List α} {key parent : α → String}
    (hlinks : tier.links s = rows.map fun x => (key x, parent x)) :
    tier.Moves s s (if rows.countP (fun x => parent x = p) = 0 then some (.childless p) else none) := by
  split
  · rename_i hzero
    refine moves_childless fun x hx => ?_
    rw [hlinks] at hx
    obtain ⟨row, hrow, he⟩ := List.mem_map.mp hx
    cases he
    exact List.countP_eq_zero.mp hzero row hrow (decide_eq_true rfl)
  · exact moves_still rfl rfl

section

variable (id : String) (known : Bool) (n : Nat)

theorem deed?_hasCourse : chapters.deed? ⟨.hasCourse id, .ok known⟩ = if known then some (.seen id) else none := by
  cases known <;> rfl

theorem deed?_countChapters :
    chapters.deed? ⟨.countChapters id, .ok n⟩ = if n = 0 then some (.childless id) else none := by
  cases n <;> rfl

theorem deed?_hasChapter : lessons.deed? ⟨.hasChapter id, .ok known⟩ = if known then some (.seen id) else none := by
  cases known <;> rfl

theorem deed?_countLessons :
    lessons.deed? ⟨.countLessons id, .ok n⟩ = if n = 0 then some (.childless id) else none := by
  cases n <;> rfl

theorem deed?_countAttachments :
    attachments.deed? ⟨.countAttachments id, .ok n⟩ = if n = 0 then some (.childless id) else none := by
  cases n <;> rfl

end

theorem findLesson_moves (id : String) :
    attachments.Moves s s (attachments.deed? ⟨.findLesson id, (s.apply (.findLesson id)).1⟩) := by
  cases hl : s.lesson? id with
  | none =>
    simp only [Store.apply, Store.lookUp, hl]
    exact moves_still rfl rfl
  | some lesson =>
    simp only [Store.apply, Store.lookUp, hl]
    exact moves_seen (Store.mem_ids_of_find? (Option.isSome_iff_exists.mpr ⟨lesson, hl⟩))

/-- What a look into the store finds is there. -/
theorem read_moves {c : Call} (hc : c.isRead = true) : tier.Moves s s (tier.deed? ⟨c, (s.apply c).1⟩) := by
  cases tier with
  | chapters =>
    cases c with
    | hasCourse id => exact deed?_hasCourse id _ ▸ moves_of_asked Store.mem_ids_of_find?
    | countChapters id => exact deed?_countChapters id _ ▸ moves_of_counted rfl
    | _ => first | exact moves_still rfl rfl | cases hc
  | lessons =>
    cases c with
    | hasChapter id => exact deed?_hasChapter id _ ▸ moves_of_asked Store.mem_ids_of_find?
    | countLessons id => exact deed?_countLessons id _ ▸ moves_of_counted rfl
    | _ => first | exact moves_still rfl rfl | cases hc
  | attachments =>
    cases c with
    | findLesson id => exact findLesson_moves id
    | countAttachments id => exact deed?_countAttachments id _ ▸ moves_of_counted rfl
    | _ => first | exact moves_still rfl rfl | cases hc

/-- Every call moves a tier as its deed says. -/
theorem effect_moves {c : Call} {r : Except Failure c.Answer} (h : s.Effect m c r t) :
    tier.Moves s t (tier.deed? ⟨c, r⟩) := by
  cases h with
  | failed c e _ => exact deed?_error tier c e ▸ moves_still rfl rfl
  | read hc => exact read_moves hc
  | addedCourse _ =>
    cases tier with
    | chapters => exact moves_unharmed (by simp [parents]) (List.Subset.refl _)
    | _ => exact moves_still rfl rfl
  | replacedCourse replaced =>
    cases tier with
    | chapters => exact moves_still (Table.map_modify? replaced fun c hc => (of_decide_eq_true hc).symm) rfl
    | _ => exact moves_still rfl rfl
  | removedCourse removed =>
    cases tier with
    | chapters => exact moves_removed (fun q hq hne => Table.mem_map_remove? hne removed hq) (List.Subset.refl _)
    | _ => exact moves_still rfl rfl
  | addedChapter _ =>
    cases tier with
    | chapters => exact moves_added rfl (by simp [links])
    | lessons => exact moves_unharmed (by simp [parents]) (List.Subset.refl _)
    | attachments => exact moves_still rfl rfl
  | orderedChapter changed =>
    cases tier with
    | chapters => exact moves_still rfl (Table.map_modify? changed fun _ _ => rfl)
    | lessons => exact moves_still (Table.map_modify? changed fun _ _ => rfl) rfl
    | attachments => exact moves_still rfl rfl
  | removedChapter removed =>
    cases tier with
    | chapters => exact moves_unharmed (List.Subset.refl _) ((Table.remove?_sublist removed).map _).subset
    | lessons => exact moves_removed (fun q hq hne => Table.mem_map_remove? hne removed hq) (List.Subset.refl _)
    | attachments => exact moves_still rfl rfl
  | addedLesson _ =>
    cases tier with
    | chapters => exact moves_still rfl rfl
    | lessons => exact moves_added rfl (by simp [links])
    | attachments => exact moves_unharmed (by simp [parents]) (List.Subset.refl _)
  | filledLesson changed | orderedLesson changed =>
    cases tier with
    | chapters => exact moves_still rfl rfl
    | lessons => exact moves_still rfl (Table.map_modify? changed fun _ _ => rfl)
    | attachments => exact moves_still (Table.map_modify? changed fun _ _ => rfl) rfl
  | removedLesson removed =>
    cases tier with
    | chapters => exact moves_still rfl rfl
    | lessons => exact moves_unharmed (List.Subset.refl _) ((Table.remove?_sublist removed).map _).subset
    | attachments => exact moves_removed (fun q hq hne => Table.mem_map_remove? hne removed hq) (List.Subset.refl _)
  | addedAttachment _ =>
    cases tier with
    | attachments => exact moves_added rfl (by simp [links])
    | _ => exact moves_still rfl rfl
  | removedAttachment removed =>
    cases tier with
    | attachments => exact moves_unharmed (List.Subset.refl _) ((Table.remove?_sublist removed).map _).subset
    | _ => exact moves_still rfl rfl
  | sought | unsought | granted | grantedBefore | put | cleared => cases tier <;> exact moves_still rfl rfl

variable {now : Timestamp} {op : Operation} {past : List Exchange} {c : Call} {r : Except Failure c.Answer}
  {x p : String}

theorem deed?_eq_added (h : tier.deed? ⟨c, r⟩ = some (.added x p)) :
    (∃ row, tier = chapters ∧ c = .addChapter row ∧ row.courseId = p) ∨
      (∃ row, tier = lessons ∧ c = .addLesson row ∧ row.chapterId = p) ∨
        ∃ row, tier = attachments ∧ c = .addAttachment row ∧ row.lessonId = p := by
  unfold deed? at h
  split at h <;> simp_all

theorem deed?_eq_removed (h : tier.deed? ⟨c, r⟩ = some (.removed p)) :
    tier = chapters ∧ c = .removeCourse p ∨ tier = lessons ∧ c = .removeChapter p ∨
      tier = attachments ∧ c = .removeLesson p := by
  unfold deed? at h
  split at h <;> simp_all

/-- A row is added by an operation that has seen the parent. -/
theorem adds_after_seeing (h : Operation.MayCall now op past c) (hdeed : tier.deed? ⟨c, r⟩ = some (.added x p)) :
    tier.addsUnder? op = some p ∧ ∃ e ∈ past, tier.deed? e = some (.seen p) := by
  rcases deed?_eq_added hdeed with ⟨row, rfl, rfl, rfl⟩ | ⟨row, rfl, rfl, rfl⟩ | ⟨row, rfl, rfl, rfl⟩
  · cases h with
    | read h => cases h
    | addChapter id parent => exact ⟨rfl, _, parent, rfl⟩
  · cases h with
    | read h => cases h
    | addLesson id parent => exact ⟨rfl, _, parent, rfl⟩
  · cases h with
    | read h => cases h
    | addAttachment id name key lesson parent => exact ⟨rfl, _, parent, rfl⟩

/-- A parent is removed by an operation that has found it without rows. -/
theorem removes_after_counting (h : Operation.MayCall now op past c) (hdeed : tier.deed? ⟨c, r⟩ = some (.removed p)) :
    tier.deletes? op = some p ∧ ∃ e ∈ past, tier.deed? e = some (.childless p) := by
  rcases deed?_eq_removed hdeed with ⟨rfl, rfl⟩ | ⟨rfl, rfl⟩ | ⟨rfl, rfl⟩
  · cases h with
    | read h => cases h
    | removeCourse childless => exact ⟨rfl, _, childless, rfl⟩
  · cases h with
    | read h => cases h
    | removeChapter childless => exact ⟨rfl, _, childless, rfl⟩
  · cases h with
    | read h => cases h
    | removeLesson childless => exact ⟨rfl, _, childless, rfl⟩

/-- The operation at a place adds a row under a parent. -/
def Adds (tier : Tier) (requests : List (Timestamp × Operation)) (i : Nat) (parent : String) : Prop :=
  ∃ now op, requests[i]? = some (now, op) ∧ tier.addsUnder? op = some parent

/-- The operation at a place deletes a parent. -/
def Deletes (tier : Tier) (requests : List (Timestamp × Operation)) (j : Nat) (parent : String) : Prop :=
  ∃ now op, requests[j]? = some (now, op) ∧ tier.deletes? op = some parent

/-- An addition and a deletion of its parent have overlapped: the one saw the parent before the other removed it, and
the other found the parent without rows before the one added its row. -/
structure Race (tier : Tier) (requests : List (Timestamp × Operation)) (deeds : List (Nat × Deed)) (i j : Nat)
    (child parent : String) : Prop where
  adds : tier.Adds requests i parent
  deletes : tier.Deletes requests j parent
  seenBeforeRemoved : [(i, Deed.seen parent), (j, .removed parent)].Sublist deeds
  countedBeforeAdded : [(j, Deed.childless parent), (i, .added child parent)].Sublist deeds

variable {requests : List (Timestamp × Operation)} {ds ds' : List (Nat × Deed)} {i j : Nat}

theorem Race.append (h : tier.Race requests ds i j x p) (ds' : List (Nat × Deed)) :
    tier.Race requests (ds ++ ds') i j x p :=
  { h with
    seenBeforeRemoved := h.seenBeforeRemoved.trans (List.sublist_append_left ds ds')
    countedBeforeAdded := h.countedBeforeAdded.trans (List.sublist_append_left ds ds') }

/-- What the deeds so far tell about the store, and about those whose they are. -/
structure Accounted (tier : Tier) (requests : List (Timestamp × Operation)) (ds : List (Nat × Deed)) (s : Store) :
    Prop where
  /-- A parent that was seen is there, unless it was removed since. -/
  seen : ∀ i p, (i, .seen p) ∈ ds → p ∈ tier.parents s ∨ ∃ j, [(i, Deed.seen p), (j, .removed p)].Sublist ds
  /-- The rows of a parent that was found without any were added since. -/
  childless : ∀ j p, (j, .childless p) ∈ ds → ∀ x, (x, p) ∈ tier.links s →
    ∃ i, [(j, Deed.childless p), (i, .added x p)].Sublist ds
  added : ∀ i x p, (i, .added x p) ∈ ds → (i, .seen p) ∈ ds ∧ tier.Adds requests i p
  removed : ∀ j p, (j, .removed p) ∈ ds → (j, .childless p) ∈ ds ∧ tier.Deletes requests j p
  orphans : ∀ x p, (x, p) ∈ tier.links s → p ∉ tier.parents s → ∃ i j, tier.Race requests ds i j x p

theorem pair_sublist_of_mem {α : Type} {a b : α} {l : List α} (h : a ∈ l) : [a, b].Sublist (l ++ [b]) :=
  (List.singleton_sublist.mpr h).append (List.Sublist.refl [b])

/-- The deeds after a call. -/
def noting (i : Nat) (deed : Option Deed) (ds : List (Nat × Deed)) : List (Nat × Deed) :=
  ds ++ (deed.map fun d => (i, d)).toList

theorem mem_noting {deed : Option Deed} {d : Deed} :
    (j, d) ∈ noting i deed ds ↔ (j, d) ∈ ds ∨ j = i ∧ deed = some d := by
  cases deed <;> simp [noting, eq_comm]

theorem Accounted.step {deed : Option Deed} (h : tier.Accounted requests ds s) (hm : tier.Moves s t deed)
    (adds : ∀ x p, deed = some (.added x p) → (i, .seen p) ∈ ds ∧ tier.Adds requests i p)
    (removes : ∀ p, deed = some (.removed p) → (i, .childless p) ∈ ds ∧ tier.Deletes requests i p) :
    tier.Accounted requests (noting i deed ds) t := by
  have kept : ds.Sublist (noting i deed ds) := List.sublist_append_left ds _
  constructor
  case seen =>
    intro k p hseen
    rcases mem_noting.mp hseen with hold | ⟨rfl, rfl⟩
    · rcases h.seen k p hold with hp | ⟨j, hj⟩
      · rcases hm.parents p hp with hp | rfl
        · exact Or.inl hp
        · exact Or.inr ⟨i, pair_sublist_of_mem hold⟩
      · exact Or.inr ⟨j, hj.trans kept⟩
    · exact (hm.parents p (hm.seen p rfl)).imp_right fun hremoved => by cases hremoved
  case childless =>
    intro j p hcounted x hx
    rcases mem_noting.mp hcounted with hold | ⟨rfl, rfl⟩
    · rcases hm.links x p hx with hx | rfl
      · obtain ⟨k, hk⟩ := h.childless j p hold x hx
        exact ⟨k, hk.trans kept⟩
      · exact ⟨i, pair_sublist_of_mem hold⟩
    · rcases hm.links x p hx with hx | hadded
      · exact absurd hx (hm.childless p rfl x)
      · cases hadded
  case added =>
    intro k x p hadded
    rcases mem_noting.mp hadded with hold | ⟨rfl, hnew⟩
    · exact (h.added k x p hold).imp_left fun hseen => kept.subset hseen
    · exact (adds x p hnew).imp_left fun hseen => kept.subset hseen
  case removed =>
    intro j p hremoved
    rcases mem_noting.mp hremoved with hold | ⟨rfl, hnew⟩
    · exact (h.removed j p hold).imp_left fun hcounted => kept.subset hcounted
    · exact (removes p hnew).imp_left fun hcounted => kept.subset hcounted
  case orphans =>
    intro x p hx hp
    -- the row is left by a removal just now, was left before, or comes too late
    rcases hm.links x p hx with hx | rfl
    · by_cases hparent : p ∈ tier.parents s
      · obtain rfl := (hm.parents p hparent).resolve_left hp
        obtain ⟨hcounted, hdeletes⟩ := removes p rfl
        obtain ⟨k, hk⟩ := h.childless i p hcounted x hx
        obtain ⟨hseen, hadds⟩ := h.added k x p (hk.subset (by simp))
        exact ⟨k, i, hadds, hdeletes, pair_sublist_of_mem hseen, hk.trans kept⟩
      · obtain ⟨k, j, hrace⟩ := h.orphans x p hx hparent
        exact ⟨k, j, hrace.append _⟩
    · obtain ⟨hseen, hadds⟩ := adds x p rfl
      have hgone : p ∉ tier.parents s := fun hparent => by
        cases (hm.parents p hparent).resolve_left hp
      obtain ⟨j, hj⟩ := (h.seen i p hseen).resolve_left hgone
      obtain ⟨hcounted, hdeletes⟩ := h.removed j p (hj.subset (by simp))
      exact ⟨i, j, hadds, hdeletes, hj.trans kept, pair_sublist_of_mem hcounted⟩

theorem deeds_append (tier : Tier) (log : List (Nat × Exchange)) (i : Nat) (e : Exchange) :
    tier.deeds (log ++ [(i, e)]) = noting i (tier.deed? e) (tier.deeds log) := by
  rw [deeds, List.filterMap_append, noting]
  cases h : tier.deed? e <;> simp [deeds, h]

theorem mem_deeds_of_own {log : List (Nat × Exchange)} {e : Exchange} {d : Deed} (he : e ∈ Traffic.own i log)
    (hd : tier.deed? e = some d) : (i, d) ∈ tier.deeds log :=
  List.mem_filterMap.mpr ⟨(i, e), Traffic.mem_own.mp he, by simp [hd]⟩

theorem accounted_start (whole : tier.Whole s) (requests : List (Timestamp × Operation)) :
    tier.Accounted requests [] s where
  seen _ _ h := by cases h
  childless _ _ h := by cases h
  added _ _ _ h := by cases h
  removed _ _ h := by cases h
  orphans x p hx hp := absurd (whole x p hx) hp

/-- A call that an operation may make keeps the account. -/
theorem Accounted.call {log : List (Nat × Exchange)} (h : tier.Accounted requests (tier.deeds log) s)
    (hrequest : requests[i]? = some (now, op)) (hmay : Operation.MayCall now op (Traffic.own i log) c)
    (heffect : s.Effect m c r t) : tier.Accounted requests (tier.deeds (log ++ [(i, ⟨c, r⟩)])) t := by
  rw [deeds_append]
  refine h.step (effect_moves heffect) (fun x p hdeed => ?_) fun p hdeed => ?_
  · obtain ⟨hop, e, he, hseen⟩ := adds_after_seeing hmay hdeed
    exact ⟨mem_deeds_of_own he hseen, now, op, hrequest, hop⟩
  · obtain ⟨hop, e, he, hcounted⟩ := removes_after_counting hmay hdeed
    exact ⟨mem_deeds_of_own he hcounted, now, op, hrequest, hop⟩

/-- Whatever operations meet, from a store without orphans, and whatever fails: a row without its parent comes from an
addition and a deletion of the parent that have overlapped. -/
theorem orphans_come_from_races (b : Backend) (requests : List (Timestamp × Operation)) (schedule : List Nat)
    (tier : Tier) (whole : tier.Whole b.store) :
    let t := (Traffic.start b requests).run schedule
    ∀ child parent, (child, parent) ∈ tier.links t.store → parent ∉ tier.parents t.store →
      ∃ i j, tier.Race requests (tier.deeds t.log) i j child parent := by
  have hend := Traffic.run_calls (P := fun log s => tier.Accounted requests (tier.deeds log) s) requests
    b.allows_anything (accounted_start whole requests)
    (fun _ _ _ _ _ _ _ _ hrequest hmay hanswer h => h.call hrequest hmay hanswer.effect) schedule
  exact hend.orphans

/-- A store with one course. -/
def sampleBackend : Backend :=
  { Backend.start .numbered .numbered [] with
    store := { Store.empty with courses := [⟨"c", "Go 101", "", .epoch, .epoch⟩] } }

def sampleRequests : List (Timestamp × Operation) :=
  [(.epoch, .addChapter "c" ⟨"Intro", "", 1, none⟩), (.epoch, .deleteCourse "c")]

/-- The course is deleted between the look at it and the addition of the chapter. -/
def sampleSchedule : List Nat := [0, 1, 1, 1, 0, 0]

theorem sampleBackend_whole (tier : Tier) : tier.Whole sampleBackend.store := by
  intro child parent h
  cases tier <;> cases h

theorem orphans_come_from_races_sample :
    ∃ i j, chapters.Race sampleRequests
      (chapters.deeds ((Traffic.start sampleBackend sampleRequests).run sampleSchedule).log) i j
      (Uuid.numbered 0).text "c" :=
  orphans_come_from_races sampleBackend sampleRequests sampleSchedule chapters (sampleBackend_whole chapters)
    (Uuid.numbered 0).text "c" (by decide +kernel) (by decide +kernel)

/-- Not every run of additions and deletions that all come to their end leaves a store without orphans. -/
theorem additions_and_deletions_leave_orphan :
    ¬ ∀ (b : Backend) (requests : List (Timestamp × Operation)) (schedule : List Nat),
      (∀ tier : Tier, tier.Whole b.store) →
      (∀ request ∈ requests, ∃ tier : Tier, (tier.addsUnder? request.2).isSome = true ∨
        (tier.deletes? request.2).isSome = true) →
      ((Traffic.start b requests).run schedule).isFinished = true →
      ∀ tier : Tier, tier.Whole ((Traffic.start b requests).run schedule).store := by
  intro h
  have hfinished : ((Traffic.start sampleBackend sampleRequests).run sampleSchedule).isFinished = true := by
    decide +kernel
  have hkinds : ∀ request ∈ sampleRequests, ∃ tier : Tier, (tier.addsUnder? request.2).isSome = true ∨
      (tier.deletes? request.2).isSome = true := by
    intro request hrequest
    refine ⟨chapters, ?_⟩
    revert request
    decide +kernel
  have hwhole := h sampleBackend sampleRequests sampleSchedule sampleBackend_whole hkinds hfinished chapters
    (Uuid.numbered 0).text "c" (by decide +kernel)
  revert hwhole
  decide +kernel

end Tier

end Coursework
