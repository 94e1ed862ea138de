import Coursework.Proofs.Gates
import Coursework.Proofs.Files
import Coursework.Proofs.Reordering

/-!
# Spellings of identifiers

An identifier in a path may be spelled in any of the accepted ways, and counts as the identifier.  One in a body counts
as the text that it is: it names a row only if it is the canonical text of the row's identifier, and any other spelling
of it is refused where it should match the path, and passed over where it stands in a list.
-/
namespace Coursework

open Program

namespace Uuid

theorem bare?_digits (u : Uuid) : bare? (u.digits.map digitChar) = some u := by
  have hdigits : ∀ ds : List (Fin 16), (ds.map digitChar).mapM digit? = some ds := by
    intro ds
    induction ds with
    | nil => rfl
    | cons d ds ih => simp [digit?_digitChar, ih]
  simp [bare?, hdigits, ofDigits?, u.length_digits]

/-- Hyphens are no digits. -/
theorem bare?_chars (u : Uuid) : bare? u.chars = none := by
  have hnone : ∀ before after : List Char, (before ++ '-' :: after).mapM digit? = none := by
    intro before after
    induction before with
    | nil => rfl
    | cons c cs ih => simp [ih]
  rw [bare?, chars, hyphenate]
  simp only [List.append_assoc, List.cons_append]
  rw [hnone]
  rfl

theorem hyphenated?_chars (u : Uuid) : hyphenated? u.chars = some u := by
  rw [hyphenated?, filter_chars]
  exact (if_pos rfl).trans (bare?_digits u)

/-- A canonical text has neither braces nor a heading. -/
theorem unwrap_chars (u : Uuid) : unwrap u.chars = (u.chars, 0, true) := by
  have hbrace : u.chars.head? ≠ some '{' := by
    intro h
    rcases mem_chars (List.mem_of_mem_head? h) with h | ⟨d, hd⟩
    · cases h
    · have hdigit : ∀ d, '{' ≠ digitChar d := by decide
      exact hdigit d hd
  have hheading : (u.chars.take 9).map Char.toLower ≠ urnHeading := by
    intro h
    have hmem : 'u' ∈ (u.chars.take 9).map Char.toLower := h ▸ by decide
    obtain ⟨c, hc, hlower⟩ := List.mem_map.mp hmem
    rcases mem_chars (List.mem_of_mem_take hc) with rfl | ⟨d, rfl⟩
    · cases hlower
    · have hdigit : ∀ d, (digitChar d).toLower ≠ 'u' := by decide
      exact hdigit d hlower
  rw [unwrap, if_neg fun h => hbrace h.1, if_neg hheading]

/-- The canonical text is one of the spellings. -/
theorem parse_text (u : Uuid) : parse u.text = .ok u := by
  rw [parse, text, String.toList_ofList, unwrap_chars]
  simp [bare?_chars, hyphenated?_chars]

/-- Whether a text is the canonical one of some identifier. -/
def isCanonical (s : String) : Bool :=
  match parse s with
  | .ok u => u.text = s
  | .error _ => false

theorem isCanonical_iff {s : String} : isCanonical s = true ↔ ∃ u : Uuid, s = u.text := by
  constructor
  · unfold isCanonical
    split
    · exact fun h => ⟨_, (of_decide_eq_true h).symm⟩
    · rintro ⟨⟩
  · rintro ⟨u, rfl⟩
    simp [isCanonical, parse_text]

end Uuid

namespace Backend

variable {α : Type} {b : Backend} {c : Call}

/-- A program goes on from a call in the same way if it does so from every answer that the store can give. -/
theorem run_ask_congr {f g : c.Answer → Program α} (hc : c.isPlain = true)
    (same : ∀ x, (b.store.apply c).1 = .ok x → f x = g x) : b.run (ask c >>= f) = b.run (ask c >>= g) := by
  obtain ⟨store, -, -, -, -, hanswer⟩ := perform_replies b.allows_anything c
  have hrest : ∀ r, b.store.Answers .anything c r store → ofExcept r >>= f = ofExcept r >>= g := by
    intro r hr
    rcases hr.plain hc with ⟨x, rfl, happly⟩ | ⟨e, rfl, -, -⟩
    · exact same x (congrArg Prod.fst happly)
    · rfl
  exact congrArg (b.perform c).2.run (hrest _ hanswer)

end Backend

namespace Courses

variable {now : Timestamp} {id : String} {r : CourseUpdate}

/-- A matching id in the body makes no difference. -/
theorem update_of_match (h : ∀ t, r.id = some t → t = id) : update now id r = update now id { r with id := none } := by
  cases hid : r.id with
  | none => rw [← hid]
  | some t =>
    obtain rfl := h t hid
    simp only [update, hid, require, decide_true, if_true]
    rfl

theorem run_update_of_mismatch (b : Backend) (now : Timestamp) {t : String} (valid : r.validate = .ok ())
    (hid : r.id = some t) (other : t ≠ id) : b.run (update now id r) = (.error (mismatch t id), b) := by
  simp only [update, valid, hid]
  rw [require, if_neg (by simpa using other)]
  rfl

end Courses

namespace Lessons

variable {now : Timestamp} {known : List String} {n : Nat} {ids : List String} {f : String → String}

/-- Entries that are not known may be any others that are not. -/
theorem place_map (h : ∀ t ∈ ids, f t = t ∨ t ∉ known ∧ f t ∉ known) :
    place now known n (ids.map f) = place now known n ids := by
  induction ids generalizing n with
  | nil => rfl
  | cons t ids ih =>
    obtain ⟨hfirst, hrest⟩ := List.forall_mem_cons.mp h
    rw [List.map_cons, place, place, ih hrest]
    rcases hfirst with hsame | ⟨hstrange, hstrange'⟩
    · rw [hsame]
    · rw [if_neg hstrange, if_neg hstrange']

/-- The entries of a list that are canonical texts, the others being left blank. -/
def canonicalEntries (ids : List String) : List String := ids.map fun t => if Uuid.isCanonical t then t else ""

theorem run_reorder_canonicalEntries (b : Backend) (now : Timestamp) (chapterId : String) (ids : List String)
    (canonical : ∀ l ∈ b.store.lessons, ∃ u : Uuid, l.id = u.text) :
    b.run (reorder now chapterId (canonicalEntries ids)) = b.run (reorder now chapterId ids) := by
  refine Backend.run_ask_congr rfl fun lessons hlessons => place_map fun t _ => ?_
  obtain rfl : b.store.lessonsOf chapterId = lessons := Except.ok.inj hlessons
  have hknown : ∀ x ∈ (b.store.lessonsOf chapterId).map Lesson.id, Uuid.isCanonical x = true := by
    intro x hx
    obtain ⟨l, hl, rfl⟩ := List.mem_map.mp hx
    exact Uuid.isCanonical_iff.mpr (canonical l (Store.mem_lessonsOf.mp hl).1)
  split
  · exact Or.inl rfl
  · rename_i hspelled
    have hblank : Uuid.isCanonical "" = false := by decide +kernel
    exact Or.inr ⟨fun hmem => hspelled (hknown t hmem), fun hmem => by rw [hknown "" hmem] at hblank; cases hblank⟩

end Lessons

namespace Server

variable {s : Server} {now : Moment} {r : Request} {c : Caller} {segment : String} {u : Uuid}

/-- The request comes from a caller who may write to courses, chapters and lessons. -/
def FromStaff (s : Server) (now : Moment) (r : Request) : Prop :=
  ∃ c, s.Identifies now r c ∧ ∃ role ∈ c.roles, role ∈ Gate.staff

theorem handle_of_staff {e : Endpoint} {a : Action} (staff : s.FromStaff now r)
    (hroute : Endpoint.route r.method r.target.segments = some e) (hgate : e.gate? = some Gate.staff)
    (haction : ∀ caller limit, e.action r caller limit = .ok a) :
    s.handle now r = (s.authenticate now r).2.perform now a := by
  obtain ⟨c, hshown, hrole⟩ := staff
  have hcaller : (s.authenticate now r).1 = .ok (some c) := authenticate_eq_ok.mpr (Or.inr ⟨c, hshown, rfl⟩)
  have hallow : e.allow (some c) = .ok () := by
    refine Endpoint.allow_ok_iff.mpr fun roles hroles => ⟨c, rfl, ?_⟩
    cases hgate.symm.trans hroles
    exact hrole
  have hplan : ∀ t : Server, t.plan (some c) r = .ok a := fun t => plan_eq_ok.mpr ⟨e, hroute, hallow, haction _ _⟩
  unfold handle
  rw [show s.authenticate now r = (.ok (some c), (s.authenticate now r).2) from Prod.ext hcaller rfl]
  dsimp only
  rw [hplan]

theorem handle_update (staff : s.FromStaff now r) {body : CourseUpdate}
    (hroute : Endpoint.route r.method r.target.segments = some (.updateCourse segment))
    (path : Request.pathId segment = .ok u) (hbody : r.jsonBody CourseUpdate.codec = .ok body) :
    s.handle now r = (s.authenticate now r).2.perform now (.perform (.updateCourse u.text body)) := by
  refine handle_of_staff staff hroute rfl fun _ _ => ?_
  exact bind_eq_ok.mpr ⟨u, by rw [path]; rfl, bind_eq_ok.mpr ⟨body, by rw [hbody]; rfl, rfl⟩⟩

theorem handle_reorder (staff : s.FromStaff now r) {ids : List String}
    (hroute : Endpoint.route r.method r.target.segments = some (.reorderLessons segment))
    (path : Request.pathId segment = .ok u) (hbody : r.jsonBody Json.Codec.text.list = .ok ids) :
    s.handle now r = (s.authenticate now r).2.perform now (.perform (.reorderLessons u.text ids)) := by
  refine handle_of_staff staff hroute rfl fun _ _ => ?_
  exact bind_eq_ok.mpr ⟨u, by rw [path]; rfl, bind_eq_ok.mpr ⟨ids, by rw [hbody]; rfl, rfl⟩⟩

/-- A body that names another text is refused before anything is looked up. -/
theorem handle_update_of_mismatch (staff : s.FromStaff now r) {body : CourseUpdate} {id : String}
    (hroute : Endpoint.route r.method r.target.segments = some (.updateCourse segment))
    (path : Request.pathId segment = .ok u) (hbody : r.jsonBody CourseUpdate.codec = .ok body)
    (valid : body.validate = .ok ()) (hid : body.id = some id) (other : id ≠ u.text) :
    s.handle now r = (.refused (Courses.mismatch id u.text), (s.authenticate now r).2) := by
  rw [handle_update staff hroute path hbody]
  have hrun := Courses.run_update_of_mismatch (s.authenticate now r).2.backend now.stamp valid hid other
  simp only [perform, operate, Operation.program] at hrun ⊢
  rw [hrun]
  rfl

/-- However the path spells the identifier, the body of an update is refused exactly where it names another text than
the canonical one, and taken as if it named none otherwise; and a list counts with its canonical texts alone. -/
theorem bodies_name_rows_canonically (s : Server) (now : Moment) (r : Request) (segment : String) (u : Uuid)
    (staff : s.FromStaff now r) (path : Request.pathId segment = .ok u) :
    let t := (s.authenticate now r).2
    (∀ body, Endpoint.route r.method r.target.segments = some (.updateCourse segment) →
      r.jsonBody CourseUpdate.codec = .ok body → body.validate = .ok () →
      (∀ id, body.id = some id → id ≠ u.text → s.handle now r = (.refused (Courses.mismatch id u.text), t)) ∧
      ((∀ id, body.id = some id → id = u.text) →
        s.handle now r = t.perform now (.perform (.updateCourse u.text { body with id := none })))) ∧
    ∀ ids, Endpoint.route r.method r.target.segments = some (.reorderLessons segment) →
      r.jsonBody Json.Codec.text.list = .ok ids → (∀ l ∈ s.backend.store.lessons, ∃ v : Uuid, l.id = v.text) →
      s.handle now r = t.perform now (.perform (.reorderLessons u.text (Lessons.canonicalEntries ids))) := by
  intro t
  refine ⟨fun body hroute hbody valid => ⟨fun id hid other => ?_, fun hmatch => ?_⟩,
    fun ids hroute hbody canonical => ?_⟩
  · exact handle_update_of_mismatch staff hroute path hbody valid hid other
  · rw [handle_update staff hroute path hbody]
    simp only [perform, operate, Operation.program, Courses.update_of_match hmatch]
    rfl
  · rw [handle_reorder staff hroute path hbody]
    have hstored : t.backend.store = s.backend.store := congrArg Backend.store (s.authenticate_backend now r)
    have hrun := Lessons.run_reorder_canonicalEntries t.backend now.stamp u.text ids (hstored ▸ canonical)
    simp only [perform, operate, Operation.program, t] at hrun ⊢
    rw [hrun]
    rfl

/-- The spelling without hyphens. -/
def sampleBare (u : Uuid) : String := String.ofList (u.digits.map Uuid.digitChar)

/-- What the teacher sends to a path. -/
def samplePut (path : String) (body : Json) : Request where
  method := "PUT"
  target := ⟨Bytes.ofText path, []⟩
  headers := [⟨"Authorization", scheme ++ Verifier.sampleToken⟩, ⟨"Content-Type", Bytes.ofText "application/json"⟩]
  body := body.render

theorem sample_fromStaff {r : Request} (shown : r.header? "authorization" = some sampleCredentials.val) :
    sampleSchool.FromStaff ⟨60, 0⟩ r := by
  obtain ⟨v, value, token, hv, hvalue, htoken, hverify⟩ := sample_identifies.mpr rfl
  exact ⟨_, ⟨v, value, token, hv, shown.trans hvalue, htoken, hverify⟩, "teacher", by decide, by decide⟩

/-- The update of a course whose path has no hyphens, with this id in the body. -/
def sampleUpdate (id : String) : Request :=
  samplePut ("/courses/" ++ sampleBare (Uuid.numbered 0)) (CourseUpdate.codec.encode ⟨some id, "Sets", ""⟩)

/-- The reordering of a chapter by one entry. -/
def sampleReorder (entry : String) : Request :=
  samplePut ("/chapters/" ++ sampleBare (Uuid.numbered 1) ++ "/lessons/reorder") (Json.Codec.text.list.encode [entry])

theorem bodies_name_rows_canonically_sample :
    sampleSchool.FromStaff ⟨60, 0⟩ (sampleUpdate (Uuid.numbered 0).text) ∧
      Request.pathId (sampleBare (Uuid.numbered 0)) = .ok (Uuid.numbered 0) ∧
      (sampleSchool.handle ⟨60, 0⟩ (sampleUpdate (Uuid.numbered 0).text)).1.status = 200 ∧
      sampleSchool.FromStaff ⟨60, 0⟩ (sampleReorder (sampleBare (Uuid.numbered 2))) ∧
      Request.pathId (sampleBare (Uuid.numbered 1)) = .ok (Uuid.numbered 1) ∧
      (∀ l ∈ sampleSchool.backend.store.lessons, ∃ v : Uuid, l.id = v.text) ∧
      sampleSchool.handle ⟨60, 0⟩ (sampleReorder (sampleBare (Uuid.numbered 2))) =
        (sampleSchool.authenticate ⟨60, 0⟩ (sampleReorder (sampleBare (Uuid.numbered 2)))).2.perform ⟨60, 0⟩
          (.perform (.reorderLessons (Uuid.numbered 1).text [""])) := by
  have hcourse : Request.pathId (sampleBare (Uuid.numbered 0)) = .ok (Uuid.numbered 0) := by decide +kernel
  have hchapter : Request.pathId (sampleBare (Uuid.numbered 1)) = .ok (Uuid.numbered 1) := by decide +kernel
  have canonical : ∀ l ∈ sampleSchool.backend.store.lessons, ∃ v : Uuid, l.id = v.text := by
    have hids : sampleSchool.backend.store.lessons.map Lesson.id = [(Uuid.numbered 2).text] := by decide +kernel
    intro l hl
    have hid : l.id ∈ [(Uuid.numbered 2).text] := hids ▸ List.mem_map_of_mem hl
    exact ⟨Uuid.numbered 2, List.mem_singleton.mp hid⟩
  have hupdate := ((bodies_name_rows_canonically sampleSchool ⟨60, 0⟩ (sampleUpdate (Uuid.numbered 0).text) _ _
    (sample_fromStaff rfl) hcourse).1 ⟨some (Uuid.numbered 0).text, "Sets", ""⟩ (by decide +kernel) (by decide +kernel)
      (by decide +kernel)).2 (by rintro _ ⟨⟩; rfl)
  have hreorder := (bodies_name_rows_canonically sampleSchool ⟨60, 0⟩ (sampleReorder (sampleBare (Uuid.numbered 2))) _ _
    (sample_fromStaff rfl) hchapter).2 [sampleBare (Uuid.numbered 2)] (by decide +kernel) (by decide +kernel) canonical
  have hblank : Lessons.canonicalEntries [sampleBare (Uuid.numbered 2)] = [""] := by decide +kernel
  rw [hblank] at hreorder
  refine ⟨sample_fromStaff rfl, hcourse, ?_, sample_fromStaff rfl, hchapter, canonical, hreorder⟩
  rw [hupdate]
  simp only [perform, operate, authenticate_backend]
  decide +kernel

/-- The path accepts a spelling of a course and the body does not; nor does a list move a lesson under a spelling of its
identifier, as it does under the canonical text. -/
theorem spelling_of_path_refused_in_body :
    Request.pathId (sampleBare (Uuid.numbered 0)) = .ok (Uuid.numbered 0) ∧
      (sampleSchool.handle ⟨60, 0⟩ (sampleUpdate (sampleBare (Uuid.numbered 0)))).1 =
        .refused (Courses.mismatch (sampleBare (Uuid.numbered 0)) (Uuid.numbered 0).text) ∧
      Uuid.parse (sampleBare (Uuid.numbered 2)) = .ok (Uuid.numbered 2) ∧
      (sampleSchool.handle ⟨60, 0⟩ (sampleReorder (sampleBare (Uuid.numbered 2)))).2.backend.store.lessons ≠
        (sampleSchool.handle ⟨60, 0⟩ (sampleReorder (Uuid.numbered 2).text)).2.backend.store.lessons := by
  have hcourse : Request.pathId (sampleBare (Uuid.numbered 0)) = .ok (Uuid.numbered 0) := by decide +kernel
  have hchapter : Request.pathId (sampleBare (Uuid.numbered 1)) = .ok (Uuid.numbered 1) := by decide +kernel
  have hbody : (sampleUpdate (sampleBare (Uuid.numbered 0))).jsonBody CourseUpdate.codec =
      .ok ⟨some (sampleBare (Uuid.numbered 0)), "Sets", ""⟩ := by decide +kernel
  have hupdate : sampleSchool.handle ⟨60, 0⟩ (sampleUpdate (sampleBare (Uuid.numbered 0))) =
      (.refused (Courses.mismatch (sampleBare (Uuid.numbered 0)) (Uuid.numbered 0).text), _) :=
    handle_update_of_mismatch (sample_fromStaff rfl) (by decide +kernel) hcourse hbody (by decide +kernel) rfl
      (by decide +kernel)
  have hreorder : ∀ entry, (sampleReorder entry).jsonBody Json.Codec.text.list = .ok [entry] →
      (sampleSchool.handle ⟨60, 0⟩ (sampleReorder entry)).2.backend.store.lessons =
        (sampleSchool.backend.run
          (Lessons.reorder (Moment.stamp ⟨60, 0⟩) (Uuid.numbered 1).text [entry])).2.store.lessons := by
    intro entry hbody
    have hroute : Endpoint.route "PUT" (samplePut ("/chapters/" ++ sampleBare (Uuid.numbered 1) ++ "/lessons/reorder")
        .null).target.segments = some (.reorderLessons (sampleBare (Uuid.numbered 1))) := by decide +kernel
    rw [handle_reorder (r := sampleReorder entry) (sample_fromStaff rfl) hroute hchapter hbody]
    simp only [perform, operate, authenticate_backend]
    rfl
  refine ⟨hcourse, congrArg Prod.fst hupdate, by decide +kernel, ?_⟩
  rw [hreorder _ (by decide +kernel), hreorder _ (by decide +kernel)]
  decide +kernel

end Server

end Coursework
