import Coursework.Catalog.Request
import Coursework.Catalog.View
import Coursework.Proofs.Instants
import Coursework.Proofs.Minting
import Coursework.Provider.TokenReply

/-!
# Records are read back

What is written of a record is read as the same record: its texts, its numbers, its times and all that is nested in it,
whether it was made here or read from some text.  Only dictionaries have no order of their own: they are read back in
whichever they are written, as long as they have each name once, and those that were read have.
-/
namespace Coursework

namespace Json

namespace Codec

@[simp] theorem int32_restores (n : Int32) : int32.Restores 0 n := by
  intro depth _
  have hlo : Int32.minValue.toInt = -2147483648 := rfl
  have hhi : Int32.maxValue.toInt = 2147483647 := rfl
  have hsize : UInt64.size = 0x10000000000000000 := rfl
  have hle := n.le_toInt
  have hlt := n.toInt_lt
  have hread : decodeInteger "i32" Int32.minValue.toInt Int32.maxValue.toInt (.number (.ofInt n.toInt)) =
      .ok n.toInt :=
    decodeInteger_ofInt (by omega) (by omega) (by omega) (by omega)
  simp only [int32, tree, hread, Except.map, Int32.ofInt_toInt]

@[simp] theorem int64_restores (n : Int64) : int64.Restores 0 n := by
  intro depth _
  have hlo : Int64.minValue.toInt = -9223372036854775808 := rfl
  have hhi : Int64.maxValue.toInt = 9223372036854775807 := rfl
  have hsize : UInt64.size = 0x10000000000000000 := rfl
  have hle := n.le_toInt
  have hlt := n.toInt_lt
  have hread : decodeInteger "i64" Int64.minValue.toInt Int64.maxValue.toInt (.number (.ofInt n.toInt)) =
      .ok n.toInt :=
    decodeInteger_ofInt (by omega) (by omega) (by omega) (by omega)
  simp only [int64, tree, hread, Except.map, Int64.ofInt_toInt]

@[simp] theorem timestamp_restores (t : Timestamp) : timestamp.Restores 0 t := by
  intro depth _
  simp [timestamp, decodeString, tree, t.parse_text]

@[simp] theorem optional_int64_restores (o : Option Int64) : int64.optional.Restores 0 o :=
  optional_restores nofun fun n _ => int64_restores n

end Codec

/-- The value stands for itself in a text: it contains no other. -/
def IsScalar : Json → Prop
  | .str _ => True
  | .int n => -0x8000000000000000 ≤ n ∧ n < UInt64.size
  | _ => False

@[simp] theorem isScalar_text (s : String) : IsScalar (Codec.text.encode s) := trivial

@[simp] theorem isScalar_timestamp (t : Timestamp) : IsScalar (Codec.timestamp.encode t) := trivial

@[simp] theorem isScalar_int32 (n : Int32) : IsScalar (Codec.int32.encode n) := by
  have hsize : UInt64.size = 0x10000000000000000 := rfl
  have hle := n.le_toInt
  have hlt := n.toInt_lt
  refine ⟨?_, ?_⟩ <;> omega

theorem wholeFault?_of_isScalar {j : Json} (h : IsScalar j) (depth : Nat) : (j.tree depth).wholeFault? = none := by
  cases j with
  | str s => simp [tree, Node.wholeFault?, Node.faultOf]
  | int n =>
    obtain ⟨v, hvalue, -⟩ := NumberToken.value_ofInt h.1 h.2
    simp [tree, Node.wholeFault?, hvalue, Node.faultOf]
  | _ => cases h

namespace Dictionary

variable {α : Type} {d entries : List (String × α)}

theorem mem_names_put {name other : String} {v : α} :
    other ∈ (put name v d).map Prod.fst ↔ other = name ∨ other ∈ d.map Prod.fst := by
  induction d with
  | nil => simp [put]
  | cons e d ih =>
    by_cases h : e.1 = name
    · simp [put, h]
    · simp only [put, if_neg h, List.map_cons, List.mem_cons, ih, or_left_comm]

theorem nodup_put (h : (d.map Prod.fst).Nodup) (name : String) (v : α) : ((put name v d).map Prod.fst).Nodup := by
  induction d with
  | nil => exact List.pairwise_singleton _ name
  | cons e d ih =>
    obtain ⟨hfresh, hd⟩ := List.nodup_cons.mp h
    by_cases hname : e.1 = name
    · have hput : (put name v (e :: d)).map Prod.fst = (e :: d).map Prod.fst := by simp [put, hname]
      rwa [hput]
    · simp only [put, if_neg hname, List.map_cons]
      refine List.nodup_cons.mpr ⟨fun hmem => ?_, ih hd⟩
      exact (mem_names_put.mp hmem).elim hname hfresh

theorem nodup_foldl_put (h : (d.map Prod.fst).Nodup) :
    ((entries.foldl (fun d (k, v) => put k v d) d).map Prod.fst).Nodup := by
  induction entries generalizing d with
  | nil => exact h
  | cons e entries ih => exact ih (nodup_put h e.1 e.2)

end Dictionary

theorem map_eq_ok {ε α β : Type} {f : α → β} {x : Except ε α} {b : β} : x.map f = .ok b ↔ ∃ a, x = .ok a ∧ f a = b := by
  cases x <;> simp [Except.map]

theorem Codec.settle_eq_ok {α : Type} {v w : α} {fault : Option Fault} :
    settle v fault = .ok w ↔ fault = none ∧ v = w := by
  cases fault <;> simp [settle]

/-- Whatever is read as a dictionary has each name once. -/
theorem Codec.nodup_of_decode_dictionary {α : Type} {c : Codec α} {n : Node} {d : List (String × α)}
    (h : c.dictionary.decode n = .ok d) : (d.map Prod.fst).Nodup := by
  cases n with
  | object members stop =>
    obtain ⟨entries, -, h⟩ := bind_eq_ok.mp h
    obtain ⟨-, rfl⟩ := settle_eq_ok.mp h
    exact Dictionary.nodup_foldl_put List.nodup_nil
  | _ => cases h

namespace Fields

variable {room : Nat}

/-- Every part of a record was read from some tree, or is its field's fallback. -/
def Read : {α : Type} → Fields α → α → Prop
  | _, nil, _ => True
  | _, field _ c fallback _ rest, (v, vs) => ((∃ n, c.decode n = .ok v) ∨ fallback = some v) ∧ rest.Read vs

theorem read_of_collect {members : List (StringToken × Node)} {α : Type} {fs : Fields α} {vs : α}
    (h : fs.collect members = .ok vs) : fs.Read vs := by
  induction fs with
  | nil => trivial
  | field name c fallback shown rest ih =>
    simp only [collect] at h
    split at h
    · obtain ⟨v, hv, h⟩ := bind_eq_ok.mp h
      obtain ⟨ws, hws, h⟩ := bind_eq_ok.mp h
      cases h
      exact ⟨Or.inl ⟨_, hv⟩, ih hws⟩
    · obtain ⟨v, hv, h⟩ := bind_eq_ok.mp h
      obtain ⟨ws, hws, h⟩ := bind_eq_ok.mp h
      cases hv
      cases h
      exact ⟨Or.inr rfl, ih hws⟩
    · cases h

theorem read_of_takeItems {expected : String} {stop : ListEnd} {α : Type} {fs : Fields α} {i : Nat}
    {items left : List Node} {vs : α} (h : fs.takeItems expected stop i items = .ok (vs, left)) : fs.Read vs := by
  induction fs generalizing i items with
  | nil => trivial
  | field name c fallback shown rest ih =>
    cases items with
    | cons n items =>
      obtain ⟨v, hv, h⟩ := bind_eq_ok.mp h
      obtain ⟨⟨ws, left'⟩, hws, h⟩ := bind_eq_ok.mp h
      cases h
      exact ⟨Or.inl ⟨n, hv⟩, ih hws⟩
    | nil =>
      simp only [takeItems] at h
      split at h
      · cases h
      · obtain ⟨⟨ws, left'⟩, hws, h⟩ := bind_eq_ok.mp h
        cases h
        exact ⟨Or.inr rfl, ih hws⟩
      · cases h

theorem read_of_codec {α β : Type} {name : String} {fs : Fields α} {make : α → β} {parts : β → α} {n : Node} {v : β}
    (h : (fs.codec name make parts).decode n = .ok v) : ∃ vs, fs.Read vs ∧ make vs = v := by
  cases n with
  | object members stop =>
    obtain ⟨vs, hvs, hmake⟩ := map_eq_ok.mp h
    simp only [decodeObject] at hvs
    split at hvs
    · cases hvs
    · exact ⟨vs, read_of_collect hvs, hmake⟩
  | array items stop =>
    obtain ⟨vs, hvs, hmake⟩ := map_eq_ok.mp h
    obtain ⟨⟨ws, left⟩, hws, h⟩ := bind_eq_ok.mp hvs
    obtain ⟨-, rfl⟩ := Codec.settle_eq_ok.mp h
    exact ⟨ws, read_of_takeItems hws, hmake⟩
  | _ => cases h

section Extension

variable {members : List (String × Json)} {depth : Nat} {own : String} {γ : Type} {c : Codec γ}

theorem ownDefect?_treeMembers {seen : Bool} (distinct : (members.map Prod.fst).Nodup)
    (once : own ∈ members.map Prod.fst → seen = false)
    (read : ∀ m ∈ members, m.1 = own → defectOf (c.decode (m.2.tree depth)) = none)
    (whole : ∀ m ∈ members, m.1 ≠ own → (m.2.tree depth).wholeFault? = none) :
    ownDefect? own c seen (treeMembers depth members) = none := by
  induction members generalizing seen with
  | nil => rfl
  | cons m ms ih =>
    obtain ⟨k, j⟩ := m
    obtain ⟨hfresh, hdistinct⟩ := List.nodup_cons.mp distinct
    obtain ⟨hread, hreads⟩ := List.forall_mem_cons.mp read
    obtain ⟨hwhole, hwholes⟩ := List.forall_mem_cons.mp whole
    simp only [treeMembers, ownDefect?, StringToken.text_ofText]
    by_cases hname : k = own
    · subst hname
      have hunseen : seen = false := once List.mem_cons_self
      have hrest : ownDefect? k c true (treeMembers depth ms) = none :=
        ih hdistinct (fun hmem => absurd hmem hfresh) hreads hwholes
      simp [hunseen, hread rfl, hrest]
    · have hrest := ih hdistinct (fun hmem => once (List.mem_cons_of_mem k hmem)) hreads hwholes
      simp [hname, hwhole hname, hrest]

theorem filter_treeMembers (depth : Nat) (own : String) (members : List (String × Json)) :
    (treeMembers depth members).filter (fun (k, _) => !hasName own k) =
      treeMembers depth (members.filter fun m => m.1 ≠ own) := by
  simp only [treeMembers_eq_map, List.filter_map, Function.comp_def, hasName, StringToken.text_ofText, ne_eq,
    decide_not]

variable {α β : Type} {name : String} {fs : Fields α} {make : α × γ → β} {parts : β → α × γ} {room : Nat}

/-- The own member is found and understood among the others, which are then understood as they were written. -/
theorem extended_of_encode {vs : α} {w : γ} (hnames : fs.names.Nodup) (hown : own ∉ fs.names)
    (h : fs.Restored room vs) (hvalue : c.Restores room w) (scalar : ∀ m ∈ fs.encode vs, IsScalar m.2)
    (hmembers : members = fs.encode vs ++ [(own, c.encode w)]) (hdepth : depth + room < Node.depthLimit) :
    (fs.extended name own c make parts).decode (.object (treeMembers depth members) .closed) = .ok (make (vs, w)) := by
  have hsublist := names_encode_sublist fs vs
  have hother : ∀ m ∈ fs.encode vs, m.1 ≠ own := by
    rintro m hm rfl
    exact hown (hsublist.subset (List.mem_map_of_mem hm))
  have hcases : ∀ m ∈ members, m ∈ fs.encode vs ∨ m = (own, c.encode w) := by
    intro m hm
    rw [hmembers] at hm
    exact (List.mem_append.mp hm).imp_right List.mem_singleton.mp
  have distinct : (members.map Prod.fst).Nodup := by
    rw [hmembers, List.map_append]
    refine List.nodup_append.mpr ⟨hsublist.nodup hnames, List.pairwise_singleton _ _, ?_⟩
    rintro other hmem last hlast rfl
    obtain ⟨m, hm, rfl⟩ := List.mem_map.mp hmem
    exact hother m hm (List.mem_singleton.mp hlast)
  have hread : c.decode ((c.encode w).tree depth) = .ok w := hvalue depth hdepth
  have hfound : find? own (treeMembers depth members) = some ((c.encode w).tree depth) := by
    have hmem : (own, c.encode w) ∈ members := hmembers ▸ List.mem_append_right _ List.mem_cons_self
    rw [find?_treeMembers, Dictionary.get?_of_mem distinct hmem]
    rfl
  have hdefect : ownDefect? own c false (treeMembers depth members) = none := by
    refine ownDefect?_treeMembers distinct (fun _ => rfl) (fun m hm hname => ?_) fun m hm hname => ?_
    · rcases hcases m hm with hm | rfl
      · exact absurd hname (hother m hm)
      · rw [hread]
        rfl
    · rcases hcases m hm with hm | rfl
      · exact wholeFault?_of_isScalar (scalar m hm) depth
      · exact absurd rfl hname
  have hrest : members.filter (fun m => m.1 ≠ own) = fs.encode vs := by
    rw [hmembers, List.filter_append, List.filter_eq_self.mpr fun m hm => decide_eq_true (hother m hm)]
    simp
  have hfields : fs.decodeObject (treeMembers depth (fs.encode vs)) .closed = .ok vs :=
    decodeObject_of_held (hsublist.nodup hnames) hdepth (held_encode hnames h) fun m hm hname =>
      absurd (hsublist.subset (List.mem_map_of_mem hm)) hname
  simp only [extended, hdefect, hfound, filter_treeMembers, hrest, hfields, hread]
  rfl

theorem extended_restores {v : β} (hnames : fs.names.Nodup) (hown : own ∉ fs.names) (hmake : make (parts v) = v)
    (h : fs.Restored room (parts v).1) (hvalue : c.Restores room (parts v).2)
    (scalar : ∀ m ∈ fs.encode (parts v).1, IsScalar m.2) :
    (fs.extended name own c make parts).Restores (room + 1) v := by
  intro depth hdepth
  have hwritten : ((fs.extended name own c make parts).encode v).tree depth =
      .object (treeMembers (depth + 1) (fs.encode (parts v).1 ++ [(own, c.encode (parts v).2)])) .closed :=
    tree_obj (by omega) _
  rw [hwritten, extended_of_encode hnames hown h hvalue scalar rfl (by omega), hmake]

end Extension

end Fields

/-- Every value is read from what is written of it. -/
def Codec.ReadsBack {α : Type} (c : Codec α) : Prop := ∀ v, c.read (c.write v) = .ok v

theorem Codec.readsBack {α : Type} {c : Codec α} {room : Nat} (h : ∀ v, c.Restores room v)
    (fits : room < Node.depthLimit) : c.ReadsBack := fun v => Codec.read_render (h v 0 (by omega))

end Json

open Json Fields

theorem Course.restored (id name description : String) (createdAt updatedAt : Timestamp) :
    Course.fields.Restored 0 (id, name, description, createdAt, updatedAt, ()) := by
  simp [Course.fields]

theorem Course.restores (c : Course) : Course.codec.Restores 1 c :=
  codec_restores (by decide) rfl (Course.restored ..)

theorem Chapter.restored (c : Chapter) : Chapter.fields.Restored 0 c.parts := by
  simp [Chapter.fields, Chapter.parts]

theorem Chapter.restores (c : Chapter) : Chapter.codec.Restores 1 c := codec_restores (by decide) rfl c.restored

theorem Lesson.restores (l : Lesson) : Lesson.codec.Restores 1 l :=
  codec_restores (by decide) rfl (by simp [Lesson.fields])

theorem Attachment.restores (a : Attachment) : Attachment.codec.Restores 1 a :=
  codec_restores (by decide) rfl (by simp [Attachment.fields])

theorem Grant.restores (name : String) (g : Grant) : (Grant.codecAs name).Restores 1 g :=
  codec_restores (by decide) rfl (by simp [Grant.fields])

theorem AttachmentView.restores (a : AttachmentView) : AttachmentView.codec.Restores 1 a :=
  codec_restores (by decide) rfl (by simp [AttachmentView.fields])

theorem ChapterDetail.restores (d : ChapterDetail) : ChapterDetail.codec.Restores 3 d := by
  refine extended_restores (by decide) (by decide) rfl (d.chapter.restored.mono (by decide))
    (Codec.list_restores fun l _ => l.restores) ?_
  simp [Chapter.fields, Chapter.parts, required, encode]

theorem CourseDetail.restores (d : CourseDetail) : CourseDetail.codec.Restores 5 d := by
  refine extended_restores (by decide) (by decide) rfl ((Course.restored ..).mono (by decide))
    (Codec.list_restores fun c _ => c.restores) ?_
  simp [Course.fields, required, encode]

theorem TokenReply.restores (r : TokenReply) : TokenReply.codec.Restores 1 r :=
  codec_restores (by decide) rfl (by simp)

theorem Claims.restores {c : Claims} (distinctClients : (c.resourceAccess.map Prod.fst).Nodup) :
    Claims.codec.Restores 4 c := by
  intro depth hdepth
  have hwritten : (Claims.codec.encode c).tree depth = .object (treeMembers (depth + 1) c.members) .closed :=
    tree_obj (by omega) c.members
  have hmembers : c.members.Perm ([] ++ c.members) := .refl _
  rw [hwritten]
  exact Claims.decode_among distinctClients hmembers List.nodup_nil (by omega) fun _ hm => nomatch hm

/-- Claims that were read name each client once. -/
theorem Claims.distinctClients_of_read {text : Bytes} {c : Claims} (h : Claims.codec.read text = .ok c) :
    (c.resourceAccess.map Prod.fst).Nodup := by
  obtain ⟨v, hv, h⟩ := bind_eq_ok.mp h
  obtain ⟨-, rfl⟩ := Codec.settle_eq_ok.mp h
  obtain ⟨⟨sub, preferredUsername, realmAccess, resourceAccess, exp, iat, ⟨⟩⟩, hread, rfl⟩ := read_of_codec hv
  obtain ⟨-, -, -, hclients, -⟩ := hread
  rcases hclients with ⟨n, hn⟩ | hnone
  · exact Codec.nodup_of_decode_dictionary hn
  · cases hnone
    exact List.nodup_nil

theorem NewCourse.restores (r : NewCourse) : NewCourse.codec.Restores 1 r := codec_restores (by decide) rfl (by simp)

theorem CourseUpdate.restores (r : CourseUpdate) : CourseUpdate.codec.Restores 1 r :=
  codec_restores (by decide) rfl (by simp)

theorem NewChapter.restores (r : NewChapter) : NewChapter.codec.Restores 1 r :=
  codec_restores (by decide) rfl (by simp)

theorem ChapterOrder.restores (r : ChapterOrder) : ChapterOrder.codec.Restores 1 r :=
  codec_restores (by decide) rfl (by simp)

theorem NewLesson.restores (r : NewLesson) : NewLesson.codec.Restores 1 r := codec_restores (by decide) rfl (by simp)

theorem LessonContent.restores (r : LessonContent) : LessonContent.codec.Restores 1 r :=
  codec_restores (by decide) rfl (by simp)

theorem GrantRequest.restores (r : GrantRequest) : GrantRequest.codec.Restores 1 r :=
  codec_restores (by decide) rfl (by simp)

theorem Login.restores (r : Login) : Login.codec.Restores 1 r := codec_restores (by decide) rfl (by simp)

theorem Refresh.restores (r : Refresh) : Refresh.codec.Restores 1 r := codec_restores (by decide) rfl (by simp)

/-- Of every kind of record that is stored, shown or sent: each is read from what is written of it.  So are the claims
of a token that name each client once; and those that were read do, in whatever order their clients are then written. -/
theorem records_are_read_back :
    (Course.codec.ReadsBack ∧ Chapter.codec.ReadsBack ∧ Lesson.codec.ReadsBack ∧ Attachment.codec.ReadsBack ∧
      Grant.codec.ReadsBack) ∧
    (ChapterDetail.codec.ReadsBack ∧ CourseDetail.codec.ReadsBack ∧ AttachmentView.codec.ReadsBack ∧
      Grant.viewCodec.ReadsBack ∧ TokenReply.codec.ReadsBack) ∧
    (NewCourse.codec.ReadsBack ∧ CourseUpdate.codec.ReadsBack ∧ NewChapter.codec.ReadsBack ∧
      ChapterOrder.codec.ReadsBack ∧ NewLesson.codec.ReadsBack ∧ LessonContent.codec.ReadsBack ∧
      GrantRequest.codec.ReadsBack ∧ Login.codec.ReadsBack ∧ Refresh.codec.ReadsBack) ∧
    (∀ c : Claims, (c.resourceAccess.map Prod.fst).Nodup → Claims.codec.read (Claims.codec.write c) = .ok c) ∧
    ∀ text c, Claims.codec.read text = .ok c → ∀ clients, clients.Perm c.resourceAccess →
      Claims.codec.read (Claims.codec.write { c with resourceAccess := clients }) =
        .ok { c with resourceAccess := clients } := by
  have hclaims : ∀ c : Claims, (c.resourceAccess.map Prod.fst).Nodup →
      Claims.codec.read (Claims.codec.write c) = .ok c :=
    fun c distinct => Codec.read_render (c.restores distinct 0 (by decide))
  refine ⟨⟨?_, ?_, ?_, ?_, ?_⟩, ⟨?_, ?_, ?_, ?_, ?_⟩, ⟨?_, ?_, ?_, ?_, ?_, ?_, ?_, ?_, ?_⟩, hclaims, ?_⟩
  · exact Codec.readsBack Course.restores (by decide)
  · exact Codec.readsBack Chapter.restores (by decide)
  · exact Codec.readsBack Lesson.restores (by decide)
  · exact Codec.readsBack Attachment.restores (by decide)
  · exact Codec.readsBack (Grant.restores _) (by decide)
  · exact Codec.readsBack ChapterDetail.restores (by decide)
  · exact Codec.readsBack CourseDetail.restores (by decide)
  · exact Codec.readsBack AttachmentView.restores (by decide)
  · exact Codec.readsBack (Grant.restores _) (by decide)
  · exact Codec.readsBack TokenReply.restores (by decide)
  · exact Codec.readsBack NewCourse.restores (by decide)
  · exact Codec.readsBack CourseUpdate.restores (by decide)
  · exact Codec.readsBack NewChapter.restores (by decide)
  · exact Codec.readsBack ChapterOrder.restores (by decide)
  · exact Codec.readsBack NewLesson.restores (by decide)
  · exact Codec.readsBack LessonContent.restores (by decide)
  · exact Codec.readsBack GrantRequest.restores (by decide)
  · exact Codec.readsBack Login.restores (by decide)
  · exact Codec.readsBack Refresh.restores (by decide)
  · intro text c hread clients hperm
    exact hclaims _ ((hperm.map Prod.fst).nodup_iff.mpr (Claims.distinctClients_of_read hread))

/-- A course with a chapter that has a lesson, its members out of order, with escapes, a time of another zone and a leap
second. -/
def sampleDetailText : Bytes :=
  Bytes.ofText ("\x7b\"chapters\":[\x7b\"lessons\":[\x7b\"content\":\"\\u00e9\\n\",\"id\":\"l\",\"name\":\"L\"," ++
    "\"description\":\"\",\"order\":7,\"chapter_id\":\"h\",\"created_at\":\"1970-01-01 00:00:00.123456789z\"," ++
    "\"updated_at\":\"1970-01-01T00:00:00Z\"\x7d],\"order\":-2147483648,\"id\":\"h\",\"course_id\":\"c\"," ++
    "\"name\":\"\",\"description\":\"\\u0000\",\"created_at\":\"2016-12-31T23:59:60Z\"," ++
    "\"updated_at\":\"2016-12-31T23:59:60Z\"\x7d],\"hidden\":[1e3],\"name\":\"\\ud83d\\ude00\\/\",\"id\":\"c\"," ++
    "\"description\":\"\",\"created_at\":\"+12000-01-01T00:30:00.5+01:00\",\"updated_at\":\"1970-01-01T00:00:00Z\"\x7d")

def sampleDetail : CourseDetail :=
  let leap : Timestamp := ⟨2016, 12, 31, 23, 59, 60, 0, by decide⟩
  let created : Timestamp := ⟨1970, 1, 1, 0, 0, 0, 123456789, by decide⟩
  let lesson : Lesson := ⟨"l", "L", "", "é\n", 7, "h", created, .epoch⟩
  ⟨⟨"c", "😀/", "", ⟨11999, 12, 31, 23, 30, 0, 500000000, by decide⟩, .epoch⟩,
    [⟨⟨"h", "", "\x00", -2147483648, "c", leap, leap⟩, [lesson]⟩]⟩

/-- Claims of a user with a name, with roles of two clients and none of the realm. -/
def sampleClaimsText : Bytes :=
  Bytes.ofText ("\x7b\"exp\":18446744073709551615,\"sub\":\"u\",\"iss\":[],\"preferred_username\":\"\\u00dc\"," ++
    "\"realm_access\":null,\"resource_access\":\x7b\"lms\":\x7b\"roles\":[\"teacher\"]\x7d,\"crm\":\x7b\x7d\x7d\x7d")

def sampleClaims : Claims := ⟨"u", some "Ü", none, [("lms", ⟨["teacher"]⟩), ("crm", ⟨[]⟩)], 18446744073709551615, none⟩

/-- The claims are read back with their clients in the other order too. -/
theorem records_are_read_back_sample :
    (CourseDetail.codec.read sampleDetailText = .ok sampleDetail ∧
      CourseDetail.codec.read (CourseDetail.codec.write sampleDetail) = .ok sampleDetail) ∧
    Claims.codec.read sampleClaimsText = .ok sampleClaims ∧
      Claims.codec.read (Claims.codec.write sampleClaims) = .ok sampleClaims ∧
      Claims.codec.read (Claims.codec.write
        { sampleClaims with resourceAccess := sampleClaims.resourceAccess.reverse }) =
        .ok { sampleClaims with resourceAccess := sampleClaims.resourceAccess.reverse } := by
  have hdetailRead : CourseDetail.codec.read sampleDetailText = .ok sampleDetail := by decide +kernel
  have hclaimsRead : Claims.codec.read sampleClaimsText = .ok sampleClaims := by decide +kernel
  obtain ⟨-, ⟨-, hdetail, -⟩, -, hclaims, hreordered⟩ := records_are_read_back
  exact ⟨⟨hdetailRead, hdetail _⟩, hclaimsRead, hclaims _ (by decide),
    hreordered _ _ hclaimsRead _ (List.reverse_perm _)⟩

end Coursework
