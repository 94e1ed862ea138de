import Coursework.Json.Record
import Coursework.Proofs.Rendering

/-!
# Codecs take back what they write

A codec restores a value when it reads from the value's own tree what it has written.  The containers of a written value
must fit above those it stands in: the room of a value is how deep it nests, and a container restores its parts with one
level less than itself.  A record is restored wherever its members are found, in any order and among others.
-/
namespace Coursework.Json

theorem mapM_map_eq_ok {ε α β : Type} {f : β → Except ε α} {g : α → β} {as : List α}
    (hf : ∀ a ∈ as, f (g a) = .ok a) : (as.map g).mapM f = .ok as := by
  induction as with
  | nil => rfl
  | cons a as ih =>
    obtain ⟨ha, has⟩ := List.forall_mem_cons.mp hf
    simp only [List.map_cons, List.mapM_cons, ha, ih has]
    rfl

namespace Dictionary

variable {α : Type}

theorem put_of_not_mem {name : String} {d : List (String × α)} (h : name ∉ d.map Prod.fst) (v : α) :
    put name v d = d ++ [(name, v)] := by
  induction d with
  | nil => rfl
  | cons e d ih =>
    obtain ⟨hname, hrest⟩ := not_or.mp (List.mem_cons.not.mp h)
    simp only [put, if_neg (Ne.symm hname), ih hrest, List.cons_append]

/-- Entries of different names are entered one behind the other. -/
theorem foldl_put {d entries : List (String × α)} (h : ((d ++ entries).map Prod.fst).Nodup) :
    entries.foldl (fun d (k, v) => put k v d) d = d ++ entries := by
  induction entries generalizing d with
  | nil => simp
  | cons e entries ih =>
    obtain ⟨k, v⟩ := e
    have hfresh : k ∉ d.map Prod.fst := by
      rw [List.map_append, List.map_cons] at h
      exact fun hk => (List.nodup_append.mp h).2.2 k hk k List.mem_cons_self rfl
    rw [List.foldl_cons]
    simp only [put_of_not_mem hfresh]
    rw [ih (by simpa using h)]
    simp

theorem get?_of_mem {d : List (String × α)} (distinct : (d.map Prod.fst).Nodup) {name : String} {v : α}
    (h : (name, v) ∈ d) : get? name d = some v := by
  induction d with
  | nil => cases h
  | cons e d ih =>
    obtain ⟨hfresh, hrest⟩ := List.nodup_cons.mp distinct
    rcases List.mem_cons.mp h with rfl | h
    · simp [get?]
    · have hne : e.1 ≠ name := by
        rintro rfl
        exact hfresh (List.mem_map.mpr ⟨_, h, rfl⟩)
      have hlater := ih hrest h
      simp only [get?] at hlater ⊢
      rwa [List.find?_cons_of_neg (by simpa using hne)]

theorem get?_of_not_mem {d : List (String × α)} {name : String} (h : name ∉ d.map Prod.fst) : get? name d = none := by
  simp only [get?, Option.map_eq_none_iff, List.find?_eq_none, decide_eq_true_eq]
  rintro e he rfl
  exact h (List.mem_map_of_mem he)

end Dictionary

section Depth

variable {depth : Nat} (h : depth + 1 < Node.depthLimit)

include h

theorem tree_arr (items : List Json) : (Json.arr items).tree depth = .array (treeItems (depth + 1) items) .closed :=
  if_neg (Nat.not_le.mpr h)

theorem tree_obj (members : List (String × Json)) :
    (Json.obj members).tree depth = .object (treeMembers (depth + 1) members) .closed :=
  if_neg (Nat.not_le.mpr h)

end Depth

namespace Codec

variable {α : Type}

/-- This value is read back from what is written of it, wherever its containers fit above those around it. -/
def Restores (c : Codec α) (room : Nat) (v : α) : Prop :=
  ∀ depth, depth + room < Node.depthLimit → c.decode ((c.encode v).tree depth) = .ok v

theorem Restores.mono {c : Codec α} {room room' : Nat} {v : α} (h : c.Restores room v) (hroom : room ≤ room') :
    c.Restores room' v :=
  fun depth hdepth => h depth (by omega)

@[simp] theorem text_restores (s : String) : text.Restores 0 s := by
  intro depth _
  simp [text, decodeString, tree]

theorem decodeInteger_ofInt {name : String} {lo hi n : Int} (hlo : lo ≤ n) (hhi : n ≤ hi)
    (fitsBelow : -0x8000000000000000 ≤ n) (fitsAbove : n < UInt64.size) :
    decodeInteger name lo hi (.number (.ofInt n)) = .ok n := by
  obtain ⟨v, hvalue, hfound⟩ := NumberToken.value_ofInt fitsBelow fitsAbove
  simp [decodeInteger, hvalue, hfound, hlo, hhi]

@[simp] theorem uint64_restores (n : UInt64) : uint64.Restores 0 n := by
  intro depth _
  have hlt : n.toNat < UInt64.size := n.toNat_lt
  have hmax : (n.toNat : Int) ≤ (UInt64.size - 1 : Nat) := by omega
  have hread : decodeInteger "usize" 0 (UInt64.size - 1 : Nat) (.number (.ofInt n.toNat)) = .ok n.toNat :=
    decodeInteger_ofInt (by omega) hmax (by omega) (by omega)
  simp only [uint64, tree, hread, Except.map]
  simp

/-- A value that may be missing is told from a missing one, as long as `null` is none of the others. -/
theorem optional_restores {c : Codec α} (hnull : ∀ w, c.decode .null ≠ .ok w) {room : Nat} {o : Option α}
    (h : ∀ v ∈ o, c.Restores room v) : c.optional.Restores room o := by
  intro depth hdepth
  cases o with
  | none => rfl
  | some v =>
    have hread := h v rfl depth hdepth
    simp only [optional]
    split
    · rename_i hwritten
      rw [hwritten] at hread
      exact absurd hread (hnull v)
    · rw [hread]
      rfl

theorem text_decode_null (s : String) : text.decode .null ≠ .ok s := nofun

@[simp] theorem optional_text_restores (o : Option String) : text.optional.Restores 0 o :=
  optional_restores text_decode_null fun s _ => text_restores s

theorem list_restores {c : Codec α} {room : Nat} {vs : List α} (h : ∀ v ∈ vs, c.Restores room v) :
    c.list.Restores (room + 1) vs := by
  intro depth hdepth
  have hitems : (vs.map fun v => (c.encode v).tree (depth + 1)).mapM c.decode = .ok vs :=
    mapM_map_eq_ok fun v hv => h v hv (depth + 1) (by omega)
  have hshallow : depth + 1 < Node.depthLimit := by omega
  simp only [list, tree_arr hshallow, treeItems_eq_map, List.map_map, Function.comp_def, hitems]
  rfl

theorem dictionary_restores {c : Codec α} {room : Nat} {d : List (String × α)} (distinct : (d.map Prod.fst).Nodup)
    (h : ∀ e ∈ d, c.Restores room e.2) : c.dictionary.Restores (room + 1) d := by
  intro depth hdepth
  have hmembers : (d.map fun e => (StringToken.ofText e.1, (c.encode e.2).tree (depth + 1))).mapM c.decodeMember =
      .ok d := by
    refine mapM_map_eq_ok fun e he => ?_
    simp [decodeMember, h e he (depth + 1) (by omega), Except.map]
  have hshallow : depth + 1 < Node.depthLimit := by omega
  simp only [dictionary, tree_obj hshallow, treeMembers_eq_map, List.map_map, Function.comp_def, hmembers]
  have hentered : d.foldl (fun d (k, v) => Dictionary.put k v d) [] = d := Dictionary.foldl_put distinct
  simp only [bind, Except.bind, hentered]
  rfl

end Codec

namespace Fields

/-- These members hold the values of a record: each field is there and is read back, or it is absent and its fallback is
the value. -/
def Held (members : List (String × Json)) (room : Nat) : {α : Type} → Fields α → α → Prop
  | _, nil, _ => True
  | _, field name c fallback _ rest, (v, vs) =>
    ((name, c.encode v) ∈ members ∧ c.Restores room v ∨ name ∉ members.map Prod.fst ∧ fallback = some v) ∧
      rest.Held members room vs

variable {members : List (String × Json)}

theorem find?_treeMembers (depth : Nat) (name : String) :
    find? name (treeMembers depth members) = (Dictionary.get? name members).map (tree depth) := by
  simp only [find?, Dictionary.get?, treeMembers_eq_map, List.find?_map, Function.comp_def, hasName,
    StringToken.text_ofText, Option.map_map]

/-- The members behind one of them are new when it was seen too. -/
theorem unseen_cons {k : String} {seen : List String} (fresh : k ∉ members.map Prod.fst)
    (unseen : ∀ m ∈ members, m.1 ∉ seen) : ∀ m ∈ members, m.1 ∉ k :: seen := by
  intro m hm hmem
  rcases List.mem_cons.mp hmem with hk | hmem
  · exact fresh (List.mem_map.mpr ⟨m, hm, hk⟩)
  · exact unseen m hm hmem

/-- Members of different names have no defect if none of them has one by itself. -/
theorem memberDefect?_treeMembers {α : Type} {fs : Fields α} {depth : Nat} {seen : List String}
    (distinct : (members.map Prod.fst).Nodup) (unseen : ∀ m ∈ members, m.1 ∉ seen)
    (own : ∀ m ∈ members, m.1 ∈ fs.names → fs.defectIn m.1 (m.2.tree depth) = none)
    (others : ∀ m ∈ members, m.1 ∉ fs.names → (m.2.tree depth).skipFault? = none) :
    fs.memberDefect? seen (treeMembers depth members) = none := by
  induction members generalizing seen with
  | nil => rfl
  | cons m ms ih =>
    obtain ⟨k, j⟩ := m
    obtain ⟨hfresh, hdistinct⟩ := List.nodup_cons.mp distinct
    obtain ⟨hunseen, hunseens⟩ := List.forall_mem_cons.mp unseen
    obtain ⟨hown, howns⟩ := List.forall_mem_cons.mp own
    obtain ⟨hother, hothers⟩ := List.forall_mem_cons.mp others
    simp only [treeMembers, memberDefect?, StringToken.text_ofText]
    by_cases hname : k ∈ fs.names
    · rw [if_pos hname, if_neg hunseen, hown hname, ih hdistinct (unseen_cons hfresh hunseens) howns hothers]
      rfl
    · rw [if_neg hname, hother hname, ih hdistinct hunseens howns hothers]
      rfl

variable {depth room : Nat}

section Holding

variable (distinct : (members.map Prod.fst).Nodup) (hdepth : depth + room < Node.depthLimit)

include distinct hdepth

/-- What is found of a field that is held. -/
theorem Held.found {α β : Type} {name : String} {c : Codec α} {fallback : Option α} {shown : α → Bool} {rest : Fields β}
    {v : α} {vs : β} (h : (field name c fallback shown rest).Held members room (v, vs)) :
    (∃ n, find? name (treeMembers depth members) = some n ∧ c.decode n = .ok v) ∨
      find? name (treeMembers depth members) = none ∧ fallback = some v := by
  rw [find?_treeMembers]
  rcases h.1 with ⟨hmem, hrestores⟩ | ⟨habsent, hfallback⟩
  · exact Or.inl ⟨_, by rw [Dictionary.get?_of_mem distinct hmem]; rfl, hrestores depth hdepth⟩
  · exact Or.inr ⟨by rw [Dictionary.get?_of_not_mem habsent]; rfl, hfallback⟩

theorem collect_of_held {α : Type} {fs : Fields α} {vs : α} (h : fs.Held members room vs) :
    fs.collect (treeMembers depth members) = .ok vs := by
  induction fs with
  | nil => rfl
  | field name c fallback shown rest ih =>
    obtain ⟨v, vs⟩ := vs
    have hrest := ih h.2
    rcases h.found distinct hdepth with ⟨n, hfound, hread⟩ | ⟨hfound, hfallback⟩
    · simp only [collect, hfound, hread, hrest]
      rfl
    · simp only [collect, hfound, hfallback, hrest]
      rfl

theorem defectIn_of_held {α : Type} {fs : Fields α} {vs : α} (h : fs.Held members room vs) {name : String} {n : Node}
    (hfound : find? name (treeMembers depth members) = some n) : fs.defectIn name n = none := by
  induction fs with
  | nil => rfl
  | field name' c fallback shown rest ih =>
    obtain ⟨v, vs⟩ := vs
    by_cases hname : name' = name
    · subst hname
      rcases h.found distinct hdepth with ⟨n', hfound', hread⟩ | ⟨hfound', -⟩
      · rw [hfound] at hfound'
        obtain rfl := Option.some.inj hfound'
        simp [defectIn, hread, defectOf]
      · rw [hfound] at hfound'
        cases hfound'
    · rw [defectIn, if_neg hname]
      exact ih h.2

/-- A record is read from members that hold it, whatever else stands among them. -/
theorem decodeObject_of_held {α : Type} {fs : Fields α} {vs : α} (h : fs.Held members room vs)
    (others : ∀ m ∈ members, m.1 ∉ fs.names → (m.2.tree depth).skipFault? = none) :
    fs.decodeObject (treeMembers depth members) .closed = .ok vs := by
  have own : ∀ m ∈ members, m.1 ∈ fs.names → fs.defectIn m.1 (m.2.tree depth) = none := by
    intro m hm _
    refine defectIn_of_held distinct hdepth h ?_
    rw [find?_treeMembers, Dictionary.get?_of_mem distinct (show (m.1, m.2) ∈ members from hm)]
    rfl
  have hdefect : fs.memberDefect? [] (treeMembers depth members) = none :=
    memberDefect?_treeMembers distinct (fun _ _ => List.not_mem_nil) own others
  have hcollect := collect_of_held distinct hdepth h
  simp only [decodeObject, hdefect, hcollect]
  rfl

/-- The codec of a record reads it from an object whose members hold its parts. -/
theorem codec_of_held {α β : Type} {name : String} {fs : Fields α} {make : α → β} {parts : β → α} (vs : α)
    (h : fs.Held members room vs) (others : ∀ m ∈ members, m.1 ∉ fs.names → (m.2.tree depth).skipFault? = none) :
    (fs.codec name make parts).decode (.object (treeMembers depth members) .closed) = .ok (make vs) := by
  simp only [codec, decodeObject_of_held distinct hdepth h others, Except.map]

end Holding

/-- Every part of a record that is shown is read back, and every other one is its field's fallback. -/
def Restored (room : Nat) : {α : Type} → Fields α → α → Prop
  | _, nil, _ => True
  | _, field _ c fallback shown rest, (v, vs) =>
    (if shown v = true then c.Restores room v else fallback = some v) ∧ rest.Restored room vs

@[simp] theorem restored_nil {u : Unit} : nil.Restored room u := trivial

section Kinds

variable {α β : Type} {name : String} {c : Codec α} {rest : Fields β} {vs : β}

@[simp] theorem restored_required {v : α} :
    (required name c rest).Restored room (v, vs) ↔ c.Restores room v ∧ rest.Restored room vs := by
  simp [required, Restored]

@[simp] theorem restored_withDefault {v fallback : α} :
    (withDefault name c fallback rest).Restored room (v, vs) ↔ c.Restores room v ∧ rest.Restored room vs := by
  simp [withDefault, Restored]

@[simp] theorem restored_optional {v : Option α} :
    (optional name c rest).Restored room (v, vs) ↔ c.optional.Restores room v ∧ rest.Restored room vs := by
  simp [optional, Restored]

@[simp] theorem restored_omissible {v : Option α} :
    (omissible name c rest).Restored room (v, vs) ↔
      (v.isSome = true → c.optional.Restores room v) ∧ rest.Restored room vs := by
  cases v <;> simp [omissible, Restored]

end Kinds

theorem Restored.mono {α : Type} {fs : Fields α} {vs : α} {room' : Nat} (h : fs.Restored room vs)
    (hroom : room ≤ room') : fs.Restored room' vs := by
  induction fs with
  | nil => trivial
  | field name c fallback shown rest ih =>
    obtain ⟨v, vs⟩ := vs
    refine ⟨?_, ih h.2⟩
    have hfirst := h.1
    split_ifs at hfirst ⊢
    · exact hfirst.mono hroom
    · exact hfirst

theorem names_encode_sublist {α : Type} (fs : Fields α) (vs : α) : ((fs.encode vs).map Prod.fst).Sublist fs.names := by
  induction fs with
  | nil => exact List.Sublist.slnil
  | field name c fallback shown rest ih =>
    obtain ⟨v, vs⟩ := vs
    by_cases hshown : shown v = true
    · simpa [encode, hshown, names] using ih vs
    · simpa [encode, hshown, names] using (ih vs).cons name

/-- Members go on to hold a record when there are more of them under other names. -/
theorem Held.among {α : Type} {fs : Fields α} {vs : α} {members' : List (String × Json)} (h : fs.Held members room vs)
    (hmem : ∀ m ∈ members, m ∈ members')
    (hnames : ∀ name ∈ fs.names, name ∈ members'.map Prod.fst → name ∈ members.map Prod.fst) :
    fs.Held members' room vs := by
  induction fs with
  | nil => trivial
  | field name c fallback shown rest ih =>
    obtain ⟨v, vs⟩ := vs
    obtain ⟨hname, hrest⟩ := List.forall_mem_cons.mp hnames
    refine ⟨?_, ih h.2 hrest⟩
    rcases h.1 with ⟨hshown, hrestores⟩ | ⟨habsent, hfallback⟩
    · exact Or.inl ⟨hmem _ hshown, hrestores⟩
    · exact Or.inr ⟨mt hname habsent, hfallback⟩

theorem held_encode {α : Type} {fs : Fields α} {vs : α} (hnames : fs.names.Nodup) (h : fs.Restored room vs) :
    fs.Held (fs.encode vs) room vs := by
  induction fs with
  | nil => trivial
  | field name c fallback shown rest ih =>
    obtain ⟨v, vs⟩ := vs
    obtain ⟨hfresh, hrest⟩ := List.nodup_cons.mp hnames
    have hheld := ih hrest h.2
    have habsent : name ∉ (rest.encode vs).map Prod.fst := fun hmem =>
      hfresh ((names_encode_sublist rest vs).subset hmem)
    by_cases hshown : shown v = true
    · have hrestores := h.1
      rw [if_pos hshown] at hrestores
      rw [encode, if_pos hshown]
      refine ⟨Or.inl ⟨List.mem_cons_self, hrestores⟩, hheld.among (fun m hm => List.mem_cons_of_mem _ hm) ?_⟩
      intro other hother hmem
      rcases List.mem_cons.mp hmem with rfl | hmem
      · exact absurd hother hfresh
      · exact hmem
    · have hfallback := h.1
      rw [if_neg hshown] at hfallback
      rw [encode, if_neg hshown]
      exact ⟨Or.inr ⟨habsent, hfallback⟩, hheld⟩

/-- A record is read from its members in any order, among others of other names. -/
theorem codec_among {α β : Type} {name : String} {fs : Fields α} {make : α → β} {parts : β → α} {v : β}
    (hnames : fs.names.Nodup) (hmake : make (parts v) = v) (h : fs.Restored room (parts v))
    {others : List (String × Json)} (hperm : members.Perm (others ++ fs.encode (parts v)))
    (distinct : (others.map Prod.fst).Nodup) (hdepth : depth + room < Node.depthLimit)
    (hothers : ∀ m ∈ others, m.1 ∉ fs.names ∧ (m.2.tree depth).skipFault? = none) :
    (fs.codec name make parts).decode (.object (treeMembers depth members) .closed) = .ok v := by
  have hsublist := names_encode_sublist fs (parts v)
  have hmembers : ((others ++ fs.encode (parts v)).map Prod.fst).Nodup := by
    rw [List.map_append]
    refine List.nodup_append.mpr ⟨distinct, hsublist.nodup hnames, ?_⟩
    rintro other hother own hown rfl
    obtain ⟨m, hm, rfl⟩ := List.mem_map.mp hother
    exact (hothers m hm).1 (hsublist.subset hown)
  have hheld : fs.Held members room (parts v) := by
    refine (held_encode hnames h).among (fun m hm => hperm.mem_iff.mpr (List.mem_append_right others hm)) ?_
    intro own hown hmem
    rw [(hperm.map Prod.fst).mem_iff, List.map_append] at hmem
    rcases List.mem_append.mp hmem with hother | hmem
    · obtain ⟨m, hm, rfl⟩ := List.mem_map.mp hother
      exact absurd hown (hothers m hm).1
    · exact hmem
  have hskipped : ∀ m ∈ members, m.1 ∉ fs.names → (m.2.tree depth).skipFault? = none := by
    intro m hm hother
    rcases List.mem_append.mp (hperm.mem_iff.mp hm) with hm | hm
    · exact (hothers m hm).2
    · exact absurd (hsublist.subset (List.mem_map_of_mem hm)) hother
  rw [codec_of_held ((hperm.map Prod.fst).nodup_iff.mpr hmembers) hdepth _ hheld hskipped, hmake]

theorem codec_restores {α β : Type} {name : String} {fs : Fields α} {make : α → β} {parts : β → α} {v : β}
    (hnames : fs.names.Nodup) (hmake : make (parts v) = v) (h : fs.Restored room (parts v)) :
    (fs.codec name make parts).Restores (room + 1) v := by
  intro depth hdepth
  have hwritten : ((fs.codec name make parts).encode v).tree depth =
      .object (treeMembers (depth + 1) (fs.encode (parts v))) .closed := tree_obj (by omega) _
  rw [hwritten]
  have hperm : (fs.encode (parts v)).Perm ([] ++ fs.encode (parts v)) := .refl _
  exact codec_among hnames hmake h hperm List.nodup_nil (by omega) fun _ hm => nomatch hm

end Fields

/-- What is written is read, if it is understood from its tree. -/
theorem Codec.read_render {α : Type} {c : Codec α} {j : Json} {v : α} (h : c.decode (j.tree 0) = .ok v) :
    c.read j.render = .ok v := by
  simp only [Codec.read, Json.read_render, h]
  rfl

end Coursework.Json
