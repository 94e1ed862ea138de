import Coursework.Proofs.Download
import Coursework.Proofs.Integrity

/-!
# Rows and blobs

An attachment has a row in the store and a blob under the storage key of the row, and nothing writes the two at once.
As long as storage keys never repeat, every row has its blob all the same, whichever calls fail.
-/
namespace Coursework

open Operation

namespace Uuid

theorem digitChar_ne_hyphen (d : Fin 16) : digitChar d ≠ '-' := by
  revert d
  decide

theorem digit?_digitChar (d : Fin 16) : digit? (digitChar d) = some d := by
  revert d
  decide

theorem digitChar_injective : Function.Injective digitChar := by
  intro d e h
  have hd := digit?_digitChar d
  rw [h, digit?_digitChar e] at hd
  exact (Option.some.inj hd).symm

/-- Without its hyphens a text is what was hyphenated. -/
theorem filter_hyphenate {cs : List Char} (h : ∀ c ∈ cs, c ≠ '-') : (hyphenate cs).filter (· ≠ '-') = cs := by
  have hkeep : ∀ ds : List Char, ds ⊆ cs → ds.filter (· ≠ '-') = ds := by
    intro ds hds
    exact List.filter_eq_self.mpr fun c hc => decide_eq_true (h c (hds hc))
  have hgroup : ∀ n k, (cs.drop n).take k ⊆ cs := by
    intro n k
    exact List.Subset.trans (List.take_subset k _) (List.drop_subset n cs)
  have hjoin : ∀ n k, (cs.drop n).take k ++ cs.drop (n + k) = cs.drop n := by
    intro n k
    rw [← List.drop_drop]
    exact List.take_append_drop k (cs.drop n)
  simp only [hyphenate, List.filter_append, List.filter_cons, hkeep _ (List.take_subset 8 cs), hkeep _ (hgroup _ _),
    hkeep _ (List.drop_subset 20 cs), List.append_assoc, ne_eq, not_true, decide_false, Bool.false_eq_true, if_false]
  rw [hjoin 16 4, hjoin 12 4, hjoin 8 4]
  exact List.take_append_drop 8 cs

theorem length_chars (u : Uuid) : u.chars.length = 36 := by
  simp [chars, hyphenate, u.length_digits]

theorem filter_chars (u : Uuid) : u.chars.filter (· ≠ '-') = u.digits.map digitChar := by
  refine filter_hyphenate fun c hc => ?_
  obtain ⟨d, -, rfl⟩ := List.mem_map.mp hc
  exact digitChar_ne_hyphen d

theorem mem_chars {u : Uuid} {c : Char} (hc : c ∈ u.chars) : c = '-' ∨ ∃ d, c = digitChar d := by
  by_cases hhyphen : c = '-'
  · exact Or.inl hhyphen
  · have hplain : c ∈ u.chars.filter (· ≠ '-') := List.mem_filter.mpr ⟨hc, decide_eq_true hhyphen⟩
    rw [filter_chars] at hplain
    obtain ⟨d, -, rfl⟩ := List.mem_map.mp hplain
    exact Or.inr ⟨d, rfl⟩

theorem chars_injective : Function.Injective chars := by
  intro u v h
  have hdigits : u.digits.map digitChar = v.digits.map digitChar := by rw [← filter_chars u, h, filter_chars v]
  have hsame : u.digits = v.digits := List.map_injective_iff.mpr digitChar_injective hdigits
  cases u
  cases v
  simpa using hsame

end Uuid

namespace Attachments

/-- A storage key begins with the identifier that was drawn for it. -/
theorem storageKey_cancel {u v : Uuid} {name name' : String} (h : storageKey u name = storageKey v name') : u = v := by
  have hchars : u.chars ++ (FileName.keySuffix name).toList = v.chars ++ (FileName.keySuffix name').toList := by
    have hlists := congrArg String.toList h
    simpa [storageKey, Uuid.text, String.toList_append, String.toList_ofList] using hlists
  have hlength : u.chars.length = v.chars.length := by rw [Uuid.length_chars, Uuid.length_chars]
  exact Uuid.chars_injective (List.append_inj_left hchars hlength)

end Attachments

namespace Store

def contents (s : Store) (key : String) : List Bytes := (s.blobs.filter fun b => b.key = key).map Blob.bytes

theorem contents_eq_singleton {s : Store} {key : String} {bytes : Bytes} (h : s.contents key = [bytes]) :
    ∃ blob, s.blob? key = some blob ∧ blob.bytes = bytes := by
  simp only [contents] at h
  cases hf : s.blobs.filter fun b => b.key = key with
  | nil => rw [hf] at h; cases h
  | cons b bs =>
    rw [hf] at h
    obtain ⟨rfl, htail⟩ := List.cons.inj h
    obtain rfl : bs = [] := List.map_eq_nil_iff.mp htail
    exact ⟨b, by rw [blob?, hf]; rfl, rfl⟩

theorem contents_append_of_ne {s : Store} {b : Blob} {key : String} (h : b.key ≠ key) :
    contents { s with blobs := s.blobs ++ [b] } key = s.contents key := by
  simp [contents, List.filter_append, h]

theorem contents_append_self {s : Store} {key : String} (bytes : Bytes) (storedAt : Timestamp)
    (h : s.contents key = []) : contents { s with blobs := s.blobs ++ [⟨key, bytes, storedAt⟩] } key = [bytes] := by
  simp only [contents] at h
  simp [contents, List.filter_append, h]

/-- A blob that is alone under its key leaves none behind. -/
theorem ne_of_mem_remove? {s : Store} {key : String} {bytes : Bytes} {rest : List Blob}
    (h : s.contents key = [bytes]) (removed : Table.remove? (fun b => b.key = key) s.blobs = some rest) :
    ∀ b ∈ rest, b.key ≠ key := by
  obtain ⟨before, x, after, hblobs, hx, rfl⟩ := Table.remove?_split removed
  -- what is removed counts for one of one
  have hlength := congrArg List.length h
  rw [contents, hblobs, List.filter_append, List.filter_cons, if_pos hx] at hlength
  simp only [List.length_map, List.length_append, List.length_cons, List.length_nil] at hlength
  intro b hb he
  have hfilter : b ∈ (before ++ after).filter fun b => b.key = key :=
    List.mem_filter.mpr ⟨hb, decide_eq_true he⟩
  have hpos := List.length_pos_of_mem hfilter
  rw [List.filter_append, List.length_append] at hpos
  omega

end Store

/-- Among these events, every upload answered with the sanitized name, its lesson and a drawn storage key; every row
that is still there goes back to such an upload, and has one blob, with the bytes of that upload. -/
structure Shelved (events : List Event) (drawn : String → Prop) (s : Store) : Prop where
  rows : ∀ row ∈ s.attachments, ∃ lessonId rawName bytes, ⟨.upload lessonId rawName bytes, .ok row⟩ ∈ events
  uploads : ∀ lessonId rawName bytes row, ⟨.upload lessonId rawName bytes, .ok row⟩ ∈ events →
    FileName.sanitize rawName = .ok row.name ∧ row.lessonId = lessonId ∧ drawn row.storageKey
  blobs : ∀ blob ∈ s.blobs, drawn blob.key
  contents : ∀ lessonId rawName bytes row, ⟨.upload lessonId rawName bytes, .ok row⟩ ∈ events →
    row ∈ s.attachments → s.contents row.storageKey = [bytes]

def Event.AddsNoRow (e : Event) : Prop := ∀ lessonId rawName bytes row, e ≠ ⟨.upload lessonId rawName bytes, .ok row⟩

namespace Shelved

variable {events : List Event} {drawn drawn' : String → Prop} {s : Store} {e : Event}

theorem empty (drawn : String → Prop) : Shelved [] drawn Store.empty := by
  constructor <;> simp [Store.empty]

theorem row_drawn (hs : Shelved events drawn s) {row : Attachment} (hrow : row ∈ s.attachments) :
    drawn row.storageKey := by
  obtain ⟨lessonId, rawName, bytes, he⟩ := hs.rows row hrow
  exact (hs.uploads _ _ _ _ he).2.2

theorem contents_of_not_drawn (hs : Shelved events drawn s) {key : String} (hkey : ¬ drawn key) :
    s.contents key = [] := by
  have hnone : ∀ b ∈ s.blobs, ¬ decide (b.key = key) = true := by
    intro b hb he
    exact hkey (of_decide_eq_true he ▸ hs.blobs b hb)
  rw [Store.contents, List.filter_eq_nil_iff.mpr hnone, List.map_nil]

theorem frame (hs : Shelved events drawn s) (hd : ∀ key, drawn key → drawn' key) (he : e.AddsNoRow) {t : Store}
    (hrows : t.attachments = s.attachments) (hblobs : t.blobs = s.blobs) : Shelved (events ++ [e]) drawn' t := by
  have hold : ∀ {lessonId rawName bytes row}, ⟨.upload lessonId rawName bytes, .ok row⟩ ∈ events ++ [e] →
      ⟨.upload lessonId rawName bytes, .ok row⟩ ∈ events := by
    intro lessonId rawName bytes row hmem
    rcases List.mem_append.mp hmem with hmem | hmem
    · exact hmem
    · exact absurd (List.mem_singleton.mp hmem).symm (he _ _ _ _)
  refine ⟨?rows, ?uploads, ?blobs, ?contents⟩
  case rows =>
    intro row hrow
    obtain ⟨lessonId, rawName, bytes, hmem⟩ := hs.rows row (hrows ▸ hrow)
    exact ⟨lessonId, rawName, bytes, List.mem_append_left _ hmem⟩
  case uploads =>
    intro lessonId rawName bytes row hmem
    obtain ⟨hname, hlesson, hkey⟩ := hs.uploads _ _ _ _ (hold hmem)
    exact ⟨hname, hlesson, hd _ hkey⟩
  case blobs => exact fun blob hblob => hd _ (hs.blobs blob (hblobs ▸ hblob))
  case contents =>
    intro lessonId rawName bytes row hmem hrow
    rw [Store.contents, hblobs]
    exact hs.contents _ _ _ _ (hold hmem) (hrows ▸ hrow)

/-- A blob under a new key comes alone. -/
theorem strand (hs : Shelved events drawn s) (hd : ∀ key, drawn key → drawn' key) (he : e.AddsNoRow) {blob : Blob}
    (hnew : ¬ drawn blob.key) (hnow : drawn' blob.key) :
    Shelved (events ++ [e]) drawn' { s with blobs := s.blobs ++ [blob] } := by
  have hframe := hs.frame hd he (t := s) rfl rfl
  refine { hframe with blobs := ?blobs, contents := ?contents }
  case blobs =>
    intro b hb
    rcases List.mem_append.mp hb with hb | hb
    · exact hframe.blobs b hb
    · exact List.mem_singleton.mp hb ▸ hnow
  case contents =>
    intro lessonId rawName bytes row hmem hrow
    have hne : blob.key ≠ row.storageKey := fun h => hnew (h ▸ hs.row_drawn hrow)
    rw [Store.contents_append_of_ne hne]
    exact hframe.contents _ _ _ _ hmem hrow

/-- A blob under a new key comes with its row. -/
theorem shelve (hs : Shelved events drawn s) (hd : ∀ key, drawn key → drawn' key) (row : Attachment) {rawName : String}
    {bytes : Bytes} {storedAt : Timestamp} (named : FileName.sanitize rawName = .ok row.name)
    (hnew : ¬ drawn row.storageKey) (hnow : drawn' row.storageKey) :
    Shelved (events ++ [⟨.upload row.lessonId rawName bytes, .ok row⟩]) drawn'
      { s with
        attachments := s.attachments ++ [row]
        blobs := s.blobs ++ [⟨row.storageKey, bytes, storedAt⟩] } := by
  refine ⟨?rows, ?uploads, ?blobs, ?contents⟩
  case rows =>
    intro row' hrow
    rcases List.mem_append.mp hrow with hrow | hrow
    · obtain ⟨lessonId, rawName', bytes', hmem⟩ := hs.rows row' hrow
      exact ⟨lessonId, rawName', bytes', List.mem_append_left _ hmem⟩
    · obtain rfl := List.mem_singleton.mp hrow
      exact ⟨_, rawName, bytes, List.mem_append_right _ (List.mem_singleton_self _)⟩
  case uploads =>
    intro lessonId rawName' bytes' row' hmem
    rcases List.mem_append.mp hmem with hmem | hmem
    · obtain ⟨hname, hlesson, hkey⟩ := hs.uploads _ _ _ _ hmem
      exact ⟨hname, hlesson, hd _ hkey⟩
    · cases List.mem_singleton.mp hmem
      exact ⟨named, rfl, hnow⟩
  case blobs =>
    intro b hb
    rcases List.mem_append.mp hb with hb | hb
    · exact hd _ (hs.blobs b hb)
    · exact List.mem_singleton.mp hb ▸ hnow
  case contents =>
    -- an old upload has an old key, and the new one a new key, so the two never mix
    intro lessonId rawName' bytes' row' hmem hrow
    rcases List.mem_append.mp hmem with hmem | hmem
    · have hkey := (hs.uploads _ _ _ _ hmem).2.2
      have hne : row.storageKey ≠ row'.storageKey := fun h => hnew (h ▸ hkey)
      rcases List.mem_append.mp hrow with hrow | hrow
      · rw [← hs.contents _ _ _ _ hmem hrow]
        exact Store.contents_append_of_ne (b := ⟨row.storageKey, bytes, storedAt⟩) hne
      · obtain rfl := List.mem_singleton.mp hrow
        exact absurd rfl hne
    · cases List.mem_singleton.mp hmem
      exact Store.contents_append_self bytes storedAt (hs.contents_of_not_drawn hnew)

/-- A row goes, and perhaps its blob. -/
theorem discard (hs : Shelved events drawn s) (hd : ∀ key, drawn key → drawn' key) (he : e.AddsNoRow)
    {row : Attachment} {rows : List Attachment} {rest : List Blob}
    (hrows : ∀ r ∈ rows, r ∈ s.attachments ∧ r.storageKey ≠ row.storageKey) (hrest : rest ⊆ s.blobs)
    (hkept : ∀ key, key ≠ row.storageKey → Store.contents { s with blobs := rest } key = s.contents key) :
    Shelved (events ++ [e]) drawn' { s with attachments := rows, blobs := rest } := by
  have hframe := hs.frame hd he (t := s) rfl rfl
  refine ⟨fun r hr => hframe.rows r (hrows r hr).1, hframe.uploads, fun b hb => hframe.blobs b (hrest hb), ?_⟩
  intro lessonId rawName bytes r hmem hr
  obtain ⟨hstored, hne⟩ := hrows r hr
  rw [← hframe.contents _ _ _ _ hmem hstored]
  exact hkept _ hne

end Shelved

namespace Store

/-- Whether every blob belongs to a row. -/
def Tidy (s : Store) : Prop := ∀ blob ∈ s.blobs, ∃ row ∈ s.attachments, row.storageKey = blob.key

theorem Tidy.shelve {s : Store} (hclean : s.Tidy) {row : Attachment} {blob : Blob} (hkey : row.storageKey = blob.key) :
    Tidy { s with attachments := s.attachments ++ [row], blobs := s.blobs ++ [blob] } := by
  intro b hb
  rcases List.mem_append.mp hb with hb | hb
  · obtain ⟨row', hrow, hkey'⟩ := hclean b hb
    exact ⟨row', List.mem_append_left _ hrow, hkey'⟩
  · obtain rfl := List.mem_singleton.mp hb
    exact ⟨row, List.mem_append_right _ (List.mem_singleton_self _), hkey⟩

theorem Tidy.discard {s : Store} (hclean : s.Tidy) (key : String) {rows : List Attachment} {rest : List Blob}
    (hrows : ∀ row, row ∈ s.attachments → row.storageKey ≠ key → row ∈ rows)
    (hrest : ∀ blob ∈ rest, blob ∈ s.blobs ∧ blob.key ≠ key) :
    Tidy { s with attachments := rows, blobs := rest } := by
  intro b hb
  obtain ⟨hstored, hne⟩ := hrest b hb
  obtain ⟨row, hrow, hkey⟩ := hclean b hstored
  exact ⟨row, hrows row hrow (hkey ▸ hne), hkey⟩

end Store

namespace History

variable {h : History} {now : Timestamp} {op : Operation}

/-- Whether a storage key begins with an identifier that has been drawn for one. -/
def Drawn (h : History) (key : String) : Prop :=
  ∃ i, i < h.backend.keysDrawn ∧ ∃ name, key = Attachments.storageKey (h.backend.keys i) name

/-- Whether the identifiers that have been drawn for storage keys are all different. -/
def FreshKeys (h : History) : Prop :=
  ∀ i j, i < h.backend.keysDrawn → j < h.backend.keysDrawn → h.backend.keys i = h.backend.keys j → i = j

def IsShelved (h : History) : Prop := Shelved h.events h.Drawn h.store

theorem FreshKeys.of_serveAll (steps : List (Timestamp × Operation)) (fresh : (h.serveAll steps).FreshKeys) :
    h.FreshKeys := by
  obtain ⟨hkeys, hdrawn⟩ := h.serveAll_keys steps
  intro i j hi hj he
  exact fresh i j (Nat.lt_of_lt_of_le hi hdrawn) (Nat.lt_of_lt_of_le hj hdrawn) (by rw [hkeys, he])

theorem Drawn.serve {key : String} (hd : h.Drawn key) : (h.serve now op).Drawn key := by
  obtain ⟨hkeys, hdrawn⟩ := h.serve_keys now op
  obtain ⟨i, hi, name, rfl⟩ := hd
  exact ⟨i, Nat.lt_of_lt_of_le hi hdrawn, name, by rw [hkeys]⟩

theorem drawn_next (hdrawn : h.backend.keysDrawn < (h.serve now op).backend.keysDrawn) (name : String) :
    (h.serve now op).Drawn (Attachments.storageKey (h.backend.keys h.backend.keysDrawn) name) :=
  ⟨h.backend.keysDrawn, hdrawn, name, by rw [(h.serve_keys now op).1]⟩

theorem not_drawn_next (fresh : (h.serve now op).FreshKeys)
    (hdrawn : h.backend.keysDrawn < (h.serve now op).backend.keysDrawn) (name : String) :
    ¬ h.Drawn (Attachments.storageKey (h.backend.keys h.backend.keysDrawn) name) := by
  rintro ⟨i, hi, name', he⟩
  have hsame : h.backend.keys h.backend.keysDrawn = h.backend.keys i := Attachments.storageKey_cancel he
  have hindex : h.backend.keysDrawn = i :=
    fresh _ _ hdrawn (Nat.lt_trans hi hdrawn) (by rw [(h.serve_keys now op).1]; exact hsame)
  omega

/-- An upload that leaves something behind has drawn its storage key. -/
theorem upload_draws {lessonId rawName : String} {bytes : Bytes} {t : Store}
    (ht : (h.serve now (.upload lessonId rawName bytes)).store = t) :
    t = h.store ∨ h.backend.keysDrawn < (h.serve now (.upload lessonId rawName bytes)).backend.keysDrawn := by
  subst ht
  exact (Attachments.upload_ends lessonId rawName bytes
    (h.servesWithin_anything now (.upload lessonId rawName bytes)).within).2

/-- A blob that is removed again was the last one. -/
theorem undone_blobs {s : Store} {blob : Blob} {key : String} {rest : List Blob} {drawn : String → Prop}
    (removed : Table.remove? (fun b => b.key = key) (s.blobs ++ [blob]) = some rest) (hkey : blob.key = key)
    (hblobs : ∀ b ∈ s.blobs, drawn b.key) (hnew : { s with blobs := rest } = s ∨ ¬ drawn key) :
    rest = s.blobs := by
  rcases hnew with hsame | hnew
  · exact congrArg Store.blobs hsame
  · have hothers : ∀ b ∈ s.blobs, decide (b.key = key) = false := by
      intro b hb
      exact decide_eq_false fun he => hnew (he ▸ hblobs b hb)
    rw [Table.remove?_append_singleton hothers (decide_eq_true hkey)] at removed
    exact (Option.some.inj removed).symm

theorem serve_shelved (hs : h.IsShelved) (hi : h.store.Intact) (fresh : (h.serve now op).FreshKeys) :
    (h.serve now op).IsShelved := by
  have ho := serve_outcome (h.servesWithin_anything now op)
  have hd : ∀ key, h.Drawn key → (h.serve now op).Drawn key := fun key => Drawn.serve
  unfold IsShelved at hs ⊢
  rw [serve_events]
  generalize h.result now op = r at ho ⊢
  generalize ht : (h.serve now op).store = t at ho ⊢
  cases ho with
  | upload parent named _ =>
    have hdrawn := (upload_draws ht).resolve_left fun hsame => by
      simpa using congrArg (fun s => s.attachments.length) hsame
    exact hs.shelve hd (Attachments.row ..) named (not_drawn_next fresh hdrawn _) (drawn_next hdrawn _)
  | uploadUndone f removed =>
    -- under a new storage key nothing but the blob of this upload can have been removed
    have hrest := undone_blobs removed rfl hs.blobs
      ((upload_draws ht).imp_right fun hdrawn => not_drawn_next fresh hdrawn _)
    exact hs.frame hd (by rintro _ _ _ _ ⟨⟩) rfl hrest
  | uploadStranded f g _ =>
    have hdrawn := (upload_draws ht).resolve_left fun hsame => by
      simpa using congrArg (fun s => s.blobs.length) hsame
    exact hs.strand hd (by rintro _ _ _ _ ⟨⟩) (not_drawn_next fresh hdrawn _) (drawn_next hdrawn _)
  | deleteAttachment found removed cleared =>
    -- storage keys are unique, so the blobs of the other rows are none of those that may go
    have hrows := fun r => (Table.mem_remove?_iff (y := r) hi.storageKeys removed found).mp
    refine hs.discard hd (by rintro _ _ _ _ ⟨⟩) hrows ?_ fun key hkey => ?_
    · rcases cleared with hcleared | ⟨rfl, -⟩
      · exact (Table.remove?_sublist hcleared).subset
      · exact List.Subset.refl _
    · rcases cleared with hcleared | ⟨rfl, -⟩
      · refine congrArg (List.map Blob.bytes) (Table.filter_remove? (fun b hb => ?_) hcleared)
        exact decide_eq_false (of_decide_eq_true hb ▸ Ne.symm hkey)
      · rfl
  | _ => exact hs.frame hd (by rintro _ _ _ _ ⟨⟩) rfl rfl

/-- When nothing fails, no blob is left without its row. -/
theorem serve_tidy (hclean : h.store.Tidy) (hs : h.IsShelved) (hi : h.store.Intact) (fresh : (h.serve now op).FreshKeys)
    (hw : h.ServesWithin .nothing now op) : (h.serve now op).store.Tidy := by
  have ho := serve_outcome hw
  generalize h.result now op = r at ho
  generalize ht : (h.serve now op).store = t at ho ⊢
  cases ho with
  | upload _ _ _ => exact hclean.shelve rfl
  | uploadUndone f removed =>
    have hrest := undone_blobs removed rfl hs.blobs
      ((upload_draws ht).imp_right fun hdrawn => not_drawn_next fresh hdrawn _)
    intro blob hblob
    exact hclean blob (hrest ▸ hblob)
  | uploadStranded _ _ stuck => exact stuck.elim
  | @deleteAttachment _ gone _ _ found removed cleared =>
    refine hclean.discard gone.storageKey (fun row hrow hne => ?_) fun blob hblob => ?_
    · exact (Table.mem_remove?_iff hi.storageKeys removed found).mpr ⟨hrow, hne⟩
    · rcases cleared with hcleared | ⟨rfl, ⟨f, hf⟩ | hnone⟩
      · have hrow := List.mem_of_find?_eq_some found
        obtain ⟨lessonId, rawName, bytes, hmem⟩ := hs.rows _ hrow
        have hcontents := hs.contents _ _ _ _ hmem hrow
        exact ⟨(Table.remove?_sublist hcleared).subset hblob, Store.ne_of_mem_remove? hcontents hcleared blob hblob⟩
      · exact hf.elim
      · exact ⟨hblob, hnone blob hblob⟩
  | _ => exact hclean

variable {steps : List (Timestamp × Operation)}

theorem serveAll_shelved (hs : h.IsShelved) (hi : h.store.Intact) (fresh : (h.serveAll steps).FreshKeys) :
    (h.serveAll steps).IsShelved := by
  -- identifiers that are all different at the end were so at every step before
  induction steps generalizing h with
  | nil => exact hs
  | cons step steps ih =>
    have hfresh : (h.serve step.1 step.2).FreshKeys := FreshKeys.of_serveAll steps fresh
    exact ih (serve_shelved hs hi hfresh) (serve_intact hi step.1 step.2) fresh

theorem serveAll_tidy (hclean : h.store.Tidy) (hs : h.IsShelved) (hi : h.store.Intact)
    (fresh : (h.serveAll steps).FreshKeys) (hw : h.AllWithin .nothing steps) : (h.serveAll steps).store.Tidy := by
  induction steps generalizing h with
  | nil => exact hclean
  | cons step steps ih =>
    have hfresh : (h.serve step.1 step.2).FreshKeys := FreshKeys.of_serveAll steps fresh
    exact ih (serve_tidy hclean hs hi hfresh hw.1) (serve_shelved hs hi hfresh) (serve_intact hi step.1 step.2) fresh
      hw.2

theorem download_uploaded (hs : h.IsShelved) (hi : h.store.Intact) {lessonId rawName user : String} {bytes : Bytes}
    {row : Attachment} (hmem : ⟨.upload lessonId rawName bytes, .ok row⟩ ∈ h.events)
    (hrow : row ∈ h.store.attachments) (granted : h.store.hasGrant user row.lessonId = true)
    (hw : h.ServesWithin .nothing now (.download user row.id)) :
    h.result now (.download user row.id) = .ok ⟨row.name, bytes⟩ := by
  obtain ⟨hfetched, -⟩ := Attachments.download_fetched user row.id hw.within
  obtain ⟨blob, hblob, rfl⟩ := Store.contents_eq_singleton (hs.contents _ _ _ _ hmem hrow)
  have found : h.store.attachment? row.id = some row := Table.find?_eq_some_of_mem hi.attachmentIds hrow
  exact hfetched.eq_ok found granted hblob

/-- Whatever fails, every row goes back to an upload and has exactly one blob under a storage key of its own, with the
bytes of that upload, which a download then gives back; and when nothing fails there are no other blobs. -/
theorem uploads_stay_whole (ids keys : Nat → Uuid) (plan : List PlannedFault) (steps : List (Timestamp × Operation))
    (fresh : ((start ids keys plan).serveAll steps).FreshKeys) :
    let h := (start ids keys plan).serveAll steps
    (h.store.attachments.map Attachment.storageKey).Nodup ∧
      (∀ row ∈ h.store.attachments, ∃ lessonId rawName bytes,
        ⟨.upload lessonId rawName bytes, .ok row⟩ ∈ h.events) ∧
      (∀ lessonId rawName bytes row, ⟨.upload lessonId rawName bytes, .ok row⟩ ∈ h.events →
        row ∈ h.store.attachments → h.store.contents row.storageKey = [bytes] ∧
          ∀ now user, h.store.hasGrant user row.lessonId = true →
            h.ServesWithin .nothing now (.download user row.id) →
            ∃ name, FileName.sanitize rawName = .ok name ∧
              h.result now (.download user row.id) = .ok ⟨name, bytes⟩) ∧
      ((start ids keys plan).AllWithin .nothing steps → h.store.Tidy) := by
  intro h
  have hshelved : (start ids keys plan).IsShelved := Shelved.empty _
  have hs : h.IsShelved := serveAll_shelved hshelved Store.intact_empty fresh
  have hi : h.store.Intact := serveAll_intact Store.intact_empty steps
  refine ⟨hi.storageKeys, hs.rows, ?_, ?_⟩
  · intro lessonId rawName bytes row hmem hrow
    refine ⟨hs.contents _ _ _ _ hmem hrow, fun now user granted hw => ?_⟩
    exact ⟨row.name, (hs.uploads _ _ _ _ hmem).1, download_uploaded hs hi hmem hrow granted hw⟩
  · intro hw
    have hclean : (start ids keys plan).store.Tidy := fun blob hblob => by cases hblob
    exact serveAll_tidy hclean hshelved Store.intact_empty fresh hw

theorem uploads_stay_whole_sample :
    sample.FreshKeys ∧ sample.store.attachments.map Attachment.name = ["slides.pdf"] ∧
      ∀ row ∈ sample.store.attachments, ∃ bytes, sample.store.contents row.storageKey = [bytes] := by
  have hdrawn : sample.backend.keysDrawn = 1 := by decide +kernel
  have fresh : sample.FreshKeys := by
    intro i j hi hj _
    omega
  obtain ⟨-, hrows, hcontents, -⟩ := uploads_stay_whole .numbered .numbered [] _ fresh
  refine ⟨fresh, by decide +kernel, fun row hrow => ?_⟩
  obtain ⟨lessonId, rawName, bytes, hmem⟩ := hrows row hrow
  exact ⟨bytes, (hcontents lessonId rawName bytes row hmem hrow).1⟩

end History

end Coursework
