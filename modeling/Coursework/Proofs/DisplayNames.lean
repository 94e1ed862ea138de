import Coursework.Proofs.WellFormed

/-!
# Display names and storage keys

An upload is shown under the last name in the path that it was sent with, without the blanks around it, and is turned
down if nothing that could be a name is left.  Its bytes lie under a key of which the name decides no more than a plain
extension, so that no name leads two uploads to one key, or one of them out of its place.
-/
namespace Coursework

namespace Text

variable {before after cs : List Char}

/-- A text is its trimmed middle with blanks on both sides. -/
theorem exists_trim (cs : List Char) :
    ∃ before after, cs = before ++ (trim cs ++ after) ∧ ∀ c ∈ before ++ after, isBlank c = true := by
  refine ⟨cs.takeWhile isBlank, (trimStart cs).rtakeWhile isBlank, ?_, ?_⟩
  · have hend : trim cs ++ (trimStart cs).rtakeWhile isBlank = trimStart cs := List.rdropWhile_append_rtakeWhile ..
    rw [hend, trimStart, List.takeWhile_append_dropWhile]
  · intro c hc
    rcases List.mem_append.mp hc with hc | hc
    · exact List.mem_takeWhile_imp hc
    · exact List.mem_rtakeWhile_imp hc

theorem dropWhile_append_of_head {p : Char → Bool} {front rest : List Char} (hfront : ∀ c ∈ front, p c = true)
    (hrest : ∀ c, rest.head? = some c → p c = false) : (front ++ rest).dropWhile p = rest := by
  rw [List.dropWhile_append_of_pos hfront]
  cases rest with
  | nil => rfl
  | cons c rest => rw [List.dropWhile_cons_of_neg (by simp [hrest c List.head?_cons])]

/-- A text without blanks at its ends is what trimming leaves of it between blanks. -/
theorem trim_between {name : String} (trimmed : IsTrimmed name) (hbefore : ∀ c ∈ before, isBlank c = true)
    (hafter : ∀ c ∈ after, isBlank c = true) : trim (before ++ (name.toList ++ after)) = name.toList := by
  by_cases hempty : name.toList = []
  · have hnone : trimStart (before ++ after) = [] :=
      List.dropWhile_eq_nil_iff.mpr fun c hc => (List.mem_append.mp hc).elim (hbefore c) (hafter c)
    rw [hempty, List.nil_append, trim, hnone]
    rfl
  · have hstart : trimStart (before ++ (name.toList ++ after)) = name.toList ++ after := by
      refine dropWhile_append_of_head hbefore fun c hc => trimmed.1 c ?_
      rwa [List.head?_append_of_ne_nil _ hempty] at hc
    have hend : (after.reverse ++ name.toList.reverse).dropWhile isBlank = name.toList.reverse := by
      refine dropWhile_append_of_head (fun c hc => hafter c (List.mem_reverse.mp hc)) fun c hc => trimmed.2 c ?_
      rwa [List.head?_reverse] at hc
    rw [trim, hstart, trimEnd, List.reverse_append, hend, List.reverse_reverse]

end Text

namespace FileName

/-- The last component is what follows the last separator. -/
theorem lastComponent_append {directory piece : List Char} (hplain : ∀ c ∈ piece, isSeparator c = false)
    (hlast : ∀ c, directory.getLast? = some c → isSeparator c = true) : lastComponent (directory ++ piece) = piece := by
  have hfront : ∀ c ∈ piece.reverse, (!isSeparator c) = true := by
    intro c hc
    rw [hplain c (List.mem_reverse.mp hc)]
    rfl
  have hnone : directory.reverse.takeWhile (fun c => !isSeparator c) = [] := by
    cases hdirectory : directory.reverse with
    | nil => rfl
    | cons last before =>
      have hsep : isSeparator last = true := hlast last (by rw [← List.head?_reverse, hdirectory, List.head?_cons])
      rw [List.takeWhile_cons_of_neg (by simp [hsep])]
  rw [lastComponent, List.reverse_append, List.takeWhile_append_of_pos hfront, hnone, List.append_nil,
    List.reverse_reverse]

theorem exists_directory (cs : List Char) :
    ∃ directory, cs = directory ++ lastComponent cs ∧ ∀ c, directory.getLast? = some c → isSeparator c = true := by
  refine ⟨cs.rdropWhile fun c => !isSeparator c, (List.rdropWhile_append_rtakeWhile ..).symm, fun c hc => ?_⟩
  have hnot := List.head?_dropWhile_not (fun c => !isSeparator c) cs.reverse
  rw [List.rdropWhile, List.getLast?_reverse] at hc
  rw [hc] at hnot
  simpa using hnot

/-- Whatever directory stands before a path, its last component is the same. -/
theorem lastComponent_of_directory {sep : Char} (hsep : isSeparator sep = true) (front cs : List Char) :
    lastComponent (front ++ sep :: cs) = lastComponent cs := by
  obtain ⟨directory, hcs, hlast⟩ := exists_directory cs
  have hpath : front ++ sep :: cs = (front ++ sep :: directory) ++ lastComponent cs := by
    rw [List.append_assoc, List.cons_append, ← hcs]
  rw [hpath]
  refine lastComponent_append (fun c => isSeparator_of_mem_lastComponent) fun c hc => ?_
  cases directory with
  | nil =>
    rw [List.getLast?_concat] at hc
    exact Option.some.inj hc ▸ hsep
  | cons first rest =>
    refine hlast c ?_
    rwa [List.getLast?_append_of_ne_nil _ (List.cons_ne_nil _ _), List.getLast?_cons_cons] at hc

/-- The name is what comes after the last separator of a path, without the blanks around it. -/
structure IsLast (raw name : String) (directory before after : List Char) : Prop where
  path : raw.toList = directory ++ (before ++ (name.toList ++ after))
  directory : ∀ c, directory.getLast? = some c → isSeparator c = true
  component : ∀ c ∈ before ++ (name.toList ++ after), isSeparator c = false
  before : ∀ c ∈ before, Text.isBlank c = true
  after : ∀ c ∈ after, Text.isBlank c = true
  trimmed : Text.IsTrimmed name

/-- The last name of a path. -/
def lastName (raw : String) : String := String.ofList (Text.trim (lastComponent raw.toList))

theorem isLast_iff {raw name : String} :
    (∃ directory before after, IsLast raw name directory before after) ↔ name = lastName raw := by
  constructor
  · rintro ⟨directory, before, after, h⟩
    rw [lastName, h.path, lastComponent_append h.component h.directory, Text.trim_between h.trimmed h.before h.after,
      String.ofList_toList]
  · rintro rfl
    obtain ⟨directory, hpath, hdirectory⟩ := exists_directory raw.toList
    obtain ⟨before, after, hcomponent, hblank⟩ := Text.exists_trim (lastComponent raw.toList)
    have hname : (lastName raw).toList = Text.trim (lastComponent raw.toList) := String.toList_ofList
    refine ⟨directory, before, after, ?_, hdirectory, ?_, ?_, ?_, Text.isTrimmed_trim _⟩
    · rw [hname, ← hcomponent, ← hpath]
    · rw [hname, ← hcomponent]
      exact fun c => isSeparator_of_mem_lastComponent
    · exact fun c hc => hblank c (List.mem_append_left _ hc)
    · exact fun c hc => hblank c (List.mem_append_right _ hc)

theorem isVoid_toList {name : String} : isVoid name.toList = true ↔ name ∈ ["", ".", ".."] := by
  have hspelled : ∀ cs, name.toList = cs ↔ name = String.ofList cs := by
    intro cs
    rw [← String.toList_inj, String.toList_ofList]
  have hempty : name.toList = [] ↔ name = "" := hspelled _
  have hhere : name.toList = ['.'] ↔ name = "." := hspelled _
  have habove : name.toList = ['.', '.'] ↔ name = ".." := hspelled _
  simp only [isVoid, Bool.or_eq_true, decide_eq_true_eq, hempty, hhere, habove, List.mem_cons, List.not_mem_nil,
    or_false, or_assoc]

theorem sanitize_eq (raw : String) :
    sanitize raw = if lastName raw ∈ ["", ".", ".."] then .error missing else .ok (lastName raw) := by
  have hname : Text.trim (lastComponent raw.toList) = (lastName raw).toList := String.toList_ofList.symm
  simp only [sanitize, hname, isVoid_toList]
  simp only [String.ofList_toList]

theorem sanitize_of_directory {sep : Char} (hsep : isSeparator sep = true) (front raw : String) :
    sanitize (front ++ String.singleton sep ++ raw) = sanitize raw := by
  have hsame : lastName (front ++ String.singleton sep ++ raw) = lastName raw := by
    simp only [lastName, String.toList_append, String.toList_singleton, List.append_assoc, List.singleton_append,
      lastComponent_of_directory hsep]
  rw [sanitize_eq, sanitize_eq, hsame]

/-- A name that is clean is its own last name. -/
theorem IsClean.sanitize_eq {name : String} (h : IsClean name) : sanitize name = .ok name := by
  have hplain : ∀ c ∈ name.toList, isSeparator c = false := by
    intro c hc
    simp only [isSeparator, Bool.or_eq_false_iff, decide_eq_false_iff_not]
    exact ⟨fun he => h.noSlash (he ▸ hc), fun he => h.noBackslash (he ▸ hc)⟩
  have hlast : name = lastName name :=
    isLast_iff.mp ⟨[], [], [], by simp, by simp, by simpa using hplain, by simp, by simp, h.trimmed⟩
  have hnotVoid : name ∉ ["", ".", ".."] := by simp [h.nonempty, h.notHere, h.notAbove]
  rw [FileName.sanitize_eq, ← hlast, if_neg hnotVoid]

/-- The name ends in a dot, behind something, and letters and digits. -/
structure HasExtension (name ext : String) : Prop where
  nonempty : ext ≠ ""
  plain : ∀ c ∈ ext.toList, c.isAlphanum = true
  stem : ∃ stem, stem ≠ "" ∧ name = stem ++ "." ++ ext

theorem keySuffix_of_hasExtension {name ext : String} (h : HasExtension name ext) : keySuffix name = "." ++ ext := by
  obtain ⟨stem, hstem, rfl⟩ := h.stem
  have hback : (stem ++ "." ++ ext).toList.reverse = ext.toList.reverse ++ '.' :: stem.toList.reverse := by simp
  have hdot : ∀ c ∈ ext.toList.reverse, decide (c ≠ '.') = true := by
    intro c hc
    have hplain := h.plain c (List.mem_reverse.mp hc)
    refine decide_eq_true ?_
    rintro rfl
    cases hplain
  have hext : (stem ++ "." ++ ext).toList.reverse.takeWhile (· ≠ '.') = ext.toList.reverse := by
    rw [hback, List.takeWhile_append_of_pos hdot]
    simp
  have hrest : (stem ++ "." ++ ext).toList.reverse.dropWhile (· ≠ '.') = '.' :: stem.toList.reverse := by
    rw [hback, List.dropWhile_append_of_pos hdot]
    simp
  have hall : ext.toList.reverse.all isPlain = true := by
    rw [List.all_reverse, List.all_eq_true]
    exact h.plain
  have hnonempty : ∀ s : String, s ≠ "" → s.toList.reverse ≠ [] := by
    intro s hs he
    exact hs (String.toList_inj.mp (by simpa using he))
  simp only [keySuffix, hext, hrest]
  rw [if_pos ⟨hnonempty stem hstem, hnonempty ext h.nonempty, hall⟩]
  simp

theorem ofList_reverse_ne_empty {cs : List Char} (h : cs ≠ []) : String.ofList cs.reverse ≠ "" := by
  intro he
  exact h (by simpa using congrArg String.toList he)

theorem keySuffix_of_not_hasExtension {name : String} (h : ¬ ∃ ext, HasExtension name ext) : keySuffix name = "" := by
  simp only [keySuffix]
  split
  · rename_i stem hrest
    refine if_neg fun hplain => h ?_
    obtain ⟨hstem, hext, hall⟩ := hplain
    have hback := List.takeWhile_append_dropWhile (p := fun c => decide (c ≠ '.')) (l := name.toList.reverse)
    rw [hrest] at hback
    refine ⟨String.ofList (name.toList.reverse.takeWhile (· ≠ '.')).reverse, ofList_reverse_ne_empty hext, ?_,
      String.ofList stem.reverse, ofList_reverse_ne_empty hstem, ?_⟩
    · rw [String.toList_ofList, ← List.all_eq_true, List.all_reverse]
      exact hall
    · have hname := congrArg List.reverse hback.symm
      rw [List.reverse_reverse] at hname
      refine String.toList_inj.mp (hname.trans ?_)
      simp
  · rfl

end FileName

theorem Uuid.isAlphanum_or_hyphen {u : Uuid} {c : Char} (h : c ∈ u.chars) : c.isAlphanum = true ∨ c = '-' := by
  have hdigit : ∀ d, (Uuid.digitChar d).isAlphanum = true := by decide
  rcases Uuid.mem_chars h with hhyphen | ⟨d, rfl⟩
  · exact Or.inr hhyphen
  · exact Or.inl (hdigit d)

namespace Attachments

open FileName

variable {u : Uuid} {name ext : String}

theorem storageKey_of_hasExtension (h : HasExtension name ext) (u : Uuid) :
    storageKey u name = u.text ++ "." ++ ext := by
  rw [storageKey, keySuffix_of_hasExtension h, String.append_assoc]

theorem storageKey_of_not_hasExtension (h : ¬ ∃ ext, HasExtension name ext) (u : Uuid) :
    storageKey u name = u.text := by
  rw [storageKey, keySuffix_of_not_hasExtension h, String.append_empty]

/-- A key with an extension is not the identifier alone, and the extension can be told from it. -/
theorem storageKey_eq_iff : storageKey u name = u.text ++ "." ++ ext ↔ HasExtension name ext := by
  refine ⟨fun h => ?_, fun h => storageKey_of_hasExtension h u⟩
  by_cases hsome : ∃ ext, HasExtension name ext
  · obtain ⟨own, hown⟩ := hsome
    rw [storageKey_of_hasExtension hown] at h
    have hsame : own = ext := String.toList_inj.mp (by simpa using congrArg String.toList h)
    exact hsame ▸ hown
  · rw [storageKey_of_not_hasExtension hsome] at h
    simpa using congrArg String.toList h

theorem storageKey_eq_text_iff : storageKey u name = u.text ↔ ¬ ∃ ext, HasExtension name ext := by
  refine ⟨?_, fun h => storageKey_of_not_hasExtension h u⟩
  rintro h ⟨ext, hext⟩
  rw [storageKey_of_hasExtension hext] at h
  simpa using congrArg String.toList h

/-- A key is the identifier, or goes on with a dot and the extension of the name. -/
theorem toList_storageKey_cases (u : Uuid) (name : String) :
    (storageKey u name).toList = u.chars ∨
      ∃ ext, HasExtension name ext ∧ (storageKey u name).toList = u.chars ++ '.' :: ext.toList := by
  by_cases hsome : ∃ ext, HasExtension name ext
  · obtain ⟨ext, hext⟩ := hsome
    exact Or.inr ⟨ext, hext, by simp [storageKey_of_hasExtension hext, Uuid.text]⟩
  · exact Or.inl (by simp [storageKey_of_not_hasExtension hsome, Uuid.text])

theorem mem_storageKey {c : Char} (h : c ∈ (storageKey u name).toList) : c.isAlphanum = true ∨ c = '-' ∨ c = '.' := by
  have hidentifier : c ∈ u.chars → c.isAlphanum = true ∨ c = '-' ∨ c = '.' := fun hc =>
    (Uuid.isAlphanum_or_hyphen hc).imp_right Or.inl
  rcases toList_storageKey_cases u name with hkey | ⟨ext, hext, hkey⟩
  · exact hidentifier (hkey ▸ h)
  · rw [hkey] at h
    rcases List.mem_append.mp h with h | h
    · exact hidentifier h
    · rcases List.mem_cons.mp h with rfl | h
      · exact Or.inr (Or.inr rfl)
      · exact Or.inl (hext.plain c h)

theorem count_dot_storageKey (u : Uuid) (name : String) : (storageKey u name).toList.count '.' ≤ 1 := by
  have hnone : u.chars.count '.' = 0 :=
    List.count_eq_zero.mpr fun h => (Uuid.isAlphanum_or_hyphen h).elim (by decide) (by decide)
  rcases toList_storageKey_cases u name with hkey | ⟨ext, hext, hkey⟩
  · rw [hkey, hnone]
    exact Nat.zero_le 1
  · have hext : ext.toList.count '.' = 0 := List.count_eq_zero.mpr fun h => absurd (hext.plain _ h) (by decide)
    rw [hkey, List.count_append, List.count_cons_self, hnone, hext]

/-- Every path gives its last name, without the blanks around it, or is turned down if that is no name; the directory
before it does not matter, and a name gives itself.  A key has no other characters than letters, digits, hyphens and at
most one dot, and goes on behind its identifier exactly when the name has a plain extension, so that two keys are the
same only if their identifiers are. -/
theorem display_names_and_keys (raw : String) :
    (∀ name, (∃ directory before after, IsLast raw name directory before after) ↔ name = lastName raw) ∧
    sanitize raw = (if lastName raw ∈ ["", ".", ".."] then .error missing else .ok (lastName raw)) ∧
    (∀ front, sanitize (front ++ "/" ++ raw) = sanitize raw ∧ sanitize (front ++ "\\" ++ raw) = sanitize raw) ∧
    ∀ name, sanitize raw = .ok name → IsClean name ∧ sanitize name = .ok name ∧
      ∀ u, (∀ c ∈ (storageKey u name).toList, c.isAlphanum = true ∨ c = '-' ∨ c = '.') ∧
        (storageKey u name).toList.count '.' ≤ 1 ∧
        (∀ ext, storageKey u name = u.text ++ "." ++ ext ↔ HasExtension name ext) ∧
        (storageKey u name = u.text ↔ ¬ ∃ ext, HasExtension name ext) ∧
        ∀ v other, storageKey u name = storageKey v other → u = v := by
  refine ⟨fun name => isLast_iff, sanitize_eq raw, fun front => ⟨?_, ?_⟩, fun name hname => ?_⟩
  · have hslash : isSeparator '/' = true := rfl
    exact sanitize_of_directory hslash front raw
  · have hbackslash : isSeparator '\\' = true := rfl
    exact sanitize_of_directory hbackslash front raw
  · have hclean := isClean_of_sanitize hname
    exact ⟨hclean, hclean.sanitize_eq, fun u => ⟨fun _ => mem_storageKey, count_dot_storageKey u name,
      fun _ => storageKey_eq_iff, storageKey_eq_text_iff, fun _ _ => storageKey_cancel⟩⟩

theorem display_names_and_keys_sample :
    sanitize "..\\a/ .notes.tar.gz\t" = .ok ".notes.tar.gz" ∧
      ∀ u, storageKey u ".notes.tar.gz" = u.text ++ "." ++ "gz" := by
  have hname : sanitize "..\\a/ .notes.tar.gz\t" = .ok ".notes.tar.gz" := by decide +kernel
  have hext : HasExtension ".notes.tar.gz" "gz" :=
    ⟨by decide, List.all_eq_true.mp rfl, ".notes.tar", by decide, rfl⟩
  obtain ⟨-, -, -, hkeys⟩ := display_names_and_keys "..\\a/ .notes.tar.gz\t"
  exact ⟨hname, fun u => (((hkeys _ hname).2.2 u).2.2.1 "gz").mpr hext⟩

end Attachments

end Coursework
