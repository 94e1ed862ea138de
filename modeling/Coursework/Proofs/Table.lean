import Coursework.Store.Table
import Mathlib.Data.List.Nodup

/-!
# Laws of tables

Adding puts a row at the end, changing and removing touch the first row that has the property.  What follows for the
keys of the rows and for their membership is all that the invariants of the store need.
-/
namespace Coursework.Table

variable {α β : Type} {p : α → Bool} {f : α → α} {rows rows' : List α}

theorem add?_eq_some {clash : α → α → Bool} {row : α} :
    add? clash row rows = some rows' ↔ (∀ x ∈ rows, clash row x = false) ∧ rows' = rows ++ [row] := by
  simp only [add?, Option.ite_none_left_eq_some, List.any_eq_true, not_exists, not_and, Option.some.injEq]
  constructor
  · rintro ⟨h, rfl⟩
    exact ⟨fun x hx => by simpa using h x hx, rfl⟩
  · rintro ⟨h, rfl⟩
    exact ⟨fun x hx => by simp [h x hx], rfl⟩

theorem modify?_split {y : α} (h : modify? p f rows = some (y, rows')) :
    ∃ before x after, rows = before ++ x :: after ∧ p x = true ∧ y = f x ∧ rows' = before ++ f x :: after := by
  induction rows generalizing rows' with
  | nil => simp [modify?] at h
  | cons x xs ih =>
    simp only [modify?] at h
    split at h
    · rename_i hx
      simp only [Option.some.injEq, Prod.mk.injEq] at h
      exact ⟨[], x, xs, rfl, hx, h.1.symm, h.2.symm⟩
    · obtain ⟨⟨z, zs⟩, hz, he⟩ := Option.map_eq_some_iff.mp h
      simp only [Prod.mk.injEq] at he
      obtain ⟨rfl, rfl⟩ := he
      obtain ⟨before, w, after, rfl, hw, hy, rfl⟩ := ih hz
      exact ⟨x :: before, w, after, rfl, hw, hy, rfl⟩

theorem remove?_split (h : remove? p rows = some rows') :
    ∃ before x after, rows = before ++ x :: after ∧ p x = true ∧ rows' = before ++ after := by
  induction rows generalizing rows' with
  | nil => simp [remove?] at h
  | cons x xs ih =>
    simp only [remove?] at h
    split at h
    · rename_i hx
      exact ⟨[], x, xs, rfl, hx, (Option.some.inj h).symm⟩
    · obtain ⟨zs, hz, rfl⟩ := Option.map_eq_some_iff.mp h
      obtain ⟨before, w, after, rfl, hw, rfl⟩ := ih hz
      exact ⟨x :: before, w, after, rfl, hw, rfl⟩

/-- What a change leaves alone in the changed row is left alone in the table. -/
theorem map_modify? {g : α → β} {y : α} (h : modify? p f rows = some (y, rows'))
    (hg : ∀ x, p x = true → g (f x) = g x) : rows'.map g = rows.map g := by
  obtain ⟨before, x, after, rfl, hx, -, rfl⟩ := modify?_split h
  simp [hg x hx]

/-- After a change there are the rows that were there, and the changed one. -/
theorem mem_modify? {x y : α} (h : modify? p f rows = some (y, rows')) (hx : x ∈ rows') :
    x ∈ rows ∨ x = y ∧ ∃ z ∈ rows, p z = true ∧ y = f z := by
  obtain ⟨before, z, after, rfl, hz, rfl, rfl⟩ := modify?_split h
  rcases List.mem_append.mp hx with hx | hx
  · exact Or.inl (List.mem_append_left _ hx)
  · rcases List.mem_cons.mp hx with rfl | hx
    · exact Or.inr ⟨rfl, z, List.mem_append_right before (List.mem_cons_self ..), hz, rfl⟩
    · exact Or.inl (List.mem_append_right before (List.mem_cons_of_mem z hx))

theorem remove?_sublist (h : remove? p rows = some rows') : rows'.Sublist rows := by
  obtain ⟨before, x, after, rfl, -, rfl⟩ := remove?_split h
  exact List.Sublist.append_left (List.sublist_cons_self x after) before

theorem mem_remove? (h : remove? p rows = some rows') {x : α} (hx : x ∈ rows) (hp : p x = false) : x ∈ rows' := by
  obtain ⟨before, y, after, rfl, hy, rfl⟩ := remove?_split h
  simp only [List.mem_append, List.mem_cons] at hx ⊢
  rcases hx with hx | rfl | hx
  · exact Or.inl hx
  · simp [hp] at hy
  · exact Or.inr hx

/-- Rows without the property are found as before. -/
theorem filter_remove? {q : α → Bool} (hq : ∀ x, p x = true → q x = false)
    (h : remove? p rows = some rows') : rows'.filter q = rows.filter q := by
  obtain ⟨before, x, after, rfl, hx, rfl⟩ := remove?_split h
  simp [hq x hx]

/-- Of the rows with the property the first one goes. -/
theorem filter_remove?_self (h : remove? p rows = some rows') : rows'.filter p = (rows.filter p).tail := by
  induction rows generalizing rows' with
  | nil => simp [remove?] at h
  | cons x xs ih =>
    simp only [remove?] at h
    by_cases hx : p x = true
    · rw [if_pos hx] at h
      rw [List.filter_cons_of_pos hx, List.tail_cons, Option.some.inj h]
    · rw [if_neg hx] at h
      obtain ⟨zs, hz, rfl⟩ := Option.map_eq_some_iff.mp h
      rw [List.filter_cons_of_neg hx, List.filter_cons_of_neg hx, ih hz]

/-- What is removed is what would be found. -/
theorem remove?_find? {x : α} (h : remove? p rows = some rows') (hx : rows.find? p = some x) :
    ∃ before after, rows = before ++ x :: after ∧ rows' = before ++ after := by
  induction rows generalizing rows' with
  | nil => cases hx
  | cons y ys ih =>
    simp only [remove?] at h
    by_cases hy : p y = true
    · rw [if_pos hy] at h
      rw [List.find?_cons_of_pos hy] at hx
      exact ⟨[], ys, by rw [Option.some.inj hx]; rfl, (Option.some.inj h).symm⟩
    · rw [if_neg hy] at h
      rw [List.find?_cons_of_neg hy] at hx
      obtain ⟨zs, hz, rfl⟩ := Option.map_eq_some_iff.mp h
      obtain ⟨before, after, rfl, rfl⟩ := ih hz hx
      exact ⟨y :: before, after, rfl, rfl⟩

/-- Where keys are unique, the other rows stay, and only these. -/
theorem mem_remove?_iff {key : α → β} {x y : α} (hn : (rows.map key).Nodup) (h : remove? p rows = some rows')
    (hx : rows.find? p = some x) : y ∈ rows' ↔ y ∈ rows ∧ key y ≠ key x := by
  obtain ⟨before, after, rfl, rfl⟩ := remove?_find? h hx
  have hd : key x ∉ (before ++ after).map key := by
    simp only [List.map_append, List.map_cons] at hn ⊢
    exact (List.nodup_cons.mp (List.nodup_middle.mp hn)).1
  constructor
  · intro hy
    refine ⟨by simp only [List.mem_append, List.mem_cons] at hy ⊢; tauto, ?_⟩
    intro he
    exact hd (he ▸ List.mem_map_of_mem hy)
  · rintro ⟨hy, hne⟩
    simp only [List.mem_append, List.mem_cons] at hy ⊢
    rcases hy with hy | rfl | hy
    · exact Or.inl hy
    · exact absurd rfl hne
    · exact Or.inr hy

theorem nodup_map_append {key : α → β} {row : α} (hn : (rows.map key).Nodup) (fresh : ∀ x ∈ rows, key x ≠ key row) :
    ((rows ++ [row]).map key).Nodup := by
  have hrow : key row ∉ rows.map key := by
    intro hmem
    obtain ⟨x, hx, he⟩ := List.mem_map.mp hmem
    exact fresh x hx he
  rw [List.map_append, List.map_singleton]
  exact List.nodup_append_comm.mp (List.nodup_cons.mpr ⟨hrow, hn⟩)

theorem nodup_map_remove? {key : α → β} (hn : (rows.map key).Nodup) (h : remove? p rows = some rows') :
    (rows'.map key).Nodup := hn.sublist ((remove?_sublist h).map key)

theorem mem_map_remove? [DecidableEq β] {key : α → β} {k k' : β} (hk : k' ≠ k)
    (h : remove? (fun x => key x = k) rows = some rows') (hmem : k' ∈ rows.map key) : k' ∈ rows'.map key := by
  obtain ⟨x, hx, rfl⟩ := List.mem_map.mp hmem
  exact List.mem_map_of_mem (mem_remove? h hx (decide_eq_false hk))

theorem remove?_append_singleton {x : α} (h : ∀ y ∈ rows, p y = false) (hx : p x = true) :
    remove? p (rows ++ [x]) = some rows := by
  induction rows with
  | nil => simp [remove?, hx]
  | cons y ys ih =>
    have hy : p y = false := h y (by simp)
    simp [remove?, hy, ih fun z hz => h z (List.mem_cons_of_mem y hz)]

theorem find?_eq_some_of_mem [DecidableEq β] {key : α → β} (hn : (rows.map key).Nodup) {x : α} (hx : x ∈ rows) :
    rows.find? (fun y => key y = key x) = some x := by
  obtain ⟨y, hy⟩ : ∃ y, rows.find? (fun y => key y = key x) = some y := by
    rw [← Option.isSome_iff_exists, List.find?_isSome]
    exact ⟨x, hx, by simp⟩
  have hk : key y = key x := by simpa using List.find?_some hy
  rw [hy, List.inj_on_of_nodup_map hn (List.mem_of_find?_eq_some hy) hx hk]

end Coursework.Table
