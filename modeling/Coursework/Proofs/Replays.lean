import Coursework.Proofs.Reordering
import Coursework.Proofs.Traffic
import Mathlib.Data.List.Induction

/-!
# Replays

What a table has become is told by the writes that are on record: which rows were removed, and what was last written to
each of the others.  A replay gives the rows of a table from those of an earlier one in this way.
-/
namespace Coursework

namespace Table

variable {α κ : Type} {key : α → κ} {k : κ} {rows rows' : List α}

theorem remove?_eq_filter [DecidableEq κ] (unique : (rows.map key).Nodup)
    (h : remove? (fun x => key x = k) rows = some rows') : rows' = rows.filter fun x => key x ≠ k := by
  obtain ⟨before, x, after, rfl, hx, rfl⟩ := remove?_split h
  have hx : key x = k := of_decide_eq_true hx
  simp only [List.map_append, List.map_cons] at unique
  have hothers : ∀ y ∈ before ++ after, decide (key y ≠ k) = true := by
    intro y hy
    have hnew := (List.nodup_cons.mp (List.nodup_middle.mp unique)).1
    refine decide_eq_true fun hy' => hnew ?_
    rw [← List.map_append, hx, ← hy']
    exact List.mem_map_of_mem hy
  rw [List.filter_append, List.filter_cons_of_neg (by simp [hx]), ← List.filter_append,
    List.filter_eq_self.mpr hothers]

/-- The rows are those of the start that are not gone, in their old order, each as it has become, but for what is left
out of account. -/
def Replayed (key : α → κ) (account : α → α) (gone : κ → Bool) (become : α → α) (start rows : List α) : Prop :=
  rows.map account = (start.filter fun x => !gone (key x)).map fun x => account (become x)

section

variable {account : α → α} {gone gone' : κ → Bool} {become become' : α → α} {start : List α}

theorem replayed_start (start : List α) (hgone : ∀ k, gone k = false) (hbecome : ∀ x, become x = x) :
    Replayed key account gone become start start := by
  simp [Replayed, hgone, hbecome]

theorem Replayed.keys (h : Replayed key account gone become start rows) (haccount : ∀ x, key (account x) = key x)
    (hbecome : ∀ x, key (become x) = key x) : rows.map key = (start.filter fun x => !gone (key x)).map key := by
  have hkeys := congrArg (List.map key) h
  rw [List.map_map, List.map_map] at hkeys
  rw [List.map_congr_left fun x _ => (haccount x).symm]
  refine hkeys.trans (List.map_congr_left fun x _ => ?_)
  exact (haccount (become x)).trans (hbecome x)

theorem Replayed.unique (h : Replayed key account gone become start rows) (haccount : ∀ x, key (account x) = key x)
    (hbecome : ∀ x, key (become x) = key x) (hstart : (start.map key).Nodup) : (rows.map key).Nodup := by
  rw [h.keys haccount hbecome]
  exact hstart.sublist ((List.filter_sublist (l := start)).map key)

theorem Replayed.not_gone {x : α} (h : Replayed key account gone become start rows)
    (haccount : ∀ x, key (account x) = key x) (hbecome : ∀ x, key (become x) = key x) (hx : x ∈ rows) :
    gone (key x) = false := by
  have hkey := List.mem_map_of_mem (f := key) hx
  rw [h.keys haccount hbecome] at hkey
  obtain ⟨y, hy, he⟩ := List.mem_map.mp hkey
  rw [← he]
  simpa using (List.mem_filter.mp hy).2

variable [DecidableEq κ]

theorem Replayed.edit {y : α} {f : α → α} (g : α → α) (h : Replayed key account gone become start rows)
    (haccount : ∀ x, key (account x) = key x) (hbecome : ∀ x, key (become x) = key x)
    (hstart : (start.map key).Nodup) (changed : modify? (fun x => key x = k) f rows = some (y, rows'))
    (hf : ∀ x ∈ rows, key x = k → account (f x) = g (account x))
    (become_eq : ∀ x, account (become' x) = if key x = k then g (account (become x)) else account (become x)) :
    Replayed key account gone become' start rows' := by
  have hrows := modify?_eq_map (h.unique haccount hbecome hstart) changed
  have hedited : rows'.map account = (rows.map account).map fun x => if key x = k then g x else x := by
    rw [hrows, List.map_map, List.map_map]
    refine List.map_congr_left fun x hx => ?_
    simp only [Function.comp, haccount]
    split
    · exact hf x hx ‹_›
    · rfl
  rw [Replayed, hedited, h, List.map_map]
  refine List.map_congr_left fun x _ => ?_
  simp only [Function.comp, haccount, hbecome, become_eq]

theorem Replayed.remove (h : Replayed key account gone become start rows) (haccount : ∀ x, key (account x) = key x)
    (hbecome : ∀ x, key (become x) = key x) (hstart : (start.map key).Nodup)
    (removed : remove? (fun x => key x = k) rows = some rows')
    (gone_eq : ∀ x, gone' x = (decide (x = k) || gone x)) : Replayed key account gone' become start rows' := by
  have hrows := remove?_eq_filter (h.unique haccount hbecome hstart) removed
  have hfiltered : rows'.map account = (rows.map account).filter fun x => key x ≠ k := by
    rw [hrows, List.filter_map]
    simp only [Function.comp_def, haccount]
  rw [Replayed, hfiltered, h, List.filter_map, List.filter_filter]
  simp only [Function.comp_def, haccount, hbecome, gone_eq, Bool.not_or, decide_not]

end

end Table

namespace Traffic

section

variable {α : Type} {write? : Exchange → Option (String × α)} {log : List (Nat × Exchange)} {i : Nat} {e : Exchange}
  {id k : String} {x : α}

/-- The writes of a kind: whose they are, to which row, and what they write. -/
def writes (write? : Exchange → Option (String × α)) (log : List (Nat × Exchange)) : List (Nat × String × α) :=
  log.filterMap fun (i, e) => (write? e).map fun write => (i, write)

/-- The last write of a kind to a row, with the place of the operation whose it is. -/
def lastWrite (write? : Exchange → Option (String × α)) (log : List (Nat × Exchange)) (id : String) :
    Option (Nat × α) :=
  (writes write? log).foldl (fun last (i, k, x) => if k = id then some (i, x) else last) none

/-- What was last written to a row, or what was there before. -/
def written (write? : Exchange → Option (String × α)) (log : List (Nat × Exchange)) (id : String) (old : α) : α :=
  ((lastWrite write? log id).map Prod.snd).getD old

theorem lastWrite_of_none (h : write? e = none) : lastWrite write? (log ++ [(i, e)]) = lastWrite write? log := by
  funext id
  simp [lastWrite, writes, List.filterMap_append, h]

theorem lastWrite_of_some (h : write? e = some (k, x)) (id : String) :
    lastWrite write? (log ++ [(i, e)]) id = if k = id then some (i, x) else lastWrite write? log id := by
  simp [lastWrite, writes, List.filterMap_append, h]

theorem written_of_none (h : write? e = none) : written write? (log ++ [(i, e)]) = written write? log := by
  funext id old
  rw [written, lastWrite_of_none h, written]

theorem written_of_some (h : write? e = some (k, x)) (id : String) (old : α) :
    written write? (log ++ [(i, e)]) id old = if id = k then x else written write? log id old := by
  rw [written, lastWrite_of_some h]
  by_cases hk : k = id
  · rw [if_pos hk, if_pos hk.symm]
    rfl
  · rw [if_neg hk, if_neg (Ne.symm hk), written]

theorem mem_of_lastWrite (h : lastWrite write? log id = some (i, x)) : ∃ e, (i, e) ∈ log ∧ write? e = some (id, x) := by
  induction log using List.reverseRecOn with
  | nil => cases h
  | append_singleton log last ih =>
    obtain ⟨j, e⟩ := last
    cases hw : write? e with
    | none =>
      rw [lastWrite_of_none hw] at h
      obtain ⟨e', he', hx⟩ := ih h
      exact ⟨e', List.mem_append_left _ he', hx⟩
    | some write =>
      obtain ⟨k, y⟩ := write
      rw [lastWrite_of_some hw] at h
      split at h
      · subst k
        cases h
        exact ⟨e, by simp, hw⟩
      · obtain ⟨e', he', hx⟩ := ih h
        exact ⟨e', List.mem_append_left _ he', hx⟩

/-- Where only one operation writes, its own exchanges tell the writes. -/
theorem writes_of_author (j : Nat) (h : ∀ i e, (i, e) ∈ log → i ≠ j → write? e = none) :
    writes write? log = ((own j log).filterMap write?).map fun write => (j, write) := by
  induction log with
  | nil => rfl
  | cons first log ih =>
    obtain ⟨i, e⟩ := first
    have hrest := ih fun i e hmem => h i e (List.mem_cons_of_mem _ hmem)
    simp only [writes, own] at hrest ⊢
    by_cases hi : i = j
    · subst hi
      cases hw : write? e <;> simp [hw, hrest]
    · have hnone := h i e List.mem_cons_self hi
      simp [hi, hnone, hrest]

theorem lastWrite_congr {log' : List (Nat × Exchange)} (h : writes write? log = writes write? log') :
    lastWrite write? log = lastWrite write? log' := by
  funext id
  rw [lastWrite, h, lastWrite]

theorem written_congr {log' : List (Nat × Exchange)} (h : writes write? log = writes write? log') :
    written write? log = written write? log' := by
  funext id old
  rw [written, lastWrite_congr h, written]

end

/-- Whether a row was removed. -/
def gone (removal? : Exchange → Option (String × Unit)) (log : List (Nat × Exchange)) (id : String) : Bool :=
  (lastWrite removal? log id).isSome

variable {removal? : Exchange → Option (String × Unit)} {log : List (Nat × Exchange)} {i : Nat} {e : Exchange}
  {k : String}

theorem gone_of_none (h : removal? e = none) : gone removal? (log ++ [(i, e)]) = gone removal? log := by
  funext id
  rw [gone, lastWrite_of_none h, gone]

theorem gone_of_some (h : removal? e = some (k, ())) (id : String) :
    gone removal? (log ++ [(i, e)]) id = (decide (id = k) || gone removal? log id) := by
  rw [gone, lastWrite_of_some h]
  by_cases hk : k = id
  · simp [hk]
  · simp [hk, Ne.symm hk, gone]

theorem gone_of_mem (hmem : (i, e) ∈ log) (h : removal? e = some (k, ())) : gone removal? log k = true := by
  induction log using List.reverseRecOn with
  | nil => cases hmem
  | append_singleton log last ih =>
    obtain ⟨j, e'⟩ := last
    rcases List.mem_append.mp hmem with hmem | hmem
    · cases hr : removal? e' with
      | none => rw [gone_of_none hr, ih hmem]
      | some removed => rw [gone_of_some hr, ih hmem, Bool.or_true]
    · cases List.mem_singleton.mp hmem
      rw [gone_of_some h, decide_eq_true rfl, Bool.true_or]

/-- A row that was removed is not there. -/
theorem not_removed {α : Type} {key : α → String} {account become : α → α} {start rows : List α}
    (h : Table.Replayed key account (gone removal? log) become start rows) (haccount : ∀ x, key (account x) = key x)
    (hbecome : ∀ x, key (become x) = key x) (hmem : (i, e) ∈ log) (hremoval : removal? e = some (k, ())) :
    ∀ x ∈ rows, key x ≠ k := by
  rintro x hx rfl
  have hstays := h.not_gone haccount hbecome hx
  rw [gone_of_mem hmem hremoval] at hstays
  cases hstays

end Traffic

end Coursework
