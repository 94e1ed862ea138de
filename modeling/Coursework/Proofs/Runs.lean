import Coursework.Proofs.Answers

/-!
# Runs of programs

A program is followed call by call: whatever its calls may be answered, within the mishaps that are reckoned with, it
must end as a postcondition says.  There is one rule for each way in which programs are put together.
-/
namespace Coursework

open Program

namespace Program

theorem bind_ok {α : Type} (p : Program α) : p >>= ok = p := by
  rw [show p >>= ok = p.andThen done from congrArg p.andThen (funext fun r => by cases r <;> rfl), andThen_done]

end Program

namespace Backend

variable {m : Mishaps} {b : Backend} {α β : Type}

/-- Whether nothing but these mishaps befalls the calls of a program that is run here. -/
def Within (m : Mishaps) (b : Backend) : Program α → Prop
  | .done _ => True
  | .call c next =>
    b.store.Answers m c (b.perform c).1 (b.perform c).2.store ∧ (b.perform c).2.Within m (next (b.perform c).1)
  | .drawId next => Within m { b with idsDrawn := b.idsDrawn + 1 } (next (b.ids b.idsDrawn))
  | .drawKey next => Within m { b with keysDrawn := b.keysDrawn + 1 } (next (b.keys b.keysDrawn))

/-- Unless more than these mishaps befalls it, a program that is run here ends as the postcondition says. -/
def Ends (m : Mishaps) (b : Backend) (p : Program α) (post : Except Failure α → Backend → Prop) : Prop :=
  b.Within m p → post (b.run p).1 (b.run p).2

/-- A backend after a call that left this store. -/
def asked (b : Backend) (c : Call) (store : Store) (plan : List PlannedFault) (armed : List CommandFault) : Backend :=
  b.answered store (b.blobLog ++ (event? c).toList) plan armed

theorem perform_eq_asked (b : Backend) (c : Call) :
    ∃ plan armed, (b.perform c).2 = b.asked c (b.perform c).2.store plan armed := by
  obtain ⟨store, plan, armed, he, -, -⟩ := perform_replies b.allows_anything c
  exact ⟨plan, armed, by rw [he]; rfl⟩

/-- Faults only go wrong as they were planned. -/
theorem within_of_allows (h : b.Allows m) (p : Program α) : b.Within m p ∧ (b.run p).2.Allows m := by
  induction p generalizing b with
  | done r => exact ⟨trivial, h⟩
  | call c next ih =>
    obtain ⟨store, plan, armed, he, ha, hr⟩ := perform_replies h c
    have hs : (b.perform c).2.store = store := by rw [he]; rfl
    obtain ⟨hw, hend⟩ := ih (b.perform c).1 ha
    exact ⟨⟨hs ▸ hr, hw⟩, hend⟩
  | drawId next ih => exact ih (b.ids b.idsDrawn) h
  | drawKey next ih => exact ih (b.keys b.keysDrawn) h

theorem run_keys (b : Backend) (p : Program α) :
    (b.run p).2.keys = b.keys ∧ b.keysDrawn ≤ (b.run p).2.keysDrawn := by
  induction p generalizing b with
  | done r => exact ⟨rfl, Nat.le_refl _⟩
  | call c next ih =>
    obtain ⟨plan, armed, he⟩ := perform_eq_asked b c
    have hk : (b.perform c).2.keys = b.keys ∧ (b.perform c).2.keysDrawn = b.keysDrawn := by rw [he]; exact ⟨rfl, rfl⟩
    obtain ⟨hkeys, hdrawn⟩ := ih (b.perform c).1 (b.perform c).2
    exact ⟨hkeys.trans hk.1, hk.2 ▸ hdrawn⟩
  | drawId next ih => exact ih _ { b with idsDrawn := b.idsDrawn + 1 }
  | drawKey next ih =>
    obtain ⟨hkeys, hdrawn⟩ := ih (b.keys b.keysDrawn) { b with keysDrawn := b.keysDrawn + 1 }
    exact ⟨hkeys, Nat.le_trans (Nat.le_succ _) hdrawn⟩

theorem ends_done {r : Except Failure α} {post : Except Failure α → Backend → Prop} (h : post r b) :
    b.Ends m (done r) post := fun _ => h

theorem ends_weaken {p : Program α} {post post' : Except Failure α → Backend → Prop} (h : b.Ends m p post)
    (weaker : ∀ r b', post r b' → post' r b') : b.Ends m p post' := fun hw => weaker _ _ (h hw)

theorem ends_call {c : Call} {next : Except Failure c.Answer → Program α}
    {post : Except Failure α → Backend → Prop}
    (h : ∀ r store plan armed, b.store.Answers m c r store → (b.asked c store plan armed).Ends m (next r) post) :
    b.Ends m (.call c next) post := by
  rintro ⟨ha, hw⟩
  obtain ⟨plan, armed, he⟩ := perform_eq_asked b c
  have hend := h _ _ plan armed ha
  rw [← he] at hend
  exact hend hw

/-- A call after whose failure the store is as it was, and whose success is never pretended. -/
theorem ends_ask {c : Call} {f : c.Answer → Program α} {post : Except Failure α → Backend → Prop}
    (hc : c.isPlain = true)
    (ok : ∀ x store plan armed, b.store.apply c = (.ok x, store) → (b.asked c store plan armed).Ends m (f x) post)
    (error : ∀ e plan armed, m.failure e ∨ (b.store.apply c).1 = .error e →
      post (.error e) (b.asked c b.store plan armed)) : b.Ends m (ask c >>= f) post := by
  refine ends_call fun r store plan armed ha => ?_
  rcases ha.plain hc with ⟨x, rfl, hx⟩ | ⟨e, rfl, rfl, he⟩
  · exact ok x store plan armed hx
  · exact ends_done (error e plan armed he)

theorem ends_read {c : Call} {f : c.Answer → Program α} {post : Except Failure α → Backend → Prop}
    (hc : c.isRead = true)
    (ok : ∀ x plan armed, (b.store.apply c).1 = .ok x → (b.asked c b.store plan armed).Ends m (f x) post)
    (error : ∀ e plan armed, m.failure e ∨ (b.store.apply c).1 = .error e →
      post (.error e) (b.asked c b.store plan armed)) : b.Ends m (ask c >>= f) post := by
  refine ends_ask (Call.isPlain_of_isRead hc) (fun x store plan armed h => ?_) error
  have hs : store = b.store := by rw [← Store.apply_read hc b.store, h]
  exact hs ▸ ok x plan armed (by rw [h])

theorem ends_last {c : Call} {post : Except Failure c.Answer → Backend → Prop} (hc : c.isPlain = true)
    (ok : ∀ x store plan armed, b.store.apply c = (.ok x, store) → post (.ok x) (b.asked c store plan armed))
    (error : ∀ e plan armed, m.failure e ∨ (b.store.apply c).1 = .error e →
      post (.error e) (b.asked c b.store plan armed)) : b.Ends m (ask c) post := by
  have h : b.Ends m (ask c >>= Program.ok) post :=
    ends_ask hc (fun x store plan armed hx => ends_done (ok x store plan armed hx)) error
  rwa [bind_ok] at h

theorem ends_attempt {c : Call} {f : Except Failure c.Answer → Program α} {post : Except Failure α → Backend → Prop}
    (h : ∀ r store plan armed, b.store.Answers m c r store → (b.asked c store plan armed).Ends m (f r) post) :
    b.Ends m (attempt (ask c) >>= f) post := ends_call h

theorem ends_andThen {p : Program α} {f : Except Failure α → Program β} {post : Except Failure β → Backend → Prop}
    (h : b.Ends m p fun r b' => b'.Ends m (f r) post) : b.Ends m (p.andThen f) post := by
  induction p generalizing b with
  | done r => exact h trivial
  | call c next ih => exact fun ⟨ha, hw⟩ => ih _ (fun hw' => h ⟨ha, hw'⟩) hw
  | drawId next ih => exact fun hw => ih _ h hw
  | drawKey next ih => exact fun hw => ih _ h hw

theorem ends_bind {p : Program α} {f : α → Program β} {post : Except Failure β → Backend → Prop}
    {mid : Except Failure α → Backend → Prop} (h : b.Ends m p mid)
    (ok : ∀ x b', mid (.ok x) b' → b'.Ends m (f x) post) (error : ∀ e b', mid (.error e) b' → post (.error e) b') :
    b.Ends m (p >>= f) post := by
  refine ends_andThen fun hw => ?_
  have hmid := h hw
  cases hr : (b.run p).1 with
  | ok x => exact ok x _ (hr ▸ hmid)
  | error e => exact ends_done (error e _ (hr ▸ hmid))

theorem ends_require {condition : Bool} {e : Failure} {f : Unit → Program α}
    {post : Except Failure α → Backend → Prop} (holds : condition = true → b.Ends m (f ()) post)
    (fails : condition = false → post (.error e) b) : b.Ends m (require condition e >>= f) post := by
  cases condition with
  | true => exact holds rfl
  | false => exact ends_done (fails rfl)

theorem ends_ofExcept {r : Except Failure β} {f : β → Program α} {post : Except Failure α → Backend → Prop}
    (ok : ∀ x, r = .ok x → b.Ends m (f x) post) (error : ∀ e, r = .error e → post (.error e) b) :
    b.Ends m (ofExcept r >>= f) post := by
  cases r with
  | ok x => exact ok x rfl
  | error e => exact ends_done (error e rfl)

theorem ends_freshId {f : Uuid → Program α} {post : Except Failure α → Backend → Prop}
    (h : Ends m { b with idsDrawn := b.idsDrawn + 1 } (f (b.ids b.idsDrawn)) post) :
    b.Ends m (freshId >>= f) post := h

theorem ends_freshKey {f : Uuid → Program α} {post : Except Failure α → Backend → Prop}
    (h : Ends m { b with keysDrawn := b.keysDrawn + 1 } (f (b.keys b.keysDrawn)) post) :
    b.Ends m (freshKey >>= f) post := h

end Backend

end Coursework
