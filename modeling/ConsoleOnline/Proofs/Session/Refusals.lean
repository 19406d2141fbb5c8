import ConsoleOnline.Proofs.Session.Operations

/-!
A refused operation leaves the session as it was, whatever state that was in. Operations compute
their new counters before they change any, and `leave`, which changes two categories in turn, takes
back what it has done to the first where the second is refused.
-/
namespace ConsoleOnline.Session

/-- Where the action is refused, the session is what it was. No counter need add up for this. -/
def Action.AllOrNothing (a : Action) : Prop :=
  ∀ (s t : Session) (e : OnlineError), a.run s = .error e t → t = s

theorem allOrNothing_moveTo (next : SessionState) : Action.AllOrNothing (moveTo next) := by
  intro s t e h
  rw [run_moveTo] at h
  split at h <;> cases h
  rfl

theorem allOrNothing_writeCounts (category : SlotCategory) (vacant filled : UInt32) :
    Action.AllOrNothing (writeCounts category vacant filled) := by
  intro s t e h
  rw [run_writeCounts] at h
  split at h <;> cases h
  rfl

/-- An action that first computes from the session without changing it. -/
theorem Action.AllOrNothing.compute {r : Session → Except OnlineError β} {a : Session → β → Action}
    (ha : ∀ s b, Action.AllOrNothing (a s b)) :
    Action.AllOrNothing (do let s ← get; let b ← ofExcept (r s); a s b) := by
  intro s t e h
  simp only [EStateM.run_bind, EStateM.run_get, EStateM.run_ofExcept] at h
  cases hr : r s with
  | ok b => exact ha s b s t e (by simpa only [hr] using h)
  | error e => rw [hr] at h; cases h; rfl

/-- An action after which nothing is refused any more. -/
theorem Action.AllOrNothing.andThen {a b : Action} {f : Session → Session}
    (ha : Action.AllOrNothing a) (hb : ∀ s, b.run s = .ok () (f s)) :
    Action.AllOrNothing (do a; b) := by
  intro s t e h
  simp only [EStateM.run_bind, hb] at h
  split at h
  · cases h
  · next hrun => cases h; exact ha _ _ _ hrun

theorem allOrNothing_setCounts (category : SlotCategory) (vacant filled : UInt32) :
    Action.AllOrNothing (setCounts category vacant filled) := by
  intro s t e h
  simp only [setCounts, EStateM.run_bind, EStateM.run_get] at h
  split at h
  · cases h; rfl
  · exact allOrNothing_writeCounts category vacant filled s t e h

theorem allOrNothing_fill (category : SlotCategory) (count : UInt32) :
    Action.AllOrNothing (fill category count) :=
  .compute fun _ counts => allOrNothing_writeCounts category counts.1 counts.2

theorem allOrNothing_vacate (category : SlotCategory) (count : UInt32) :
    Action.AllOrNothing (vacate category count) :=
  .compute fun _ counts => allOrNothing_writeCounts category counts.1 counts.2

theorem vacate_withSlots {s t : Session} {category : SlotCategory} {count : UInt32}
    (h : (vacate category count).run s = .ok () t) : ∃ x, t = s.withSlots category x := by
  simp only [vacate, EStateM.run_bind, EStateM.run_get, EStateM.run_ofExcept] at h
  cases hr : (s.slots category).released category count with
  | ok counts =>
    simp only [hr, run_writeCounts] at h
    split at h <;> cases h
    exact ⟨_, rfl⟩
  | error e => rw [hr] at h; cases h

/-- What the first category has given back is taken again where the second is refused. -/
theorem allOrNothing_leave (xuids : List Xuid) : Action.AllOrNothing (leave xuids) := by
  intro s t e h
  simp only [leave, EStateM.run_bind, EStateM.run_get, EStateM.run_tryCatch] at h
  cases hpublic : (vacate .publicSlot (s.leaving xuids .publicSlot)).run s with
  | error e u =>
    have hu := allOrNothing_vacate _ _ _ _ _ hpublic
    subst hu
    simp only [hpublic] at h
    cases h
    rfl
  | ok _ u =>
    obtain ⟨x, rfl⟩ := vacate_withSlots hpublic
    simp only [hpublic] at h
    cases hprivate : (vacate .privateSlot (s.leaving xuids .privateSlot)).run
        (s.withSlots .publicSlot x) with
    | error e v =>
      have hv := allOrNothing_vacate _ _ _ _ _ hprivate
      subst hv
      simp only [hprivate] at h
      cases h
      rfl
    | ok _ v => simp only [hprivate] at h; cases h

/-- A refused operation leaves the session as it was. -/
theorem allOrNothing_apply (op : Op) : Action.AllOrNothing (apply op) := by
  cases op with
  | moveTo next => exact allOrNothing_moveTo next
  | register arbitrationId => exact (allOrNothing_moveTo .registration).andThen fun _ => rfl
  | start => exact allOrNothing_moveTo .inGame
  | finish => exact allOrNothing_moveTo .reporting
  | delete => exact allOrNothing_moveTo .deleted
  | setCounts category vacant filled => exact allOrNothing_setCounts category vacant filled
  | fill category count => exact allOrNothing_fill category count
  | release category count =>
    exact .compute fun _ counts => allOrNothing_setCounts category counts.1 counts.2
  | join xuids category =>
    by_cases hsize : UInt32.size ≤ xuids.length
    · intro s t e h
      simp only [apply, join, if_pos hsize] at h
      cases h
      rfl
    · rw [apply, join, if_neg hsize]
      exact (allOrNothing_fill category _).andThen fun _ => rfl
  | leave xuids => exact allOrNothing_leave xuids
  | modify flags maxPublic maxPrivate =>
    intro s t e h
    simp only [apply, modify, EStateM.run_bind, EStateM.run_get, EStateM.run_ofExcept] at h
    cases hpublic : s.publicSlots.rescale .publicSlot maxPublic with
    | error e => simp only [hpublic] at h; cases h; rfl
    | ok x =>
      cases hprivate : s.privateSlots.rescale .privateSlot maxPrivate with
      | error e => simp only [hpublic, hprivate] at h; cases h; rfl
      | ok y => simp only [hpublic, hprivate] at h; cases h

end ConsoleOnline.Session
