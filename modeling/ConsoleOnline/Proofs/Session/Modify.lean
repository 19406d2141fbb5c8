import ConsoleOnline.Proofs.PresenceState
import ConsoleOnline.Proofs.Session.Reachable

/-!
Requests to modify a session. Whether one is accepted hangs on the filled slots alone, and these it
leaves as they are, so of several accepted requests the last one decides. What a request may change
of the flag word are the bits of `modifiableMask`, and no operation changes any other.
-/
namespace ConsoleOnline

namespace SessionFlags

/-- The bits of the flag word that stay as they were when the session was created. -/
def fixedBits (f : SessionFlags) : UInt32 := f.bits &&& ~~~modifiableMask

theorem fixedBits_modified (f requested : SessionFlags) :
    (f.modified requested).fixedBits = f.fixedBits := by
  rw [fixedBits, modified, fixedBits]
  refine PresenceState.eq_of_getElem fun i hi => ?_
  simp only [UInt32.toBitVec_or, UInt32.toBitVec_and, UInt32.toBitVec_not, BitVec.getElem_or,
    BitVec.getElem_and, BitVec.getElem_not]
  cases f.bits.toBitVec[i] <;> cases requested.bits.toBitVec[i] <;>
    cases modifiableMask.toBitVec[i] <;> rfl

/-- A request takes over nothing but the fixed bits. -/
theorem modified_congr {f g : SessionFlags} (h : f.fixedBits = g.fixedBits)
    (requested : SessionFlags) : f.modified requested = g.modified requested := by
  rw [modified, ← fixedBits, h, fixedBits, ← modified]

end SessionFlags

namespace Slots

variable {newMax other : UInt32} {x y z : Slots}

theorem Rescaled.full (h : Rescaled newMax x y) :
    y.vacant.toNat + y.filled.toNat = y.max.toNat := by
  have := h.vacant
  rw [h.max, h.filled]
  omega

/-- The maximum in between leaves no trace. -/
theorem Rescaled.again_iff (h : Rescaled newMax x y) : Rescaled other y z ↔ Rescaled other x z := by
  constructor
  · rintro ⟨hmax, hvacant, hfilled⟩
    exact ⟨hmax, h.filled ▸ hvacant, hfilled.trans h.filled⟩
  · rintro ⟨hmax, hvacant, hfilled⟩
    exact ⟨hmax, h.filled ▸ hvacant, hfilled.trans h.filled.symm⟩

end Slots

namespace Session

variable {s t : Session}

/-! ### One request after another -/

section

variable {flags other : SessionFlags} {maxPublic maxPrivate otherPublic otherPrivate : UInt32}

theorem Effect.modify_filled (h : Effect s t (.modify flags maxPublic maxPrivate))
    (category : SlotCategory) :
    (t.slots category).vacant.toNat + (t.slots category).filled.toNat =
        (t.slots category).max.toNat ∧
      (t.slots category).filled = (s.slots category).filled := by
  obtain ⟨x, y, hx, hy, rfl⟩ := h
  cases category with
  | publicSlot => exact ⟨hx.full, hx.filled⟩
  | privateSlot => exact ⟨hy.full, hy.filled⟩

theorem Effect.admits_modify_iff (h : Effect s t (.modify flags maxPublic maxPrivate)) :
    Admits t (.modify other otherPublic otherPrivate) ↔
      Admits s (.modify other otherPublic otherPrivate) := by
  have hpublic : t.publicSlots.filled = s.publicSlots.filled := (h.modify_filled .publicSlot).2
  have hprivate : t.privateSlots.filled = s.privateSlots.filled := (h.modify_filled .privateSlot).2
  rw [Admits, Admits, hpublic, hprivate]

theorem Effect.modify_again_iff {u : Session} (h : Effect s t (.modify flags maxPublic maxPrivate)) :
    Effect t u (.modify other otherPublic otherPrivate) ↔
      Effect s u (.modify other otherPublic otherPrivate) := by
  obtain ⟨x, y, hx, hy, rfl⟩ := h
  have hflags := SessionFlags.modified_congr (s.flags.fixedBits_modified flags) other
  simp only [Effect, hx.again_iff, hy.again_iff, hflags]

theorem Accounted.modify_again_iff {u : Session} (h : Accounted s)
    (ht : (modify flags maxPublic maxPrivate).run s = .ok () t) :
    (modify other otherPublic otherPrivate).run t = .ok () u ↔
      (modify other otherPublic otherPrivate).run s = .ok () u := by
  have hrun : (apply (.modify flags maxPublic maxPrivate)).run s = .ok () t := ht
  have heffect := ((h.run_apply_iff _).mp hrun).2
  have hthen := (h.of_run hrun).run_apply_iff (t := u) (.modify other otherPublic otherPrivate)
  have hfirst := h.run_apply_iff (t := u) (.modify other otherPublic otherPrivate)
  rw [heffect.admits_modify_iff, heffect.modify_again_iff] at hthen
  exact hthen.trans hfirst.symm

end

/-! ### Flags along runs -/

theorem Effect.fixedBits {op : Op} (h : Effect s t op) : t.flags.fixedBits = s.flags.fixedBits := by
  cases op with
  | moveTo next | register arbitrationId | start | finish | delete => rw [h]
  | setCounts category vacant filled => rw [h, flags_withSlots]
  | fill category count | release category count =>
    obtain ⟨x, -, rfl⟩ := h
    rw [flags_withSlots]
  | join xuids category =>
    obtain ⟨x, -, rfl⟩ := h
    exact congrArg SessionFlags.fixedBits (flags_withSlots s category x)
  | leave xuids =>
    obtain ⟨x, y, -, -, rfl⟩ := h
    rfl
  | modify flags maxPublic maxPrivate =>
    obtain ⟨x, y, -, -, rfl⟩ := h
    exact s.flags.fixedBits_modified flags

theorem Accounted.fixedBits_step (h : Accounted s) (op : Op) :
    (s.step op).flags.fixedBits = s.flags.fixedBits := by
  rcases meets_apply h op with ⟨-, t, ht, hrun⟩ | ⟨-, e, hrun⟩
  · simp only [Session.step, hrun]
    exact ht.fixedBits
  · simp only [Session.step, hrun]

theorem Accounted.fixedBits_run (h : Accounted s) (ops : List Op) :
    (s.run ops).flags.fixedBits = s.flags.fixedBits := by
  induction ops generalizing s with
  | nil => rfl
  | cons op ops ih => rw [run_cons, ih (h.step op), h.fixedBits_step op]

/-- In a session that can come about, a request after an accepted one is accepted just when it would
have been without it, and leaves the same session, so the last one decides and may be repeated. After
an accepted request all slots that are not filled are vacant, and those filled and the members are
what they were. The fixed bits of the flags stay, whatever is done to the session. -/
theorem modified_when_reachable (h : Reachable s) :
    (∀ flags maxPublic maxPrivate t, (modify flags maxPublic maxPrivate).run s = .ok () t →
      (∀ flags' maxPublic' maxPrivate' u,
        (modify flags' maxPublic' maxPrivate').run t = .ok () u ↔
          (modify flags' maxPublic' maxPrivate').run s = .ok () u) ∧
      (modify flags maxPublic maxPrivate).run t = .ok () t ∧
      (∀ category,
        (t.slots category).vacant.toNat + (t.slots category).filled.toNat =
            (t.slots category).max.toNat ∧
          (t.slots category).filled = (s.slots category).filled) ∧
      t.members = s.members) ∧
    ∀ ops, (s.run ops).flags.fixedBits = s.flags.fixedBits := by
  have haccounted := h.accounted
  refine ⟨fun flags maxPublic maxPrivate t ht => ?_, haccounted.fixedBits_run⟩
  have heffect := ((haccounted.run_apply_iff (.modify flags maxPublic maxPrivate)).mp ht).2
  refine ⟨fun flags' maxPublic' maxPrivate' u => haccounted.modify_again_iff ht,
    (haccounted.modify_again_iff ht).mpr ht, heffect.modify_filled, ?_⟩
  obtain ⟨x, y, -, -, rfl⟩ := heffect
  rfl

/-- With one of three slots filled and none vacant, a request for five slots is no hindrance to the
next, for one. -/
theorem modified_after_closing :
    Reachable (((new ⟨0xAE00000000000001⟩ .host 3 1).step (.join [⟨1⟩] .publicSlot)).step
        (.setCounts .publicSlot 0 1)) ∧
      ∃ t u, (modify ⟨0x100⟩ 5 0).run (((new ⟨0xAE00000000000001⟩ .host 3 1).step
          (.join [⟨1⟩] .publicSlot)).step (.setCounts .publicSlot 0 1)) = .ok () t ∧
        (modify ⟨0x402⟩ 1 1).run t = .ok () u ∧
        (modify ⟨0x402⟩ 1 1).run (((new ⟨0xAE00000000000001⟩ .host 3 1).step
          (.join [⟨1⟩] .publicSlot)).step (.setCounts .publicSlot 0 1)) = .ok () u ∧
        u.flags = ⟨0x401⟩ := by
  have hs : Reachable (((new ⟨0xAE00000000000001⟩ .host 3 1).step (.join [⟨1⟩] .publicSlot)).step
      (.setCounts .publicSlot 0 1)) :=
    .step _ (.step _ (.new _ _ _ _))
  obtain ⟨hagain, -⟩ := (modified_when_reachable hs).1 ⟨0x100⟩ 5 0 _ rfl
  exact ⟨hs, _, _, rfl, rfl, (hagain ⟨0x402⟩ 1 1 _).mp rfl, rfl⟩

end Session

end ConsoleOnline
