import ConsoleOnline.Proofs.Results
import ConsoleOnline.Session.Basic
import Mathlib

/-!
What the operations of a session do, in exact numbers. The invariant behind it is `Accounted`: the
counters of a category add up, and each of its members holds a filled slot of its own. Under it no
counter saturates or wraps. An operation happens just when `Admits` says so and then has the
`Effect`.
-/
namespace ConsoleOnline

namespace Slots

theorem satAdd_eq_add {a b : UInt32} (h : a.toNat + b.toNat < UInt32.size) :
    satAdd a b = a + b := by
  have hs : UInt32.size = 4294967296 := rfl
  apply UInt32.toNat.inj
  rw [satAdd, UInt32.toNat_ofNat', UInt32.toNat_add]
  omega

/-- Vacant and filled slots are within the maximum. -/
def Room (x : Slots) : Prop := x.vacant.toNat + x.filled.toNat ≤ x.max.toNat

instance (x : Slots) : Decidable x.Room := inferInstanceAs (Decidable (_ ≤ _))

/-- `count` slots have gone from the vacant to the filled ones, or back if it is negative. -/
structure Moved (count : Int) (x y : Slots) : Prop where
  max : y.max = x.max
  vacant : (y.vacant.toNat : Int) = x.vacant.toNat - count
  filled : (y.filled.toNat : Int) = x.filled.toNat + count

theorem Moved.room {count : Int} {x y : Slots} (h : Moved count x y) (hx : x.Room) : y.Room := by
  have := h.vacant
  have := h.filled
  simp only [Room] at *
  rw [h.max]
  omega

theorem Moved.refl (x : Slots) : Moved 0 x x where
  max := rfl
  vacant := (Int.sub_zero _).symm
  filled := (Int.add_zero _).symm

theorem Moved.eq_of_back {count : Int} {x y z : Slots} (h : Moved count x y)
    (hback : Moved (-count) y z) : z = x := by
  have hvacant : z.vacant = x.vacant := by
    have := h.vacant
    have := hback.vacant
    apply UInt32.toNat.inj
    omega
  have hfilled : z.filled = x.filled := by
    have := h.filled
    have := hback.filled
    apply UInt32.toNat.inj
    omega
  have hmax := hback.max.trans h.max
  cases x
  cases z
  congr

theorem Moved.symm {count : Int} {x y : Slots} (h : Moved count x y) : Moved (-count) y x where
  max := h.max.symm
  vacant := by
    have := h.vacant
    omega
  filled := by
    have := h.filled
    omega

theorem Moved.trans {count other : Int} {x y z : Slots} (h : Moved count x y)
    (hnext : Moved other y z) : Moved (count + other) x z where
  max := hnext.max.trans h.max
  vacant := by
    have := h.vacant
    have := hnext.vacant
    omega
  filled := by
    have := h.filled
    have := hnext.filled
    omega

theorem Moved.unique {count : Int} {x y z : Slots} (hy : Moved count x y) (hz : Moved count x z) :
    y = z :=
  hz.symm.eq_of_back (by rwa [Int.neg_neg])

theorem taken_of_le {category : SlotCategory} {count : UInt32} {x : Slots} (hx : x.Room)
    (h : count.toNat ≤ x.vacant.toNat) :
    x.taken category count = .ok (x.vacant - count, x.filled + count) := by
  have hmax := x.max.toNat_lt_size
  simp only [Room] at hx
  rw [taken, if_pos (UInt32.le_iff_toNat_le.mpr h), satAdd_eq_add (by omega)]

theorem moved_taken {count : UInt32} {x : Slots} (hx : x.Room) (h : count.toNat ≤ x.vacant.toNat) :
    Moved count.toNat x { x with vacant := x.vacant - count, filled := x.filled + count } where
  max := rfl
  vacant := by
    have := UInt32.toNat_sub_of_le _ _ (UInt32.le_iff_toNat_le.mpr h)
    simp only
    omega
  filled := by
    have hmax := x.max.toNat_lt_size
    have hs : UInt32.size = 4294967296 := rfl
    simp only [Room] at hx
    simp only [UInt32.toNat_add]
    omega

theorem released_of_le {category : SlotCategory} {count : UInt32} {x : Slots} (hx : x.Room)
    (h : count.toNat ≤ x.filled.toNat) :
    x.released category count = .ok (x.vacant + count, x.filled - count) := by
  have hmax := x.max.toNat_lt_size
  simp only [Room] at hx
  rw [released, if_pos (UInt32.le_iff_toNat_le.mpr h), satAdd_eq_add (by omega)]

theorem moved_released {count : UInt32} {x : Slots} (hx : x.Room)
    (h : count.toNat ≤ x.filled.toNat) :
    Moved (-count.toNat) x { x with vacant := x.vacant + count, filled := x.filled - count } where
  max := rfl
  vacant := by
    have hmax := x.max.toNat_lt_size
    have hs : UInt32.size = 4294967296 := rfl
    simp only [Room] at hx
    simp only [UInt32.toNat_add]
    omega
  filled := by
    have := UInt32.toNat_sub_of_le _ _ (UInt32.le_iff_toNat_le.mpr h)
    simp only
    omega

/-- The counters under another maximum: what is filled stays so, and all else is vacant. -/
structure Rescaled (newMax : UInt32) (x y : Slots) : Prop where
  max : y.max = newMax
  vacant : (y.vacant.toNat : Int) = newMax.toNat - x.filled.toNat
  filled : y.filled = x.filled

theorem Rescaled.room {newMax : UInt32} {x y : Slots} (h : Rescaled newMax x y) : y.Room := by
  have := h.vacant
  simp only [Room]
  rw [h.max, h.filled]
  omega

theorem Rescaled.unique {newMax : UInt32} {x y z : Slots} (hy : Rescaled newMax x y)
    (hz : Rescaled newMax x z) : y = z := by
  have hvacant : y.vacant = z.vacant := by
    have := hy.vacant
    have := hz.vacant
    apply UInt32.toNat.inj
    omega
  have hfilled := hy.filled.trans hz.filled.symm
  have hmax := hy.max.trans hz.max.symm
  cases y
  cases z
  congr

theorem rescale_of_le (category : SlotCategory) {newMax : UInt32} {x : Slots}
    (h : x.filled.toNat ≤ newMax.toNat) :
    ∃ y, Rescaled newMax x y ∧ x.rescale category newMax = .ok y := by
  have hsub := UInt32.toNat_sub_of_le _ _ (UInt32.le_iff_toNat_le.mpr h)
  have hroom : (newMax - x.filled).toNat + x.filled.toNat ≤ newMax.toNat := by omega
  refine ⟨⟨newMax, newMax - x.filled, x.filled⟩, ⟨rfl, ?_, rfl⟩, ?_⟩
  · simp only
    omega
  · rw [rescale, if_pos (UInt32.le_iff_toNat_le.mpr h), withCounts, if_pos hroom]

theorem rescale_of_lt (category : SlotCategory) {newMax : UInt32} {x : Slots}
    (h : newMax.toNat < x.filled.toNat) :
    x.rescale category newMax = .error (.capacity category 0 x.filled newMax) := by
  rw [rescale, if_neg (by rw [UInt32.le_iff_toNat_le]; omega)]

end Slots

namespace Session

/-- The counters add up, and each member holds a filled slot of its own. -/
structure Accounted (s : Session) : Prop where
  room : ∀ category, (s.slots category).Room
  held : ∀ category, (s.membersOf category).length ≤ (s.slots category).filled.toNat

/-- The action happens just when `p` holds and leaves a session with `q` behind. Refused, it
changes nothing. -/
def Action.Meets (a : Action) (s : Session) (p : Prop) (q : Session → Prop) : Prop :=
  (p ∧ ∃ t, q t ∧ a.run s = .ok () t) ∨ (¬ p ∧ ∃ e, a.run s = .error e s)

theorem Action.Meets.ok_iff {a : Action} {s : Session} {p : Prop} {q : Session → Prop}
    (h : a.Meets s p q) : (∃ t, a.run s = .ok () t) ↔ p := by
  rcases h with ⟨hp, t, -, ht⟩ | ⟨hp, e, he⟩
  · exact ⟨fun _ => hp, fun _ => ⟨t, ht⟩⟩
  · constructor
    · rintro ⟨t, ht⟩
      rw [he] at ht
      cases ht
    · intro hp'
      exact absurd hp' hp

theorem Action.Meets.effect {a : Action} {s t : Session} {p : Prop} {q : Session → Prop}
    (h : a.Meets s p q) (ht : a.run s = .ok () t) : q t := by
  rcases h with ⟨-, u, hu, hrun⟩ | ⟨-, e, he⟩
  · rw [hrun] at ht
    cases ht
    exact hu
  · rw [he] at ht
    cases ht

/-- The number of members of a category that leave with these identifiers. -/
def departing (xuids : List Xuid) (category : SlotCategory) (s : Session) : Nat :=
  (s.membersOf category).countP fun m => m.xuid ∈ xuids

/-- When an operation happens. -/
def Admits (s : Session) : Op → Prop
  | .moveTo next => s.state.allows next
  | .register _ => s.state.allows .registration
  | .start => s.state.allows .inGame
  | .finish => s.state.allows .reporting
  | .delete => s.state.allows .deleted
  | .setCounts category vacant filled =>
    (s.membersOf category).length ≤ filled.toNat ∧
      vacant.toNat + filled.toNat ≤ (s.slots category).max.toNat
  | .fill category count => count.toNat ≤ (s.slots category).vacant.toNat
  | .release category count =>
    count.toNat + (s.membersOf category).length ≤ (s.slots category).filled.toNat
  | .join xuids category => xuids.length ≤ (s.slots category).vacant.toNat
  | .leave _ => True
  | .modify _ maxPublic maxPrivate =>
    s.publicSlots.filled.toNat ≤ maxPublic.toNat ∧ s.privateSlots.filled.toNat ≤ maxPrivate.toNat

/-- What an operation leaves behind: `t` is `s` but for what is named here. -/
def Effect (s t : Session) : Op → Prop
  | .moveTo next => t = { s with state := next }
  | .register arbitrationId => t = { s with state := .registration, arbitrationId }
  | .start => t = { s with state := .inGame }
  | .finish => t = { s with state := .reporting }
  | .delete => t = { s with state := .deleted }
  | .setCounts category vacant filled =>
    t = s.withSlots category { max := (s.slots category).max, vacant, filled }
  | .fill category count => ∃ x, Slots.Moved count.toNat (s.slots category) x ∧
    t = s.withSlots category x
  | .release category count => ∃ x, Slots.Moved (-count.toNat) (s.slots category) x ∧
    t = s.withSlots category x
  | .join xuids category => ∃ x, Slots.Moved xuids.length (s.slots category) x ∧
    t = { s.withSlots category x with
      members := s.members ++ xuids.map fun xuid => { xuid, category } }
  | .leave xuids => ∃ x y, Slots.Moved (-s.departing xuids .publicSlot) s.publicSlots x ∧
    Slots.Moved (-s.departing xuids .privateSlot) s.privateSlots y ∧
    t = { s with
      publicSlots := x
      privateSlots := y
      members := s.members.filter fun m => m.xuid ∉ xuids }
  | .modify flags maxPublic maxPrivate => ∃ x y, s.publicSlots.Rescaled maxPublic x ∧
    s.privateSlots.Rescaled maxPrivate y ∧
    t = { s with flags := s.flags.modified flags, publicSlots := x, privateSlots := y }

/-! ### Life -/

theorem run_moveTo (next : SessionState) (s : Session) :
    (moveTo next).run s =
      if s.state.allows next then .ok () { s with state := next }
      else .error (.transition s.state next) s := by
  simp only [moveTo, EStateM.run_bind, EStateM.run_get]
  split <;> rfl

theorem meets_moveTo (next : SessionState) (s : Session) :
    Action.Meets (moveTo next) s (s.state.allows next) fun t => t = { s with state := next } := by
  by_cases h : s.state.allows next
  · exact .inl ⟨h, _, rfl, by rw [run_moveTo, if_pos h]⟩
  · exact .inr ⟨h, _, by rw [run_moveTo, if_neg h]⟩

theorem meets_register (arbitrationId : SessionId) (s : Session) :
    Action.Meets (register arbitrationId) s (s.state.allows .registration)
      fun t => t = { s with state := .registration, arbitrationId } := by
  rcases meets_moveTo .registration s with ⟨hp, t, rfl, ht⟩ | ⟨hp, e, he⟩
  · exact .inl ⟨hp, _, rfl, by simp only [register, EStateM.run_bind, ht, EStateM.run_modify]⟩
  · exact .inr ⟨hp, e, by simp only [register, EStateM.run_bind, he]⟩

/-! ### Slots -/

theorem run_writeCounts (category : SlotCategory) (vacant filled : UInt32) (s : Session) :
    (writeCounts category vacant filled).run s =
      if vacant.toNat + filled.toNat ≤ (s.slots category).max.toNat then
        .ok () (s.withSlots category { max := (s.slots category).max, vacant, filled })
      else .error (.capacity category vacant filled (s.slots category).max) s := by
  simp only [writeCounts, EStateM.run_bind, EStateM.run_get, EStateM.run_ofExcept, Slots.withCounts]
  by_cases h : vacant.toNat + filled.toNat ≤ (s.slots category).max.toNat
  · simp only [if_pos h]
    rfl
  · simp only [if_neg h]

/-- No category has more members than a word counts. -/
theorem Accounted.toNat_memberCount {s : Session} (h : Accounted s) (category : SlotCategory) :
    (s.memberCount category).toNat = (s.membersOf category).length := by
  have hs : UInt32.size = 4294967296 := rfl
  have hheld := h.held category
  have hlt := (s.slots category).filled.toNat_lt_size
  rw [memberCount, UInt32.toNat_ofNat']
  omega

theorem meets_setCounts {s : Session} (h : Accounted s) (category : SlotCategory)
    (vacant filled : UInt32) :
    Action.Meets (setCounts category vacant filled) s
      ((s.membersOf category).length ≤ filled.toNat ∧
        vacant.toNat + filled.toNat ≤ (s.slots category).max.toNat)
      fun t => t = s.withSlots category { max := (s.slots category).max, vacant, filled } := by
  have hrun : (setCounts category vacant filled).run s =
      if filled < s.memberCount category then
        .error (.slots (.belowMembers category filled (s.memberCount category))) s
      else (writeCounts category vacant filled).run s := by
    simp only [setCounts, EStateM.run_bind, EStateM.run_get]
    split <;> rfl
  have hlt : filled < s.memberCount category ↔ filled.toNat < (s.membersOf category).length := by
    rw [UInt32.lt_iff_toNat_lt, h.toNat_memberCount]
  rw [run_writeCounts] at hrun
  by_cases hm : filled.toNat < (s.membersOf category).length
  · exact .inr ⟨by omega, _, by rw [hrun, if_pos (hlt.mpr hm)]⟩
  rw [if_neg fun hc => hm (hlt.mp hc)] at hrun
  by_cases hv : vacant.toNat + filled.toNat ≤ (s.slots category).max.toNat
  · exact .inl ⟨⟨by omega, hv⟩, _, rfl, by rw [hrun, if_pos hv]⟩
  · exact .inr ⟨fun hp => hv hp.2, _, by rw [hrun, if_neg hv]⟩

theorem meets_fill {s : Session} (h : Accounted s) (category : SlotCategory) (count : UInt32) :
    Action.Meets (fill category count) s (count.toNat ≤ (s.slots category).vacant.toNat)
      fun t => ∃ x, Slots.Moved count.toNat (s.slots category) x ∧ t = s.withSlots category x := by
  have hroom := h.room category
  by_cases hle : count.toNat ≤ (s.slots category).vacant.toNat
  · have hmoved := Slots.moved_taken hroom hle
    refine .inl ⟨hle, _, ⟨_, hmoved, rfl⟩, ?_⟩
    simp only [fill, EStateM.run_bind, EStateM.run_get, EStateM.run_ofExcept,
      Slots.taken_of_le hroom hle, run_writeCounts]
    exact if_pos (hmoved.room hroom)
  · refine .inr ⟨hle, .capacity category (s.slots category).vacant
      (Slots.satAdd (s.slots category).filled count) (s.slots category).max, ?_⟩
    simp only [fill, EStateM.run_bind, EStateM.run_get, EStateM.run_ofExcept, Slots.taken,
      UInt32.le_iff_toNat_le, if_neg hle]

theorem meets_release {s : Session} (h : Accounted s) (category : SlotCategory) (count : UInt32) :
    Action.Meets (release category count) s
      (count.toNat + (s.membersOf category).length ≤ (s.slots category).filled.toNat)
      fun t => ∃ x, Slots.Moved (-count.toNat) (s.slots category) x ∧
        t = s.withSlots category x := by
  have hroom := h.room category
  by_cases hle : count.toNat ≤ (s.slots category).filled.toNat
  · have hmoved := Slots.moved_released hroom hle
    have hrun : (release category count).run s =
        (setCounts category ((s.slots category).vacant + count)
          ((s.slots category).filled - count)).run s := by
      simp only [release, EStateM.run_bind, EStateM.run_get, EStateM.run_ofExcept,
        Slots.released_of_le hroom hle]
    have hfilled := hmoved.filled
    simp only at hfilled
    rcases meets_setCounts h category ((s.slots category).vacant + count)
        ((s.slots category).filled - count) with ⟨hp, t, rfl, ht⟩ | ⟨hp, e, he⟩
    · exact .inl ⟨by omega, _, ⟨_, hmoved, rfl⟩, hrun.trans ht⟩
    · have := hmoved.room hroom
      simp only [Slots.Room] at this
      exact .inr ⟨by omega, e, hrun.trans he⟩
  · refine .inr
      ⟨by omega, .slots (.releaseBeyondFilled category count (s.slots category).filled), ?_⟩
    simp only [release, EStateM.run_bind, EStateM.run_get, EStateM.run_ofExcept, Slots.released,
      UInt32.le_iff_toNat_le, if_neg hle]

theorem meets_join {s : Session} (h : Accounted s) (xuids : List Xuid) (category : SlotCategory) :
    Action.Meets (join xuids category) s (xuids.length ≤ (s.slots category).vacant.toNat)
      fun t => ∃ x, Slots.Moved xuids.length (s.slots category) x ∧
        t = { s.withSlots category x with
          members := s.members ++ xuids.map fun xuid => { xuid, category } } := by
  have hs : UInt32.size = 4294967296 := rfl
  have hlt := (s.slots category).vacant.toNat_lt_size
  by_cases hsize : UInt32.size ≤ xuids.length
  · exact .inr ⟨by omega, .slots .joinTooLarge, by rw [join, if_pos hsize]; rfl⟩
  have hcount : (UInt32.ofNat xuids.length).toNat = xuids.length := by
    rw [UInt32.toNat_ofNat']
    exact Nat.mod_eq_of_lt (by omega)
  have hfill := meets_fill h category (.ofNat xuids.length)
  rw [hcount] at hfill
  rcases hfill with ⟨hp, t, ⟨x, hx, rfl⟩, ht⟩ | ⟨hp, e, he⟩
  · refine .inl ⟨hp, _, ⟨x, hx, rfl⟩, ?_⟩
    simp only [join, if_neg hsize, EStateM.run_bind, ht, EStateM.run_modify, members_withSlots]
  · exact .inr ⟨hp, e, by simp only [join, if_neg hsize, EStateM.run_bind, he]⟩

theorem run_vacate {s : Session} (category : SlotCategory) {count : UInt32}
    (hroom : (s.slots category).Room) (h : count.toNat ≤ (s.slots category).filled.toNat) :
    ∃ x, Slots.Moved (-count.toNat) (s.slots category) x ∧
      (vacate category count).run s = .ok () (s.withSlots category x) := by
  have hmoved := Slots.moved_released hroom h
  refine ⟨_, hmoved, ?_⟩
  simp only [vacate, EStateM.run_bind, EStateM.run_get, EStateM.run_ofExcept,
    Slots.released_of_le hroom h, run_writeCounts]
  exact if_pos (hmoved.room hroom)

theorem Accounted.departing_le {s : Session} (h : Accounted s) (xuids : List Xuid)
    (category : SlotCategory) : s.departing xuids category ≤ (s.slots category).filled.toNat :=
  Nat.le_trans List.countP_le_length (h.held category)

theorem Accounted.toNat_leaving {s : Session} (h : Accounted s) (xuids : List Xuid)
    (category : SlotCategory) :
    (s.leaving xuids category).toNat = s.departing xuids category := by
  have hle := h.departing_le xuids category
  have hlt := (s.slots category).filled.toNat_lt_size
  rw [leaving, UInt32.toNat_ofNat']
  exact Nat.mod_eq_of_lt (Nat.lt_of_le_of_lt hle hlt)

theorem meets_leave {s : Session} (h : Accounted s) (xuids : List Xuid) :
    Action.Meets (leave xuids) s True
      fun t => ∃ x y, Slots.Moved (-s.departing xuids .publicSlot) s.publicSlots x ∧
        Slots.Moved (-s.departing xuids .privateSlot) s.privateSlots y ∧
        t = { s with
          publicSlots := x
          privateSlots := y
          members := s.members.filter fun m => m.xuid ∉ xuids } := by
  have hle := fun category => h.toNat_leaving xuids category ▸ h.departing_le xuids category
  obtain ⟨x, hx, hpublic⟩ := run_vacate .publicSlot (h.room .publicSlot) (hle .publicSlot)
  -- the other category is still as it was when its turn comes
  obtain ⟨y, hy, hprivate⟩ := run_vacate (s := s.withSlots .publicSlot x) .privateSlot
    (h.room .privateSlot) (hle .privateSlot)
  rw [h.toNat_leaving] at hx hy
  refine .inl ⟨trivial, _, ⟨x, y, hx, hy, rfl⟩, ?_⟩
  simp only [leave, EStateM.run_bind, EStateM.run_get, EStateM.run_tryCatch, hpublic, hprivate,
    EStateM.run_modify]
  rfl

theorem meets_modify (s : Session) (flags : SessionFlags) (maxPublic maxPrivate : UInt32) :
    Action.Meets (modify flags maxPublic maxPrivate) s
      (s.publicSlots.filled.toNat ≤ maxPublic.toNat ∧
        s.privateSlots.filled.toNat ≤ maxPrivate.toNat)
      fun t => ∃ x y, s.publicSlots.Rescaled maxPublic x ∧ s.privateSlots.Rescaled maxPrivate y ∧
        t = { s with flags := s.flags.modified flags, publicSlots := x, privateSlots := y } := by
  by_cases hpublic : s.publicSlots.filled.toNat ≤ maxPublic.toNat
  · obtain ⟨x, hx, hxrun⟩ := Slots.rescale_of_le .publicSlot hpublic
    by_cases hprivate : s.privateSlots.filled.toNat ≤ maxPrivate.toNat
    · obtain ⟨y, hy, hyrun⟩ := Slots.rescale_of_le .privateSlot hprivate
      refine .inl ⟨⟨hpublic, hprivate⟩, _, ⟨x, y, hx, hy, rfl⟩, ?_⟩
      simp only [modify, EStateM.run_bind, EStateM.run_get, EStateM.run_ofExcept, hxrun, hyrun]
      rfl
    · have hyrun := Slots.rescale_of_lt .privateSlot (Nat.lt_of_not_le hprivate)
      refine .inr ⟨fun hp => hprivate hp.2,
        .capacity .privateSlot 0 s.privateSlots.filled maxPrivate, ?_⟩
      simp only [modify, EStateM.run_bind, EStateM.run_get, EStateM.run_ofExcept, hxrun, hyrun]
  · have hxrun := Slots.rescale_of_lt .publicSlot (Nat.lt_of_not_le hpublic)
    refine .inr ⟨fun hp => hpublic hp.1, .capacity .publicSlot 0 s.publicSlots.filled maxPublic, ?_⟩
    simp only [modify, EStateM.run_bind, EStateM.run_get, EStateM.run_ofExcept, hxrun]

/-- Each operation happens just when it may, and does what it is for. -/
theorem meets_apply {s : Session} (h : Accounted s) (op : Op) :
    Action.Meets (apply op) s (Admits s op) fun t => Effect s t op := by
  cases op with
  | moveTo next => exact meets_moveTo next s
  | register arbitrationId => exact meets_register arbitrationId s
  | start => exact meets_moveTo .inGame s
  | finish => exact meets_moveTo .reporting s
  | delete => exact meets_moveTo .deleted s
  | setCounts category vacant filled => exact meets_setCounts h category vacant filled
  | fill category count => exact meets_fill h category count
  | release category count => exact meets_release h category count
  | join xuids category => exact meets_join h xuids category
  | leave xuids => exact meets_leave h xuids
  | modify flags maxPublic maxPrivate => exact meets_modify s flags maxPublic maxPrivate

/-- The effect of an operation says all of what it leaves behind. -/
theorem Effect.unique {s t u : Session} {op : Op} (ht : Effect s t op) (hu : Effect s u op) :
    t = u := by
  cases op with
  | moveTo next => exact Eq.trans ht (Eq.symm hu)
  | register arbitrationId => exact Eq.trans ht (Eq.symm hu)
  | start => exact Eq.trans ht (Eq.symm hu)
  | finish => exact Eq.trans ht (Eq.symm hu)
  | delete => exact Eq.trans ht (Eq.symm hu)
  | setCounts category vacant filled => exact Eq.trans ht (Eq.symm hu)
  | fill category count | release category count | join xuids category =>
    obtain ⟨x, hx, rfl⟩ := ht
    obtain ⟨y, hy, rfl⟩ := hu
    rw [hx.unique hy]
  | leave xuids =>
    obtain ⟨x, x', hx, hx', rfl⟩ := ht
    obtain ⟨y, y', hy, hy', rfl⟩ := hu
    rw [hx.unique hy, hx'.unique hy']
  | modify flags maxPublic maxPrivate =>
    obtain ⟨x, x', hx, hx', rfl⟩ := ht
    obtain ⟨y, y', hy, hy', rfl⟩ := hu
    rw [hx.unique hy, hx'.unique hy']

theorem Accounted.run_apply_iff {s t : Session} (h : Accounted s) (op : Op) :
    (apply op).run s = .ok () t ↔ Admits s op ∧ Effect s t op := by
  have hmeets := meets_apply h op
  constructor
  · intro ht
    exact ⟨hmeets.ok_iff.mp ⟨t, ht⟩, hmeets.effect ht⟩
  · rintro ⟨hadmits, heffect⟩
    obtain ⟨u, hu⟩ := hmeets.ok_iff.mpr hadmits
    rw [hu, heffect.unique (hmeets.effect hu)]

end Session

end ConsoleOnline
