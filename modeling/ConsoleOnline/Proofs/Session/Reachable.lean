import ConsoleOnline.Proofs.Session.Document
import ConsoleOnline.Proofs.Session.Refusals

/-!
The sessions that can come about: made anew or received as a document, set up by the builders, and
changed by operations, those included that are refused. All of them are `Accounted`.
-/
namespace ConsoleOnline.Session

/-! ### Steps -/

theorem Accounted.withSlots {s : Session} (h : Accounted s) {category : SlotCategory} {x : Slots}
    (hroom : x.Room) (hheld : (s.membersOf category).length ≤ x.filled.toNat) :
    Accounted (s.withSlots category x) where
  room other := by
    rw [slots_withSlots]
    split
    · exact hroom
    · exact h.room other
  held other := by
    rw [membersOf, members_withSlots, ← membersOf, slots_withSlots]
    split
    · next he => exact he ▸ hheld
    · exact h.held other

theorem length_membersOf_join (s : Session) (xuids : List Xuid) (category other : SlotCategory)
    (x : Slots) :
    (membersOf { s.withSlots category x with
        members := s.members ++ xuids.map fun xuid => { xuid, category } } other).length =
      (s.membersOf other).length + if other = category then xuids.length else 0 := by
  simp only [membersOf, List.filter_append, List.length_append, List.filter_map, List.length_map]
  by_cases h : category = other
  · simp [h, Function.comp_def]
  · simp [h, Ne.symm h, Function.comp_def]

theorem length_membersOf_leave (s : Session) (xuids : List Xuid) (category : SlotCategory) :
    ((s.members.filter fun m => m.xuid ∉ xuids).filter fun m => m.category = category).length +
      s.departing xuids category = (s.membersOf category).length := by
  have h := List.length_eq_countP_add_countP (fun m : Member => decide (m.xuid ∈ xuids))
    (l := s.membersOf category)
  have hcomm : (s.members.filter fun m => m.xuid ∉ xuids).filter (fun m => m.category = category) =
      (s.membersOf category).filter fun m => m.xuid ∉ xuids := by
    simp only [membersOf, List.filter_filter, Bool.and_comm]
  rw [hcomm, ← List.countP_eq_length_filter, departing, h, Nat.add_comm]
  simp

/-- What an operation may do keeps the accounts. -/
theorem Accounted.effect {s t : Session} {op : Op} (h : Accounted s) (ha : Admits s op)
    (he : Effect s t op) : Accounted t := by
  cases op with
  | moveTo next => rw [he]; exact ⟨h.room, h.held⟩
  | register arbitrationId => rw [he]; exact ⟨h.room, h.held⟩
  | start => rw [he]; exact ⟨h.room, h.held⟩
  | finish => rw [he]; exact ⟨h.room, h.held⟩
  | delete => rw [he]; exact ⟨h.room, h.held⟩
  | setCounts category vacant filled => rw [he]; exact h.withSlots ha.2 ha.1
  | fill category count =>
    obtain ⟨x, hx, rfl⟩ := he
    have := h.held category
    have := hx.filled
    exact h.withSlots (hx.room (h.room category)) (by omega)
  | release category count =>
    obtain ⟨x, hx, rfl⟩ := he
    have := hx.filled
    simp only [Admits] at ha
    exact h.withSlots (hx.room (h.room category)) (by omega)
  | join xuids category =>
    obtain ⟨x, hx, rfl⟩ := he
    have hfilled := hx.filled
    have hheld := h.held category
    have hslots : Accounted (s.withSlots category x) :=
      h.withSlots (hx.room (h.room category)) (by omega)
    refine ⟨hslots.room, fun other => ?_⟩
    rw [length_membersOf_join]
    change _ ≤ ((s.withSlots category x).slots other).filled.toNat
    rw [slots_withSlots]
    split
    · next he => subst he; omega
    · exact h.held other
  | leave xuids =>
    obtain ⟨x, y, hx, hy, rfl⟩ := he
    refine ⟨fun category => ?_, fun category => ?_⟩
    · cases category with
      | publicSlot => exact hx.room (h.room .publicSlot)
      | privateSlot => exact hy.room (h.room .privateSlot)
    · have hlength := length_membersOf_leave s xuids category
      have hheld := h.held category
      have hxf := hx.filled
      have hyf := hy.filled
      cases category <;> simp only [membersOf, slots] at * <;> omega
  | modify flags maxPublic maxPrivate =>
    obtain ⟨x, y, hx, hy, rfl⟩ := he
    refine ⟨fun category => ?_, fun category => ?_⟩
    · cases category with
      | publicSlot => exact hx.room
      | privateSlot => exact hy.room
    · cases category with
      | publicSlot => exact hx.filled ▸ h.held .publicSlot
      | privateSlot => exact hy.filled ▸ h.held .privateSlot

theorem Accounted.of_run {s t : Session} {op : Op} (h : Accounted s)
    (ht : (apply op).run s = .ok () t) : Accounted t := by
  obtain ⟨hadmits, heffect⟩ := (h.run_apply_iff op).mp ht
  exact h.effect hadmits heffect

/-- An operation that may happen has its effect. -/
theorem Accounted.effect_step {s : Session} {op : Op} (h : Accounted s) (ha : Admits s op) :
    Effect s (s.step op) op := by
  obtain ⟨t, ht⟩ := (meets_apply h op).ok_iff.mpr ha
  have hstep : s.step op = t := by simp only [Session.step, ht]
  rw [hstep]
  exact (meets_apply h op).effect ht

theorem Accounted.step {s : Session} (h : Accounted s) (op : Op) : Accounted (s.step op) := by
  rcases meets_apply h op with ⟨ha, t, ht, hrun⟩ | ⟨_, e, hrun⟩
  · simp only [Session.step, hrun]
    exact h.effect ha ht
  · simp only [Session.step, hrun]
    exact h

theorem Accounted.run {s : Session} (h : Accounted s) (ops : List Op) : Accounted (s.run ops) := by
  induction ops generalizing s with
  | nil => exact h
  | cons op ops ih => exact ih (h.step op)

theorem accounted_new (id : SessionId) (flags : SessionFlags) (maxPublic maxPrivate : UInt32) :
    Accounted (new id flags maxPublic maxPrivate) where
  room category := by cases category <;> simp [Slots.Room, new, slots, Slots.empty]
  held category := by simp [membersOf, new]

/-! ### Reachable sessions -/

inductive Reachable : Session → Prop where
  | new (id : SessionId) (flags : SessionFlags) (maxPublic maxPrivate : UInt32) :
    Reachable (new id flags maxPublic maxPrivate)
  | received {d : Json.Value} {held s : Session} (h : (receive d).run held = .ok () s) : Reachable s
  | withHost {s : Session} (host : HostAddress) (h : Reachable s) : Reachable (s.withHost host)
  | withKey {s : Session} (key : ExchangeKey) (h : Reachable s) : Reachable (s.withKey key)
  | withHostUserIndex {s : Session} (index : UInt32) (h : Reachable s) :
    Reachable (s.withHostUserIndex index)
  | withGameType {s : Session} (gameType gameMode : UInt32) (h : Reachable s) :
    Reachable (s.withGameType gameType gameMode)
  | withNonce {s : Session} (nonce : UInt64) (h : Reachable s) : Reachable (s.withNonce nonce)
  | step {s : Session} (op : Op) (h : Reachable s) : Reachable (s.step op)

theorem Reachable.run {s : Session} (h : Reachable s) (ops : List Op) : Reachable (s.run ops) := by
  induction ops generalizing s with
  | nil => exact h
  | cons op ops ih => exact ih (h.step op)

theorem accounted_of_describes {fields : List (String × Json.Value)} {s : Session}
    (h : Describes fields s) : Accounted s where
  room category := by
    cases category with
    | publicSlot => exact h.publicSlots.room
    | privateSlot => exact h.privateSlots.room
  held category := by
    rw [← h.listed]
    exact Nat.zero_le _

theorem Reachable.accounted {s : Session} (h : Reachable s) : Accounted s := by
  induction h with
  | new id flags maxPublic maxPrivate => exact accounted_new id flags maxPublic maxPrivate
  | received h =>
    obtain ⟨fields, -, hs⟩ := receive_eq_ok_iff.mp h
    exact accounted_of_describes hs
  | withHost host h ih => exact ⟨ih.room, ih.held⟩
  | withKey key h ih => exact ⟨ih.room, ih.held⟩
  | withHostUserIndex index h ih => exact ⟨ih.room, ih.held⟩
  | withGameType gameType gameMode h ih => exact ⟨ih.room, ih.held⟩
  | withNonce nonce h ih => exact ⟨ih.room, ih.held⟩
  | step op h ih => exact ih.step op

/-- Whatever is done to a session, allowed or not, the vacant and the filled slots of a category are
within its maximum, and its members do not outnumber its filled slots. -/
theorem counters_hold_along_runs {s : Session} (h : Reachable s) (ops : List Op)
    (category : SlotCategory) :
    ((s.run ops).slots category).vacant.toNat + ((s.run ops).slots category).filled.toNat ≤
        ((s.run ops).slots category).max.toNat ∧
      ((s.run ops).membersOf category).length ≤ ((s.run ops).slots category).filled.toNat :=
  have haccounted := (h.run ops).accounted
  ⟨haccounted.room category, haccounted.held category⟩

/-- Two members join, a slot that one of them holds cannot be released, and one leaves. -/
theorem counters_hold_after_release :
    Reachable (new ⟨0xAE00000000000001⟩ .host 3 1) ∧
      (((new ⟨0xAE00000000000001⟩ .host 3 1).run
        [.join [⟨1⟩, ⟨2⟩] .publicSlot, .release .publicSlot 1, .leave [⟨1⟩]]).membersOf
          .publicSlot).length ≤
        (((new ⟨0xAE00000000000001⟩ .host 3 1).run
          [.join [⟨1⟩, ⟨2⟩] .publicSlot, .release .publicSlot 1, .leave [⟨1⟩]]).slots
            .publicSlot).filled.toNat :=
  ⟨.new _ _ _ _, (counters_hold_along_runs (.new _ _ _ _) _ .publicSlot).2⟩

/-- In a session that can come about, an operation happens just when it may, does what it is for
in exact numbers, and changes nothing where it is refused. -/
theorem operations_exact_when_reachable {s : Session} (h : Reachable s) (op : Op) :
    ((∃ t, (apply op).run s = .ok () t) ↔ Admits s op) ∧
      (∀ t, (apply op).run s = .ok () t → Effect s t op) ∧
      ∀ e t, (apply op).run s = .error e t → t = s := by
  have hmeets := meets_apply h.accounted op
  refine ⟨hmeets.ok_iff, fun t ht => hmeets.effect ht, fun e t ht => ?_⟩
  exact allOrNothing_apply op s t e ht

/-- The slot that the only member holds cannot be released, but the member can leave. -/
theorem operations_exact_after_join :
    ¬ (∃ t, (apply (.release .publicSlot 1)).run
        ((new ⟨0xAE00000000000001⟩ .host 3 1).step (.join [⟨1⟩] .publicSlot)) = .ok () t) ∧
      ∃ t, (apply (.leave [⟨1⟩])).run
        ((new ⟨0xAE00000000000001⟩ .host 3 1).step (.join [⟨1⟩] .publicSlot)) = .ok () t := by
  have hs : Reachable ((new ⟨0xAE00000000000001⟩ .host 3 1).step (.join [⟨1⟩] .publicSlot)) :=
    .step _ (.new _ _ _ _)
  constructor
  · rw [(operations_exact_when_reachable hs (.release .publicSlot 1)).1]
    simp only [Admits]
    decide
  · rw [(operations_exact_when_reachable hs (.leave [⟨1⟩])).1]
    trivial

end ConsoleOnline.Session
