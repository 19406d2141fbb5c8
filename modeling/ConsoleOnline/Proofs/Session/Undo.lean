import ConsoleOnline.Proofs.Session.Reachable

/-!
Operations on slots that take each other back. Filled slots can be released and released slots
filled again, and members who have joined can leave. The session is then what it was before, in the
order of its members too, since those who leave are just those who joined last.
-/
namespace ConsoleOnline.Session

variable {s : Session}

/-- Where the one action happens, the other happens next and leaves the session as it was. -/
def Action.UndoneBy (a b : Action) (s : Session) : Prop :=
  ∀ t, a.run s = .ok () t → b.run t = .ok () s

/-- It is enough that the other operation may follow, and that its effect is that of going back. -/
theorem Accounted.undoneBy (h : Accounted s) (op back : Op)
    (hback : ∀ t, Admits s op → Effect s t op → Admits t back ∧ ∀ u, Effect t u back → u = s) :
    (apply op).UndoneBy (apply back) s := by
  intro t ht
  obtain ⟨hadmits, heffect⟩ := (h.run_apply_iff op).mp ht
  obtain ⟨hthen, hsame⟩ := hback t hadmits heffect
  have hmeets := meets_apply (h.of_run ht) back
  obtain ⟨u, hu⟩ := hmeets.ok_iff.mpr hthen
  rw [hu, hsame u (hmeets.effect hu)]

/-! ### Slots without members -/

theorem fill_undoneBy_release (h : Accounted s) (category : SlotCategory) (count : UInt32) :
    (fill category count).UndoneBy (release category count) s := by
  refine h.undoneBy (.fill category count) (.release category count) ?_
  rintro _ - ⟨x, hx, rfl⟩
  have hheld := h.held category
  have hfilled := hx.filled
  constructor
  · simp only [Admits, membersOf, members_withSlots, slots_withSlots, if_pos] at hheld ⊢
    omega
  · rintro _ ⟨y, hy, rfl⟩
    rw [slots_withSlots, if_pos rfl] at hy
    rw [withSlots_withSlots, hx.eq_of_back hy, withSlots_slots]

theorem release_undoneBy_fill (h : Accounted s) (category : SlotCategory) (count : UInt32) :
    (release category count).UndoneBy (fill category count) s := by
  refine h.undoneBy (.release category count) (.fill category count) ?_
  rintro _ - ⟨x, hx, rfl⟩
  have hvacant := hx.vacant
  constructor
  · simp only [Admits, slots_withSlots, if_pos]
    omega
  · rintro _ ⟨y, hy, rfl⟩
    rw [slots_withSlots, if_pos rfl] at hy
    have hback : Slots.Moved (-(-count.toNat)) x y := by rwa [Int.neg_neg]
    rw [withSlots_withSlots, hx.eq_of_back hback, withSlots_slots]

/-! ### Members -/

theorem filter_members_join (xuids : List Xuid) (category : SlotCategory)
    (hnew : ∀ m ∈ s.members, m.xuid ∉ xuids) :
    (s.members ++ xuids.map fun xuid => Member.mk xuid category).filter
      (fun m => m.xuid ∉ xuids) = s.members := by
  have hstay : s.members.filter (fun m => m.xuid ∉ xuids) = s.members :=
    List.filter_eq_self.mpr (by simpa using hnew)
  have hgo : (xuids.map fun xuid => Member.mk xuid category).filter (fun m => m.xuid ∉ xuids) =
      [] := by
    simp [List.filter_eq_nil_iff]
  rw [List.filter_append, hstay, hgo, List.append_nil]

/-- Of those who have just joined all leave, and nobody else. -/
theorem departing_join (xuids : List Xuid) (category other : SlotCategory) (x : Slots)
    (hnew : ∀ m ∈ s.members, m.xuid ∉ xuids) :
    departing xuids other { s.withSlots category x with
        members := s.members ++ xuids.map fun xuid => { xuid, category } } =
      if other = category then xuids.length else 0 := by
  have hleave := length_membersOf_leave { s.withSlots category x with
    members := s.members ++ xuids.map fun xuid => { xuid, category } } xuids other
  rw [length_membersOf_join, filter_members_join xuids category hnew, ← membersOf] at hleave
  omega

theorem join_undoneBy_leave (h : Accounted s) (xuids : List Xuid) (category : SlotCategory)
    (hnew : ∀ m ∈ s.members, m.xuid ∉ xuids) :
    (join xuids category).UndoneBy (leave xuids) s := by
  refine h.undoneBy (.join xuids category) (.leave xuids) ?_
  rintro _ - ⟨x, hx, rfl⟩
  refine ⟨trivial, ?_⟩
  rintro _ ⟨y, z, hy, hz, rfl⟩
  rw [departing_join xuids category _ x hnew] at hy hz
  rw [filter_members_join xuids category hnew]
  cases category with
  | publicSlot =>
    have hpublic : y = s.publicSlots := hx.eq_of_back hy
    have hprivate : z = s.privateSlots := (Slots.Moved.refl _).eq_of_back hz
    rw [hpublic, hprivate]
    rfl
  | privateSlot =>
    have hpublic : y = s.publicSlots := (Slots.Moved.refl _).eq_of_back hy
    have hprivate : z = s.privateSlots := hx.eq_of_back hz
    rw [hpublic, hprivate]
    rfl

/-- In a session that can come about, those who join where none of them is a member can leave again,
filled slots can be released and released slots filled, and the session is what it was. -/
theorem undone_when_reachable (h : Reachable s) :
    (∀ xuids category, (∀ m ∈ s.members, m.xuid ∉ xuids) →
        (join xuids category).UndoneBy (leave xuids) s) ∧
      (∀ category count, (fill category count).UndoneBy (release category count) s) ∧
      ∀ category count, (release category count).UndoneBy (fill category count) s :=
  ⟨fun xuids category hnew => join_undoneBy_leave h.accounted xuids category hnew,
    fun category count => fill_undoneBy_release h.accounted category count,
    fun category count => release_undoneBy_fill h.accounted category count⟩

/-- One who joins twice holds two slots and gives both back. -/
theorem undone_after_double_join :
    Reachable ((new ⟨0xAE00000000000001⟩ .host 3 1).step (.join [⟨2⟩] .privateSlot)) ∧
      (∀ m ∈ ((new ⟨0xAE00000000000001⟩ .host 3 1).step (.join [⟨2⟩] .privateSlot)).members,
        m.xuid ∉ [⟨1⟩, ⟨1⟩]) ∧
      (leave [⟨1⟩, ⟨1⟩]).run (((new ⟨0xAE00000000000001⟩ .host 3 1).step
        (.join [⟨2⟩] .privateSlot)).step (.join [⟨1⟩, ⟨1⟩] .publicSlot)) =
          .ok () ((new ⟨0xAE00000000000001⟩ .host 3 1).step (.join [⟨2⟩] .privateSlot)) := by
  have hs : Reachable ((new ⟨0xAE00000000000001⟩ .host 3 1).step (.join [⟨2⟩] .privateSlot)) :=
    .step _ (.new _ _ _ _)
  have hnew : ∀ m ∈ ((new ⟨0xAE00000000000001⟩ .host 3 1).step (.join [⟨2⟩] .privateSlot)).members,
      m.xuid ∉ [⟨1⟩, ⟨1⟩] := by decide
  exact ⟨hs, hnew, (undone_when_reachable hs).1 [⟨1⟩, ⟨1⟩] .publicSlot hnew _ rfl⟩

end ConsoleOnline.Session
