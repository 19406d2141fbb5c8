import ConsoleOnline.Proofs.Session.Reachable

/-!
Many who join or leave, list after list or all at once. Only who is on some list matters to those who
leave, so their lists may be put together, repeated and taken in any order. Lists of those who join
are put together in their order, and there are slots for each in turn just when there are slots for
all of them.
-/
namespace ConsoleOnline.Session

variable {s t : Session}

theorem run_andThen_iff {a b : Action} :
    (do a; b : Action).run s = .ok () t ↔ ∃ u, a.run s = .ok () u ∧ b.run u = .ok () t := by
  simp only [EStateM.run_bind]
  cases a.run s with
  | ok _ u => simp
  | error e u => simp

/-- Two operations in turn come to a third one, if the second of them may follow the first just when
the third may happen, and their effects together are its effect. -/
theorem Accounted.in_turn_iff {first second both : Op} (h : Accounted s)
    (hfirst : Admits s both → Admits s first)
    (hboth : ∀ u, Effect s u first → (Admits u second ↔ Admits s both) ∧
      ∀ t, Effect u t second → Effect s t both) :
    (do apply first; apply second : Action).run s = .ok () t ↔ (apply both).run s = .ok () t := by
  have hforth : ∀ t, (do apply first; apply second : Action).run s = .ok () t →
      (apply both).run s = .ok () t := by
    intro t ht
    obtain ⟨u, hu, ht⟩ := run_andThen_iff.mp ht
    obtain ⟨hiff, htogether⟩ := hboth u ((h.run_apply_iff first).mp hu).2
    obtain ⟨hadmits, heffect⟩ := ((h.of_run hu).run_apply_iff second).mp ht
    exact (h.run_apply_iff both).mpr ⟨hiff.mp hadmits, htogether t heffect⟩
  refine ⟨hforth t, fun ht => ?_⟩
  -- both operations happen, and the first half says where they lead
  have hadmits := ((h.run_apply_iff both).mp ht).1
  obtain ⟨u, hu⟩ := (meets_apply h first).ok_iff.mpr (hfirst hadmits)
  have hsecond := (hboth u ((h.run_apply_iff first).mp hu).2).1.mpr hadmits
  obtain ⟨v, hv⟩ := (meets_apply (h.of_run hu) second).ok_iff.mpr hsecond
  have hturn := run_andThen_iff.mpr ⟨u, hu, hv⟩
  have hsame := hforth v hturn
  rw [ht] at hsame
  cases hsame
  exact hturn

/-- An operation on lists that may be done for one list after the other or for all at once. -/
structure Batched (op : List Xuid → Op) : Prop where
  nil : ∀ {s}, Accounted s → (apply (op [])).run s = .ok () s
  append : ∀ {s t}, Accounted s → ∀ xs ys,
    (do apply (op xs); apply (op ys) : Action).run s = .ok () t ↔
      (apply (op (xs ++ ys))).run s = .ok () t

theorem Batched.forM_iff {op : List Xuid → Op} (hop : Batched op) (h : Accounted s)
    (batches : List (List Xuid)) :
    (batches.forM fun xs => apply (op xs)).run s = .ok () t ↔
      (apply (op batches.flatten)).run s = .ok () t := by
  induction batches generalizing s with
  | nil =>
    rw [List.flatten_nil, hop.nil h]
    rfl
  | cons xs batches ih =>
    rw [List.flatten_cons, ← hop.append h]
    change (do apply (op xs); batches.forM fun xs => apply (op xs) : Action).run s = _ ↔ _
    rw [run_andThen_iff, run_andThen_iff]
    constructor
    · rintro ⟨u, hu, ht⟩
      exact ⟨u, hu, (ih (h.of_run hu)).mp ht⟩
    · rintro ⟨u, hu, ht⟩
      exact ⟨u, hu, (ih (h.of_run hu)).mpr ht⟩

/-! ### Those who leave -/

theorem leave_congr {xs ys : List Xuid} (h : ∀ x, x ∈ xs ↔ x ∈ ys) : leave xs = leave ys := by
  have hleaving : leaving xs = leaving ys := by
    funext category s
    simp only [leaving, h]
  simp only [leave, hleaving, h]

theorem filter_members_leave (ms : List Member) (xs ys : List Xuid) :
    (ms.filter fun m => m.xuid ∉ xs).filter (fun m => m.xuid ∉ ys) =
      ms.filter fun m => m.xuid ∉ xs ++ ys := by
  rw [List.filter_filter]
  refine List.filter_congr fun m _ => ?_
  simp [Bool.and_comm]

/-- Of those on two lists, the ones on the first leave first, and then the rest. -/
theorem departing_append (xs ys : List Xuid) (category : SlotCategory) {u : Session}
    (hu : u.members = s.members.filter fun m => m.xuid ∉ xs) :
    s.departing (xs ++ ys) category = s.departing xs category + u.departing ys category := by
  have hfirst := length_membersOf_leave s xs category
  have hboth := length_membersOf_leave s (xs ++ ys) category
  have hsecond := length_membersOf_leave u ys category
  rw [← hu, ← membersOf] at hfirst
  rw [hu, filter_members_leave] at hsecond
  omega

theorem batched_leave : Batched .leave where
  nil {s} h := by
    have hnobody : ∀ category, s.departing [] category = 0 := fun category => by simp [departing]
    have hall : (s.members.filter fun m => m.xuid ∉ ([] : List Xuid)) = s.members := by simp
    refine (h.run_apply_iff (.leave [])).mpr ⟨trivial, s.publicSlots, s.privateSlots, ?_, ?_, ?_⟩
    · rw [hnobody]
      exact .refl _
    · rw [hnobody]
      exact .refl _
    · rw [hall]
  append {s t} h xs ys := by
    refine h.in_turn_iff (fun _ => trivial) ?_
    rintro u ⟨x, y, hx, hy, hu⟩
    have hmembers : u.members = s.members.filter fun m => m.xuid ∉ xs := by rw [hu]
    have hcount : ∀ category, (-s.departing (xs ++ ys) category : Int) =
        -s.departing xs category + -u.departing ys category := by
      intro category
      rw [departing_append xs ys category hmembers]
      omega
    refine ⟨Iff.rfl, ?_⟩
    rintro _ ⟨x', y', hx', hy', rfl⟩
    subst hu
    refine ⟨x', y', ?_, ?_, ?_⟩
    · rw [hcount]
      exact hx.trans hx'
    · rw [hcount]
      exact hy.trans hy'
    · rw [← filter_members_leave]

/-! ### Those who join -/

theorem batched_join (category : SlotCategory) : Batched fun xuids => .join xuids category where
  nil {s} h := by
    refine (h.run_apply_iff (.join [] category)).mpr
      ⟨Nat.zero_le _, s.slots category, .refl _, ?_⟩
    rw [withSlots_slots, List.map_nil, List.append_nil]
  append {s t} h xs ys := by
    refine h.in_turn_iff ?_ ?_
    · intro hadmits
      simp only [Admits, List.length_append] at hadmits ⊢
      omega
    rintro u ⟨x, hx, hu⟩
    have hslots : u.slots category = x := by
      rw [hu]
      exact (slots_withSlots s category category x).trans (if_pos rfl)
    have hvacant := hx.vacant
    refine ⟨?_, ?_⟩
    · simp only [Admits, hslots, List.length_append]
      omega
    · rintro _ ⟨y, hy, rfl⟩
      rw [hslots] at hy
      refine ⟨y, ?_, ?_⟩
      · rw [List.length_append, Int.natCast_add]
        exact hx.trans hy
      · rw [hu, List.map_append, ← List.append_assoc]
        cases category <;> rfl

/-- In a session that can come about, those on two lists may leave in turn or all at once, and however
the lists of those who leave are put together, repeated and ordered, the session is the same in the
end. Those on two lists can join in turn just when they can join all at once, and that leaves the
same session too; and so for any number of lists. -/
theorem batched_when_reachable (h : Reachable s) :
    (∀ xs ys, ∃ t, (do leave xs; leave ys : Action).run s = .ok () t ∧
        (leave (xs ++ ys)).run s = .ok () t) ∧
      (∀ batches others : List (List Xuid), (∀ x, x ∈ batches.flatten ↔ x ∈ others.flatten) →
        ∃ t, (batches.forM leave).run s = .ok () t ∧ (others.forM leave).run s = .ok () t) ∧
      (∀ category xs ys t, (do join xs category; join ys category : Action).run s = .ok () t ↔
        (join (xs ++ ys) category).run s = .ok () t) ∧
      ∀ category (batches : List (List Xuid)) t,
        (batches.forM (join · category)).run s = .ok () t ↔
          (join batches.flatten category).run s = .ok () t := by
  have haccounted := h.accounted
  have hleaves : ∀ xs, ∃ t, (leave xs).run s = .ok () t :=
    fun xs => (meets_leave haccounted xs).ok_iff.mpr trivial
  refine ⟨fun xs ys => ?_, fun batches others hsame => ?_, fun category xs ys t => ?_,
    fun category batches t => ?_⟩
  · obtain ⟨t, ht⟩ := hleaves (xs ++ ys)
    exact ⟨t, (batched_leave.append haccounted xs ys).mpr ht, ht⟩
  · obtain ⟨t, ht⟩ := hleaves batches.flatten
    refine ⟨t, (batched_leave.forM_iff haccounted batches).mpr ht, ?_⟩
    rw [leave_congr hsame] at ht
    exact (batched_leave.forM_iff haccounted others).mpr ht
  · exact (batched_join category).append haccounted xs ys
  · exact (batched_join category).forM_iff haccounted batches

/-- One who holds a slot of each category gives both back, however often named. Where one slot is left,
two cannot join in turn. -/
theorem batched_after_joins :
    Reachable (((new ⟨0xAE00000000000001⟩ .host 3 1).step (.join [⟨1⟩, ⟨2⟩] .publicSlot)).step
        (.join [⟨1⟩] .privateSlot)) ∧
      (∃ t, ([[⟨1⟩], [⟨2⟩], [⟨1⟩]].forM leave).run
          (((new ⟨0xAE00000000000001⟩ .host 3 1).step (.join [⟨1⟩, ⟨2⟩] .publicSlot)).step
            (.join [⟨1⟩] .privateSlot)) = .ok () t ∧
        ([[⟨2⟩, ⟨1⟩]].forM leave).run
          (((new ⟨0xAE00000000000001⟩ .host 3 1).step (.join [⟨1⟩, ⟨2⟩] .publicSlot)).step
            (.join [⟨1⟩] .privateSlot)) = .ok () t) ∧
      ¬ ∃ t, (do join [⟨3⟩] .publicSlot; join [⟨4⟩] .publicSlot : Action).run
        (((new ⟨0xAE00000000000001⟩ .host 3 1).step (.join [⟨1⟩, ⟨2⟩] .publicSlot)).step
          (.join [⟨1⟩] .privateSlot)) = .ok () t := by
  have hs : Reachable (((new ⟨0xAE00000000000001⟩ .host 3 1).step
      (.join [⟨1⟩, ⟨2⟩] .publicSlot)).step (.join [⟨1⟩] .privateSlot)) :=
    .step _ (.step _ (.new _ _ _ _))
  obtain ⟨-, hleaves, hjoins, -⟩ := batched_when_reachable hs
  refine ⟨hs, hleaves [[⟨1⟩], [⟨2⟩], [⟨1⟩]] [[⟨2⟩, ⟨1⟩]] ?_, ?_⟩
  · intro x
    simp only [List.flatten_cons, List.flatten_nil, List.mem_append, List.mem_cons,
      List.not_mem_nil, or_false]
    tauto
  · rintro ⟨t, ht⟩
    cases (hjoins .publicSlot [⟨3⟩] [⟨4⟩] t).mp ht

end ConsoleOnline.Session
