import ConsoleOnline.Document.Users

/-!
The gamertag that an answer gives for an identifier. An answer may list one identifier several times,
with a gamertag or without one. The first gamertag that stands beside the identifier is told, unless
the identifier stands somewhere before it alone: then none is told.
-/
namespace ConsoleOnline.UserLookup

/-- The first entry that pairs the identifier with a gamertag has this one. -/
def FirstPaired (x : Xuid) (response : List LookupEntry) (g : Gamertag) : Prop :=
  ∃ before after, response = before ++ ⟨some x, some g⟩ :: after ∧
    ∀ e ∈ before, e.xuid = some x → e.gamertag = none

/-- The first entry of the identifier has no gamertag, and one after it has. -/
def Hidden (x : Xuid) (response : List LookupEntry) : Prop :=
  ∃ before after g, response = before ++ ⟨some x, none⟩ :: after ∧
    (∀ e ∈ before, e.xuid ≠ some x) ∧ ⟨some x, some g⟩ ∈ after

/-- The first gamertag that stands beside the identifier is told, and none only if there is none. -/
structure TellsFirst (x : Xuid) (response : List LookupEntry) : Prop where
  some_iff : ∀ g, gamertagFor x response = some g ↔ FirstPaired x response g
  none_iff : gamertagFor x response = none ↔ ∀ e ∈ response, e.xuid = some x → e.gamertag = none

variable {x : Xuid} {e : LookupEntry} {es : List LookupEntry} {g : Gamertag}

theorem gamertagFor_cons (x : Xuid) (e : LookupEntry) (es : List LookupEntry) :
    gamertagFor x (e :: es) = if e.xuid = some x then e.gamertag else gamertagFor x es := by
  rw [gamertagFor, List.find?_cons]
  by_cases h : e.xuid = some x <;> simp [h, gamertagFor]

theorem FirstPaired.mem (h : FirstPaired x es g) : ⟨some x, some g⟩ ∈ es := by
  obtain ⟨before, after, rfl, -⟩ := h
  simp

theorem firstPaired_cons_iff :
    FirstPaired x (e :: es) g ↔
      e = ⟨some x, some g⟩ ∨ (e.xuid = some x → e.gamertag = none) ∧ FirstPaired x es g := by
  constructor
  · rintro ⟨before, after, hsplit, hbefore⟩
    cases before with
    | nil => exact .inl (List.cons.inj hsplit).1
    | cons d before =>
      obtain ⟨rfl, rfl⟩ := List.cons.inj hsplit
      obtain ⟨hd, hbefore⟩ := List.forall_mem_cons.mp hbefore
      exact .inr ⟨hd, before, after, rfl, hbefore⟩
  · rintro (rfl | ⟨he, before, after, rfl, hbefore⟩)
    · exact ⟨[], es, rfl, by simp⟩
    · exact ⟨e :: before, after, rfl, List.forall_mem_cons.mpr ⟨he, hbefore⟩⟩

theorem hidden_cons_iff :
    Hidden x (e :: es) ↔
      e = ⟨some x, none⟩ ∧ (∃ g, ⟨some x, some g⟩ ∈ es) ∨ e.xuid ≠ some x ∧ Hidden x es := by
  constructor
  · rintro ⟨before, after, g, hsplit, hbefore, hafter⟩
    cases before with
    | nil =>
      obtain ⟨rfl, rfl⟩ := List.cons.inj hsplit
      exact .inl ⟨rfl, g, hafter⟩
    | cons d before =>
      obtain ⟨rfl, rfl⟩ := List.cons.inj hsplit
      obtain ⟨hd, hbefore⟩ := List.forall_mem_cons.mp hbefore
      exact .inr ⟨hd, before, after, g, rfl, hbefore, hafter⟩
  · rintro (⟨rfl, g, hafter⟩ | ⟨he, before, after, g, rfl, hbefore, hafter⟩)
    · exact ⟨[], es, g, rfl, by simp, hafter⟩
    · exact ⟨e :: before, after, g, rfl, List.forall_mem_cons.mpr ⟨he, hbefore⟩, hafter⟩

theorem tellsFirst_cons_of_ne (he : e.xuid ≠ some x) :
    TellsFirst x (e :: es) ↔ TellsFirst x es := by
  have htold : gamertagFor x (e :: es) = gamertagFor x es := by
    rw [gamertagFor_cons, if_neg he]
  have hpaired : ∀ g, FirstPaired x (e :: es) g ↔ FirstPaired x es g := by
    intro g
    have hne : e ≠ ⟨some x, some g⟩ := fun h => he (h ▸ rfl)
    simp [firstPaired_cons_iff, hne, he]
  constructor
  · intro h
    refine ⟨fun g => ?_, ?_⟩
    · rw [← htold, h.some_iff, hpaired]
    · rw [← htold, h.none_iff]
      simp [he]
  · intro h
    refine ⟨fun g => ?_, ?_⟩
    · rw [htold, h.some_iff, hpaired]
    · rw [htold, h.none_iff]
      simp [he]

theorem tellsFirst_cons_paired (x : Xuid) (g : Gamertag) (es : List LookupEntry) :
    TellsFirst x (⟨some x, some g⟩ :: es) where
  some_iff g' := by
    rw [gamertagFor_cons, if_pos rfl, firstPaired_cons_iff]
    simp
  none_iff := by
    rw [gamertagFor_cons, if_pos rfl]
    simp

theorem tellsFirst_cons_alone_iff :
    TellsFirst x (⟨some x, none⟩ :: es) ↔ ¬ ∃ g, ⟨some x, some g⟩ ∈ es := by
  have htold : gamertagFor x (⟨some x, none⟩ :: es) = none := by
    rw [gamertagFor_cons, if_pos rfl]
  constructor
  · rintro h ⟨g, hg⟩
    have hnone := h.none_iff.mp htold _ (List.mem_cons_of_mem _ hg) rfl
    cases hnone
  · intro h
    refine ⟨fun g => ?_, ?_⟩
    · rw [htold, firstPaired_cons_iff]
      constructor
      · rintro ⟨⟩
      · rintro (⟨⟨⟩⟩ | ⟨-, hpaired⟩)
        exact absurd ⟨g, hpaired.mem⟩ h
    · refine iff_of_true htold (List.forall_mem_cons.mpr ⟨fun _ => rfl, fun d hd hx => ?_⟩)
      refine Option.eq_none_iff_forall_ne_some.mpr fun g hg => h ⟨g, ?_⟩
      rw [← hx, ← hg]
      exact hd

theorem tellsFirst_iff_not_hidden (x : Xuid) (response : List LookupEntry) :
    TellsFirst x response ↔ ¬ Hidden x response := by
  induction response with
  | nil =>
    refine iff_of_true ⟨fun g => ?_, ?_⟩ ?_
    · simp [gamertagFor, FirstPaired]
    · simp [gamertagFor]
    · simp [Hidden]
  | cons e es ih =>
    by_cases he : e.xuid = some x
    · obtain ⟨xuid, gamertag⟩ := e
      obtain rfl : xuid = some x := he
      rw [hidden_cons_iff]
      cases gamertag with
      | some g => simp [tellsFirst_cons_paired]
      | none => simp [tellsFirst_cons_alone_iff]
    · have hne : e ≠ ⟨some x, none⟩ := fun h => he (h ▸ rfl)
      rw [tellsFirst_cons_of_ne he, ih, hidden_cons_iff]
      simp [hne, he]

theorem Hidden.gamertagFor_eq_none (h : Hidden x es) : gamertagFor x es = none := by
  obtain ⟨before, after, g, rfl, hbefore, -⟩ := h
  induction before with
  | nil => rw [List.nil_append, gamertagFor_cons, if_pos rfl]
  | cons d before ih =>
    obtain ⟨hd, hbefore⟩ := List.forall_mem_cons.mp hbefore
    rw [List.cons_append, gamertagFor_cons, if_neg hd, ih hbefore]

/-- The first gamertag of an identifier is told just if the first entry of the identifier does not
hide it. If it does, none is told. -/
theorem first_told_iff (x : Xuid) (response : List LookupEntry) :
    (TellsFirst x response ↔ ¬ Hidden x response) ∧
      (gamertagFor x response = none ↔
        Hidden x response ∨ ∀ e ∈ response, e.xuid = some x → e.gamertag = none) := by
  refine ⟨tellsFirst_iff_not_hidden x response, ?_⟩
  by_cases hhidden : Hidden x response
  · exact iff_of_true hhidden.gamertagFor_eq_none (.inl hhidden)
  · rw [((tellsFirst_iff_not_hidden x response).mpr hhidden).none_iff]
    simp [hhidden]

/-- An answer of a service that lists an identifier alone, and after that with a gamertag. -/
theorem gamertag_hidden_by_first_entry :
    ¬ ∀ (document : Json.Value) (l : UserLookup) (x : Xuid),
      (receive document).run {} = .ok () l → TellsFirst x l.response := by
  intro h
  have hfirst := h (.array [.object [("xuid", .string "1")],
    .object [("xuid", .string "1"), ("gamertag", .string "Ann")]]) _ ⟨1⟩ rfl
  have hnone := hfirst.none_iff.mp (by decide +kernel)
  revert hnone
  decide +kernel

end ConsoleOnline.UserLookup
