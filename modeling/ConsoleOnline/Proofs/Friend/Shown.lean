import ConsoleOnline.Proofs.Friend.Keys
import ConsoleOnline.Proofs.Gamertag

/-!
The gamertag of a friend as it is seen in guest memory, where it ends before the first zero byte. A
refresh keeps the gamertag of a friend where it gives none, and tells by the text whether it gives
one. Of a text that begins with a zero character nothing is seen in the field, and yet it takes the
place of a gamertag that was seen.
-/
namespace ConsoleOnline

theorem Text.Utf8.encodeChar_eq_cons (c : Char) :
    ∃ b bs, encodeChar c = b :: bs ∧ (b = 0 ↔ c = '\x00') := by
  cases h : encodeChar c with
  | nil =>
    have hlength := length_encodeChar c
    rw [h] at hlength
    exact absurd hlength.symm (Nat.ne_of_gt c.utf8Size_pos)
  | cons b bs =>
    refine ⟨b, bs, rfl, ?_⟩
    constructor
    · intro hb
      by_contra hc
      exact ne_zero_of_mem_encodeChar hc b (h ▸ List.mem_cons_self) hb
    · rintro rfl
      exact (List.cons.inj h).1.symm

/-- Something is seen of the gamertag. -/
def FriendImage.ShowsGamertag (i : FriendImage) : Prop := i.gamertag[0] ≠ 0

instance (i : FriendImage) : Decidable i.ShowsGamertag := inferInstanceAs (Decidable (_ ≠ _))

theorem Gamertag.toField_first_ne_zero_iff (g : Gamertag) :
    g.toField[0] ≠ 0 ↔ ∃ c, g.text.toList.head? = some c ∧ c ≠ '\x00' := by
  have hfirst : g.toField.toList.head? = some g.toField[0] := by
    rw [List.head?_eq_getElem?, Vector.getElem?_toList]
    rfl
  rw [toList_toField] at hfirst
  cases htext : g.text.toList with
  | nil =>
    rw [htext] at hfirst
    have hzero : (0 : UInt8) = g.toField[0] := Option.some.inj hfirst
    simp [← hzero]
  | cons c cs =>
    obtain ⟨b, bs, hchar, hb⟩ := Text.Utf8.encodeChar_eq_cons c
    rw [htext, Text.Utf8.encode_cons, hchar] at hfirst
    have hbyte : b = g.toField[0] := Option.some.inj hfirst
    simp [← hbyte, hb]

namespace FriendList

variable {l : FriendList} {f : Friend}

/-- The gamertag that a document gives a friend, the last one that is not empty. -/
def gamertagIn (document : Json.Value) (xuid : Xuid) : Option Gamertag :=
  ((((reportsIn document).filter fun p => p.xuid = xuid).map Presence.gamertag).filter
    fun g => !g.isEmpty).getLast?

theorem gamertag_afterReceiving (hl : l.xuids.Nodup) (hf : f ∈ l.friends) (document : Json.Value) :
    ∃ g, (l.afterReceiving document).get? f.xuid = some g ∧
      g.gamertag = (gamertagIn document f.xuid).getD f.gamertag := by
  have hknown : l.get? f.xuid = some f := (get?_eq_some_iff hl).mpr ⟨hf, rfl⟩
  obtain ⟨g, hg, hmerged⟩ := merged_of_known hknown (reportsIn document)
  refine ⟨g, afterReceiving_eq l document ▸ hg, ?_⟩
  rw [hmerged.gamertag]
  exact Gamertag.lastGiven_cons _ _

/-- A friend whose gamertag is seen in guest memory is still listed after a document, and its
gamertag is still seen unless the document gives it one that begins with a zero character. -/
theorem gamertag_shown_iff (hl : l.xuids.Nodup) (hf : f ∈ l.friends)
    (hshown : f.image.ShowsGamertag) (document : Json.Value) :
    ∃ g, (l.afterReceiving document).get? f.xuid = some g ∧
      (g.image.ShowsGamertag ↔ ∀ given, gamertagIn document f.xuid = some given →
        given.text.toList.head? ≠ some '\x00') := by
  obtain ⟨g, hg, hgamertag⟩ := gamertag_afterReceiving hl hf document
  refine ⟨g, hg, ?_⟩
  rw [FriendImage.ShowsGamertag, Friend.image, hgamertag]
  cases hgiven : gamertagIn document f.xuid with
  | none => exact iff_of_true hshown (by simp)
  | some given =>
    have hne : given.text.toList ≠ [] := by
      have hmem := List.mem_of_getLast? hgiven
      simpa [Gamertag.isEmpty] using (List.mem_filter.mp hmem).2
    obtain ⟨c, cs, htext⟩ := List.exists_cons_of_ne_nil hne
    rw [Option.getD_some, Gamertag.toField_first_ne_zero_iff, htext]
    simp [htext]

/-- Of three gamertags that a document gives, the first would not be seen and the last is empty. -/
theorem gamertag_shown_after_three_reports :
    (FriendList.mk [.new ⟨1⟩ "Ann"]).xuids.Nodup ∧
      Friend.new ⟨1⟩ "Ann" ∈ (FriendList.mk [.new ⟨1⟩ "Ann"]).friends ∧
      (Friend.new ⟨1⟩ "Ann").image.ShowsGamertag ∧
      ∃ g, ((FriendList.mk [.new ⟨1⟩ "Ann"]).afterReceiving (.array
        [.object [("xuid", .string "1"), ("gamertag", .string "\x00x")],
          .object [("xuid", .string "1"), ("gamertag", .string "Bea")],
          .object [("xuid", .string "1"), ("gamertag", .string "")]])).get? ⟨1⟩ = some g ∧
        g.image.ShowsGamertag := by
  have hl : (FriendList.mk [.new ⟨1⟩ "Ann"]).xuids.Nodup := by decide
  have hf : Friend.new ⟨1⟩ "Ann" ∈ (FriendList.mk [.new ⟨1⟩ "Ann"]).friends := List.mem_cons_self
  have hshown : (Friend.new ⟨1⟩ "Ann").image.ShowsGamertag := by decide +kernel
  obtain ⟨g, hg, hiff⟩ := gamertag_shown_iff hl hf hshown (.array
    [.object [("xuid", .string "1"), ("gamertag", .string "\x00x")],
      .object [("xuid", .string "1"), ("gamertag", .string "Bea")],
      .object [("xuid", .string "1"), ("gamertag", .string "")]])
  refine ⟨hl, hf, hshown, g, hg, hiff.mpr ?_⟩
  rintro _ ⟨⟩
  decide +kernel

/-- A document gives a gamertag that begins with a zero character, and the one that was seen is
gone. -/
theorem gamertag_blanked_by_report :
    ¬ ∀ (l : FriendList) (f : Friend) (document : Json.Value), l.xuids.Nodup → f ∈ l.friends →
      f.image.ShowsGamertag →
        ∃ g, (l.afterReceiving document).get? f.xuid = some g ∧ g.image.ShowsGamertag := by
  intro h
  obtain ⟨g, hg, hshown⟩ := h ⟨[.new ⟨1⟩ "Ann"]⟩ (.new ⟨1⟩ "Ann")
    (.array [.object [("xuid", .string "1"), ("gamertag", .string "\x00x")]])
    (by decide) List.mem_cons_self (by decide +kernel)
  have hseen := congrArg (Option.map fun g => decide g.image.ShowsGamertag) hg
  rw [Option.map_some, decide_eq_true hshown] at hseen
  revert hseen
  decide +kernel

end FriendList

end ConsoleOnline
