import ConsoleOnline.Proofs.Friend.Refresh
import ConsoleOnline.Proofs.Gamertag

/-!
A friend that is listed before its first report, and one that the report lists. The report fills both
in the same way but for the bits that belong to invites: a friend that is listed already keeps its
own, of which it has none, and a new friend takes over those of the report.
-/
namespace ConsoleOnline

/-- A presence without the bits that belong to invites. -/
def Presence.withoutInvite (p : Presence) : Presence := { p with state := p.state.withInviteBits {} }

theorem Presence.withoutInvite_eq_self_iff {p : Presence} :
    p.withoutInvite = p ↔ p.state.inviteBits = 0 := by
  have hstate : p.withoutInvite = p ↔ p.state.withInviteBits {} = p.state := by
    constructor
    · exact congrArg Presence.state
    · intro h
      rw [withoutInvite, h]
  rw [hstate, PresenceState.withInviteBits_eq_self_iff]
  rfl

/-- The first report fills in a friend of whom nothing is known. -/
theorem Friend.refresh_new (p : Presence) :
    (Friend.new p.xuid "").refresh p = .ofPresence p.withoutInvite := by
  have hgamertag : (if p.gamertag.isEmpty then (Friend.new p.xuid "").gamertag else p.gamertag) =
      p.gamertag := by
    split
    · next h => exact (Gamertag.ofText_text {}).trans (Gamertag.eq_empty h).symm
    · rfl
  rw [refresh, hgamertag]
  rfl

namespace FriendList

theorem updateFirst_concat {xuid : Xuid} (change : Friend → Friend) {fs : List Friend}
    (h : xuid ∉ fs.map Friend.xuid) {f : Friend} (hf : f.xuid = xuid) :
    updateFirst xuid change (fs ++ [f]) = fs ++ [change f] := by
  induction fs with
  | nil => rw [List.nil_append, updateFirst, if_pos hf, List.nil_append]
  | cons g fs ih =>
    rw [List.map_cons, List.mem_cons, not_or] at h
    obtain ⟨hg, hfs⟩ := h
    rw [List.cons_append, updateFirst, if_neg (Ne.symm hg), ih hfs, List.cons_append]

variable {l : FriendList} {p : Presence}

theorem friends_refresh_of_not_mem (h : p.xuid ∉ l.xuids) :
    (l.refresh p).friends = l.friends ++ [.ofPresence p] := by
  rw [refresh, if_neg (mt contains_iff.mp h)]

theorem friends_refresh_add (h : p.xuid ∉ l.xuids) :
    ((l.add p.xuid "").refresh p).friends = l.friends ++ [.ofPresence p.withoutInvite] := by
  have hadd : l.add p.xuid "" = ⟨l.friends ++ [.new p.xuid ""]⟩ := by
    rw [add, if_neg (mt contains_iff.mp h)]
  have hlisted : p.xuid ∈ (l.add p.xuid "").xuids := by
    rw [hadd, xuids, List.map_append]
    exact List.mem_append_right _ (List.mem_singleton.mpr rfl)
  rw [refresh, if_pos (contains_iff.mpr hlisted), hadd, update, updateFirst_concat _ h rfl,
    Friend.refresh_new]

/-- A friend that is listed before its first report comes out as if the report had no invite bits.
That it was listed makes a difference exactly where the report has some. -/
theorem refresh_of_listed_before (h : p.xuid ∉ l.xuids) :
    (l.add p.xuid "").refresh p = l.refresh p.withoutInvite ∧
      ((l.add p.xuid "").refresh p = l.refresh p ↔ p.state.inviteBits = 0) := by
  have hlisted := friends_refresh_add h
  have hwithout : (l.refresh p.withoutInvite).friends =
      l.friends ++ [.ofPresence p.withoutInvite] := friends_refresh_of_not_mem h
  have hnew := friends_refresh_of_not_mem h
  refine ⟨eq_of_friends (hlisted.trans hwithout.symm), ?_⟩
  rw [← Presence.withoutInvite_eq_self_iff]
  constructor
  · intro heq
    rw [heq, hnew] at hlisted
    have hfriend := List.singleton_inj.mp (List.append_cancel_left hlisted)
    exact (congrArg Friend.presence hfriend).symm
  · intro heq
    rw [heq, ← hnew] at hlisted
    exact eq_of_friends hlisted

/-- A report that has no invite bits but tells that the friend is online. -/
theorem refresh_of_listed_before_online :
    (⟨8⟩ : Xuid) ∉ (FriendList.mk [.new ⟨7⟩ "Ann"]).xuids ∧
      (FriendList.add ⟨8⟩ "" ⟨[.new ⟨7⟩ "Ann"]⟩).refresh { xuid := ⟨8⟩, state := .online } =
        FriendList.refresh ⟨[.new ⟨7⟩ "Ann"]⟩ { xuid := ⟨8⟩, state := .online } := by
  have hnew : (⟨8⟩ : Xuid) ∉ (FriendList.mk [.new ⟨7⟩ "Ann"]).xuids := by decide
  have hbits : PresenceState.online.inviteBits = 0 := by decide
  exact ⟨hnew, (refresh_of_listed_before (p := { xuid := ⟨8⟩, state := .online }) hnew).2.mpr hbits⟩

/-- A report of an invite that nobody sent makes a pending invite of a friend that is new, and none
of a friend that was listed before. -/
theorem invite_of_first_report :
    ¬ ∀ (l : FriendList) (p : Presence), l.xuids.Nodup → p.xuid ∉ l.xuids →
      l.refresh p = (l.add p.xuid "").refresh p := by
  intro h
  have hsame := h {} { xuid := ⟨1⟩, state := .receivedInvite } (by decide) (by decide)
  have hpending := congrArg (fun l => l.friends.map Friend.hasPendingInvite) hsame
  revert hpending
  decide

end FriendList

end ConsoleOnline
