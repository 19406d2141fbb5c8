import ConsoleOnline.Proofs.Friend.Keys

/-!
A document that is received a second time changes nothing. The second time its reports are replayed
from the first one on, over what the last one left. Each part of a friend comes through: what the
last report decides it decides again, the gamertag that was given last is given last again, and the
invite is no report's business once the friend is listed.
-/
namespace ConsoleOnline

attribute [ext] Presence Friend

theorem Friend.eq_of_standing {f g : Friend} (hpresence : f.presence = g.presence)
    (hstanding : f.standing = g.standing) : f = g := by
  obtain ⟨hinviter, hinvitee, hsession, htime⟩ := Invite.mk.inj hstanding
  exact Friend.ext hpresence hinviter hinvitee hsession htime

/-- The gamertag that some reports left is not changed by the same reports. -/
theorem Gamertag.lastGiven_again (tags given : List Gamertag) :
    lastGiven (lastGiven (tags ++ given) :: given) = lastGiven (tags ++ given) := by
  rw [lastGiven_cons, lastGiven, List.filter_append, List.getLast?_append]
  cases (given.filter fun g => !g.isEmpty).getLast? with
  | none => rfl
  | some g => rfl

/-- What reports made of a friend is what the same reports make of it again. -/
theorem Friend.Merged.eq_of_again {known : Option Friend} {reports : List Presence} {f g : Friend}
    (hf : Merged known reports f) (hg : Merged (some f) reports g) (hreports : reports ≠ []) :
    g = f := by
  have hlast := List.getLast?_eq_some_getLast hreports
  obtain ⟨hxuid, hother, htime, hsession, htitle, hrich⟩ := hf.last _ hlast
  obtain ⟨hxuid', hother', htime', hsession', htitle', hrich'⟩ := hg.last _ hlast
  obtain ⟨hstanding, hinvite⟩ := hg.kept f rfl
  have hgamertag : g.gamertag = f.gamertag := by
    calc g.gamertag = .lastGiven (f.gamertag :: reports.map Presence.gamertag) := hg.gamertag
      _ = f.gamertag := by rw [hf.gamertag, Gamertag.lastGiven_again]
  refine Friend.eq_of_standing (Presence.ext ?_ hgamertag ?_ ?_ ?_ ?_ ?_) hstanding
  · exact hxuid'.trans hxuid.symm
  · exact PresenceState.eq_of_parts hinvite (hother'.trans hother.symm)
  · exact hsession'.trans hsession.symm
  · exact htitle'.trans htitle.symm
  · exact htime'.trans htime.symm
  · exact hrich'.trans hrich.symm

namespace FriendList

variable {l m : FriendList}

/-- A list is told by its identifiers and by what is found under them. -/
theorem filterMap_get? (h : l.xuids.Nodup) :
    l.xuids.filterMap (fun xuid => l.get? xuid) = l.friends := by
  have hfound : ∀ f ∈ l.friends, l.get? f.xuid = some f :=
    fun f hf => (get?_eq_some_iff h).mpr ⟨hf, rfl⟩
  rw [xuids, List.filterMap_map]
  refine (List.filterMap_congr hfound).trans ?_
  exact List.filterMap_some

theorem eq_of_get? (hl : l.xuids.Nodup) (hxuids : m.xuids = l.xuids)
    (hget : ∀ xuid ∈ l.xuids, m.get? xuid = l.get? xuid) : m = l := by
  have hm : m.xuids.Nodup := hxuids ▸ hl
  have hfriends : m.friends = l.friends := by
    rw [← filterMap_get? hm, ← filterMap_get? hl, hxuids]
    exact List.filterMap_congr hget
  exact eq_of_friends hfriends

/-- The same reports list nobody new and find everyone as they left them. -/
theorem foldl_refresh_again (h : l.xuids.Nodup) (reports : List Presence) :
    reports.foldl refresh (reports.foldl refresh l) = reports.foldl refresh l := by
  have hfirst := refreshed_foldl h reports
  have hlisted : ∀ xuid ∈ reports.map Presence.xuid, xuid ∈ (reports.foldl refresh l).xuids := by
    intro xuid hxuid
    obtain ⟨f, hf, -⟩ := hfirst.named xuid hxuid
    by_contra hnew
    rw [get?_eq_none_iff.mpr hnew] at hf
    cases hf
  have hsecond := refreshed_foldl hfirst.distinct reports
  refine eq_of_get? hfirst.distinct ?_ fun xuid hxuid => ?_
  · have hnone : (reports.map Presence.xuid).filter (· ∉ (reports.foldl refresh l).xuids) = [] := by
      simpa [List.filter_eq_nil_iff] using hlisted
    rw [hsecond.xuids, hnone, List.eraseDups_nil, List.append_nil]
  · by_cases hnamed : xuid ∈ reports.map Presence.xuid
    · obtain ⟨f, hf, hmerged⟩ := hfirst.named xuid hnamed
      obtain ⟨g, hg, hagain⟩ := hsecond.named xuid hnamed
      rw [hf] at hagain
      have hsome : (reports.filter fun p => p.xuid = xuid) ≠ [] := by
        simpa [List.filter_eq_nil_iff] using hnamed
      rw [hf, hg, hmerged.eq_of_again hagain hsome]
    · exact hsecond.unnamed xuid hnamed

/-- A document that is received twice leaves the same friends, in the same order, as one that is
received once, whatever records it has and even if it is refused. -/
theorem afterReceiving_again (h : l.xuids.Nodup) (document : Json.Value) :
    (l.afterReceiving document).afterReceiving document = l.afterReceiving document := by
  simp only [afterReceiving_eq]
  exact foldl_refresh_again h (reportsIn document)

/-- A friend is new, and its records disagree on its gamertag and on the invite. -/
theorem afterReceiving_again_despite_conflict :
    (FriendList.mk [.new ⟨7⟩ "Ann"]).xuids.Nodup ∧
      ((FriendList.mk [.new ⟨7⟩ "Ann"]).afterReceiving (.array
        [.array [.string "8", .string "Bea", .number (.natural 0x08000001)],
          .array [.string "8", .string "Cy", .number (.natural 0x10000000)],
          .array [.string "8"]])).afterReceiving (.array
        [.array [.string "8", .string "Bea", .number (.natural 0x08000001)],
          .array [.string "8", .string "Cy", .number (.natural 0x10000000)],
          .array [.string "8"]]) =
        (FriendList.mk [.new ⟨7⟩ "Ann"]).afterReceiving (.array
          [.array [.string "8", .string "Bea", .number (.natural 0x08000001)],
            .array [.string "8", .string "Cy", .number (.natural 0x10000000)],
            .array [.string "8"]]) := by
  have hl : (FriendList.mk [.new ⟨7⟩ "Ann"]).xuids.Nodup := by decide
  exact ⟨hl, afterReceiving_again hl _⟩

end FriendList

end ConsoleOnline
