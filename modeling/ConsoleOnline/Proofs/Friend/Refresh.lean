import ConsoleOnline.FriendList
import ConsoleOnline.Proofs.Friend.Invite
import ConsoleOnline.Proofs.Gamertag

/-!
A refresh of the friends list. Each report finds its friend or makes a new one at the end of the
list, so the friends stay in the order in which they were first seen, one for each identifier, and a
report is of no consequence for any other friend. What the reports on one friend add up to differs
from part to part: the last one counts, or the last that is not empty, or none at all.
-/
namespace ConsoleOnline

/-- The last of some gamertags that is not empty. -/
def Gamertag.lastGiven (tags : List Gamertag) : Gamertag :=
  (tags.filter fun g => !g.isEmpty).getLast?.getD {}

theorem Gamertag.lastGiven_concat (tags : List Gamertag) (g : Gamertag) :
    lastGiven (tags ++ [g]) = if g.isEmpty then lastGiven tags else g := by
  rw [lastGiven, List.filter_append, List.getLast?_append]
  by_cases h : g.isEmpty <;> simp [h, lastGiven]

theorem Gamertag.lastGiven_cons (g : Gamertag) (tags : List Gamertag) :
    lastGiven (g :: tags) = (tags.filter fun g => !g.isEmpty).getLast?.getD g := by
  rw [lastGiven, List.filter_cons]
  by_cases h : g.isEmpty
  · rw [eq_empty h]
    rfl
  · rw [if_pos (by simpa using h), List.getLast?_cons, Option.getD_some]

@[simp] theorem Gamertag.lastGiven_singleton (g : Gamertag) : lastGiven [g] = g := by
  rw [← List.nil_append [g], lastGiven_concat]
  split
  · exact (eq_empty ‹_›).symm
  · rfl

/-! ### One friend -/

namespace Friend

/-- What reports on one user make of the friend, if one was known. -/
structure Merged (known : Option Friend) (reports : List Presence) (f : Friend) : Prop where
  last : ∀ p, reports.getLast? = some p →
    f.xuid = p.xuid ∧ f.presence.state.otherBits = p.state.otherBits ∧
      f.presence.stateTime = p.stateTime ∧ f.presence.sessionId = p.sessionId ∧
      f.presence.titleId = p.titleId ∧ f.presence.rich = p.rich
  gamertag : f.gamertag =
    .lastGiven ((known.map Friend.gamertag).toList ++ reports.map Presence.gamertag)
  kept : ∀ g, known = some g →
    f.standing = g.standing ∧ f.presence.state.inviteBits = g.presence.state.inviteBits
  fresh : known = none → f.standing = {} ∧ ∀ p, reports.head? = some p →
    f.presence.state.inviteBits = p.state.inviteBits

theorem merged_known (f : Friend) : Merged (some f) [] f where
  last := by simp
  gamertag := by simp
  kept := by simp
  fresh := by simp

theorem merged_fresh (p : Presence) : Merged none [p] (ofPresence p) where
  last := by
    rintro _ ⟨⟩
    exact ⟨rfl, rfl, rfl, rfl, rfl, rfl⟩
  gamertag := (Gamertag.lastGiven_singleton p.gamertag).symm
  kept := by simp
  fresh := by
    intro _
    refine ⟨rfl, ?_⟩
    rintro _ ⟨⟩
    rfl

theorem Merged.refresh {known : Option Friend} {reports : List Presence} {f : Friend}
    (h : Merged known reports f) (hstart : known = none → reports ≠ []) (p : Presence) :
    Merged known (reports ++ [p]) (f.refresh p) where
  last := by
    intro q hq
    rw [List.getLast?_concat] at hq
    obtain rfl := Option.some.inj hq
    exact ⟨rfl, otherBits_refresh _ f, rfl, rfl, rfl, rfl⟩
  gamertag := by
    rw [List.map_append, List.map_singleton, ← List.append_assoc, Gamertag.lastGiven_concat,
      ← h.gamertag]
    rfl
  kept := by
    intro g hg
    obtain ⟨hstanding, hbits⟩ := h.kept g hg
    exact ⟨hstanding, (inviteBits_refresh p f).trans hbits⟩
  fresh := by
    intro hnone
    obtain ⟨hstanding, hbits⟩ := h.fresh hnone
    refine ⟨hstanding, fun q hq => (inviteBits_refresh p f).trans (hbits q ?_)⟩
    -- the first report is not the one that comes now
    rwa [List.head?_append_of_ne_nil _ (hstart hnone)] at hq

/-- A report on a friend, known or not. -/
def refreshed (known : Option Friend) (p : Presence) : Friend :=
  match known with
  | some f => f.refresh p
  | none => .ofPresence p

theorem merged_foldl (known : Option Friend) {reports : List Presence} (h : reports ≠ []) :
    ∃ f, reports.foldl (fun f? p => some (refreshed f? p)) known = some f ∧
      Merged known reports f := by
  induction reports using List.reverseRecOn with
  | nil => exact absurd rfl h
  | append_singleton reports p ih =>
    rw [List.foldl_concat]
    by_cases hreports : reports = []
    · subst hreports
      cases known with
      | none => exact ⟨_, rfl, merged_fresh p⟩
      | some f => exact ⟨_, rfl, (merged_known f).refresh (by simp) p⟩
    · obtain ⟨f, hf, hmerged⟩ := ih hreports
      rw [hf]
      exact ⟨_, rfl, hmerged.refresh (fun _ => hreports) p⟩

end Friend

/-! ### The list -/

namespace FriendList

theorem eq_of_friends {l m : FriendList} (h : l.friends = m.friends) : l = m := by
  cases l
  congr

theorem xuids_updateFirst {xuid : Xuid} {change : Friend → Friend}
    (hchange : ∀ f, (change f).xuid = xuid) (fs : List Friend) :
    (updateFirst xuid change fs).map Friend.xuid = fs.map Friend.xuid := by
  induction fs with
  | nil => rfl
  | cons f fs ih =>
    rw [updateFirst]
    split
    · next h => rw [List.map_cons, List.map_cons, hchange, h]
    · rw [List.map_cons, List.map_cons, ih]

theorem find?_updateFirst {xuid : Xuid} {change : Friend → Friend}
    (hchange : ∀ f, (change f).xuid = xuid) (other : Xuid) (fs : List Friend) :
    (updateFirst xuid change fs).find? (fun f => f.xuid = other) =
      if other = xuid then (fs.find? fun f => f.xuid = other).map change
      else fs.find? fun f => f.xuid = other := by
  induction fs with
  | nil => simp
  | cons f fs ih =>
    rw [updateFirst]
    by_cases hf : f.xuid = xuid
    · rw [if_pos hf, List.find?_cons, List.find?_cons, hchange, hf]
      by_cases ho : other = xuid
      · simp [ho]
      · simp [ho, Ne.symm ho]
    · rw [if_neg hf, List.find?_cons, List.find?_cons, ih]
      by_cases ho : other = xuid
      · subst ho
        simp [hf]
      · simp only [if_neg ho]

theorem get?_eq_none_iff {xuid : Xuid} {l : FriendList} : l.get? xuid = none ↔ xuid ∉ l.xuids := by
  simp [get?, xuids]

theorem xuids_refresh (l : FriendList) (p : Presence) :
    (l.refresh p).xuids = if p.xuid ∈ l.xuids then l.xuids else l.xuids ++ [p.xuid] := by
  have hsame : ∀ f, (Friend.refresh p f).xuid = p.xuid := fun _ => rfl
  rw [refresh]
  by_cases h : p.xuid ∈ l.xuids
  · rw [if_pos (contains_iff.mpr h), if_pos h]
    exact xuids_updateFirst hsame l.friends
  · rw [if_neg (mt contains_iff.mp h), if_neg h, xuids, List.map_append]
    rfl

theorem get?_refresh (l : FriendList) (p : Presence) (xuid : Xuid) :
    (l.refresh p).get? xuid =
      if xuid = p.xuid then some (Friend.refreshed (l.get? xuid) p) else l.get? xuid := by
  have hsame : ∀ f, (Friend.refresh p f).xuid = p.xuid := fun _ => rfl
  rw [refresh]
  by_cases h : p.xuid ∈ l.xuids
  · rw [if_pos (contains_iff.mpr h)]
    refine (find?_updateFirst hsame xuid l.friends).trans ?_
    split
    · next hx =>
      subst hx
      change (l.get? p.xuid).map _ = _
      cases hget : l.get? p.xuid with
      | none => exact absurd h (get?_eq_none_iff.mp hget)
      | some f => rfl
    · rfl
  · rw [if_neg (mt contains_iff.mp h), get?, List.find?_append]
    change (l.get? xuid).or _ = _
    by_cases hx : xuid = p.xuid
    · subst hx
      rw [if_pos rfl, get?_eq_none_iff.mpr h]
      simp [Friend.refreshed, Friend.ofPresence, Friend.xuid]
    · rw [if_neg hx]
      simp [Friend.ofPresence, Friend.xuid, Ne.symm hx]

theorem nodup_seen {xuids : List Xuid} (h : xuids.Nodup) (xuid : Xuid) :
    (if xuid ∈ xuids then xuids else xuids ++ [xuid]).Nodup := by
  split
  · exact h
  · next hnew => simpa [List.nodup_append, h] using fun x hx => ne_of_mem_of_not_mem hx hnew

theorem nodup_refresh {l : FriendList} (h : l.xuids.Nodup) (p : Presence) :
    (l.refresh p).xuids.Nodup := by
  rw [xuids_refresh]
  exact nodup_seen h p.xuid

theorem nodup_foldl_refresh {l : FriendList} (h : l.xuids.Nodup) (reports : List Presence) :
    (reports.foldl refresh l).xuids.Nodup := by
  induction reports generalizing l with
  | nil => exact h
  | cons p reports ih => exact ih (nodup_refresh h p)

/-- The new identifiers follow the old ones, each where it is first reported. -/
theorem xuids_foldl_refresh (l : FriendList) (reports : List Presence) :
    (reports.foldl refresh l).xuids =
      l.xuids ++ ((reports.map Presence.xuid).filter (· ∉ l.xuids)).eraseDups := by
  induction reports generalizing l with
  | nil => simp
  | cons p reports ih =>
    rw [List.foldl_cons, ih, xuids_refresh, List.map_cons]
    by_cases h : p.xuid ∈ l.xuids
    · rw [if_pos h, List.filter_cons_of_neg (by simpa using h)]
    · rw [if_neg h, List.filter_cons_of_pos (by simpa using h), List.eraseDups_cons,
        List.filter_filter, List.append_assoc, List.singleton_append]
      congr 4
      funext xuid
      rw [Bool.eq_iff_iff]
      simp [and_comm]

theorem get?_foldl_refresh (l : FriendList) (reports : List Presence) (xuid : Xuid) :
    (reports.foldl refresh l).get? xuid =
      (reports.filter fun p => p.xuid = xuid).foldl
        (fun f? p => some (Friend.refreshed f? p)) (l.get? xuid) := by
  induction reports generalizing l with
  | nil => rfl
  | cons p reports ih =>
    rw [List.foldl_cons, ih, get?_refresh]
    by_cases h : p.xuid = xuid
    · rw [if_pos h.symm, List.filter_cons_of_pos (by simpa using h), List.foldl_cons]
    · rw [if_neg (Ne.symm h), List.filter_cons_of_neg (by simpa using h)]

theorem merged_of_known {l : FriendList} {xuid : Xuid} {f : Friend} (h : l.get? xuid = some f)
    (reports : List Presence) :
    ∃ g, (reports.foldl refresh l).get? xuid = some g ∧
      Friend.Merged (some f) (reports.filter fun p => p.xuid = xuid) g := by
  rw [get?_foldl_refresh, h]
  by_cases hnone : (reports.filter fun p => p.xuid = xuid) = []
  · rw [hnone]
    exact ⟨f, rfl, Friend.merged_known f⟩
  · exact Friend.merged_foldl (some f) hnone

/-- The list that reports make of another. -/
structure Refreshed (l : FriendList) (reports : List Presence) (next : FriendList) : Prop where
  xuids : next.xuids = l.xuids ++ ((reports.map Presence.xuid).filter (· ∉ l.xuids)).eraseDups
  distinct : next.xuids.Nodup
  unnamed : ∀ xuid, xuid ∉ reports.map Presence.xuid → next.get? xuid = l.get? xuid
  named : ∀ xuid ∈ reports.map Presence.xuid, ∃ f, next.get? xuid = some f ∧
    Friend.Merged (l.get? xuid) (reports.filter fun p => p.xuid = xuid) f

theorem refreshed_foldl {l : FriendList} (h : l.xuids.Nodup) (reports : List Presence) :
    Refreshed l reports (reports.foldl refresh l) where
  xuids := xuids_foldl_refresh l reports
  distinct := nodup_foldl_refresh h reports
  unnamed := by
    intro xuid hxuid
    have hnone : (reports.filter fun p => p.xuid = xuid) = [] := by
      simpa [List.filter_eq_nil_iff] using hxuid
    rw [get?_foldl_refresh, hnone, List.foldl_nil]
  named := by
    intro xuid hxuid
    have hsome : (reports.filter fun p => p.xuid = xuid) ≠ [] := by
      simpa [List.filter_eq_nil_iff] using hxuid
    rw [get?_foldl_refresh]
    exact Friend.merged_foldl _ hsome

end FriendList

end ConsoleOnline
