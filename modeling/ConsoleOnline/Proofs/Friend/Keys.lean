import ConsoleOnline.Document.Friends
import ConsoleOnline.Proofs.Friend.Refresh
import ConsoleOnline.Proofs.Json.ReadBack
import ConsoleOnline.Proofs.Spelling
import Mathlib.Data.List.Nodup

/-!
Friends are found by their identifiers, so no two of them may have the same one. Whatever lists a
friend looks first whether it is listed, and what is done to a listed friend or to its presence
leaves its identifier alone, but for a refresh of that friend itself and for another presence in
place of its own: these two take over an identifier without looking at the list. Along any history
the list is `Keyed` just as long as neither of them `Collides` with another friend.
-/
namespace ConsoleOnline

theorem Friend.xuid_apply (f : Friend) (op : Friend.Op) :
    (f.apply op).xuid = (op.snapshot?.map Presence.xuid).getD f.xuid := by
  cases op with
  | invite step =>
    rw [apply, xuid, presence_step]
    rfl
  | setGamertag text => rfl
  | setRich text => rfl
  | refresh snapshot => rfl

theorem Friend.Op.snapshot?_eq_some_iff {op : Friend.Op} {snapshot : Presence} :
    op.snapshot? = some snapshot ↔ op = .refresh snapshot := by
  cases op <;> simp [snapshot?]

/-- A change of one part of a presence, or of all of it at once. -/
inductive Presence.Op where
  | setGamertag (text : String)
  | setRich (text : String)
  | setRichUnits (units : List UInt16)
  | setState (state : PresenceState) (time : FileTime)
  | restoreState (state : PresenceState) (time : FileTime)
  | setSession (sessionId : SessionId)
  | setTitle (titleId : TitleId)
  | replace (presence : Presence)
  deriving DecidableEq, Repr

def Presence.apply (p : Presence) : Op → Presence
  | .setGamertag text => p.setGamertag text
  | .setRich text => p.setRich text
  | .setRichUnits units => p.setRichUnits units
  | .setState state time => p.setState state time
  | .restoreState state time => p.restoreState state time
  | .setSession sessionId => { p with sessionId }
  | .setTitle titleId => { p with titleId }
  | .replace presence => presence

def Presence.Op.replacement? : Presence.Op → Option Presence
  | .replace presence => some presence
  | _ => none

theorem Presence.Op.replacement?_eq_some_iff {op : Presence.Op} {presence : Presence} :
    op.replacement? = some presence ↔ op = .replace presence := by
  cases op <;> simp [replacement?]

theorem Presence.xuid_apply (p : Presence) (op : Presence.Op) :
    (p.apply op).xuid = (op.replacement?.map Presence.xuid).getD p.xuid := by
  cases op with
  | setState state time =>
    rw [apply, setState]
    split <;> rfl
  | _ => rfl

namespace FriendList

/-! ### Histories -/

/-- The list that a document leaves behind, refused or not. -/
def afterReceiving (l : FriendList) (document : Json.Value) : FriendList :=
  match (receive document).run l with
  | .ok _ next => next
  | .error _ next => next

/-- What a document reports on friends, nothing where it is no list. -/
def reportsIn : Json.Value → List Presence
  | .array records => records.filterMap Presence.ofRecord?
  | _ => []

theorem afterReceiving_eq (l : FriendList) (document : Json.Value) :
    l.afterReceiving document = (reportsIn document).foldl refresh l := by
  cases document <;> rfl

inductive Op where
  | add (xuid : Xuid) (gamertag : String)
  | remove (xuid : Xuid)
  | clear
  | refresh (snapshot : Presence)
  | receive (document : Json.Value)
  | edit (xuid : Xuid) (op : Friend.Op)
  | editPresence (xuid : Xuid) (op : Presence.Op)
  deriving Repr

/-- The list that an operation leaves behind. An edit is of the friend that is found. -/
def step (l : FriendList) : Op → FriendList
  | .add xuid gamertag => l.add xuid gamertag
  | .remove xuid => l.remove xuid
  | .clear => {}
  | .refresh snapshot => l.refresh snapshot
  | .receive document => l.afterReceiving document
  | .edit xuid op => l.update xuid fun f => f.apply op
  | .editPresence xuid op => l.update xuid fun f => { f with presence := f.presence.apply op }

def run (l : FriendList) (history : List Op) : FriendList := history.foldl step l

/-- A refresh of one friend by a snapshot of another that is listed too, or the presence of the one
replaced by that of the other. -/
def Collides (l : FriendList) (op : Op) : Prop :=
  ∃ xuid presence,
    (op = .edit xuid (.refresh presence) ∨ op = .editPresence xuid (.replace presence)) ∧
      xuid ∈ l.xuids ∧ presence.xuid ∈ l.xuids ∧ presence.xuid ≠ xuid

/-! ### Single operations -/

variable {l : FriendList}

theorem xuids_add (l : FriendList) (xuid : Xuid) (gamertag : String) :
    (l.add xuid gamertag).xuids = if xuid ∈ l.xuids then l.xuids else l.xuids ++ [xuid] := by
  rw [add]
  by_cases h : xuid ∈ l.xuids
  · rw [if_pos (contains_iff.mpr h), if_pos h]
  · rw [if_neg (mt contains_iff.mp h), if_neg h, xuids, List.map_append]
    rfl

theorem updateFirst_of_not_mem {xuid : Xuid} {change : Friend → Friend} {fs : List Friend}
    (h : xuid ∉ fs.map Friend.xuid) : updateFirst xuid change fs = fs := by
  induction fs with
  | nil => rfl
  | cons f fs ih =>
    rw [List.map_cons, List.mem_cons, not_or] at h
    rw [updateFirst, if_neg (Ne.symm h.1), ih h.2]

theorem updateFirst_of_mem {xuid : Xuid} (change : Friend → Friend) {fs : List Friend}
    (h : xuid ∈ fs.map Friend.xuid) :
    ∃ before f after, fs = before ++ f :: after ∧ f.xuid = xuid ∧
      updateFirst xuid change fs = before ++ change f :: after := by
  induction fs with
  | nil => cases h
  | cons f fs ih =>
    by_cases hf : f.xuid = xuid
    · refine ⟨[], f, fs, rfl, hf, ?_⟩
      rw [updateFirst, if_pos hf, List.nil_append]
    · rw [List.map_cons, List.mem_cons] at h
      obtain ⟨before, g, after, rfl, hg, hupdate⟩ := ih (h.resolve_left (Ne.symm hf))
      refine ⟨f :: before, g, after, rfl, hg, ?_⟩
      rw [updateFirst, if_neg hf, hupdate, List.cons_append]

theorem nodup_update_of_mem_iff (h : l.xuids.Nodup) {xuid new : Xuid} (hx : xuid ∈ l.xuids)
    {change : Friend → Friend} (hchange : ∀ f, f.xuid = xuid → (change f).xuid = new) :
    (l.update xuid change).xuids.Nodup ↔ ¬ (new ∈ l.xuids ∧ new ≠ xuid) := by
  obtain ⟨before, f, after, hfs, hf, hupdate⟩ := updateFirst_of_mem change hx
  have hxuids : l.xuids = before.map Friend.xuid ++ xuid :: after.map Friend.xuid := by
    rw [xuids, hfs, List.map_append, List.map_cons, hf]
  have hnew : (l.update xuid change).xuids =
      before.map Friend.xuid ++ new :: after.map Friend.xuid := by
    rw [update, hupdate, xuids, List.map_append, List.map_cons, hchange f hf]
  rw [hxuids, List.nodup_middle, List.nodup_cons] at h
  obtain ⟨hothers, hnodup⟩ := h
  rw [hnew, hxuids, List.nodup_middle, List.nodup_cons, List.perm_middle.mem_iff, List.mem_cons]
  constructor
  · rintro ⟨hfree, -⟩ ⟨rfl | hother, hne⟩
    · exact hne rfl
    · exact hfree hother
  · intro hnot
    refine ⟨fun hother => hnot ⟨.inr hother, ?_⟩, hnodup⟩
    rintro rfl
    exact hothers hother

/-- A friend may get any identifier but that of another. -/
theorem nodup_update_iff (h : l.xuids.Nodup) {xuid new : Xuid} {change : Friend → Friend}
    (hchange : ∀ f, f.xuid = xuid → (change f).xuid = new) :
    (l.update xuid change).xuids.Nodup ↔ ¬ (xuid ∈ l.xuids ∧ new ∈ l.xuids ∧ new ≠ xuid) := by
  by_cases hx : xuid ∈ l.xuids
  · simpa [hx] using nodup_update_of_mem_iff h hx hchange
  · have hsame : l.update xuid change = l := congrArg FriendList.mk (updateFirst_of_not_mem hx)
    rw [hsame]
    exact iff_of_true h fun hshared => hx hshared.1

/-- A friend that takes over a presence gets its identifier, which must not be that of another. -/
theorem nodup_update_iff_of_taken (h : l.xuids.Nodup) {xuid : Xuid} {taken? : Option Presence}
    {change : Friend → Friend}
    (hchange : ∀ f, (change f).xuid = (taken?.map Presence.xuid).getD f.xuid) :
    (l.update xuid change).xuids.Nodup ↔ ¬ ∃ presence, taken? = some presence ∧
      xuid ∈ l.xuids ∧ presence.xuid ∈ l.xuids ∧ presence.xuid ≠ xuid := by
  have hnew : ∀ f : Friend, f.xuid = xuid →
      (change f).xuid = (taken?.map Presence.xuid).getD xuid := by
    rintro f rfl
    exact hchange f
  rw [nodup_update_iff h hnew, not_iff_not]
  cases taken? with
  | none => simp
  | some presence => simp

theorem nodup_step_iff (h : l.xuids.Nodup) (op : Op) :
    (l.step op).xuids.Nodup ↔ ¬ l.Collides op := by
  cases op with
  | add xuid gamertag =>
    refine iff_of_true ?_ (by simp [Collides])
    rw [step, xuids_add]
    exact nodup_seen h xuid
  | remove xuid =>
    exact iff_of_true (h.sublist (List.eraseP_sublist.map _)) (by simp [Collides])
  | clear => exact iff_of_true List.nodup_nil (by simp [Collides])
  | refresh snapshot => exact iff_of_true (nodup_refresh h snapshot) (by simp [Collides])
  | receive document =>
    refine iff_of_true ?_ (by simp [Collides])
    rw [step, afterReceiving_eq]
    exact nodup_foldl_refresh h _
  | edit xuid op =>
    rw [step, nodup_update_iff_of_taken h fun f => f.xuid_apply op]
    simp [Collides, Friend.Op.snapshot?_eq_some_iff]
  | editPresence xuid op =>
    have htaken : ∀ f : Friend, ({ f with presence := f.presence.apply op } : Friend).xuid =
        (op.replacement?.map Presence.xuid).getD f.xuid := fun f => f.presence.xuid_apply op
    rw [step, nodup_update_iff_of_taken h htaken]
    simp [Collides, Presence.Op.replacement?_eq_some_iff]

/-! ### Keyed lists -/

theorem get?_eq_some_iff (h : l.xuids.Nodup) {xuid : Xuid} {f : Friend} :
    l.get? xuid = some f ↔ f ∈ l.friends ∧ f.xuid = xuid := by
  constructor
  · intro hget
    exact ⟨List.mem_of_find?_eq_some hget, by simpa using List.find?_some hget⟩
  · rintro ⟨hf, rfl⟩
    cases hget : l.get? f.xuid with
    | none => exact absurd (List.mem_map_of_mem hf) (get?_eq_none_iff.mp hget)
    | some g =>
      have hg : g ∈ l.friends := List.mem_of_find?_eq_some hget
      have hxuid : g.xuid = f.xuid := by simpa using List.find?_some hget
      rw [List.inj_on_of_nodup_map h hg hf hxuid]

/-- A text that asks for friends: each of them once, by an identifier that reads as theirs. -/
def Asks (text : String) (xuids : List Xuid) : Prop :=
  ∃ texts : List String,
    Json.Value.read? text = some (.object [("xuids", .array (texts.map .string))]) ∧
      texts.Nodup ∧ texts.map Xuid.parse = xuids.map .ok

/-- No two friends have one identifier. So the friend that is found is the only one of its
identifier, and the next refresh asks for no friend twice. -/
structure Keyed (l : FriendList) : Prop where
  distinct : l.xuids.Nodup
  only : ∀ xuid f, l.get? xuid = some f ↔ f ∈ l.friends ∧ f.xuid = xuid
  asked : Asks l.requestText l.xuids

theorem plain_requestDocument (l : FriendList) : l.requestDocument.Plain Json.maxDepth := by
  refine .object (List.forall_mem_cons.mpr ⟨.array fun item hitem => ?_, by simp⟩)
  obtain ⟨f, -, rfl⟩ := List.mem_map.mp hitem
  exact .string _

theorem asks_requestText (h : l.xuids.Nodup) : Asks l.requestText l.xuids := by
  refine ⟨l.xuids.map Xuid.text, ?_, ?_, ?_⟩
  · refine (Json.Value.read?_text l.plain_requestDocument).trans ?_
    rw [requestDocument, xuids, List.map_map, List.map_map]
    rfl
  · refine h.map fun x y hxy => ?_
    have hparse := congrArg Xuid.parse hxy
    rw [Xuid.parse_text, Xuid.parse_text] at hparse
    exact Except.ok.inj hparse
  · rw [List.map_map]
    refine List.map_congr_left fun x _ => ?_
    rw [Function.comp_apply, Xuid.parse_text]

theorem keyed_iff : l.Keyed ↔ l.xuids.Nodup :=
  ⟨Keyed.distinct, fun h => ⟨h, fun _ _ => get?_eq_some_iff h, asks_requestText h⟩⟩

theorem run_concat (l : FriendList) (history : List Op) (op : Op) :
    l.run (history ++ [op]) = (l.run history).step op :=
  List.foldl_concat ..

/-- From the empty list on, friends are told apart by their identifiers at every point of a history
just when no friend ever takes over the presence of another one that is listed. -/
theorem keyed_throughout_iff (history : List Op) :
    (∀ before, before <+: history → (run {} before).Keyed) ↔
      ∀ before op, before ++ [op] <+: history → ¬ (run {} before).Collides op := by
  simp only [keyed_iff]
  constructor
  · intro h before op hbefore
    have hstart := h before ((List.prefix_append before [op]).trans hbefore)
    have hafter := h (before ++ [op]) hbefore
    rw [run_concat] at hafter
    exact (nodup_step_iff hstart op).mp hafter
  · intro h before hbefore
    induction before using List.reverseRecOn with
    | nil => exact List.nodup_nil
    | append_singleton before op ih =>
      rw [run_concat]
      have hstart := ih ((List.prefix_append before [op]).trans hbefore)
      exact (nodup_step_iff hstart op).mpr (h before op hbefore)

/-- A friend that is refreshed by a snapshot of another gets the identifier of the other. -/
theorem identifier_shared_after_edit :
    ¬ ∀ history : List Op, (run {} history).xuids.Nodup := by
  intro h
  have hrun := h [.add ⟨1⟩ "", .add ⟨2⟩ "", .edit ⟨1⟩ (.refresh (.new ⟨2⟩))]
  revert hrun
  decide

end FriendList

end ConsoleOnline
