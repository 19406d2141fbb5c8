import ConsoleOnline.Friend
import ConsoleOnline.Proofs.PresenceState
import Mathlib.Data.List.Induction

/-!
The invite that stands between the user and a friend, along any history of invites and refreshes.
The invite has some bits of the state word and shares it, and the time of the last change, with the
presence. `Tracks` says of a history what each part of the friend is then: every operation leaves to
the others what is theirs.
-/
namespace ConsoleOnline.Friend

/-! ### Histories -/

/-- A step of the invite itself. -/
inductive InviteStep where
  | receive (invitee : Xuid) (session : SessionId) (time : FileTime)
  | send (inviter : Xuid) (session : SessionId) (time : FileTime)
  | accept
  | decline
  | clear
  deriving DecidableEq, Repr

inductive Op where
  | invite (step : InviteStep)
  | setGamertag (text : String)
  | setRich (text : String)
  | refresh (snapshot : Presence)
  deriving DecidableEq, Repr

def InviteStep.apply : InviteStep → Friend → Friend
  | receive invitee session time => receiveInvite invitee session time
  | send inviter session time => sendInvite inviter session time
  | accept => acceptInvite
  | decline => declineInvite
  | clear => clearInvite

def apply (f : Friend) : Op → Friend
  | .invite step => step.apply f
  | .setGamertag text => f.setGamertag text
  | .setRich text => f.setRich text
  | .refresh snapshot => f.refresh snapshot

def run (f : Friend) (history : List Op) : Friend := history.foldl apply f

/-- The bit that a step sets in place of the others, none where the invite is cleared. -/
def InviteStep.mark : InviteStep → PresenceState
  | receive .. => .receivedInvite
  | send .. => .sentInvite
  | accept => .inviteAccepted
  | decline => .inviteRejected
  | clear => {}

/-- Between whom an invite stands, into which session and since when. -/
structure Invite where
  inviter : Option Xuid := none
  invitee : Option Xuid := none
  session : SessionId := .absent
  time : FileTime := .zero
  deriving DecidableEq, Repr

def standing (f : Friend) : Invite := ⟨f.inviter, f.invitee, f.inviteSession, f.inviteTime⟩

/-- The invite that a step leaves. Accepted or declined, it stands as before. -/
def InviteStep.standing? (xuid : Xuid) : InviteStep → Option Invite
  | receive invitee session time => some ⟨some xuid, some invitee, session, time⟩
  | send inviter session time => some ⟨some inviter, some xuid, session, time⟩
  | clear => some {}
  | accept | decline => none

def Op.step? : Op → Option InviteStep
  | .invite step => some step
  | .setGamertag _ | .setRich _ | .refresh _ => none

def Op.standing? (xuid : Xuid) (op : Op) : Option Invite := op.step?.bind (·.standing? xuid)

def Op.snapshot? : Op → Option Presence
  | .refresh snapshot => some snapshot
  | .setGamertag _ | .setRich _ | .invite _ => none

/-- The last of what the operations of a history give. -/
def last? (give? : Op → Option β) (history : List Op) : Option β :=
  (history.filterMap give?).getLast?

theorem last?_concat (give? : Op → Option β) (history : List Op) (op : Op) :
    last? give? (history ++ [op]) = (give? op).or (last? give? history) := by
  rw [last?, List.filterMap_append, List.getLast?_append, last?]
  cases h : give? op <;> simp [h]

/-! ### Single operations -/

theorem presence_setInviteBits (bits : PresenceState) (f : Friend) :
    (f.setInviteBits bits).presence =
      { f.presence with state := f.presence.state.withInviteBits bits } := by
  simp only [setInviteBits, Presence.setState]
  split
  · next h => rw [← h]
  · rfl

theorem presence_step (step : InviteStep) (f : Friend) :
    (step.apply f).presence =
      { f.presence with state := f.presence.state.withInviteBits step.mark } := by
  cases step <;> exact presence_setInviteBits _ _

theorem InviteStep.isMark_mark (step : InviteStep) : step.mark.IsMark := by
  cases step <;> simp [mark, PresenceState.IsMark, PresenceState.inviteFlags]

theorem standing_step (step : InviteStep) (f : Friend) :
    (step.apply f).standing = (step.standing? f.xuid).getD f.standing := by
  cases step <;> rfl

/-- The invite bits of a snapshot give way to those of the invite. -/
theorem inviteBits_refresh (snapshot : Presence) (f : Friend) :
    (f.refresh snapshot).presence.state.inviteBits = f.presence.state.inviteBits :=
  PresenceState.inviteBits_withInviteBits _ _

theorem otherBits_refresh (snapshot : Presence) (f : Friend) :
    (f.refresh snapshot).presence.state.otherBits = snapshot.state.otherBits :=
  PresenceState.otherBits_withInviteBits _ _

/-- The friend is as its history says: the invite bits and the invite by the last steps on the
invite, all else by the last snapshot. -/
structure Tracks (xuid : Xuid) (history : List Op) (f : Friend) : Prop where
  same : f.xuid = xuid
  inviteBits : f.presence.state.inviteBits =
    ((last? Op.step? history).map fun step => step.mark.bits).getD 0
  otherBits : f.presence.state.otherBits =
    ((last? Op.snapshot? history).map fun snapshot => snapshot.state.otherBits).getD 0
  stateTime : f.presence.stateTime =
    ((last? Op.snapshot? history).map Presence.stateTime).getD .zero
  standing : f.standing = (last? (Op.standing? xuid) history).getD {}

theorem tracks_new (xuid : Xuid) (gamertag : String) : Tracks xuid [] (new xuid gamertag) where
  same := rfl
  inviteBits := (rfl : PresenceState.inviteBits {} = 0)
  otherBits := (rfl : PresenceState.otherBits {} = 0)
  stateTime := rfl
  standing := rfl

theorem Tracks.apply {xuid : Xuid} {history : List Op} {f : Friend} (h : Tracks xuid history f)
    {op : Op} (hsame : ∀ snapshot, op = .refresh snapshot → snapshot.xuid = xuid) :
    Tracks xuid (history ++ [op]) (f.apply op) := by
  cases op with
  | invite step =>
    have hpresence : (f.apply (.invite step)).presence =
        { f.presence with state := f.presence.state.withInviteBits step.mark } :=
      presence_step step f
    refine ⟨?_, ?_, ?_, ?_, ?_⟩
    · rw [Friend.xuid, hpresence]
      exact h.same
    · rw [hpresence, PresenceState.inviteBits_withInviteBits, step.isMark_mark.inviteBits, last?_concat]
      rfl
    · rw [hpresence, PresenceState.otherBits_withInviteBits, h.otherBits, last?_concat]
      rfl
    · rw [hpresence, last?_concat]
      exact h.stateTime
    · rw [last?_concat]
      change (step.apply f).standing = _
      rw [standing_step, h.same, h.standing]
      cases hstep : step.standing? xuid <;> simp [Op.standing?, Op.step?, hstep]
  | setGamertag text | setRich text =>
    refine ⟨h.same, ?_, ?_, ?_, ?_⟩ <;> rw [last?_concat]
    · exact h.inviteBits
    · exact h.otherBits
    · exact h.stateTime
    · exact h.standing
  | refresh snapshot =>
    refine ⟨hsame snapshot rfl, ?_, ?_, ?_, ?_⟩ <;> rw [last?_concat]
    · exact (inviteBits_refresh snapshot f).trans h.inviteBits
    · exact otherBits_refresh snapshot f
    · rfl
    · exact h.standing

theorem tracks_run {xuid : Xuid} (gamertag : String) {history : List Op}
    (hsame : ∀ snapshot, .refresh snapshot ∈ history → snapshot.xuid = xuid) :
    Tracks xuid history ((new xuid gamertag).run history) := by
  induction history using List.reverseRecOn with
  | nil => exact tracks_new xuid gamertag
  | append_singleton history op ih =>
    rw [run, List.foldl_concat]
    refine Tracks.apply (ih fun s hs => hsame s (by simp [hs])) fun s hs => hsame s (by simp [hs])

/-- A state with the invite bits of the last step has the flag of that step and no other. -/
theorem contains_iff_of_inviteBits {state : PresenceState} {step? : Option InviteStep}
    (h : state.inviteBits = (step?.map fun step => step.mark.bits).getD 0)
    {flag : PresenceState} (hflag : flag ∈ PresenceState.inviteFlags) :
    state.contains flag ↔ ∃ step, step? = some step ∧ step.mark = flag := by
  cases step? with
  | none =>
    have hnone : PresenceState.IsMark {} := List.mem_cons_self
    rw [PresenceState.contains_eq_of_inviteBits (h.trans hnone.inviteBits.symm) hflag,
      hnone.contains_iff hflag]
    have hne : ({} : PresenceState) ∉ PresenceState.inviteFlags := by decide
    constructor
    · rintro rfl
      exact absurd hflag hne
    · rintro ⟨step, hstep, -⟩
      cases hstep
  | some step =>
    have hmark := step.isMark_mark
    rw [PresenceState.contains_eq_of_inviteBits (h.trans hmark.inviteBits.symm) hflag,
      hmark.contains_iff hflag]
    simp

theorem InviteStep.mark_eq_receivedInvite_iff {step : InviteStep} :
    step.mark = .receivedInvite ↔ ∃ invitee session time, step = receive invitee session time := by
  cases step <;> simp [mark] <;> decide

/-- Along any history of a friend, its invite bits are the one that the last step on the invite set,
never two of them, so an invite is pending just when that step was to receive it; the other bits of
the state and the time of its last change are those of the last snapshot; and the invite stands as
the last step that made or cleared one left it. -/
theorem invite_follows_history {xuid : Xuid} {gamertag : String} {history : List Op}
    (hsame : ∀ snapshot, .refresh snapshot ∈ history → snapshot.xuid = xuid) :
    Tracks xuid history ((new xuid gamertag).run history) ∧
      (∀ flag ∈ PresenceState.inviteFlags,
        ((new xuid gamertag).run history).presence.state.contains flag ↔
          ∃ step, last? Op.step? history = some step ∧ step.mark = flag) ∧
      (∀ flag ∈ PresenceState.inviteFlags, ∀ other ∈ PresenceState.inviteFlags,
        ((new xuid gamertag).run history).presence.state.contains flag →
          ((new xuid gamertag).run history).presence.state.contains other → flag = other) ∧
      (((new xuid gamertag).run history).hasPendingInvite ↔ ∃ invitee session time,
        last? Op.step? history = some (.receive invitee session time)) := by
  have htracks := tracks_run gamertag hsame
  have hflags : ∀ flag ∈ PresenceState.inviteFlags,
      ((new xuid gamertag).run history).presence.state.contains flag ↔
        ∃ step, last? Op.step? history = some step ∧ step.mark = flag :=
    fun flag hflag => contains_iff_of_inviteBits htracks.inviteBits hflag
  refine ⟨htracks, hflags, ?_, ?_⟩
  · intro flag hflag other hother hhas hhasOther
    obtain ⟨step, hstep, rfl⟩ := (hflags flag hflag).mp hhas
    obtain ⟨step', hstep', rfl⟩ := (hflags other hother).mp hhasOther
    rw [Option.some.inj (hstep.symm.trans hstep')]
  · rw [hasPendingInvite, hflags _ (by decide)]
    simp only [InviteStep.mark_eq_receivedInvite_iff]
    constructor
    · rintro ⟨step, hlast, invitee, session, time, rfl⟩
      exact ⟨invitee, session, time, hlast⟩
    · rintro ⟨invitee, session, time, hlast⟩
      exact ⟨_, hlast, invitee, session, time, rfl⟩

/-- A snapshot whose state word bears other invite bits leaves a received invite pending. -/
theorem invite_pending_after_snapshot :
    (∀ snapshot, Op.refresh snapshot ∈
        [Op.invite (.receive ⟨2⟩ ⟨0xAE00000000000001⟩ ⟨5⟩),
          .refresh { xuid := ⟨1⟩, state := ⟨0x3C000003⟩, stateTime := ⟨9⟩ }, .setRich "in game"] →
        snapshot.xuid = ⟨1⟩) ∧
      ((new ⟨1⟩ "Ann").run
        [.invite (.receive ⟨2⟩ ⟨0xAE00000000000001⟩ ⟨5⟩),
          .refresh { xuid := ⟨1⟩, state := ⟨0x3C000003⟩, stateTime := ⟨9⟩ },
          .setRich "in game"]).hasPendingInvite := by
  have hsame : ∀ snapshot, Op.refresh snapshot ∈
      [Op.invite (.receive ⟨2⟩ ⟨0xAE00000000000001⟩ ⟨5⟩),
        .refresh { xuid := ⟨1⟩, state := ⟨0x3C000003⟩, stateTime := ⟨9⟩ }, .setRich "in game"] →
      snapshot.xuid = ⟨1⟩ := by
    simp
  have hpending := (@invite_follows_history ⟨1⟩ "Ann" _ hsame).2.2.2
  exact ⟨hsame, hpending.mpr ⟨⟨2⟩, ⟨0xAE00000000000001⟩, ⟨5⟩, rfl⟩⟩

end ConsoleOnline.Friend
