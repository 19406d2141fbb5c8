import ConsoleOnline.PresenceState
import Mathlib.Data.List.Basic

/-!
The state word in two parts, the bits that belong to invites and all others. Taking the invite bits
from another word, one flag at a time, changes the first part to that of the other word and leaves
the second part alone.
-/
namespace ConsoleOnline.PresenceState

/-- All invite flags in one word. -/
def inviteMask : UInt32 := (inviteFlags.foldl union {}).bits

def inviteBits (s : PresenceState) : UInt32 := s.bits &&& inviteMask

def otherBits (s : PresenceState) : UInt32 := s.bits &&& ~~~inviteMask

example : inviteMask = 0x3C000000 := by decide

/-- Two words that agree in every bit are the same. -/
theorem eq_of_getElem {v w : UInt32}
    (h : ∀ (i : Nat) (hi : i < 32), v.toBitVec[i] = w.toBitVec[i]) : v = w := by
  apply UInt32.toBitVec_inj.mp
  ext i hi
  exact h i hi

/-- Bits taken under one mask, then under another, are those under both. -/
theorem take_take (s t a b : UInt32) :
    (s &&& ~~~a ||| t &&& a) &&& ~~~b ||| t &&& b = s &&& ~~~(a ||| b) ||| t &&& (a ||| b) := by
  refine eq_of_getElem fun i hi => ?_
  simp only [UInt32.toBitVec_or, UInt32.toBitVec_and, UInt32.toBitVec_not, BitVec.getElem_or,
    BitVec.getElem_and, BitVec.getElem_not]
  cases s.toBitVec[i] <;> cases t.toBitVec[i] <;> cases a.toBitVec[i] <;> cases b.toBitVec[i] <;>
    rfl

/-- Invite flags are single bits. -/
theorem exists_twoPow {flag : PresenceState} (h : flag ∈ inviteFlags) :
    ∃ k, flag.bits.toBitVec = BitVec.twoPow 32 k := by
  simp only [inviteFlags, List.mem_cons, List.not_mem_nil, or_false] at h
  rcases h with rfl | rfl | rfl | rfl
  · exact ⟨26, by decide⟩
  · exact ⟨27, by decide⟩
  · exact ⟨28, by decide⟩
  · exact ⟨29, by decide⟩

theorem and_flag (t : PresenceState) {flag : PresenceState} (h : flag ∈ inviteFlags) :
    t.bits &&& flag.bits = if t.contains flag then flag.bits else 0 := by
  obtain ⟨k, hk⟩ := exists_twoPow h
  by_cases hc : t.bits &&& flag.bits = flag.bits
  · rw [contains, if_pos (by simpa using hc), hc]
  · rw [contains, if_neg (by simpa using hc)]
    rw [← UInt32.toBitVec_inj, UInt32.toBitVec_and, hk, BitVec.and_twoPow] at hc ⊢
    split at hc
    · exact absurd rfl hc
    · rw [if_neg ‹_›]
      rfl

theorem bits_withFlagOf (s t : PresenceState) {flag : PresenceState} (h : flag ∈ inviteFlags) :
    (withFlagOf t s flag).bits = s.bits &&& ~~~flag.bits ||| t.bits &&& flag.bits := by
  rw [and_flag t h, withFlagOf]
  split
  · rfl
  · rw [UInt32.or_zero]
    rfl

theorem bits_withInviteBits (s t : PresenceState) :
    (s.withInviteBits t).bits = s.bits &&& ~~~inviteMask ||| t.bits &&& inviteMask := by
  have hflag : ∀ flag ∈ inviteFlags, ∀ u : PresenceState,
      (withFlagOf t u flag).bits = u.bits &&& ~~~flag.bits ||| t.bits &&& flag.bits :=
    fun flag h u => bits_withFlagOf u t h
  simp only [inviteFlags, List.forall_mem_cons] at hflag
  obtain ⟨hsent, hreceived, haccepted, hrejected, -⟩ := hflag
  simp only [withInviteBits, inviteFlags, List.foldl_cons, List.foldl_nil, hsent, hreceived,
    haccepted, hrejected, take_take]
  rfl

theorem inviteBits_withInviteBits (s t : PresenceState) :
    (s.withInviteBits t).inviteBits = t.inviteBits := by
  rw [inviteBits, bits_withInviteBits, inviteBits]
  refine eq_of_getElem fun i hi => ?_
  simp only [UInt32.toBitVec_or, UInt32.toBitVec_and, UInt32.toBitVec_not, BitVec.getElem_or,
    BitVec.getElem_and, BitVec.getElem_not]
  cases s.bits.toBitVec[i] <;> cases t.bits.toBitVec[i] <;> cases inviteMask.toBitVec[i] <;> rfl

theorem otherBits_withInviteBits (s t : PresenceState) :
    (s.withInviteBits t).otherBits = s.otherBits := by
  rw [otherBits, bits_withInviteBits, otherBits]
  refine eq_of_getElem fun i hi => ?_
  simp only [UInt32.toBitVec_or, UInt32.toBitVec_and, UInt32.toBitVec_not, BitVec.getElem_or,
    BitVec.getElem_and, BitVec.getElem_not]
  cases s.bits.toBitVec[i] <;> cases t.bits.toBitVec[i] <;> cases inviteMask.toBitVec[i] <;> rfl

/-- The two parts are all of the word. -/
theorem eq_of_parts {s t : PresenceState} (hinvite : s.inviteBits = t.inviteBits)
    (hother : s.otherBits = t.otherBits) : s = t := by
  have hparts : ∀ w : UInt32, w = w &&& inviteMask ||| w &&& ~~~inviteMask := by
    intro w
    refine eq_of_getElem fun i hi => ?_
    simp only [UInt32.toBitVec_or, UInt32.toBitVec_and, UInt32.toBitVec_not, BitVec.getElem_or,
      BitVec.getElem_and, BitVec.getElem_not]
    cases w.toBitVec[i] <;> cases inviteMask.toBitVec[i] <;> rfl
  have hbits : s.bits = t.bits := by
    calc s.bits = s.inviteBits ||| s.otherBits := hparts s.bits
      _ = t.inviteBits ||| t.otherBits := by rw [hinvite, hother]
      _ = t.bits := (hparts t.bits).symm
  cases s
  congr

theorem withInviteBits_eq_self_iff {s t : PresenceState} :
    s.withInviteBits t = s ↔ s.inviteBits = t.inviteBits := by
  constructor
  · intro h
    rw [← inviteBits_withInviteBits s t, h]
  · intro h
    exact eq_of_parts ((inviteBits_withInviteBits s t).trans h.symm) (otherBits_withInviteBits s t)

/-- Whether a state has an invite flag is told by its invite bits. -/
theorem contains_eq_of_inviteBits {s t : PresenceState} (hst : s.inviteBits = t.inviteBits)
    {flag : PresenceState} (h : flag ∈ inviteFlags) : s.contains flag = t.contains flag := by
  have hflag : ∀ flag ∈ inviteFlags, inviteMask &&& flag.bits = flag.bits := by decide
  have hinside : ∀ u : PresenceState, u.bits &&& flag.bits = u.inviteBits &&& flag.bits := by
    intro u
    rw [inviteBits, UInt32.and_assoc, hflag flag h]
  rw [contains, contains, hinside s, hst, ← hinside t]

/-- One invite flag, or none. -/
def IsMark (s : PresenceState) : Prop := s ∈ {} :: inviteFlags

theorem IsMark.inviteBits {s : PresenceState} (h : s.IsMark) : s.inviteBits = s.bits := by
  have all : ∀ s ∈ {} :: inviteFlags, PresenceState.inviteBits s = s.bits := by decide
  exact all s h

theorem IsMark.contains_iff {s flag : PresenceState} (h : s.IsMark) (hflag : flag ∈ inviteFlags) :
    s.contains flag ↔ s = flag := by
  have all : ∀ s ∈ {} :: inviteFlags, ∀ flag ∈ inviteFlags, s.contains flag ↔ s = flag := by decide
  exact all s h flag hflag

end ConsoleOnline.PresenceState
