import ConsoleOnline.Proofs.Json.ReadBack
import ConsoleOnline.Proofs.MacAddress
import ConsoleOnline.Proofs.Session.Reachable

/-!
The document of a session is received as the session that is listed: the same counters, the address
that the service sees for both, and neither state nor members.
-/
namespace ConsoleOnline

open Json (Value)

theorem countField_ofNat {bound n : Nat} (h : n < bound) (hb : bound ≤ UInt64.size) :
    CountField bound (some (Value.ofNat n)) n := by
  have hn : (UInt64.ofNat n).toNat = n := UInt64.toNat_ofNat_of_lt' (Nat.lt_of_lt_of_le h hb)
  have hnumber : CountField bound (some (Value.ofNat n)) (UInt64.ofNat n).toNat :=
    .number (hn.symm ▸ h)
  rwa [hn] at hnumber

namespace Session

theorem plain_document (s : Session) : s.document.Plain Json.maxDepth := by
  refine .object ?_
  have hword : ∀ n : Nat, (Value.ofNat n).Plain 126 := fun n => .natural _
  have htext : ∀ t : String, (Value.string t).Plain 126 := .string
  simp only [documentFields, List.forall_mem_cons]
  exact ⟨htext _, hword _, htext _, htext _, hword _, hword _, hword _, hword _, hword _, hword _,
    hword _, fun _ h => absurd h List.not_mem_nil⟩

/-- What is listed of a session is what its document describes. -/
theorem describes_documentFields {s : Session} (hroom : ∀ category, (s.slots category).Room)
    (hvalid : s.id.isValid) : Describes s.documentFields s.listed := by
  have hword : ∀ n : UInt32, CountField UInt32.size (some (Value.ofNat n.toNat)) n.toNat :=
    fun n => countField_ofNat n.toNat_lt_size (by decide)
  exact {
    sessionId := ⟨_, rfl, .hex (SessionId.parse_text s.id)⟩
    valid := hvalid
    flags := hword s.flags.bits
    hostAddress := .spelled rfl
    macAddress := .spelled (MacAddress.parse_text s.host.mac)
    port := countField_ofNat s.host.portOnline.toNat_lt_size (by decide)
    publicSlots := ⟨hword _, hword _, hword _, hroom .publicSlot⟩
    privateSlots := ⟨hword _, hword _, hword _, hroom .privateSlot⟩
    listed := rfl }

theorem receive_document {s : Session} (hroom : ∀ category, (s.slots category).Room)
    (hvalid : s.id.isValid) (held : Session) :
    (receive s.document).run held = .ok () s.listed :=
  receive_eq_ok_iff.mpr ⟨_, rfl, describes_documentFields hroom hvalid⟩

/-- A session that can come about, and whose identifier is worth something, goes through its
document as what is listed of it, into whatever is held there. The listed session has the same
text, and a session that came from a document arrives as it was. -/
theorem listing_survives_text {s : Session} (h : Reachable s) (hvalid : s.id.isValid)
    (held : Session) :
    (receiveText s.documentText).run held = .ok () s.listed ∧
      s.listed.documentText = s.documentText ∧
      ∀ d other, (receive d).run other = .ok () s →
        (receiveText s.documentText).run held = .ok () s := by
  have htext : (receiveText s.documentText).run held = .ok () s.listed := by
    rw [run_receiveText, documentText, Value.read?_text (plain_document s)]
    exact receive_document h.accounted.room hvalid held
  refine ⟨htext, rfl, fun d other hd => ?_⟩
  obtain ⟨fields, -, hs⟩ := receive_eq_ok_iff.mp hd
  rw [htext, hs.listed]

/-- The counters of a running game are listed, its state and its member are not. -/
theorem listing_survives_text_of_game :
    (receiveText ((new ⟨0xAE00000000000001⟩ .host 4 0).run
        [.join [⟨1⟩] .publicSlot, .register ⟨5⟩, .start]).documentText).run
          (new ⟨0xAE00000000000002⟩ .host 1 1) =
      .ok () ((new ⟨0xAE00000000000001⟩ .host 4 0).run
        [.join [⟨1⟩] .publicSlot, .register ⟨5⟩, .start]).listed :=
  (listing_survives_text (.run (.new _ _ _ _) _) (by decide) _).1

end Session

end ConsoleOnline
