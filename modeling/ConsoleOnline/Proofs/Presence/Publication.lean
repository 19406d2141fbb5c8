import ConsoleOnline.Document.Presences
import ConsoleOnline.Proofs.Image.Records
import ConsoleOnline.Proofs.Json.ReadBack
import ConsoleOnline.Proofs.Spelling
import ConsoleOnline.Proofs.Text.Surrogates
import Mathlib.Data.List.Forall2

/-!
What is published of presences, read back from the text of the document. The rich presence goes two
ways from the same units: as text into the document, and as it is into guest memory. Both show the
same units place by place, as far as the image goes and but for lone surrogates, which a text cannot
have.
-/
namespace ConsoleOnline

open Text.Utf16 (Mended encode)

/-- An item of a document that tells of a presence its identifier and its rich presence and nothing
else. The rich presence stands in it unit by unit, and begins with the units of the image. -/
inductive Presence.PublishedAs (p : Presence) : Json.Value → Prop where
  | item {xuid rich : String} (xuid_eq : Xuid.parse xuid = .ok p.xuid)
    (units : Mended p.rich.units p.rich.units (encode rich.toList))
    (length : p.image.units.length = min 64 p.rich.units.length)
    (imaged : Mended p.rich.units p.image.units ((encode rich.toList).take 64)) :
    PublishedAs p (.object [("xuid", .string xuid), ("richPresence", .string rich)])

theorem Presence.publishedAs (p : Presence) :
    p.PublishedAs (.object [("xuid", .string p.xuid.text), ("richPresence", .string p.rich.text)]) := by
  have hunits : Mended p.rich.units p.rich.units (encode p.rich.text.toList) := by
    rw [RichPresence.text, String.toList_ofList]
    exact Text.Utf16.mended_encode_decode p.rich.units
  have himage : p.image.units = p.rich.units.take 64 := p.units_image
  refine .item p.xuid.parse_text hunits ?_ ?_
  · rw [himage, List.length_take]
  · rw [himage]
    exact hunits.take 64

namespace PresenceList

theorem plain_document (l : PresenceList) : l.document.Plain Json.maxDepth := by
  refine .object (List.forall_mem_cons.mpr ⟨.array fun item hitem => ?_, by simp⟩)
  obtain ⟨p, -, rfl⟩ := List.mem_map.mp hitem
  refine .object (List.forall_mem_cons.mpr ⟨.string _, List.forall_mem_cons.mpr ⟨.string _, by simp⟩⟩)

/-- The text of the document is read as a list under one name, which publishes each of the presences
in its place. It tells nothing else: lists that agree in identifiers and rich presences have the same
text. -/
theorem published_in_order (l : PresenceList) :
    (∃ items, Json.Value.read? l.text = some (.object [("presence", .array items)]) ∧
      List.Forall₂ Presence.PublishedAs l.records items) ∧
    ∀ m : PresenceList,
      l.records.map (fun p => (p.xuid, p.rich)) = m.records.map (fun p => (p.xuid, p.rich)) →
        l.text = m.text := by
  refine ⟨⟨_, Json.Value.read?_text l.plain_document, ?_⟩, fun m h => ?_⟩
  · rw [List.forall₂_map_right_iff]
    exact List.forall₂_same.mpr fun p _ => p.publishedAs
  · have hitems := congrArg (List.map fun (xuid, rich) => Json.Value.object
      [("xuid", .string (Xuid.text xuid)), ("richPresence", .string (RichPresence.text rich))]) h
    simp only [List.map_map] at hitems
    exact congrArg (fun items => (Json.Value.object [("presence", .array items)]).text) hitems

/-- Neither a lone surrogate nor another gamertag changes what is published. -/
theorem published_alike_despite_gamertag :
    PresenceList.text ⟨[{ xuid := ⟨7⟩, rich := .ofUnits [0x22, 0xD800, 0x41] }]⟩ =
      PresenceList.text
        ⟨[{ xuid := ⟨7⟩, gamertag := .ofText "Ann", rich := .ofUnits [0x22, 0xD800, 0x41] }]⟩ :=
  (published_in_order _).2 _ rfl

end PresenceList

end ConsoleOnline
