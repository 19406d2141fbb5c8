import ConsoleOnline.Document.Users
import ConsoleOnline.Proofs.Json.ReadBack
import ConsoleOnline.Proofs.Spelling
import Mathlib.Data.List.Forall2

/-!
What the document of a request tells. Each entry is sent as a pair of texts in its place, and the
empty text stands for what is missing. No identifier has the empty text, so a missing identifier is
told from zero. A gamertag may well be empty, and is then sent as if it were missing.
-/
namespace ConsoleOnline

theorem Xuid.text_ne_empty (x : Xuid) : x.text ≠ "" := by
  intro h
  have hlength := congrArg (fun s => s.toList.length) h
  simp [text] at hlength

namespace LookupEntry

/-- A pair of texts that sends an entry: its identifier in a form that reads as it, if it has one,
and what its gamertag shows. -/
inductive SentAs (e : LookupEntry) : Json.Value → Prop where
  | pair {xuid gamertag : String} (missing : e.xuid = none ↔ xuid = "")
    (xuid_eq : ∀ x ∈ e.xuid, Xuid.parse xuid = .ok x)
    (gamertag_eq : gamertag = (e.gamertag.getD {}).text) :
    SentAs e (.array [.string xuid, .string gamertag])

/-- Two entries have the same identifier or both none, and their gamertags show the same, where a
missing one shows nothing. -/
structure Alike (e f : LookupEntry) : Prop where
  xuid_eq : e.xuid = f.xuid
  gamertag_eq : (e.gamertag.getD {}).text = (f.gamertag.getD {}).text

variable {e f : LookupEntry}

theorem text_gamertag (e : LookupEntry) :
    (e.gamertag.map Gamertag.text).getD "" = (e.gamertag.getD {}).text := by
  cases e.gamertag <;> rfl

theorem sentAs_pair (e : LookupEntry) : e.SentAs e.pair := by
  refine .pair ?_ ?_ e.text_gamertag
  · cases e.xuid with
    | none => simp
    | some x => simp [x.text_ne_empty]
  · intro x hx
    rw [hx]
    exact x.parse_text

/-- A pair of texts sends no two entries that differ in what it tells. -/
theorem SentAs.alike {v : Json.Value} (he : e.SentAs v) (hf : f.SentAs v) : e.Alike f := by
  obtain ⟨hmissing, hxuid, hgamertag⟩ := he
  obtain ⟨hmissing', hxuid', hgamertag'⟩ := hf
  refine ⟨?_, hgamertag.symm.trans hgamertag'⟩
  cases hx : e.xuid with
  | none => exact (hmissing'.mpr (hmissing.mp hx)).symm
  | some x =>
    cases hy : f.xuid with
    | none =>
      rw [hmissing.mpr (hmissing'.mp hy)] at hx
      cases hx
    | some y => rw [Except.ok.inj ((hxuid x hx).symm.trans (hxuid' y hy))]

theorem pair_eq_iff : e.pair = f.pair ↔ e.Alike f := by
  constructor
  · intro h
    have hf : f.SentAs e.pair := h ▸ f.sentAs_pair
    exact e.sentAs_pair.alike hf
  · intro h
    rw [pair, pair, text_gamertag, text_gamertag, h.xuid_eq, h.gamertag_eq]

theorem map_pair_eq_iff {es fs : List LookupEntry} :
    es.map pair = fs.map pair ↔ List.Forall₂ Alike es fs := by
  rw [← List.forall₂_eq_eq_eq, List.forall₂_map_left_iff, List.forall₂_map_right_iff]
  simp only [pair_eq_iff]

end LookupEntry

namespace UserLookup

theorem plain_requestDocument (l : UserLookup) : l.requestDocument.Plain Json.maxDepth := by
  refine .object (List.forall_mem_cons.mpr ⟨.array fun item hitem => ?_, by simp⟩)
  obtain ⟨e, -, rfl⟩ := List.mem_map.mp hitem
  exact .array (List.forall_mem_cons.mpr ⟨.string _, List.forall_mem_cons.mpr ⟨.string _, by simp⟩⟩)

theorem read?_requestText (l : UserLookup) : Json.Value.read? l.requestText =
    some (.object [("UsersInfo", .array (l.request.map LookupEntry.pair))]) :=
  Json.Value.read?_text l.plain_requestDocument

/-- The text of a request is read as a list under one name, which sends each of its entries in its
place. Two requests have one text if and only if their entries are alike place by place. -/
theorem requestText_eq_iff :
    (∀ l : UserLookup, ∃ items,
      Json.Value.read? l.requestText = some (.object [("UsersInfo", .array items)]) ∧
        List.Forall₂ LookupEntry.SentAs l.request items) ∧
    ∀ l m : UserLookup,
      l.requestText = m.requestText ↔ List.Forall₂ LookupEntry.Alike l.request m.request := by
  refine ⟨fun l => ⟨_, l.read?_requestText, ?_⟩, fun l m => ?_⟩
  · rw [List.forall₂_map_right_iff]
    exact List.forall₂_same.mpr fun e _ => e.sentAs_pair
  · rw [← LookupEntry.map_pair_eq_iff]
    constructor
    · intro h
      have hread := l.read?_requestText
      rw [h, m.read?_requestText] at hread
      simpa using hread.symm
    · intro h
      rw [requestText, requestText, requestDocument, requestDocument, h]

end UserLookup

end ConsoleOnline
