import ConsoleOnline.Proofs.Image.FindUsers
import ConsoleOnline.Proofs.Results
import ConsoleOnline.UserLookup
import Mathlib.Data.List.Forall2

/-!
What a game asks for. In guest memory there is no missing identifier and no missing gamertag: zero and
the empty field stand for them. So a request changes when it is laid out there, but only once. What is
read from guest memory, whatever bytes it consists of, comes back as it is.
-/
namespace ConsoleOnline

namespace LookupEntry

/-- What the bytes of a chunk ask for: the identifier in the first eight of them, if it is not zero,
and the gamertag in the field behind it, if that is not empty. -/
structure AskedBy (chunk : Bytes) (e : LookupEntry) : Prop where
  xuid_eq_none_iff : e.xuid = none ↔ Bytes.ofBigEndian (chunk.take 8) = 0
  xuid_eq : ∀ x ∈ e.xuid, x.value.toNat = Bytes.ofBigEndian (chunk.take 8)
  gamertag_eq_none_iff : e.gamertag = none ↔ (Gamertag.ofField (chunk.drop 8)).text = ""
  gamertag_eq : ∀ g ∈ e.gamertag, g = Gamertag.ofField (chunk.drop 8)

/-- An entry keeps its identifier if that is not zero, and its gamertag up to the first zero character
if anything stands before that. -/
structure KeptAs (e e' : LookupEntry) : Prop where
  xuid_iff : ∀ x, e'.xuid = some x ↔ e.xuid = some x ∧ x.value ≠ 0
  gamertag_iff : ∀ g', e'.gamertag = some g' ↔ ∃ g, e.gamertag = some g ∧
    g'.text.toList = g.text.toList.takeWhile (· ≠ '\x00') ∧ g'.text ≠ ""

/-- The entry in a chunk of guest memory. -/
def ofChunk (chunk : Bytes) : LookupEntry := ofInfo (Layout.findUserInfo.read chunk)

/-- The entry that guest memory makes of an entry. -/
def kept (e : LookupEntry) : LookupEntry := ofInfo e.info.imaged

variable {i : FindUserInfo}

theorem ofInfo_xuid_eq_none_iff : (ofInfo i).xuid = none ↔ i.xuid.value = 0 := by
  have hzero : i.xuid = {} ↔ i.xuid.value = 0 := ⟨fun h => h ▸ rfl, congrArg Xuid.mk⟩
  simp [ofInfo, hzero]

theorem ofInfo_xuid_eq_some_iff {x : Xuid} :
    (ofInfo i).xuid = some x ↔ i.xuid = x ∧ x.value ≠ 0 := by
  by_cases hzero : i.xuid = {}
  · rw [ofInfo, if_pos hzero, hzero]
    constructor
    · rintro ⟨⟩
    · rintro ⟨rfl, hne⟩
      exact absurd rfl hne
  · rw [ofInfo, if_neg hzero, Option.some.injEq]
    refine ⟨?_, And.left⟩
    rintro rfl
    exact ⟨rfl, fun h => hzero (congrArg Xuid.mk h)⟩

theorem ofInfo_gamertag_eq_none_iff : (ofInfo i).gamertag = none ↔ i.gamertag.text = "" := by
  simp [ofInfo, Gamertag.isEmpty]

theorem ofInfo_gamertag_eq_some_iff {g : Gamertag} :
    (ofInfo i).gamertag = some g ↔ i.gamertag = g ∧ g.text ≠ "" := by
  by_cases hempty : i.gamertag.text = ""
  · rw [ofInfo_gamertag_eq_none_iff.mpr hempty]
    constructor
    · rintro ⟨⟩
    · rintro ⟨rfl, hne⟩
      exact absurd hempty hne
  · have hshown : ¬ i.gamertag.isEmpty := by simpa [Gamertag.isEmpty] using hempty
    rw [ofInfo, if_neg hshown, Option.some.injEq]
    refine ⟨?_, And.left⟩
    rintro rfl
    exact ⟨rfl, hempty⟩

theorem askedBy_ofChunk {chunk : Bytes} (h : chunk.length = 0x18) : AskedBy chunk (ofChunk chunk) := by
  have hxuid :
      (Layout.findUserInfo.read chunk).xuid.value.toNat = Bytes.ofBigEndian (chunk.take 8) := by
    have hlt := Bytes.ofBigEndian_lt (chunk.take 8)
    rw [List.length_take, Nat.min_eq_left (by omega)] at hlt
    have hfront : (Bytes.window 8 chunk).toList = chunk.take 8 := Bytes.toList_window (by omega)
    rw [← hfront] at hlt ⊢
    exact UInt64.toNat_ofNat_of_lt' hlt
  have hgamertag : (Layout.findUserInfo.read chunk).gamertag = .ofField (chunk.drop 8) := by
    have hlength : (chunk.drop 8).length = Gamertag.fieldSize := by
      rw [List.length_drop, h]
      rfl
    have hfield : (Bytes.window Gamertag.fieldSize (chunk.drop 8)).toList = chunk.drop 8 := by
      rw [Bytes.toList_window (Nat.le_of_eq hlength.symm),
        List.take_of_length_le (Nat.le_of_eq hlength)]
    exact congrArg Gamertag.ofField hfield
  constructor
  case xuid_eq_none_iff =>
    rw [ofChunk, ofInfo_xuid_eq_none_iff, ← hxuid, ← UInt64.toNat_inj]
    rfl
  case xuid_eq =>
    intro x hx
    rw [← (ofInfo_xuid_eq_some_iff.mp hx).1, hxuid]
  case gamertag_eq_none_iff => rw [ofChunk, ofInfo_gamertag_eq_none_iff, hgamertag]
  case gamertag_eq =>
    intro g hg
    rw [← (ofInfo_gamertag_eq_some_iff.mp hg).1, hgamertag]

theorem info_ofInfo (i : FindUserInfo) : (ofInfo i).info = i := by
  obtain ⟨xuid, gamertag⟩ := i
  have hxuid : (if xuid = {} then none else some xuid).getD {} = xuid := by
    split
    · next h => exact h.symm
    · rfl
  have hgamertag : (if gamertag.isEmpty then none else some gamertag).getD {} = gamertag := by
    split
    · next h => exact (Gamertag.eq_empty h).symm
    · rfl
  simp only [info, ofInfo, hxuid, hgamertag]

theorem keptAs_kept (e : LookupEntry) : e.KeptAs e.kept where
  xuid_iff x := by
    rw [kept, ofInfo_xuid_eq_some_iff]
    change e.xuid.getD {} = x ∧ _ ↔ _
    cases e.xuid with
    | none =>
      refine iff_of_false ?_ (by simp)
      rintro ⟨rfl, hne⟩
      exact hne rfl
    | some y => simp
  gamertag_iff g' := by
    rw [kept, ofInfo_gamertag_eq_some_iff]
    change (e.gamertag.getD {}).beforeNul = g' ∧ _ ↔ _
    cases e.gamertag with
    | none =>
      refine iff_of_false ?_ (by simp)
      rintro ⟨rfl, hne⟩
      exact hne rfl
    | some g =>
      rw [Option.getD_some, Gamertag.beforeNul_eq_iff]
      simp

theorem ofChunk_toBytes (e : LookupEntry) : ofChunk (GuestImage.toBytes e.info) = e.kept := by
  have hread := Layout.read_write_findUserInfo e.info []
  rw [List.append_nil] at hread
  exact congrArg ofInfo hread

theorem kept_ofInfo (h : '\x00' ∉ i.gamertag.text.toList) : (ofInfo i).kept = ofInfo i := by
  rw [kept, info_ofInfo, FindUserInfo.imaged, Gamertag.beforeNul_eq_self h]

end LookupEntry

namespace UserLookup

/-- The request of a game that hands over these chunks of its memory. -/
def requested (chunks : List Bytes) : Except TooShort UserLookup :=
  (chunks.mapM (GuestImage.ofBytes FindUserInfo)).map ofInfos

/-- The entries of a request as chunks of guest memory. -/
def laidOut (entries : List LookupEntry) : List Bytes :=
  entries.map fun e => GuestImage.toBytes e.info

theorem requested_eq {chunks : List Bytes} (h : ∀ chunk ∈ chunks, chunk.length = 0x18) :
    requested chunks = .ok { request := chunks.map .ofChunk } := by
  have hread : ∀ chunk ∈ chunks, GuestImage.ofBytes FindUserInfo chunk =
      .ok (Layout.findUserInfo.read chunk) :=
    fun chunk hchunk => GuestImage.ofBytes_of_le (Nat.le_of_eq (h chunk hchunk).symm)
  rw [requested, mapM_eq_ok_map hread]
  change Except.ok (ofInfos _) = _
  rw [ofInfos, List.map_map]
  rfl

theorem requested_laidOut (entries : List LookupEntry) :
    requested (laidOut entries) = .ok { request := entries.map .kept } := by
  have hlength : ∀ chunk ∈ laidOut entries, chunk.length = 0x18 := by
    intro chunk hchunk
    obtain ⟨e, -, rfl⟩ := List.mem_map.mp hchunk
    exact Layout.length_write_findUserInfo e.info
  have hentries :
        (laidOut entries).map LookupEntry.ofChunk = entries.map LookupEntry.kept := by
    rw [laidOut, List.map_map]
    exact List.map_congr_left fun e _ => e.ofChunk_toBytes
  rw [requested_eq hlength, hentries]

theorem requested_laidOut_eq_self {entries : List LookupEntry}
    (h : ∀ e ∈ entries, e.kept = e) : requested (laidOut entries) = .ok { request := entries } := by
  rw [requested_laidOut, List.map_congr_left h, List.map_id']

/-- A game asks for one entry for each chunk of its memory, and what it asks for it asks for again
when that is laid out in its memory. Laid out, any entries become such as come back from there. -/
theorem requests_settle :
    (∀ chunks : List Bytes, (∀ chunk ∈ chunks, chunk.length = 0x18) → ∃ request,
      requested chunks = .ok { request } ∧ List.Forall₂ LookupEntry.AskedBy chunks request ∧
        requested (laidOut request) = .ok { request }) ∧
    ∀ entries : List LookupEntry, ∃ request,
      requested (laidOut entries) = .ok { request } ∧
        List.Forall₂ LookupEntry.KeptAs entries request ∧
          requested (laidOut request) = .ok { request } := by
  constructor
  · intro chunks hchunks
    refine ⟨_, requested_eq hchunks, ?_, requested_laidOut_eq_self fun e he => ?_⟩
    · rw [List.forall₂_map_right_iff, List.forall₂_same]
      exact fun chunk hchunk => LookupEntry.askedBy_ofChunk (hchunks chunk hchunk)
    · obtain ⟨chunk, -, rfl⟩ := List.mem_map.mp he
      exact LookupEntry.kept_ofInfo (Gamertag.nul_not_mem_ofField _)
  · intro entries
    refine ⟨_, requested_laidOut entries, ?_, requested_laidOut_eq_self fun e he => ?_⟩
    · rw [List.forall₂_map_right_iff, List.forall₂_same]
      exact fun e _ => e.keptAs_kept
    · obtain ⟨e, -, rfl⟩ := List.mem_map.mp he
      exact LookupEntry.kept_ofInfo (Gamertag.nul_not_mem_beforeNul _)

/-- Of a chunk of ones the identifier is asked for and five times U+FFFD, and of a chunk of zeros
nothing. -/
theorem requests_settle_of_ones :
    (∀ chunk ∈ [List.replicate 0x18 0xFF, List.replicate 0x18 (0 : UInt8)], chunk.length = 0x18) ∧
      ∃ request,
        requested [List.replicate 0x18 0xFF, List.replicate 0x18 0] = .ok { request } ∧
          request = [
            { xuid := some ⟨0xFFFFFFFFFFFFFFFF⟩
              gamertag := some (.ofText (.ofList (List.replicate 5 Text.Utf8.replacement))) },
            {}] ∧
            requested (laidOut request) = .ok { request } := by
  have hchunks : ∀ chunk ∈ [List.replicate 0x18 0xFF, List.replicate 0x18 (0 : UInt8)],
      chunk.length = 0x18 := by decide
  obtain ⟨request, hrequest, -, hagain⟩ := requests_settle.1 _ hchunks
  have hread := Except.ok.inj (hrequest.symm.trans (requested_eq hchunks))
  obtain rfl := congrArg UserLookup.request hread
  refine ⟨hchunks, _, hrequest, ?_, hagain⟩
  decide +kernel

end UserLookup

end ConsoleOnline
