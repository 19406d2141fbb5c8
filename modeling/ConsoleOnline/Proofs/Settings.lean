import ConsoleOnline.Proofs.Json.ReadBack
import ConsoleOnline.Proofs.Results
import ConsoleOnline.Proofs.Text.Trim
import ConsoleOnline.Stored

/-!
Settings from variables and settings from a document. Variables have their address put into its
normal form, without blanks around it and with a slash at its end; a document is taken at its word. So
the endpoints of the two are the same just where the address is in normal form when it comes.
-/
namespace ConsoleOnline

open Json (Piece Stored Value Written)

namespace Settings

/-- No blanks stand around the address, and a slash stands at its end. -/
structure NormalAddress (address : String) : Prop where
  trimmed : Text.trim address.toList = address.toList
  slash : address.toList.getLast? = some '/'

theorem normalizeAddress_eq_self_iff {address : String} :
    normalizeAddress address = address ↔ NormalAddress address := by
  rw [normalizeAddress, ← String.toList_inj, String.toList_ofList]
  constructor
  · intro h
    split at h
    · next hslash => exact ⟨h, h ▸ hslash⟩
    · next hslash =>
      -- a slash that was put at the end cannot have been there before
      obtain ⟨ds, hds⟩ := Text.exists_trim_concat (Text.trim address.toList)
        (show Text.isBlank '/' = false by decide)
      rw [h] at hds
      exact absurd (by rw [hds, List.getLast?_concat]) hslash
  · rintro ⟨htrimmed, hslash⟩
    rw [htrimmed, if_pos hslash]

/-! ### Where the address comes from -/

theorem apiAddress_ofVariables {lookup : String → Option String} {address : String} {s : Settings}
    (haddress : lookup addressVariable = some address) (h : ofVariables lookup = .ok s) :
    s.apiAddress = normalizeAddress address := by
  rw [ofVariables, haddress] at h
  split at h
  all_goals
    obtain ⟨mode, -, hs⟩ := bind_eq_ok_iff.mp h
    obtain rfl := Except.ok.inj hs
    rfl

/-- The address that a document of settings gives: in the field of this name, or in the first place
of an array. -/
inductive GivesAddress : Written → String → Prop where
  | field {entries : List (List Piece × Written)} {key ps : List Piece} {cs : List Char}
      (h : (key, .string ps) ∈ entries) (hkey : Piece.text? key = some "api_address".toList)
      (hps : Piece.text? ps = some cs) : GivesAddress (.object entries) (.ofList cs)
  | first {ps : List Piece} {cs : List Char} {rest : List Written}
      (hps : Piece.text? ps = some cs) : GivesAddress (.array (.string ps :: rest)) (.ofList cs)

theorem restore?_string {ps : List Piece} {cs : List Char} (h : Piece.text? ps = some cs) :
    (Stored.restore? (.string ps) : Option String) = some (.ofList cs) := by
  simp [Stored.restore?, Written.scalar?, Written.value?, h, Value.ofChars, Value.toText,
    Except.toOption]

theorem mem_of_mapM_eq_some {f : α → Option β} {as : List α} {bs : List β} {a : α} {b : β}
    (h : as.mapM f = some bs) (ha : a ∈ as) (hb : f a = some b) : b ∈ bs := by
  induction mapM_eq_some_iff.mp h with
  | nil => cases ha
  | @cons a' b' as bs hab hrest ih =>
    rcases List.mem_cons.mp ha with rfl | hmem
    · obtain rfl := Option.some.inj (hab.symm.trans hb)
      exact List.mem_cons_self
    · exact List.mem_cons_of_mem b' (ih (mapM_eq_some_iff.mpr hrest) hmem)

/-- A field of a record that is found stands nowhere else in it. -/
theorem record?_field {entries : List (List Piece × Written)} {key : List Piece} {w : Written}
    {name : String} {others : List String} {found : List (Option Written)}
    (hrecord : (Written.object entries).record? (name :: others) = some found)
    (h : (key, w) ∈ entries) (hkey : Piece.text? key = some name.toList) :
    ∃ rest, found = some w :: rest := by
  obtain ⟨fields, hfields, hfound⟩ := Option.bind_eq_some_iff.mp hrecord
  have hmem : (name, w) ∈ fields := by
    refine mem_of_mapM_eq_some hfields h ?_
    simp [hkey]
  have hname : (name, w) ∈ fields.filter fun field => field.1 = name := by simp [hmem]
  obtain ⟨_, rest, hfirst, -, rfl⟩ := List.forall₂_cons_left_iff.mp (mapM_eq_some_iff.mp hfound)
  refine ⟨rest, ?_⟩
  split at hfirst
  · next hnone =>
    rw [hnone] at hname
    cases hname
  · next field hone =>
    rw [hone, List.mem_singleton] at hname
    rw [← Option.some.inj hfirst, ← hname]
  · cases hfirst

theorem record?_first {w : Written} {items : List Written} {names : List String}
    {found : List (Option Written)}
    (hrecord : (Written.array (w :: items)).record? names = some found) :
    ∃ rest, found = some w :: rest := by
  rw [Written.record?] at hrecord
  split at hrecord
  · exact ⟨_, (Option.some.inj hrecord).symm⟩
  · cases hrecord

theorem apiAddress_of_givesAddress {w : Written} {address : String} {s : Settings}
    (hgives : GivesAddress w address) (h : Stored.restore? w = some s) : s.apiAddress = address := by
  obtain ⟨found, hrecord, hrest⟩ := Option.bind_eq_some_iff.mp h
  have hfound : ∃ (field : Written) (rest : List (Option Written)), found = some field :: rest ∧
      (Stored.restore? field : Option String) = some address := by
    cases hgives with
    | field hmem hkey hps =>
      obtain ⟨rest, rfl⟩ := record?_field hrecord hmem hkey
      exact ⟨_, rest, rfl, restore?_string hps⟩
    | first hps =>
      obtain ⟨rest, rfl⟩ := record?_first hrecord
      exact ⟨_, rest, rfl, restore?_string hps⟩
  obtain ⟨field, rest, rfl, haddress⟩ := hfound
  split at hrest
  · next hplaces =>
    obtain ⟨rfl, rfl⟩ := List.cons.inj hplaces
    obtain ⟨apiAddress, hfield, hmode⟩ := Option.bind_eq_some_iff.mp hrest
    obtain rfl := Option.some.inj (hfield.symm.trans haddress)
    split at hmode
    all_goals
      obtain ⟨mode, -, hs⟩ := Option.bind_eq_some_iff.mp hmode
      obtain rfl := Option.some.inj hs
      rfl
  · cases hrest

theorem plain_store (s : Settings) : (Stored.store s).Plain Json.maxDepth :=
  .object (List.forall_mem_cons.mpr ⟨.string _, List.forall_mem_cons.mpr ⟨.string _, by simp⟩⟩)

theorem restore?_mode (m : NetworkMode) :
    (Stored.restore? (.string (Piece.ofString m.name)) : Option NetworkMode) = some m := by
  have hcase : (Written.string (Piece.ofString m.name)).case? = some (m.name, none) := by
    rw [Written.case?, Json.text?_ofString, Option.map_some, String.ofList_toList]
  simp only [Stored.restore?, Written.plainCase?, hcase]
  cases m <;> rfl

theorem record?_written (s : Settings) :
    (Stored.store s).written.record? ["api_address", "network_mode"] =
      some [some (.string (Piece.ofString s.apiAddress)),
        some (.string (Piece.ofString s.networkMode.name))] := by
  simp only [Stored.store, Value.written, Value.writtenFields, Written.record?, List.mapM_cons,
    List.mapM_nil, Json.text?_ofString, Option.map_some, String.ofList_toList]
  simp

/-- What is stored is restored from its text. -/
theorem restoreText?_store (s : Settings) :
    Stored.restoreText? Settings (Stored.store s).text = some s := by
  have haddress : (Stored.restore? (.string (Piece.ofString s.apiAddress)) : Option String) =
      some s.apiAddress := by
    rw [restore?_string (Json.text?_ofString s.apiAddress), String.ofList_toList]
  rw [Stored.restoreText?, Value.ofChars?_text (plain_store s)]
  refine Option.bind_eq_some_iff.mpr ⟨_, rfl, ?_⟩
  refine Option.bind_eq_some_iff.mpr ⟨_, record?_written s, ?_⟩
  refine Option.bind_eq_some_iff.mpr ⟨_, haddress, ?_⟩
  exact Option.bind_eq_some_iff.mpr ⟨_, restore?_mode s.networkMode, rfl⟩

/-! ### Endpoints -/

/-- Between the address and the path stands one slash: if the address does not end with it already, it
is put there, and those in front of the path are dropped. -/
def SlashBetween (address path endpoint : String) : Prop :=
  ∃ front, (address.toList = front ∨ address.toList = front ++ ['/']) ∧
    endpoint.toList = front ++ '/' :: path.toList.dropWhile (· = '/')

theorem toList_endpoint (s : Settings) (path : String) :
    (s.endpoint path).toList = s.apiAddress.toList ++ path.toList.dropWhile (· = '/') := by
  rw [endpoint, String.toList_append, String.toList_ofList]

theorem endpoint_eq_iff {s t : Settings} {path : String} :
    s.endpoint path = t.endpoint path ↔ s.apiAddress = t.apiAddress := by
  rw [← String.toList_inj, toList_endpoint, toList_endpoint, List.append_left_inj, String.toList_inj]

theorem slashBetween_normalizeAddress {s : Settings} {address : String}
    (h : s.apiAddress = normalizeAddress address) (path : String) :
    SlashBetween (.ofList (Text.trim address.toList)) path (s.endpoint path) := by
  rw [SlashBetween, toList_endpoint, h, normalizeAddress, String.toList_ofList, String.toList_ofList]
  split
  · next hslash =>
    obtain ⟨front, hfront⟩ := List.getLast?_eq_some_iff.mp hslash
    exact ⟨front, .inr hfront, by simp [hfront]⟩
  · exact ⟨_, .inl rfl, by simp⟩

theorem slashBetween_iff {s : Settings} {path : String} :
    SlashBetween s.apiAddress path (s.endpoint path) ↔ s.apiAddress.toList.getLast? = some '/' := by
  rw [SlashBetween, toList_endpoint, List.getLast?_eq_some_iff]
  constructor
  · rintro ⟨front, hfront, hendpoint⟩
    rcases hfront with hfront | hfront
    · have hlength := congrArg List.length hendpoint
      rw [hfront] at hlength
      simp at hlength
    · exact ⟨front, hfront⟩
  · rintro ⟨front, hfront⟩
    exact ⟨front, .inr hfront, by simp [hfront]⟩

/-- Settings that come with one address, some from variables and some from the text of a document. -/
structure LoadedWith (address : String) (ofLookup ofDocument : Settings) : Prop where
  lookup : ∃ lookup : String → Option String,
    lookup addressVariable = some address ∧ ofVariables lookup = .ok ofLookup
  document : ∃ (text : String) (w : Written), Written.ofChars? text.toList = some w ∧
    GivesAddress w address ∧ Stored.restoreText? Settings text = some ofDocument

theorem givesAddress_store (s : Settings) : GivesAddress (Stored.store s).written s.apiAddress := by
  have hfield : (Piece.ofString "api_address", Written.string (Piece.ofString s.apiAddress)) ∈
      Value.writtenFields [("api_address", .string s.apiAddress),
        ("network_mode", .string s.networkMode.name)] := .head _
  have h := GivesAddress.field hfield (Json.text?_ofString _) (Json.text?_ofString _)
  rwa [String.ofList_toList] at h

theorem loadedWith_defaults (address : String) :
    LoadedWith address { apiAddress := normalizeAddress address } { apiAddress := address } where
  lookup := ⟨fun name => if name = addressVariable then some address else none, rfl, rfl⟩
  document := ⟨_, _, Value.ofChars?_text (plain_store _), givesAddress_store _, restoreText?_store _⟩

/-- With one address, settings from variables have one slash between the address and a path, and their
endpoint is that of settings from a document just if the address is in normal form. Settings from a
document have the slash just if the address ends with it. -/
theorem endpoints_agree_iff (address path : String) :
    (∃ ofLookup ofDocument, LoadedWith address ofLookup ofDocument) ∧
      ∀ ofLookup ofDocument, LoadedWith address ofLookup ofDocument →
        (ofLookup.endpoint path = ofDocument.endpoint path ↔ NormalAddress address) ∧
        SlashBetween (.ofList (Text.trim address.toList)) path (ofLookup.endpoint path) ∧
        (SlashBetween address path (ofDocument.endpoint path) ↔
          address.toList.getLast? = some '/') := by
  refine ⟨⟨_, _, loadedWith_defaults address⟩, fun ofLookup ofDocument h => ?_⟩
  obtain ⟨lookup, hlookup, hofLookup⟩ := h.lookup
  obtain ⟨text, w, hw, hgives, hdocument⟩ := h.document
  have hrestored : Stored.restore? w = some ofDocument := by
    rwa [Stored.restoreText?, hw] at hdocument
  have hnormal := apiAddress_ofVariables hlookup hofLookup
  have hsame := apiAddress_of_givesAddress hgives hrestored
  refine ⟨?_, slashBetween_normalizeAddress hnormal path, ?_⟩
  · rw [endpoint_eq_iff, hnormal, hsame, normalizeAddress_eq_self_iff]
  · rw [← hsame]
    exact slashBetween_iff

/-- An address without a slash at its end. -/
theorem endpoint_of_bare_address : ∃ ofLookup ofDocument : Settings,
    LoadedWith "http://10.0.0.5:36000" ofLookup ofDocument ∧
      ofLookup.endpoint "players/find" = "http://10.0.0.5:36000/players/find" ∧
      ofDocument.endpoint "players/find" = "http://10.0.0.5:36000players/find" :=
  ⟨_, _, loadedWith_defaults _, by decide +kernel, by decide +kernel⟩

end Settings

end ConsoleOnline
