import ConsoleOnline.Friend
import ConsoleOnline.Json.Stored
import ConsoleOnline.Session.Basic
import ConsoleOnline.Settings

/-!
How the values of the online layer are stored as JSON.
-/
namespace ConsoleOnline

open Json (Stored Value Written)

instance : Stored Xuid := .via Xuid.value fun n => some ⟨n⟩

instance : Stored TitleId := .via TitleId.value fun n => some ⟨n⟩

instance : Stored SessionId := .via SessionId.raw fun n => some ⟨n⟩

instance : Stored SessionTag := .ofCases SessionTag.all SessionTag.name

instance : Stored SessionKind := .ofCases SessionKind.all SessionKind.name

instance : Stored SessionState := .ofCases SessionState.all SessionState.name

instance : Stored SlotCategory := .ofCases SlotCategory.all SlotCategory.name

instance : Stored NetworkMode := .ofCases NetworkMode.all NetworkMode.name

instance : Stored FileTime := .via FileTime.ticks fun n => some ⟨n⟩

instance : Stored PresenceState := .via PresenceState.bits fun n => some ⟨n⟩

instance : Stored SessionFlags := .via SessionFlags.bits fun n => some ⟨n⟩

/-- Text that is too long is cut when it is restored. -/
instance : Stored Gamertag := .via Gamertag.text fun s => some (.ofText s)

instance : Stored RichPresence := .via RichPresence.text fun s => some (.ofText s)

instance : Stored IPv4 := .via IPv4.text IPv4.parse?

instance : Stored MacAddress := .via MacAddress.text fun s => (MacAddress.parse s).toOption

instance : Stored UserState where
  store
    | .online => .string "Online"
    | .away => .string "Away"
    | .busy => .string "Busy"
    | .other bits => .object [("Other", Stored.store bits)]
  restore? w := do
    match ← w.case? with
    | ("Other", some content) => (Stored.restore? content).map .other
    | _ => w.plainCase? [("Online", .online), ("Away", .away), ("Busy", .busy)]

instance : Stored ExchangeKey where
  store k := .array (k.bytes.toList.map Stored.store)
  restore?
    | .array items => do
      if items.length = 16 then
        let bs ← items.mapM Stored.restore?
        pure ⟨Bytes.window 16 bs⟩
      else none
    | _ => none

/-- The identification bytes are not stored. -/
instance : Stored HostAddress where
  store h := .object
    [("ina", Stored.store h.ina), ("inaOnline", Stored.store h.inaOnline),
     ("portOnline", Stored.store h.portOnline), ("mac", Stored.store h.mac)]
  restore? w := do
    match ← w.record? ["ina", "inaOnline", "portOnline", "mac"] with
    | [some ina, some inaOnline, some portOnline, some mac] =>
      pure
        { ina := ← Stored.restore? ina
          inaOnline := ← Stored.restore? inaOnline
          portOnline := ← Stored.restore? portOnline
          mac := ← Stored.restore? mac }
    | _ => none

/-- A setting that is not stored has its default. The address is taken as it is. -/
instance : Stored Settings where
  store s := .object
    [("api_address", Stored.store s.apiAddress), ("network_mode", Stored.store s.networkMode)]
  restore? w := do
    let defaults : Settings := {}
    match ← w.record? ["api_address", "network_mode"] with
    | [address, mode] =>
      let apiAddress ← match address with
        | some w => Stored.restore? w
        | none => some defaults.apiAddress
      let networkMode ← match mode with
        | some w => Stored.restore? w
        | none => some defaults.networkMode
      pure { apiAddress, networkMode }
    | _ => none

/-- The counters are taken as they are, whether they add up or not. -/
instance : Stored Slots where
  store s := .object
    [("max", Stored.store s.max), ("open", Stored.store s.vacant),
     ("filled", Stored.store s.filled)]
  restore? w := do
    match ← w.record? ["max", "open", "filled"] with
    | [some max, some vacant, some filled] =>
      pure
        { max := ← Stored.restore? max
          vacant := ← Stored.restore? vacant
          filled := ← Stored.restore? filled }
    | _ => none

instance : Stored Member where
  store m := .object [("xuid", Stored.store m.xuid), ("category", Stored.store m.category)]
  restore? w := do
    match ← w.record? ["xuid", "category"] with
    | [some xuid, some category] =>
      pure { xuid := ← Stored.restore? xuid, category := ← Stored.restore? category }
    | _ => none

end ConsoleOnline
