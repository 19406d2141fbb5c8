import ConsoleOnline.ExchangeKey
import ConsoleOnline.FileTime
import ConsoleOnline.HostAddress
import ConsoleOnline.Ids
import ConsoleOnline.Image.GuestImage

/-!
How single fields lie in guest memory, and the image of a host address.
-/
namespace ConsoleOnline

namespace Layout

def xuid : Layout Xuid := uint64.map Xuid.mk Xuid.value

def titleId : Layout TitleId := uint32.map TitleId.mk TitleId.value

def sessionId : Layout SessionId := uint64.map SessionId.mk SessionId.raw

/-- The high half of the ticks comes first. -/
def fileTime : Layout FileTime :=
  (uint32.pair uint32).map (fun (high, low) => .ofParts high low) (fun t => (t.high, t.low))

def ipv4 : Layout IPv4 := (bytes 4).map IPv4.mk IPv4.octets

def mac : Layout MacAddress := (bytes 6).map MacAddress.mk MacAddress.octets

def exchangeKey : Layout ExchangeKey := (bytes 16).map ExchangeKey.mk ExchangeKey.bytes

def hostAddress : Layout HostAddress :=
  (ipv4.pair <| ipv4.pair <| uint16.pair <| mac.pair (bytes 20)).map
    (fun (ina, inaOnline, portOnline, mac, onlineId) => ⟨ina, inaOnline, portOnline, mac, onlineId⟩)
    (fun h => (h.ina, h.inaOnline, h.portOnline, h.mac, h.onlineId))

theorem Lawful.xuid : xuid.Lawful := .map .uint64 fun _ => rfl

theorem Lawful.titleId : titleId.Lawful := .map .uint32 fun _ => rfl

theorem Lawful.sessionId : sessionId.Lawful := .map .uint64 fun _ => rfl

theorem Lawful.fileTime : fileTime.Lawful :=
  .map (.pair .uint32 .uint32) FileTime.ofParts_high_low

theorem Lawful.exchangeKey : exchangeKey.Lawful := .map (.bytes 16) fun _ => rfl

theorem Lawful.hostAddress : hostAddress.Lawful :=
  .map (.pair (.map (.bytes 4) fun _ => rfl) <| .pair (.map (.bytes 4) fun _ => rfl) <|
    .pair .uint16 <| .pair (.map (.bytes 6) fun _ => rfl) (.bytes 20)) fun _ => rfl

end Layout

instance : GuestImage HostAddress where
  name := "XNADDR"
  layout := .hostAddress

example : GuestImage.size HostAddress = 0x24 := rfl

end ConsoleOnline
