import ConsoleOnline.Image.FindUsers
import ConsoleOnline.Proofs.Gamertag
import ConsoleOnline.Proofs.Image.RoundTrip

/-!
The image of an answer to a lookup of users, taken apart again: the header at its front, and after it
one entry after the other. The image of an entry is read as `FindUserInfo.imaged` of it, since a
gamertag ends there at its first zero character.
-/
namespace ConsoleOnline

/-- What its image tells of an entry. -/
def FindUserInfo.imaged (i : FindUserInfo) : FindUserInfo := { i with gamertag := i.gamertag.beforeNul }

namespace Layout

theorem write_gamertag (g : Gamertag) : gamertag.write g = g.toField.toList := by
  simp only [gamertag, map, bytes]

theorem read_gamertag (bs : Bytes) :
    gamertag.read bs = .ofField (Bytes.window Gamertag.fieldSize bs).toList := rfl

theorem read_write_gamertag (g : Gamertag) (rest : Bytes) :
    gamertag.read (gamertag.write g ++ rest) = g.beforeNul := by
  rw [read_gamertag, write_gamertag, window_append_of_length Vector.length_toList,
    g.ofField_toField]

theorem write_findUserInfo (i : FindUserInfo) :
    findUserInfo.write i = xuid.write i.xuid ++ gamertag.write i.gamertag := rfl

theorem read_findUserInfo (bs : Bytes) :
    findUserInfo.read bs = ⟨xuid.read bs, gamertag.read (bs.drop xuid.size)⟩ := rfl

theorem length_write_findUserInfo (i : FindUserInfo) :
    (findUserInfo.write i).length = findUserInfo.size := by
  rw [write_findUserInfo, List.length_append, Lawful.xuid.length_write, write_gamertag,
    Vector.length_toList]
  rfl

theorem read_write_findUserInfo (i : FindUserInfo) (rest : Bytes) :
    findUserInfo.read (findUserInfo.write i ++ rest) = i.imaged := by
  have hxuid := Lawful.xuid.length_write i.xuid
  rw [read_findUserInfo, write_findUserInfo, List.append_assoc, List.drop_left' hxuid,
    read_write_gamertag, Lawful.xuid.read_write, FindUserInfo.imaged]

end Layout

namespace FindUserInfo

theorem ofBytes_toBytes (i : FindUserInfo) :
    GuestImage.ofBytes FindUserInfo (GuestImage.toBytes i) = .ok i.imaged := by
  have hlength : (GuestImage.toBytes i).length = GuestImage.size FindUserInfo :=
    Layout.length_write_findUserInfo i
  have hread := Layout.read_write_findUserInfo i []
  rw [List.append_nil] at hread
  rw [GuestImage.ofBytes_of_le (Nat.le_of_eq hlength.symm)]
  exact congrArg _ hread

/-- An entry of which nothing is known is zero throughout. -/
theorem toBytes_blank : GuestImage.toBytes ({} : FindUserInfo) = List.replicate 0x18 0 := by
  decide

end FindUserInfo

namespace FindUsersResponse

/-- The bytes of the entry at place `i`. -/
def slice (i : Nat) (image : Bytes) : Bytes := (image.drop (8 + 0x18 * i)).take 0x18

theorem length_header (r : FindUsersResponse) : (GuestImage.toBytes r.header).length = 8 :=
  Layout.Lawful.findUsersHeader.length_write r.header

theorem length_toBytes (r : FindUsersResponse) : r.toBytes.length = 8 + 0x18 * r.entries.length := by
  have hentries : (r.entries.flatMap GuestImage.toBytes).length = r.entries.length * 0x18 :=
    Layout.length_flatMap_write Layout.length_write_findUserInfo r.entries
  rw [toBytes, List.length_append, length_header, hentries, Nat.mul_comm]

theorem ofBytes_header (r : FindUsersResponse) :
    GuestImage.ofBytes FindUsersHeader r.toBytes = .ok r.header :=
  GuestImage.ofBytes_toBytes .findUsersHeader r.header _

theorem slice_toBytes (r : FindUsersResponse) {i : Nat} (hi : i < r.entries.length) :
    slice i r.toBytes = GuestImage.toBytes r.entries[i] := by
  obtain ⟨after, hdrop⟩ := Layout.drop_flatMap_write Layout.length_write_findUserInfo hi []
  rw [List.append_nil] at hdrop
  have hentry : (GuestImage.toBytes r.entries[i]).length = 0x18 :=
    Layout.length_write_findUserInfo r.entries[i]
  have hplace : r.toBytes.drop (8 + 0x18 * i) = GuestImage.toBytes r.entries[i] ++ after := by
    rw [toBytes, ← r.length_header, List.drop_length_add_append, Nat.mul_comm]
    exact hdrop
  rw [slice, hplace, List.take_left' hentry]

end FindUsersResponse

end ConsoleOnline
