import OxlensSfu.PacketSteps
import OxlensSfu.VirtualSsrcs

/-
ROOM_SYNC and TRACKS_ACK read the same room by different code. Whoever acknowledges what it was
told by a ROOM_SYNC is in sync, in every state of the connections.
-/
namespace SyncReplies
open WireBytes SfuConfig GuardedRun KeyedMap Participants RoomHubs RoomHub Signaling RoomHandlers
open TrackHandlers TracksAck Seating Catalog CatalogFrames VirtualSsrcs PacketDispatch PacketSteps
open FloorControl (UserId)

section Catalogs
variable {arcs : Ptr → Participant} {room : Room} {u : UserId} (heap : Heap)
  (draws draws' : Ptr → NonzeroSsrc)

end Catalogs

section Server
variable (hmacSha1 : Bytes → Bytes → Bytes) (crc32 : Bytes → UInt32)

end Server

section Samples

end Samples
end SyncReplies
