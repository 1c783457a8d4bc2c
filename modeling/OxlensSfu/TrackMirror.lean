import OxlensSfu.FloorMembership
import OxlensSfu.AnnouncedSsrcs
import OxlensSfu.TrackUpdates

/-
A client that keeps its track list by the TRACKS_UPDATE packets on its channel, against the
catalog of its room. Each handler that announces tracks is compared with what it does to the
catalog; all other handlers leave both alone.
-/
namespace TrackMirror
open WireBytes SfuConfig KeyedMap KeyedReplica Participants RoomHubs RoomHub Membership Signaling
open FloorHandlers RoomHandlers TrackHandlers Ingress Servers MemberFrames RoomSteps Seating
open Catalog CatalogFrames VirtualSsrcs AnnouncedSsrcs TrackLists TrackUpdates FloorMembership
open FloorControl (UserId)

/-- The participant whose client is looked at. -/
structure Follower where
  conn : ConnId
  room : RoomId
  simulcast : Bool
  user : UserId
  ptr : Ptr

/-- It is in its room, with its channel. -/
structure Follower.Here (c : Follower) (hub : RoomHub) : Prop where
  resident : Resident hub c.room c.simulcast c.user c.ptr
  channel : (hub.arcs c.ptr).wsTx = c.conn

/-- No other participant has its channel. -/
def Follower.Alone (c : Follower) (hub : RoomHub) : Prop :=
  ∀ r u q, Member hub r u q → (hub.arcs q).wsTx = c.conn → q = c.ptr

/-- The catalog of the room without its own tracks, by user and SSRC. -/
def Follower.Offered (c : Follower) (hub : RoomHub) (key : UserId × UInt32) (id : String) : Prop :=
  key.1 ≠ c.user ∧ ∃ q, Member hub c.room key.1 q ∧
    Enlists trackKey (·.trackId) (offers c.simulcast key.1 (hub.heap q)) key id

/-- Nobody else in the room has two announced tracks under one SSRC. -/
def Follower.Keyed (c : Follower) (hub : RoomHub) : Prop :=
  ∀ u q, u ≠ c.user → Member hub c.room u q → ∀ t ∈ visible c.simulcast (hub.heap q),
    ∀ t' ∈ visible c.simulcast (hub.heap q),
      shownSsrc c.simulcast (hub.heap q).simulcastVideoSsrc t =
        shownSsrc c.simulcast (hub.heap q).simulcastVideoSsrc t' → t.trackId = t'.trackId

instance (c : Follower) (hub : RoomHub) : Decidable (c.Alone hub) :=
  decidable_of_iff (∀ e ∈ toList hub.rooms, ∀ f ∈ toList e.2.participants,
    (hub.arcs f.2).wsTx = c.conn → f.2 = c.ptr)
    (@forall_member_iff hub fun _ _ q => (hub.arcs q).wsTx = c.conn → q = c.ptr).symm

instance (c : Follower) (hub : RoomHub) : Decidable (c.Keyed hub) :=
  decidable_of_iff (∀ e ∈ toList hub.rooms, ∀ f ∈ toList e.2.participants,
      e.1 = c.room → f.1 ≠ c.user → ∀ t ∈ visible c.simulcast (hub.heap f.2),
      ∀ t' ∈ visible c.simulcast (hub.heap f.2),
        shownSsrc c.simulcast (hub.heap f.2).simulcastVideoSsrc t =
          shownSsrc c.simulcast (hub.heap f.2).simulcastVideoSsrc t' → t.trackId = t'.trackId) <| by
    rw [← @forall_member_iff hub fun r u q => r = c.room → u ≠ c.user →
      ∀ t ∈ visible c.simulcast (hub.heap q), ∀ t' ∈ visible c.simulcast (hub.heap q),
        shownSsrc c.simulcast (hub.heap q).simulcastVideoSsrc t =
          shownSsrc c.simulcast (hub.heap q).simulcastVideoSsrc t' → t.trackId = t'.trackId]
    constructor
    · exact fun all u q other member => all c.room u q member rfl other
    · intro keyed r u q member here other
      subst here
      exact keyed u q other member

/-- What the channel carries does to a client what the step does to the catalog. -/
def Follower.Mirrors (c : Follower) (hub next : RoomHub) (out : Outbox) : Prop :=
  ∀ m, Represents m (c.Offered hub) →
    Represents (replay trackKey (·.trackId) m (updatesFor c.conn out)) (c.Offered next)

section Catalog
variable {c : Follower} {hub next : RoomHub}

theorem Follower.Here.member (here : c.Here hub) : Member hub c.room c.user c.ptr :=
  here.resident.member

theorem Follower.Here.kind (here : c.Here hub) {room : Room}
    (held : hub.rooms.lookup c.room = some room) : room.simulcastEnabled = c.simulcast := by
  obtain ⟨room', held', kind, _⟩ := here.resident
  rw [held, Option.some.injEq] at held'
  rw [held', kind]

theorem Follower.Here.resident_of (here : c.Here hub) {u : UserId} {q : Ptr}
    (member : Member hub c.room u q) : Resident hub c.room c.simulcast u q := by
  obtain ⟨room, held, entry⟩ := member
  exact ⟨room, held, here.kind held, entry⟩

theorem enlists_offers {simulcast : Bool} {u : UserId} {s : ParticipantState}
    {key : UserId × UInt32} {id : String} :
    Enlists trackKey (·.trackId) (offers simulcast u s) key id ↔
      key.1 = u ∧ ∃ t ∈ visible simulcast s,
        shownSsrc simulcast s.simulcastVideoSsrc t = key.2 ∧ t.trackId = id := by
  obtain ⟨v, ssrc⟩ := key
  simp only [Enlists, offers, List.mem_map, exists_exists_and_eq_and, trackKey, shown, announced,
    Prod.mk.injEq]
  constructor
  · intro found
    obtain ⟨t, inside, ⟨user, same⟩, name⟩ := found
    exact ⟨user.symm, t, inside, same, name⟩
  · intro found
    obtain ⟨user, t, inside, same, name⟩ := found
    exact ⟨t, inside, ⟨user.symm, same⟩, name⟩

theorem Follower.Keyed.oneValue (keyed : c.Keyed hub) : OneValue (c.Offered hub) := by
  intro key id id' left right
  obtain ⟨other, q, member, listed⟩ := left
  obtain ⟨_, q', member', listed'⟩ := right
  obtain rfl := member_unique member member'
  obtain ⟨_, t, inside, ssrc, name⟩ := enlists_offers.mp listed
  obtain ⟨_, t', inside', ssrc', name'⟩ := enlists_offers.mp listed'
  rw [← name, ← name']
  exact keyed key.1 q other member t inside t' inside' (ssrc.trans ssrc'.symm)

theorem offered_own {key : UserId × UInt32} {id : String} {q : Ptr}
    (member : Member hub c.room key.1 q) : c.Offered hub key id ↔ key.1 ≠ c.user ∧
      Enlists trackKey (·.trackId) (offers c.simulcast key.1 (hub.heap q)) key id := by
  constructor
  · intro offered
    obtain ⟨other, q', there, listed⟩ := offered
    obtain rfl := member_unique there member
    exact ⟨other, listed⟩
  · intro own
    exact ⟨own.1, q, member, own.2⟩

/-- The listing of a room is the catalog of the follower. -/
theorem enlists_listing {room : Room} (held : hub.rooms.lookup c.room = some room)
    (kind : room.simulcastEnabled = c.simulcast) (named : Named hub.arcs room)
    (key : UserId × UInt32) (id : String) :
    Enlists trackKey (·.trackId) (listing hub.arcs room hub.heap c.user) key id ↔
      c.Offered hub key id := by
  constructor
  · intro found
    obtain ⟨info, inside, same, name⟩ := found
    obtain ⟨q, other, offered⟩ := List.mem_flatMap.mp inside
    obtain ⟨u, apart, entry⟩ := mem_otherParticipants.mp other
    rw [named u q entry, kind] at offered
    have user : key.1 = u := (enlists_offers.mp ⟨info, offered, same, name⟩).1
    rw [← user] at apart entry offered
    exact ⟨apart, q, ⟨room, held, entry⟩, info, offered, same, name⟩
  · intro offered
    obtain ⟨apart, q, there, info, inside, same, name⟩ := offered
    have entry := there.lookup held
    refine ⟨info, List.mem_flatMap.mpr ⟨q, mem_otherParticipants.mpr ⟨key.1, apart, entry⟩, ?_⟩,
      same, name⟩
    rw [named key.1 q entry, kind]
    exact inside

/-- The announcement of the whole room, for a room whose virtual SSRCs are drawn. -/
theorem enlists_collect (aligned : Aligned hub) (seated : Seated hub) (here : c.Here hub)
    {room : Room} (held : hub.rooms.lookup c.room = some room) (draws : Ptr → NonzeroSsrc)
    (key : UserId × UInt32) (id : String) :
    Enlists trackKey (·.trackId)
        (collectSubscribeTracks hub.arcs room hub.heap draws c.user).2 key id ↔
      c.Offered hub key id := by
  have named := seated_named seated held
  have kind := here.kind held
  have same : listing hub.arcs room (collectSubscribeTracks hub.arcs room hub.heap draws c.user).1
      c.user = listing hub.arcs room hub.heap c.user := by
    apply listing_congr
    intro q other
    obtain ⟨u, _, entry⟩ := mem_otherParticipants.mp other
    apply offers_congr
    · exact collect_tracks hub.heap draws named q
    · intro simulcast t inside video
      rw [visible, collect_tracks hub.heap draws named, simulcast] at inside
      exact collect_vssrc hub.heap draws named
        (aligned.drawn ⟨room, held, simulcast, entry⟩ inside video)
  rw [collect_listing hub.heap draws named, same]
  exact enlists_listing held kind named key id

/-- Whoever else is in the room stays, with its tracks; whoever comes has none. -/
structure Calm (c : Follower) (hub next : RoomHub) : Prop where
  stays : ∀ {u q}, Member hub c.room u q → Member next c.room u q
  comes : ∀ {u q}, Member next c.room u q →
    Member hub c.room u q ∨ (next.heap q).tracks = []
  tracks : ∀ {u q}, u ≠ c.user → Member hub c.room u q →
    (next.heap q).tracks = (hub.heap q).tracks
  vssrc : ∀ {u q}, u ≠ c.user → Member hub c.room u q → (hub.heap q).simulcastVideoSsrc ≠ 0 →
    (next.heap q).simulcastVideoSsrc = (hub.heap q).simulcastVideoSsrc

/-- A participant that keeps tracks and virtual SSRC keeps what it offers. -/
theorem offers_kept (aligned : Aligned hub) (here : c.Here hub) {u : UserId} {q : Ptr}
    (member : Member hub c.room u q) {s : ParticipantState}
    (tracks : s.tracks = (hub.heap q).tracks)
    (vssrc : (hub.heap q).simulcastVideoSsrc ≠ 0 →
      s.simulcastVideoSsrc = (hub.heap q).simulcastVideoSsrc) :
    offers c.simulcast u s = offers c.simulcast u (hub.heap q) := by
  symm
  apply offers_congr tracks.symm
  intro simulcast t inside video
  have resident := here.resident_of member
  rw [simulcast] at resident inside
  exact (vssrc (aligned.drawn resident inside video)).symm

theorem Calm.offered (calm : Calm c hub next) (aligned : Aligned hub) (here : c.Here hub)
    (key : UserId × UInt32) (id : String) : c.Offered next key id ↔ c.Offered hub key id := by
  constructor
  · intro offered
    obtain ⟨other, q, member, listed⟩ := offered
    rcases calm.comes member with before | empty
    · rw [offers_kept aligned here before (calm.tracks other before) (calm.vssrc other before)]
        at listed
      exact ⟨other, q, before, listed⟩
    · obtain ⟨_, t, inside, _⟩ := enlists_offers.mp listed
      rw [visible, empty] at inside
      simp at inside
  · intro offered
    obtain ⟨other, q, member, listed⟩ := offered
    refine ⟨other, q, calm.stays member, ?_⟩
    rw [offers_kept aligned here member (calm.tracks other member) (calm.vssrc other member)]
    exact listed

/-- Where nothing changes and nothing arrives, the client is right as before. -/
theorem Calm.mirrors (calm : Calm c hub next) (aligned : Aligned hub) (here : c.Here hub)
    {out : Outbox} (silent : updatesFor c.conn out = []) : c.Mirrors hub next out := by
  intro m rep
  rw [silent]
  exact rep.congr (calm.offered aligned here)

theorem Calm.of_settled (members : ∀ u q, Member next c.room u q ↔ Member hub c.room u q)
    (settled : Settled hub.heap next.heap) : Calm c hub next where
  stays member := (members _ _).mpr member
  comes member := .inl ((members _ _).mp member)
  tracks _ _ := settled.tracks _
  vssrc _ _ := settled.vssrc _

end Catalog

/-- The follower is the one participant on its channel. -/
structure Follower.Listens (c : Follower) (hub : RoomHub) : Prop where
  sound : WellFormed hub
  member : Member hub c.room c.user c.ptr
  channel : (hub.arcs c.ptr).wsTx = c.conn
  alone : c.Alone hub

section Channels
variable {c : Follower} {hub next : RoomHub} (listens : c.Listens hub) {r : RoomId} {room : Room}

include listens

/-- It still is when nobody has come in and it has not gone. -/
theorem Follower.Listens.of_keeps (keeps : Keeps hub next) (sound : WellFormed next)
    (member : Member next c.room c.user c.ptr) : c.Listens next := by
  refine ⟨sound, member, ?_, fun r u q there channel => ?_⟩
  · rw [keeps.arcs]
    exact listens.channel
  · rw [keeps.arcs] at channel
    exact listens.alone r u q (keeps.member there) channel

theorem channel_iff {u : UserId} {q : Ptr} (member : Member hub r u q) :
    (hub.arcs q).wsTx = c.conn ↔ q = c.ptr := by
  constructor
  · exact listens.alone r u q member
  · intro same
    rw [same, listens.channel]

/-- A broadcast to all but one reaches the follower in its own room, if it is not the one. -/
theorem others_arrives (held : hub.rooms.lookup r = some room) (u : UserId) (event : WsEvent) :
    updatesFor c.conn (broadcastToOthers hub.arcs room u event) =
      if r = c.room ∧ u ≠ c.user then (updateOf event).toList else [] := by
  have once := otherParticipants_nodup (participants_injective listens.sound held) u
  rw [broadcastToOthers, updatesFor_map once]
  · congr 1
    rw [eq_iff_iff, mem_otherParticipants]
    constructor
    · intro found
      obtain ⟨v, apart, entry⟩ := found
      obtain ⟨same, user⟩ := listens.sound.once ⟨room, held, entry⟩ listens.member
      rw [user] at apart
      exact ⟨same, apart.symm⟩
    · intro own
      rw [own.1] at held
      exact ⟨c.user, own.2.symm, listens.member.lookup held⟩
  · intro q member
    obtain ⟨v, _, entry⟩ := mem_otherParticipants.mp member
    exact channel_iff listens ⟨room, held, entry⟩

theorem room_arrives (held : hub.rooms.lookup r = some room) (event : WsEvent) :
    updatesFor c.conn (broadcastToRoom hub.arcs room event) =
      if r = c.room then (updateOf event).toList else [] := by
  have once := toList_nodup (participants_injective listens.sound held)
  rw [← values_eq] at once
  rw [broadcastToRoom, updatesFor_map once]
  · congr 1
    rw [eq_iff_iff, mem_values]
    constructor
    · intro found
      obtain ⟨v, entry⟩ := found
      exact (listens.sound.once ⟨room, held, entry⟩ listens.member).1
    · intro own
      rw [own] at held
      exact ⟨c.user, listens.member.lookup held⟩
  · intro q member
    obtain ⟨v, entry⟩ := mem_values.mp member
    exact channel_iff listens ⟨room, held, entry⟩

end Channels

/-- Every item that is announced names an SSRC which its publisher does not have yet. -/
def NamesFresh (simulcast : Bool) : List UInt32 → List PublishTrackItem → Prop
  | _, [] => True
  | known, t :: items =>
    (kindOf t.kind ≠ none → (simulcast && t.rid == some "l") = false → t.ssrc ∉ known) ∧
      NamesFresh simulcast (if kindOf t.kind = none then known else t.ssrc :: known) items

instance decidableNamesFresh (simulcast : Bool) : ∀ known items,
    Decidable (NamesFresh simulcast known items)
  | _, [] => isTrue trivial
  | known, t :: items =>
    have := decidableNamesFresh simulcast
      (if kindOf t.kind = none then known else t.ssrc :: known) items
    inferInstanceAs (Decidable ((kindOf t.kind ≠ none → (simulcast && t.rid == some "l") = false →
      t.ssrc ∉ known) ∧ _))

section Publication
variable (room : Room) (u : UserId)

/-- What is registered anew is what the others are told of, as far as it is announced. -/
def Announces (old : List Track) (pub : Publishing) : Prop :=
  ∃ added, pub.state.tracks = old ++ added ∧ newlyShown room pub =
    (added.filter fun t => !hiddenLayer room.simulcastEnabled t).map (told u)

theorem publishTrack_announces {old : List Track} {pub : Publishing} (t : PublishTrackItem)
    (fresh : kindOf t.kind ≠ none → (room.simulcastEnabled && t.rid == some "l") = false →
      t.ssrc ∉ pub.state.tracks.map (·.ssrc))
    (before : Announces room u old pub) : Announces room u old (publishTrack u pub t) := by
  obtain ⟨added, tracks, shown⟩ := before
  rcases publishTrack_cases u pub t with
    ⟨_, same⟩ | ⟨known, state, info, listed, _, rid, kind⟩ | ⟨_, track, new, _, listed, _⟩
  · rw [same]
    exact ⟨added, tracks, shown⟩
  · -- A layer that is announced nowhere may be repeated.
    have hidden : (room.simulcastEnabled && t.rid == some "l") = true := by
      by_contra visible
      obtain ⟨track, member, same⟩ := List.any_eq_true.mp known
      exact fresh kind (by simpa using visible) (List.mem_map.mpr ⟨track, member, by simpa using same⟩)
    refine ⟨added, by rw [state, tracks], ?_⟩
    rw [newlyShown, listed, List.filter_append, List.filter_cons, rid, hidden]
    simpa [newlyShown] using shown
  · refine ⟨added ++ [track], by rw [new, tracks, List.append_assoc], ?_⟩
    rw [newlyShown, listed, List.filter_append, List.filter_append, List.map_append, ← shown]
    refine congrArg _ ?_
    have layer : (room.simulcastEnabled && (told u track).rid == some "l") =
        hiddenLayer room.simulcastEnabled track := rfl
    rw [List.filter_cons, List.filter_cons, layer]
    cases hiddenLayer room.simulcastEnabled track with
    | true => rfl
    | false => rfl

theorem publishTrack_known (pub : Publishing) (t : PublishTrackItem) (x : UInt32) :
    x ∈ (publishTrack u pub t).state.tracks.map (·.ssrc) ↔
      x ∈ if kindOf t.kind = none then pub.state.tracks.map (·.ssrc)
        else t.ssrc :: pub.state.tracks.map (·.ssrc) := by
  rcases publishTrack_cases u pub t with
    ⟨kind, same⟩ | ⟨known, state, info, _, _, _, kind⟩ | ⟨_, track, new, ssrc, _, kind⟩
  · rw [same, if_pos kind]
  · obtain ⟨track, member, same⟩ := List.any_eq_true.mp known
    have there : t.ssrc ∈ pub.state.tracks.map (·.ssrc) :=
      List.mem_map.mpr ⟨track, member, by simpa using same⟩
    rw [state, if_neg kind, List.mem_cons]
    constructor
    · exact .inr
    · intro either
      rcases either with same | old
      · rw [same]
        exact there
      · exact old
  · rw [new, if_neg kind, List.map_append, List.mem_append, List.map_singleton,
      List.mem_singleton, ssrc, List.mem_cons, or_comm]

theorem publishAll_announces (s : ParticipantState) (req : PublishTracksRequest)
    (fresh : NamesFresh room.simulcastEnabled (s.tracks.map (·.ssrc)) req.tracks) :
    Announces room u s.tracks (publishAll s u req) := by
  have all : ∀ (items : List PublishTrackItem) (pub : Publishing) (known : List UInt32),
      (∀ x, x ∈ known ↔ x ∈ pub.state.tracks.map (·.ssrc)) →
      NamesFresh room.simulcastEnabled known items → Announces room u s.tracks pub →
      Announces room u s.tracks (items.foldl (publishTrack u) pub) := by
    intro items
    induction items with
    | nil => exact fun _ _ _ _ before => before
    | cons t items ih =>
      intro pub known same fresh before
      obtain ⟨here, rest⟩ := fresh
      refine ih _ _ (fun x => ?_) rest (publishTrack_announces room u t ?_ before)
      · rw [publishTrack_known]
        split
        · exact same x
        · simp only [List.mem_cons, same]
      · intro kind shown member
        exact here kind shown ((same _).mpr member)
  have start : ∀ tagged : ParticipantState, tagged.tracks = s.tracks →
      Announces room u s.tracks
        (req.tracks.foldl (publishTrack u) ⟨tagged, s.tracks.length, 0, []⟩) := by
    intro tagged same
    apply all req.tracks ⟨tagged, s.tracks.length, 0, []⟩ _ (fun x => by rw [same]) fresh
    exact ⟨[], by simpa using same, rfl⟩
  apply start
  split
  · rfl
  · rfl

variable {room u} {c : Follower} {hub : RoomHub} {q : Ptr}

/-- The packet that tells of a publication. -/
def publishedTracks (hub : RoomHub) (room : Room) (u : UserId) (q : Ptr)
    (req : PublishTracksRequest) (draws : Ptr → NonzeroSsrc) : List TrackInfo :=
  (simulcastReplaceVideoSsrc room
    (mutate hub.heap q fun _ => (publishAll (hub.heap q) u req).state) draws
    (newlyShown room (publishAll (hub.heap q) u req))).2

/-- In the packet a new track has the key and the id under which the catalog lists it. -/
theorem relabel_told (heap : Heap) (seat : room.participants.lookup u = some q) (t : Track) :
    (trackKey (if room.simulcastEnabled then relabel room heap (told u t) else told u t) =
        (u, shownSsrc room.simulcastEnabled (heap q).simulcastVideoSsrc t)) ∧
      (if room.simulcastEnabled then relabel room heap (told u t) else told u t).trackId =
        t.trackId := by
  have found : room.getParticipant (told u t).userId = some q := seat
  cases kind : room.simulcastEnabled with
  | false => exact ⟨by simp [trackKey, told, announced, shownSsrc], rfl⟩
  | true =>
    by_cases video : t.kind = .video
    · have told_ : (told u t).kind = .video := video
      simp only [if_true, relabel, told_, found, trackKey, shownSsrc, video, and_self]
      exact ⟨rfl, rfl⟩
    · have told_ : ¬(told u t).kind = .video := video
      simp only [if_true, relabel, told_, if_false, trackKey, shownSsrc, video, and_false]
      exact ⟨rfl, rfl⟩

variable (req : PublishTracksRequest) (draws : Ptr → NonzeroSsrc)

theorem enlists_published (seat : room.participants.lookup u = some q) {added : List Track}
    (shown : newlyShown room (publishAll (hub.heap q) u req) =
      (added.filter fun t => !hiddenLayer room.simulcastEnabled t).map (told u))
    (key : UserId × UInt32) (id : String) :
    Enlists trackKey (·.trackId) (publishedTracks hub room u q req draws) key id ↔
      key.1 = u ∧ ∃ t ∈ added.filter fun t => !hiddenLayer room.simulcastEnabled t,
        shownSsrc room.simulcastEnabled (publishedHeap hub room u q req draws q).simulcastVideoSsrc t
          = key.2 ∧ t.trackId = id := by
  obtain ⟨packet, _⟩ := simulcastReplace_spec room draws
    (mutate hub.heap q fun _ => (publishAll (hub.heap q) u req).state)
    (newlyShown room (publishAll (hub.heap q) u req))
  have items : publishedTracks hub room u q req draws =
      (added.filter fun t => !hiddenLayer room.simulcastEnabled t).map fun t =>
        if room.simulcastEnabled then
          relabel room (publishedHeap hub room u q req draws) (told u t)
        else told u t := by
    rw [publishedTracks, packet, publishedHeap_eq, shown]
    split
    · rw [List.map_map]
      rfl
    · rfl
  obtain ⟨v, ssrc⟩ := key
  rw [items]
  simp only [Enlists, List.mem_map, exists_exists_and_eq_and]
  constructor
  · intro found
    obtain ⟨t, inside, same, name⟩ := found
    obtain ⟨label, own⟩ := relabel_told (publishedHeap hub room u q req draws) seat t
    rw [label, Prod.mk.injEq] at same
    rw [own] at name
    exact ⟨same.1.symm, t, inside, same.2, name⟩
  · intro found
    obtain ⟨user, t, inside, same, name⟩ := found
    obtain ⟨label, own⟩ := relabel_told (publishedHeap hub room u q req draws) seat t
    refine ⟨t, inside, ?_, own.trans name⟩
    rw [label, Prod.mk.injEq]
    exact ⟨user.symm, same⟩

/-- The catalog after a publication of fresh SSRCs by somebody else in the room. -/
theorem published_offered (sound : WellFormed hub) (aligned : Aligned hub) (here : c.Here hub)
    (held : hub.rooms.lookup c.room = some room) (seat : room.participants.lookup u = some q)
    (other : u ≠ c.user)
    (fresh : NamesFresh c.simulcast ((hub.heap q).tracks.map (·.ssrc)) req.tracks)
    (key : UserId × UInt32) (id : String) :
    c.Offered { hub with heap := publishedHeap hub room u q req draws } key id ↔
      c.Offered hub key id ∨
        Enlists trackKey (·.trackId) (publishedTracks hub room u q req draws) key id := by
  have kind := here.kind held
  rw [← kind] at fresh
  obtain ⟨added, tracks, shown⟩ := publishAll_announces room u (hub.heap q) req fresh
  have member : Member hub c.room u q := ⟨room, held, seat⟩
  rw [enlists_published req draws seat shown, kind]
  by_cases user : key.1 = u
  · subst user
    have after : Member { hub with heap := publishedHeap hub room key.1 q req draws } c.room key.1 q :=
      member
    -- The publisher's old tracks are offered as before, the new ones come after them.
    have old := @offers_kept c hub aligned here key.1 q member
      { publishedHeap hub room key.1 q req draws q with tracks := (hub.heap q).tracks } rfl
      ((publishedHeap_cases req draws seat q).2)
    have split : visible c.simulcast (publishedHeap hub room key.1 q req draws q) =
        visible c.simulcast (hub.heap q) ++ added.filter fun t => !hiddenLayer c.simulcast t := by
      rw [visible, published_tracks, tracks, List.filter_append, visible]
    rw [offered_own after, offered_own member, ← old, enlists_offers, enlists_offers, split]
    simp only [true_and, List.mem_append, or_and_right, exists_or, other, ne_eq, not_false_eq_true]
    rfl
  · have same : ∀ {p}, Member hub c.room key.1 p →
        publishedHeap hub room u q req draws p = hub.heap p := by
      intro p there
      apply publishedHeap_other req draws seat
      intro own
      rw [own] at there
      exact user (sound.once there member).2
    constructor
    · intro offered
      obtain ⟨apart, p, there, listed⟩ := offered
      have there : Member hub c.room key.1 p := there
      refine .inl ⟨apart, p, there, ?_⟩
      rw [← same there]
      exact listed
    · intro either
      obtain ⟨apart, p, there, listed⟩ := either.resolve_right fun new => user new.1
      refine ⟨apart, p, there, ?_⟩
      dsimp only
      rw [same there]
      exact listed

theorem mirrors_refl (c : Follower) (hub : RoomHub) : c.Mirrors hub hub [] := fun _ rep => rep

theorem announced_mirrors (listens : c.Listens hub) (aligned : Aligned hub) (here : c.Here hub)
    {r : RoomId} (held : hub.rooms.lookup r = some room)
    (seat : room.participants.lookup u = some q)
    (keyed : c.Keyed { hub with heap := publishedHeap hub room u q req draws })
    (fresh : r = c.room → u ≠ c.user →
      NamesFresh c.simulcast ((hub.heap q).tracks.map (·.ssrc)) req.tracks) :
    c.Mirrors hub { hub with heap := publishedHeap hub room u q req draws }
      (if (publishedTracks hub room u q req draws).isEmpty then []
        else broadcastToOthers hub.arcs room u
          (.tracksUpdate "add" (publishedTracks hub room u q req draws))) := by
  have arrives := others_arrives listens held u
    (.tracksUpdate "add" (publishedTracks hub room u q req draws))
  by_cases own : r = c.room ∧ u ≠ c.user
  · obtain ⟨same, other⟩ := own
    subst same
    rw [if_pos ⟨rfl, other⟩] at arrives
    have after := published_offered req draws listens.sound aligned here held seat other (fresh rfl other)
    intro m rep
    split
    · -- An empty packet is not sent, and would change nothing.
      rename_i empty
      rw [List.isEmpty_iff] at empty
      refine rep.congr fun key id => ?_
      rw [after, empty]
      simp [Enlists]
    · rw [arrives]
      refine (rep.add (publishedTracks hub room u q req draws) ?_).congr after
      intro key id id' left right
      exact keyed.oneValue key id id' ((after key id).mpr left) ((after key id').mpr right)
  · rw [if_neg own] at arrives
    have apart : ∀ {v p}, v ≠ c.user → Member hub c.room v p →
        publishedHeap hub room u q req draws p = hub.heap p := by
      intro v p other there
      apply publishedHeap_other req draws seat
      intro same
      rw [same] at there
      obtain ⟨place, user⟩ := listens.sound.once there ⟨room, held, seat⟩
      rw [user] at other
      exact own ⟨place.symm, other⟩
    have calm : Calm c hub { hub with heap := publishedHeap hub room u q req draws } :=
      ⟨fun member => member, fun member => .inl member,
        fun other there => congrArg _ (apart other there),
        fun other there _ => congrArg _ (apart other there)⟩
    apply calm.mirrors aligned here
    split
    · rfl
    · exact arrives

theorem publish_mirrors (listens : c.Listens hub) (aligned : Aligned hub) (here : c.Here hub)
    (session : Session) (pid : Nat) (d : Option PublishTracksRequest)
    (keyed : c.Keyed { hub with heap := (handlePublishTracks hub session pid u d draws).heap })
    (fresh : ∀ req q, d = some req → session.currentRoom = some c.room → u ≠ c.user →
      Member hub c.room u q →
        NamesFresh c.simulcast ((hub.heap q).tracks.map (·.ssrc)) req.tracks) :
    c.Mirrors hub { hub with heap := (handlePublishTracks hub session pid u d draws).heap }
      (handlePublishTracks hub session pid u d draws).sent := by
  revert keyed
  unfold handlePublishTracks
  split
  · exact fun _ => mirrors_refl c hub
  rename_i req
  split
  · exact fun _ => mirrors_refl c hub
  · rename_i room q placed
    intro keyed
    obtain ⟨r, at_, held, seat⟩ := inRoom_ok placed
    refine announced_mirrors req draws listens aligned here held seat keyed fun same other => ?_
    subst same
    exact fresh req q rfl at_ other ⟨room, held, seat⟩

end Publication
section Departure
variable {c : Follower} {hub next : RoomHub} {r : RoomId} {u : UserId}

/-- A removal that knows the virtual SSRC names the keys of the catalog. -/
theorem removed_keys {simulcast : Bool} {s : ParticipantState} {vssrc : UInt32}
    (known : simulcast = true → ∀ t ∈ visible simulcast s, t.kind = .video →
      vssrc = s.simulcastVideoSsrc ∧ vssrc ≠ 0) :
    (buildRemoveTracks s.tracks u simulcast vssrc).map trackKey =
      (offers simulcast u s).map trackKey := by
  rw [buildRemoveTracks, offers, List.map_map, List.map_map, List.map_map]
  refine List.map_congr_left fun t inside => ?_
  by_cases video : simulcast = true ∧ t.kind = .video
  · obtain ⟨same, drawn⟩ := known video.1 t inside video.2
    simp [replaceDirect, shown, shownSsrc, announced, trackKey, video, ← same, drawn]
  · have plain : replaceDirect simulcast vssrc (announced u t) = announced u t := by
      rw [replaceDirect, if_neg]
      intro replaced
      simp only [Bool.and_eq_true, beq_iff_eq] at replaced
      exact video ⟨replaced.1.1, replaced.2⟩
    rw [Function.comp_apply, Function.comp_apply, Function.comp_apply, plain, shown, shownSsrc,
      if_neg video]
    rfl

/-- The tracks of one more participant are taken away. -/
theorem removal_represents {kept : UserId → Prop} {m : Table (UserId × UInt32) String}
    {removed : List TrackInfo} {q : Ptr} (member : Member hub c.room u q)
    (keys : removed.map trackKey = (offers c.simulcast u (hub.heap q)).map trackKey)
    (rep : Represents m fun key id => c.Offered hub key id ∧ kept key.1) :
    Represents (update trackKey (·.trackId) m (.remove removed)) fun key id =>
      c.Offered hub key id ∧ kept key.1 ∧ key.1 ≠ u := by
  refine (rep.remove removed).congr fun key id => ?_
  have named : Names trackKey removed key ↔
      ∃ info ∈ offers c.simulcast u (hub.heap q), trackKey info = key := by
    rw [← List.mem_map, ← keys, List.mem_map]
    rfl
  rw [named, and_assoc]
  refine and_congr_right fun offered => and_congr_right fun _ => not_congr ?_
  constructor
  · intro user
    rw [← user] at member ⊢
    obtain ⟨_, info, inside, same, _⟩ := (offered_own member).mp offered
    exact ⟨info, inside, same⟩
  · intro found
    obtain ⟨info, inside, same⟩ := found
    exact (enlists_offers.mp ⟨info, inside, same, rfl⟩).1

/-- The packets of a departure, for a channel that the broadcast reaches or not. -/
theorem removal_replay {send : WsEvent → Outbox} {reached : Prop} [Decidable reached]
    (arrives : ∀ event, updatesFor c.conn (send event) =
      if reached then (updateOf event).toList else [])
    (removed : List TrackInfo) (m : Table (UserId × UInt32) String) :
    replay trackKey (·.trackId) m (updatesFor c.conn (removalEvents send r u removed)) =
      if reached then update trackKey (·.trackId) m (.remove removed) else m := by
  rw [removalEvents, updatesFor_append, arrives (.roomEvent _ _ _)]
  have left : (if reached then (updateOf (.roomEvent "participant_left" r u)).toList else []) =
      [] := by
    split <;> rfl
  rw [left, List.append_nil]
  split
  · rename_i empty
    rw [List.isEmpty_iff.mp empty]
    split <;> rfl
  · rw [arrives]
    split <;> rfl

/-- Somebody is gone from a room, and those who are left are told. -/
theorem departure_mirrors (aligned : Aligned hub) (here : c.Here hub)
    (removes : Removes hub next r u) (faded : AllFaded hub.heap next.heap) {out : Outbox}
    (removed : List TrackInfo)
    (told : ∀ m, replay trackKey (·.trackId) m (updatesFor c.conn out) =
      if r = c.room then update trackKey (·.trackId) m (.remove removed) else m)
    (keys : r = c.room → ∀ q, Member hub c.room u q →
      removed.map trackKey = (offers c.simulcast u (hub.heap q)).map trackKey)
    (absent : r = c.room → (∀ q, ¬ Member hub c.room u q) → removed = []) :
    c.Mirrors hub next out := by
  intro m rep
  rw [told]
  have kept : ∀ {v q}, Member hub c.room v q →
      offers c.simulcast v (next.heap q) = offers c.simulcast v (hub.heap q) := fun there =>
    offers_kept aligned here there (faded _).tracks fun _ => (faded _).vssrc
  by_cases same : r = c.room
  · subst same
    have after : ∀ key id, c.Offered next key id ↔ c.Offered hub key id ∧ key.1 ≠ u := by
      intro key id
      constructor
      · intro offered
        obtain ⟨other, q, there, listed⟩ := offered
        obtain ⟨before, apart⟩ := (removes.member _ _ _).mp there
        rw [kept before] at listed
        exact ⟨⟨other, q, before, listed⟩, fun user => apart ⟨rfl, user⟩⟩
      · intro both
        obtain ⟨⟨other, q, before, listed⟩, apart⟩ := both
        refine ⟨other, q, (removes.member _ _ _).mpr ⟨before, fun own => apart own.2⟩, ?_⟩
        rw [kept before]
        exact listed
    rw [if_pos rfl]
    by_cases present : ∃ q, Member hub c.room u q
    · obtain ⟨q, member⟩ := present
      have all : Represents m fun key id => c.Offered hub key id ∧ True :=
        rep.congr fun key id => and_iff_left trivial
      refine (@removal_represents c hub u (fun _ => True) m removed q member
        (keys rfl q member) all).congr fun key id => ?_
      rw [after]
      simp
    · rw [not_exists] at present
      rw [absent rfl present]
      refine rep.congr fun key id => ?_
      rw [after, and_iff_left_iff_imp]
      intro offered user
      obtain ⟨_, q, there, _⟩ := offered
      rw [user] at there
      exact present q there
  · rw [if_neg same]
    have members : ∀ v q, Member next c.room v q ↔ Member hub c.room v q := by
      intro v q
      rw [removes.member, and_iff_left]
      exact fun own => same own.1.symm
    exact rep.congr ((Calm.of_settled members (.of_faded faded)).offered aligned here)

theorem departFloor_untold (room : Room) (o : Oracle) :
    Untold (departFloor hub r room u o).2 := by
  unfold departFloor
  dsimp only
  by_cases ptt : room.mode = .ptt
  · rw [if_pos ptt]
    exact floorLeave_untold hub.arcs room _ o.clk u o.grantMs
  · rw [if_neg ptt]
    exact untold_nil

theorem departOrStay_untold (o : Oracle) : Untold (departOrStay hub r u o).2 := by
  unfold departOrStay
  split
  · exact departFloor_untold _ o
  · exact untold_nil

/-- The list that a leave or a cleanup sends, from a state that is as good as the one before. -/
theorem departing_keys (aligned : Aligned hub) (here : c.Here hub) {q : Ptr}
    (member : Member hub c.room u q) {s : ParticipantState} (faded : Faded (hub.heap q) s) :
    (buildRemoveTracks s.tracks u c.simulcast s.simulcastVideoSsrc).map trackKey =
      (offers c.simulcast u (hub.heap q)).map trackKey := by
  rw [faded.tracks, faded.vssrc]
  apply removed_keys
  intro simulcast t inside video
  have resident := here.resident_of member
  rw [simulcast] at resident inside
  exact ⟨rfl, aligned.drawn resident inside video⟩

/-- The packets of a leave. The participant `p` is no longer in the room. -/
theorem announceLeave_replay (listens : c.Listens hub) (p : Ptr)
    (kind : ∀ room, hub.rooms.lookup c.room = some room → room.simulcastEnabled = c.simulcast)
    (m : Table (UserId × UInt32) String) :
    replay trackKey (·.trackId) m (updatesFor c.conn (announceLeave hub r u p).2) =
      if r = c.room then update trackKey (·.trackId) m (.remove (buildRemoveTracks
        (hub.heap p).tracks u c.simulcast (hub.heap p).simulcastVideoSsrc)) else m := by
  unfold announceLeave
  split
  · rename_i room held
    rw [removal_replay (room_arrives listens held)]
    by_cases same : r = c.room
    · rw [same] at held
      rw [kind room held]
    · rw [if_neg same, if_neg same]
  · rename_i absent
    rw [if_neg]
    · rfl
    · intro same
      obtain ⟨room, held, _⟩ := listens.member
      rw [same, held] at absent
      simp at absent

/-- A leave of somebody who is not there. -/
theorem absent_mirrors (aligned : Aligned hub) (here : c.Here hub) (removes : Removes hub next r u)
    (faded : AllFaded hub.heap next.heap) {out : Outbox} (quiet : Untold out)
    (absent : ∀ q, ¬ Member hub r u q) : c.Mirrors hub next out := by
  refine departure_mirrors aligned here removes faded [] (fun m => ?_) ?_ fun _ _ => rfl
  · rw [updatesFor_untold quiet]
    split <;> rfl
  · intro same q member
    rw [← same] at member
    exact absurd member (absent q)

theorem leave_mirrors (listens : c.Listens hub) (aligned : Aligned hub) (here : c.Here hub)
    (session : Session) (pid : Nat) (roomId : Option RoomId) (o : Oracle)
    (stays : c.Here (handleRoomLeave hub session pid u roomId o).hub) :
    c.Mirrors hub (handleRoomLeave hub session pid u roomId o).hub
      (handleRoomLeave hub session pid u roomId o).sent := by
  cases roomId with
  | none => exact mirrors_refl c hub
  | some r =>
    have removes := (@handleRoomLeave_cases hub session pid u r o).1
    have faded := handleRoomLeave_faded hub o session pid u (some r)
    have quiet := @departOrStay_untold hub r u o
    have told := @departOrStay_same hub r u o
    cases result : (departOrStay hub r u o).1.removeParticipant r u with
    | error e =>
      have out : (handleRoomLeave hub session pid u (some r) o).sent =
          (departOrStay hub r u o).2 := by
        simp only [handleRoomLeave, result]
      rw [← out] at quiet
      apply absent_mirrors aligned here removes faded quiet
      intro q member
      exact absent_of_error result q ((told.member_iff r u q).mpr member)
    | ok done =>
      obtain ⟨removed, p⟩ := done
      obtain ⟨_, heap, _, was⟩ := removeParticipant_fixed result
      have member : Member hub r u p := (told.member_iff r u p).mp was
      obtain ⟨after, out⟩ : (handleRoomLeave hub session pid u (some r) o).hub =
            (announceLeave removed r u p).1 ∧
          (handleRoomLeave hub session pid u (some r) o).sent =
            (departOrStay hub r u o).2 ++ (announceLeave removed r u p).2 := by
        simp only [handleRoomLeave, result, and_self]
      rw [after] at stays
      have lookups : (announceLeave removed r u p).1.rooms = removed.rooms := by
        unfold announceLeave
        split <;> rfl
      have keeps : Keeps hub removed := (Keeps.of_same told).trans (removes_of_ok result).keeps
      have left : c.Listens removed :=
        listens.of_keeps keeps (removeParticipant_wellFormed result (told.wellFormed listens.sound))
          ((announceLeave_same r u p).member stays.member)
      have departed : Faded (hub.heap p) (removed.heap p) := by
        rw [heap]
        exact departOrStay_faded hub o r u p
      refine departure_mirrors aligned here removes faded (buildRemoveTracks (removed.heap p).tracks
        u c.simulcast (removed.heap p).simulcastVideoSsrc) (fun m => ?_) ?_ ?_
      · rw [out, updatesFor_append, replay_append, updatesFor_untold quiet]
        apply announceLeave_replay left
        intro room held
        rw [← lookups] at held
        exact stays.kind held
      · intro same q there
        rw [← same] at there
        obtain rfl := member_unique there member
        rw [same] at there
        exact departing_keys aligned here there departed
      · intro same absent
        rw [← same] at absent
        exact absurd member (absent p)

/-- What a cleanup tells a room, with and without the participant there. -/
theorem cleanupOrStay_sent {room : Room} (held : hub.rooms.lookup r = some room) (o : Oracle) :
    (∀ p, room.participants.lookup u = some p → (cleanupOrStay hub r u o).2 =
      (departFloor hub r room u o).2 ++ removalEvents (broadcastToOthers hub.arcs room u) r u
        (buildRemoveTracks (hub.heap p).tracks u room.simulcastEnabled
          (hub.heap p).simulcastVideoSsrc)) ∧
    (room.participants.lookup u = none → (cleanupOrStay hub r u o).2 =
      (departFloor hub r room u o).2 ++
        broadcastToOthers hub.arcs room u (.roomEvent "participant_left" r u)) := by
  constructor
  · intro p seat
    have somebody : room.getParticipant u = some p := seat
    simp only [cleanupOrStay, held, cleanupRoom, somebody]
  · intro absent
    have nobody : room.getParticipant u = none := absent
    simp only [cleanupOrStay, held, cleanupRoom, nobody]
    rfl

theorem cleanup_mirrors (listens : c.Listens hub) (aligned : Aligned hub) (here : c.Here hub)
    (session : Session) (o : Oracle)
    (stays : Member (cleanup hub session o).1 c.room c.user c.ptr) :
    c.Mirrors hub (cleanup hub session o).1 (cleanup hub session o).2 := by
  have faded := cleanup_faded hub o session
  revert faded stays
  unfold cleanup
  split
  · rename_i r u _ _
    have removes := (removeOrLog_removes (cleanupOrStay hub r u o) r u).before
      (cleanupOrStay_same r u o)
    have sent : (removeOrLog (cleanupOrStay hub r u o) r u).2 = (cleanupOrStay hub r u o).2 := by
      unfold removeOrLog
      split <;> rfl
    intro stays faded
    have apart : r = c.room → u ≠ c.user := by
      intro place user
      obtain ⟨_, other⟩ := (removes.member _ _ _).mp stays
      exact other ⟨place.symm, user.symm⟩
    rw [sent]
    cases held : hub.rooms.lookup r with
    | none =>
      have out : (cleanupOrStay hub r u o).2 = [] := by simp only [cleanupOrStay, held]
      rw [out]
      apply absent_mirrors aligned here removes faded untold_nil
      intro q member
      obtain ⟨room, held', _⟩ := member
      rw [held] at held'
      simp at held'
    | some room =>
      have quiet := @departFloor_untold hub r u room o
      obtain ⟨present, absent⟩ := @cleanupOrStay_sent hub r u room held o
      cases seat : room.participants.lookup u with
      | none =>
        rw [absent seat]
        apply absent_mirrors aligned here removes faded (quiet.append (untold_others u rfl))
        intro q member
        have entry := member.lookup held
        rw [seat] at entry
        simp at entry
      | some p =>
        have member : Member hub r u p := ⟨room, held, seat⟩
        refine departure_mirrors aligned here removes faded (buildRemoveTracks (hub.heap p).tracks
          u room.simulcastEnabled (hub.heap p).simulcastVideoSsrc) (fun m => ?_) ?_ ?_
        · rw [present p seat, updatesFor_append, replay_append, updatesFor_untold quiet]
          refine (removal_replay (others_arrives listens held u) _ m).trans ?_
          by_cases place : r = c.room
          · rw [if_pos ⟨place, apart place⟩, if_pos place]
          · rw [if_neg fun both => place both.1, if_neg place]
        · intro same q there
          rw [← same] at there
          obtain rfl := member_unique there member
          rw [same] at there held
          rw [here.kind held]
          exact departing_keys aligned here there (AllFaded.refl hub.heap q)
        · intro same gone
          rw [← same] at gone
          exact absurd member (gone p)
  · exact fun _ _ => mirrors_refl c hub

end Departure
/-- What a reaper tick has noted: whoever is gone, and nobody else. -/
structure Reaped (hub : RoomHub) (state : RoomHub × List (RoomId × Ptr)) : Prop where
  keeps : Keeps hub state.1
  heap : state.1.heap = hub.heap
  sound : WellFormed state.1
  listed : ∀ z ∈ state.2, ∃ u, Member hub z.1 u z.2 ∧ ¬ Member state.1 z.1 u z.2
  gone : ∀ {r u q}, Member hub r u q → Member state.1 r u q ∨ (r, q) ∈ state.2

theorem reapZombies_reaped {hub : RoomHub} (sound : WellFormed hub) (nowMs timeoutMs : Nat) :
    Reaped hub (hub.reapZombies nowMs timeoutMs) := by
  apply reapZombies_invariant
  · intro state r u next p reaped removed
    obtain ⟨_, heap, _, member⟩ := removeParticipant_fixed removed
    have removes := removes_of_ok removed
    refine ⟨reaped.keeps.trans removes.keeps, heap.trans reaped.heap,
      removeParticipant_wellFormed removed reaped.sound, ?_, ?_⟩
    · intro z listed
      rcases List.mem_append.mp listed with before | now
      · obtain ⟨v, was, absent⟩ := reaped.listed z before
        exact ⟨v, was, fun there => absent (removes.keeps.member there)⟩
      · rw [List.mem_singleton.mp now]
        refine ⟨u, reaped.keeps.member member, fun there => ?_⟩
        exact ((removes.member r u p).mp there).2 ⟨rfl, rfl⟩
    · intro r' v q was
      rcases reaped.gone was with there | noted
      · by_cases same : r' = r ∧ v = u
        · obtain ⟨place, user⟩ := same
          rw [place, user] at there
          rw [place, member_unique there member]
          exact .inr (List.mem_append_right _ List.mem_cons_self)
        · exact .inl ((removes.member r' v q).mpr ⟨there, same⟩)
      · exact .inr (List.mem_append_left _ noted)
  · exact ⟨.refl hub, rfl, sound, by simp, .inl⟩

section Reaper
variable {c : Follower} {hub : RoomHub}

/-- The hub while the rooms are told of the participants that were reaped. -/
structure Telling (c : Follower) (hub after : RoomHub) : Prop where
  listens : c.Listens after
  kind : ∀ room, after.rooms.lookup c.room = some room → room.simulcastEnabled = c.simulcast
  arcs : after.arcs = hub.arcs
  tracks : Shows (·.tracks) hub.heap after.heap

theorem announceReaped_telling {state : RoomHub × Outbox} (telling : Telling c hub state.1)
    (z : RoomId × Ptr) : Telling c hub (announceReaped state z).1 := by
  have next : (announceReaped state z).1 =
      { state.1 with heap := mutate state.1.heap z.2 (·.cancelPliBurst) } := by
    unfold announceReaped
    simp only
    split <;> rfl
  have cancelled : Shows (·.tracks) state.1.heap (mutate state.1.heap z.2 (·.cancelPliBurst)) :=
    .mutate rfl
  rw [next]
  obtain ⟨sound, member, channel, alone⟩ := telling.listens
  exact ⟨⟨⟨sound.allocated, sound.once, sound.ufrags⟩, member, channel, alone⟩, telling.kind,
    telling.arcs, telling.tracks.trans cancelled⟩

theorem announceReaped_replay {state : RoomHub × Outbox} (telling : Telling c hub state.1)
    (z : RoomId × Ptr) (m : Table (UserId × UInt32) String) :
    replay trackKey (·.trackId) m (updatesFor c.conn (announceReaped state z).2) =
      if z.1 = c.room then
        update trackKey (·.trackId) (replay trackKey (·.trackId) m (updatesFor c.conn state.2))
          (.remove (buildRemoveTracks (hub.heap z.2).tracks (hub.arcs z.2).userId c.simulcast 0))
      else replay trackKey (·.trackId) m (updatesFor c.conn state.2) := by
  have tracks : (state.1.heap z.2).tracks = (hub.heap z.2).tracks := telling.tracks z.2
  unfold announceReaped
  simp only
  split
  · rename_i room held
    rw [updatesFor_append, replay_append, removal_replay (room_arrives telling.listens held),
      telling.arcs, tracks]
    by_cases same : z.1 = c.room
    · rw [same] at held
      rw [telling.kind room held]
    · rw [if_neg same, if_neg same]
  · rename_i absent
    rw [if_neg]
    intro same
    obtain ⟨room, held, _⟩ := telling.listens.member
    rw [same, held] at absent
    simp at absent

/-- One removal after the other; the users of the earlier ones are gone already. -/
theorem reaped_represents (reaped : List (RoomId × Ptr))
    (keys : ∀ z ∈ reaped, z.1 = c.room → Member hub c.room (hub.arcs z.2).userId z.2 ∧
      (buildRemoveTracks (hub.heap z.2).tracks (hub.arcs z.2).userId c.simulcast 0).map trackKey =
        (offers c.simulcast (hub.arcs z.2).userId (hub.heap z.2)).map trackKey)
    {state : RoomHub × Outbox} (telling : Telling c hub state.1) {kept : UserId → Prop}
    {m : Table (UserId × UInt32) String}
    (rep : Represents (replay trackKey (·.trackId) m (updatesFor c.conn state.2)) fun key id =>
      c.Offered hub key id ∧ kept key.1) :
    Represents (replay trackKey (·.trackId) m
        (updatesFor c.conn (reaped.foldl announceReaped state).2)) fun key id =>
      c.Offered hub key id ∧ kept key.1 ∧
        ∀ z ∈ reaped, z.1 = c.room → key.1 ≠ (hub.arcs z.2).userId := by
  induction reaped generalizing state kept with
  | nil => exact rep.congr fun key id => by simp
  | cons z reaped ih =>
    have next := announceReaped_replay telling z m
    have rest := fun z' (member : z' ∈ reaped) => keys z' (List.mem_cons_of_mem z member)
    rw [List.foldl_cons]
    by_cases here : z.1 = c.room
    · obtain ⟨member, same⟩ := keys z List.mem_cons_self here
      rw [if_pos here] at next
      have gone := removal_represents member same rep
      rw [← next] at gone
      refine (@ih rest _ (announceReaped_telling telling z)
        (fun v => kept v ∧ v ≠ (hub.arcs z.2).userId) gone).congr fun key id => ?_
      simp only [List.mem_cons, forall_eq_or_imp, here, true_implies, and_assoc]
    · rw [if_neg here] at next
      rw [← next] at rep
      refine (ih rest (announceReaped_telling telling z) rep).congr fun key id => ?_
      simp only [List.mem_cons, forall_eq_or_imp, here, false_implies, true_and]

theorem runZombieReaper_rooms (hub : RoomHub) (nowMs : Nat) :
    (runZombieReaper hub nowMs).1.rooms = (hub.reapZombies nowMs zombieTimeoutMs).1.rooms := by
  rw [runZombieReaper, announceReaped_hub]

theorem runZombieReaper_member (hub : RoomHub) (nowMs : Nat) (r : RoomId) (u : UserId) (q : Ptr) :
    Member (runZombieReaper hub nowMs).1 r u q ↔
      Member (hub.reapZombies nowMs zombieTimeoutMs).1 r u q := by
  rw [Member, runZombieReaper_rooms]
  rfl

/-- Without a virtual SSRC the reaper still names the tracks of whoever shows no video. -/
theorem reaped_keys (seated : Seated hub) (sound : WellFormed hub) (nowMs : Nat)
    (spared : c.simulcast = true → ∀ u q, Member hub c.room u q →
      Stale hub nowMs zombieTimeoutMs q → ¬ ShowsVideo true (hub.heap q))
    {z : RoomId × Ptr} (listed : z ∈ (hub.reapZombies nowMs zombieTimeoutMs).2)
    (place : z.1 = c.room) : Member hub c.room (hub.arcs z.2).userId z.2 ∧
      (buildRemoveTracks (hub.heap z.2).tracks (hub.arcs z.2).userId c.simulcast 0).map trackKey =
        (offers c.simulcast (hub.arcs z.2).userId (hub.heap z.2)).map trackKey := by
  obtain ⟨u, was, absent⟩ := (reapZombies_reaped sound nowMs zombieTimeoutMs).listed z listed
  rw [place] at was absent
  have stale : Stale hub nowMs zombieTimeoutMs z.2 := by
    by_contra fresh
    exact absent ((reapZombies_member hub nowMs zombieTimeoutMs c.room u z.2).mpr ⟨was, fresh⟩)
  rw [seated.named was]
  refine ⟨was, removed_keys fun simulcast t inside video => ?_⟩
  rw [simulcast] at inside
  exact absurd ⟨t, inside, video⟩ (spared simulcast u z.2 was stale)

/-- What the room offers after a tick: what it offered before, less the reaped. -/
theorem reaper_offered (seated : Seated hub) (sound : WellFormed hub) (aligned : Aligned hub)
    (here : c.Here hub) (nowMs : Nat) (key : UserId × UInt32) (id : String) :
    c.Offered (runZombieReaper hub nowMs).1 key id ↔ c.Offered hub key id ∧
      ∀ z ∈ (hub.reapZombies nowMs zombieTimeoutMs).2, z.1 = c.room →
        key.1 ≠ (hub.arcs z.2).userId := by
  have reaped := reapZombies_reaped sound nowMs zombieTimeoutMs
  have faded := runZombieReaper_faded hub nowMs
  have kept : ∀ {u q}, Member hub c.room u q →
      offers c.simulcast u ((runZombieReaper hub nowMs).1.heap q) =
        offers c.simulcast u (hub.heap q) := fun {_ q} before =>
    offers_kept aligned here before (faded q).tracks fun _ => (faded q).vssrc
  constructor
  · intro offered
    obtain ⟨other, q, there, listed⟩ := offered
    rw [runZombieReaper_member] at there
    have before := reaped.keeps.member there
    rw [kept before] at listed
    refine ⟨⟨other, q, before, listed⟩, fun z noted place user => ?_⟩
    obtain ⟨u, was, absent⟩ := reaped.listed z noted
    rw [place] at was absent
    rw [user, seated.named was] at there before
    rw [member_unique was before] at absent
    exact absent there
  · intro remains
    obtain ⟨⟨other, q, before, listed⟩, spared⟩ := remains
    rcases reaped.gone before with there | noted
    · refine ⟨other, q, (runZombieReaper_member _ _ _ _ _).mpr there, ?_⟩
      rw [kept before]
      exact listed
    · exact absurd (seated.named before).symm (spared (c.room, q) noted rfl)

theorem reaper_mirrors (seated : Seated hub) (listens : c.Listens hub) (aligned : Aligned hub)
    (here : c.Here hub) (nowMs : Nat) (stays : c.Here (runZombieReaper hub nowMs).1)
    (spared : c.simulcast = true → ∀ u q, Member hub c.room u q →
      Stale hub nowMs zombieTimeoutMs q → ¬ ShowsVideo true (hub.heap q)) :
    c.Mirrors hub (runZombieReaper hub nowMs).1 (runZombieReaper hub nowMs).2 := by
  have reaped := reapZombies_reaped listens.sound nowMs zombieTimeoutMs
  have telling : Telling c hub (hub.reapZombies nowMs zombieTimeoutMs).1 := by
    have member := (runZombieReaper_member _ _ _ _ _).mp stays.member
    refine ⟨listens.of_keeps reaped.keeps reaped.sound member, ?_,
      reaped.keeps.arcs, fun q => by rw [reaped.heap]⟩
    intro room held
    rw [← runZombieReaper_rooms] at held
    exact stays.kind held
  intro m rep
  have start : Represents (replay trackKey (·.trackId) m (updatesFor c.conn [])) fun key id =>
      c.Offered hub key id ∧ True := rep.congr fun key id => and_iff_left trivial
  refine (@reaped_represents c hub _ (fun _ => reaped_keys seated listens.sound nowMs spared)
    (_, []) telling (fun _ => True) m start).congr fun key id => ?_
  rw [reaper_offered seated listens.sound aligned here, true_and]

end Reaper
end TrackMirror
