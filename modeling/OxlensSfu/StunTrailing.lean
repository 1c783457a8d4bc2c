import OxlensSfu.StunLatch

/-
Two datagrams that agree up to their first MESSAGE-INTEGRITY attribute. The verifier
covers that prefix, while attribute lookup goes on behind it.
-/
namespace StunTrailing
open WireBytes Participants RoomHubs StunMessages StunLatch

def declared (buf : Bytes) : Nat := headerSize + (u16At buf 2).toNat

def attributeLength (buf : Bytes) (offset : Nat) : Nat := (u16At buf (offset + 2)).toNat

def attributeAt (buf : Bytes) (offset : Nat) : StunAttribute :=
  ⟨u16At buf offset, slice buf (offset + 4) (offset + 4 + attributeLength buf offset)⟩

/-- From `offset` the parser reads the attributes `before`, then at `o` the first
    MESSAGE-INTEGRITY. -/
inductive Signed (buf : Bytes) (total : Nat) : Nat → List StunAttribute → Nat → Prop where
  | here {o : Nat} (fits : o + 4 + attributeLength buf o ≤ total)
      (integrity : u16At buf o = attrMessageIntegrity) : Signed buf total o [] o
  | next {offset o : Nat} {before : List StunAttribute}
      (fits : offset + 4 + attributeLength buf offset ≤ total)
      (other : u16At buf offset ≠ attrMessageIntegrity)
      (rest : Signed buf total (offset + 4 + padded (attributeLength buf offset)) before o) :
      Signed buf total offset (attributeAt buf offset :: before) o

theorem padded_bound (n : Nat) : n ≤ padded n := by
  simp only [padded]
  omega

section Reading
variable {buf : Bytes} {total : Nat}

theorem signed_inside {offset o : Nat} {before : List StunAttribute}
    (signed : Signed buf total offset before o) :
    offset ≤ o ∧ o + 4 + attributeLength buf o ≤ total := by
  induction signed with
  | here fits _ => exact ⟨Nat.le_refl _, fits⟩
  | next _ _ _ ih => exact ⟨by omega, ih.2⟩

theorem signed_of_found {fuel offset : Nat} {a : StunAttribute}
    (found : (parseAttributes buf total fuel offset).find? (·.attrType == attrMessageIntegrity) =
      some a) :
    ∃ before o, Signed buf total offset before o ∧ a = attributeAt buf o := by
  induction fuel generalizing offset with
  | zero => simp [parseAttributes] at found
  | succ fuel ih =>
    simp only [parseAttributes] at found
    split at found
    · split at found
      · simp at found
      · rename_i room
        by_cases integrity : u16At buf offset = attrMessageIntegrity
        · rw [List.find?_cons_of_pos (by simpa using integrity), Option.some.injEq] at found
          exact ⟨[], offset, .here (Nat.le_of_not_lt room) integrity, found.symm⟩
        · rw [List.find?_cons_of_neg (by simpa using integrity)] at found
          obtain ⟨before, o, signed, same⟩ := ih found
          exact ⟨_, o, .next (Nat.le_of_not_lt room) integrity signed, same⟩
    · simp at found

theorem parse_signed {offset o : Nat} {before : List StunAttribute}
    (signed : Signed buf total offset before o) {fuel : Nat} (enough : total ≤ fuel + offset) :
    ∃ after, parseAttributes buf total fuel offset = before ++ attributeAt buf o :: after := by
  induction signed generalizing fuel with
  | @here o fits _ =>
    cases fuel with
    | zero => omega
    | succ fuel =>
      refine ⟨parseAttributes buf total fuel (o + 4 + padded (attributeLength buf o)), ?_⟩
      simp only [parseAttributes]
      rw [if_pos (by omega), if_neg (by simp only [attributeLength] at fits; omega)]
      rfl
  | @next offset o before fits other rest ih =>
    cases fuel with
    | zero => omega
    | succ fuel =>
      obtain ⟨after, same⟩ := @ih fuel (by omega)
      refine ⟨after, ?_⟩
      simp only [parseAttributes]
      rw [if_pos (by omega), if_neg (by simp only [attributeLength] at fits; omega)]
      rw [List.cons_append, ← same]
      rfl

theorem signed_before {offset o : Nat} {before : List StunAttribute}
    (signed : Signed buf total offset before o) :
    ∀ a ∈ before, (a.attrType != attrMessageIntegrity) = true := by
  induction signed with
  | here _ _ => simp
  | next _ other _ ih =>
    intro a member
    rcases List.mem_cons.mp member with rfl | later
    · exact bne_iff_ne.mpr other
    · exact ih a later

theorem signed_integrity {offset o : Nat} {before : List StunAttribute}
    (signed : Signed buf total offset before o) : u16At buf o = attrMessageIntegrity := by
  induction signed with
  | here _ integrity => exact integrity
  | next _ _ _ ih => exact ih

theorem offset_signed {offset o : Nat} {before : List StunAttribute}
    (signed : Signed buf total offset before o) (long : total ≤ buf.length) {fuel : Nat}
    (enough : total ≤ fuel + offset) :
    findAttrOffset (buf.take total) attrMessageIntegrity fuel offset = some o := by
  have size : (buf.take total).length = total := by simp [long]
  induction signed generalizing fuel with
  | @here o fits integrity =>
    cases fuel with
    | zero => omega
    | succ fuel =>
      rw [findAttrOffset, if_pos (by omega), u16At_take (by omega), if_pos integrity]
  | @next offset o before fits other rest ih =>
    cases fuel with
    | zero => omega
    | succ fuel =>
      rw [findAttrOffset, if_pos (by omega), u16At_take (by omega), if_neg other,
        u16At_take (by omega)]
      have next := @ih fuel (by omega)
      rwa [Nat.add_assoc] at next

end Reading

section Transport
variable {a b : Bytes} {ta tb : Nat}

theorem u16At_same {i : Nat} (first : byteAt a i = byteAt b i)
    (second : byteAt a (i + 1) = byteAt b (i + 1)) : u16At a i = u16At b i := by
  rw [u16At, first, second, u16At]

theorem attribute_same {i : Nat} (fitsA : i + 4 + attributeLength a i ≤ a.length)
    (fitsB : i + 4 + attributeLength a i ≤ b.length)
    (same : ∀ k, i ≤ k → k < i + 4 + attributeLength a i → byteAt a k = byteAt b k) :
    attributeLength a i = attributeLength b i ∧ attributeAt a i = attributeAt b i := by
  have kind : u16At a i = u16At b i :=
    u16At_same (same i (by omega) (by omega)) (same (i + 1) (by omega) (by omega))
  have length : u16At a (i + 2) = u16At b (i + 2) :=
    u16At_same (same (i + 2) (by omega) (by omega)) (same (i + 2 + 1) (by omega) (by omega))
  have size : attributeLength a i = attributeLength b i := congrArg UInt16.toNat length
  have value : slice a (i + 4) (i + 4 + attributeLength a i) =
      slice b (i + 4) (i + 4 + attributeLength a i) :=
    (slice_eq_iff fitsA fitsB).mpr fun k lower upper => same k (by omega) upper
  exact ⟨size, by rw [attributeAt, attributeAt, kind, value, size]⟩

theorem signed_same {offset o : Nat} {before : List StunAttribute}
    (signed : Signed a ta offset before o) (longA : ta ≤ a.length) (longB : tb ≤ b.length)
    (fits : o + 4 + attributeLength a o ≤ tb)
    (same : ∀ k, offset ≤ k → k < o + 4 + attributeLength a o → byteAt a k = byteAt b k) :
    Signed b tb offset before o := by
  induction signed with
  | @here o inside integrity =>
    obtain ⟨size, alike⟩ := attribute_same (by omega) (by omega) same
    have kind : u16At a o = u16At b o := congrArg StunAttribute.attrType alike
    exact .here (by omega) (kind ▸ integrity)
  | @next offset o before inside other rest ih =>
    have behind := (signed_inside rest).1
    have wide := padded_bound (attributeLength a offset)
    obtain ⟨size, alike⟩ := attribute_same (i := offset) (by omega) (by omega)
      fun k lower upper => same k lower (by omega)
    have kind : u16At a offset = u16At b offset := congrArg StunAttribute.attrType alike
    have later := ih fits fun k lower upper => same k (by omega) upper
    rw [alike]
    rw [size] at later
    exact .next (by omega) (kind ▸ other) later

end Transport

/-- Up to the end of the value of the first MESSAGE-INTEGRITY. -/
def authenticatedEnd (msg : StunMessage) : Option Nat :=
  match msg.messageIntegrity,
    findAttrOffset msg.raw attrMessageIntegrity msg.raw.length headerSize with
  | some value, some offset => some (offset + 4 + value.length)
  | _, _ => none

/-- The bytes from offset 20 up to and including the first MESSAGE-INTEGRITY. -/
def authenticatedPart (msg : StunMessage) : Option Bytes :=
  (authenticatedEnd msg).map fun e => slice msg.raw headerSize e

/-- The messages differ at most in their lengths and in what follows the first
    MESSAGE-INTEGRITY of each. -/
structure SameAuthenticated (a b : StunMessage) : Prop where
  msgType : a.msgType = b.msgType
  transactionId : a.transactionId = b.transactionId
  part : ∃ part, authenticatedPart a = some part ∧ authenticatedPart b = some part

def isIntegrity (a : StunAttribute) : Bool := a.attrType == attrMessageIntegrity

def leading (msg : StunMessage) : List StunAttribute := msg.attributes.takeWhile (!isIntegrity ·)

def trailing (msg : StunMessage) : List StunAttribute :=
  (msg.attributes.dropWhile (!isIntegrity ·)).tail

def carries (attributes : List StunAttribute) (attrType : UInt16) : Bool :=
  attributes.any (·.attrType == attrType)

/-- The text of the first USERNAME of the list, if it is text. -/
def nameIn (attributes : List StunAttribute) : Option Bytes :=
  match attributes.find? (·.attrType == attrUsername) with
  | some a => if validUtf8 a.value then some a.value else none
  | none => none

/-- What the authenticated part leaves open is not filled in differently behind it. -/
def TrailingAlike (a b : StunMessage) : Prop :=
  (carries (leading a) attrUsername = true ∨ nameIn (trailing a) = nameIn (trailing b)) ∧
    (carries (leading a) attrUseCandidate = true ∨
      carries (trailing a) attrUseCandidate = carries (trailing b) attrUseCandidate)

instance (a b : StunMessage) : Decidable (TrailingAlike a b) := inferInstanceAs (Decidable (_ ∧ _))

/-- A parsed message with the attributes before its first MESSAGE-INTEGRITY, at `o`. -/
structure Parsed (buf : Bytes) (msg : StunMessage) (before : List StunAttribute) (o : Nat) :
    Prop where
  signed : Signed buf (declared buf) headerSize before o
  long : declared buf ≤ buf.length
  cookie : u32At buf 4 = magicCookie
  msgType : msg.msgType = u16At buf 0
  transactionId : msg.transactionId = slice buf 8 20
  raw : msg.raw = buf.take (declared buf)
  attributes : msg.attributes = parseAttributes buf (declared buf) (declared buf) headerSize

theorem parsed_of_integrity {buf : Bytes} {msg : StunMessage} (parsed : parse buf = some msg)
    (present : msg.messageIntegrity ≠ none) : ∃ before o, Parsed buf msg before o := by
  unfold parse at parsed
  split at parsed
  · simp at parsed
  split at parsed
  · simp at parsed
  split at parsed
  · simp at parsed
  rename_i cookie
  simp only at parsed
  split at parsed
  · simp at parsed
  split at parsed
  · simp at parsed
  rename_i long
  rw [Option.some.injEq] at parsed
  subst parsed
  simp only [StunMessage.messageIntegrity, StunMessage.getAttr, ne_eq, Option.map_eq_none_iff] at present
  obtain ⟨a, found⟩ := Option.ne_none_iff_exists'.mp present
  obtain ⟨before, o, signed, -⟩ := signed_of_found found
  exact ⟨before, o, signed, Nat.le_of_not_lt long, not_not.mp cookie, rfl, rfl, rfl, rfl⟩

section Message
variable {buf : Bytes} {msg : StunMessage} {before : List StunAttribute} {o : Nat}
  (parsed : Parsed buf msg before o)
include parsed

theorem parsed_attributes : ∃ after, msg.attributes = before ++ attributeAt buf o :: after := by
  obtain ⟨after, same⟩ := parse_signed parsed.signed (Nat.le_add_right _ _)
  exact ⟨after, parsed.attributes.trans same⟩

theorem parsed_offset :
    findAttrOffset msg.raw attrMessageIntegrity msg.raw.length headerSize = some o := by
  have size : msg.raw.length = declared buf := by simp [parsed.raw, parsed.long]
  rw [size, parsed.raw]
  exact offset_signed parsed.signed parsed.long (Nat.le_add_right _ _)

theorem parsed_split {after : List StunAttribute}
    (attributes : msg.attributes = before ++ attributeAt buf o :: after) :
    leading msg = before ∧ trailing msg = after ∧
      msg.messageIntegrity = some (attributeAt buf o).value := by
  have head : isIntegrity (attributeAt buf o) = true := by
    simpa [isIntegrity, attributeAt] using signed_integrity parsed.signed
  have others : ∀ a ∈ before, (!isIntegrity a) = true := signed_before parsed.signed
  refine ⟨?_, ?_, ?_⟩
  · rw [leading, attributes, List.takeWhile_append_of_pos others,
      List.takeWhile_cons_of_neg (by simp [head]), List.append_nil]
  · rw [trailing, attributes, List.dropWhile_append_of_pos others,
      List.dropWhile_cons_of_neg (by simp [head]), List.tail_cons]
  · have none : before.find? (·.attrType == attrMessageIntegrity) = none := by
      rw [List.find?_eq_none]
      exact fun a member => by simpa [isIntegrity] using others a member
    have found : (attributeAt buf o :: after).find? (·.attrType == attrMessageIntegrity) =
        some (attributeAt buf o) := List.find?_cons_of_pos head
    rw [StunMessage.messageIntegrity, StunMessage.getAttr, attributes, List.find?_append, none,
      Option.none_or, found]
    rfl

theorem attribute_size : (attributeAt buf o).value.length = attributeLength buf o := by
  have inside := (signed_inside parsed.signed).2
  have long := parsed.long
  simp only [attributeAt, slice, List.length_drop, List.length_take]
  omega

theorem parsed_end : authenticatedEnd msg = some (o + 4 + attributeLength buf o) := by
  obtain ⟨after, attributes⟩ := parsed_attributes parsed
  rw [authenticatedEnd, (parsed_split parsed attributes).2.2, parsed_offset parsed]
  simp only [attribute_size parsed]

theorem parsed_part :
    authenticatedPart msg = some (slice buf headerSize (o + 4 + attributeLength buf o)) := by
  have inside := (signed_inside parsed.signed).2
  rw [authenticatedPart, parsed_end parsed, Option.map_some, parsed.raw, slice, List.take_take,
    Nat.min_eq_left inside, slice]

end Message

section Pair
variable {bufA bufB : Bytes} {a b : StunMessage} {before : List StunAttribute} {o : Nat}

/-- The second message reads the same authenticated part as the first. -/
theorem parsed_same {before' : List StunAttribute} {o' : Nat} (parsedA : Parsed bufA a before o)
    (parsedB : Parsed bufB b before' o') (agree : SameAuthenticated a b) :
    Parsed bufB b before o ∧ ∀ k, headerSize ≤ k → k < o + 4 + attributeLength bufA o →
      byteAt bufA k = byteAt bufB k := by
  obtain ⟨part, partA, partB⟩ := agree.part
  rw [parsed_part parsedA, Option.some.injEq] at partA
  rw [parsed_part parsedB, Option.some.injEq] at partB
  obtain ⟨startA, insideA⟩ := signed_inside parsedA.signed
  obtain ⟨startB, insideB⟩ := signed_inside parsedB.signed
  have longA := parsedA.long
  have longB := parsedB.long
  have sizes := congrArg List.length (partA.trans partB.symm)
  simp only [slice, List.length_drop, List.length_take] at sizes
  have ends : o' + 4 + attributeLength bufB o' = o + 4 + attributeLength bufA o := by omega
  have slices := partA.trans partB.symm
  rw [ends] at slices
  have bytes := (slice_eq_iff (by omega) (by omega)).mp slices
  have signed := signed_same parsedA.signed longA longB (by omega) bytes
  exact ⟨{ parsedB with signed := signed }, bytes⟩

theorem header_same (parsedA : Parsed bufA a before o) (parsedB : Parsed bufB b before o)
    (agree : SameAuthenticated a b) :
    ∀ k, k < headerSize → k < 2 ∨ 4 ≤ k → byteAt bufA k = byteAt bufB k := by
  have types := be16_injective ((parsedA.msgType.symm.trans agree.msgType).trans parsedB.msgType)
  have cookies := be32_injective (parsedA.cookie.trans parsedB.cookie.symm)
  have longA := parsedA.long
  have longB := parsedB.long
  have ids := (parsedA.transactionId.symm.trans agree.transactionId).trans parsedB.transactionId
  simp only [declared, headerSize] at longA longB
  have bytes := (slice_eq_iff (by omega) (by omega)).mp ids
  intro k inside range
  simp only [headerSize] at inside
  rcases (by omega : k = 0 ∨ k = 1 ∨ k = 4 ∨ k = 5 ∨ k = 6 ∨ k = 7 ∨ 8 ≤ k) with
    rfl | rfl | rfl | rfl | rfl | rfl | late
  · exact types.1
  · exact types.2
  · exact cookies.1
  · exact cookies.2.1
  · exact cookies.2.2.1
  · exact cookies.2.2.2
  · exact bytes k late inside

/-- The HMAC covers the same bytes in both messages. -/
theorem covered_same (parsedA : Parsed bufA a before o) (parsedB : Parsed bufB b before o)
    (agree : SameAuthenticated a b)
    (bytes : ∀ k, headerSize ≤ k → k < o + 4 + attributeLength bufA o →
      byteAt bufA k = byteAt bufB k) (length : UInt16) :
    overwrite (a.raw.take o) 2 (bytes16 length) = overwrite (b.raw.take o) 2 (bytes16 length) := by
  obtain ⟨startA, insideA⟩ := signed_inside parsedA.signed
  obtain ⟨startB, insideB⟩ := signed_inside parsedB.signed
  have longA := parsedA.long
  have longB := parsedB.long
  have rawA : a.raw.take o = bufA.take o := by
    rw [parsedA.raw, List.take_take, Nat.min_eq_left (by omega)]
  have rawB : b.raw.take o = bufB.take o := by
    rw [parsedB.raw, List.take_take, Nat.min_eq_left (by omega)]
  have front : bufA.take 2 = bufB.take 2 := by
    refine (slice_eq_iff (i := 0) (by omega) (by omega)).mpr fun k _ small => ?_
    exact header_same parsedA parsedB agree k (by simp only [headerSize]; omega) (.inl small)
  have back : slice bufA 4 o = slice bufB 4 o := by
    refine (slice_eq_iff (by omega) (by omega)).mpr fun k lower upper => ?_
    by_cases header : k < headerSize
    · exact header_same parsedA parsedB agree k header (.inr lower)
    · exact bytes k (Nat.le_of_not_lt header) (by omega)
  have early : (2 : Nat) ≤ o := by simp only [headerSize] at startA; omega
  rw [rawA, rawB, overwrite, overwrite, List.take_take, List.take_take, Nat.min_eq_left early,
    front, length_bytes16]
  exact congrArg (bufB.take 2 ++ bytes16 length ++ ·) back

theorem verify_same (hmacSha1 : Bytes → Bytes → Bytes) (parsedA : Parsed bufA a before o)
    (parsedB : Parsed bufB b before o) (agree : SameAuthenticated a b)
    (bytes : ∀ k, headerSize ≤ k → k < o + 4 + attributeLength bufA o →
      byteAt bufA k = byteAt bufB k) (key : Bytes) :
    verifyMessageIntegrity hmacSha1 a key = verifyMessageIntegrity hmacSha1 b key := by
  obtain ⟨afterA, attributesA⟩ := parsed_attributes parsedA
  obtain ⟨afterB, attributesB⟩ := parsed_attributes parsedB
  obtain ⟨startA, insideA⟩ := signed_inside parsedA.signed
  have longA := parsedA.long
  have insideB := (signed_inside parsedB.signed).2
  have longB := parsedB.long
  have size : attributeLength bufA o = attributeLength bufB o :=
    congrArg UInt16.toNat (u16At_same (bytes (o + 2) (by omega) (by omega))
      (bytes (o + 2 + 1) (by omega) (by omega)))
  have value := (attribute_same (by omega) (by omega)
    fun k lower upper => bytes k (Nat.le_trans startA lower) upper).2
  simp only [verifyMessageIntegrity, (parsed_split parsedA attributesA).2.2,
    (parsed_split parsedB attributesB).2.2, parsed_offset parsedA, parsed_offset parsedB, value,
    covered_same parsedA parsedB agree bytes]

end Pair

/-- Lookup in a message: what its authenticated part lacks is looked up behind it. -/
theorem nameIn_split {before after : List StunAttribute} {mi : StunAttribute}
    (kind : mi.attrType = attrMessageIntegrity) :
    nameIn (before ++ mi :: after) =
      if carries before attrUsername then nameIn before else nameIn after := by
  have skip : (mi :: after).find? (·.attrType == attrUsername) =
      after.find? (·.attrType == attrUsername) := by
    rw [List.find?_cons_of_neg (by rw [kind]; decide)]
  simp only [nameIn, List.find?_append, skip]
  cases found : before.find? (·.attrType == attrUsername) with
  | none =>
    have absent : carries before attrUsername = false := by
      simpa [carries] using found
    rw [absent, Option.none_or, if_neg Bool.false_ne_true]
  | some name =>
    have present : carries before attrUsername = true := by
      rw [carries, List.any_eq_true]
      exact ⟨name, List.mem_of_find?_eq_some found, by simpa using List.find?_some found⟩
    rw [present, Option.some_or, if_pos rfl]

theorem carries_split {before after : List StunAttribute} {mi : StunAttribute}
    (kind : mi.attrType = attrMessageIntegrity) :
    carries (before ++ mi :: after) attrUseCandidate =
      (carries before attrUseCandidate || carries after attrUseCandidate) := by
  have no : (attrMessageIntegrity == attrUseCandidate) = false := by decide
  simp [carries, kind, no]

theorem hasUseCandidate_carries (msg : StunMessage) :
    msg.hasUseCandidate = carries msg.attributes attrUseCandidate := by
  rw [StunMessage.hasUseCandidate, StunMessage.getAttr, carries, Bool.eq_iff_iff,
    List.find?_isSome, List.any_eq_true]

/-- The two messages are answered alike: under every key, and by every hub. -/
structure SameAnswers (hmacSha1 : Bytes → Bytes → Bytes) (crc32 : Bytes → UInt32)
    (bufA bufB : Bytes) (a b : StunMessage) : Prop where
  verify : ∀ key, verifyMessageIntegrity hmacSha1 a key = verifyMessageIntegrity hmacSha1 b key
  username : a.username = b.username
  useCandidate : a.hasUseCandidate = b.hasUseCandidate
  handled : ∀ hub remote now dtlsHas, handleStun hmacSha1 crc32 hub bufA remote now dtlsHas =
    handleStun hmacSha1 crc32 hub bufB remote now dtlsHas

theorem handled_same {hmacSha1 : Bytes → Bytes → Bytes} {bufA bufB : Bytes} {a b : StunMessage}
    (crc32 : Bytes → UInt32) (parsedA : parse bufA = some a) (parsedB : parse bufB = some b)
    (agree : SameAuthenticated a b)
    (verify : ∀ key, verifyMessageIntegrity hmacSha1 a key = verifyMessageIntegrity hmacSha1 b key)
    (username : a.username = b.username) (useCandidate : a.hasUseCandidate = b.hasUseCandidate)
    (hub : RoomHub) (remote : SocketAddr) (now : Nat) (dtlsHas : Bool) :
    handleStun hmacSha1 crc32 hub bufA remote now dtlsHas =
      handleStun hmacSha1 crc32 hub bufB remote now dtlsHas := by
  simp only [handleStun, parsedA, parsedB, agree.msgType, agree.transactionId, username, verify,
    useCandidate]

theorem trailing_ignored_iff (hmacSha1 : Bytes → Bytes → Bytes) (crc32 : Bytes → UInt32)
    {bufA bufB : Bytes} {a b : StunMessage} (parsedA : parse bufA = some a)
    (parsedB : parse bufB = some b) (agree : SameAuthenticated a b) :
    SameAnswers hmacSha1 crc32 bufA bufB a b ↔ TrailingAlike a b := by
  have signs : ∀ (buf : Bytes) (msg : StunMessage) (part : Bytes), parse buf = some msg →
      authenticatedPart msg = some part → ∃ before o, Parsed buf msg before o := by
    intro buf msg part parsed known
    refine parsed_of_integrity parsed fun none => ?_
    simp [authenticatedPart, authenticatedEnd, none] at known
  obtain ⟨part, partA, partB⟩ := agree.part
  obtain ⟨before, o, readA⟩ := signs bufA a part parsedA partA
  obtain ⟨_, _, readB'⟩ := signs bufB b part parsedB partB
  obtain ⟨readB, bytes⟩ := parsed_same readA readB' agree
  have verify := verify_same hmacSha1 readA readB agree bytes
  obtain ⟨afterA, attributesA⟩ := parsed_attributes readA
  obtain ⟨afterB, attributesB⟩ := parsed_attributes readB
  obtain ⟨leadA, trailA, -⟩ := parsed_split readA attributesA
  obtain ⟨leadB, trailB, -⟩ := parsed_split readB attributesB
  have names : a.username = b.username ↔
      (carries (leading a) attrUsername = true ∨ nameIn (trailing a) = nameIn (trailing b)) := by
    have nameA : a.username = nameIn (before ++ attributeAt bufA o :: afterA) := by
      rw [← attributesA]
      rfl
    have nameB : b.username = nameIn (before ++ attributeAt bufB o :: afterB) := by
      rw [← attributesB]
      rfl
    rw [nameA, nameB, nameIn_split (signed_integrity readA.signed),
      nameIn_split (signed_integrity readB.signed), leadA, trailA, trailB]
    cases carries before attrUsername with
    | true => simp
    | false => simp
  have candidates : a.hasUseCandidate = b.hasUseCandidate ↔
      (carries (leading a) attrUseCandidate = true ∨
        carries (trailing a) attrUseCandidate = carries (trailing b) attrUseCandidate) := by
    rw [hasUseCandidate_carries, hasUseCandidate_carries, attributesA, attributesB,
      carries_split (signed_integrity readA.signed), carries_split (signed_integrity readB.signed),
      leadA, trailA, trailB]
    cases carries before attrUseCandidate with
    | true => simp
    | false => simp
  constructor
  · intro same
    exact ⟨names.mp same.username, candidates.mp same.useCandidate⟩
  · intro alike
    obtain ⟨name, candidate⟩ := alike
    have username := names.mpr name
    have useCandidate := candidates.mpr candidate
    exact ⟨verify, username, useCandidate,
      handled_same crc32 parsedA parsedB agree verify username useCandidate⟩

/-- A Binding Request with USERNAME and MESSAGE-INTEGRITY, then `tail`. -/
def signedRequest (tail : Bytes) : Bytes :=
  [0x00, 0x01] ++ bytes16 (UInt16.ofNat (32 + tail.length)) ++
    [0x21, 0x12, 0xA4, 0x42, 1, 2, 3, 4, 5, 6, 7, 8, 9, 10, 11, 12,
      0x00, 0x06, 0x00, 0x04, 0x61, 0x31, 0x3A, 0x62, 0x00, 0x08, 0x00, 0x14] ++
    List.replicate 20 0 ++ tail

def useCandidateBytes : Bytes := [0x00, 0x25, 0x00, 0x00]
def secondUsernameBytes : Bytes := [0x00, 0x06, 0x00, 0x01, 0x78, 0x00, 0x00, 0x00]

/-- What the parser reads in it. -/
def signedMessage (tail : Bytes) (behind : List StunAttribute) : StunMessage :=
  ⟨bindingRequest, UInt16.ofNat (32 + tail.length), [1, 2, 3, 4, 5, 6, 7, 8, 9, 10, 11, 12],
    [⟨attrUsername, [0x61, 0x31, 0x3A, 0x62]⟩, ⟨attrMessageIntegrity, List.replicate 20 0⟩] ++
      behind, signedRequest tail⟩

theorem second_username_ignored :
    SameAnswers (fun _ _ => List.replicate 20 0) (fun _ => 0) (signedRequest [])
      (signedRequest secondUsernameBytes) (signedMessage [] [])
      (signedMessage secondUsernameBytes [⟨attrUsername, [0x78]⟩]) := by
  have agree : SameAuthenticated (signedMessage [] [])
      (signedMessage secondUsernameBytes [⟨attrUsername, [0x78]⟩]) := ⟨rfl, rfl, _, rfl, rfl⟩
  exact (trailing_ignored_iff _ _ (by decide) (by decide) agree).mpr (by decide)

/-- A USE-CANDIDATE appended behind the MESSAGE-INTEGRITY starts a DTLS handshake. -/
theorem appended_candidate_counts : ¬ ∀ (hmacSha1 : Bytes → Bytes → Bytes) (crc32 : Bytes → UInt32)
    (bufA bufB : Bytes) (a b : StunMessage), parse bufA = some a → parse bufB = some b →
    SameAuthenticated a b → SameAnswers hmacSha1 crc32 bufA bufB a b := by
  intro same
  have answers := same (fun _ _ => List.replicate 20 0) (fun _ => 0) (signedRequest [])
    (signedRequest useCandidateBytes) (signedMessage [] [])
    (signedMessage useCandidateBytes [⟨attrUseCandidate, []⟩]) (by decide) (by decide)
    ⟨rfl, rfl, _, rfl, rfl⟩
  exact absurd answers.useCandidate (by decide)

end StunTrailing
