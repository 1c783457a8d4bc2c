import OxlensSfu.StunMessage

/- A binding response is read back as what it was built from. -/
namespace BindingResponse
open WireBytes Participants StunMessages

/-- An attribute with its padding. -/
def attributeBytes (a : StunAttribute) : Bytes := writeAttr [] a.attrType a.value

/-- A response with a given length field. -/
def message (length : Nat) (transactionId : Bytes) (attributes : List StunAttribute) : Bytes :=
  bytes16 bindingResponse ++ bytes16 (UInt16.ofNat length) ++ bytes32 magicCookie ++ transactionId ++
    attributes.flatMap attributeBytes

theorem writeAttr_eq (buf : Bytes) (attrType : UInt16) (value : Bytes) :
    writeAttr buf attrType value = buf ++ attributeBytes ⟨attrType, value⟩ := by
  simp only [attributeBytes, writeAttr, List.nil_append, List.append_assoc]

theorem attributeBytes_length (a : StunAttribute) :
    (attributeBytes a).length = 4 + padded a.value.length := by
  simp only [attributeBytes, writeAttr, List.nil_append, List.length_append, length_bytes16,
    List.length_replicate, padded]
  omega

section Reading
variable {buf front back : Bytes} {a : StunAttribute}

/-- What stands at the place where an attribute was written. -/
theorem attribute_read (short : a.value.length < 65536)
    (whole : buf = front ++ attributeBytes a ++ back) :
    u16At buf front.length = a.attrType ∧ (u16At buf (front.length + 2)).toNat = a.value.length ∧
      slice buf (front.length + 4) (front.length + 4 + a.value.length) = a.value ∧
      front.length + 4 + padded a.value.length ≤ buf.length := by
  let padding := List.replicate ((4 - a.value.length % 4) % 4) (0 : UInt8)
  let head := bytes16 a.attrType ++ bytes16 (UInt16.ofNat a.value.length)
  have shape : buf = front ++ (head ++ (a.value ++ padding ++ back)) := by
    rw [whole, attributeBytes, writeAttr]
    simp only [List.nil_append, List.append_assoc, head, padding]
  have four : (front ++ head).length = front.length + 4 := List.length_append
  have type : u16At buf front.length = a.attrType := by
    rw [shape, ← Nat.add_zero front.length, u16At_append_right]
    simp [head, u16At, byteAt, bytes16]
  have length : u16At buf (front.length + 2) = UInt16.ofNat a.value.length := by
    rw [shape, u16At_append_right]
    simp only [head, u16At, byteAt, bytes16, List.cons_append, List.nil_append,
      List.getD_cons_succ, List.getD_cons_zero, be16_bytes16]
  refine ⟨type, ?_, ?_, ?_⟩
  · rw [length, UInt16.toNat_ofNat']
    omega
  · have middle : buf = (front ++ head) ++ a.value ++ (padding ++ back) := by
      rw [shape]
      simp only [List.append_assoc]
    rw [middle, ← four]
    exact slice_middle ..
  · rw [whole, List.length_append, List.length_append, attributeBytes_length]
    omega

theorem parseAttributes_written {attributes : List StunAttribute} :
    (∀ a ∈ attributes, a.value.length < 65536) → ∀ {front : Bytes} {fuel : Nat},
      buf = front ++ attributes.flatMap attributeBytes → attributes.length ≤ fuel →
      parseAttributes buf buf.length fuel front.length = attributes := by
  induction attributes with
  | nil =>
    rintro - front fuel rfl -
    cases fuel with
    | zero => rfl
    | succ fuel =>
      rw [parseAttributes, if_neg]
      simp
  | cons a rest ih =>
    intro short front fuel whole enough
    obtain ⟨fuel, rfl⟩ : ∃ n, fuel = n + 1 :=
      ⟨fuel - 1, by simp only [List.length_cons] at enough; omega⟩
    rw [List.flatMap_cons, ← List.append_assoc] at whole
    obtain ⟨type, length, value, fits⟩ := attribute_read (short a (List.mem_cons_self ..)) whole
    have next := ih (fun b member => short b (List.mem_cons_of_mem _ member)) whole
      (by simpa only [List.length_cons, Nat.add_le_add_iff_right] using enough)
    rw [List.length_append, attributeBytes_length, ← Nat.add_assoc] at next
    have inside : a.value.length ≤ padded a.value.length := by
      simp only [padded]
      omega
    simp only [parseAttributes, type, length, value]
    rw [if_pos (by omega), if_neg (by omega), next]

theorem findAttrOffset_written {target : UInt16} {before : List StunAttribute} :
    (∀ b ∈ before, b.value.length < 65536 ∧ b.attrType ≠ target) →
    a.value.length < 65536 → a.attrType = target → ∀ {front : Bytes} {fuel : Nat},
      buf = front ++ before.flatMap attributeBytes ++ attributeBytes a ++ back →
      before.length < fuel →
      findAttrOffset buf target fuel front.length =
        some (front ++ before.flatMap attributeBytes).length := by
  intro others short here
  induction before with
  | nil =>
    intro front fuel whole enough
    obtain ⟨fuel, rfl⟩ : ∃ n, fuel = n + 1 := ⟨fuel - 1, by omega⟩
    rw [List.flatMap_nil, List.append_nil] at whole ⊢
    obtain ⟨type, -, -, fits⟩ := attribute_read short whole
    rw [findAttrOffset, if_pos (by omega), type, if_pos here]
  | cons b rest ih =>
    intro front fuel whole enough
    obtain ⟨fuel, rfl⟩ : ∃ n, fuel = n + 1 := ⟨fuel - 1, by omega⟩
    obtain ⟨shortB, other⟩ := others b (List.mem_cons_self ..)
    rw [List.flatMap_cons, ← List.append_assoc] at whole ⊢
    obtain ⟨type, length, -, fits⟩ := @attribute_read buf front
      (rest.flatMap attributeBytes ++ attributeBytes a ++ back) b shortB
      (by rw [whole]; simp only [List.append_assoc])
    have next := ih (fun c member => others c (List.mem_cons_of_mem _ member)) whole
      (by simpa only [List.length_cons, Nat.add_lt_add_iff_right] using enough)
    rw [List.length_append, attributeBytes_length] at next
    rw [findAttrOffset, if_pos (by omega), type, if_neg other, length, next]

end Reading

section Message
variable {transactionId : Bytes} {attributes : List StunAttribute}

def size (attributes : List StunAttribute) : Nat := (attributes.flatMap attributeBytes).length

theorem size_cons (a : StunAttribute) (rest : List StunAttribute) :
    size (a :: rest) = 4 + padded a.value.length + size rest := by
  rw [size, List.flatMap_cons, List.length_append, attributeBytes_length, size]

theorem size_words (attributes : List StunAttribute) : size attributes % 4 = 0 := by
  induction attributes with
  | nil => rfl
  | cons a rest ih =>
    rw [size_cons, padded]
    omega

theorem attributes_le_size (attributes : List StunAttribute) :
    attributes.length ≤ size attributes := by
  induction attributes with
  | nil => exact Nat.le_refl _
  | cons a rest ih =>
    rw [size_cons, List.length_cons]
    omega

theorem size_short (attributes : List StunAttribute) (short : ∀ a ∈ attributes, a.value.length ≤ 20) :
    size attributes ≤ 24 * attributes.length := by
  induction attributes with
  | nil => exact Nat.le_refl _
  | cons a rest ih =>
    have here := short a (List.mem_cons_self ..)
    have later := ih fun b member => short b (List.mem_cons_of_mem _ member)
    rw [size_cons, padded, List.length_cons]
    omega

theorem message_length (length : Nat) (twelve : transactionId.length = 12) :
    (message length transactionId attributes).length = 20 + size attributes := by
  simp only [message, List.length_append, length_bytes16, length_bytes32, twelve, size]

theorem setLength_message (before after : Nat) :
    setLength (message before transactionId attributes) after = message after transactionId attributes := by
  simp only [setLength, overwrite, message, bytes16, bindingResponse, List.cons_append,
    List.nil_append, List.take_succ_cons, List.take_zero, List.length_cons, List.length_nil,
    List.drop_succ_cons, List.drop_zero]

theorem writeAttr_message (length : Nat) (attrType : UInt16) (value : Bytes) :
    writeAttr (message length transactionId attributes) attrType value =
      message length transactionId (attributes ++ [⟨attrType, value⟩]) := by
  rw [writeAttr_eq, message, message, List.flatMap_append, List.flatMap_singleton]
  simp only [List.append_assoc]

theorem message_append (length : Nat) (before after : List StunAttribute) :
    message length transactionId (before ++ after) =
      message length transactionId before ++ after.flatMap attributeBytes := by
  rw [message, message, List.flatMap_append]
  simp only [List.append_assoc]

/-- The fields of a header, whatever follows. -/
theorem header_fields (msgType length : UInt16) (twelve : transactionId.length = 12) (rest : Bytes) :
    let buf := bytes16 msgType ++ bytes16 length ++ bytes32 magicCookie ++ transactionId ++ rest
    byteAt buf 0 = UInt8.ofNat (msgType.toNat / 256) ∧ u16At buf 0 = msgType ∧ u16At buf 2 = length ∧
      u32At buf 4 = magicCookie ∧ slice buf 8 20 = transactionId := by
  intro buf
  have opening : ∀ i, i < 8 → byteAt buf i =
      byteAt (bytes16 msgType ++ bytes16 length ++ bytes32 magicCookie) i := by
    intro i inside
    simp only [buf]
    rw [List.append_assoc]
    exact byteAt_append_left inside
  refine ⟨opening 0 (by decide), ?_, ?_, ?_, ?_⟩
  · rw [u16At, opening 0 (by decide), opening 1 (by decide)]
    exact be16_bytes16 msgType
  · rw [u16At, opening 2 (by decide), opening 3 (by decide)]
    exact be16_bytes16 _
  · rw [u32At, opening 4 (by decide), opening 5 (by decide), opening 6 (by decide),
      opening 7 (by decide)]
    simp only [byteAt, bytes16, bytes32, List.cons_append, List.nil_append, List.getD_cons_succ,
      List.getD_cons_zero, be32_bytes32]
  · have middle := slice_middle (bytes16 msgType ++ bytes16 length ++ bytes32 magicCookie)
      transactionId rest
    rwa [twelve] at middle

theorem message_fields (length : Nat) (twelve : transactionId.length = 12) :
    let buf := message length transactionId attributes
    byteAt buf 0 = 1 ∧ u16At buf 0 = bindingResponse ∧ u16At buf 2 = UInt16.ofNat length ∧
      u32At buf 4 = magicCookie ∧ slice buf 8 20 = transactionId :=
  header_fields bindingResponse (UInt16.ofNat length) twelve (attributes.flatMap attributeBytes)

theorem parse_message (twelve : transactionId.length = 12)
    (short : ∀ a ∈ attributes, a.value.length < 65536) (small : size attributes < 65536) :
    parse (message (size attributes) transactionId attributes) =
      some ⟨bindingResponse, UInt16.ofNat (size attributes), transactionId, attributes,
        message (size attributes) transactionId attributes⟩ := by
  have length := @message_length _ attributes (size attributes) twelve
  obtain ⟨first, type, field, cookie, id⟩ := @message_fields _ attributes (size attributes) twelve
  have words := size_words attributes
  have count : (UInt16.ofNat (size attributes)).toNat = size attributes := by
    rw [UInt16.toNat_ofNat']
    omega
  have opening : (bytes16 bindingResponse ++ bytes16 (UInt16.ofNat (size attributes)) ++
      bytes32 magicCookie ++ transactionId).length = 20 := by
    simp only [List.length_append, length_bytes16, length_bytes32, twelve]
  have listed := @parseAttributes_written (message (size attributes) transactionId attributes)
    attributes short _ (headerSize + size attributes) rfl (by
      have := attributes_le_size attributes
      omega)
  rw [opening, length] at listed
  unfold parse
  rw [if_neg (by rw [length, headerSize]; omega), first, if_neg (by decide), cookie, if_neg (by simp),
    field]
  simp only [count, headerSize]
  rw [if_neg (by omega), if_neg (by omega), type, id, List.take_of_length_le (by omega)]
  simp only [headerSize] at listed
  rw [listed]

/-- An attribute behind others of other types is found, and what is in front of it is the
    message without it. -/
theorem findAttrOffset_message (length : Nat) (twelve : transactionId.length = 12)
    {target : UInt16} {a : StunAttribute} {before after : List StunAttribute}
    (others : ∀ b ∈ before, b.value.length < 65536 ∧ b.attrType ≠ target)
    (short : a.value.length < 65536) (here : a.attrType = target) :
    let buf := message length transactionId (before ++ a :: after)
    findAttrOffset buf target buf.length headerSize =
        some (message length transactionId before).length ∧
      buf.take (message length transactionId before).length = message length transactionId before := by
  intro buf
  have opening : (message length transactionId []).length = headerSize :=
    @message_length _ [] length twelve
  have front : message length transactionId before =
      message length transactionId [] ++ before.flatMap attributeBytes := message_append length [] before
  have whole : buf = message length transactionId [] ++ before.flatMap attributeBytes ++
      attributeBytes a ++ after.flatMap attributeBytes := by
    rw [← front, List.append_assoc, ← List.flatMap_cons]
    exact message_append length before (a :: after)
  have enough : before.length < buf.length := by
    have few := attributes_le_size before
    rw [whole, ← front]
    simp only [List.length_append, @message_length _ before length twelve]
    omega
  constructor
  · have found := findAttrOffset_written others short here whole enough
    rwa [opening, ← front] at found
  · rw [whole, ← front, List.append_assoc, List.take_left' rfl]

end Message

section Answer
variable (hmacSha1 : Bytes → Bytes → Bytes) (crc32 : Bytes → UInt32)
variable (transactionId : Bytes) (remote : SocketAddr) (key : Bytes)

def octets : SocketAddr → Bytes
  | .v4 ip _ => ip.toList
  | .v6 ip _ _ _ => ip.toList

def port : SocketAddr → UInt16
  | .v4 _ port => port
  | .v6 _ port _ _ => port

/-- The octets and the port in the value of an XOR-MAPPED-ADDRESS. -/
def unxorAddress (value : Bytes) : Option (Bytes × UInt16) :=
  let octets := List.zipWith (· ^^^ ·) (value.drop 4) (bytes32 magicCookie ++ transactionId)
  if byteAt value 1 = 1 ∧ value.length = 8 ∨ byteAt value 1 = 2 ∧ value.length = 20 then
    some (octets, u16At value 2 ^^^ 0x2112)
  else none

/-- What a client finds in a response. -/
structure Answers (response : Bytes) (msg : StunMessage) : Prop where
  type : msg.msgType = bindingResponse
  transaction : msg.transactionId = transactionId
  content : ∃ mapped integrity fingerprint front,
    msg.attributes = [⟨attrXorMappedAddress, mapped⟩, ⟨attrSoftware, software⟩,
      ⟨attrMessageIntegrity, integrity⟩, ⟨attrFingerprint, fingerprint⟩] ∧
    unxorAddress transactionId mapped = some (octets remote, port remote) ∧
    response = front ++ attributeBytes ⟨attrFingerprint, fingerprint⟩ ∧
    fingerprint = bytes32 (crc32 front ^^^ 0x5354554E)
  verified : verifyMessageIntegrity hmacSha1 msg key = true

/-- The attributes in front of MESSAGE-INTEGRITY. -/
def unsigned : List StunAttribute :=
  [⟨attrXorMappedAddress, encodeXorMappedAddress remote transactionId⟩, ⟨attrSoftware, software⟩]

def signature : StunAttribute :=
  ⟨attrMessageIntegrity, hmacSha1 (message (size (unsigned transactionId remote) + 24) transactionId
    (unsigned transactionId remote)) key⟩

def signed : List StunAttribute :=
  unsigned transactionId remote ++ [signature hmacSha1 transactionId remote key]

def fingerprint : StunAttribute :=
  ⟨attrFingerprint, bytes32 (crc32 (message (size (signed hmacSha1 transactionId remote key) + 8)
    transactionId (signed hmacSha1 transactionId remote key)) ^^^ 0x5354554E)⟩

def complete : List StunAttribute :=
  signed hmacSha1 transactionId remote key ++ [fingerprint hmacSha1 crc32 transactionId remote key]

theorem size_append (before after : List StunAttribute) :
    size (before ++ after) = size before + size after := by
  simp only [size, List.flatMap_append, List.length_append]

theorem buildBindingResponse_eq (twelve : transactionId.length = 12) :
    buildBindingResponse hmacSha1 crc32 transactionId remote key =
      message (size (complete hmacSha1 crc32 transactionId remote key)) transactionId
        (complete hmacSha1 crc32 transactionId remote key) := by
  have header : bytes16 bindingResponse ++ bytes16 0 ++ bytes32 magicCookie ++ transactionId =
      message 0 transactionId [] := by simp [message]
  unfold buildBindingResponse
  simp only [header, writeAttr_message, setLength_message, message_length _ twelve, headerSize,
    Nat.add_sub_cancel_left, List.nil_append, List.cons_append]
  rfl

theorem encodeXorMappedAddress_length (twelve : transactionId.length = 12) :
    (encodeXorMappedAddress remote transactionId).length ≤ 20 := by
  cases remote with
  | v4 ip port => simp [encodeXorMappedAddress]
  | v6 ip port flowinfo scopeId => simp [encodeXorMappedAddress, twelve]

theorem zipWith_xor_cancel {pad : Bytes} : ∀ {value : Bytes}, value.length ≤ pad.length →
    List.zipWith (· ^^^ ·) (List.zipWith (· ^^^ ·) value pad) pad = value := by
  induction pad with
  | nil =>
    intro value short
    rw [List.eq_nil_of_length_eq_zero (Nat.le_zero.mp short)]
    rfl
  | cons x pad ih =>
    intro value short
    cases value with
    | nil => rfl
    | cons b value =>
      have cancel : b ^^^ x ^^^ x = b := by rw [UInt8.xor_assoc, UInt8.xor_self, UInt8.xor_zero]
      rw [List.zipWith_cons_cons, List.zipWith_cons_cons, cancel, ih (Nat.le_of_succ_le_succ short)]

/-- The values of both families, decoded alike. -/
theorem unxorAddress_value (twelve : transactionId.length = 12) {family : UInt8} {port : UInt16}
    {ip : Bytes} (known : family = 1 ∧ ip.length = 4 ∨ family = 2 ∧ ip.length = 16) :
    unxorAddress transactionId ([0, family] ++ bytes16 (port ^^^ 0x2112) ++
      List.zipWith (· ^^^ ·) ip (bytes32 magicCookie ++ transactionId)) = some (ip, port) := by
  have pad : (bytes32 magicCookie ++ transactionId).length = 16 := by
    rw [List.length_append, length_bytes32, twelve]
  let xored := List.zipWith (· ^^^ ·) ip (bytes32 magicCookie ++ transactionId)
  have length : xored.length = min ip.length 16 := by rw [List.length_zipWith, pad]
  have port' : u16At ([0, family] ++ bytes16 (port ^^^ 0x2112) ++ xored) 2 = port ^^^ 0x2112 := by
    simp only [u16At, byteAt, bytes16, List.cons_append, List.nil_append, List.getD_cons_succ,
      List.getD_cons_zero, be16_bytes16]
  have octets : List.zipWith (· ^^^ ·) (([0, family] ++ bytes16 (port ^^^ 0x2112) ++ xored).drop 4)
      (bytes32 magicCookie ++ transactionId) = ip := by
    have behind : ([0, family] ++ bytes16 (port ^^^ 0x2112) ++ xored).drop 4 = xored := rfl
    rw [behind]
    exact zipWith_xor_cancel (by omega)
  have cancel : port ^^^ 0x2112 ^^^ 0x2112 = port := by
    rw [UInt16.xor_assoc, UInt16.xor_self, UInt16.xor_zero]
  unfold unxorAddress
  rw [octets, port', cancel]
  refine if_pos ?_
  have total : ([0, family] ++ bytes16 (port ^^^ 0x2112) ++ xored).length = 4 + min ip.length 16 := by
    rw [List.length_append, length]
    rfl
  rw [total]
  rcases known with ⟨rfl, four⟩ | ⟨rfl, sixteen⟩
  · exact .inl ⟨rfl, by omega⟩
  · exact .inr ⟨rfl, by omega⟩

theorem unxorAddress_encode (twelve : transactionId.length = 12) :
    unxorAddress transactionId (encodeXorMappedAddress remote transactionId) =
      some (octets remote, port remote) := by
  cases remote with
  | v4 ip port =>
    have size : ip.toList.length = 4 := ip.length_toList
    have same : List.zipWith (· ^^^ ·) ip.toList (bytes32 magicCookie ++ transactionId) =
        List.zipWith (· ^^^ ·) ip.toList (bytes32 magicCookie) := by
      have parts := @List.zipWith_append _ _ _ (· ^^^ ·) ip.toList [] (bytes32 magicCookie)
        transactionId size
      rwa [List.append_nil, List.zipWith_nil_left, List.append_nil] at parts
    rw [encodeXorMappedAddress, ← same]
    exact unxorAddress_value transactionId twelve (.inl ⟨rfl, size⟩)
  | v6 ip port flowinfo scopeId =>
    exact unxorAddress_value transactionId twelve (.inr ⟨rfl, ip.length_toList⟩)

theorem complete_short (digest : ∀ data key, (hmacSha1 data key).length = 20)
    (twelve : transactionId.length = 12) :
    ∀ a ∈ complete hmacSha1 crc32 transactionId remote key, a.value.length ≤ 20 := by
  have mapped := encodeXorMappedAddress_length transactionId remote twelve
  simp only [complete, signed, unsigned, List.cons_append, List.nil_append, List.forall_mem_cons]
  refine ⟨mapped, by decide, ?_, by simp [fingerprint], by simp⟩
  rw [signature, digest]

/-- The verifier's comparison is equality. -/
theorem same_bytes_iff (expected received : Bytes) :
    (expected.length == received.length && (expected.zip received).all fun (a, b) => a == b) = true ↔
      expected = received := by
  induction expected generalizing received with
  | nil => cases received <;> simp
  | cons b expected ih =>
    cases received with
    | nil => simp
    | cons c received =>
      have rest := ih received
      simp only [Bool.and_eq_true, beq_iff_eq] at rest
      simp only [List.length_cons, List.zip_cons_cons, List.all_cons, Bool.and_eq_true, beq_iff_eq,
        Nat.add_right_cancel_iff, List.cons.injEq, ← rest]
      exact and_left_comm

/-- The verifier finds the prefix and the length field that were signed. -/
theorem response_verifies (digest : ∀ data key, (hmacSha1 data key).length = 20)
    (twelve : transactionId.length = 12) (msg : StunMessage)
    (attributes : msg.attributes = complete hmacSha1 crc32 transactionId remote key)
    (raw : msg.raw = message (size (complete hmacSha1 crc32 transactionId remote key)) transactionId
        (complete hmacSha1 crc32 transactionId remote key)) :
    verifyMessageIntegrity hmacSha1 msg key = true := by
  let plain := unsigned transactionId remote
  let signing := signature hmacSha1 transactionId remote key
  let printing := fingerprint hmacSha1 crc32 transactionId remote key
  let total := size (complete hmacSha1 crc32 transactionId remote key)
  have mapped := encodeXorMappedAddress_length transactionId remote twelve
  have others : ∀ b ∈ plain, b.value.length < 65536 ∧ b.attrType ≠ attrMessageIntegrity := by
    simp only [plain, unsigned, List.forall_mem_cons]
    exact ⟨⟨by omega, show attrXorMappedAddress ≠ attrMessageIntegrity by decide⟩,
      ⟨by decide, show attrSoftware ≠ attrMessageIntegrity by decide⟩, by simp⟩
  have short : signing.value.length < 65536 := by
    simp only [signing, signature, digest]
    decide
  have received : msg.messageIntegrity = some signing.value := by
    rw [StunMessage.messageIntegrity, StunMessage.getAttr, attributes]
    rfl
  have parts : msg.raw = message total transactionId (plain ++ signing :: [printing]) := raw
  obtain ⟨place, covered⟩ := @findAttrOffset_message transactionId total twelve attrMessageIntegrity
    _ plain [printing] others short rfl
  rw [← parts] at place covered
  have signedBytes : overwrite (message total transactionId plain) 2
      (bytes16 (UInt16.ofNat ((message total transactionId plain).length - headerSize + 24))) =
        message (size plain + 24) transactionId plain := by
    rw [@message_length _ plain total twelve, headerSize, Nat.add_sub_cancel_left]
    exact setLength_message ..
  unfold verifyMessageIntegrity
  simp only [received, place, covered, signedBytes]
  exact (same_bytes_iff _ _).mpr rfl

theorem binding_response_answers (digest : ∀ data key, (hmacSha1 data key).length = 20)
    (twelve : transactionId.length = 12) :
    ∃ msg, parse (buildBindingResponse hmacSha1 crc32 transactionId remote key) = some msg ∧
      Answers hmacSha1 crc32 transactionId remote key
        (buildBindingResponse hmacSha1 crc32 transactionId remote key) msg := by
  let attributes := complete hmacSha1 crc32 transactionId remote key
  have short := complete_short hmacSha1 crc32 transactionId remote key digest twelve
  have small : size attributes < 65536 := by
    have bound := size_short attributes short
    have count : attributes.length = 4 := rfl
    omega
  have fingerprinted : size attributes = size (signed hmacSha1 transactionId remote key) + 8 := by
    have eight : size [fingerprint hmacSha1 crc32 transactionId remote key] = 8 := by
      rw [size_cons, fingerprint, length_bytes32]
      rfl
    simp only [attributes, complete, size_append, eight]
  rw [buildBindingResponse_eq hmacSha1 crc32 transactionId remote key twelve]
  refine ⟨_, parse_message twelve (fun a member => by have := short a member; omega) small, ?_⟩
  refine ⟨rfl, rfl, ⟨_, _, _, message (size attributes) transactionId
    (signed hmacSha1 transactionId remote key), rfl, unxorAddress_encode transactionId remote twelve,
    ?_, ?_⟩, response_verifies hmacSha1 crc32 transactionId remote key digest twelve _ rfl rfl⟩
  · rw [complete, message_append, List.flatMap_singleton]
    rfl
  · rw [fingerprinted]

end Answer

def testId : Bytes := [1, 2, 3, 4, 5, 6, 7, 8, 9, 10, 11, 12]
def testPassword : Bytes := [116, 101, 115, 116, 112, 97, 115, 115, 119, 111, 114, 100]

/-- HMAC-SHA1 where the response below is signed. -/
def hmacTable (data key : Bytes) : Bytes :=
  if data = [1, 1, 0, 56, 33, 18, 164, 66, 1, 2, 3, 4, 5, 6, 7, 8, 9, 10, 11, 12, 0, 32, 0, 8, 0, 1, 17,
      43, 225, 186, 165, 67, 128, 34, 0, 14, 108, 105, 103, 104, 116, 45, 108, 105, 118, 101, 99,
      104, 97, 116, 0, 0] ∧ key = testPassword then
    [98, 219, 221, 237, 51, 41, 166, 215, 202, 33, 119, 63, 166, 18, 16, 89, 225, 60, 67, 167]
  else List.replicate 20 0

/-- CRC-32 where the response below gets its fingerprint. -/
def crcTable (data : Bytes) : UInt32 :=
  if data = [1, 1, 0, 64, 33, 18, 164, 66, 1, 2, 3, 4, 5, 6, 7, 8, 9, 10, 11, 12, 0, 32, 0, 8, 0, 1, 17,
      43, 225, 186, 165, 67, 128, 34, 0, 14, 108, 105, 103, 104, 116, 45, 108, 105, 118, 101, 99,
      104, 97, 116, 0, 0, 0, 8, 0, 20, 98, 219, 221, 237, 51, 41, 166, 215, 202, 33, 119, 63, 166,
      18, 16, 89, 225, 60, 67, 167] then 0x1a82849d
  else 0

theorem binding_response_test : ∃ msg,
    parse (buildBindingResponse hmacTable crcTable testId (.v4 #v[192, 168, 1, 1] 12345) testPassword) =
      some msg ∧
    Answers hmacTable crcTable testId (.v4 #v[192, 168, 1, 1] 12345) testPassword
      (buildBindingResponse hmacTable crcTable testId (.v4 #v[192, 168, 1, 1] 12345) testPassword) msg :=
  binding_response_answers hmacTable crcTable _ _ _
    (by intro data key; unfold hmacTable; split <;> rfl) rfl

end BindingResponse
