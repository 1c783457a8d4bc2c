import OxlensSfu.StunAttributes
import OxlensSfu.StunTrailing

/-
The two walks over the attributes of a message. The parser lists them and stops at one
that does not fit; the offset search steps over it. They meet wherever the parser has one
of the type to show.
-/
namespace StunWalkers
open WireBytes StunMessages StunTrailing

/-- Attributes start at both places, the second some steps behind the first. -/
inductive Reaches (raw : Bytes) : Nat → Nat → Prop where
  | refl (o : Nat) : Reaches raw o o
  | step {offset o : Nat} (room : offset + 4 ≤ raw.length)
      (rest : Reaches raw (offset + 4 + padded (attributeLength raw offset)) o) : Reaches raw offset o

/-- The first start of type `t`. -/
structure First (raw : Bytes) (t : UInt16) (start o : Nat) : Prop where
  reached : Reaches raw start o
  earlier : ∀ o' < o, Reaches raw start o' → u16At raw o' ≠ t

/-- Type, length field and value stand at `o`, inside the message. -/
structure StandsAt (raw : Bytes) (a : StunAttribute) (o : Nat) : Prop where
  inside : o + 4 + a.value.length ≤ raw.length
  attrType : u16At raw o = a.attrType
  length : (u16At raw (o + 2)).toNat = a.value.length
  value : slice raw (o + 4) (o + 4 + a.value.length) = a.value

section Walks
variable {raw : Bytes} {t : UInt16}

theorem Reaches.le {start o : Nat} (reached : Reaches raw start o) : start ≤ o := by
  induction reached with
  | refl o => exact Nat.le_refl o
  | step _ _ ih => omega

theorem First.here (o : Nat) : First raw t o o :=
  ⟨.refl o, fun _ before reached => absurd reached.le (Nat.not_le.mpr before)⟩

theorem First.next {offset o : Nat} (room : offset + 4 ≤ raw.length) (other : u16At raw offset ≠ t)
    (rest : First raw t (offset + 4 + padded (attributeLength raw offset)) o) : First raw t offset o := by
  refine ⟨.step room rest.reached, fun o' before reached => ?_⟩
  cases reached with
  | refl => exact other
  | step _ later => exact rest.earlier o' before later

/-- The search returns the first start of the type. -/
theorem found_first {fuel offset o : Nat} (found : findAttrOffset raw t fuel offset = some o) :
    u16At raw o = t ∧ o + 4 ≤ raw.length ∧ First raw t offset o := by
  induction fuel generalizing offset with
  | zero => simp [findAttrOffset] at found
  | succ fuel ih =>
    rw [findAttrOffset] at found
    split at found
    · rename_i room
      split at found
      · rename_i here
        rw [Option.some.injEq] at found
        subst found
        exact ⟨here, room, .here offset⟩
      · rename_i other
        rw [← Nat.add_assoc] at found
        obtain ⟨type, inside, first⟩ := ih found
        exact ⟨type, inside, .next room other first⟩
    · cases found

theorem standsAt_attributeAt {o : Nat} (fits : o + 4 + attributeLength raw o ≤ raw.length) :
    StandsAt raw (attributeAt raw o) o := by
  have size : (attributeAt raw o).value.length = attributeLength raw o := by
    simp only [attributeAt, slice, List.length_drop, List.length_take]
    omega
  refine ⟨size ▸ fits, rfl, size.symm, ?_⟩
  rw [size]
  rfl

/-- The place and the message leave one attribute. -/
theorem StandsAt.eq {a : StunAttribute} {o : Nat} (stands : StandsAt raw a o) : attributeAt raw o = a := by
  obtain ⟨type, value⟩ := a
  have size : attributeLength raw o = value.length := stands.length
  rw [attributeAt, stands.attrType, size, stands.value]

/-- The attribute that the parser lists first of its type is where the search ends. -/
theorem located_of_listed {fuel offset : Nat} {a : StunAttribute}
    (listed : (parseAttributes raw raw.length fuel offset).find? (·.attrType == t) = some a) :
    ∃ o, findAttrOffset raw t fuel offset = some o ∧ StandsAt raw a o := by
  induction fuel generalizing offset with
  | zero => simp [parseAttributes] at listed
  | succ fuel ih =>
    simp only [parseAttributes] at listed
    split at listed
    · rename_i room
      split at listed
      · simp at listed
      · rename_i fits
        rw [findAttrOffset, if_pos room]
        by_cases here : u16At raw offset = t
        · rw [List.find?_cons_of_pos (by simpa using here), Option.some.injEq] at listed
          subst listed
          exact ⟨offset, if_pos here, standsAt_attributeAt (Nat.le_of_not_lt fits)⟩
        · rw [List.find?_cons_of_neg (by simpa using here)] at listed
          rw [if_neg here, ← Nat.add_assoc]
          exact ih listed
    · simp at listed

/-- Where the search ends at a whole attribute, the parser has listed it. -/
theorem listed_of_located {fuel offset o : Nat} {a : StunAttribute}
    (located : findAttrOffset raw t fuel offset = some o) (stands : StandsAt raw a o) :
    (parseAttributes raw raw.length fuel offset).find? (·.attrType == t) = some a := by
  induction fuel generalizing offset with
  | zero => simp [findAttrOffset] at located
  | succ fuel ih =>
    rw [findAttrOffset] at located
    split at located
    · rename_i room
      simp only [parseAttributes, if_pos room]
      split at located
      · rename_i here
        rw [Option.some.injEq] at located
        subst located
        have inside := stands.inside
        rw [if_neg (by rw [stands.length]; omega), List.find?_cons_of_pos (by simpa using here)]
        exact congrArg some stands.eq
      · rename_i other
        rw [← Nat.add_assoc] at located
        -- the search went on behind this attribute and found a header, so it fits
        have behind := (found_first located).2.2.reached.le
        have inside := (found_first located).2.1
        have wide := padded_bound (attributeLength raw offset)
        simp only [attributeLength] at behind wide
        rw [if_neg (by omega), List.find?_cons_of_neg (by simpa using other)]
        exact ih located
    · cases located

end Walks

/-- The listed attributes are those of the message alone, whatever came behind it. -/
theorem parse_attributes {buf : Bytes} {msg : StunMessage} (accepted : parse buf = some msg) :
    msg.attributes = parseAttributes msg.raw msg.raw.length msg.raw.length headerSize := by
  unfold parse at accepted
  split at accepted
  · cases accepted
  split at accepted
  · cases accepted
  split at accepted
  · cases accepted
  simp only at accepted
  split at accepted
  · cases accepted
  split at accepted
  · cases accepted
  rename_i long
  rw [Option.some.injEq] at accepted
  subst accepted
  have size : (buf.take (headerSize + (u16At buf 2).toNat)).length = headerSize + (u16At buf 2).toNat := by
    rw [List.length_take]
    omega
  have same := StunAttributes.parseAttributes_append (buf.take (headerSize + (u16At buf 2).toNat))
    (buf.drop (headerSize + (u16At buf 2).toNat))
  rw [List.take_append_drop, size] at same
  simp only [size]
  exact same _ _

/-- The search for type `t` ends at `o`, where the first attribute of the type is `a`. -/
structure Located (raw : Bytes) (t : UInt16) (a : StunAttribute) (o : Nat) : Prop where
  found : findAttrOffset raw t raw.length headerSize = some o
  attrType : a.attrType = t
  stands : StandsAt raw a o
  first : First raw t headerSize o

/-- What the verifier hashes when its search ends at `o`. -/
def hashed (raw : Bytes) (o : Nat) : Bytes := setLength (raw.take o) (o - headerSize + 24)

/-- The hashed prefix ends where the compared attribute begins. -/
structure Covers (msg : StunMessage) (a : StunAttribute) (o : Nat) : Prop where
  ends : (hashed msg.raw o).length = o
  verifies : ∀ hmacSha1 key,
    verifyMessageIntegrity hmacSha1 msg key = true ↔ hmacSha1 (hashed msg.raw o) key = a.value

section Agreement
variable {buf : Bytes} {msg : StunMessage} {t : UInt16} {a : StunAttribute} {o : Nat}

/-- An attribute is looked up exactly when the search ends where it stands. -/
theorem getAttr_iff (accepted : parse buf = some msg) : msg.getAttr t = some a ↔
    ∃ o, findAttrOffset msg.raw t msg.raw.length headerSize = some o ∧ StandsAt msg.raw a o := by
  rw [StunMessage.getAttr, parse_attributes accepted]
  constructor
  · exact located_of_listed
  · rintro ⟨o, located, stands⟩
    exact listed_of_located located stands

theorem located_of_getAttr (accepted : parse buf = some msg) (named : msg.getAttr t = some a) :
    ∃ o, Located msg.raw t a o := by
  obtain ⟨o, found, stands⟩ := (getAttr_iff accepted).mp named
  obtain ⟨type, -, first⟩ := found_first found
  exact ⟨o, found, stands.attrType.symm.trans type, stands, first⟩

theorem covers_of_located (named : msg.getAttr attrMessageIntegrity = some a)
    (located : Located msg.raw attrMessageIntegrity a o) : Covers msg a o := by
  have behind : headerSize ≤ o := located.first.reached.le
  have inside := located.stands.inside
  have taken : (msg.raw.take o).length = o := by
    rw [List.length_take]
    omega
  constructor
  · rw [hashed, setLength, length_overwrite, taken]
    rw [taken, length_bytes16]
    exact Nat.le_trans (by decide) behind
  · intro hmacSha1 key
    have received : msg.messageIntegrity = some a.value := by
      rw [StunMessage.messageIntegrity, named, Option.map_some]
    unfold verifyMessageIntegrity
    simp only [received, located.found]
    exact BindingResponse.same_bytes_iff _ _

end Agreement

/-- Lookup and search agree on every accepted message, so the verifier hashes exactly what
    stands in front of the attribute that it compares with. -/
theorem walkers_agree {buf : Bytes} {msg : StunMessage} (accepted : parse buf = some msg) :
    (∀ t a, msg.getAttr t = some a → ∃ o, Located msg.raw t a o) ∧
      ∀ a, msg.getAttr attrMessageIntegrity = some a →
        ∃ o, Located msg.raw attrMessageIntegrity a o ∧ Covers msg a o := by
  refine ⟨fun t a named => located_of_getAttr accepted named, fun a named => ?_⟩
  obtain ⟨o, located⟩ := located_of_getAttr accepted named
  exact ⟨o, located, covers_of_located named located⟩

/-- An empty USE-CANDIDATE, a MESSAGE-INTEGRITY with padding, and another whose value would
    run past the end. -/
def cutShort : Bytes :=
  [0x00, 0x01, 0x00, 0x10, 0x21, 0x12, 0xA4, 0x42, 0, 0, 0, 0, 0, 0, 0, 0, 0, 0, 0, 0,
    0x00, 0x25, 0x00, 0x00, 0x00, 0x08, 0x00, 0x03, 1, 2, 3, 0, 0x00, 0x08, 0x00, 0xFF]

theorem cutShort_agrees :
    let integrity : StunAttribute := ⟨attrMessageIntegrity, [1, 2, 3]⟩
    let msg : StunMessage := ⟨bindingRequest, 16, List.replicate 12 0,
      [⟨attrUseCandidate, []⟩, integrity], cutShort⟩
    ∃ o, Located msg.raw attrMessageIntegrity integrity o ∧ Covers msg integrity o :=
  (walkers_agree (show parse cutShort = some _ by decide)).2 _ (by decide)

end StunWalkers
