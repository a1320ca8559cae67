import AttributeExpr.Proofs.Value.Breaking
/-!
How reading a document as an envelope ends: with a value, with a refusal, or broken off. The last
happens exactly where the first part stands that does not fit its tag: a payload of an unexpected
shape, a text in base64 with characters outside ASCII, or an element of a set that cannot be
compared with the others.
-/
namespace AttributeExpr

theorem AttributeType.ofTag?_eq_some_iff {tag : String} {type : AttributeType} :
    ofTag? tag = some type ↔ tag = type.tag := by
  constructor
  · intro h
    have htag : type.tag = tag := by
      rw [ofTag?] at h
      simpa using List.find?_some h
    exact htag.symm
  · rintro rfl
    cases type <;> decide

namespace Value

/-! Payloads one by one. -/

theorem breaks_payloadParts_iff {payload : Json} {failure : Failure} :
    Breaks (payloadParts payload) failure ↔
      failure = .payloadNotIterable ∧ ∀ parts, payloadParts payload ≠ .ok parts := by
  cases payload <;> simp [payloadParts, breaks_error_iff, not_breaks_ok]

theorem itemsOfEnvelopes_eq_mapM (items : List Json) :
    itemsOfEnvelopes items = items.mapM ofEnvelope := by
  induction items with
  | nil => rfl
  | cons item items ih =>
    rw [itemsOfEnvelopes, List.mapM_cons, ih]
    cases ofEnvelope item with
    | error e => rfl
    | ok value => cases items.mapM ofEnvelope <;> rfl

theorem entriesOfEnvelopes_eq_mapM (members : List (String × Json)) :
    entriesOfEnvelopes members =
      members.mapM fun member => (ofEnvelope member.2).map (member.1, ·) := by
  induction members with
  | nil => rfl
  | cons member members ih =>
    obtain ⟨key, document⟩ := member
    rw [entriesOfEnvelopes, List.mapM_cons, ih]
    cases ofEnvelope document with
    | error e => rfl
    | ok value =>
      cases members.mapM fun member => (ofEnvelope member.2).map (member.1, ·) <;> rfl

/-- Where reading a document breaks off, and with which failure. Whatever is read before that place
can be read. -/
inductive BreaksOff : Json → Failure → Prop
  | noParts {type : AttributeType} {payload : Json}
      (type_mem : type ∈ [.list, .numberSet, .stringSet, .binarySet])
      (none : ∀ parts, payloadParts payload ≠ .ok parts) :
      BreaksOff (envelope type payload) .payloadNotIterable
  | noMembers {payload : Json} (none : ∀ members, payload ≠ .object members) :
      BreaksOff (envelope .map payload) .payloadNotObject
  | binary {payload : Json} {failure : Failure} (h : LacksBytes payload failure) :
      BreaksOff (envelope .binary payload) failure
  | binarySet {payload part : Json} {before after : List Json} {failure : Failure}
      (parts : payloadParts payload = .ok (before ++ part :: after))
      (read : ∀ other ∈ before, ∃ bytes, payloadBytes other = .ok bytes)
      (h : LacksBytes part failure) : BreaksOff (envelope .binarySet payload) failure
  | numberSet {payload part : Json} {before after : List Json} {failure : Failure}
      (parts : payloadParts payload = .ok (before ++ part :: after))
      (read : DistinctNumbers (before.map Json.plainText))
      (h : NotComparable part.plainText failure) : BreaksOff (envelope .numberSet payload) failure
  | stringSet {payload part : Json} {before after : List Json}
      (parts : payloadParts payload = .ok (before ++ part :: after))
      (read : DistinctElements before) (h : Undistinguished before part) :
      BreaksOff (envelope .stringSet payload) .payloadNotText
  | list {item : Json} {before after : List Json} {failure : Failure}
      (read : ∀ other ∈ before, ∃ value, ofEnvelope other = .ok value)
      (h : BreaksOff item failure) :
      BreaksOff (envelope .list (.array (before ++ item :: after))) failure
  | map {key : String} {document : Json} {before after : List (String × Json)} {failure : Failure}
      (read : ∀ other ∈ before, ∃ value, ofEnvelope other.2 = .ok value)
      (h : BreaksOff document failure) :
      BreaksOff (envelope .map (.object (before ++ (key, document) :: after))) failure

section

variable {payload : Json} {failure : Failure}

theorem breaks_binary_iff :
    Breaks (ofEnvelope (envelope .binary payload)) failure ↔ LacksBytes payload failure :=
  breaks_map_iff.trans breaks_payloadBytes_iff

theorem breaks_array_iff {items : List Json} :
    Breaks (ofEnvelope (envelope .list (.array items))) failure ↔ ∃ before item after,
      items = before ++ item :: after ∧ (∀ other ∈ before, ∃ value, ofEnvelope other = .ok value) ∧
        Breaks (ofEnvelope item) failure := by
  rw [← breaks_mapM_iff, ← itemsOfEnvelopes_eq_mapM]
  exact breaks_map_iff

/-- The parts of what is no array are no envelopes. -/
theorem breaks_list_iff (h : ∀ items, payload ≠ .array items) :
    Breaks (ofEnvelope (envelope .list payload)) failure ↔
      Breaks (payloadParts payload) failure := by
  have htag : AttributeType.ofTag? AttributeType.list.tag = some .list := by decide
  unfold ofEnvelope
  simp only [envelope, htag]
  split
  · next herror => simp [herror, Breaks]
  · next hparts => simp [hparts, not_breaks_ok]
  · next hparts => simp [hparts, not_breaks_ok, not_breaks_refuse]

theorem breaks_object_iff {members : List (String × Json)} :
    Breaks (ofEnvelope (envelope .map (.object members))) failure ↔ ∃ before member after,
      members = before ++ member :: after ∧
        (∀ other ∈ before, ∃ value, ofEnvelope other.2 = .ok value) ∧
        Breaks (ofEnvelope member.2) failure := by
  have hentries : ofEnvelope (envelope .map (.object members)) =
      (entriesOfEnvelopes members).map Value.map := rfl
  rw [hentries, breaks_map_iff, entriesOfEnvelopes_eq_mapM, breaks_mapM_iff]
  simp [breaks_map_iff, map_eq_ok_iff]

theorem breaks_map_payload_iff (h : ∀ members, payload ≠ .object members) :
    Breaks (ofEnvelope (envelope .map payload)) failure ↔ failure = .payloadNotObject := by
  cases payload <;> first | exact breaks_error_iff nofun | exact absurd rfl (h _)

theorem breaks_numberSet_iff :
    Breaks (ofEnvelope (envelope .numberSet payload)) failure ↔
      Breaks (payloadParts payload) failure ∨ ∃ parts, payloadParts payload = .ok parts ∧
        Breaks (setOf ((parts.map Json.plainText).map number)) failure := by
  simp only [List.map_map]
  exact breaks_bind_iff

theorem not_breaks_checkElements {parts : List Json} (h : parts.all isText = true) :
    ¬ Breaks (checkElements [] parts) failure := by
  rw [breaks_checkElements_iff]
  rintro ⟨-, before, element, after, rfl, -, hundistinguished⟩
  have htext : isText element = true := List.all_eq_true.mp h element (by simp)
  rcases hundistinguished with hcollection | ⟨hother, -⟩
  · cases element <;> contradiction
  · rw [htext] at hother
    contradiction

theorem breaks_stringSet_iff :
    Breaks (ofEnvelope (envelope .stringSet payload)) failure ↔
      Breaks (payloadParts payload) failure ∨ ∃ parts, payloadParts payload = .ok parts ∧
        Breaks (checkElements [] parts) failure := by
  refine Iff.trans breaks_bind_iff ?_
  refine or_congr_right (exists_congr fun parts => and_congr_right fun _ => ?_)
  split_ifs with htexts
  · have hset : ¬ Breaks (setOf (parts.map fun part => string (payloadText part))) failure :=
      not_breaks_setOf (by simp)
    exact iff_of_false hset (not_breaks_checkElements htexts)
  · exact breaks_map_iff

theorem breaks_binarySet_iff :
    Breaks (ofEnvelope (envelope .binarySet payload)) failure ↔
      Breaks (payloadParts payload) failure ∨ ∃ parts, payloadParts payload = .ok parts ∧
        Breaks (parts.mapM payloadBytes) failure := by
  refine Iff.trans breaks_bind_iff ?_
  refine or_congr_right (exists_congr fun parts => and_congr_right fun _ => ?_)
  refine breaks_bind_iff.trans (or_iff_left ?_)
  rintro ⟨bytes, -, hset⟩
  exact not_breaks_setOf (by simp) hset

end

/-- Only an envelope can be broken off. -/
theorem exists_envelope_of_breaks {document : Json} {failure : Failure}
    (h : Breaks (ofEnvelope document) failure) :
    ∃ type payload, document = envelope type payload := by
  by_cases hmember : ∃ tag payload, document = .object [(tag, payload)]
  · obtain ⟨tag, payload, rfl⟩ := hmember
    cases htag : AttributeType.ofTag? tag with
    | none =>
      have hunknown : ofEnvelope (.object [(tag, payload)]) =
          refuse (TypingError.unknownTag tag) := by
        cases payload <;> rw [ofEnvelope, htag] <;> nofun
      rw [hunknown] at h
      exact absurd h (not_breaks_refuse _)
    | some type =>
      obtain rfl := AttributeType.ofTag?_eq_some_iff.mp htag
      exact ⟨type, payload, rfl⟩
  · rw [ofEnvelope] at h
    · exact absurd h (not_breaks_refuse _)
    · intro tag payload heq
      exact hmember ⟨tag, payload, heq⟩

theorem breaksOff_of_breaks {document : Json} {failure : Failure}
    (h : Breaks (ofEnvelope document) failure) : BreaksOff document failure := by
  induction hsize : sizeOf document using Nat.strong_induction_on generalizing document with
  | _ size ih =>
  subst hsize
  obtain ⟨type, payload, rfl⟩ := exists_envelope_of_breaks h
  -- A payload without parts breaks lists and sets alike.
  have hnone (hmem : type ∈ [.list, .numberSet, .stringSet, .binarySet])
      (hparts : Breaks (payloadParts payload) failure) :
      BreaksOff (envelope type payload) failure := by
    obtain ⟨rfl, hno⟩ := breaks_payloadParts_iff.mp hparts
    exact .noParts hmem hno
  cases type with
  | null | bool | number | string => exact absurd h (not_breaks_ok _)
  | binary => exact .binary (breaks_binary_iff.mp h)
  | list =>
    by_cases harray : ∃ items, payload = .array items
    · obtain ⟨items, rfl⟩ := harray
      obtain ⟨before, item, after, rfl, hbefore, hitem⟩ := breaks_array_iff.mp h
      have hmem : item ∈ before ++ item :: after := by simp
      have hsize := List.sizeOf_lt_of_mem hmem
      refine .list hbefore (ih _ ?_ hitem rfl)
      simp only [envelope, Json.object.sizeOf_spec, Json.array.sizeOf_spec, List.cons.sizeOf_spec,
        Prod.mk.sizeOf_spec]
      omega
    · exact hnone (by simp) ((breaks_list_iff fun items heq => harray ⟨items, heq⟩).mp h)
  | map =>
    by_cases hobject : ∃ members, payload = .object members
    · obtain ⟨members, rfl⟩ := hobject
      obtain ⟨before, ⟨key, document⟩, after, rfl, hbefore, hdocument⟩ := breaks_object_iff.mp h
      have hmem : (key, document) ∈ before ++ (key, document) :: after := by simp
      have hsize := List.sizeOf_lt_of_mem hmem
      refine .map hbefore (ih _ ?_ hdocument rfl)
      simp only [envelope, Json.object.sizeOf_spec, List.cons.sizeOf_spec, Prod.mk.sizeOf_spec]
        at hsize ⊢
      omega
    · have hno : ∀ members, payload ≠ .object members := fun members heq => hobject ⟨members, heq⟩
      obtain rfl := (breaks_map_payload_iff hno).mp h
      exact .noMembers hno
  | numberSet =>
    rcases breaks_numberSet_iff.mp h with h | ⟨parts, hparts, h⟩
    · exact hnone (by simp) h
    · obtain ⟨before, text, after, heq, hbefore, htext⟩ := breaks_setOf_numbers_iff.mp h
      obtain ⟨before, tail, rfl, rfl, htail⟩ := List.map_eq_append_iff.mp heq
      obtain ⟨part, after, rfl, rfl, -⟩ := List.map_eq_cons_iff.mp htail
      exact .numberSet hparts hbefore htext
  | stringSet =>
    rcases breaks_stringSet_iff.mp h with h | ⟨parts, hparts, h⟩
    · exact hnone (by simp) h
    · obtain ⟨rfl, before, part, after, rfl, hbefore, hpart⟩ := breaks_checkElements_iff.mp h
      rw [List.append_nil] at hpart
      exact .stringSet hparts (checkElements_eq_ok_iff.mp hbefore).1 hpart
  | binarySet =>
    rcases breaks_binarySet_iff.mp h with h | ⟨parts, hparts, h⟩
    · exact hnone (by simp) h
    · obtain ⟨before, part, after, rfl, hbefore, hpart⟩ := breaks_mapM_iff.mp h
      exact .binarySet hparts hbefore (breaks_payloadBytes_iff.mp hpart)

theorem BreaksOff.breaks {document : Json} {failure : Failure} (h : BreaksOff document failure) :
    Breaks (ofEnvelope document) failure := by
  induction h with
  | @noParts type payload type_mem none =>
    have hparts : Breaks (payloadParts payload) .payloadNotIterable :=
      breaks_payloadParts_iff.mpr ⟨rfl, none⟩
    simp only [List.mem_cons, List.not_mem_nil, or_false] at type_mem
    rcases type_mem with rfl | rfl | rfl | rfl
    · refine (breaks_list_iff ?_).mpr hparts
      rintro items rfl
      exact none items rfl
    · exact breaks_numberSet_iff.mpr (.inl hparts)
    · exact breaks_stringSet_iff.mpr (.inl hparts)
    · exact breaks_binarySet_iff.mpr (.inl hparts)
  | noMembers none => exact (breaks_map_payload_iff none).mpr rfl
  | binary h => exact breaks_binary_iff.mpr h
  | binarySet parts read h =>
    exact breaks_binarySet_iff.mpr (.inr ⟨_, parts, breaks_mapM_iff.mpr
      ⟨_, _, _, rfl, read, breaks_payloadBytes_iff.mpr h⟩⟩)
  | numberSet parts read h =>
    exact breaks_numberSet_iff.mpr (.inr ⟨_, parts, breaks_setOf_numbers_iff.mpr
      ⟨_, _, _, by rw [List.map_append, List.map_cons], read, h⟩⟩)
  | stringSet parts read h =>
    refine breaks_stringSet_iff.mpr (.inr ⟨_, parts, breaks_checkElements_iff.mpr
      ⟨rfl, _, _, _, rfl, checkElements_eq_ok_iff.mpr ⟨read, by simp⟩, ?_⟩⟩)
    rwa [List.append_nil]
  | list read _ ih => exact breaks_array_iff.mpr ⟨_, _, _, rfl, read, ih⟩
  | map read _ ih => exact breaks_object_iff.mpr ⟨_, _, _, rfl, read, ih⟩

theorem breaks_ofEnvelope_iff {document : Json} {failure : Failure} :
    Breaks (ofEnvelope document) failure ↔ BreaksOff document failure :=
  ⟨breaksOff_of_breaks, BreaksOff.breaks⟩

/-- Payloads that are no texts make a difference only where nothing else does. -/
theorem breaks_ofWire_iff {document : Json} {failure : Failure} :
    Breaks (ofWire document) failure ↔ BreaksOff document failure ∨
      failure = .payloadNotText ∧ holdsTexts document = false ∧
        ∃ value, ofEnvelope document = .ok value := by
  rw [← breaks_ofEnvelope_iff, ofWire]
  cases ofEnvelope document with
  | error e => simp [Breaks]
  | ok value => cases holdsTexts document <;> simp [not_breaks_ok, breaks_error_iff]

/-- Reading a document ends with a value or a refusal, unless it breaks off at a part that does not
fit its tag; and at each such part, behind others that can be read, it does break off. -/
theorem ofEnvelope_ends (document : Json) :
    ((∃ value, ofEnvelope document = .ok value) ∨
        (∃ error, ofEnvelope document = .error (.refused error)) ↔
      ∀ failure, ¬ BreaksOff document failure) ∧
    (∀ failure, BreaksOff document failure →
      ofEnvelope document = .error failure ∧ ofWire document = .error failure) ∧
    ∀ failure, Breaks (ofWire document) failure → BreaksOff document failure ∨
      failure = .payloadNotText ∧ holdsTexts document = false ∧
        ∃ value, ofEnvelope document = .ok value := by
  refine ⟨?_, ?_, fun failure => breaks_ofWire_iff.mp⟩
  · simp only [← breaks_ofEnvelope_iff]
    cases ofEnvelope document with
    | ok value => simp [not_breaks_ok]
    | error e =>
      cases e <;> simp [Breaks]
  · intro failure h
    exact ⟨h.breaks.1, (breaks_ofWire_iff.mpr (.inl h)).1⟩

/-- The second element of a string set deep inside is the same as the first, and no text. Whatever
comes later is not looked at. -/
theorem ofEnvelope_ends_nested :
    let document := envelope .map (.object [("a", envelope .number (.string "1")),
      ("b", envelope .list (.array [envelope .stringSet (.array [.int 1, .bool true]),
        envelope .map .null])), ("c", .null)])
    BreaksOff document .payloadNotText ∧ ofEnvelope document = .error .payloadNotText ∧
      ofWire document = .error .payloadNotText := by
  intro document
  have hset : BreaksOff (envelope .stringSet (.array [.int 1, .bool true])) .payloadNotText := by
    refine @BreaksOff.stringSet _ (.bool true) [.int 1] [] rfl ⟨?_, List.pairwise_singleton _ _⟩
      (.inr ⟨rfl, .int 1, List.mem_singleton_self _, by decide +kernel⟩)
    simp [Json.isCollection]
  have hlist := @BreaksOff.list _ [] [envelope .map .null] _ (List.forall_mem_nil _) hset
  have hdocument : BreaksOff document .payloadNotText := by
    refine @BreaksOff.map "b" _ [("a", envelope .number (.string "1"))] [("c", .null)] _ ?_ hlist
    simp only [List.forall_mem_singleton]
    exact ⟨number "1", rfl⟩
  exact ⟨hdocument, (ofEnvelope_ends document).2.1 _ hdocument⟩

/-- Some documents are neither read nor refused: a text with a character outside ASCII as a
binary. -/
theorem not_ofWire_ends :
    ofWire (envelope .binary (.string "é")) = .error .nonAsciiBase64 ∧
      ¬ ∀ document, (∃ value, ofWire document = .ok value) ∨
        ∃ error, ofWire document = .error (.refused error) := by
  have hbytes : LacksBytes (.string "é") .nonAsciiBase64 := .nonAscii ⟨'é', by simp, by decide⟩
  have hwire := (breaks_ofWire_iff.mpr (.inl (.binary hbytes))).1
  refine ⟨hwire, ?_⟩
  intro h
  rcases h (envelope .binary (.string "é")) with ⟨value, hvalue⟩ | ⟨error, herror⟩
  · rw [hwire] at hvalue
    contradiction
  · rw [hwire] at herror
    exact absurd (Except.error.inj herror) nofun

end Value

end AttributeExpr
