import AttributeExpr.Proofs.Literal.Base64
import AttributeExpr.Proofs.Value.Sharing
import AttributeExpr.Value.Wire
/-!
Encoding and decoding. A well-formed value that can be encoded is decoded as exactly itself. A set
of numbers that can be encoded equals itself, since a number within the limits is one.
-/
namespace AttributeExpr.Value

variable {numeral : String → Prop} {value : Value}

/-- Encoding is refused or succeeds. -/
theorem failsOnly_encode {p : Failure → Prop}
    (refused : ∀ error : ExpressionError, p (.refused error)) (value : Value) :
    FailsOnly p value.encode := by
  unfold encode
  cases value.toWire with
  | error error => exact failsOnly_error (refused _)
  | ok wire => exact failsOnly_ok _

theorem itemsToWire_eq_ok_iff {items : List Value} {documents : List Json} :
    itemsToWire items = .ok documents ↔
      List.Forall₂ (fun item document => toWire item = .ok document) items documents := by
  induction items generalizing documents with
  | nil => cases documents <;> simp [itemsToWire]
  | cons item items ih =>
    rw [itemsToWire]
    cases hitem : toWire item with
    | error e => simp [List.forall₂_cons_left_iff, hitem]
    | ok document =>
      simp only [map_eq_ok_iff, ih, List.forall₂_cons_left_iff, hitem, Except.ok.injEq]
      constructor
      · rintro ⟨rest, hrest, rfl⟩
        exact ⟨document, rest, rfl, hrest, rfl⟩
      · rintro ⟨_, rest, rfl, hrest, rfl⟩
        exact ⟨rest, hrest, rfl⟩

theorem entriesToWire_eq_ok_iff {entries : List (String × Value)}
    {members : List (String × Json)} :
    entriesToWire entries = .ok members ↔
      List.Forall₂ (Dictionary.Corresponds fun value document => toWire value = .ok document)
        entries members := by
  induction entries generalizing members with
  | nil => cases members <;> simp [entriesToWire]
  | cons entry entries ih =>
    obtain ⟨key, value⟩ := entry
    rw [entriesToWire]
    cases hvalue : toWire value with
    | error e => simp [List.forall₂_cons_left_iff, Dictionary.Corresponds, hvalue]
    | ok document =>
      simp only [map_eq_ok_iff, ih, List.forall₂_cons_left_iff, Dictionary.Corresponds, hvalue,
        Except.ok.injEq]
      constructor
      · rintro ⟨rest, hrest, rfl⟩
        exact ⟨(key, document), rest, ⟨rfl, rfl⟩, hrest, rfl⟩
      · rintro ⟨⟨_, _⟩, rest, ⟨rfl, rfl⟩, hrest, rfl⟩
        exact ⟨rest, hrest, rfl⟩

theorem entriesToWire_keys {entries : List (String × Value)} {members : List (String × Json)}
    (h : entriesToWire entries = .ok members) : members.map (·.1) = entries.map (·.1) := by
  rw [entriesToWire_eq_ok_iff] at h
  induction h with
  | nil => rfl
  | cons h _ ih => rw [List.map_cons, List.map_cons, h.1, ih]

/-- A document is decoded as the value, and all payloads of strings in it are texts. -/
def DecodesTo (document : Json) (value : Value) : Prop :=
  ofEnvelope document = .ok value ∧ holdsTexts document = true

theorem DecodesTo.ofWire {document : Json} (h : DecodesTo document value) :
    ofWire document = .ok value := by
  rw [Value.ofWire, h.1]
  simp [h.2]

theorem decodesTo_list {items : List Value} {documents : List Json}
    (h : List.Forall₂ DecodesTo documents items) :
    DecodesTo (envelope .list (.array documents)) (list items) := by
  have hitems : itemsOfEnvelopes documents = .ok items ∧ itemsHoldTexts documents = true := by
    induction h with
    | nil => exact ⟨rfl, rfl⟩
    | cons hitem _ ih =>
      rw [itemsOfEnvelopes, itemsHoldTexts, hitem.1, hitem.2, ih.1, ih.2]
      exact ⟨rfl, rfl⟩
  constructor
  · show (itemsOfEnvelopes documents).map list = .ok (list items)
    rw [hitems.1]
    rfl
  · exact hitems.2

theorem decodesTo_map {entries : List (String × Value)} {members : List (String × Json)}
    (h : List.Forall₂ (fun member entry => member.1 = entry.1 ∧ DecodesTo member.2 entry.2)
      members entries) :
    DecodesTo (envelope .map (.object members)) (map entries) := by
  have hentries :
      entriesOfEnvelopes members = .ok entries ∧ membersHoldTexts members = true := by
    induction h with
    | nil => exact ⟨rfl, rfl⟩
    | @cons member entry _ _ hentry _ ih =>
      obtain ⟨key, document⟩ := member
      obtain ⟨rfl, hdocument⟩ := hentry
      rw [entriesOfEnvelopes, membersHoldTexts, hdocument.1, hdocument.2, ih.1, ih.2]
      exact ⟨rfl, rfl⟩
  constructor
  · show (entriesOfEnvelopes members).map map = .ok (map entries)
    rw [hentries.1]
    rfl
  · exact hentries.2

/-- The sets are decoded from arrays of texts. -/
theorem decodesTo_numberSet {elements : List String} (nonempty : elements ≠ [])
    (distinct : DistinctNumbers elements) :
    DecodesTo (envelope .numberSet (.array (elements.map .string))) (numberSet elements) := by
  have hset := setOf_eq_ok_iff.mpr (.numbers nonempty distinct)
  constructor
  · show setOf ((elements.map Json.string).map fun part => number part.plainText) = _
    rw [List.map_map]
    exact hset
  · rfl

theorem decodesTo_stringSet {elements : List String} (nonempty : elements ≠ [])
    (distinct : elements.Nodup) :
    DecodesTo (envelope .stringSet (.array (elements.map .string))) (stringSet elements) := by
  have hset := setOf_eq_ok_iff.mpr (.strings nonempty distinct)
  have htexts : (elements.map Json.string).all isText = true := by simp [isText]
  constructor
  · show (if (elements.map Json.string).all isText then
      setOf ((elements.map Json.string).map fun part => string (payloadText part)) else _) = _
    rw [if_pos htexts, List.map_map]
    exact hset
  · exact htexts

theorem payloadBytes_encodeString (bytes : Bytes) :
    payloadBytes (.string (Base64.encodeString bytes)) = .ok bytes := by
  simp [payloadBytes, Base64.encodeString, Base64.decode_encode]

theorem decodesTo_binarySet {elements : List Bytes} (nonempty : elements ≠ [])
    (distinct : elements.Nodup) :
    DecodesTo (envelope .binarySet (.array (elements.map fun bytes =>
      .string (Base64.encodeString bytes)))) (binarySet elements) := by
  have hset := setOf_eq_ok_iff.mpr (.binaries nonempty distinct)
  have hparts : (elements.map fun bytes => Json.string (Base64.encodeString bytes)).mapM
      payloadBytes = .ok elements := by
    rw [mapM_eq_ok_iff, List.forall₂_map_left_iff]
    exact List.forall₂_same.mpr fun bytes _ => payloadBytes_encodeString bytes
  constructor
  · show ((elements.map fun bytes => Json.string (Base64.encodeString bytes)).mapM payloadBytes
      >>= fun parts => setOf (parts.map binary)) = _
    rw [hparts]
    exact hset
  · rfl

/-- What a value is encoded as is decoded as this value. -/
theorem WellFormed.decodesTo (h : value.WellFormed numeral) {document : Json}
    (hd : toWire value = .ok document) : DecodesTo document value := by
  induction h generalizing document with
  | null | bool | string =>
    obtain rfl := Except.ok.inj hd
    exact ⟨rfl, rfl⟩
  | binary bytes =>
    obtain rfl := Except.ok.inj hd
    constructor
    · show (payloadBytes (.string (Base64.encodeString bytes))).map Value.binary = _
      rw [payloadBytes_encodeString]
      rfl
    · rfl
  | number =>
    obtain ⟨d, -, rfl⟩ := map_eq_ok_iff.mp hd
    exact ⟨rfl, rfl⟩
  | list _ ih =>
    obtain ⟨documents, hdocuments, rfl⟩ := map_eq_ok_iff.mp hd
    refine decodesTo_list (List.Forall₂.flip ?_)
    exact forall₂_imp_of_mem (itemsToWire_eq_ok_iff.mp hdocuments)
      fun item hitem _ _ hdocument => ih item hitem hdocument
  | @map entries distinct _ ih =>
    obtain ⟨members, hmembers, rfl⟩ := map_eq_ok_iff.mp hd
    rw [Dictionary.ofEntries_eq_self (by rwa [entriesToWire_keys hmembers])]
    rw [entriesToWire_eq_ok_iff] at hmembers
    refine decodesTo_map (List.Forall₂.flip ?_)
    exact forall₂_imp_of_mem hmembers
      fun entry hentry _ _ hmember => ⟨hmember.1, ih entry hentry hmember.2⟩
  | numberSet nonempty _ distinct =>
    obtain ⟨_, -, rfl⟩ := map_eq_ok_iff.mp hd
    exact decodesTo_numberSet nonempty distinct
  | stringSet nonempty distinct =>
    obtain rfl := Except.ok.inj hd
    exact decodesTo_stringSet nonempty distinct
  | binarySet nonempty distinct =>
    obtain rfl := Except.ok.inj hd
    exact decodesTo_binarySet nonempty distinct

theorem checkNumber_finite {text : String} {d : Decimal} (h : checkNumber text = .ok d) :
    ∃ negative coefficient exponent,
      Decimal.read? text = some (.finite negative coefficient exponent) := by
  unfold checkNumber at h
  split at h
  · next negative coefficient exponent hread => exact ⟨negative, coefficient, exponent, hread⟩
  · contradiction

theorem checkNumbers_eq_forM (texts : List String) :
    checkNumbers texts = texts.forM fun text => (checkNumber text).map fun _ => () := by
  induction texts with
  | nil => rfl
  | cons text texts ih =>
    show _ = ((checkNumber text).map fun _ => ()) >>= fun _ => _
    rw [checkNumbers, ih]
    cases checkNumber text <;> rfl

theorem checkNumbers_eq_ok_iff_forall {texts : List String} :
    checkNumbers texts = .ok () ↔ ∀ text ∈ texts, ∃ d, checkNumber text = .ok d := by
  simp only [checkNumbers_eq_forM, forM_eq_ok_iff, map_eq_ok_iff, and_true]

theorem sameNumbers_self {texts : List String} (h : checkNumbers texts = .ok ())
    (distinct : DistinctNumbers texts) : SameNumbers texts texts := by
  obtain ⟨numbers, hnumbers, -⟩ := distinct
  have hself : ∀ number ∈ numbers, Decimal.sameValue number number = true := by
    intro number hmem
    obtain ⟨text, htext, hnumber⟩ := exists_of_mem_forall₂ hnumbers.flip hmem
    obtain ⟨d, hd⟩ := checkNumbers_eq_ok_iff_forall.mp h text htext
    obtain ⟨negative, coefficient, exponent, hread⟩ := checkNumber_finite hd
    simp only [comparable, hread, Decimal.isSignaling] at hnumber
    obtain rfl := Except.ok.inj hnumber
    simp [Decimal.sameValue, Decimal.isNaN]
  refine ⟨numbers, numbers, hnumbers, hnumbers, sameMembers_iff.mpr ⟨?_, ?_⟩⟩
  · exact fun number hmem => ⟨number, hmem, hself number hmem⟩
  · exact fun number hmem => ⟨number, hmem, hself number hmem⟩

theorem encode_eq_ok_iff {document : Json} :
    encode value = .ok document ↔ toWire value = .ok document :=
  mapError_eq_ok_iff

end AttributeExpr.Value
