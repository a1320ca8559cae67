import AttributeExpr.Proofs.Value.WireRoundTrip
/-!
The order of members in encoded values. Documents are alike if they differ at most in the order of
the members of objects. Values that are encoded alike are equal, as the order of the entries of maps
is all in which they can differ.
-/
namespace AttributeExpr

namespace Json

mutual

/-- The documents are the same but for the order of the members of objects, which have no key
twice. -/
def Alike : Json → Json → Prop
  | array items, document => ∃ items', document = array items' ∧ AlikeItems items items'
  | object members, document =>
    ∃ members', document = object members' ∧ members.length = members'.length ∧
      AlikeMembers members members'
  | leaf, document => document = leaf

def AlikeItems : List Json → List Json → Prop
  | [], items => items = []
  | item :: rest, items =>
    ∃ item' rest', items = item' :: rest' ∧ Alike item item' ∧ AlikeItems rest rest'

/-- Every member is among the others, with a document that is alike. -/
def AlikeMembers : List (String × Json) → List (String × Json) → Prop
  | [], _ => True
  | (key, document) :: rest, members =>
    (∃ document', (key, document') ∈ members ∧ Alike document document') ∧
      AlikeMembers rest members

end

theorem alikeItems_iff {items items' : List Json} :
    AlikeItems items items' ↔ List.Forall₂ Alike items items' := by
  induction items generalizing items' with
  | nil => rw [AlikeItems, List.forall₂_nil_left_iff]
  | cons item items ih => simp only [AlikeItems, List.forall₂_cons_left_iff, ih]; grind

theorem alikeMembers_iff {members members' : List (String × Json)} :
    AlikeMembers members members' ↔ ∀ member ∈ members, ∃ document,
      (member.1, document) ∈ members' ∧ Alike member.2 document := by
  induction members with
  | nil => simp [AlikeMembers]
  | cons member members ih => rw [AlikeMembers, ih, List.forall_mem_cons]

/-- Only the same texts are like texts. -/
theorem eq_of_alike_texts {texts : List String} {document : Json}
    (h : (array (texts.map string)).Alike document) : document = array (texts.map string) := by
  rw [Alike] at h
  obtain ⟨items, rfl, hitems⟩ := h
  rw [alikeItems_iff, List.forall₂_map_left_iff] at hitems
  congr
  induction hitems with
  | nil => rfl
  | cons htext _ ih =>
    rw [Alike] at htext
    · rw [htext, ih, List.map_cons]
    · nofun
    · nofun

end Json

namespace Value

open Json (Alike)

variable {numeral : String → Prop} {value value' : Value} {document document' : Json}

theorem alike_envelope {type : AttributeType} {payload : Json}
    (h : (envelope type payload).Alike document) :
    ∃ payload', document = envelope type payload' ∧ payload.Alike payload' := by
  rw [envelope, Alike] at h
  obtain ⟨members, rfl, hlength, hmembers⟩ := h
  obtain ⟨member, rfl⟩ := List.length_eq_one_iff.mp hlength.symm
  obtain ⟨⟨payload', hmem, halike⟩, -⟩ := hmembers
  obtain rfl := List.mem_singleton.mp hmem
  exact ⟨payload', rfl, halike⟩

/-- A value is encoded under the tag of its type. -/
theorem exists_envelope (h : toWire value = .ok document) :
    ∃ payload, document = envelope value.type payload := by
  cases value with
  | number | list | map | numberSet =>
    obtain ⟨_, -, rfl⟩ := map_eq_ok_iff.mp h
    exact ⟨_, rfl⟩
  | _ =>
    obtain rfl := Except.ok.inj h
    exact ⟨_, rfl⟩

theorem type_of_toWire {type : AttributeType} {payload : Json}
    (h : toWire value = .ok (envelope type payload)) : value.type = type := by
  obtain ⟨payload', heq⟩ := exists_envelope h
  have htag : type.tag = value.type.tag := by simp_all [envelope]
  have hinjective : ∀ type type' : AttributeType, type.tag = type'.tag → type = type' := by
    intro type type'
    cases type <;> cases type' <;> decide
  exact (hinjective _ _ htag).symm

/-- Well-formed values that are encoded as one document are equal. -/
theorem WellFormed.equals_of_toWire (h : value.WellFormed numeral) (h' : value'.WellFormed numeral)
    (hd : toWire value = .ok document) (hd' : toWire value' = .ok document) :
    Equals value value' := by
  have heq := (h.decodesTo hd).ofWire.symm.trans (h'.decodesTo hd').ofWire
  obtain rfl := Except.ok.inj heq
  exact h.equals_self hd

/-- Only in what is encoded from a list or a map, members may change their places. -/
theorem eq_of_alike_toWire (list : value.type ≠ .list) (map : value.type ≠ .map)
    (hd : toWire value = .ok document) (alike : document.Alike document') :
    document' = document := by
  cases value with
  | list | map => contradiction
  | number =>
    obtain ⟨_, -, rfl⟩ := map_eq_ok_iff.mp hd
    obtain ⟨payload, rfl, hpayload⟩ := alike_envelope alike
    exact congrArg _ hpayload
  | numberSet =>
    obtain ⟨_, -, rfl⟩ := map_eq_ok_iff.mp hd
    obtain ⟨payload, rfl, hpayload⟩ := alike_envelope alike
    rw [Json.eq_of_alike_texts hpayload]
  | stringSet =>
    obtain rfl := Except.ok.inj hd
    obtain ⟨payload, rfl, hpayload⟩ := alike_envelope alike
    rw [Json.eq_of_alike_texts hpayload]
  | binarySet elements =>
    have htexts : elements.map (fun bytes => Json.string (Base64.encodeString bytes)) =
      (elements.map Base64.encodeString).map Json.string := by simp
    obtain rfl := Except.ok.inj hd
    obtain ⟨payload, rfl, hpayload⟩ := alike_envelope alike
    rw [htexts] at hpayload ⊢
    rw [Json.eq_of_alike_texts hpayload]
  | _ =>
    obtain rfl := Except.ok.inj hd
    obtain ⟨payload, rfl, hpayload⟩ := alike_envelope alike
    exact congrArg _ hpayload

/-- The members that a map without repeated keys is encoded as. -/
theorem exists_members {entries : List (String × Value)} (distinct : (entries.map (·.1)).Nodup)
    (hd : toWire (map entries) = .ok document) :
    ∃ members, document = envelope .map (.object members) ∧
      List.Forall₂ (Dictionary.Corresponds fun value document => toWire value = .ok document)
        entries members := by
  obtain ⟨members, hmembers, rfl⟩ := map_eq_ok_iff.mp hd
  rw [Dictionary.ofEntries_eq_self (by rwa [entriesToWire_keys hmembers])]
  exact ⟨members, rfl, entriesToWire_eq_ok_iff.mp hmembers⟩

/-- Well-formed values that are encoded alike are equal. -/
theorem WellFormed.equals_of_alike (h : value.WellFormed numeral) (h' : value'.WellFormed numeral)
    (hd : toWire value = .ok document) (hd' : toWire value' = .ok document')
    (alike : document.Alike document') : Equals value value' := by
  induction h generalizing value' document document' with
  | @list items _ ih =>
    obtain ⟨documents, hdocuments, rfl⟩ := map_eq_ok_iff.mp hd
    obtain ⟨payload, rfl, hpayload⟩ := alike_envelope alike
    rw [Alike] at hpayload
    obtain ⟨documents', rfl, halike⟩ := hpayload
    have htype := type_of_toWire hd'
    cases h' with
    | list formed' =>
      obtain ⟨_, hdocuments', heq⟩ := map_eq_ok_iff.mp hd'
      obtain rfl : _ = documents' := by simpa [envelope] using heq
      rw [itemsToWire_eq_ok_iff] at hdocuments hdocuments'
      have hitems : List.Forall₂ (fun item document => ∃ document', toWire item = .ok document' ∧
          document'.Alike document) items _ :=
        forall₂_trans_of_mem hdocuments (Json.alikeItems_iff.mp halike)
          fun _ _ document _ _ _ hitem halike => ⟨document, hitem, halike⟩
      refine equals_list_iff.mpr (forall₂_trans_of_mem hitems hdocuments'.flip ?_)
      rintro item hitem _ - item' hitem' ⟨_, hd, halike⟩ hd'
      exact ih item hitem (formed' item' hitem') hd hd' halike
    | _ => contradiction
  | map distinct _ ih =>
    obtain ⟨members, rfl, hmembers⟩ := exists_members distinct hd
    obtain ⟨payload, rfl, hpayload⟩ := alike_envelope alike
    rw [Alike] at hpayload
    obtain ⟨members', rfl, hlength, halike⟩ := hpayload
    have htype := type_of_toWire hd'
    cases h' with
    | map distinct' formed' =>
      obtain ⟨_, heq, hmembers'⟩ := exists_members distinct' hd'
      obtain rfl : members' = _ := by simpa [envelope] using heq
      refine (equals_map_iff distinct distinct').mpr ⟨?_, ?_⟩
      · rw [hmembers.length_eq, hlength, hmembers'.length_eq]
      · intro entry hentry
        obtain ⟨member, hmember, hkey, hd⟩ := exists_of_mem_forall₂ hmembers hentry
        obtain ⟨_, hmem, halike⟩ := Json.alikeMembers_iff.mp halike member hmember
        obtain ⟨entry', hentry', hkey', hd'⟩ := exists_of_mem_forall₂ hmembers'.flip hmem
        rw [← hkey]
        exact ⟨entry'.2, by rwa [hkey'], ih entry hentry (formed' entry' hentry') hd hd' halike⟩
    | _ => contradiction
  | _ =>
    obtain rfl := eq_of_alike_toWire (by nofun) (by nofun) hd alike
    exact WellFormed.equals_of_toWire (by constructor <;> assumption) h' hd hd'

end Value

end AttributeExpr
