import AttributeExpr.Request
import AttributeExpr.Proofs.Key.Schema
import AttributeExpr.Proofs.Provenance
import AttributeExpr.Proofs.Value.Limits
import AttributeExpr.Proofs.Value.WireRoundTrip
/-!
Keys and items. A key is the dictionary of the values of its parts, so that two parts under one name
leave one entry. An item is its key with the entries of its body that the key does not have; where
the body names a key attribute, it gives the same value.
-/
namespace AttributeExpr

open Dictionary (Corresponds)

/-- The values of the parts of a key, each under the name of its attribute. -/
inductive KeyEntries (schema : KeySchema) (partitionText : String) :
    Option String → List (String × Value) → Prop where
  | partition {value : Value} (hsort : schema.sort = none)
      (h : Key.valueOf schema.partition.type partitionText = .ok value) :
      KeyEntries schema partitionText none [(schema.partition.name, value)]
  | both {sort : Key} {sortText : String} {value value' : Value} (hsort : schema.sort = some sort)
      (h : Key.valueOf schema.partition.type partitionText = .ok value)
      (h' : Key.valueOf sort.type sortText = .ok value') :
      KeyEntries schema partitionText (some sortText)
        [(schema.partition.name, value), (sort.name, value')]

section

variable {schema : KeySchema} {partitionText : String} {sortText : Option String}
  {entries : List (String × Value)} {key : Dictionary Json}

theorem KeyEntries.isOperand (h : KeyEntries schema partitionText sortText entries) :
    ∀ entry ∈ entries, entry.2.IsOperand := by
  cases h with
  | partition _ h => simpa using Key.isOperand_of_valueOf h
  | both _ h h' => simpa using ⟨Key.isOperand_of_valueOf h, Key.isOperand_of_valueOf h'⟩

theorem buildKey_eq_ok_iff :
    buildKey schema partitionText sortText = .ok key ↔
      ∃ entries members, KeyEntries schema partitionText sortText entries ∧
        Value.entriesToWire entries = .ok members ∧ key = Dictionary.ofEntries members := by
  unfold buildKey
  simp only [bind_eq_ok_iff, Value.encode_eq_ok_iff]
  constructor
  · rintro ⟨value, hvalue, wire, hwire, h⟩
    split at h
    · next hsort =>
      obtain rfl := Except.ok.inj h
      refine ⟨_, [(schema.partition.name, wire)], .partition hsort hvalue, ?_, rfl⟩
      exact Value.entriesToWire_eq_ok_iff.mpr (.cons ⟨rfl, hwire⟩ .nil)
    · contradiction
    · contradiction
    · next text sort hsort =>
      obtain ⟨value', hvalue', h⟩ := bind_eq_ok_iff.mp h
      obtain ⟨wire', hwire', h⟩ := bind_eq_ok_iff.mp h
      obtain rfl := Except.ok.inj h
      refine ⟨_, [(schema.partition.name, wire), (sort.name, wire')], .both hsort hvalue hvalue',
        ?_, rfl⟩
      rw [Value.encode_eq_ok_iff] at hwire'
      exact Value.entriesToWire_eq_ok_iff.mpr (.cons ⟨rfl, hwire⟩ (.cons ⟨rfl, hwire'⟩ .nil))
  · rintro ⟨entries, members, hentries, hmembers, rfl⟩
    rw [Value.entriesToWire_eq_ok_iff] at hmembers
    cases hentries with
    | partition hsort h =>
      obtain ⟨⟨name, wire⟩, _, ⟨rfl, hwire⟩, hnil, rfl⟩ := List.forall₂_cons_left_iff.mp hmembers
      obtain rfl := List.forall₂_nil_left_iff.mp hnil
      exact ⟨_, h, wire, hwire, by rw [hsort]; rfl⟩
    | both hsort h h' =>
      obtain ⟨⟨name, wire⟩, _, ⟨rfl, hwire⟩, hrest, rfl⟩ := List.forall₂_cons_left_iff.mp hmembers
      obtain ⟨⟨name', wire'⟩, _, ⟨rfl, hwire'⟩, hnil, rfl⟩ :=
        List.forall₂_cons_left_iff.mp hrest
      obtain rfl := List.forall₂_nil_left_iff.mp hnil
      refine ⟨_, h, wire, hwire, ?_⟩
      rw [hsort]
      simp only [bind_eq_ok_iff, Value.encode_eq_ok_iff]
      exact ⟨_, h', wire', hwire', rfl⟩

theorem buildKey_both {sort : Key} {sortText : String} {value value' : Value} {wire wire' : Json}
    (hsort : schema.sort = some sort)
    (hvalue : Key.valueOf schema.partition.type partitionText = .ok value)
    (hvalue' : Key.valueOf sort.type sortText = .ok value') (hwire : value.toWire = .ok wire)
    (hwire' : value'.toWire = .ok wire') :
    buildKey schema partitionText (some sortText) =
      .ok (Dictionary.insert [(schema.partition.name, wire)] sort.name wire') := by
  refine buildKey_eq_ok_iff.mpr
    ⟨_, [(schema.partition.name, wire), (sort.name, wire')], .both hsort hvalue hvalue', ?_, rfl⟩
  exact Value.entriesToWire_eq_ok_iff.mpr (.cons ⟨rfl, hwire⟩ (.cons ⟨rfl, hwire'⟩ .nil))

theorem nodup_buildKey (h : buildKey schema partitionText sortText = .ok key) :
    (key.map (·.1)).Nodup := by
  obtain ⟨_, members, _, _, rfl⟩ := buildKey_eq_ok_iff.mp h
  exact Dictionary.nodup_ofEntries members

/-- The envelope of a key value. -/
def IsKeyEnvelope (document : Json) : Prop := ∃ tag text, document = .object [(tag, .string text)]

theorem Value.IsOperand.isKeyEnvelope {value : Value} (h : value.IsOperand) {document : Json}
    (hd : value.toWire = .ok document) : IsKeyEnvelope document := by
  cases h with
  | number =>
    obtain ⟨d, -, rfl⟩ := map_eq_ok_iff.mp hd
    exact ⟨_, _, rfl⟩
  | string | binary =>
    obtain rfl := Except.ok.inj hd
    exact ⟨_, _, rfl⟩

theorem isKeyEnvelope_of_buildKey (h : buildKey schema partitionText sortText = .ok key) :
    ∀ entry ∈ key, IsKeyEnvelope entry.2 := by
  obtain ⟨entries, members, hentries, hmembers, rfl⟩ := buildKey_eq_ok_iff.mp h
  intro entry hentry
  have hmem := Dictionary.mem_of_mem_ofEntries entry hentry
  obtain ⟨original, horiginal, -, hwire⟩ :=
    exists_of_mem_forall₂ (Value.entriesToWire_eq_ok_iff.mp hmembers).flip hmem
  exact (hentries.isOperand original horiginal).isKeyEnvelope hwire

/-- A key of two parts has both of them just if they go under different names. Otherwise the value
of the sort key has taken the place of that of the partition key. -/
theorem buildKey_both_iff {text : String} {sort : Key} {sortText : String} {value value' : Value}
    (hschema : KeySchema.parse text = .ok schema) (hsort : schema.sort = some sort)
    (hvalue : Key.valueOf schema.partition.type partitionText = .ok value)
    (hvalue' : Key.valueOf sort.type sortText = .ok value') (encodable : value.Encodable)
    (encodable' : value'.Encodable) :
    ∃ part part' wire wire',
      (text.toList.splitOn ',').filter (fun part => !part.all isBlank) = [part, part'] ∧
      Key.Writes part schema.partition.name.toList ∧ Key.Writes part' sort.name.toList ∧
      value.toWire = .ok wire ∧ value'.toWire = .ok wire' ∧
      (buildKey schema partitionText (some sortText) =
          .ok [(schema.partition.name, wire), (sort.name, wire')] ↔
        ∀ name, Key.Writes part name → ¬ Key.Writes part' name) ∧
      (schema.partition.name = sort.name →
        buildKey schema partitionText (some sortText) = .ok [(sort.name, wire')]) := by
  obtain ⟨part, part', hparts, hwrites, hwrites'⟩ := KeySchema.writes_of_parse hschema hsort
  obtain ⟨wire, hwire⟩ := Value.exists_toWire_iff.mpr encodable
  obtain ⟨wire', hwire'⟩ := Value.exists_toWire_iff.mpr encodable'
  have hkey := buildKey_both hsort hvalue hvalue' hwire hwire'
  have hone (hname : schema.partition.name = sort.name) :
      buildKey schema partitionText (some sortText) = .ok [(sort.name, wire')] := by
    rw [hkey, Dictionary.insert, if_pos hname, hname]
  refine ⟨part, part', wire, wire', hparts, hwrites, hwrites', hwire, hwire', ?_, hone⟩
  constructor
  · intro hboth name h h'
    have hname : schema.partition.name = sort.name :=
      String.toList_injective ((hwrites.unique h).trans (h'.unique hwrites'))
    rw [hone hname] at hboth
    simpa using Except.ok.inj hboth
  · intro hdisjoint
    have hname : schema.partition.name ≠ sort.name := by
      intro hname
      exact hdisjoint _ hwrites (hname ▸ hwrites')
    rw [hkey, Dictionary.insert, if_neg hname]
    rfl

theorem toWire_number {text : String} (h : Value.checkNumbers [text] = .ok ()) :
    (Value.number text).toWire = .ok (Value.envelope .number (.string text)) := by
  obtain ⟨d, hd⟩ := Value.checkNumbers_eq_ok_iff_forall.mp h text (List.mem_singleton_self text)
  rw [Value.toWire, hd]
  rfl

/-- Blanks around the names and a part without a key. -/
theorem buildKey_both_iff_blanks :
    let schema : KeySchema := ⟨⟨"pk", .string⟩, some ⟨"sk", .number⟩⟩
    KeySchema.parse " pk : s ,, sk:n" = .ok schema ∧
      buildKey schema "a" (some "7") = .ok [("pk", Value.envelope .string (.string "a")),
        ("sk", Value.envelope .number (.string "7"))] ∧
      ∃ part part', (" pk : s ,, sk:n".toList.splitOn ',').filter
          (fun part => !part.all isBlank) = [part, part'] ∧
        ∀ name, Key.Writes part name → ¬ Key.Writes part' name := by
  intro schema
  have hschema : KeySchema.parse " pk : s ,, sk:n" = .ok schema := by cbv
  have hvalue' : Key.valueOf .number "7" = .ok (.number "7") := by cbv
  have hnumber := toWire_number (show Value.checkNumbers ["7"] = .ok () by decide +kernel)
  have hkey : buildKey schema "a" (some "7") = .ok [("pk", Value.envelope .string (.string "a")),
      ("sk", Value.envelope .number (.string "7"))] :=
    @buildKey_both schema "a" _ "7" _ _ _ _ rfl rfl hvalue' rfl hnumber
  obtain ⟨part, part', wire, wire', hparts, -, -, hwire, hwire', hboth, -⟩ :=
    buildKey_both_iff hschema rfl rfl hvalue' (Value.exists_toWire_iff.mp ⟨_, rfl⟩)
      (Value.exists_toWire_iff.mp ⟨_, hnumber⟩)
  obtain rfl := Except.ok.inj hwire
  obtain rfl := Except.ok.inj (hnumber.symm.trans hwire')
  exact ⟨hschema, hkey, part, part', hparts, hboth.mp hkey⟩

/-- Both keys go under one name, and the value of the partition key is lost. -/
theorem not_buildKey_both :
    let schema : KeySchema := ⟨⟨"id", .string⟩, some ⟨"id", .number⟩⟩
    let partition := Value.envelope .string (.string "a")
    let sort := Value.envelope .number (.string "7")
    KeySchema.parse "id,id:N" = .ok schema ∧
      Key.valueOf .string "a" = .ok (.string "a") ∧ (Value.string "a").toWire = .ok partition ∧
      Key.valueOf .number "7" = .ok (.number "7") ∧ (Value.number "7").toWire = .ok sort ∧
      buildKey schema "a" (some "7") = .ok [("id", sort)] ∧
      buildKey schema "a" (some "7") ≠ .ok [("id", partition), ("id", sort)] := by
  intro schema partition sort
  have hvalue' : Key.valueOf .number "7" = .ok (.number "7") := by cbv
  have hnumber := toWire_number (show Value.checkNumbers ["7"] = .ok () by decide +kernel)
  have hkey : buildKey schema "a" (some "7") = .ok [("id", sort)] :=
    @buildKey_both schema "a" _ "7" _ _ _ _ rfl rfl hvalue' rfl hnumber
  refine ⟨by cbv, rfl, rfl, hvalue', hnumber, hkey, ?_⟩
  rw [hkey]
  intro heq
  have hlength : 1 = 2 := congrArg List.length (Except.ok.inj heq)
  contradiction

end

/-! The entries of a body. -/

theorem isSameKeyValue_iff {key other : Json} (h : IsKeyEnvelope key) :
    isSameKeyValue key other = true ↔ other = key := by
  obtain ⟨tag, text, rfl⟩ := h
  unfold isSameKeyValue
  split
  · next heq =>
    cases heq
    rw [Bool.and_eq_true, decide_eq_true_eq, decide_eq_true_eq]
    constructor
    · rintro ⟨rfl, rfl⟩
      rfl
    · rintro ⟨⟩
      exact ⟨rfl, rfl⟩
  · next hno =>
    constructor
    · intro h
      contradiction
    · rintro rfl
      exact (hno _ _ _ _ rfl rfl).elim

theorem addEntries_cons_eq_ok_iff {item result : Dictionary Json} {name : String} {value : Value}
    {rest : List (String × Value)} :
    addEntries item ((name, value) :: rest) = .ok result ↔
      ∃ envelope, value.toWire = .ok envelope ∧
        (∀ present, Dictionary.get? item name = some present →
          isSameKeyValue present envelope = true) ∧
        addEntries (Dictionary.insert item name envelope) rest = .ok result := by
  rw [addEntries]
  simp only [bind_eq_ok_iff, Value.encode_eq_ok_iff]
  refine exists_congr fun envelope => and_congr_right fun _ => ?_
  cases Dictionary.get? item name with
  | none => simp
  | some present =>
    cases hsame : isSameKeyValue present envelope <;> simp [hsame, refuse, bind, Except.bind]

/-- A body is added to an item if its values can be encoded and agree with what the item has. -/
theorem addEntries_eq_ok_iff {item result : Dictionary Json} {entries : List (String × Value)}
    (distinct : (entries.map (·.1)).Nodup)
    (keys : ∀ entry ∈ entries, ∀ present, Dictionary.get? item entry.1 = some present →
      IsKeyEnvelope present) :
    addEntries item entries = .ok result ↔
      ∃ members, Value.entriesToWire entries = .ok members ∧
        (∀ member ∈ members, ∀ present, Dictionary.get? item member.1 = some present →
          member.2 = present) ∧
        result = members.foldl (fun d (key, value) => Dictionary.insert d key value) item := by
  induction entries generalizing item with
  | nil => simp [addEntries, Value.entriesToWire, eq_comm]
  | cons entry entries ih =>
    obtain ⟨name, value⟩ := entry
    obtain ⟨hname, hdistinct⟩ := List.nodup_cons.mp distinct
    obtain ⟨hfirst, hrest⟩ := List.forall_mem_cons.mp keys
    -- What is inserted under the name does not show under those of the other entries.
    have frame (envelope : Json) {other : String} (hother : other ∈ entries.map (·.1)) :
        Dictionary.get? (Dictionary.insert item name envelope) other =
          Dictionary.get? item other := by
      apply Dictionary.get?_insert_of_ne
      rintro rfl
      exact hname hother
    have hkeys (envelope : Json) : ∀ entry ∈ entries, ∀ present,
        Dictionary.get? (Dictionary.insert item name envelope) entry.1 = some present →
          IsKeyEnvelope present := by
      intro entry hentry present hpresent
      rw [frame envelope (List.mem_map.mpr ⟨entry, hentry, rfl⟩)] at hpresent
      exact hrest entry hentry present hpresent
    have agree {envelope : Json} {members : List (String × Json)}
        (hmembers : Value.entriesToWire entries = .ok members) :
        (∀ member ∈ members, ∀ present,
          Dictionary.get? (Dictionary.insert item name envelope) member.1 = some present →
            member.2 = present) ↔
        ∀ member ∈ members, ∀ present, Dictionary.get? item member.1 = some present →
          member.2 = present := by
      refine forall₂_congr fun member hmember => ?_
      rw [frame envelope]
      rw [← Value.entriesToWire_keys hmembers]
      exact List.mem_map.mpr ⟨member, hmember, rfl⟩
    rw [addEntries_cons_eq_ok_iff]
    constructor
    · rintro ⟨envelope, henvelope, hsame, hadd⟩
      obtain ⟨members, hmembers, hagree, rfl⟩ := (ih hdistinct (hkeys envelope)).mp hadd
      refine ⟨(name, envelope) :: members, ?_, List.forall_mem_cons.mpr ⟨?_, ?_⟩, rfl⟩
      · rw [Value.entriesToWire, henvelope, hmembers]
        rfl
      · intro present hpresent
        exact (isSameKeyValue_iff (hfirst present hpresent)).mp (hsame present hpresent)
      · exact (agree hmembers).mp hagree
    · rintro ⟨_, hwire, hagree, rfl⟩
      obtain ⟨⟨_, envelope⟩, members, ⟨rfl, henvelope⟩, hmembers, rfl⟩ :=
        List.forall₂_cons_left_iff.mp (Value.entriesToWire_eq_ok_iff.mp hwire)
      rw [← Value.entriesToWire_eq_ok_iff] at hmembers
      obtain ⟨hagreeFirst, hagreeRest⟩ := List.forall_mem_cons.mp hagree
      refine ⟨envelope, henvelope, ?_, ?_⟩
      · intro present hpresent
        exact (isSameKeyValue_iff (hfirst present hpresent)).mpr (hagreeFirst present hpresent)
      · exact (ih hdistinct (hkeys envelope)).mpr
          ⟨members, hmembers, (agree hmembers).mpr hagreeRest, rfl⟩

/-! The item. -/

variable {inferring : Bool} {schema : KeySchema} {partitionText : String}
  {sortText : Option String} {text : String} {key item : Dictionary Json}
  {entries : List (String × Value)}

theorem buildItem_body_eq_ok_iff (nonempty : text ≠ "") :
    buildItem inferring schema partitionText sortText (some text) = .ok item ↔
      ∃ key entries, buildKey schema partitionText sortText = .ok key ∧
        Value.parseItem inferring text = .ok entries ∧ addEntries key entries = .ok item := by
  unfold buildItem
  rw [bind_eq_ok_iff]
  refine exists_congr fun key => ?_
  rw [exists_and_left]
  refine and_congr_right fun _ => ?_
  split
  · contradiction
  · next heq =>
    obtain rfl := Option.some.inj heq
    contradiction
  · next heq =>
    obtain rfl := Option.some.inj heq
    exact bind_eq_ok_iff

theorem distinct_of_parseItem (h : Value.parseItem inferring text = .ok entries) :
    (entries.map (·.1)).Nodup := by
  cases Value.proper_of_parseItem h with
  | map distinct => exact distinct

/-- A body that agrees with a key adds to it what the key does not have. -/
theorem addEntries_key_eq_ok_iff (hkey : buildKey schema partitionText sortText = .ok key)
    (distinct : (entries.map (·.1)).Nodup) :
    addEntries key entries = .ok item ↔
      ∃ members, Value.entriesToWire entries = .ok members ∧
        (∀ member ∈ members, member.1 ∈ key.map (·.1) → member ∈ key) ∧
        item = key ++ members.filter (·.1 ∉ key.map (·.1)) := by
  have hnodup := nodup_buildKey hkey
  have henvelopes : ∀ entry ∈ entries, ∀ present,
      Dictionary.get? key entry.1 = some present → IsKeyEnvelope present := by
    intro entry _ present hpresent
    rw [Dictionary.get?_eq_some_iff hnodup] at hpresent
    exact isKeyEnvelope_of_buildKey hkey _ hpresent
  have hagree (member : String × Json) :
      (∀ present, Dictionary.get? key member.1 = some present → member.2 = present) ↔
        (member.1 ∈ key.map (·.1) → member ∈ key) := by
    simp only [Dictionary.get?_eq_some_iff hnodup]
    constructor
    · intro h hmem
      obtain ⟨⟨name, document⟩, hpresent, hname⟩ := List.mem_map.mp hmem
      obtain rfl : name = member.1 := hname
      rwa [← h document hpresent] at hpresent
    · intro h present hpresent
      exact Dictionary.eq_of_mem hnodup (h (List.mem_map.mpr ⟨_, hpresent, rfl⟩)) hpresent
  rw [addEntries_eq_ok_iff distinct henvelopes]
  simp only [hagree]
  refine exists_congr fun members => and_congr_right fun hmembers => and_congr_right fun h => ?_
  rw [← Value.entriesToWire_keys hmembers] at distinct
  rw [Dictionary.foldl_insert_eq_append_filter hnodup distinct h]

theorem exists_entriesToWire (h : ∀ entry ∈ entries, ∃ document, entry.2.toWire = .ok document) :
    ∃ members, Value.entriesToWire entries = .ok members := by
  induction entries with
  | nil => exact ⟨[], rfl⟩
  | cons entry entries ih =>
    obtain ⟨⟨document, hdocument⟩, hentries⟩ := List.forall_mem_cons.mp h
    obtain ⟨members, hmembers⟩ := ih hentries
    exact ⟨(entry.1, document) :: members, by rw [Value.entriesToWire, hdocument, hmembers]; rfl⟩

/-- A body can be added to a key if its values can be encoded, and those under names of the key are
encoded as the key has them. -/
theorem exists_addEntries_iff (hkey : buildKey schema partitionText sortText = .ok key)
    (distinct : (entries.map (·.1)).Nodup) :
    (∃ item, addEntries key entries = .ok item) ↔
      (∀ entry ∈ entries, ∃ document, entry.2.toWire = .ok document) ∧
        ∀ entry ∈ entries, ∀ document, (entry.1, document) ∈ key →
          entry.2.toWire = .ok document := by
  constructor
  · rintro ⟨item, hadd⟩
    obtain ⟨members, hmembers, hagree, -⟩ := (addEntries_key_eq_ok_iff hkey distinct).mp hadd
    rw [Value.entriesToWire_eq_ok_iff] at hmembers
    constructor
    · intro entry hentry
      obtain ⟨member, -, -, hwire⟩ := exists_of_mem_forall₂ hmembers hentry
      exact ⟨member.2, hwire⟩
    · intro entry hentry document hmem
      obtain ⟨⟨_, document'⟩, hmember, rfl, hwire⟩ := exists_of_mem_forall₂ hmembers hentry
      have hpresent := hagree _ hmember (List.mem_map.mpr ⟨_, hmem, rfl⟩)
      rwa [Dictionary.eq_of_mem (nodup_buildKey hkey) hmem hpresent]
  · rintro ⟨hencoded, hagree⟩
    obtain ⟨members, hmembers⟩ := exists_entriesToWire hencoded
    refine ⟨_, (addEntries_key_eq_ok_iff hkey distinct).mpr ⟨members, hmembers, ?_, rfl⟩⟩
    intro member hmember hname
    obtain ⟨⟨_, document⟩, hpresent, rfl⟩ := List.mem_map.mp hname
    rw [Value.entriesToWire_eq_ok_iff] at hmembers
    obtain ⟨entry, hentry, heq, hwire⟩ := exists_of_mem_forall₂ hmembers.flip hmember
    have hdocument := hagree entry hentry document (heq ▸ hpresent)
    obtain rfl := Except.ok.inj (hdocument.symm.trans hwire)
    exact hpresent

/-- An item is what the map of the key entries and of all entries of the body is encoded as. -/
theorem toWire_item {keyEntries : List (String × Value)} {keyMembers members : List (String × Json)}
    (hkey : Value.entriesToWire keyEntries = .ok keyMembers)
    (hmembers : Value.entriesToWire entries = .ok members) (distinct : (entries.map (·.1)).Nodup)
    (agree : ∀ member ∈ members, member.1 ∈ (Dictionary.ofEntries keyMembers).map (·.1) →
      member ∈ Dictionary.ofEntries keyMembers) :
    (Value.map (keyEntries ++ entries)).toWire = .ok (Value.envelope .map (.object
      (Dictionary.ofEntries keyMembers ++
        members.filter (·.1 ∉ (Dictionary.ofEntries keyMembers).map (·.1))))) := by
  have hentries : Value.entriesToWire (keyEntries ++ entries) = .ok (keyMembers ++ members) := by
    rw [Value.entriesToWire_eq_ok_iff] at hkey hmembers ⊢
    exact List.rel_append hkey hmembers
  rw [← Value.entriesToWire_keys hmembers] at distinct
  have hitem : Dictionary.ofEntries (keyMembers ++ members) = Dictionary.ofEntries keyMembers ++
      members.filter (·.1 ∉ (Dictionary.ofEntries keyMembers).map (·.1)) := by
    rw [← Dictionary.foldl_insert_eq_append_filter (Dictionary.nodup_ofEntries keyMembers) distinct
      agree]
    exact List.foldl_append
  rw [Value.toWire, hentries, ← hitem]
  rfl

theorem setsSound_entries (hkey : KeyEntries schema partitionText sortText entries)
    {body : List (String × Value)} (hbody : Value.parseItem inferring text = .ok body) :
    (Value.map (entries ++ body)).SetsSound := by
  have hvalues : ∀ entry ∈ body, entry.2.SetsSound := by
    cases Value.WellFormed.setsSound (Value.proper_of_parseItem hbody) with
    | map h => exact h
  refine .map (List.forall_mem_append.mpr ⟨fun entry hentry => ?_, hvalues⟩)
  exact (hkey.isOperand entry hentry).isScalar.sound.setsSound

/-- A key and a body make an item just if both can be read, the values of the body can be encoded,
and those under names of the key are encoded as the key has them. The item is the key with the
other entries of the body behind it, and it is decoded as the map of all of them. -/
theorem buildItem_iff (nonempty : text ≠ "") :
    ((∃ item, buildItem inferring schema partitionText sortText (some text) = .ok item) ↔
      ∃ key entries, buildKey schema partitionText sortText = .ok key ∧
        Value.parseItem inferring text = .ok entries ∧
        (∀ entry ∈ entries, ∃ document, entry.2.toWire = .ok document) ∧
        ∀ entry ∈ entries, ∀ document, (entry.1, document) ∈ key →
          entry.2.toWire = .ok document) ∧
    ∀ item, buildItem inferring schema partitionText sortText (some text) = .ok item →
      ∃ key entries further keyEntries decoded,
        buildKey schema partitionText sortText = .ok key ∧
        Value.parseItem inferring text = .ok entries ∧
        item = key ++ further ∧
        List.Forall₂ (Corresponds fun value document => value.toWire = .ok document)
          (entries.filter (·.1 ∉ key.map (·.1))) further ∧
        KeyEntries schema partitionText sortText keyEntries ∧
        Value.ofWire (Value.envelope .map (.object item)) = .ok decoded ∧
        Value.equal decoded (.map (keyEntries ++ entries)) = .ok true := by
  simp only [buildItem_body_eq_ok_iff nonempty]
  constructor
  · constructor
    · rintro ⟨item, key, entries, hkey, hbody, hadd⟩
      exact ⟨key, entries, hkey, hbody,
        (exists_addEntries_iff hkey (distinct_of_parseItem hbody)).mp ⟨item, hadd⟩⟩
    · rintro ⟨key, entries, hkey, hbody, hagree⟩
      obtain ⟨item, hadd⟩ :=
        (exists_addEntries_iff hkey (distinct_of_parseItem hbody)).mpr hagree
      exact ⟨item, key, entries, hkey, hbody, hadd⟩
  · rintro item ⟨key, entries, hkey, hbody, hadd⟩
    obtain ⟨members, hmembers, hagree, rfl⟩ :=
      (addEntries_key_eq_ok_iff hkey (distinct_of_parseItem hbody)).mp hadd
    obtain ⟨keyEntries, keyMembers, hentries, hkeyMembers, rfl⟩ := buildKey_eq_ok_iff.mp hkey
    have hwire := toWire_item hkeyMembers hmembers (distinct_of_parseItem hbody) hagree
    obtain ⟨hdecoded, hequal, -⟩ := Value.ofWire_toWire (setsSound_entries hentries hbody) hwire
    refine ⟨_, entries, _, keyEntries, _, hkey, hbody, rfl, ?_, hentries, hdecoded, hequal⟩
    refine List.rel_filter ?_ (Value.entriesToWire_eq_ok_iff.mp hmembers)
    rintro entry member ⟨hname, -⟩
    simp [hname]

set_option maxRecDepth 4000 in
/-- The body gives the sort key again, in front of another attribute. -/
theorem buildItem_iff_again :
    let schema : KeySchema := ⟨⟨"pk", .string⟩, some ⟨"sk", .string⟩⟩
    let text := "\x7bsk: 'x', on: true\x7d"
    let item := [("pk", Value.envelope .string (.string "a")),
      ("sk", Value.envelope .string (.string "x")), ("on", Value.envelope .bool (.bool true))]
    buildItem false schema "a" (some "x") (some text) = .ok item ∧
      ∃ entries keyEntries decoded, Value.parseItem false text = .ok entries ∧
        KeyEntries schema "a" (some "x") keyEntries ∧
        Value.ofWire (Value.envelope .map (.object item)) = .ok decoded ∧
        Value.equal decoded (.map (keyEntries ++ entries)) = .ok true := by
  intro schema text item
  have hbody : Value.parseItem false text = .ok [("sk", .string "x"), ("on", .bool true)] := by cbv
  have hitem : buildItem false schema "a" (some "x") (some text) = .ok item :=
    (buildItem_body_eq_ok_iff (by decide)).mpr ⟨_, _, rfl, hbody, rfl⟩
  obtain ⟨_, entries, _, keyEntries, decoded, -, hentries, -, -, hkey, hdecoded, hequal⟩ :=
    (buildItem_iff (by decide)).2 item hitem
  exact ⟨hitem, entries, keyEntries, decoded, hentries, hkey, hdecoded, hequal⟩

end AttributeExpr
