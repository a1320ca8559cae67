import AttributeExpr.Dictionary
import Mathlib.Tactic
/-!
Dictionaries. The keys of one differ, and if those of its entries did, nothing was overwritten when
it was built: it lists its entries as they were given, and looking a key up finds the only entry
under it. Dictionaries built from entries that correspond correspond again.
-/
namespace AttributeExpr.Dictionary

variable {α : Type}

theorem insert_of_notMem {d : Dictionary α} {key : String} (h : key ∉ d.map (·.1)) (value : α) :
    insert d key value = d ++ [(key, value)] := by
  induction d with
  | nil => rfl
  | cons entry d ih =>
    obtain ⟨hne, hd⟩ := List.ne_and_not_mem_of_not_mem_cons h
    rw [insert, if_neg (Ne.symm hne), ih hd, List.cons_append]

theorem foldl_insert_eq_append (entries d : Dictionary α)
    (h : ((d ++ entries).map (·.1)).Nodup) :
    entries.foldl (fun d (key, value) => insert d key value) d = d ++ entries := by
  induction entries generalizing d with
  | nil => simp
  | cons entry entries ih =>
    obtain ⟨key, value⟩ := entry
    have hnew : key ∉ d.map (·.1) := by
      rw [List.map_append, List.map_cons] at h
      intro hmem
      exact List.disjoint_of_nodup_append h hmem (by simp)
    simp only [List.foldl_cons, insert_of_notMem hnew]
    rw [ih _ (by simpa using h)]
    simp

theorem ofEntries_eq_self {entries : List (String × α)} (h : (entries.map (·.1)).Nodup) :
    ofEntries entries = entries :=
  foldl_insert_eq_append entries [] h

theorem get?_eq_some_iff {d : Dictionary α} (h : (d.map (·.1)).Nodup) {key : String} {value : α} :
    get? d key = some value ↔ (key, value) ∈ d := by
  induction d with
  | nil => simp [get?]
  | cons entry d ih =>
    obtain ⟨k, v⟩ := entry
    obtain ⟨hk, hd⟩ := List.nodup_cons.mp h
    unfold get? at ih ⊢
    by_cases hkey : key = k
    · subst hkey
      have hno : (key, value) ∉ d := fun hmem => hk (List.mem_map.mpr ⟨_, hmem, rfl⟩)
      simp [hno, eq_comm]
    · have hbeq : (key == k) = false := by simpa using hkey
      simp [List.lookup_cons, hbeq, hkey, ih hd]

/-- No two entries have the same key. -/
theorem eq_of_mem {d : Dictionary α} (h : (d.map (·.1)).Nodup) {key : String} {value value' : α}
    (hmem : (key, value) ∈ d) (hmem' : (key, value') ∈ d) : value = value' := by
  rw [← get?_eq_some_iff h] at hmem hmem'
  exact Option.some.inj (hmem.symm.trans hmem')

theorem keys_insert_of_mem {d : Dictionary α} {key : String} (h : key ∈ d.map (·.1)) (value : α) :
    (insert d key value).map (·.1) = d.map (·.1) := by
  induction d with
  | nil => contradiction
  | cons entry d ih =>
    rw [insert]
    split_ifs with hkey
    · rfl
    · rw [List.map_cons, List.map_cons, ih]
      simpa [Ne.symm hkey] using h

theorem nodup_insert {d : Dictionary α} (h : (d.map (·.1)).Nodup) (key : String) (value : α) :
    ((insert d key value).map (·.1)).Nodup := by
  by_cases hkey : key ∈ d.map (·.1)
  · rwa [keys_insert_of_mem hkey]
  · rw [insert_of_notMem hkey, List.map_append, List.nodup_append]
    refine ⟨h, by simp, ?_⟩
    rintro k hk _ hsingle rfl
    obtain rfl : k = key := by simpa using hsingle
    exact hkey hk

theorem mem_of_mem_insert {d : Dictionary α} {key : String} {value : α} {entry : String × α}
    (h : entry ∈ insert d key value) : entry ∈ d ∨ entry = (key, value) := by
  induction d with
  | nil => exact .inr (List.mem_singleton.mp h)
  | cons first d ih =>
    rw [insert] at h
    split_ifs at h with hkey
    · subst hkey
      exact (List.mem_cons.mp h).symm.imp (List.mem_cons_of_mem first) id
    · rcases List.mem_cons.mp h with rfl | h
      · exact .inl List.mem_cons_self
      · exact (ih h).imp_left (List.mem_cons_of_mem first)

theorem get?_insert_of_ne {d : Dictionary α} {key other : String} (h : other ≠ key) (value : α) :
    get? (insert d key value) other = get? d other := by
  have hne : (other == key) = false := beq_eq_false_iff_ne.mpr h
  induction d with
  | nil => simp [insert, get?, List.lookup_cons, hne]
  | cons entry d ih =>
    obtain ⟨k, v⟩ := entry
    unfold get? at ih ⊢
    rw [insert]
    split_ifs with hkey
    · subst hkey
      rw [List.lookup_cons, List.lookup_cons, hne]
    · rw [List.lookup_cons, List.lookup_cons, ih]

/-- An entry that is there may be inserted again. -/
theorem insert_of_mem {d : Dictionary α} (hd : (d.map (·.1)).Nodup) {key : String} {value : α}
    (h : (key, value) ∈ d) : insert d key value = d := by
  induction d with
  | nil => contradiction
  | cons entry d ih =>
    obtain ⟨k, v⟩ := entry
    obtain ⟨hk, hrest⟩ := List.nodup_cons.mp hd
    rw [insert]
    split_ifs with hkey
    · subst hkey
      rw [eq_of_mem hd h List.mem_cons_self]
    · have hmem : (key, value) ∈ d := by simpa [Ne.symm hkey] using h
      rw [ih hrest hmem]

/-- Entries of which some are there already add the other ones. -/
theorem foldl_insert_eq_append_filter {d entries : Dictionary α} (hd : (d.map (·.1)).Nodup)
    (h : (entries.map (·.1)).Nodup)
    (agree : ∀ entry ∈ entries, entry.1 ∈ d.map (·.1) → entry ∈ d) :
    entries.foldl (fun d (key, value) => insert d key value) d =
      d ++ entries.filter (·.1 ∉ d.map (·.1)) := by
  induction entries generalizing d with
  | nil => simp
  | cons entry entries ih =>
    obtain ⟨key, value⟩ := entry
    obtain ⟨hkey, hentries⟩ := List.nodup_cons.mp h
    obtain ⟨hfirst, hrest⟩ := List.forall_mem_cons.mp agree
    rw [List.foldl_cons]
    dsimp only
    by_cases hmem : key ∈ d.map (·.1)
    · rw [insert_of_mem hd (hfirst hmem), ih hd hentries hrest,
        List.filter_cons_of_neg (by simpa using hmem)]
    · have hinsert := insert_of_notMem hmem value
      have hdifferent : ∀ other ∈ entries, other.1 ≠ key := by
        rintro other hother rfl
        exact hkey (List.mem_map.mpr ⟨other, hother, rfl⟩)
      have hagree : ∀ other ∈ entries, other.1 ∈ (insert d key value).map (·.1) →
          other ∈ insert d key value := by
        intro other hother hin
        rw [hinsert] at hin ⊢
        have hin' : other.1 ∈ d.map (·.1) := by simpa [hdifferent other hother] using hin
        exact List.mem_append_left _ (hrest other hother hin')
      have hfilter : entries.filter (·.1 ∉ (d ++ [(key, value)]).map (·.1)) =
          entries.filter (·.1 ∉ d.map (·.1)) := by
        apply List.filter_congr
        intro other hother
        simp [hdifferent other hother]
      rw [ih (nodup_insert hd key value) hentries hagree, hinsert, hfilter,
        List.filter_cons_of_pos (by simpa using hmem), List.append_assoc, List.singleton_append]

/-- What inserting an entry preserves holds of the dictionary of all of them. -/
theorem ofEntries_induction {P : Dictionary α → Prop} {entries : List (String × α)} (empty : P [])
    (step : ∀ d, P d → ∀ entry ∈ entries, P (insert d entry.1 entry.2)) : P (ofEntries entries) :=
  List.foldlRecOn (motive := P) entries _ empty step

/-- A dictionary has no entries but those it is built from. -/
theorem mem_of_mem_ofEntries {entries : List (String × α)} :
    ∀ entry ∈ ofEntries entries, entry ∈ entries := by
  refine ofEntries_induction (P := fun d => ∀ entry ∈ d, entry ∈ entries) (by simp) ?_
  intro d hd new hnew entry hentry
  rcases mem_of_mem_insert hentry with hmem | rfl
  · exact hd entry hmem
  · exact hnew

/-- The keys of a dictionary differ, whatever it is built from. -/
theorem nodup_ofEntries (entries : List (String × α)) : ((ofEntries entries).map (·.1)).Nodup := by
  refine ofEntries_induction (P := fun d => (d.map (·.1)).Nodup) List.nodup_nil ?_
  intro d hd entry _
  exact nodup_insert hd entry.1 entry.2

section

variable {β : Type} {R : α → β → Prop}

/-- The entries have the same key, and related values. -/
def Corresponds (R : α → β → Prop) (entry : String × α) (entry' : String × β) : Prop :=
  entry'.1 = entry.1 ∧ R entry.2 entry'.2

theorem forall₂_insert {d : Dictionary α} {d' : Dictionary β}
    (h : List.Forall₂ (Corresponds R) d d') (key : String) {value : α} {value' : β}
    (hvalue : R value value') :
    List.Forall₂ (Corresponds R) (insert d key value) (insert d' key value') := by
  induction h with
  | nil => exact .cons ⟨rfl, hvalue⟩ .nil
  | @cons entry entry' _ _ hentry htail ih =>
    obtain ⟨_, v⟩ := entry
    obtain ⟨key', v'⟩ := entry'
    obtain ⟨rfl, hv⟩ := hentry
    rw [insert, insert]
    split_ifs with hkey
    · exact .cons ⟨rfl, hvalue⟩ htail
    · exact .cons ⟨rfl, hv⟩ ih

theorem forall₂_ofEntries {entries : List (String × α)} {entries' : List (String × β)}
    (h : List.Forall₂ (Corresponds R) entries entries') :
    List.Forall₂ (Corresponds R) (ofEntries entries) (ofEntries entries') := by
  refine List.rel_foldl (P := List.Forall₂ (Corresponds R)) ?_ .nil h
  rintro d d' hd ⟨_, value⟩ ⟨key, value'⟩ ⟨rfl, hvalue⟩
  exact forall₂_insert hd key hvalue

end

end AttributeExpr.Dictionary
