import NodeAttestation.SortedMap

/-! # The keys and values of a map, and the maps that are made of lists. -/

namespace NodeAttestation.SortedMap

universe u v

variable {κ : Type u} {ν : Type v} [Ord κ]

theorem length_keys (m : SortedMap κ ν) : m.keys.length = m.size := List.length_map ..

theorem size_eq_zero_iff {m : SortedMap κ ν} : m.size = 0 ↔ m = .empty := by
  rw [size, List.length_eq_zero_iff]
  exact ⟨fun h => ext_entries h, congrArg entries⟩

theorem insertEntry_perm {k : κ} {entries : List (κ × ν)} (value : ν)
    (h : lookup k entries = none) : (insertEntry k value entries).Perm ((k, value) :: entries) := by
  induction entries with
  | nil => rfl
  | cons head rest ih =>
    obtain ⟨other, previous⟩ := head
    rw [lookup] at h
    split at h
    · cases h
    · rw [insertEntry]
      split
      · rfl
      · contradiction
      · exact ((ih h).cons _).trans (.swap _ _ _)

theorem nodup_keys [Std.LawfulEqOrd κ] (m : SortedMap κ ν) : m.keys.Nodup := by
  rw [keys, List.nodup_iff_pairwise_ne, List.pairwise_map]
  refine m.ascending.imp fun {a b} hlt heq => ?_
  rw [heq] at hlt
  simp at hlt

variable [Std.TransOrd κ]

theorem keys_insert_perm {m : SortedMap κ ν} {k : κ} (value : ν) (h : m.contains k = false) :
    (m.insert k value).keys.Perm (k :: m.keys) := by
  rw [contains, Option.isSome_eq_false_iff, Option.isNone_iff_eq_none] at h
  exact (insertEntry_perm value h).map (·.1)

variable [Std.LawfulEqOrd κ]

theorem find?_insert_self (m : SortedMap κ ν) (k : κ) (value : ν) :
    (m.insert k value).find? k = some value := by
  simp [find?_insert]

theorem find?_insert_of_ne (m : SortedMap κ ν) {k other : κ} (value : ν) (h : other ≠ k) :
    (m.insert k value).find? other = m.find? other := by
  simp [find?_insert, h]

/-- Of two values at one key the first leaves no trace. -/
theorem insert_insert_self (m : SortedMap κ ν) (k : κ) (first second : ν) :
    (m.insert k first).insert k second = m.insert k second := by
  refine ext fun other => ?_
  by_cases h : other = k
  · rw [h, find?_insert_self, find?_insert_self]
  · rw [find?_insert_of_ne _ _ h, find?_insert_of_ne _ _ h, find?_insert_of_ne _ _ h]

theorem find?_erase_self (m : SortedMap κ ν) (k : κ) : (m.erase k).find? k = none := by
  simp [find?_erase]

theorem find?_erase_of_ne (m : SortedMap κ ν) {k other : κ} (h : other ≠ k) :
    (m.erase k).find? other = m.find? other := by
  simp [find?_erase, h]

theorem mem_keys_iff (m : SortedMap κ ν) {k : κ} : k ∈ m.keys ↔ m.contains k = true := by
  rw [contains, Option.isSome_iff_exists, keys, List.mem_map]
  constructor
  · rintro ⟨⟨other, value⟩, hmem, rfl⟩
    exact ⟨value, m.mem_entries_iff.1 hmem⟩
  · rintro ⟨value, hvalue⟩
    exact ⟨(k, value), m.mem_entries_iff.2 hvalue, rfl⟩

theorem contains_insert (m : SortedMap κ ν) (k other : κ) (value : ν) :
    (m.insert k value).contains other = true ↔ other = k ∨ m.contains other = true := by
  rw [contains]
  by_cases h : other = k
  · simp [h, find?_insert_self]
  · simp [h, find?_insert_of_ne m value h, contains]

theorem mem_values_iff (m : SortedMap κ ν) {value : ν} :
    value ∈ m.values ↔ ∃ k, m.find? k = some value := by
  rw [values, List.mem_map]
  constructor
  · rintro ⟨⟨k, other⟩, hmem, rfl⟩
    exact ⟨k, m.mem_entries_iff.1 hmem⟩
  · rintro ⟨k, hfound⟩
    exact ⟨(k, value), m.mem_entries_iff.2 hfound, rfl⟩

theorem insert_ne_empty (m : SortedMap κ ν) (k : κ) (value : ν) : m.insert k value ≠ .empty := by
  intro hempty
  have hfound := m.find?_insert_self k value
  rw [hempty] at hfound
  cases hfound

theorem contains_ofList (entries : List (κ × ν)) (k : κ) :
    (ofList entries).contains k = true ↔ k ∈ entries.map (·.1) := by
  have hfold (m : SortedMap κ ν) :
      (entries.foldl (fun m entry => m.insert entry.1 entry.2) m).contains k = true ↔
        m.contains k = true ∨ k ∈ entries.map (·.1) := by
    induction entries generalizing m with
    | nil => simp
    | cons entry entries ih =>
      rw [List.foldl_cons, ih, contains_insert, List.map_cons, List.mem_cons, or_assoc]
      exact or_left_comm
  rw [ofList, hfold, or_iff_right]
  exact Bool.false_ne_true

/-- An entry is found if it is among those that are inserted, each with a key of its own, or was
there before under another key. -/
theorem find?_foldl_insert {entries : List (κ × ν)} (distinct : (entries.map (·.1)).Nodup)
    (start : SortedMap κ ν) (k : κ) (value : ν) :
    (entries.foldl (fun m entry => m.insert entry.1 entry.2) start).find? k = some value ↔
      (k, value) ∈ entries ∨ k ∉ entries.map (·.1) ∧ start.find? k = some value := by
  induction entries generalizing start with
  | nil => simp
  | cons entry entries ih =>
    rw [List.map_cons, List.nodup_cons] at distinct
    rw [List.foldl_cons, ih distinct.2, List.map_cons, List.mem_cons, List.mem_cons, Prod.ext_iff]
    by_cases hkey : k = entry.1
    · simp [hkey, find?_insert_self, distinct.1, or_comm, eq_comm]
    · simp [hkey, find?_insert_of_ne _ _ hkey]

/-- Inserting the entries of a map in any order makes the map. -/
theorem ofList_of_perm {m : SortedMap κ ν} {entries : List (κ × ν)} (h : entries.Perm m.entries) :
    ofList entries = m := by
  have distinct : (entries.map (·.1)).Nodup := (h.map Prod.fst).nodup_iff.2 m.nodup_keys
  refine ext fun k => Option.ext fun value => ?_
  rw [ofList, find?_foldl_insert distinct, find?_empty, h.mem_iff, mem_entries_iff]
  simp

theorem set_ext {a b : SortedSet κ} (h : ∀ k, a.contains k = true ↔ b.contains k = true) :
    a = b := by
  refine ext fun k => ?_
  have hk := h k
  rw [contains, contains] at hk
  cases ha : a.find? k <;> cases hb : b.find? k <;> simp_all

end NodeAttestation.SortedMap
