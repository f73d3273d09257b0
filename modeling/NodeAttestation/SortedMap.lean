/-!
Finite maps kept in ascending key order. Two maps with the same look-ups are equal, so a map
can stand for its meaning.
-/

namespace NodeAttestation

universe u v

structure SortedMap (κ : Type u) (ν : Type v) [Ord κ] where
  entries : List (κ × ν)
  ascending : entries.Pairwise fun a b => compare a.1 b.1 = .lt

namespace SortedMap

variable {κ : Type u} {ν : Type v} [Ord κ]

instance [DecidableEq κ] [DecidableEq ν] : DecidableEq (SortedMap κ ν) := fun a b =>
  decidable_of_iff (a.entries = b.entries)
    ⟨fun h => by cases a; cases b; cases h; rfl, fun h => h ▸ rfl⟩

def empty : SortedMap κ ν := ⟨[], .nil⟩

instance : EmptyCollection (SortedMap κ ν) := ⟨empty⟩

instance : Inhabited (SortedMap κ ν) := ⟨empty⟩

def lookup (k : κ) : List (κ × ν) → Option ν
  | [] => none
  | (other, value) :: rest => if compare k other = .eq then some value else lookup k rest

def find? (m : SortedMap κ ν) (k : κ) : Option ν := lookup k m.entries

def contains (m : SortedMap κ ν) (k : κ) : Bool := (m.find? k).isSome

def keys (m : SortedMap κ ν) : List κ := m.entries.map (·.1)

def values (m : SortedMap κ ν) : List ν := m.entries.map (·.2)

def size (m : SortedMap κ ν) : Nat := m.entries.length

def isEmpty (m : SortedMap κ ν) : Bool := m.entries.isEmpty

def insertEntry (k : κ) (value : ν) : List (κ × ν) → List (κ × ν)
  | [] => [(k, value)]
  | (other, previous) :: rest =>
    match compare k other with
    | .lt => (k, value) :: (other, previous) :: rest
    | .eq => (k, value) :: rest
    | .gt => (other, previous) :: insertEntry k value rest

theorem mem_insertEntry {k : κ} {value : ν} {entry : κ × ν} {entries : List (κ × ν)}
    (h : entry ∈ insertEntry k value entries) : entry = (k, value) ∨ entry ∈ entries := by
  induction entries with
  | nil => simpa [insertEntry] using h
  | cons head rest ih =>
    obtain ⟨other, previous⟩ := head
    rw [insertEntry] at h
    split at h
    · simpa using h
    · rcases List.mem_cons.1 h with h | h
      · exact .inl h
      · exact .inr (List.mem_cons_of_mem _ h)
    · rcases List.mem_cons.1 h with h | h
      · exact .inr (by simp [h])
      · exact (ih h).imp id (List.mem_cons_of_mem _)

theorem ascending_insertEntry [Std.TransOrd κ] (k : κ) (value : ν) {entries : List (κ × ν)}
    (h : entries.Pairwise fun a b => compare a.1 b.1 = .lt) :
    (insertEntry k value entries).Pairwise fun a b => compare a.1 b.1 = .lt := by
  induction entries with
  | nil => simp [insertEntry]
  | cons head rest ih =>
    obtain ⟨other, previous⟩ := head
    obtain ⟨hhead, hrest⟩ := List.pairwise_cons.1 h
    rw [insertEntry]
    split
    · rename_i hlt
      refine List.pairwise_cons.2 ⟨fun entry hmem => ?_, h⟩
      rcases List.mem_cons.1 hmem with heq | hmem
      · simpa [heq] using hlt
      · exact Std.TransCmp.lt_trans hlt (hhead entry hmem)
    · rename_i heq
      exact List.pairwise_cons.2
        ⟨fun entry hmem => Std.TransCmp.lt_of_eq_of_lt heq (hhead entry hmem), hrest⟩
    · rename_i hgt
      refine List.pairwise_cons.2 ⟨fun entry hmem => ?_, ih hrest⟩
      rcases mem_insertEntry hmem with heq | hmem
      · simpa [heq] using Std.OrientedCmp.gt_iff_lt.1 hgt
      · exact hhead entry hmem

/-- Sets the value at a key, replacing the one that was there. -/
def insert [Std.TransOrd κ] (m : SortedMap κ ν) (k : κ) (value : ν) : SortedMap κ ν :=
  ⟨insertEntry k value m.entries, ascending_insertEntry k value m.ascending⟩

def filter (m : SortedMap κ ν) (keep : κ → ν → Bool) : SortedMap κ ν :=
  ⟨m.entries.filter fun entry => keep entry.1 entry.2, m.ascending.filter _⟩

def erase (m : SortedMap κ ν) (k : κ) : SortedMap κ ν :=
  m.filter fun other _ => compare k other != .eq

/-- Of two entries with one key the later is kept. -/
def ofList [Std.TransOrd κ] (entries : List (κ × ν)) : SortedMap κ ν :=
  entries.foldl (fun m entry => m.insert entry.1 entry.2) empty

def compareEntries [Ord ν] : κ × ν → κ × ν → Ordering :=
  compareLex (compareOn Prod.fst) (compareOn Prod.snd)

/-- Maps are compared entry by entry from the smallest key, a missing entry coming first. -/
instance [Ord ν] : Ord (SortedMap κ ν) where
  compare a b := List.compareLex compareEntries a.entries b.entries

theorem ext_entries {a b : SortedMap κ ν} (h : a.entries = b.entries) : a = b := by
  cases a; cases b; cases h; rfl

instance [Ord ν] [Std.TransOrd κ] [Std.TransOrd ν] :
    Std.TransCmp (compareEntries : κ × ν → κ × ν → Ordering) :=
  inferInstanceAs (Std.TransCmp (compareLex (compareOn Prod.fst) (compareOn Prod.snd)))

instance [Ord ν] [Std.LawfulEqOrd κ] [Std.LawfulEqOrd ν] :
    Std.LawfulEqCmp (compareEntries : κ × ν → κ × ν → Ordering) where
  compare_self := by simp [compareEntries, compareLex, compareOn]
  eq_of_compare h := by
    simp only [compareEntries, compareLex, compareOn, Ordering.then_eq_eq,
      Std.LawfulEqCmp.compare_eq_iff_eq] at h
    exact Prod.ext h.1 h.2

instance [Ord ν] [Std.TransOrd κ] [Std.TransOrd ν] : Std.TransOrd (SortedMap κ ν) where
  eq_swap := (@List.instTransCmpCompareLex _ compareEntries _).eq_swap
  isLE_trans := (@List.instTransCmpCompareLex _ compareEntries _).isLE_trans

instance [Ord ν] [Std.LawfulEqOrd κ] [Std.LawfulEqOrd ν] : Std.LawfulEqOrd (SortedMap κ ν) where
  compare_self := @fun m => @Std.ReflCmp.compare_self _ (List.compareLex compareEntries) _ m.entries
  eq_of_compare h := ext_entries
    (@Std.LawfulEqCmp.eq_of_compare _ (List.compareLex compareEntries) _ _ _ h)

section Lookup

@[simp]
theorem find?_empty (k : κ) : (empty : SortedMap κ ν).find? k = none := rfl

theorem lookup_insertEntry [Std.TransOrd κ] (k other : κ) (value : ν) (entries : List (κ × ν)) :
    lookup other (insertEntry k value entries) =
      if compare other k = .eq then some value else lookup other entries := by
  induction entries with
  | nil => simp [insertEntry, lookup]
  | cons head rest ih =>
    obtain ⟨key, previous⟩ := head
    rw [insertEntry]
    split
    · rfl
    · rename_i heq
      simp only [lookup]
      rw [Std.TransCmp.congr_right heq]
      split <;> rfl
    · rename_i hgt
      simp only [lookup, ih]
      split
      · rename_i hkey
        rw [if_neg]
        intro hother
        have := Std.TransCmp.eq_trans (Std.OrientedCmp.eq_symm hother) hkey
        simp [this] at hgt
      · rfl

theorem find?_insert [Std.TransOrd κ] (m : SortedMap κ ν) (k other : κ) (value : ν) :
    (m.insert k value).find? other =
      if compare other k = .eq then some value else m.find? other :=
  lookup_insertEntry k other value m.entries

theorem mem_of_lookup [Std.LawfulEqOrd κ] {k : κ} {value : ν} {entries : List (κ × ν)}
    (h : lookup k entries = some value) : (k, value) ∈ entries := by
  induction entries with
  | nil => simp [lookup] at h
  | cons head rest ih =>
    obtain ⟨other, previous⟩ := head
    rw [lookup] at h
    split at h
    · rename_i heq
      simp_all
    · exact List.mem_cons_of_mem _ (ih h)

theorem lookup_of_mem [Std.TransOrd κ] [Std.LawfulEqOrd κ] {k : κ} {value : ν}
    {entries : List (κ × ν)} (hasc : entries.Pairwise fun a b => compare a.1 b.1 = .lt)
    (h : (k, value) ∈ entries) : lookup k entries = some value := by
  induction entries with
  | nil => simp at h
  | cons head rest ih =>
    obtain ⟨other, previous⟩ := head
    obtain ⟨hhead, hrest⟩ := List.pairwise_cons.1 hasc
    rcases List.mem_cons.1 h with heq | h
    · cases heq
      simp [lookup]
    · have hlt := hhead _ h
      rw [lookup, if_neg, ih hrest h]
      intro heq
      simp [Std.LawfulEqCmp.compare_eq_iff_eq.1 heq] at hlt

theorem mem_entries_iff [Std.TransOrd κ] [Std.LawfulEqOrd κ] (m : SortedMap κ ν) {k : κ}
    {value : ν} : (k, value) ∈ m.entries ↔ m.find? k = some value :=
  ⟨lookup_of_mem m.ascending, mem_of_lookup⟩

theorem find?_filter [Std.TransOrd κ] [Std.LawfulEqOrd κ] (m : SortedMap κ ν)
    (keep : κ → ν → Bool) (k : κ) :
    (m.filter keep).find? k = (m.find? k).filter (keep k) := by
  apply Option.ext
  intro value
  rw [← mem_entries_iff, Option.filter_eq_some_iff, ← mem_entries_iff]
  simp [filter]

theorem find?_erase [Std.TransOrd κ] [Std.LawfulEqOrd κ] (m : SortedMap κ ν) (k other : κ) :
    (m.erase k).find? other = if compare other k = .eq then none else m.find? other := by
  rw [erase, find?_filter]
  by_cases h : k = other
  · cases hfound : m.find? other <;> simp [h, Option.filter]
  · cases hfound : m.find? other <;> simp [h, Ne.symm h, Option.filter]

/-- A map is determined by its look-ups. -/
theorem ext [Std.TransOrd κ] [Std.LawfulEqOrd κ] {a b : SortedMap κ ν}
    (h : ∀ k, a.find? k = b.find? k) : a = b := by
  have hmem : ∀ entry, entry ∈ a.entries ↔ entry ∈ b.entries := fun ⟨k, value⟩ => by
    rw [mem_entries_iff, mem_entries_iff, h]
  obtain ⟨xs, hxs⟩ := a
  obtain ⟨ys, hys⟩ := b
  apply ext_entries
  simp only at hmem ⊢
  clear h
  have hirrefl : ∀ entry : κ × ν, ¬compare entry.1 entry.1 = .lt := by simp
  induction xs generalizing ys with
  | nil =>
    cases ys with
    | nil => rfl
    | cons y ys => simpa using (hmem y).2 (by simp)
  | cons x xs ih =>
    cases ys with
    | nil => simpa using (hmem x).1 (by simp)
    | cons y ys =>
      obtain ⟨hx, hxs'⟩ := List.pairwise_cons.1 hxs
      obtain ⟨hy, hys'⟩ := List.pairwise_cons.1 hys
      have hhead : x = y := by
        rcases List.mem_cons.1 ((hmem x).1 (by simp)) with heq | hxy
        · exact heq
        · rcases List.mem_cons.1 ((hmem y).2 (by simp)) with heq | hyx
          · exact heq.symm
          · exact absurd (Std.TransCmp.lt_trans (hy _ hxy) (hx _ hyx)) (hirrefl _)
      subst hhead
      congr 1
      refine ih hxs' ys hys' fun entry => ⟨fun hentry => ?_, fun hentry => ?_⟩
      · rcases List.mem_cons.1 ((hmem entry).1 (List.mem_cons_of_mem _ hentry)) with rfl | hmem
        · exact absurd (hx _ hentry) (hirrefl _)
        · exact hmem
      · rcases List.mem_cons.1 ((hmem entry).2 (List.mem_cons_of_mem _ hentry)) with rfl | hmem
        · exact absurd (hy _ hentry) (hirrefl _)
        · exact hmem

end Lookup

end SortedMap

/-- A set, as the map that gives its members no value. -/
abbrev SortedSet (κ : Type u) [Ord κ] := SortedMap κ Unit

end NodeAttestation
