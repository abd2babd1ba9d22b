/-
# BPF hash maps

A hash map with at most `max_entries` entries, as the `bpf_map_*_elem` helpers present it:
`update` with `BPF_ANY` replaces the value of a key that is present, adds a key while there
is room, and otherwise does nothing.
-/
import Mathlib.Data.List.Nodup

namespace Bpf

/-- A `BPF_MAP_TYPE_HASH` map. -/
structure HashMap (κ ν : Type*) (max_entries : ℕ) where
  entries : List (κ × ν)
  nodup : (entries.map Prod.fst).Nodup
  bounded : entries.length ≤ max_entries

namespace HashMap

variable {κ ν : Type*} {m : ℕ} [DecidableEq κ]

/-- A map as it is created. -/
def empty : HashMap κ ν m := ⟨[], List.nodup_nil, Nat.zero_le _⟩

/-- The keys in the map. -/
def keys (h : HashMap κ ν m) : List κ := h.entries.map Prod.fst

/-- `bpf_map_lookup_elem`. -/
def lookup (h : HashMap κ ν m) (k : κ) : Option ν := (h.entries.find? fun e => e.1 = k).map Prod.snd

/-- Replace the value of a key. -/
def replace (h : HashMap κ ν m) (k : κ) (v : ν) : HashMap κ ν m :=
  ⟨h.entries.map fun e => (e.1, if e.1 = k then v else e.2), by
    rw [List.map_map]
    exact h.nodup, by
    rw [List.length_map]
    exact h.bounded⟩

/-- Add a key that is not in the map. -/
def add (h : HashMap κ ν m) (k : κ) (v : ν) (hk : k ∉ h.keys) (hroom : h.entries.length < m) :
    HashMap κ ν m :=
  ⟨h.entries ++ [(k, v)], by
    rw [List.map_append, List.map_singleton, List.nodup_append]
    refine ⟨h.nodup, List.nodup_singleton _, fun a ha b hb hab => hk ?_⟩
    obtain rfl : b = k := List.mem_singleton.mp hb
    exact hab ▸ ha, by
    rw [List.length_append, List.length_singleton]
    exact hroom⟩

/-- `bpf_map_update_elem` with `BPF_ANY`. -/
def update (h : HashMap κ ν m) (k : κ) (v : ν) : HashMap κ ν m :=
  if hk : k ∈ h.keys then h.replace k v
  else if hroom : h.entries.length < m then h.add k v hk hroom
  else h

/-- `bpf_map_delete_elem`. -/
def delete (h : HashMap κ ν m) (k : κ) : HashMap κ ν m :=
  ⟨h.entries.filter fun e => e.1 ≠ k, h.nodup.sublist (List.filter_sublist.map _),
    Nat.le_trans (List.length_filter_le _ _) h.bounded⟩

/-- The keys that are found are the keys in the map. -/
theorem lookup_isSome_iff (h : HashMap κ ν m) (k : κ) : (h.lookup k).isSome ↔ k ∈ h.keys := by
  simp [lookup, keys]

/-- Storing a key adds no other one. -/
theorem mem_keys_of_mem_update {h : HashMap κ ν m} {k k' : κ} {v : ν}
    (hk' : k' ∈ (h.update k v).keys) : k' = k ∨ k' ∈ h.keys := by
  unfold update at hk'
  split_ifs at hk' with hk
  · right
    simpa [keys, replace] using hk'
  · rw [keys, add, List.map_append] at hk'
    rcases List.mem_append.mp hk' with hold | hnew
    · exact Or.inr hold
    · exact Or.inl (List.mem_singleton.mp hnew)
  · exact Or.inr hk'

/-- Storing a key loses none, also where the map is full. -/
theorem mem_keys_update_of_mem {h : HashMap κ ν m} {k' : κ} (hk' : k' ∈ h.keys) (k : κ) (v : ν) :
    k' ∈ (h.update k v).keys := by
  unfold update
  split_ifs with hk
  · simpa [keys, replace] using hk'
  · rw [keys, add, List.map_append]
    exact List.mem_append_left _ hk'
  · exact hk'

/-- Where there is room the stored key is in the map. -/
theorem mem_keys_update_self {h : HashMap κ ν m} (hroom : h.entries.length < m) (k : κ) (v : ν) :
    k ∈ (h.update k v).keys := by
  unfold update
  split_ifs with hk
  · simpa [keys, replace] using hk
  · rw [keys, add, List.map_append]
    exact List.mem_append_right _ (List.mem_singleton.mpr rfl)

/-- A new key goes behind the others, if there is room. -/
theorem keys_update_of_notMem {h : HashMap κ ν m} {k : κ} (hk : k ∉ h.keys) (v : ν) :
    (h.update k v).keys = h.keys ++ if h.entries.length < m then [k] else [] := by
  unfold update
  rw [dif_neg hk]
  split_ifs with hroom
  · simp [keys, add]
  · exact (List.append_nil _).symm

theorem keys_delete (h : HashMap κ ν m) (k : κ) :
    (h.delete k).keys = h.keys.filter fun k' => k' ≠ k := by
  rw [keys, keys, delete, List.filter_map]
  rfl

/-- Deleting a key takes this key and no other one. -/
theorem mem_keys_delete {h : HashMap κ ν m} {k k' : κ} :
    k' ∈ (h.delete k).keys ↔ k' ∈ h.keys ∧ k' ≠ k := by
  simp only [keys, delete, List.mem_map, List.mem_filter, decide_eq_true_eq]
  constructor
  · rintro ⟨e, ⟨he, hne⟩, rfl⟩
    exact ⟨⟨e, he, rfl⟩, hne⟩
  · rintro ⟨⟨e, he, rfl⟩, hne⟩
    exact ⟨e, ⟨he, hne⟩, rfl⟩

/-- In a map that is not full a stored key is found. -/
theorem lookup_update_self {h : HashMap κ ν m} (hroom : h.entries.length < m) (k : κ) (v : ν) :
    (h.update k v).lookup k = some v := by
  unfold update
  split_ifs with hk
  · -- the key is there, and its value replaced
    obtain ⟨e, he, rfl⟩ := List.mem_map.mp hk
    have hfind : (h.entries.find? fun e' => e'.1 = e.1).isSome := by
      rw [List.find?_isSome]
      exact ⟨e, he, by simp⟩
    obtain ⟨e', he'⟩ := Option.isSome_iff_exists.mp hfind
    have heq : e'.1 = e.1 := by simpa using List.find?_some he'
    have hkey : ((fun x : κ × ν => decide (x.1 = e.1)) ∘
        fun x : κ × ν => (x.1, if x.1 = e.1 then v else x.2)) = fun x => decide (x.1 = e.1) := rfl
    rw [lookup, replace, List.find?_map, hkey, he']
    simp [heq]
  · -- the key is added behind the entries, none of which has it
    have hnone : h.entries.find? (fun e => e.1 = k) = none := by
      rw [List.find?_eq_none]
      intro e he heq
      exact hk (List.mem_map.mpr ⟨e, he, by simpa using heq⟩)
    simp [lookup, add, hnone]

/-- Storing a key leaves the others alone. -/
theorem lookup_update_of_ne (h : HashMap κ ν m) {k k' : κ} (hne : k' ≠ k) (v : ν) :
    (h.update k v).lookup k' = h.lookup k' := by
  unfold update
  split_ifs
  · rw [lookup, lookup, replace, List.find?_map, Option.map_map]
    show Option.map _ (h.entries.find? fun e => e.1 = k') = _
    rcases hfind : h.entries.find? (fun e => e.1 = k') with _ | e
    · simp [hfind]
    · have heq : e.1 = k' := by simpa using List.find?_some hfind
      simp [hfind, heq, hne]
  · simp [lookup, add, Ne.symm hne]
  · rfl

end HashMap

end Bpf
