/-!
# A cache of bounded size

Values under keys, from the least to the most recently used. A key that is used again moves to the end, and a new
one that does not fit displaces the oldest.
-/

namespace Formula

/-- The entries, least recently used first. -/
structure Cache (α : Type) where
  entries : List (String × α) := []

namespace Cache

variable {α : Type}

/-- The keys, least recently used first. -/
def keys (cache : Cache α) : List String :=
  cache.entries.map (·.1)

def find? (cache : Cache α) (key : String) : Option α :=
  cache.entries.lookup key

def touch (cache : Cache α) (key : String) : Cache α :=
  let (same, others) := cache.entries.partition fun entry => entry.1 = key
  ⟨others ++ same⟩

/-- Keeps the last `size` entries. -/
def evict (cache : Cache α) (size : Nat) : Cache α :=
  ⟨cache.entries.drop (cache.entries.length - size)⟩

/-- Puts a new key at the end of a cache that holds `size` entries. -/
def insert (cache : Cache α) (size : Nat) (key : String) (value : α) : Cache α :=
  evict ⟨cache.entries ++ [(key, value)]⟩ size

@[simp] theorem keys_empty : ({} : Cache α).keys = [] := rfl

theorem mem_of_find? {cache : Cache α} {key : String} {value : α} (h : cache.find? key = some value) :
    (key, value) ∈ cache.entries := by
  obtain ⟨front, back, he, -⟩ := List.lookup_eq_some_iff.1 h
  simp [he]

theorem find?_eq_none_iff {cache : Cache α} {key : String} : cache.find? key = none ↔ key ∉ cache.keys := by
  rw [find?, List.lookup_eq_none_iff, keys, List.mem_map]
  constructor
  · rintro hn ⟨entry, hm, rfl⟩
    simpa using hn entry hm
  · intro hn entry hm
    simpa using fun he : key = entry.1 => hn ⟨entry, hm, he.symm⟩

theorem mem_keys_of_find? {cache : Cache α} {key : String} {value : α} (h : cache.find? key = some value) :
    key ∈ cache.keys :=
  List.mem_map.2 ⟨_, mem_of_find? h, rfl⟩

theorem mem_touch {cache : Cache α} {key : String} {entry : String × α} :
    entry ∈ (cache.touch key).entries ↔ entry ∈ cache.entries := by
  by_cases h : entry.1 = key <;> simp [touch, List.partition_eq_filter_filter, h]

theorem keys_touch (cache : Cache α) (key : String) :
    (cache.touch key).keys = cache.keys.filter (· != key) ++ cache.keys.filter (· == key) := by
  simp only [touch, keys, List.partition_eq_filter_filter, List.filter_map, List.map_append]
  rfl

theorem mem_insert {cache : Cache α} {size : Nat} {key : String} {value : α} {entry : String × α}
    (h : entry ∈ (cache.insert size key value).entries) : entry ∈ cache.entries ∨ entry = (key, value) := by
  simpa using List.mem_of_mem_drop h

theorem keys_insert (cache : Cache α) (size : Nat) (key : String) (value : α) :
    (cache.insert size key value).keys = (cache.keys ++ [key]).drop (cache.keys.length + 1 - size) := by
  simp [insert, evict, keys, List.map_drop]

end Cache

end Formula
