namespace TableQuery

/-- Entries with the value of `key` overwritten where the key stands, or added at the end. -/
def putEntry {α : Type} (key : String) (value : α) : List (String × α) → List (String × α)
  | [] => [(key, value)]
  | entry :: rest => if entry.1 = key then (key, value) :: rest else entry :: putEntry key value rest

theorem mem_keys_putEntry {α : Type} {key k : String} {value : α} {entries : List (String × α)} :
    k ∈ (putEntry key value entries).map Prod.fst ↔ k = key ∨ k ∈ entries.map Prod.fst := by
  induction entries with
  | nil => simp [putEntry]
  | cons entry rest ih =>
    by_cases h : entry.1 = key
    · simp [putEntry, h]
    · simp only [putEntry, h, ↓reduceIte, List.map_cons, List.mem_cons, ih]
      grind

theorem nodup_keys_putEntry {α : Type} {key : String} {value : α} {entries : List (String × α)}
    (h : (entries.map Prod.fst).Nodup) : ((putEntry key value entries).map Prod.fst).Nodup := by
  induction entries with
  | nil => simp [putEntry]
  | cons entry rest ih =>
    obtain ⟨head, tail⟩ := List.nodup_cons.mp h
    by_cases he : entry.1 = key
    · simpa [putEntry, he] using List.nodup_cons.mpr ⟨he ▸ head, tail⟩
    · simp only [putEntry, he, ↓reduceIte, List.map_cons, List.nodup_cons]
      exact ⟨fun hm => (mem_keys_putEntry.mp hm).elim he head, ih tail⟩

/-- A map that keeps the order in which its keys first came. -/
structure OrderedMap (α : Type) where
  entries : List (String × α)
  nodup : (entries.map Prod.fst).Nodup := by simp

namespace OrderedMap

variable {α : Type}

def empty : OrderedMap α where
  entries := []

instance : Inhabited (OrderedMap α) := ⟨empty⟩

def keys (m : OrderedMap α) : List String :=
  m.entries.map Prod.fst

def get? (m : OrderedMap α) (key : String) : Option α :=
  (m.entries.find? (·.1 = key)).map Prod.snd

def contains (m : OrderedMap α) (key : String) : Bool :=
  m.entries.any (·.1 = key)

/-- A key that is there keeps its place. -/
def insert (m : OrderedMap α) (key : String) (value : α) : OrderedMap α where
  entries := putEntry key value m.entries
  nodup := nodup_keys_putEntry m.nodup

/-- The entries behind an erased one move up. -/
def erase (m : OrderedMap α) (key : String) : OrderedMap α where
  entries := m.entries.filter (·.1 ≠ key)
  nodup := (List.filter_sublist.map Prod.fst).nodup m.nodup

def ofList (entries : List (String × α)) : OrderedMap α :=
  entries.foldl (fun m entry => m.insert entry.1 entry.2) empty

theorem mem_keys_insert {m : OrderedMap α} {key k : String} {value : α} :
    k ∈ (m.insert key value).keys ↔ k = key ∨ k ∈ m.keys :=
  mem_keys_putEntry

theorem mem_keys_iff {m : OrderedMap α} {key : String} : key ∈ m.keys ↔ (m.get? key).isSome := by
  simp [keys, get?, List.find?_isSome]

theorem contains_iff {m : OrderedMap α} {key : String} : m.contains key = true ↔ key ∈ m.keys := by
  simp [contains, keys]

theorem keys_insert_of_not_mem {m : OrderedMap α} {key : String} {value : α} (h : key ∉ m.keys) :
    (m.insert key value).keys = m.keys ++ [key] := by
  suffices ∀ entries : List (String × α), key ∉ entries.map Prod.fst →
      (putEntry key value entries).map Prod.fst = entries.map Prod.fst ++ [key] from
    this m.entries h
  intro entries hmissing
  induction entries with
  | nil => rfl
  | cons entry rest ih =>
    rw [List.map_cons, List.mem_cons, not_or] at hmissing
    rw [putEntry, if_neg (Ne.symm hmissing.1), List.map_cons, List.map_cons, ih hmissing.2,
      List.cons_append]

theorem get?_insert_self {m : OrderedMap α} {key : String} {value : α} :
    (m.insert key value).get? key = some value := by
  suffices ∀ entries : List (String × α),
      (putEntry key value entries).find? (·.1 = key) = some (key, value) by
    simp [get?, insert, this]
  intro entries
  induction entries with
  | nil => simp [putEntry]
  | cons entry rest ih =>
    by_cases h : entry.1 = key <;> simp [putEntry, h, ih]

theorem get?_insert_of_ne {m : OrderedMap α} {key k : String} {value : α} (h : k ≠ key) :
    (m.insert key value).get? k = m.get? k := by
  suffices ∀ entries : List (String × α),
      (putEntry key value entries).find? (·.1 = k) = entries.find? (·.1 = k) by
    simp [get?, insert, this]
  intro entries
  induction entries with
  | nil => simp [putEntry, Ne.symm h]
  | cons entry rest ih =>
    by_cases he : entry.1 = key
    · simp [putEntry, he, Ne.symm h]
    · by_cases hk : entry.1 = k
      · subst hk
        simp [putEntry, he]
      · simp [putEntry, he, hk, ih]

end OrderedMap

end TableQuery
