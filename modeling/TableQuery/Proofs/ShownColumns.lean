import TableQuery.Proofs.Preparation

namespace TableQuery

section

variable {α : Type} {entries : List (String × α)} {key : String} {value : α}

theorem putEntry_of_not_mem (h : key ∉ entries.map Prod.fst) :
    putEntry key value entries = entries ++ [(key, value)] := by
  induction entries with
  | nil => rfl
  | cons entry rest ih =>
    rw [List.map_cons, List.mem_cons, not_or] at h
    rw [putEntry, if_neg (Ne.symm h.1), ih h.2, List.cons_append]

theorem mem_of_mem_putEntry {entry : String × α} (h : entry ∈ putEntry key value entries) :
    entry = (key, value) ∨ entry ∈ entries := by
  induction entries with
  | nil => exact .inl (List.mem_singleton.mp h)
  | cons first rest ih =>
    unfold putEntry at h
    split at h
    next =>
      rcases List.mem_cons.mp h with rfl | h
      · exact .inl rfl
      · exact .inr (List.mem_cons_of_mem _ h)
    next =>
      rcases List.mem_cons.mp h with rfl | h
      · exact .inr List.mem_cons_self
      · exact (ih h).imp_right (List.mem_cons_of_mem _)

end

namespace OrderedMap

variable {α : Type}

theorem get?_insert (m : OrderedMap α) (key k : String) (value : α) :
    (m.insert key value).get? k = if key = k then some value else m.get? k := by
  split
  next h =>
    subst h
    exact get?_insert_self
  next h => exact get?_insert_of_ne (Ne.symm h)

theorem get?_ofList (entries : List (String × α)) (key : String) :
    (ofList entries).get? key =
      (entries.reverse.find? fun entry => entry.1 = key).map Prod.snd := by
  have hfrom : ∀ m : OrderedMap α,
      (entries.foldl (fun m entry => m.insert entry.1 entry.2) m).get? key =
        ((entries.reverse.find? fun entry => entry.1 = key).map Prod.snd).or (m.get? key) := by
    induction entries with
    | nil => exact fun m => rfl
    | cons entry rest ih =>
      intro m
      rw [List.foldl_cons, ih, get?_insert, List.reverse_cons, List.find?_append]
      by_cases hkey : entry.1 = key
      · cases rest.reverse.find? fun entry => entry.1 = key <;> simp [hkey]
      · cases rest.reverse.find? fun entry => entry.1 = key <;> simp [hkey]
  rw [ofList, hfrom empty]
  exact Option.or_none

theorem get?_ofList_of_mem {entries : List (String × α)} {key : String} {a : α}
    (hmem : (key, a) ∈ entries) (honly : ∀ entry ∈ entries, entry.1 = key → entry.2 = a) :
    (ofList entries).get? key = some a := by
  rw [get?_ofList]
  cases hfind : entries.reverse.find? fun entry => entry.1 = key with
  | none =>
    have hnone := List.find?_eq_none.mp hfind (key, a) (List.mem_reverse.mpr hmem)
    exact absurd (decide_eq_true rfl) hnone
  | some entry =>
    have hentry := List.mem_reverse.mp (List.mem_of_find?_eq_some hfind)
    have hkey : entry.1 = key := by
      simpa using List.find?_some hfind
    rw [Option.map_some, honly entry hentry hkey]

theorem mem_of_mem_ofList {entries : List (String × α)} {entry : String × α}
    (h : entry ∈ (ofList entries).entries) : entry ∈ entries := by
  have hfrom : ∀ m : OrderedMap α,
      entry ∈ (entries.foldl (fun m entry => m.insert entry.1 entry.2) m).entries →
        entry ∈ m.entries ∨ entry ∈ entries := by
    clear h
    induction entries with
    | nil => exact fun m h => .inl h
    | cons first rest ih =>
      intro m h
      rcases ih _ h with h | h
      · rcases mem_of_mem_putEntry h with rfl | h
        · exact .inr List.mem_cons_self
        · exact .inl h
      · exact .inr (List.mem_cons_of_mem _ h)
  exact (hfrom empty h).resolve_left List.not_mem_nil

theorem entries_ofList {entries : List (String × α)} (h : (entries.map Prod.fst).Nodup) :
    (ofList entries).entries = entries := by
  -- the keys that are there already must differ from those to come, too
  have hfrom : ∀ m : OrderedMap α, ((m.entries ++ entries).map Prod.fst).Nodup →
      (entries.foldl (fun m entry => m.insert entry.1 entry.2) m).entries =
        m.entries ++ entries := by
    clear h
    induction entries with
    | nil => exact fun m _ => (List.append_nil _).symm
    | cons first rest ih =>
      intro m h
      have hnew : first.1 ∉ m.entries.map Prod.fst := by
        rw [List.map_append, List.map_cons] at h
        exact fun hmem => (List.nodup_append.mp h).2.2 _ hmem _ List.mem_cons_self rfl
      have hput : (m.insert first.1 first.2).entries = m.entries ++ [first] :=
        putEntry_of_not_mem hnew
      rw [List.foldl_cons, ih _ (by rwa [hput, List.append_assoc]), hput, List.append_assoc]
      rfl
  exact hfrom empty h

end OrderedMap

/-- A cell as it is read back and bound again. -/
def Cell.value (c : Cell) : Value :=
  .ofJson c.datum.toJson

namespace Store.Prepared

/-- The last column of the result under a name. -/
def shown? (p : Prepared) (name : String) : Option ResultColumn :=
  p.columns.reverse.find? fun column => column.name = name

/-- What a tuple shows under a name; nothing is shown as null. -/
def shownCell (p : Prepared) (name : String) (tuple : Tuple) : Cell :=
  match p.shown? name with
  | some column => (Level.mk p.scope tuple).cell column.origin
  | none => ⟨none, .null⟩

/-- Where a column of the first table lies. -/
def ownPlace? (p : Prepared) (name : String) : Option Place :=
  (p.first.schema.index? name).map fun i => ⟨0, i⟩

/-- The cell of a tuple in a column of the first table. -/
def ownCell (p : Prepared) (name : String) (tuple : Tuple) : Cell :=
  match p.ownPlace? name with
  | some place => (Level.mk p.scope tuple).cell (.cell place)
  | none => ⟨none, .null⟩

/-- What is shown under a name is the column of the first table, and no other column or value. -/
def ShowsOwn (p : Prepared) (name : String) : Prop :=
  (p.ownPlace? name).isSome ∧
    (p.shown? name).map ResultColumn.origin = (p.ownPlace? name).map .cell

instance (p : Prepared) (name : String) : Decidable (p.ShowsOwn name) :=
  inferInstanceAs (Decidable (_ ∧ _))

theorem shownCell_of_showsOwn {p : Prepared} {name : String} (h : p.ShowsOwn name) (tuple : Tuple) :
    p.shownCell name tuple = p.ownCell name tuple := by
  obtain ⟨hown, hshown⟩ := h
  obtain ⟨place, hplace⟩ := Option.isSome_iff_exists.mp hown
  rw [hplace, Option.map_some] at hshown
  obtain ⟨column, hcolumn, horigin⟩ := Option.map_eq_some_iff.mp hshown
  rw [shownCell, ownCell, hplace, hcolumn]
  dsimp only
  rw [horigin]

theorem get?_record (p : Prepared) (name : String) (tuple : Tuple) :
    (record p.scope p.columns tuple).get? name =
      (p.shown? name).map fun _ => (p.shownCell name tuple).datum.toJson := by
  have hfind : ((p.columns.map fun column => (column.name,
      ((Level.mk p.scope tuple).cell column.origin).datum.toJson)).reverse.find? fun entry =>
        entry.1 = name) = (p.shown? name).map fun column => (column.name,
          ((Level.mk p.scope tuple).cell column.origin).datum.toJson) := by
    rw [← List.map_reverse, List.find?_map]
    rfl
  rw [record, OrderedMap.get?_ofList, hfind]
  cases hshown : p.shown? name <;> simp [shownCell, hshown]

theorem value_record (p : Prepared) (name : String) (tuple : Tuple) :
    (record p.scope p.columns tuple).value name = (p.shownCell name tuple).value := by
  rw [Record.value, get?_record]
  cases hshown : p.shown? name with
  | none => simp [shownCell, hshown, Cell.value, Datum.toJson, Value.ofJson]
  | some column => rfl

end Store.Prepared

end TableQuery
