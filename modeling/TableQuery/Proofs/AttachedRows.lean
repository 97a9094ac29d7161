import TableQuery.Proofs.RelatedRows

namespace TableQuery

open Sql

namespace EagerLoad

theorem attachAll_append (store : Store) (before later : List EagerLoad) (parents : List Record) :
    attachAll store (before ++ later) parents =
      attachAll store before parents >>= attachAll store later := by
  induction before generalizing parents with
  | nil => rfl
  | cons load before ih =>
    rw [List.cons_append, attachAll, attachAll]
    cases load.related store parents with
    | error fault => rfl
    | ok found => exact ih _

/-- Loads change each parent by itself, and only under the names of their relations. -/
theorem map_of_attachAll {store : Store} {loads : List EagerLoad} {parents rows : List Record}
    (h : attachAll store loads parents = .ok rows) :
    ∃ change : Record → Record, rows = parents.map change ∧
      ∀ name, (∀ load ∈ loads, load.relation.name ≠ name) →
        ∀ parent, (change parent).get? name = parent.get? name := by
  induction loads generalizing parents with
  | nil =>
    cases h
    exact ⟨id, (List.map_id _).symm, fun _ _ _ => rfl⟩
  | cons load loads ih =>
    obtain ⟨found, _, hrest⟩ := Except.of_bind_ok h
    obtain ⟨change, rfl, hchange⟩ := ih hrest
    refine ⟨change ∘ load.attach found, List.map_map, fun name hname parent => ?_⟩
    have hrests := hchange name (fun other hmem => hname other (List.mem_cons_of_mem _ hmem))
    have hown := hname load List.mem_cons_self
    rw [Function.comp_apply, hrests, attach, OrderedMap.get?_insert_of_ne (Ne.symm hown)]

theorem value_of_get? {r s : Record} {name : String} (h : r.get? name = s.get? name) :
    r.value name = s.value name := by
  rw [Record.value, Record.value, h]

theorem keys_map {load : EagerLoad} {change : Record → Record}
    (h : ∀ parent, (change parent).value load.relation.parentKey =
      parent.value load.relation.parentKey) (parents : List Record) :
    load.keys (parents.map change) = load.keys parents := by
  unfold keys
  rw [List.map_map]
  simp only [Function.comp_def, h]

/-- Under the name of a relation stand the related rows that match the key of the parent. -/
theorem get?_of_attachAll {load : EagerLoad} {before later : List EagerLoad} {store : Store}
    {related : Store.Prepared} {parents rows : List Record}
    (hbefore : ∀ other ∈ before, other.relation.name ≠ load.relation.parentKey)
    (hlater : ∀ other ∈ later, other.relation.name ≠ load.relation.name)
    (hkey : IsPlain load.relation.relatedKey)
    (hrelated : store.prepare false { table := load.relation.table } load.selectList = .ok related)
    (hown : (related.ownPlace? load.relation.relatedKey).isSome)
    (h : attachAll store (before ++ load :: later) parents = .ok rows) :
    ∃ change : Record → Record, rows = parents.map change ∧ ∀ parent,
      (change parent).get? load.relation.name =
        some (attached load.relation.kind (rowsWhere related fun row =>
          load.Matches related (load.keys parents) (parent.value load.relation.parentKey) row)) := by
  rw [attachAll_append] at h
  obtain ⟨between, hbetween, h⟩ := Except.of_bind_ok h
  obtain ⟨earlier, rfl, hearlier⟩ := map_of_attachAll hbetween
  obtain ⟨found, hfound, hrest⟩ := Except.of_bind_ok h
  obtain ⟨change, rfl, hchange⟩ := map_of_attachAll hrest
  have hvalue : ∀ parent : Record, (earlier parent).value load.relation.parentKey =
      parent.value load.relation.parentKey := fun parent =>
    value_of_get? (hearlier _ hbefore parent)
  refine ⟨fun parent => change (load.attach found (earlier parent)), by simp, fun parent => ?_⟩
  rw [hchange _ hlater, attach, OrderedMap.get?_insert_self,
    relatedTo_eq hkey hrelated hown hfound, keys_map hvalue, hvalue]

theorem Record.toJson_injective {r s : Record} (h : r.toJson = s.toJson) : r = s := by
  obtain ⟨entries, _⟩ := r
  obtain ⟨entries', _⟩ := s
  have hentries : entries = entries' := Json.object.inj h
  subst hentries
  rfl

theorem head?_of_attached {kind : RelationKind} {rows rows' : List Record}
    (h : attached kind rows = attached kind rows') : rows.head? = rows'.head? := by
  cases kind with
  | many =>
    have hlists : rows.map Record.toJson = rows'.map Record.toJson := Json.list.inj h
    have hrows : rows = rows' :=
      (List.map_inj_right fun _ _ hsame => Record.toJson_injective hsame).mp hlists
    rw [hrows]
  | one =>
    cases hfirst : rows.head? with
    | none =>
      cases hfirst' : rows'.head? with
      | none => rfl
      | some row =>
        rw [attached, attached, hfirst, hfirst'] at h
        cases h
    | some row =>
      cases hfirst' : rows'.head? with
      | none =>
        rw [attached, attached, hfirst, hfirst'] at h
        cases h
      | some row' =>
        rw [attached, attached, hfirst, hfirst'] at h
        exact congrArg some (Record.toJson_injective h)

section

variable {load : EagerLoad} {related p : Store.Prepared} {tuples : List Tuple}

/-- The keys of the related rows are alike the keys that the tuples show and those they have. -/
def KeysAlike (load : EagerLoad) (related p : Store.Prepared) (tuples : List Tuple) : Prop :=
  ∀ row ∈ related.first.rows, ∀ tuple ∈ tuples,
    (load.relatedCell related row).Alike (p.shownCell load.relation.parentKey tuple) ∧
      (load.relatedCell related row).Alike (p.ownCell load.relation.parentKey tuple)

instance (load : EagerLoad) (related p : Store.Prepared) (tuples : List Tuple) :
    Decidable (load.KeysAlike related p tuples) := by
  unfold KeysAlike
  infer_instance

/-- Among keys that are alike, looking the same is being equal. -/
theorem matches_iff_belongs (hshows : related.ShowsOwn load.relation.relatedKey)
    (halike : load.KeysAlike related p tuples) {tuple : Tuple} (htuple : tuple ∈ tuples)
    {row : Row} (hrow : row ∈ related.first.rows) :
    load.Matches related (load.keys (tuples.map (Store.record p.scope p.columns)))
        (p.shownCell load.relation.parentKey tuple).value row ↔
      load.Belongs related (p.shownCell load.relation.parentKey tuple) row := by
  have hshown : related.shownCell load.relation.relatedKey [row] = load.relatedCell related row :=
    Store.Prepared.shownCell_of_showsOwn hshows [row]
  have hown := (halike row hrow tuple htuple).1
  unfold Matches Belongs
  rw [hshown, hown.equal_iff, Cell.member_eq_true_iff]
  constructor
  · rintro ⟨hnull, ⟨item, hitem, hequal⟩, hdisplay⟩
    have hc : (load.relatedCell related row).datum ≠ .null := by
      intro hc
      rw [Cell.compare_null (.inl hc)] at hequal
      cases hequal
    have hk : (p.shownCell load.relation.parentKey tuple).datum ≠ .null := by
      intro hk
      rw [Cell.value_isNull hk] at hnull
      cases hnull
    exact ⟨(hown.display_iff hc hk).mp hdisplay, hc⟩
  · rintro ⟨hsame, hc⟩
    have hk : (p.shownCell load.relation.parentKey tuple).datum ≠ .null := hsame ▸ hc
    have hvalue : ∀ tuple, (Store.record p.scope p.columns tuple).value load.relation.parentKey =
        (p.shownCell load.relation.parentKey tuple).value := fun tuple =>
      p.value_record load.relation.parentKey tuple
    have hnull := hown.value_not_null hc hk
    have hshown : ((Store.record p.scope p.columns tuple).value
        load.relation.parentKey).isNull = false := by
      rw [hvalue]
      exact hnull
    obtain ⟨key, hkey, hdisplay⟩ := exists_key
      (List.mem_map_of_mem (f := Store.record p.scope p.columns) htuple) hshown
    obtain ⟨hkeynull, parent, hparent, rfl⟩ := of_mem_keys hkey
    obtain ⟨other, hother, rfl⟩ := List.mem_map.mp hparent
    rw [hvalue] at hkey hdisplay hkeynull
    -- the key that is asked for may be that of another parent
    have hasked := (halike row hrow other hother).1
    have hkother : (p.shownCell load.relation.parentKey other).datum ≠ .null := by
      intro hkother
      rw [Cell.value_isNull hkother] at hkeynull
      cases hkeynull
    obtain ⟨hbound, hdatum⟩ := hasked.bound hc hkother
    have hequal : (load.relatedCell related row).value.display =
        (p.shownCell load.relation.parentKey tuple).value.display :=
      (hown.display_iff hc hk).mpr hsame
    refine ⟨hnull, ⟨_, List.mem_map_of_mem hkey, ?_⟩, hequal⟩
    refine hbound.equal_iff.mpr ⟨?_, hc⟩
    rw [hdatum]
    rw [hvalue] at hdisplay
    exact (hasked.display_iff hc hkother).mp (hequal.trans hdisplay.symm)

theorem rowsWhere_eq_nil {test : Row → Bool} (h : ∀ row ∈ related.first.rows, test row = false) :
    rowsWhere related test = [] := by
  rw [rowsWhere, List.map_eq_nil_iff, List.filter_eq_nil_iff]
  intro row hrow
  simp [h row hrow]

theorem exists_head {test : Row → Bool} {row : Row} (hrow : row ∈ related.first.rows)
    (htest : test row = true) : ∃ found, (rowsWhere related test).head? = some found := by
  refine Option.isSome_iff_exists.mp (List.isSome_head?.mpr fun hnil => ?_)
  rw [rowsWhere, List.map_eq_nil_iff, List.filter_eq_nil_iff] at hnil
  exact hnil row hrow htest

theorem of_head {test : Row → Bool} {found : Record}
    (h : (rowsWhere related test).head? = some found) :
    ∃ row ∈ related.first.rows, test row = true ∧
      Store.record related.scope related.columns [row] = found := by
  obtain ⟨row, hrow, rfl⟩ := List.mem_map.mp (List.mem_of_mem_head? h)
  exact ⟨row, (List.mem_filter.mp hrow).1, (List.mem_filter.mp hrow).2, rfl⟩

/-- Rows of different keys are told apart by what is attached, unless there are none. -/
theorem attached_eq_iff (hshows : related.ShowsOwn load.relation.relatedKey) {k o : Cell}
    (hk : ∀ row ∈ related.first.rows, (load.relatedCell related row).Alike k)
    (ho : ∀ row ∈ related.first.rows, (load.relatedCell related row).Alike o)
    (kind : RelationKind) :
    attached kind (rowsWhere related fun row => load.Belongs related k row) =
        attached kind (rowsWhere related fun row => load.Belongs related o row) ↔
      k.datum = o.datum ∨ ∀ row ∈ related.first.rows,
        ¬load.Belongs related k row ∧ ¬load.Belongs related o row := by
  have hvalue : ∀ {key : Cell} {row : Row}, row ∈ related.first.rows →
      (load.relatedCell related row).Alike key → load.Belongs related key row →
      (Store.record related.scope related.columns [row]).value load.relation.relatedKey =
        key.value ∧ (Cell.ofValue key.value).datum = key.datum := by
    intro key row hrow halike hbelongs
    obtain ⟨hsame, hnull⟩ := halike.equal_iff.mp hbelongs
    refine ⟨?_, (halike.bound hnull (hsame ▸ hnull)).2⟩
    rw [Store.Prepared.value_record, Store.Prepared.shownCell_of_showsOwn hshows]
    exact congrArg (fun d : Datum => Value.ofJson d.toJson) hsame
  constructor
  · intro h
    have hhead := head?_of_attached h
    -- the first related row shows the key that it was matched by
    by_cases hany : ∃ row ∈ related.first.rows,
        load.Belongs related k row ∨ load.Belongs related o row
    · left
      obtain ⟨found, hfound⟩ : ∃ found,
          (rowsWhere related fun row => load.Belongs related k row).head? = some found := by
        obtain ⟨row, hrow, hbelongs | hbelongs⟩ := hany
        · exact exists_head hrow (decide_eq_true hbelongs)
        · rw [hhead]
          exact exists_head hrow (decide_eq_true hbelongs)
      obtain ⟨row, hrow, hbelongs, hrecord⟩ := of_head hfound
      obtain ⟨row', hrow', hbelongs', hrecord'⟩ := of_head (hhead ▸ hfound)
      obtain ⟨hvaluek, hdatumk⟩ := hvalue hrow (hk row hrow) (of_decide_eq_true hbelongs)
      obtain ⟨hvalueo, hdatumo⟩ := hvalue hrow' (ho row' hrow') (of_decide_eq_true hbelongs')
      have hsame : k.value = o.value := by
        rw [← hvaluek, ← hvalueo, hrecord, hrecord']
      rw [← hdatumk, ← hdatumo, hsame]
    · right
      exact fun row hrow => ⟨fun hbelongs => hany ⟨row, hrow, .inl hbelongs⟩,
        fun hbelongs => hany ⟨row, hrow, .inr hbelongs⟩⟩
  · rintro (hsame | hnone)
    · congr 1
      rw [rowsWhere, rowsWhere]
      congr 1
      refine List.filter_congr fun row hrow => ?_
      have hiff : load.Belongs related k row ↔ load.Belongs related o row := by
        unfold Belongs
        rw [(hk row hrow).equal_iff, (ho row hrow).equal_iff, hsame]
      exact decide_eq_decide.mpr hiff
    · rw [rowsWhere_eq_nil fun row hrow => decide_eq_false (hnone row hrow).1,
        rowsWhere_eq_nil fun row hrow => decide_eq_false (hnone row hrow).2]

end

end EagerLoad

end TableQuery
