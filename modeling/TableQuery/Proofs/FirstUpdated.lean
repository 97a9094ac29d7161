import TableQuery.Proofs.InsertedRows
import TableQuery.Proofs.StoredEntity

namespace TableQuery

namespace Entity

variable {e : Entity} {moment : Moment} {attributes values record found : Record}
  {store : Store} {session after : Session} {t : Table} {row : Row} {p : Nat}
  {changes : List (Nat × Datum)}

/-- The one row with the key gives way to the changed row, which comes back; schemas stay. -/
theorem Stored.of_update (h : e.Stored store t p) (hmem : row ∈ t.rows)
    (hrecord : record.value e.primaryKey = (t.cellOf e.primaryKey row).value)
    (hnull : (record.value e.primaryKey).isNull = false) {store' : Store} {result : WriteResult}
    (hupdate : store.update (e.writing moment record values) = .ok (store', result)) :
    ∃ changes, t.schema.assigned (e.writing moment record values).assignments = .ok changes ∧
      result.rows.head? = some (t.readRow (t.schema.changedRow row changes)) ∧
      store.SameSchemas store' ∧
      store'.table e.table = .ok (t.replaceRow row (t.schema.changedRow row changes)) := by
  have hvalue := Value.isNull_eq_false.mp hnull
  have hindex : (t.schema.index? e.primaryKey).isSome := by
    rw [h.key.index?_eq]
    rfl
  have hrow : t.rowsWith e.primaryKey (record.value e.primaryKey) = [row] := by
    rw [hrecord]
    exact h.rowsWith_key hmem (hrecord ▸ hnull)
  obtain ⟨changes, between, hchanges, hback, hlog, schemas, rfl⟩ :=
    Store.of_update_alone (u := e.writing moment record values) h.own h.plain_key hindex hvalue hrow
      hupdate
  have hschema : (t.replaceRow row (t.schema.changedRow row changes)).schema = t.schema := rfl
  have hset := h.named.sameSchemas_setTable h.own hschema
  have hlogged := (h.named.of_sameSchemas hset).sameSchemas_logChange hlog
  refine ⟨changes, hchanges, by rw [hback, List.head?_cons],
    (hset.trans hlogged).trans (.noteWritten between schemas), ?_⟩
  have htable : between.table? e.table =
      some (t.replaceRow row (t.schema.changedRow row changes)) := by
    rw [(Store.of_logChange hlog).2 e.table h.unlogged,
      Store.table?_setTable_of (Store.table_eq_ok.mp h.own) hschema,
      if_pos (Text.sameName_refl e.table)]
  exact Store.table_eq_ok.mpr htable

end Entity

end TableQuery
