namespace TableQuery

inductive RelationKind
  | one
  | many
deriving DecidableEq, Repr

/-- A named relation of an entity. A row of `table` belongs to a row of the entity when its
`relatedKey` equals the `parentKey` of the entity's row. -/
structure Relation where
  name : String
  table : String
  relatedKey : String
  parentKey : String
  kind : RelationKind
deriving DecidableEq, Repr

namespace Relation

/-- Many related rows point back through their foreign key. -/
def hasMany (name table foreignKey localKey : String) : Relation :=
  ⟨name, table, foreignKey, localKey, .many⟩

/-- One related row points back through its foreign key. -/
def hasOne (name table foreignKey localKey : String) : Relation :=
  ⟨name, table, foreignKey, localKey, .one⟩

/-- The entity points at its related row through a foreign key of its own. -/
def belongsTo (name table foreignKey ownerKey : String) : Relation :=
  ⟨name, table, ownerKey, foreignKey, .one⟩

end Relation

end TableQuery
