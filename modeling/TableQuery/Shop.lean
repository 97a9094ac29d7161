import TableQuery.Entity
import TableQuery.Record
import TableQuery.Store.Table

/-! A shop: its customers with what belongs to them, as entities and as tables. -/

namespace TableQuery.Shop

/-- Customers from a least status on, when the payload names one. -/
def leastStatus (payload : OrderedMap Json) : Criteria :=
  match (payload.get? "min_status").bind Json.int64? with
  | some n => [(.and, .compare "customers.status" .ge (.int n))]
  | none => []

def customers : Entity where
  table := "customers"
  timestamps := true
  relations :=
    [.hasMany "orders" "orders" "customer_id" "id", .belongsTo "team" "teams" "team_id" "id",
     .hasOne "badge" "badges" "customer_id" "id"]
  filter := some fun payload => .ok (leastStatus payload)

def orders : Entity where
  table := "orders"
  relations := [.belongsTo "customer" "customers" "customer_id" "id"]

def teams : Entity where
  table := "teams"

def tags : Entity where
  table := "tags"
  keyKind := .fresh
  defaultSort := ⟨"slug", .asc⟩

def badges : Entity where
  table := "badges"
  primaryKey := "code"
  keyKind := .given
  defaultSort := ⟨"rank", .desc⟩
  relations := [.belongsTo "customer" "customers" "customer_id" "id"]

def assets : Entity where
  table := "assets"
  relations := [.belongsTo "owner" "customers" "owner_id" "id"]

def entities : List Entity :=
  [customers, orders, teams, tags, badges, assets]

def entity? (name : String) : Option Entity :=
  entities.find? (·.table = name)

def integerColumn (name : String) : Column where
  name := name
  affinity := .integer

def textColumn (name : String) : Column where
  name := name
  affinity := .text

def requiredText (name : String) : Column where
  name := name
  affinity := .text
  required := true

/-- The tables whose key the store counts. -/
def countedSchema (name : String) (columns : List Column) : Schema where
  name := name
  columns := integerColumn "id" :: columns
  counted := some "id"
  uniques := [⟨["id"], .primaryKey⟩]

def teamSchema : Schema :=
  countedSchema "teams" [requiredText "name"]

def customerSchema : Schema :=
  countedSchema "customers"
    [requiredText "name", textColumn "code", ⟨"status", .integer, true, .int 1⟩,
     integerColumn "team_id", textColumn "entry_at", textColumn "leave_at",
     textColumn "created_at", textColumn "updated_at"]

/-- The customers of a shop that keeps none whose team is gone. -/
def teamedSchema : Schema :=
  { customerSchema with references := [⟨["team_id"], "teams", ["id"]⟩] }

def orderSchema : Schema :=
  countedSchema "orders"
    [⟨"customer_id", .integer, true, .null⟩, ⟨"total", .real, true, .null⟩,
     textColumn "placed_at"]

/-- The key of the row is looked at first, then the slug, then the key of the tag. -/
def tagSchema : Schema where
  name := "tags"
  columns :=
    [textColumn "id", requiredText "slug", requiredText "label", ⟨"hits", .integer, true, .int 0⟩]
  uniques := [⟨["rowid"], .rowKey⟩, ⟨["slug"], .unique⟩, ⟨["id"], .primaryKey⟩]

def badgeSchema : Schema where
  name := "badges"
  columns :=
    [requiredText "code", integerColumn "customer_id", integerColumn "rank",
     ⟨"weight", .real, false, .null⟩]
  uniques := [⟨["rowid"], .rowKey⟩, ⟨["code"], .primaryKey⟩]

def assetSchema : Schema :=
  countedSchema "assets"
    [textColumn "name", ⟨"data", .any, false, .blob [0x00, 0xFF, 0x41]⟩,
     ⟨"score", .real, false, .real Double.infinity⟩, ⟨"owner_id", .any, false, .null⟩]

def auditSchema : Schema :=
  countedSchema "customer_audit" [⟨"customer_id", .integer, true, .null⟩]

/-- The tables that describe the tables of a database. -/
def catalogSchema (name other : String) (temporary : Bool) : Schema where
  name := name
  columns :=
    [textColumn "type", textColumn "name", textColumn "tbl_name", integerColumn "rootpage",
     textColumn "sql"]
  uniques := []
  otherNames := [other]
  temporary := temporary

/-- What the catalog says of the shop: kind, name and table of each part, the page at which it
begins, and the statement that made it. -/
def catalog : List (String × String × String × Int × Option String) :=
  [("table", "teams", "teams", 2,
     some "CREATE TABLE teams (id INTEGER PRIMARY KEY AUTOINCREMENT, name TEXT NOT NULL)"),
   ("table", "sqlite_sequence", "sqlite_sequence", 3,
     some "CREATE TABLE sqlite_sequence(name,seq)"),
   ("table", "customers", "customers", 4,
     some ("CREATE TABLE customers (id INTEGER PRIMARY KEY AUTOINCREMENT, name TEXT NOT NULL, " ++
       "code TEXT, status INTEGER NOT NULL DEFAULT 1,\n    team_id INTEGER, entry_at TEXT, " ++
       "leave_at TEXT, created_at TEXT, updated_at TEXT)")),
   ("table", "orders", "orders", 5,
     some ("CREATE TABLE orders (id INTEGER PRIMARY KEY AUTOINCREMENT, " ++
       "customer_id INTEGER NOT NULL, total REAL NOT NULL, placed_at TEXT)")),
   ("table", "tags", "tags", 6,
     some ("CREATE TABLE tags (id TEXT PRIMARY KEY, slug TEXT NOT NULL UNIQUE, " ++
       "label TEXT NOT NULL, hits INTEGER NOT NULL DEFAULT 0)")),
   ("index", "sqlite_autoindex_tags_1", "tags", 7, none),
   ("index", "sqlite_autoindex_tags_2", "tags", 8, none),
   ("table", "badges", "badges", 9,
     some ("CREATE TABLE badges (code TEXT PRIMARY KEY NOT NULL, customer_id INTEGER, " ++
       "rank INTEGER, weight REAL)")),
   ("index", "sqlite_autoindex_badges_1", "badges", 10, none),
   ("table", "assets", "assets", 11,
     some ("CREATE TABLE assets (id INTEGER PRIMARY KEY AUTOINCREMENT, name TEXT, " ++
       "data BLOB DEFAULT x'00FF41', score REAL DEFAULT 9e999, owner_id)")),
   ("table", "customer_audit", "customer_audit", 12,
     some ("CREATE TABLE customer_audit (id INTEGER PRIMARY KEY AUTOINCREMENT, " ++
       "customer_id INTEGER NOT NULL)")),
   ("trigger", "customers_audit", "customers", 0,
     some ("CREATE TRIGGER customers_audit AFTER UPDATE ON customers BEGIN " ++
       "INSERT INTO customer_audit (customer_id) VALUES (NEW.id); END"))]

def catalogRows : List Row :=
  catalog.mapIdx fun i (kind, name, table, page, sql) =>
    [.text kind, .text name, .text table, .int page, (sql.map Datum.text).getD .null, .int (i + 1)]

/-- The shop before anything is sold. Each change of a customer leaves a line in the audit. -/
def emptyStore : Store where
  tables :=
    [teamSchema, customerSchema, orderSchema, tagSchema, badgeSchema, assetSchema,
     auditSchema].map (fun schema => { schema := schema }) ++
    [{ schema := catalogSchema "sqlite_master" "sqlite_schema" false, rows := catalogRows },
     { schema := catalogSchema "sqlite_temp_master" "sqlite_temp_schema" true }]
  watches := [⟨"customers", "id", "customer_audit", "customer_id"⟩]

/-- A rated note, the typed form of a record with a key and a name. -/
structure Note where
  id : Int
  name : String
  note : Option String
  ratio : Option Double
  tags : List String

namespace Note

def shape : Shape.RecordShape :=
  ⟨"Row",
    [.of "id" Shape.int64, .of "name" Shape.text, .optional "note" (Shape.option Shape.text),
     .optional "ratio" (Shape.option Shape.real), .optional "tags" (Shape.list Shape.text)]⟩

def ofJson : Shape.Reader Note := fun j => do
  let values ← shape.values j
  pure
    { id := ← values.required "id" Shape.int64
      name := ← values.required "name" Shape.text
      note := ← values.optional "note" none (Shape.option Shape.text)
      ratio := ← values.optional "ratio" none (Shape.option Shape.real)
      tags := ← values.optional "tags" [] (Shape.list Shape.text) }

def toJson (n : Note) : Json :=
  .object
    [("id", .int n.id), ("name", .text n.name), ("note", (n.note.map .text).getD .null),
     ("ratio", (n.ratio.map .real).getD .null), ("tags", .list (n.tags.map .text))]

end Note

end TableQuery.Shop
