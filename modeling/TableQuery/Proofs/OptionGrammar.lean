import TableQuery.Proofs.OptionKeys
import TableQuery.Proofs.PageWindows
import TableQuery.Proofs.RecordForms
import TableQuery.Proofs.ShownColumns

namespace TableQuery

open Shape

/-- An entry writes a sort key: the direction of its column, in letters of either case. -/
def SortKey.Writes (entry : String × Json) (key : SortKey) : Prop :=
  entry.1 = key.column ∧ ∃ word, entry.2 = .text word ∧ Text.lower word = key.direction.name

/-- A kind of join is written by name, or by an object that holds null under the name. -/
def JoinKind.Writes (j : Json) (kind : JoinKind) : Prop :=
  j = .text kind.name ∨ j = .object [(kind.name, .null)]

def RelationRequest.Writes (j : Json) (r : RelationRequest) : Prop :=
  ∃ values, shape.Gives j values ∧
    ("relationship_name", .text r.name) ∈ values ∧
    ("relationship_select", .list (r.columns.map .text)) ∈ values

/-- A value writes a join; without a kind it is an inner one. -/
def Join.Writes (j : Json) (join : Join) : Prop :=
  ∃ values, shape.Gives j values ∧
    ("table_name", .text join.table) ∈ values ∧
    ("foreign_key", .text join.foreignKey) ∈ values ∧
    ("primary_key", .text join.primaryKey) ∈ values ∧
    ((∃ kind, ("type", kind) ∈ values ∧ JoinKind.Writes kind join.kind) ∨
      "type" ∉ values.map Prod.fst ∧ join.kind = .inner)

def Page.Writes (j : Json) (p : Page) : Prop :=
  ∃ values, shape.Gives j values ∧
    (("page", .int p.number) ∈ values ∧ isInt64 p.number = true) ∧
    ("page_size", .int p.size) ∈ values ∧ isInt64 p.size = true

theorem Direction.read_eq_ok_iff {word : String} {d : Direction} :
    read word = .ok d ↔ Text.lower word = d.name := by
  have hnames : (names.map Prod.fst).Nodup := by decide
  have hname : ∀ entry ∈ names, entry.2 = d ↔ entry.1 = d.name := by cases d <;> decide
  have hmem : (d.name, d) ∈ names := by cases d <;> decide
  unfold read
  dsimp only
  cases hfound : names.find? (·.1 = Text.lower word) with
  | some entry =>
    obtain ⟨hentry, hword⟩ := (find?_key_iff hnames).mp hfound
    rw [← hword, ← hname entry hentry]
    simp
  | none =>
    refine iff_of_false (by simp) fun hsame => ?_
    exact absurd (decide_eq_true hsame.symm) (List.find?_eq_none.mp hfound _ hmem)

theorem SortKey.readSortKey_eq_ok_iff {entry : String × Json} {key : SortKey} :
    ListOptions.readSortKey entry = .ok key ↔ Writes entry key := by
  obtain ⟨column, value⟩ := entry
  cases value with
  | text word =>
    simp only [ListOptions.readSortKey, Json.text?, Except.map_eq_ok_iff,
      Direction.read_eq_ok_iff, Writes, Json.text.injEq, exists_eq_left']
    constructor
    · rintro ⟨d, hword, rfl⟩
      exact ⟨rfl, hword⟩
    · rintro ⟨rfl, hword⟩
      exact ⟨_, hword, rfl⟩
  | _ => simp [ListOptions.readSortKey, Json.text?, Writes]

theorem JoinKind.ofJson_eq_ok_iff {j : Json} {kind : JoinKind} :
    ofJson j = .ok kind ↔ Writes j kind := by
  have hname : ∀ word, (word, kind) ∈ names ↔ word = kind.name := by
    cases kind <;> simp [names, name]
  rw [ofJson, choice_eq_ok_iff (by decide)]
  simp only [hname, exists_eq_left, Writes]

theorem RelationRequest.ofJson_eq_ok_iff {j : Json} (hj : j.KeysOnce) {r : RelationRequest} :
    ofJson j = .ok r ↔ Writes j r := by
  refine RecordShape.bind_values_eq_ok_iff (by decide) hj (fun values hkeys => ?_)
    fun values hkeys h => ?_
  · simp only [Except.bind_eq_ok_iff, FieldValues.required_eq_ok_iff hkeys, text_eq_ok_iff,
      list_text_eq_ok_iff, exists_eq_right]
    constructor
    · rintro ⟨name, hname, columns, hcolumns, h⟩
      cases h
      exact ⟨hname, hcolumns⟩
    · rintro ⟨hname, hcolumns⟩
      exact ⟨_, hname, _, hcolumns, rfl⟩
  · obtain ⟨name, hname, h⟩ := Except.of_bind_ok h
    obtain ⟨columns, hcolumns, _⟩ := Except.of_bind_ok h
    exact (RecordShape.passes_nil.of hkeys hcolumns).of hkeys hname

theorem Page.ofJson_eq_ok_iff {j : Json} (hj : j.KeysOnce) {p : Page} :
    ofJson j = .ok p ↔ Writes j p := by
  refine RecordShape.bind_values_eq_ok_iff (by decide) hj (fun values hkeys => ?_)
    fun values hkeys h => ?_
  · simp only [Except.bind_eq_ok_iff, FieldValues.required_eq_ok_iff hkeys, int64_eq_ok_iff]
    constructor
    · rintro ⟨number, ⟨_, hnumber, rfl, hfits⟩, size, ⟨_, hsize, rfl, hfits'⟩, h⟩
      cases h
      exact ⟨⟨hnumber, hfits⟩, hsize, hfits'⟩
    · rintro ⟨⟨hnumber, hfits⟩, hsize, hfits'⟩
      exact ⟨_, ⟨_, hnumber, rfl, hfits⟩, _, ⟨_, hsize, rfl, hfits'⟩, rfl⟩
  · obtain ⟨number, hnumber, h⟩ := Except.of_bind_ok h
    obtain ⟨size, hsize, _⟩ := Except.of_bind_ok h
    exact (RecordShape.passes_nil.of hkeys hsize).of hkeys hnumber

theorem Join.ofJson_eq_ok_iff {j : Json} (hj : j.KeysOnce) {join : Join} :
    ofJson j = .ok join ↔ Writes j join := by
  refine RecordShape.bind_values_eq_ok_iff (by decide) hj (fun values hkeys => ?_)
    fun values hkeys h => ?_
  · simp only [Except.bind_eq_ok_iff, FieldValues.required_eq_ok_iff hkeys,
      FieldValues.optional_eq_ok_iff hkeys, text_eq_ok_iff, JoinKind.ofJson_eq_ok_iff,
      exists_eq_right]
    constructor
    · rintro ⟨table, htable, foreignKey, hforeign, primaryKey, hprimary, kind, hkind, h⟩
      cases h
      exact ⟨htable, hforeign, hprimary, hkind⟩
    · rintro ⟨htable, hforeign, hprimary, hkind⟩
      exact ⟨_, htable, _, hforeign, _, hprimary, _, hkind, rfl⟩
  · obtain ⟨table, htable, h⟩ := Except.of_bind_ok h
    obtain ⟨foreignKey, hforeign, h⟩ := Except.of_bind_ok h
    obtain ⟨primaryKey, hprimary, h⟩ := Except.of_bind_ok h
    obtain ⟨kind, hkind, _⟩ := Except.of_bind_ok h
    exact (((RecordShape.passes_nil.optional hkeys hkind).of hkeys hprimary).of hkeys
      hforeign).of hkeys htable

theorem OrderedMap.ext {α : Type} {m m' : OrderedMap α} (h : m.entries = m'.entries) : m = m' := by
  obtain ⟨_, _⟩ := m
  obtain ⟨_, _⟩ := m'
  cases h
  rfl

/-- What an entry of options stands for. -/
inductive OptionPart
  | sort (keys : List SortKey)
  | relate (relations : List RelationRequest)
  | join (joins : List Join)
  | filter (payload : OrderedMap Json)
  | page (page : Page)

namespace OptionPart

def key : OptionPart → String
  | sort _ => "sort"
  | relate _ => "relate"
  | join _ => "join"
  | filter _ => "filter"
  | page _ => "paginate"

/-- The part in its serialized form. -/
def payload : OptionPart → Json
  | sort keys => .object (keys.map fun key => (key.column, .text key.direction.name))
  | relate relations => .list (relations.map RelationRequest.toJson)
  | join joins => .list (joins.map Join.toJson)
  | filter payload => .ofMap payload
  | page p => p.toJson

/-- The step of a part; the kinds of joins are not forced. -/
def step? : OptionPart → Option ListStep
  | sort keys => some (.sort keys)
  | relate relations => some (.relate relations)
  | join joins => some (.join joins none)
  | filter payload => some (.filter payload)
  | page _ => none

def page? : OptionPart → Option Page
  | page p => some p
  | _ => none

/-- A payload writes a part. A page is the one that is made of the page in the payload. -/
def WrittenBy (payload : Json) : OptionPart → Prop
  | sort keys => ∃ fields, payload = .object fields ∧ List.Forall₂ SortKey.Writes fields keys
  | relate relations =>
    ∃ items, payload = .list items ∧ List.Forall₂ RelationRequest.Writes items relations
  | join joins => ∃ items, payload = .list items ∧ List.Forall₂ Join.Writes items joins
  | filter fields => payload = .object fields.entries
  | page made =>
    ∃ wanted, Page.Writes payload wanted ∧ Page.make wanted.number wanted.size = .ok made

/-- An entry writes a part: under its key. -/
def Writes (entry : String × Json) (part : OptionPart) : Prop :=
  entry.1 = part.key ∧ part.WrittenBy entry.2

end OptionPart

namespace ListOptions

/-- The steps of the parts in order, and the page among them. -/
def ofParts (parts : List OptionPart) : ListOptions where
  steps := parts.filterMap OptionPart.step?
  page := parts.findSome? OptionPart.page?

/-- Entries as an object has them, with payloads and items of payloads that are such objects. -/
structure KeysOnce (entries : List (String × Json)) : Prop where
  keys : (entries.map Prod.fst).Nodup
  payloads : ∀ entry ∈ entries, entry.2.KeysOnce
  items : ∀ entry ∈ entries, ∀ items, entry.2 = .list items → ∀ item ∈ items, item.KeysOnce

theorem readSort_eq_ok_iff {payload : Json} {keys : List SortKey} :
    readSort payload = .ok keys ↔
      ∃ fields, payload = .object fields ∧ List.Forall₂ SortKey.Writes fields keys := by
  cases payload <;>
    simp [readSort, Except.mapM_eq_ok_iff, SortKey.readSortKey_eq_ok_iff]

theorem readPayload_eq_ok_iff {α : Type} {option : String} {reader : Reader α} {payload : Json}
    {a : α} : readPayload option reader payload = .ok a ↔ reader payload = .ok a := by
  unfold readPayload
  cases reader payload <;> simp [Except.mapError]

theorem readPage_eq_ok_iff {payload : Json} (h : payload.KeysOnce) {p : Page} :
    readPage payload = .ok p ↔
      ∃ wanted, Page.Writes payload wanted ∧ Page.make wanted.number wanted.size = .ok p := by
  simp only [readPage, Except.bind_eq_ok_iff, readPayload_eq_ok_iff, Page.ofJson_eq_ok_iff h]

theorem readFilter_eq_ok_iff {payload : Json} (h : payload.KeysOnce) {fields : OrderedMap Json} :
    readFilter payload = .ok fields ↔ payload = .object fields.entries := by
  cases payload with
  | object entries =>
    have hentries := OrderedMap.entries_ofList (Json.keysOnce_object.mp h)
    simp only [readFilter, Except.ok.injEq, Json.object.injEq]
    constructor
    · rintro rfl
      exact hentries.symm
    · exact fun h => OrderedMap.ext (hentries.trans h)
  | _ => simp [readFilter]

end ListOptions

namespace OptionPart

/-- The options with the part added. -/
def addTo (o : ListOptions) (part : OptionPart) : ListOptions where
  steps := o.steps ++ part.step?.toList
  page := part.page?.or o.page

variable {entry : String × Json} {part : OptionPart}

theorem page?_eq_none (h : part.key ≠ "paginate") : part.page? = none := by
  cases part with
  | page => exact absurd rfl h
  | _ => rfl

theorem step?_eq_none (h : part.key = "paginate") : part.step? = none := by
  cases part with
  | page => rfl
  | _ => simp [OptionPart.key] at h

theorem readEntry_eq_ok_iff (hpayload : entry.2.KeysOnce)
    (hitems : ∀ items, entry.2 = .list items → ∀ item ∈ items, item.KeysOnce)
    {o o' : ListOptions} :
    ListOptions.readEntry o entry = .ok o' ↔ ∃ part, Writes entry part ∧ o' = part.addTo o := by
  obtain ⟨key, payload⟩ := entry
  dsimp only at hpayload hitems
  -- an entry is read as its payload is, and the part that this writes is added
  have hcase : ∀ {α : Type} {result : Except InvalidInput α} {written : α → Prop}
      (made : α → OptionPart),
      (ListOptions.readEntry o (key, payload) = result.map fun a => (made a).addTo o) →
      (∀ a, result = .ok a ↔ written a) →
      (∀ part, Writes (key, payload) part ↔ ∃ a, written a ∧ part = made a) →
      (ListOptions.readEntry o (key, payload) = .ok o' ↔
        ∃ part, Writes (key, payload) part ∧ o' = part.addTo o) := by
    intro α result written made hread hresult hwrites
    simp only [hread, Except.map_eq_ok_iff, hresult, hwrites]
    constructor
    · rintro ⟨a, ha, rfl⟩
      exact ⟨_, ⟨a, ha, rfl⟩, rfl⟩
    · rintro ⟨_, ⟨a, ha, rfl⟩, rfl⟩
      exact ⟨a, ha, rfl⟩
  by_cases hsort : key = "sort"
  · subst hsort
    refine hcase sort rfl
      (fun _ => ListOptions.readSort_eq_ok_iff) fun part => ?_
    cases part <;> simp [Writes, OptionPart.key, WrittenBy]
  by_cases hrelate : key = "relate"
  · subst hrelate
    refine hcase relate rfl
      (fun _ => ListOptions.readPayload_eq_ok_iff.trans
        (list_eq_ok_iff_of (fun _ hitem _ => RelationRequest.ofJson_eq_ok_iff hitem) hitems))
      fun part => ?_
    cases part <;> simp [Writes, OptionPart.key, WrittenBy]
  by_cases hjoin : key = "join"
  · subst hjoin
    refine hcase join rfl
      (fun _ => ListOptions.readPayload_eq_ok_iff.trans
        (list_eq_ok_iff_of (fun _ hitem _ => Join.ofJson_eq_ok_iff hitem) hitems)) fun part => ?_
    cases part <;> simp [Writes, OptionPart.key, WrittenBy]
  by_cases hfilter : key = "filter"
  · subst hfilter
    refine hcase filter rfl
      (fun _ => ListOptions.readFilter_eq_ok_iff hpayload) fun part => ?_
    cases part <;> simp [Writes, OptionPart.key, WrittenBy]
  by_cases hpage : key = "paginate"
  · subst hpage
    refine hcase page (by simp [ListOptions.readEntry, addTo, step?, page?])
      (fun _ => ListOptions.readPage_eq_ok_iff hpayload) fun part => ?_
    cases part <;> simp [Writes, OptionPart.key, WrittenBy]
  · refine iff_of_false (by simp [ListOptions.readEntry, hsort, hrelate, hjoin, hfilter, hpage]) ?_
    rintro ⟨part, ⟨hkey, _⟩, _⟩
    cases part <;> contradiction

end OptionPart

namespace ListOptions

theorem foldl_addTo (parts : List OptionPart) (o : ListOptions) :
    parts.foldl OptionPart.addTo o =
      ⟨o.steps ++ parts.filterMap OptionPart.step?,
        (parts.reverse.findSome? OptionPart.page?).or o.page⟩ := by
  induction parts generalizing o with
  | nil => simp
  | cons part parts ih =>
    rw [List.foldl_cons, ih]
    simp only [OptionPart.addTo, List.reverse_cons, List.findSome?_append, Option.or_assoc,
      List.append_assoc]
    cases hstep : part.step? <;> simp [hstep]

theorem forall_page?_eq_none {entries : List (String × Json)} {parts : List OptionPart}
    (h : List.Forall₂ OptionPart.Writes entries parts)
    (habsent : "paginate" ∉ entries.map Prod.fst) : ∀ part ∈ parts, part.page? = none := by
  induction h with
  | nil => simp
  | cons hpart _ ih =>
    rw [List.map_cons, List.mem_cons, not_or] at habsent
    refine List.forall_mem_cons.mpr ⟨OptionPart.page?_eq_none fun hkey => ?_, ih habsent.2⟩
    exact habsent.1 (hkey.symm.trans hpart.1.symm)

/-- The page comes to the same wherever it stands among the parts. -/
theorem foldl_addTo_moved {before after : List OptionPart} {part : OptionPart}
    (hothers : ∀ other ∈ before ++ after, other.page? = none) (hkey : part.key = "paginate") :
    (before ++ after ++ [part]).foldl OptionPart.addTo {} = ofParts (before ++ part :: after) := by
  have hbefore : before.findSome? OptionPart.page? = none :=
    List.findSome?_eq_none_iff.mpr fun other hmem => hothers other (List.mem_append_left _ hmem)
  have hafter : after.findSome? OptionPart.page? = none :=
    List.findSome?_eq_none_iff.mpr fun other hmem => hothers other (List.mem_append_right _ hmem)
  have hback : (before ++ after).reverse.findSome? OptionPart.page? = none :=
    List.findSome?_eq_none_iff.mpr fun other hmem => hothers other (List.mem_reverse.mp hmem)
  rw [foldl_addTo, ofParts, List.reverse_append, List.findSome?_append, hback,
    List.findSome?_append, hbefore]
  simp [OptionPart.step?_eq_none hkey, List.findSome?_cons, hafter]

theorem moveLast_of_not_mem {α : Type} {key : String} {entries : List (String × α)}
    (h : key ∉ entries.map Prod.fst) : moveLast key entries = entries := by
  have hnone : entries.find? (·.1 = key) = none :=
    List.find?_eq_none.mpr fun entry hmem hkey =>
      h (List.mem_map.mpr ⟨entry, hmem, of_decide_eq_true hkey⟩)
  rw [moveLast, hnone]

theorem ofJson_eq_ok_iff {entries : List (String × Json)} (h : KeysOnce entries)
    {o : ListOptions} :
    ofJson (.object entries) = .ok o ↔
      ∃ parts, List.Forall₂ OptionPart.Writes entries parts ∧ o = ofParts parts := by
  have hread : (moveLast "paginate" entries).foldlM readEntry {} = .ok o ↔
      ∃ parts, List.Forall₂ OptionPart.Writes (moveLast "paginate" entries) parts ∧
        o = parts.foldl OptionPart.addTo {} :=
    Except.foldlM_eq_ok_iff fun entry hmem _ _ =>
      have hentry := (perm_moveLast "paginate" entries).mem_iff.mp hmem
      OptionPart.readEntry_eq_ok_iff (h.payloads entry hentry) (h.items entry hentry)
  rw [ofJson, hread]
  by_cases hpage : "paginate" ∈ entries.map Prod.fst
  · obtain ⟨⟨key, payload⟩, hmem, rfl⟩ := List.mem_map.mp hpage
    obtain ⟨before, after, rfl⟩ := List.append_of_mem hmem
    have habsent : "paginate" ∉ (before ++ after).map Prod.fst := by
      have hkeys := h.keys
      rw [List.map_append, List.map_cons, List.nodup_middle, ← List.map_append] at hkeys
      exact (List.nodup_cons.mp hkeys).1
    have hmoved : ∀ {front back part}, List.Forall₂ OptionPart.Writes before front →
        List.Forall₂ OptionPart.Writes after back →
        OptionPart.Writes ("paginate", payload) part →
        (front ++ back ++ [part]).foldl OptionPart.addTo {} = ofParts (front ++ part :: back) :=
      fun hfront hback hpart => foldl_addTo_moved (forall_page?_eq_none
        (forall₂_append_left_iff.mpr ⟨_, _, hfront, hback, rfl⟩) habsent) hpart.1.symm
    rw [moveLast_append habsent]
    simp only [forall₂_append_left_iff, List.forall₂_cons_left_iff, List.forall₂_nil_left_iff]
    constructor
    · rintro ⟨_, ⟨_, _, ⟨front, back, hfront, hback, rfl⟩, ⟨part, _, hpart, rfl, rfl⟩, rfl⟩, rfl⟩
      exact ⟨_, ⟨front, _, hfront, ⟨part, back, hpart, hback, rfl⟩, rfl⟩,
        hmoved hfront hback hpart⟩
    · rintro ⟨_, ⟨front, _, hfront, ⟨part, back, hpart, hback, rfl⟩, rfl⟩, rfl⟩
      exact ⟨_, ⟨_, _, ⟨front, back, hfront, hback, rfl⟩, ⟨part, _, hpart, rfl, rfl⟩, rfl⟩,
        (hmoved hfront hback hpart).symm⟩
  · rw [moveLast_of_not_mem hpage]
    refine exists_congr fun parts => and_congr_right fun hparts => ?_
    have hnone : parts.reverse.findSome? OptionPart.page? = none :=
      List.findSome?_eq_none_iff.mpr fun part hmem =>
        forall_page?_eq_none hparts hpage part (List.mem_reverse.mp hmem)
    have hnone' : parts.findSome? OptionPart.page? = none :=
      List.findSome?_eq_none_iff.mpr (forall_page?_eq_none hparts hpage)
    simp [foldl_addTo, ofParts, hnone, hnone']

/-- Options are read where every entry writes a part, and otherwise refused. -/
theorem ofJson_settles {entries : List (String × Json)} (h : KeysOnce entries) :
    ((∃ o, ofJson (.object entries) = .ok o) ↔
        ∀ entry ∈ entries, ∃ part, OptionPart.Writes entry part) ∧
      ((∃ fault, ofJson (.object entries) = .error fault) ↔
        ∃ entry ∈ entries, ∀ part, ¬ OptionPart.Writes entry part) := by
  have hok : (∃ o, ofJson (.object entries) = .ok o) ↔
      ∀ entry ∈ entries, ∃ part, OptionPart.Writes entry part := by
    simp only [ofJson_eq_ok_iff h, ← exists_forall₂_iff]
    exact ⟨fun ⟨_, parts, hparts, _⟩ => ⟨parts, hparts⟩,
      fun ⟨parts, hparts⟩ => ⟨_, parts, hparts, rfl⟩⟩
  refine ⟨hok, ?_⟩
  have herror : (∃ fault, ofJson (.object entries) = .error fault) ↔
      ¬∃ o, ofJson (.object entries) = .ok o := by
    cases ofJson (.object entries) <;> simp
  rw [herror, hok]
  push Not
  rfl

end ListOptions

end TableQuery
