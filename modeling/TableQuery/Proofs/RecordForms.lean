import Mathlib.Data.List.Nodup
import TableQuery.Proofs.RunSteps

namespace TableQuery

/-- A fold of steps that may fail succeeds where each element has a meaning, and its step adds it. -/
theorem Except.foldlM_eq_ok_iff {ε α β γ : Type} {f : β → α → Except ε β} {g : β → γ → β}
    {written : α → γ → Prop} {as : List α} {b b' : β}
    (hstep : ∀ a ∈ as, ∀ b b', f b a = .ok b' ↔ ∃ c, written a c ∧ b' = g b c) :
    as.foldlM f b = .ok b' ↔ ∃ cs, List.Forall₂ written as cs ∧ b' = cs.foldl g b := by
  induction as generalizing b with
  | nil =>
    simp only [List.foldlM_nil, List.forall₂_nil_left_iff, exists_eq_left, List.foldl_nil]
    exact ⟨fun h => (Except.ok.inj h).symm, fun h => h ▸ rfl⟩
  | cons a as ih =>
    have hrest := fun b => ih (b := b) fun other hmem => hstep other (List.mem_cons_of_mem _ hmem)
    simp only [List.foldlM_cons, Except.bind_eq_ok_iff, hstep a List.mem_cons_self, hrest,
      List.forall₂_cons_left_iff]
    constructor
    · rintro ⟨_, ⟨c, hc, rfl⟩, cs, hcs, rfl⟩
      exact ⟨c :: cs, ⟨c, cs, hc, hcs, rfl⟩, rfl⟩
    · rintro ⟨_, ⟨c, cs, hc, hcs, rfl⟩, rfl⟩
      exact ⟨_, ⟨c, hc, rfl⟩, cs, hcs, rfl⟩

theorem forall₂_append_left_iff {α β : Type} {R : α → β → Prop} {as as' : List α} {bs : List β} :
    List.Forall₂ R (as ++ as') bs ↔
      ∃ front back, List.Forall₂ R as front ∧ List.Forall₂ R as' back ∧ bs = front ++ back := by
  induction as generalizing bs with
  | nil => simp [List.forall₂_nil_left_iff]
  | cons a as ih =>
    simp only [List.cons_append, List.forall₂_cons_left_iff, ih]
    constructor
    · rintro ⟨b, _, hb, ⟨front, back, hfront, hback, rfl⟩, rfl⟩
      exact ⟨b :: front, back, ⟨b, front, hb, hfront, rfl⟩, hback, rfl⟩
    · rintro ⟨_, back, ⟨b, front, hb, hfront, rfl⟩, hback, rfl⟩
      exact ⟨b, _, hb, ⟨front, back, hfront, hback, rfl⟩, rfl⟩

/-- Where no key comes twice, an entry is found under its own key alone. -/
theorem find?_key_iff {α : Type} {entries : List (String × α)}
    (h : (entries.map Prod.fst).Nodup) {key : String} {entry : String × α} :
    entries.find? (·.1 = key) = some entry ↔ entry ∈ entries ∧ entry.1 = key := by
  constructor
  · intro hfound
    exact ⟨List.mem_of_find?_eq_some hfound, by simpa using List.find?_some hfound⟩
  · rintro ⟨hmem, rfl⟩
    cases hfound : entries.find? (·.1 = entry.1) with
    | none => exact absurd (decide_eq_true rfl) (List.find?_eq_none.mp hfound _ hmem)
    | some other =>
      have hkey : other.1 = entry.1 := by simpa using List.find?_some hfound
      rw [List.inj_on_of_nodup_map h (List.mem_of_find?_eq_some hfound) hmem hkey]

/-- The value is no object with a key twice. -/
def Json.KeysOnce (j : Json) : Prop :=
  ∀ fields, j = .object fields → (fields.map Prod.fst).Nodup

theorem Json.keysOnce_object {fields : List (String × Json)} :
    (Json.object fields).KeysOnce ↔ (fields.map Prod.fst).Nodup := by
  refine ⟨fun h => h fields rfl, fun h other hsame => ?_⟩
  cases hsame
  exact h

namespace Shape

variable {α : Type} {j : Json}

theorem text_eq_ok_iff {s : String} : text j = .ok s ↔ j = .text s := by
  cases j <;> simp [text, mismatch]

theorem int64_eq_ok_iff {n : Int} : int64 j = .ok n ↔ j = .int n ∧ isInt64 n = true := by
  cases j with
  | int m =>
    by_cases h : isInt64 m = true
    · simp only [int64, h, ↓reduceIte, Except.ok.injEq, Json.int.injEq]
      exact ⟨fun hsame => ⟨hsame, hsame ▸ h⟩, And.left⟩
    · simp only [int64, h, Bool.false_eq_true, ↓reduceIte, reduceCtorEq, Json.int.injEq, false_iff,
        not_and]
      exact fun hsame => hsame ▸ h
  | _ => simp [int64, mismatch]

theorem list_eq_ok_iff {item : Reader α} {as : List α} :
    list item j = .ok as ↔
      ∃ items, j = .list items ∧ List.Forall₂ (fun i a => item i = .ok a) items as := by
  cases j <;> simp [list, mismatch, Except.mapM_eq_ok_iff]

/-- A list is read as its items are written, where each has what its reader asks for. -/
theorem list_eq_ok_iff_of {item : Reader α} {P : Json → Prop} {written : Json → α → Prop}
    (hitem : ∀ i, P i → ∀ a, item i = .ok a ↔ written i a)
    (hj : ∀ items, j = .list items → ∀ i ∈ items, P i) {as : List α} :
    list item j = .ok as ↔ ∃ items, j = .list items ∧ List.Forall₂ written items as := by
  rw [list_eq_ok_iff]
  refine exists_congr fun items => and_congr_right fun hitems => ?_
  have hall := hj items hitems
  constructor
  · intro h
    exact ((List.forall₂_and_left items as).mpr ⟨hall, h⟩).imp fun i a h =>
      (hitem i h.1 a).mp h.2
  · intro h
    exact ((List.forall₂_and_left items as).mpr ⟨hall, h⟩).imp fun i a h =>
      (hitem i h.1 a).mpr h.2

theorem list_text_eq_ok_iff {texts : List String} :
    list text j = .ok texts ↔ j = .list (texts.map .text) := by
  simp only [list_eq_ok_iff, text_eq_ok_iff]
  have hitems (items : List Json) :
      List.Forall₂ (fun i s => i = Json.text s) items texts ↔ items = texts.map .text := by
    rw [← List.forall₂_map_right_iff, List.forall₂_eq_eq_eq]
  simp only [hitems, exists_eq_right]

/-- A name that is given to one choice means that choice. -/
theorem named_eq_ok_iff {choices : List (String × α)} (h : (choices.map Prod.fst).Nodup)
    {name : String} {a : α} : named choices name = .ok a ↔ (name, a) ∈ choices := by
  unfold named
  cases hfound : choices.find? (·.1 = name) with
  | some choice =>
    obtain ⟨hmem, rfl⟩ := (find?_key_iff h).mp hfound
    simp only [Except.ok.injEq]
    refine ⟨fun hsame => hsame ▸ hmem, fun hother => ?_⟩
    exact congrArg Prod.snd (List.inj_on_of_nodup_map h hmem hother rfl)
  | none =>
    simp only [reduceCtorEq, false_iff]
    exact fun hmem => absurd (decide_eq_true rfl) (List.find?_eq_none.mp hfound _ hmem)

/-- A choice is its name, or an object that holds null under the name. -/
theorem choice_eq_ok_iff {choices : List (String × α)} (h : (choices.map Prod.fst).Nodup) {a : α} :
    choice choices j = .ok a ↔
      ∃ name, (name, a) ∈ choices ∧ (j = .text name ∨ j = .object [(name, .null)]) := by
  unfold choice
  split
  next name => simp [named_eq_ok_iff h]
  next name content =>
    rw [Except.bind_eq_ok_iff]
    simp only [named_eq_ok_iff h]
    cases content <;> simp [Json.isNull, mismatch, and_comm]
  next hother =>
    simp only [reduceCtorEq, false_iff, not_exists, not_and, not_or, not_false_eq_true, true_and,
      Json.object.injEq]
    rintro name _ rfl
    exact hother _ _ rfl
  next htext hone hobject =>
    simp only [mismatch, reduceCtorEq, false_iff, not_exists, not_and, not_or]
    exact fun name _ => ⟨htext name, hone name .null⟩

namespace FieldValues

variable {values : FieldValues} {name : String}

theorem value?_eq_some_iff (h : (values.map Prod.fst).Nodup) {value : Json} :
    values.value? name = some value ↔ (name, value) ∈ values := by
  simp only [value?, Option.map_eq_some_iff, find?_key_iff h]
  constructor
  · rintro ⟨entry, ⟨hmem, rfl⟩, rfl⟩
    exact hmem
  · exact fun hmem => ⟨_, ⟨hmem, rfl⟩, rfl⟩

theorem value?_eq_none_iff : values.value? name = none ↔ name ∉ values.map Prod.fst := by
  rw [value?, Option.map_eq_none_iff, List.find?_eq_none]
  simp only [decide_eq_true_eq, List.mem_map, not_exists, not_and]

theorem required_eq_ok_iff (h : (values.map Prod.fst).Nodup) {reader : Reader α} {a : α} :
    values.required name reader = .ok a ↔ ∃ value, (name, value) ∈ values ∧ reader value = .ok a := by
  simp only [← value?_eq_some_iff h, required]
  cases values.value? name <;> simp

theorem optional_eq_ok_iff (h : (values.map Prod.fst).Nodup) {absent : α} {reader : Reader α}
    {a : α} :
    values.optional name absent reader = .ok a ↔
      (∃ value, (name, value) ∈ values ∧ reader value = .ok a) ∨
        name ∉ values.map Prod.fst ∧ a = absent := by
  rw [← value?_eq_none_iff]
  simp only [← value?_eq_some_iff h, optional]
  cases values.value? name <;> simp [eq_comm]

end FieldValues

namespace RecordShape

variable {shape : RecordShape} {values : FieldValues}

/-- A value gives a record its fields: an object by name, a list by place, where it may stop before
fields that the record need not have. -/
inductive Gives (shape : RecordShape) : Json → FieldValues → Prop
  | object (entries : List (String × Json)) : Gives shape (.object entries) entries
  | list {given left : List Field} {items : List Json} (hfields : shape.fields = given ++ left)
      (hcount : given.length = items.length) (hleft : ∀ field ∈ left, field.required = false) :
      Gives shape (.list items) ((given.map Field.name).zip items)

theorem Gives.nodup (h : Gives shape j values) (hnames : (shape.fields.map Field.name).Nodup)
    (hj : j.KeysOnce) : (values.map Prod.fst).Nodup := by
  cases h with
  | object => exact hj values rfl
  | @list given left items hfields hcount hleft =>
    have hlength : (given.map Field.name).length = items.length := by
      rw [List.length_map, hcount]
    rw [List.map_fst_zip (Nat.le_of_eq hlength)]
    rw [hfields, List.map_append] at hnames
    exact hnames.of_append_left

/-- Each value given for a field passes the field's test. -/
def Passes (fields : List Field) (values : FieldValues) : Prop :=
  ∀ field ∈ fields, ∀ value, (field.name, value) ∈ values → field.check value = .ok ()

theorem checkItems_nil {count : Nat} {fields : List Field}
    (h : shape.checkItems count fields [] = .ok values) :
    values = [] ∧ ∀ field ∈ fields, field.required = false := by
  induction fields with
  | nil =>
    cases h
    simp
  | cons field fields ih =>
    rw [checkItems] at h
    split at h
    next => cases h
    next hoptional =>
      obtain ⟨hvalues, hleft⟩ := ih h
      exact ⟨hvalues, List.forall_mem_cons.mpr ⟨by simpa using hoptional, hleft⟩⟩

theorem exists_of_checkItems {count : Nat} {fields : List Field} {items : List Json}
    (h : shape.checkItems count fields items = .ok values) :
    ∃ given left, fields = given ++ left ∧ given.length = items.length ∧
      (∀ field ∈ left, field.required = false) ∧ values = (given.map Field.name).zip items := by
  induction items generalizing fields values with
  | nil =>
    obtain ⟨rfl, hleft⟩ := checkItems_nil h
    exact ⟨[], fields, rfl, rfl, hleft, rfl⟩
  | cons item items ih =>
    cases fields with
    | nil => cases h
    | cons field fields =>
      rw [checkItems] at h
      obtain ⟨_, _, h⟩ := Except.of_bind_ok h
      obtain ⟨rest, hrest, h⟩ := Except.of_bind_ok h
      cases h
      obtain ⟨given, left, rfl, hcount, hleft, rfl⟩ := ih hrest
      exact ⟨field :: given, left, rfl, congrArg Nat.succ hcount, hleft, rfl⟩

theorem checkItems_of_passes {count : Nat} {given left : List Field} {items : List Json}
    (hcount : given.length = items.length) (hleft : ∀ field ∈ left, field.required = false)
    (h : Passes given ((given.map Field.name).zip items)) :
    shape.checkItems count (given ++ left) items = .ok ((given.map Field.name).zip items) := by
  induction given generalizing items with
  | nil =>
    obtain rfl := List.length_eq_zero_iff.mp hcount.symm
    induction left with
    | nil => rfl
    | cons field left ih =>
      obtain ⟨hfield, hleft⟩ := List.forall_mem_cons.mp hleft
      rw [List.nil_append, checkItems, if_neg (by simp [hfield])]
      exact ih hleft
  | cons field given ih =>
    obtain ⟨item, items, rfl⟩ := List.exists_cons_of_length_eq_add_one hcount.symm
    have hitem : field.check item = .ok () :=
      h field List.mem_cons_self item List.mem_cons_self
    have hrest := ih (Nat.succ.inj hcount) fun other hmem value hvalue =>
      h other (List.mem_cons_of_mem _ hmem) value (List.mem_cons_of_mem _ hvalue)
    rw [List.cons_append, checkItems, hitem, hrest]
    rfl

theorem checkEntries_of_passes {entries : List (String × Json)} (h : Passes shape.fields entries) :
    shape.checkEntries entries = .ok () := by
  induction entries with
  | nil => rfl
  | cons entry entries ih =>
    obtain ⟨key, value⟩ := entry
    have hrest := ih fun field hmem other hother =>
      h field hmem other (List.mem_cons_of_mem _ hother)
    rw [checkEntries, hrest]
    cases hfound : shape.fields.find? (·.name = key) with
    | none => rfl
    | some field =>
      have hname : field.name = key := by simpa using List.find?_some hfound
      have hpass : field.check value = .ok () :=
        h field (List.mem_of_find?_eq_some hfound) value (hname ▸ List.mem_cons_self)
      dsimp only
      rw [hpass]
      rfl

theorem gives_of_values (h : shape.values j = .ok values) : Gives shape j values := by
  cases j with
  | object entries =>
    obtain ⟨_, _, h⟩ := Except.of_bind_ok h
    cases h
    exact .object _
  | list items =>
    obtain ⟨given, left, hfields, hcount, hleft, rfl⟩ := exists_of_checkItems h
    exact .list hfields hcount hleft
  | _ => cases h

theorem values_of_gives (h : Gives shape j values) (hpasses : Passes shape.fields values) :
    shape.values j = .ok values := by
  cases h with
  | object =>
    rw [RecordShape.values, checkEntries_of_passes hpasses]
    rfl
  | list hfields hcount hleft =>
    rw [hfields] at hpasses
    rw [RecordShape.values, hfields]
    exact checkItems_of_passes hcount hleft fun field hmem =>
      hpasses field (List.mem_append_left _ hmem)

theorem passes_nil : Passes [] values := by
  intro field hmem
  cases hmem

theorem Passes.of {fields : List Field} (h : Passes fields values)
    (hkeys : (values.map Prod.fst).Nodup) {name : String} {reader : Reader α} {a : α}
    (hread : values.required name reader = .ok a) : Passes (Field.of name reader :: fields) values := by
  refine List.forall_mem_cons.mpr ⟨fun value hvalue => ?_, h⟩
  obtain ⟨found, hfound, ha⟩ := (FieldValues.required_eq_ok_iff hkeys).mp hread
  have hsame : found = value :=
    congrArg Prod.snd (List.inj_on_of_nodup_map hkeys hfound hvalue rfl)
  exact Except.map_eq_ok_iff.mpr ⟨a, hsame ▸ ha, rfl⟩

theorem Passes.optional {fields : List Field} (h : Passes fields values)
    (hkeys : (values.map Prod.fst).Nodup) {name : String} {reader : Reader α} {absent a : α}
    (hread : values.optional name absent reader = .ok a) :
    Passes (Field.optional name reader :: fields) values := by
  refine List.forall_mem_cons.mpr ⟨fun value hvalue => ?_, h⟩
  rcases (FieldValues.optional_eq_ok_iff hkeys).mp hread with ⟨found, hfound, ha⟩ | ⟨hnone, _⟩
  · have hsame : found = value :=
      congrArg Prod.snd (List.inj_on_of_nodup_map hkeys hfound hvalue rfl)
    exact Except.map_eq_ok_iff.mpr ⟨a, hsame ▸ ha, rfl⟩
  · exact absurd (List.mem_map.mpr ⟨_, hvalue, rfl⟩) hnone

/-- A record is read from the values given for it, as long as the reader lets no value pass that
the test of its field refuses. -/
theorem bind_values_eq_ok_iff (hnames : (shape.fields.map Field.name).Nodup) (hj : j.KeysOnce)
    {read : FieldValues → Except ShapeFault α} {a : α} {written : FieldValues → Prop}
    (hread : ∀ values, (values.map Prod.fst).Nodup → (read values = .ok a ↔ written values))
    (hpasses : ∀ values, (values.map Prod.fst).Nodup → read values = .ok a →
      Passes shape.fields values) :
    shape.values j >>= read = .ok a ↔ ∃ values, Gives shape j values ∧ written values := by
  rw [Except.bind_eq_ok_iff]
  refine exists_congr fun values => ⟨?_, ?_⟩
  · rintro ⟨hvalues, ha⟩
    have hgives := gives_of_values hvalues
    exact ⟨hgives, (hread values (hgives.nodup hnames hj)).mp ha⟩
  · rintro ⟨hgives, hwritten⟩
    have hkeys := hgives.nodup hnames hj
    have ha := (hread values hkeys).mpr hwritten
    exact ⟨values_of_gives hgives (hpasses values hkeys ha), ha⟩

end RecordShape

end Shape

end TableQuery
