import TableQuery.Proofs.OptionGrammar

namespace TableQuery

namespace OptionPart

def entry (part : OptionPart) : String × Json :=
  (part.key, part.payload)

/-- What can be given as a part: keys of different columns, and a page of integers that a page is
made of. -/
def Sound : OptionPart → Prop
  | sort keys => (keys.map SortKey.column).Nodup
  | page p => (isInt64 p.number = true ∧ isInt64 p.size = true) ∧
      ∃ made, Page.make p.number p.size = .ok made
  | _ => True

/-- The part with its page cut to the greatest size. -/
def cut : OptionPart → OptionPart
  | page p => page ⟨p.number, min p.size Page.unlimitedSize⟩
  | part => part

theorem cut_eq_self {part : OptionPart} (h : ∀ p, part = page p → p.size ≤ Page.unlimitedSize) :
    part.cut = part := by
  cases part with
  | page p => rw [cut, Int.min_eq_left (h p rfl)]
  | _ => rfl

theorem writes_entry {part : OptionPart} (h : part.Sound) : Writes part.entry part.cut := by
  cases part with
  | sort keys =>
    refine ⟨rfl, _, rfl, List.forall₂_map_left_iff.mpr (List.forall₂_same.mpr fun key _ => ?_)⟩
    refine ⟨rfl, _, rfl, ?_⟩
    cases key.direction <;> decide
  | relate relations =>
    refine ⟨rfl, _, rfl, List.forall₂_map_left_iff.mpr (List.forall₂_same.mpr fun r _ => ?_)⟩
    exact ⟨_, .object _, by simp, by simp⟩
  | join joins =>
    refine ⟨rfl, _, rfl, List.forall₂_map_left_iff.mpr (List.forall₂_same.mpr fun j _ => ?_)⟩
    exact ⟨_, .object _, by simp, by simp, by simp, .inl ⟨_, by simp, .inl rfl⟩⟩
  | filter fields => exact ⟨rfl, rfl⟩
  | page p =>
    obtain ⟨⟨hnumber, hsize⟩, made, hmade⟩ := h
    obtain ⟨_, _, rfl⟩ := Page.make_eq_ok_iff.mp hmade
    exact ⟨rfl, p, ⟨_, .object _, ⟨by simp, hnumber⟩, by simp, hsize⟩, hmade⟩

theorem keysOnce_payload {part : OptionPart} (h : part.Sound) : part.payload.KeysOnce ∧
    ∀ items, part.payload = .list items → ∀ item ∈ items, item.KeysOnce := by
  cases part with
  | sort keys => exact ⟨Json.keysOnce_object.mpr (by rwa [List.map_map]), nofun⟩
  | relate relations =>
    refine ⟨nofun, fun items hitems item hmem => ?_⟩
    cases hitems
    obtain ⟨r, _, rfl⟩ := List.mem_map.mp hmem
    exact Json.keysOnce_object.mpr (by simp)
  | join joins =>
    refine ⟨nofun, fun items hitems item hmem => ?_⟩
    cases hitems
    obtain ⟨j, _, rfl⟩ := List.mem_map.mp hmem
    exact Json.keysOnce_object.mpr (by simp)
  | filter fields => exact ⟨Json.keysOnce_object.mpr fields.nodup, nofun⟩
  | page p => exact ⟨Json.keysOnce_object.mpr (by simp), nofun⟩

theorem keysOnce_entries {parts : List OptionPart} (hkeys : (parts.map OptionPart.key).Nodup)
    (hsound : ∀ part ∈ parts, part.Sound) : ListOptions.KeysOnce (parts.map entry) where
  keys := by rwa [List.map_map]
  payloads := List.forall_mem_map.mpr fun part hmem => (keysOnce_payload (hsound part hmem)).1
  items := List.forall_mem_map.mpr fun part hmem => (keysOnce_payload (hsound part hmem)).2

theorem not_writes_unknown {key : String} {payload : Json}
    (h : key ∉ ["sort", "relate", "join", "filter", "paginate"]) (part : OptionPart) :
    ¬Writes (key, payload) part := by
  rintro ⟨rfl, _⟩
  cases part <;> simp [OptionPart.key] at h

theorem not_writes_refused {p : Page} (h : ∀ made, Page.make p.number p.size ≠ .ok made)
    (part : OptionPart) : ¬Writes ("paginate", p.toJson) part := by
  rintro ⟨hkey, hpart⟩
  cases part with
  | page made =>
    obtain ⟨wanted, ⟨_, hgives, ⟨hnumber, _⟩, hsize, _⟩, hmade⟩ := hpart
    cases hgives
    have hnumber : wanted.number = p.number := by simpa using hnumber
    have hsize : wanted.size = p.size := by simpa using hsize
    rw [hnumber, hsize] at hmade
    exact h made hmade
  | _ => simp [OptionPart.key] at hkey

end OptionPart

namespace Join

/-- The serialized join without its kind. -/
def bareJson (j : Join) : Json :=
  .object
    [("table_name", .text j.table), ("foreign_key", .text j.foreignKey),
     ("primary_key", .text j.primaryKey)]

theorem writes_bareJson (j : Join) : Writes j.bareJson { j with kind := .inner } :=
  ⟨_, .object _, by simp, by simp, by simp, .inr ⟨by simp, rfl⟩⟩

theorem keysOnce_bare (joins : List Join) :
    ListOptions.KeysOnce [("join", .list (joins.map bareJson))] where
  keys := List.nodup_singleton _
  payloads := List.forall_mem_singleton.mpr nofun
  items := by
    refine List.forall_mem_singleton.mpr fun items hitems item hmem => ?_
    cases hitems
    obtain ⟨j, _, rfl⟩ := List.mem_map.mp hmem
    exact Json.keysOnce_object.mpr (by simp)

end Join

namespace ListOptions

/-- Serialized parts under different keys are read back as their steps in the order of the keys and
the page that is made of the page among them, which is that page itself unless it is longer than
the greatest size; joins without a kind are inner ones. Of all objects those are read whose entries
all write parts, and these are what is read. The others are refused, among them those with an
unknown key or with a page that no page is made of. -/
theorem options_read_back :
    (∀ parts : List OptionPart, (parts.map OptionPart.key).Nodup → (∀ part ∈ parts, part.Sound) →
      ofJson (.object (parts.map OptionPart.entry)) = .ok (ofParts (parts.map OptionPart.cut)) ∧
      ((∀ p, .page p ∈ parts → p.size ≤ Page.unlimitedSize) →
        ofJson (.object (parts.map OptionPart.entry)) = .ok (ofParts parts))) ∧
    (∀ joins : List Join, ofJson (.object [("join", .list (joins.map Join.bareJson))]) =
      .ok (ofParts [.join (joins.map fun j => { j with kind := .inner })])) ∧
    ∀ entries, KeysOnce entries →
      (∀ o, ofJson (.object entries) = .ok o ↔
        ∃ parts, List.Forall₂ OptionPart.Writes entries parts ∧ o = ofParts parts) ∧
      ((∃ fault, ofJson (.object entries) = .error fault) ↔
        ∃ entry ∈ entries, ∀ part, ¬OptionPart.Writes entry part) ∧
      (∀ entry ∈ entries, entry.1 ∉ ["sort", "relate", "join", "filter", "paginate"] →
        ∃ fault, ofJson (.object entries) = .error fault) ∧
      ∀ p : Page, ("paginate", p.toJson) ∈ entries →
        (∀ made, Page.make p.number p.size ≠ .ok made) →
          ∃ fault, ofJson (.object entries) = .error fault := by
  refine ⟨fun parts hkeys hsound => ?_, fun joins => ?_, fun entries h => ?_⟩
  · have hread : ofJson (.object (parts.map OptionPart.entry)) =
        .ok (ofParts (parts.map OptionPart.cut)) := by
      refine (ofJson_eq_ok_iff (OptionPart.keysOnce_entries hkeys hsound)).mpr ⟨_, ?_, rfl⟩
      rw [List.forall₂_map_left_iff, List.forall₂_map_right_iff, List.forall₂_same]
      exact fun part hmem => OptionPart.writes_entry (hsound part hmem)
    refine ⟨hread, fun hshort => ?_⟩
    have hsame : parts.map OptionPart.cut = parts :=
      (List.map_congr_left fun part hmem => OptionPart.cut_eq_self fun p hp =>
        hshort p (hp ▸ hmem)).trans (List.map_id parts)
    rw [hread, hsame]
  · refine (ofJson_eq_ok_iff (Join.keysOnce_bare joins)).mpr ⟨_, ?_, rfl⟩
    refine .cons ⟨rfl, _, rfl, ?_⟩ .nil
    rw [List.forall₂_map_left_iff, List.forall₂_map_right_iff, List.forall₂_same]
    exact fun j _ => j.writes_bareJson
  · have hsettled := ofJson_settles h
    refine ⟨fun o => ofJson_eq_ok_iff h, hsettled.2, fun entry hmem hkey => ?_,
      fun p hmem hrefused => ?_⟩
    · exact hsettled.2.mpr ⟨entry, hmem, OptionPart.not_writes_unknown hkey⟩
    · exact hsettled.2.mpr ⟨_, hmem, OptionPart.not_writes_refused hrefused⟩

/-- The second page of five rows, sorted by two columns, with the orders. -/
def sortedPage : List OptionPart :=
  [.page ⟨2, 5⟩, .sort [⟨"name", .desc⟩, ⟨"id", .asc⟩], .relate [⟨"orders", ["id", "total"]⟩]]

theorem sorted_page_reads_back :
    ofJson (.object (sortedPage.map OptionPart.entry)) = .ok (ofParts sortedPage) ∧
    (∃ fault, ofJson (.object [("explode", .bool true)]) = .error fault) ∧
    ∃ fault, ofJson (.object [("paginate", (Page.mk 0 5).toJson)]) = .error fault := by
  have hsound : ∀ part ∈ sortedPage, part.Sound := by
    simp only [sortedPage, List.forall_mem_cons, OptionPart.Sound]
    refine ⟨⟨by decide, ⟨2, 5⟩, by decide⟩, by decide, trivial, ?_⟩
    simp
  have hshort : ∀ p, .page p ∈ sortedPage → p.size ≤ Page.unlimitedSize := by
    intro p hmem
    simp only [sortedPage, List.mem_cons, OptionPart.page.injEq, reduceCtorEq, List.not_mem_nil,
      or_false] at hmem
    subst hmem
    decide
  have hunknown : KeysOnce [("explode", .bool true)] :=
    ⟨by decide, List.forall_mem_singleton.mpr nofun, List.forall_mem_singleton.mpr nofun⟩
  have hpage : KeysOnce [("paginate", (Page.mk 0 5).toJson)] :=
    ⟨by decide, List.forall_mem_singleton.mpr (Json.keysOnce_object.mpr (by decide)),
      List.forall_mem_singleton.mpr nofun⟩
  have hrefused : ∀ made, Page.make 0 5 ≠ .ok made := by
    intro made hmade
    exact absurd (Page.make_eq_ok_iff.mp hmade).1.1 (by decide)
  obtain ⟨hparts, _, hentries⟩ := options_read_back
  exact ⟨(hparts sortedPage (by decide) hsound).2 hshort,
    (hentries _ hunknown).2.2.1 _ List.mem_cons_self (by decide),
    (hentries _ hpage).2.2.2 ⟨0, 5⟩ List.mem_cons_self hrefused⟩

/-- A page of more rows than the greatest size is accepted and comes back with fewer. -/
theorem long_page_reads_back_shorter :
    (∃ made, Page.make 1 20000 = .ok made) ∧
      ¬∃ o, ofJson (.object [("paginate", (Page.mk 1 20000).toJson)]) = .ok o ∧
        o.page = some ⟨1, 20000⟩ := by
  refine ⟨⟨⟨1, 9999⟩, by decide⟩, ?_⟩
  rintro ⟨o, hread, hpage⟩
  have hshown : (ofJson (.object [("paginate", (Page.mk 1 20000).toJson)])).toOption.bind page =
      some ⟨1, 9999⟩ := by
    decide +kernel
  rw [hread, Except.toOption, Option.bind_some, hpage] at hshown
  exact absurd hshown (by decide)

end ListOptions

end TableQuery
