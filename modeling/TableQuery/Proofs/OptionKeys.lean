import TableQuery.Proofs.StepOrder
import TableQuery.Shop

namespace TableQuery

/-- The key under which steps of a kind stand. -/
def StepKind.key : StepKind → String
  | sort => "sort"
  | relate => "relate"
  | join => "join"
  | filter => "filter"

theorem perm_moveLast {α : Type} (key : String) (entries : List (String × α)) :
    (moveLast key entries).Perm entries := by
  unfold moveLast
  split
  next entry hfound =>
    obtain ⟨hkey, before, after, rfl, hbefore⟩ := List.find?_eq_some_iff_append.mp hfound
    have hrest : (before ++ entry :: after).eraseP (·.1 = key) = before ++ after := by
      have hnone : ∀ other ∈ before, ¬(decide (other.1 = key)) = true := by
        simpa using hbefore
      rw [List.eraseP_append_right _ hnone, List.eraseP_cons_of_pos (by exact hkey)]
    rw [hrest]
    exact (List.perm_append_singleton entry _).trans List.perm_middle.symm
  next => exact List.Perm.refl _

theorem moveLast_append {α : Type} {key : String} {before after : List (String × α)}
    (habsent : key ∉ (before ++ after).map Prod.fst) (value : α) :
    moveLast key (before ++ (key, value) :: after) = before ++ after ++ [(key, value)] := by
  have hbefore : ∀ other ∈ before, ¬(decide (other.1 = key)) = true := by
    intro other hmem hkey
    have hsame : other.1 = key := by simpa using hkey
    exact habsent (List.mem_map.mpr ⟨other, List.mem_append_left _ hmem, hsame⟩)
  have hfound : (before ++ (key, value) :: after).find? (·.1 = key) = some (key, value) := by
    rw [List.find?_append, List.find?_eq_none.mpr hbefore]
    simp
  unfold moveLast
  rw [hfound]
  dsimp only
  rw [List.eraseP_append_right _ hbefore, List.eraseP_cons_of_pos (by simp)]

namespace ListOptions

theorem Alike.refl (o : ListOptions) : o.Alike o :=
  ⟨rfl, fun _ => rfl⟩

theorem Alike.trans {o p r : ListOptions} (h : o.Alike p) (h' : p.Alike r) : o.Alike r :=
  ⟨h.page.trans h'.page, fun kind => (h.steps kind).trans (h'.steps kind)⟩

theorem Alike.addStep {o p : ListOptions} (h : o.Alike p) (step : ListStep) :
    (o.addStep step).Alike (p.addStep step) := by
  refine ⟨h.page, fun kind => ?_⟩
  simp only [ListOptions.addStep, List.filter_append, h.steps kind]

/-- What an entry does to options is the same whatever they are. -/
theorem readEntry_cases (entry : String × Json) :
    (∃ cause, ∀ o, readEntry o entry = .error cause) ∨
    (∃ step : ListStep, step.kind.key = entry.1 ∧
      ∀ o, readEntry o entry = .ok (o.addStep step)) ∨
    ∃ page, entry.1 = "paginate" ∧ ∀ o, readEntry o entry = .ok { o with page := some page } := by
  obtain ⟨key, payload⟩ := entry
  have hstep : ∀ {α : Type} (result : Except InvalidInput α) (made : α → ListStep),
      (∀ a, (made a).kind.key = key) →
      (∀ o, readEntry o (key, payload) = result.map fun a => o.addStep (made a)) →
      (∃ cause, ∀ o, readEntry o (key, payload) = .error cause) ∨
        ∃ step : ListStep, step.kind.key = key ∧
          ∀ o, readEntry o (key, payload) = .ok (o.addStep step) := by
    intro α result made hkey hread
    cases result with
    | error cause => exact .inl ⟨cause, hread⟩
    | ok a => exact .inr ⟨made a, hkey a, hread⟩
  -- every key but that of the page makes a step of what its payload is read as, or a fault
  rw [← or_assoc]
  by_cases hsort : key = "sort"
  · subst hsort
    exact .inl (hstep (readSort payload) .sort (fun _ => rfl) fun o => by
      simp [readEntry])
  by_cases hrelate : key = "relate"
  · subst hrelate
    exact .inl (hstep (readPayload "relate" (Shape.list RelationRequest.ofJson) payload) .relate
      (fun _ => rfl) fun o => by simp [readEntry])
  by_cases hjoin : key = "join"
  · subst hjoin
    exact .inl (hstep (readPayload "join" (Shape.list Join.ofJson) payload) (.join · none)
      (fun _ => rfl) fun o => by simp [readEntry])
  by_cases hfilter : key = "filter"
  · subst hfilter
    exact .inl (hstep (readFilter payload) .filter (fun _ => rfl) fun o => by simp [readEntry])
  by_cases hpage : key = "paginate"
  · subst hpage
    have hread : ∀ o, readEntry o ("paginate", payload) =
        (readPage payload).map fun page => { o with page := some page } := fun o => by
      simp [readEntry]
    cases hresult : readPage payload with
    | error cause => exact .inl (.inl ⟨cause, fun o => by rw [hread, hresult]; rfl⟩)
    | ok page => exact .inr ⟨page, rfl, fun o => by rw [hread, hresult]; rfl⟩
  · exact .inl (.inl ⟨.unknownOption key, fun o => by
      simp [readEntry, hsort, hrelate, hjoin, hfilter, hpage]⟩)

theorem Alike.readEntry {o p made : ListOptions} (h : o.Alike p) {entry : String × Json}
    (hmade : readEntry o entry = .ok made) :
    ∃ made', ListOptions.readEntry p entry = .ok made' ∧ made.Alike made' := by
  rcases readEntry_cases entry with ⟨cause, hread⟩ | ⟨step, _, hread⟩ | ⟨page, _, hread⟩
  · rw [hread o] at hmade
    cases hmade
  · rw [hread o] at hmade
    cases hmade
    exact ⟨_, hread p, h.addStep step⟩
  · rw [hread o] at hmade
    cases hmade
    exact ⟨_, hread p, rfl, h.steps⟩

theorem Alike.readEntries {o p made : ListOptions} (h : o.Alike p)
    {entries : List (String × Json)} (hmade : entries.foldlM ListOptions.readEntry o = .ok made) :
    ∃ made', entries.foldlM ListOptions.readEntry p = .ok made' ∧ made.Alike made' := by
  induction entries generalizing o p with
  | nil =>
    cases hmade
    exact ⟨p, rfl, h⟩
  | cons entry entries ih =>
    rw [List.foldlM_cons] at hmade
    obtain ⟨next, hnext, hrest⟩ := Except.of_bind_ok hmade
    obtain ⟨next', hnext', hlike⟩ := h.readEntry hnext
    obtain ⟨made', hmade', hmadeLike⟩ := ih hlike hrest
    rw [List.foldlM_cons, hnext']
    exact ⟨made', hmade', hmadeLike⟩

/-- Of two neighbouring entries with different keys either may be the first. -/
theorem readEntry_swap {a b : String × Json} (hne : a.1 ≠ b.1) {o first made : ListOptions}
    (hfirst : readEntry o a = .ok first) (hmade : readEntry first b = .ok made) :
    ∃ second made', readEntry o b = .ok second ∧ readEntry second a = .ok made' ∧
      made.Alike made' := by
  rcases readEntry_cases a with ⟨cause, ha⟩ | ⟨step, hkey, ha⟩ | ⟨page, hkey, ha⟩
  · rw [ha o] at hfirst
    cases hfirst
  · rw [ha o] at hfirst
    cases hfirst
    rcases readEntry_cases b with ⟨cause, hb⟩ | ⟨step', hkey', hb⟩ | ⟨page, _, hb⟩
    · rw [hb] at hmade
      cases hmade
    · rw [hb] at hmade
      cases hmade
      have hkinds : step.kind ≠ step'.kind := fun hsame =>
        hne (hkey.symm.trans ((congrArg StepKind.key hsame).trans hkey'))
      refine ⟨_, _, hb o, ha _, rfl, fun kind => ?_⟩
      simp only [addStep, List.filter_append, List.append_assoc]
      congr 1
      by_cases hkind : step.kind = kind
      · have hother : step'.kind ≠ kind := fun h => hkinds (hkind.trans h.symm)
        simp [hother]
      · simp [hkind]
    · rw [hb] at hmade
      cases hmade
      exact ⟨_, _, hb o, ha _, Alike.refl _⟩
  · rw [ha o] at hfirst
    cases hfirst
    rcases readEntry_cases b with ⟨cause, hb⟩ | ⟨step, _, hb⟩ | ⟨page', hkey', hb⟩
    · rw [hb] at hmade
      cases hmade
    · rw [hb] at hmade
      cases hmade
      exact ⟨_, _, hb o, ha _, Alike.refl _⟩
    · exact absurd (hkey.trans hkey'.symm) hne

theorem readEntries_perm {entries entries' : List (String × Json)} (hperm : entries.Perm entries')
    (hkeys : (entries.map Prod.fst).Nodup) {o made : ListOptions}
    (hmade : entries.foldlM readEntry o = .ok made) :
    ∃ made', entries'.foldlM readEntry o = .ok made' ∧ made.Alike made' := by
  -- neighbours that swap keep the options up to how steps of different kinds lie, and the entries
  -- behind them do not see that
  induction hperm generalizing o made with
  | nil => exact ⟨made, hmade, Alike.refl made⟩
  | cons entry _ ih =>
    rw [List.foldlM_cons] at hmade ⊢
    obtain ⟨next, hnext, hrest⟩ := Except.of_bind_ok hmade
    rw [hnext]
    exact ih (List.nodup_cons.mp hkeys).2 hrest
  | swap b a rest =>
    simp only [List.foldlM_cons] at hmade ⊢
    obtain ⟨first, hfirst, hmade⟩ := Except.of_bind_ok hmade
    obtain ⟨both, hboth, hrest⟩ := Except.of_bind_ok hmade
    have hne : a.1 ≠ b.1 := by
      have hnotmem := (List.nodup_cons.mp hkeys).1
      exact fun hsame => hnotmem (hsame ▸ List.mem_cons_self)
    obtain ⟨second, both', hsecond, hboth', hlike⟩ := readEntry_swap hne hfirst hboth
    obtain ⟨made', hmade', hmadeLike⟩ := hlike.readEntries hrest
    rw [hsecond]
    change ∃ made', (readEntry second a >>= rest.foldlM readEntry) = .ok made' ∧ made.Alike made'
    rw [hboth']
    exact ⟨made', hmade', hmadeLike⟩
  | trans hfirst _ ihfirst ihsecond =>
    obtain ⟨between, hbetween, hlike⟩ := ihfirst hkeys hmade
    obtain ⟨made', hmade', hlike'⟩ := ihsecond ((hfirst.map Prod.fst).nodup hkeys) hbetween
    exact ⟨made', hmade', hlike.trans hlike'⟩

end ListOptions

/-- Where the steps of different kinds stand among each other does not matter to the query of a
list, nor does the order of the keys to options that are read; and where the page stands among the
keys does not matter to anything, faults included. -/
theorem list_settled_whatever_order :
    (∀ {o o' : ListOptions}, o.Alike o' →
      ∀ (e : Entity) (columns : List String) (condition : Condition) (session after : Session)
        (q : Query),
        (e.listQuery columns condition o).exec session = (.ok q, after) ↔
          (e.listQuery columns condition o').exec session = (.ok q, after)) ∧
    (∀ {entries entries' : List (String × Json)}, (entries.map Prod.fst).Nodup →
      entries.Perm entries' → ∀ {o : ListOptions},
        ListOptions.ofJson (.object entries) = .ok o →
        ∃ o', ListOptions.ofJson (.object entries') = .ok o' ∧ o'.page = o.page ∧
          ∀ (e : Entity) (columns : List String) (condition : Condition) (session after : Session)
            (q : Query),
            (e.listQuery columns condition o).exec session = (.ok q, after) ↔
              (e.listQuery columns condition o').exec session = (.ok q, after)) ∧
    ∀ (before after before' after' : List (String × Json)) (payload : Json),
      before ++ after = before' ++ after' → "paginate" ∉ (before ++ after).map Prod.fst →
        ListOptions.ofJson (.object (before ++ ("paginate", payload) :: after)) =
          ListOptions.ofJson (.object (before' ++ ("paginate", payload) :: after')) := by
  refine ⟨fun hlike _ _ _ _ _ _ => hlike.listQuery_iff, ?_, ?_⟩
  · intro entries entries' hkeys hperm o hread
    have hlast : (moveLast "paginate" entries).Perm (moveLast "paginate" entries') :=
      (perm_moveLast "paginate" entries).trans
        (hperm.trans (perm_moveLast "paginate" entries').symm)
    have hlastKeys : ((moveLast "paginate" entries).map Prod.fst).Nodup :=
      ((perm_moveLast "paginate" entries).symm.map Prod.fst).nodup hkeys
    obtain ⟨o', hread', hlike⟩ := ListOptions.readEntries_perm hlast hlastKeys hread
    exact ⟨o', hread', hlike.page.symm, fun _ _ _ _ _ _ => hlike.listQuery_iff⟩
  · intro before after before' after' payload hrest habsent
    have hmoved := moveLast_append habsent payload
    have hmoved' := moveLast_append (hrest ▸ habsent) payload
    unfold ListOptions.ofJson
    dsimp only
    rw [hmoved, hmoved', hrest]

namespace Shop

def byNameThenKey : ListOptions where
  steps :=
    [.sort [⟨"name", .asc⟩], .relate [⟨"orders", ["total"]⟩], .sort [⟨"id", .desc⟩],
     .filter OrderedMap.empty]
  page := some ⟨2, 5⟩

def byNameThenKeyLast : ListOptions where
  steps :=
    [.filter OrderedMap.empty, .relate [⟨"orders", ["total"]⟩], .sort [⟨"name", .asc⟩],
     .sort [⟨"id", .desc⟩]]
  page := some ⟨2, 5⟩

def pageEntry : String × Json :=
  ("paginate", .object [("page", .int 2), ("page_size", .int 5)])

def sortEntry : String × Json :=
  ("sort", .object [("name", .text "asc"), ("id", .text "desc")])

def filterEntry : String × Json :=
  ("filter", .object [("min_status", .int 1)])

theorem list_of_customers_whatever_order :
    (∃ q after,
      (customers.listQuery ["id"] [] byNameThenKey).exec { store := emptyStore } = (.ok q, after) ∧
      (customers.listQuery ["id"] [] byNameThenKeyLast).exec { store := emptyStore } =
        (.ok q, after)) ∧
    (∃ o o', ListOptions.ofJson (.object [pageEntry, sortEntry, filterEntry]) = .ok o ∧
      ListOptions.ofJson (.object [filterEntry, pageEntry, sortEntry]) = .ok o' ∧
      o'.page = o.page ∧
      ∀ (session after : Session) (q : Query),
        (customers.listQuery ["id"] [] o).exec session = (.ok q, after) ↔
          (customers.listQuery ["id"] [] o').exec session = (.ok q, after)) ∧
    ListOptions.ofJson (.object [pageEntry, sortEntry, ("lost", .null)]) =
      ListOptions.ofJson (.object [sortEntry, ("lost", .null), pageEntry]) := by
  obtain ⟨hsteps, hkeys, hpage⟩ := list_settled_whatever_order
  refine ⟨?_, ?_, ?_⟩
  · have hlike : byNameThenKey.Alike byNameThenKeyLast := ⟨rfl, fun kind => by cases kind <;> rfl⟩
    have hmade : ((customers.listQuery ["id"] [] byNameThenKey).exec
        { store := emptyStore }).1.toOption.isSome = true := by
      decide +kernel
    rcases hquery : (customers.listQuery ["id"] [] byNameThenKey).exec
      { store := emptyStore } with ⟨_ | q, after⟩
    · rw [hquery] at hmade
      cases hmade
    · exact ⟨q, after, rfl, (hsteps hlike customers ["id"] [] _ _ _).mp hquery⟩
  · have hread : (ListOptions.ofJson
        (.object [pageEntry, sortEntry, filterEntry])).toOption.isSome = true := by
      decide +kernel
    cases ho : ListOptions.ofJson (.object [pageEntry, sortEntry, filterEntry]) with
    | error cause =>
      rw [ho] at hread
      cases hread
    | ok o =>
      have hperm : ([pageEntry, sortEntry] ++ [filterEntry]).Perm
          ([filterEntry] ++ [pageEntry, sortEntry]) := List.perm_append_comm
      obtain ⟨o', ho', hpages, hlists⟩ := hkeys (by decide) hperm ho
      exact ⟨o, o', rfl, ho', hpages, hlists customers ["id"] []⟩
  · exact hpage [] [sortEntry, ("lost", .null)] [sortEntry, ("lost", .null)] [] pageEntry.2 rfl
      (by decide)

end Shop

end TableQuery
