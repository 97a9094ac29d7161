import TableQuery.Proofs.QueryRun

namespace TableQuery

/-- The kinds of steps of a list. -/
inductive StepKind
  | sort
  | relate
  | join
  | filter
deriving DecidableEq, Repr

def ListStep.kind : ListStep → StepKind
  | sort _ => .sort
  | relate _ => .relate
  | join _ _ => .join
  | filter _ => .filter

/-- The page is the same, and the steps of each kind come in the same order. -/
structure ListOptions.Alike (o o' : ListOptions) : Prop where
  page : o.page = o'.page
  steps : ∀ kind, o.steps.filter (·.kind = kind) = o'.steps.filter (·.kind = kind)

namespace Query

/-- The query with the parts of another one behind its own. -/
def plus (q part : Query) : Query :=
  { q with
    criteria := q.criteria ++ part.criteria
    joins := q.joins ++ part.joins
    order := q.order ++ part.order
    loads := q.loads ++ part.loads }

theorem plus_ofEntity (q : Query) (e : Entity) : q.plus (ofEntity e) = q := by
  simp [plus, ofEntity]

theorem plus_assoc (q part rest : Query) : (q.plus part).plus rest = q.plus (part.plus rest) := by
  simp [plus]

/-- A change adds to every query what it makes of the bare one, and fails where it fails there. -/
def Adds (change : Query → Except InvalidInput Query) : Prop :=
  ∀ q, change q = (change (ofEntity q.entity)).map q.plus

theorem Adds.entity {change : Query → Except InvalidInput Query} (h : Adds change) {q made : Query}
    (hmade : change q = .ok made) : made.entity = q.entity := by
  rw [h q] at hmade
  obtain ⟨part, _, rfl⟩ := Except.of_map_ok hmade
  rfl

theorem adds_pure : Adds fun q => .ok q := by
  intro q
  exact congrArg Except.ok (plus_ofEntity q q.entity).symm

theorem Adds.bind {first second : Query → Except InvalidInput Query} (hfirst : Adds first)
    (hsecond : Adds second) : Adds fun q => first q >>= second := by
  intro q
  dsimp only
  rw [hfirst q]
  cases hpart : first (ofEntity q.entity) with
  | error cause => rfl
  | ok part =>
    have hentity : part.entity = q.entity := hfirst.entity (q := ofEntity q.entity) hpart
    change second (q.plus part) = (second part).map q.plus
    rw [hsecond (q.plus part), hsecond part, hentity]
    change (second (ofEntity q.entity)).map (q.plus part).plus = _
    cases second (ofEntity q.entity) with
    | error cause => rfl
    | ok rest => exact congrArg Except.ok (plus_assoc q part rest)

theorem Adds.foldlM {α : Type} {change : Query → α → Except InvalidInput Query} {as : List α}
    (h : ∀ a ∈ as, Adds fun q => change q a) : Adds fun q => as.foldlM change q := by
  induction as with
  | nil => exact adds_pure
  | cons a as ih =>
    have hrest := ih fun other hmem => h other (List.mem_cons_of_mem _ hmem)
    simp only [List.foldlM_cons]
    exact (h a List.mem_cons_self).bind hrest

theorem adds_orderBy (key : SortKey) : Adds fun q => q.orderBy key := by
  intro q
  simp only [orderBy]
  cases checkedName key.column with
  | error cause => rfl
  | ok column => simp [bind, Except.bind, pure, Except.pure, Except.map, plus, ofEntity]

theorem adds_join (join : Join) (forced : Option JoinKind) : Adds fun q => q.join join forced := by
  intro q
  simp only [Query.join]
  cases checkedName join.table with
  | error cause => rfl
  | ok table =>
    cases checkedName join.foreignKey with
    | error cause => rfl
    | ok foreignKey =>
      cases checkedName join.primaryKey with
      | error cause => rfl
      | ok primaryKey => simp [bind, Except.bind, pure, Except.pure, Except.map, plus, ofEntity]

theorem adds_load (request : RelationRequest) : Adds fun q => q.load request := by
  intro q
  simp only [load, ofEntity]
  cases q.entity.relation request.name with
  | error cause => rfl
  | ok relation =>
    cases request.columns.mapM checkedName with
    | error cause => rfl
    | ok columns => simp [bind, Except.bind, pure, Except.pure, Except.map, plus]

theorem adds_filter (payload : OrderedMap Json) :
    Adds fun q => (q.entity.filterCriteria payload).map q.addCriteria := by
  intro q
  simp only [ofEntity]
  cases q.entity.filterCriteria payload with
  | error cause => rfl
  | ok criteria => simp [Except.map, plus, addCriteria]

theorem adds_applyStep (step : ListStep) : Adds fun q => q.applyStep step := by
  cases step with
  | sort keys => exact Adds.foldlM fun key _ => adds_orderBy key
  | relate requests => exact Adds.foldlM fun request _ => adds_load request
  | join joins forced => exact Adds.foldlM fun join _ => adds_join join forced
  | filter payload => exact adds_filter payload

/-- A query has no parts but those that steps of a kind add. -/
def Only (kind : StepKind) (q : Query) : Prop :=
  (kind = .filter ∨ q.criteria = []) ∧ (kind = .join ∨ q.joins = []) ∧
    (kind = .sort ∨ q.order = []) ∧ (kind = .relate ∨ q.loads = [])

theorem only_ofEntity (kind : StepKind) (e : Entity) : Only kind (ofEntity e) :=
  ⟨.inr rfl, .inr rfl, .inr rfl, .inr rfl⟩

/-- A step adds nothing but parts of its kind. -/
theorem Only.applyStep {step : ListStep} {q made : Query} (hq : Only step.kind q)
    (h : q.applyStep step = .ok made) : Only step.kind made := by
  obtain ⟨hcriteria, hjoins, horder, hloads⟩ := hq
  cases step with
  | sort keys =>
    refine Except.of_foldlM_ok (fun key _ q made hq h => ?_) ⟨hcriteria, hjoins, horder, hloads⟩ h
    obtain ⟨rfl, _⟩ := of_orderBy h
    exact ⟨hq.1, hq.2.1, .inl rfl, hq.2.2.2⟩
  | relate requests =>
    refine Except.of_foldlM_ok (fun request _ q made hq h => ?_)
      ⟨hcriteria, hjoins, horder, hloads⟩ h
    obtain ⟨relation, _, rfl⟩ := of_load h
    exact ⟨hq.1, hq.2.1, hq.2.2.1, .inl rfl⟩
  | join joins forced =>
    refine Except.of_foldlM_ok (fun join _ q made hq h => ?_) ⟨hcriteria, hjoins, horder, hloads⟩ h
    obtain ⟨rfl, _⟩ := of_join h
    exact ⟨hq.1, .inl rfl, hq.2.2⟩
  | filter payload =>
    obtain ⟨criteria, _, rfl⟩ := Except.of_map_ok h
    exact ⟨.inl rfl, hjoins, horder, hloads⟩

theorem plus_comm {kind kind' : StepKind} (hne : kind ≠ kind') {part part' : Query}
    (h : Only kind part) (h' : Only kind' part') (q : Query) :
    (q.plus part).plus part' = (q.plus part').plus part := by
  have happart : ∀ {α : Type} {k : StepKind} {as bs : List α}, kind = k ∨ as = [] →
      kind' = k ∨ bs = [] → as ++ bs = bs ++ as := by
    rintro α k as bs (rfl | rfl) (rfl | rfl)
    · exact absurd rfl hne
    · simp
    · simp
    · simp
  simp only [plus, List.append_assoc]
  rw [happart h.1 h'.1, happart h.2.1 h'.2.1, happart h.2.2.1 h'.2.2.1, happart h.2.2.2 h'.2.2.2]

theorem of_applyStep {step : ListStep} {q made : Query} (h : q.applyStep step = .ok made) :
    ∃ part, Only step.kind part ∧ made = q.plus part ∧
      ∀ other : Query, other.entity = q.entity → other.applyStep step = .ok (other.plus part) := by
  have hadds : ∀ q : Query, q.applyStep step = ((ofEntity q.entity).applyStep step).map q.plus :=
    adds_applyStep step
  rw [hadds] at h
  obtain ⟨part, hpart, rfl⟩ := Except.of_map_ok h
  refine ⟨part, (only_ofEntity step.kind q.entity).applyStep hpart, rfl, fun other hentity => ?_⟩
  rw [hadds, hentity, hpart]
  rfl

/-- Of two neighbouring steps of different kinds either may be the first. -/
theorem applySteps_swap {a b : ListStep} (hne : a.kind ≠ b.kind) {rest : List ListStep}
    {q made : Query} (h : (a :: b :: rest).foldlM applyStep q = .ok made) :
    (b :: a :: rest).foldlM applyStep q = .ok made := by
  simp only [List.foldlM_cons] at *
  obtain ⟨first, hfirst, h⟩ := Except.of_bind_ok h
  obtain ⟨second, hsecond, h⟩ := Except.of_bind_ok h
  obtain ⟨part, honly, rfl, happly⟩ := of_applyStep hfirst
  obtain ⟨part', honly', rfl, happly'⟩ := of_applyStep hsecond
  have hb : q.applyStep b = .ok (q.plus part') := happly' q rfl
  have ha : (q.plus part').applyStep a = .ok ((q.plus part').plus part) := happly _ rfl
  rw [hb]
  change ((q.plus part').applyStep a >>= _) = _
  rw [ha, ← plus_comm hne honly honly']
  exact h

/-- A step moves to the front past steps of other kinds. -/
theorem applySteps_front {step : ListStep} {before : List ListStep}
    (hbefore : ∀ other ∈ before, other.kind ≠ step.kind) {after : List ListStep} {q made : Query} :
    (before ++ step :: after).foldlM applyStep q = .ok made ↔
      (step :: (before ++ after)).foldlM applyStep q = .ok made := by
  induction before generalizing q with
  | nil => exact Iff.rfl
  | cons other before ih =>
    have hother : other.kind ≠ step.kind := hbefore other List.mem_cons_self
    have hmoved : (other :: (before ++ step :: after)).foldlM applyStep q = .ok made ↔
        (other :: step :: (before ++ after)).foldlM applyStep q = .ok made := by
      rw [List.foldlM_cons, List.foldlM_cons]
      cases q.applyStep other with
      | error cause => exact Iff.rfl
      | ok next => exact ih fun a hmem => hbefore a (List.mem_cons_of_mem _ hmem)
    exact hmoved.trans ⟨applySteps_swap hother, applySteps_swap hother.symm⟩

theorem applySteps_of_filters {steps steps' : List ListStep}
    (h : ∀ kind, steps.filter (·.kind = kind) = steps'.filter (·.kind = kind)) {q made : Query} :
    steps.foldlM applyStep q = .ok made ↔ steps'.foldlM applyStep q = .ok made := by
  -- the first step on the one side is the first of its kind on the other, so it moves to the front
  -- there past steps of other kinds
  induction steps generalizing steps' q with
  | nil =>
    have hempty : steps' = [] := by
      cases steps' with
      | nil => rfl
      | cons step steps' =>
        have hkind := h step.kind
        simp at hkind
    rw [hempty]
  | cons step steps ih =>
    have hkind := h step.kind
    rw [List.filter_cons_of_pos (by simp), eq_comm, List.filter_eq_cons_iff] at hkind
    obtain ⟨before, after, rfl, hbefore, -, -⟩ := hkind
    rw [applySteps_front fun other hmem => by simpa using hbefore other hmem]
    have hrest : ∀ kind, steps.filter (·.kind = kind) =
        (before ++ after).filter (·.kind = kind) := by
      intro kind
      have hall := h kind
      by_cases hsame : step.kind = kind
      · subst hsame
        have hnone : before.filter (·.kind = step.kind) = [] :=
          List.filter_eq_nil_iff.mpr hbefore
        rw [List.filter_append, hnone, List.nil_append] at hall ⊢
        simpa using hall
      · simpa [List.filter_cons, hsame] using hall
    simp only [List.foldlM_cons]
    cases q.applyStep step with
    | error cause => exact Iff.rfl
    | ok next => exact ih hrest

end Query

/-- Options report nothing of their own. -/
theorem Query.exec_runCall_options {q made : Query} {o : ListOptions} {session after : Session} :
    (q.runCall (.options o)).exec session = (.ok made, after) ↔
      q.applyOptions o = .ok made ∧ after = session := by
  constructor
  · intro h
    have hread : (Run.ofInvalid (q.applyOptions o)).exec session = (.ok made, after) := h
    exact Run.of_ofInvalid hread
  · rintro ⟨hmade, rfl⟩
    have hexec : (q.runCall (.options o)).exec after =
        ((q.applyOptions o).mapError .invalid, after) := Run.exec_ofInvalid _ _
    rw [hexec, hmade]
    rfl

/-- How the steps of the kinds lie between each other does not matter to the query of a list. -/
theorem ListOptions.Alike.listQuery_iff {o o' : ListOptions} (h : o.Alike o') {e : Entity}
    {columns : List String} {condition : Condition} {session after : Session} {q : Query} :
    (e.listQuery columns condition o).exec session = (.ok q, after) ↔
      (e.listQuery columns condition o').exec session = (.ok q, after) := by
  have hshape : ∀ o : ListOptions, e.listQuery columns condition o =
      e.query.runCall (.filterBy condition) >>= fun q => q.runCall (.select columns) >>= fun q =>
        q.runCall (.options o) := by
    intro o
    simp only [Entity.listQuery, Query.runCalls, List.foldlM_cons, List.foldlM_nil, bind_pure]
  have hoptions : ∀ (start : Query) (between : Session),
      (start.runCall (.options o)).exec between = (.ok q, after) ↔
        (start.runCall (.options o')).exec between = (.ok q, after) := by
    intro start between
    have hmade : start.applyOptions o = .ok q ↔ start.applyOptions o' = .ok q :=
      Query.applySteps_of_filters h.steps
    rw [Query.exec_runCall_options, Query.exec_runCall_options, hmade]
  rw [hshape, hshape, Run.exec_bind, Run.exec_bind]
  rcases (e.query.runCall (.filterBy condition)).exec session with ⟨_ | filtered, between⟩
  · exact Iff.rfl
  · dsimp only
    rw [Run.exec_bind, Run.exec_bind]
    rcases (filtered.runCall (.select columns)).exec between with ⟨_ | start, last⟩
    · exact Iff.rfl
    · exact hoptions start last

end TableQuery
