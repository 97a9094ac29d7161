import Mathlib.Data.List.Forall2
import TableQuery.Repository.Read

namespace TableQuery

instance Except.decidableEq {ε α : Type} [DecidableEq ε] [DecidableEq α] :
    DecidableEq (Except ε α)
  | .error d, .error e => decidable_of_iff (d = e) ⟨congrArg _, Except.error.inj⟩
  | .error _, .ok _ => isFalse fun h => nomatch h
  | .ok _, .error _ => isFalse fun h => nomatch h
  | .ok a, .ok b => decidable_of_iff (a = b) ⟨congrArg _, Except.ok.inj⟩

/-- What is said of the outcome of a computation can be decided by running it. -/
instance Except.decidableOfOk {ε α : Type} (x : Except ε α) (P : α → Prop) [DecidablePred P] :
    Decidable (∀ a, x = .ok a → P a) :=
  match x with
  | .error _ => isTrue fun _ h => nomatch h
  | .ok a => decidable_of_iff (P a) ⟨fun h _ hok => Except.ok.inj hok ▸ h, fun h => h a rfl⟩

theorem Except.of_bind_ok {ε α β : Type} {x : Except ε α} {f : α → Except ε β} {b : β}
    (h : x >>= f = .ok b) : ∃ a, x = .ok a ∧ f a = .ok b := by
  cases x with
  | error e => simp [bind, Except.bind] at h
  | ok a => exact ⟨a, rfl, h⟩

theorem Except.bind_eq_ok_iff {ε α β : Type} {x : Except ε α} {f : α → Except ε β} {b : β} :
    x >>= f = .ok b ↔ ∃ a, x = .ok a ∧ f a = .ok b := by
  refine ⟨Except.of_bind_ok, ?_⟩
  rintro ⟨a, rfl, h⟩
  exact h

theorem Except.bind_eq_error_iff {ε α β : Type} {x : Except ε α} {f : α → Except ε β} {e : ε} :
    x >>= f = .error e ↔ x = .error e ∨ ∃ a, x = .ok a ∧ f a = .error e := by
  cases x with
  | error d => simp [bind, Except.bind]
  | ok a => simp [bind, Except.bind]

theorem Except.of_map_ok {ε α β : Type} {f : α → β} {x : Except ε α} {b : β}
    (h : x.map f = .ok b) : ∃ a, x = .ok a ∧ f a = b := by
  cases x with
  | error e => cases h
  | ok a => exact ⟨a, rfl, Except.ok.inj h⟩

theorem Except.map_eq_ok_iff {ε α β : Type} {f : α → β} {x : Except ε α} {b : β} :
    x.map f = .ok b ↔ ∃ a, x = .ok a ∧ f a = b := by
  refine ⟨Except.of_map_ok, ?_⟩
  rintro ⟨a, rfl, rfl⟩
  rfl

theorem Except.of_toOption {ε α : Type} {x : Except ε α} {a : α} (h : x.toOption = some a) :
    x = .ok a := by
  cases x with
  | error e => cases h
  | ok b => exact congrArg Except.ok (Option.some.inj h)

theorem exists_forall₂_iff {α β : Type} {R : α → β → Prop} {as : List α} :
    (∃ bs, List.Forall₂ R as bs) ↔ ∀ a ∈ as, ∃ b, R a b := by
  induction as with
  | nil => simp [List.forall₂_nil_left_iff]
  | cons a as ih =>
    rw [List.forall_mem_cons, ← ih]
    simp only [List.forall₂_cons_left_iff]
    constructor
    · rintro ⟨_, b, bs, hb, hbs, rfl⟩
      exact ⟨⟨b, hb⟩, bs, hbs⟩
    · rintro ⟨⟨b, hb⟩, bs, hbs⟩
      exact ⟨_, b, bs, hb, hbs, rfl⟩

theorem Except.mapM_eq_ok_iff {ε α β : Type} {f : α → Except ε β} {as : List α} {bs : List β} :
    as.mapM f = .ok bs ↔ List.Forall₂ (fun a b => f a = .ok b) as bs := by
  induction as generalizing bs with
  | nil =>
    rw [List.mapM_nil, List.forall₂_nil_left_iff]
    exact ⟨fun h => (Except.ok.inj h).symm, fun h => h ▸ rfl⟩
  | cons a as ih =>
    rw [List.mapM_cons, List.forall₂_cons_left_iff, Except.bind_eq_ok_iff]
    refine exists_congr fun b => ?_
    simp only [Except.bind_eq_ok_iff, ih]
    constructor
    · rintro ⟨hb, rest, hrest, h⟩
      cases h
      exact ⟨rest, hb, hrest, rfl⟩
    · rintro ⟨rest, hb, hrest, rfl⟩
      exact ⟨hb, rest, hrest, rfl⟩

theorem Except.of_mapM_ok {ε α β : Type} {f : α → Except ε β} {as : List α} {bs : List β}
    (h : as.mapM f = .ok bs) :
    (∀ a ∈ as, ∃ b ∈ bs, f a = .ok b) ∧ ∀ b ∈ bs, ∃ a ∈ as, f a = .ok b := by
  have hpairs := Except.mapM_eq_ok_iff.mp h
  clear h
  induction hpairs with
  | nil => simp
  | cons hab _ ih =>
    obtain ⟨hforth, hback⟩ := ih
    constructor
    · refine List.forall_mem_cons.mpr ⟨⟨_, List.mem_cons_self, hab⟩, fun a' ha' => ?_⟩
      obtain ⟨b', hb', hf⟩ := hforth a' ha'
      exact ⟨b', List.mem_cons_of_mem _ hb', hf⟩
    · refine List.forall_mem_cons.mpr ⟨⟨_, List.mem_cons_self, hab⟩, fun b' hb' => ?_⟩
      obtain ⟨a', ha', hf⟩ := hback b' hb'
      exact ⟨a', List.mem_cons_of_mem _ ha', hf⟩

/-- Elements that are looked at one by one are taken where all of them are let through. -/
theorem Except.mapM_ite {ε α β : Type} (q : α → Bool) (f : α → β) (fault : ε) (as : List α) :
    (as.mapM fun a => if q a then Except.ok (f a) else .error fault) =
      if as.all q then .ok (as.map f) else .error fault := by
  induction as with
  | nil => rfl
  | cons a as ih =>
    rw [List.mapM_cons, ih, List.all_cons, List.map_cons]
    cases q a <;> cases as.all q <;> rfl

theorem Except.ite_eq_ok_iff {ε α : Type} {q : Bool} {a b : α} {fault : ε} :
    (if q then Except.ok a else .error fault) = .ok b ↔ q = true ∧ b = a := by
  cases q <;> simp [eq_comm]

/-- What every step of a fold keeps holds at its end. -/
theorem Except.of_foldlM_ok {ε α β : Type} {P : β → Prop} {f : β → α → Except ε β} {as : List α}
    (hstep : ∀ a ∈ as, ∀ b b', P b → f b a = .ok b' → P b') {b b' : β} (hb : P b)
    (h : as.foldlM f b = .ok b') : P b' := by
  induction as generalizing b with
  | nil =>
    cases h
    exact hb
  | cons a as ih =>
    rw [List.foldlM_cons] at h
    obtain ⟨next, hnext, h⟩ := Except.of_bind_ok h
    exact ih (fun other hmem => hstep other (List.mem_cons_of_mem _ hmem))
      (hstep a List.mem_cons_self _ _ hb hnext) h

theorem of_checkedName {name checked : String} (h : checkedName name = .ok checked) :
    checked = name ∧ Identifier.valid name = true := by
  unfold checkedName at h
  split at h
  next hvalid =>
    cases h
    exact ⟨rfl, hvalid⟩
  next => cases h

theorem of_checkedNames {names checked : List String}
    (h : names.mapM checkedName = .ok checked) :
    checked = names ∧ ∀ name ∈ names, Identifier.valid name = true := by
  induction names generalizing checked with
  | nil =>
    cases h
    exact ⟨rfl, by simp⟩
  | cons name names ih =>
    rw [List.mapM_cons] at h
    obtain ⟨first, hfirst, h⟩ := Except.of_bind_ok h
    obtain ⟨rest, hrest, h⟩ := Except.of_bind_ok h
    cases h
    obtain ⟨rfl, hvalid⟩ := of_checkedName hfirst
    obtain ⟨rfl, hvalids⟩ := ih hrest
    exact ⟨rfl, List.forall_mem_cons.mpr ⟨hvalid, hvalids⟩⟩

namespace Run

variable {α β : Type}

/-- The result of an operation on a session, with the session after it. -/
def exec (run : Run α) (session : Session) : Except QueryError α × Session :=
  StateT.run (ExceptT.run run) session

theorem exec_bind (x : Run α) (f : α → Run β) (session : Session) :
    (x >>= f).exec session =
      match x.exec session with
      | (.ok a, session) => (f a).exec session
      | (.error e, session) => (.error e, session) := by
  change (ExceptT.bindCont f (x.exec session).1).run (x.exec session).2 = _
  rcases x.exec session with ⟨_ | a, session⟩ <;> rfl

theorem exec_emit (event : Event) (session : Session) :
    (emit event).exec session = (.ok (), { session with events := session.events ++ [event] }) :=
  rfl

theorem exec_ofInvalid (result : Except InvalidInput α) (session : Session) :
    (ofInvalid result).exec session = (result.mapError .invalid, session) := by
  cases result <;> rfl

theorem exec_get (session : Session) : (get : Run Session).exec session = (.ok session, session) :=
  rfl

theorem exec_read (ask : Store → Except StoreFault α) (session : Session) :
    (read ask).exec session = ((ask session.store).mapError .storage, session) := by
  unfold read
  rw [exec_bind, exec_get]
  dsimp only
  cases ask session.store <;> rfl

theorem exec_write (change : Store → Except StoreFault (Store × α)) (session : Session) :
    (write change).exec session =
      match change session.store with
      | .ok (store, a) => (.ok a, { session with store := store })
      | .error fault => (.error (.storage fault), session) := by
  unfold write
  rw [exec_bind, exec_get]
  dsimp only
  cases change session.store <;> rfl

theorem of_write {change : Store → Except StoreFault (Store × α)} {a : α} {session after : Session}
    (h : (write change).exec session = (.ok a, after)) :
    ∃ store, change session.store = .ok (store, a) ∧ after = { session with store := store } := by
  rw [exec_write] at h
  split at h
  next store _ hchange =>
    cases h
    exact ⟨store, hchange, rfl⟩
  next => cases h

theorem exec_select (s : Select) (session : Session) :
    (select s).exec session = ((session.store.select s).mapError .storage,
      { session with events := session.events ++ [.statement s.text] }) := by
  unfold select
  rw [exec_bind, exec_emit]
  exact exec_read _ _

theorem exec_logged (operation : Operation) (run : Run α) (session : Session) :
    (logged operation run).exec session =
      match run.exec session with
      | (.ok a, session) => (.ok a, session)
      | (.error e, session) =>
        (.error e, { session with events := session.events ++ [.failed operation] }) := by
  unfold logged exec
  simp only [tryCatch, tryCatchThe, MonadExceptOf.tryCatch, ExceptT.tryCatch, ExceptT.run_mk]
  rw [StateT.run_bind]
  rcases hrun : StateT.run (ExceptT.run run) session with ⟨_ | a, between⟩
  · rw [show StateT.run run session = _ from hrun]
    rfl
  · rw [show StateT.run run session = _ from hrun]
    rfl

theorem exists_of_any {ε α β : Type} {outcome : Except ε α × β} {test : α → Bool}
    (h : outcome.1.toOption.any test = true) :
    ∃ a after, outcome = (.ok a, after) ∧ test a = true := by
  obtain ⟨_ | a, after⟩ := outcome
  · cases h
  · exact ⟨a, after, rfl, h⟩

theorem of_logged {operation : Operation} {run : Run α} {a : α} {session after : Session}
    (h : (logged operation run).exec session = (.ok a, after)) :
    run.exec session = (.ok a, after) := by
  rw [exec_logged] at h
  split at h
  next hrun => rw [hrun, h]
  next => cases h

theorem of_bind_ok {x : Run α} {f : α → Run β} {session after : Session} {b : β}
    (h : (x >>= f).exec session = (.ok b, after)) :
    ∃ a between, x.exec session = (.ok a, between) ∧ (f a).exec between = (.ok b, after) := by
  rw [exec_bind] at h
  rcases hx : x.exec session with ⟨_ | a, between⟩
  · rw [hx] at h
    cases h
  · rw [hx] at h
    exact ⟨a, between, rfl, h⟩

theorem of_ofInvalid {result : Except InvalidInput α} {a : α} {session after : Session}
    (h : (ofInvalid result).exec session = (.ok a, after)) : result = .ok a ∧ after = session := by
  rw [exec_ofInvalid] at h
  cases result with
  | error cause => cases h
  | ok a =>
    cases h
    exact ⟨rfl, rfl⟩

/-- An operation leaves the store as it is. -/
def Reads (run : Run α) : Prop :=
  ∀ session, (run.exec session).2.store = session.store

theorem Reads.bind {x : Run α} {f : α → Run β} (hx : x.Reads) (hf : ∀ a, (f a).Reads) :
    (x >>= f).Reads := by
  intro session
  rw [exec_bind]
  have hbetween := hx session
  rcases hrun : x.exec session with ⟨_ | a, between⟩
  · rw [hrun] at hbetween
    exact hbetween
  · rw [hrun] at hbetween
    exact (hf a between).trans hbetween

theorem reads_pure (a : α) : (pure a : Run α).Reads :=
  fun _ => rfl

theorem reads_emit (event : Event) : (emit event).Reads :=
  fun _ => rfl

end Run

end TableQuery
