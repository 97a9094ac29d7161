import TableQuery.Proofs.Preparation

namespace TableQuery

/-- A name that a scope has no answer for. -/
def Scope.passes (s : Scope) (name : Option String × String) : Bool :=
  match s.origin name.1 name.2 with
  | .ok none => true
  | _ => false

namespace Sql.Expr

mutual

/-- The names that an expression leaves to what it stands in. Those that a test for related rows
finds in its own table are not among them. -/
def names (store : Store) : Expr → List (Option String × String)
  | literal _ => []
  | bound _ => []
  | present _ => []
  | column table name => [(table, name)]
  | not e => e.names store
  | and a b => a.names store ++ b.names store
  | or a b => a.names store ++ b.names store
  | compare _ a b => a.names store ++ b.names store
  | isNull e _ => e.names store
  | member e items _ => e.names store ++ itemsNames store items
  | between e low high _ => e.names store ++ (low.names store ++ high.names store)
  | like e pattern _ _ => e.names store ++ pattern.names store
  | date e => e.names store
  | caseOf arms otherwise => armsNames store arms ++ otherwise.names store
  | anyRow table shown test =>
    match store.readable? none table with
    | some found => (test.names store).filter (Scope.passes ⟨[(shown, found.schema)], []⟩)
    | none => []

def itemsNames (store : Store) : List Expr → List (Option String × String)
  | [] => []
  | e :: rest => e.names store ++ itemsNames store rest

def armsNames (store : Store) : List (Expr × Expr) → List (Option String × String)
  | [] => []
  | (test, value) :: rest => test.names store ++ (value.names store ++ armsNames store rest)

end

end Sql.Expr

/-- Two environments have the same cells for names. -/
def Env.AgreeOn (env env' : Env) (names : List (Option String × String)) : Prop :=
  ∀ name ∈ names, env.lookup name.1 name.2 = env'.lookup name.1 name.2

namespace Env.AgreeOn

variable {env env' : Env} {as bs : List (Option String × String)}

theorem left (h : env.AgreeOn env' (as ++ bs)) : env.AgreeOn env' as :=
  fun name hmem => h name (List.mem_append_left _ hmem)

theorem right (h : env.AgreeOn env' (as ++ bs)) : env.AgreeOn env' bs :=
  fun name hmem => h name (List.mem_append_right _ hmem)

/-- Below one more level only the names count that this level has no answer for. -/
theorem inner {level : Level} (h : env.AgreeOn env' (as.filter level.scope.passes)) :
    Env.AgreeOn (level :: env) (level :: env') as := by
  intro name hmem
  rw [Env.lookup, Env.lookup]
  cases horigin : level.scope.origin name.1 name.2 with
  | error fault => rfl
  | ok found =>
    cases found with
    | some origin => rfl
    | none =>
      have hpasses : level.scope.passes name = true := by simp [Scope.passes, horigin]
      exact h name (List.mem_filter.mpr ⟨hmem, hpasses⟩)

end Env.AgreeOn

namespace Sql.Expr

variable (store : Store)

mutual

/-- An expression tells nothing apart but by the cells of its names. -/
theorem agree {env env' : Env} :
    ∀ e : Expr, env.AgreeOn env' (e.names store) →
      e.eval store env = e.eval store env' ∧ e.check store env = e.check store env'
  | literal _, _ => ⟨rfl, rfl⟩
  | bound _, _ => ⟨rfl, rfl⟩
  | present _, _ => ⟨rfl, rfl⟩
  | column table name, h => by
    have hname := h (table, name) (by simp [names])
    simp [eval, check, hname]
  | not e, h => by
    have he := agree e h
    simp [eval, check, he.1, he.2]
  | and a b, h => by
    have ha := agree a h.left
    have hb := agree b h.right
    simp [eval, check, ha.1, ha.2, hb.1, hb.2]
  | or a b, h => by
    have ha := agree a h.left
    have hb := agree b h.right
    simp [eval, check, ha.1, ha.2, hb.1, hb.2]
  | compare _ a b, h => by
    have ha := agree a h.left
    have hb := agree b h.right
    simp [eval, check, ha.1, ha.2, hb.1, hb.2]
  | isNull e _, h => by
    have he := agree e h
    simp [eval, check, he.1, he.2]
  | member e items _, h => by
    have he := agree e h.left
    have hitems := agreeItems items h.right
    simp [eval, check, he.1, he.2, hitems.1, hitems.2]
  | between e low high _, h => by
    have he := agree e h.left
    have hlow := agree low h.right.left
    have hhigh := agree high h.right.right
    simp [eval, check, he.1, he.2, hlow.1, hlow.2, hhigh.1, hhigh.2]
  | like e pattern _ _, h => by
    have he := agree e h.left
    have hpattern := agree pattern h.right
    simp [eval, check, he.1, he.2, hpattern.1, hpattern.2]
  | date e, h => by
    have he := agree e h
    simp [eval, check, he.1, he.2]
  | caseOf arms otherwise, h => by
    have harms := agreeArms arms h.left
    have hrest := agree otherwise h.right
    simp [eval, check, harms.1, harms.2, hrest.1, hrest.2]
  | anyRow table shown test, h => by
    rw [names] at h
    rw [eval, eval, check, check]
    cases hfound : store.readable? none table with
    | none => exact ⟨rfl, rfl⟩
    | some found =>
      rw [hfound] at h
      have htest : ∀ row, Env.AgreeOn (innerLevel shown found.schema row :: env)
          (innerLevel shown found.schema row :: env') (test.names store) :=
        fun row => Env.AgreeOn.inner h
      have heval := fun row => (agree test (htest row)).1
      have hcheck := fun row => (agree test (htest row)).2
      simp only [heval, hcheck, and_self]

theorem agreeItems {env env' : Env} :
    ∀ items : List Expr, env.AgreeOn env' (itemsNames store items) →
      evalItems store env items = evalItems store env' items ∧
        checkItems store env items = checkItems store env' items
  | [], _ => ⟨rfl, rfl⟩
  | e :: rest, h => by
    have he := agree e h.left
    have hrest := agreeItems rest h.right
    simp [evalItems, checkItems, he.1, he.2, hrest.1, hrest.2]

theorem agreeArms {env env' : Env} :
    ∀ arms : List (Expr × Expr), env.AgreeOn env' (armsNames store arms) →
      evalArms store env arms = evalArms store env' arms ∧
        checkArms store env arms = checkArms store env' arms
  | [], _ => ⟨rfl, rfl⟩
  | (test, value) :: rest, h => by
    have htest := agree test h.left
    have hvalue := agree value h.right.left
    have hrest := agreeArms rest h.right.right
    simp [evalArms, checkArms, htest.1, htest.2, hvalue.1, hvalue.2, hrest.1, hrest.2]

end

end Sql.Expr

end TableQuery
