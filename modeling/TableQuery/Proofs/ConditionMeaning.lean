import TableQuery.Condition.Basic
import TableQuery.Proofs.ClauseMeaning

namespace TableQuery

open Sql

theorem truthOfClauses_single (connector : Connector) (t : Option Bool) :
    truthOfClauses [(connector, t)] = t := by
  rcases t with _ | _ | _ <;> rfl

theorem truthOfClauses_and (connector : Connector) (s t : Option Bool) :
    truthOfClauses [(connector, s), (.and, t)] = truthAnd s t := by
  rcases s with _ | _ | _ <;> rcases t with _ | _ | _ <;> rfl

theorem truthOfClauses_or (connector : Connector) (s t : Option Bool) :
    truthOfClauses [(connector, s), (.or, t)] = truthOr s t := by
  rcases s with _ | _ | _ <;> rcases t with _ | _ | _ <;> rfl

namespace Predicate

/-- How a predicate is joined to what stands before it. -/
def connector : Predicate → Connector
  | orMember _ => .or
  | orNotMember _ => .or
  | orBetween _ _ => .or
  | orNotBetween _ _ => .or
  | orNull => .or
  | orNotNull => .or
  | orEq _ => .or
  | orLike _ => .or
  | orMemberNotNull _ => .or
  | _ => .and

/-- Some row of a relation of the entity belongs to the row and meets a test. -/
def related (store : Store) (env : Env) (e : Entity) (name : String) (test : Env → Option Bool) :
    Option Bool :=
  (e.relations.find? (·.name = name)).bind fun found => found.exists_ store env e.table test

/-- What a predicate on a column says of the rows of the levels. -/
def meaning (store : Store) (env : Env) (e : Entity) (column : String) : Predicate → Option Bool
  | member values => Test.memberMeaning values (env.columnCell column)
  | orMember values => Test.memberMeaning values (env.columnCell column)
  | notMember values => truthNot (Test.memberMeaning values (env.columnCell column))
  | orNotMember values => truthNot (Test.memberMeaning values (env.columnCell column))
  | between low high => Test.betweenMeaning low high (env.columnCell column)
  | orBetween low high => Test.betweenMeaning low high (env.columnCell column)
  | notBetween low high => truthNot (Test.betweenMeaning low high (env.columnCell column))
  | orNotBetween low high => truthNot (Test.betweenMeaning low high (env.columnCell column))
  | isNull => some (env.columnCell column).datum.isNull
  | orNull => some (env.columnCell column).datum.isNull
  | notNull => some !(env.columnCell column).datum.isNull
  | orNotNull => some !(env.columnCell column).datum.isNull
  | orEq value => Test.compareMeaning .eq value (env.columnCell column)
  | compare op value => Test.compareMeaning op value (env.columnCell column)
  | date value => Cell.compare .eq ((env.columnCell column).day store) (.ofValue value)
  | dateUntil value => Cell.compare .le ((env.columnCell column).day store) (.ofValue value)
  | like text => Test.containsMeaning text (env.columnCell column)
  | orLike text => Test.containsMeaning text (env.columnCell column)
  | has relation value =>
    related store env e relation fun inner =>
      Test.compareMeaning .eq value (inner.columnCell column)
  | hasLike relation text =>
    related store env e relation fun inner => Test.containsMeaning text (inner.columnCell column)
  | hasBetween relation low high =>
    related store env e relation fun inner => Test.betweenMeaning low high (inner.columnCell column)
  | memberOrNull values =>
    truthOr (Test.memberMeaning values (env.columnCell column))
      (some (env.columnCell column).datum.isNull)
  | orMemberNotNull values =>
    truthAnd (Test.memberMeaning values (env.columnCell column))
      (some !(env.columnCell column).datum.isNull)
  | activeOn day =>
    Test.activeOnMeaning store day (env.cell (some e.table) "entry_at")
      (env.cell (some e.table) "leave_at")

/-- The relation that a predicate asks for. -/
def relation? : Predicate → Option String
  | has relation _ => some relation
  | hasLike relation _ => some relation
  | hasBetween relation _ _ => some relation
  | _ => none

/-- A predicate that asks for the table of its entity by name. -/
def namesTable : Predicate → Bool
  | activeOn _ => true
  | p => p.relation?.isSome

/-- The names that a predicate brings with it are plain. -/
structure Plain (e : Entity) (p : Predicate) : Prop where
  table : p.namesTable = true → IsPlain e.table
  relation : ∀ name found, p.relation? = some name → e.relation name = .ok found → found.Plain

/-- The relation of a predicate leads to another table than that of the entity. -/
def Apart (store : Store) (e : Entity) (p : Predicate) : Prop :=
  ∀ name found, p.relation? = some name → e.relation name = .ok found → found.Apart store e.table

theorem find?_of_relation {e : Entity} {name : String} {found : Relation}
    (h : e.relation name = .ok found) : e.relations.find? (·.name = name) = some found := by
  unfold Entity.relation at h
  split at h
  next r hr => cases h; exact hr
  next => simp at h

theorem clause_related {e : Entity} {name : String} {test : Test} {clause : Clause}
    (h : (e.relation name >>= fun found =>
      Except.ok (Connector.and, Test.has e.table found [(.and, test)])) = .ok clause) :
    ∃ found, e.relation name = .ok found ∧
      clause = (.and, .has e.table found [(.and, test)]) := by
  cases hfound : e.relation name with
  | error fault => simp [hfound, bind, Except.bind] at h
  | ok found =>
    simp only [hfound, bind, Except.bind, Except.ok.injEq] at h
    exact ⟨found, rfl, h.symm⟩

theorem meaning_related {store : Store} {env : Env} {e : Entity} {name : String} {test : Test}
    {clause : Clause}
    (h : (e.relation name >>= fun found =>
      Except.ok (Connector.and, Test.has e.table found [(.and, test)])) = .ok clause) :
    clause.1 = .and ∧
      clause.2.meaning store env =
        related store env e name fun inner => test.meaning store inner := by
  obtain ⟨found, hfound, rfl⟩ := clause_related h
  refine ⟨rfl, ?_⟩
  rw [related, find?_of_relation hfound, Test.meaning]
  simp only [Option.bind_some, Criteria.meanings, truthOfClauses_single]

theorem clause_meaning {p : Predicate} {e : Entity} {column : String} {clause : Clause}
    (h : p.clause e column = .ok clause) (store : Store) (env : Env) :
    clause.1 = p.connector ∧ clause.2.meaning store env = p.meaning store env e column := by
  cases p with
  | has relation value => exact meaning_related h
  | hasLike relation text => exact meaning_related h
  | hasBetween relation low high => exact meaning_related h
  | isNull | orNull | notNull | orNotNull =>
    cases h
    simp [connector, meaning, Test.meaning]
  | memberOrNull values =>
    cases h
    refine ⟨rfl, ?_⟩
    simp only [Test.meaning, Criteria.meanings, truthOfClauses_or, meaning, Bool.bne_false]
    rfl
  | orMemberNotNull values =>
    cases h
    refine ⟨rfl, ?_⟩
    simp only [Test.meaning, Criteria.meanings, truthOfClauses_and, meaning, Bool.bne_true]
    rfl
  | _ =>
    cases h
    exact ⟨rfl, rfl⟩

end Predicate

namespace Condition

/-- What the entries of a condition say of the rows of the levels; an entry without predicate says
nothing. -/
def meanings (store : Store) (env : Env) (e : Entity) :
    Condition → List (Connector × Option Bool)
  | [] => []
  | (_, none) :: rest => meanings store env e rest
  | (column, some p) :: rest =>
    (p.connector, p.meaning store env e column) :: meanings store env e rest

def meaning (store : Store) (env : Env) (e : Entity) (condition : Condition) : Option Bool :=
  truthOfClauses (meanings store env e condition)

/-- The columns and the names that the predicates bring with them are plain. -/
def Plain (e : Entity) (condition : Condition) : Prop :=
  ∀ column p, (column, some p) ∈ condition → IsPlainColumn column ∧ p.Plain e

/-- No predicate asks for related rows in the table of the entity. -/
def Apart (store : Store) (e : Entity) (condition : Condition) : Prop :=
  ∀ column p, (column, some p) ∈ condition → p.Apart store e

/-- The clauses of a condition are those of its entries with predicates, in their order. -/
theorem criteria_induction {e : Entity} {P : Condition → Criteria → Prop} (nil : P [] [])
    (skip : ∀ column condition criteria, P condition criteria →
      P ((column, none) :: condition) criteria)
    (cons : ∀ column p condition clause criteria, Identifier.valid column = true →
      p.clause e column = .ok clause → P condition criteria →
        P ((column, some p) :: condition) (clause :: criteria))
    {condition : Condition} {criteria : Criteria} (h : condition.criteria e = .ok criteria) :
    P condition criteria := by
  induction condition generalizing criteria with
  | nil =>
    cases h
    exact nil
  | cons entry condition ih =>
    obtain ⟨column, p⟩ := entry
    cases p with
    | none => exact skip column condition criteria (ih (criteria_cons_none ▸ h))
    | some p =>
      rw [criteria_cons_some] at h
      unfold checkedName at h
      split at h
      next hvalid =>
        cases hclause : p.clause e column with
        | error fault => simp [hclause, bind, Except.bind] at h
        | ok clause =>
          cases hrest : Condition.criteria e condition with
          | error fault => simp [hclause, hrest, bind, Except.bind] at h
          | ok rest =>
            simp only [hclause, hrest, bind, Except.bind, pure, Except.pure, Except.ok.injEq] at h
            exact h ▸ cons column p condition clause rest hvalid hclause (ih hrest)
      next => simp [bind, Except.bind] at h

end Condition

end TableQuery
