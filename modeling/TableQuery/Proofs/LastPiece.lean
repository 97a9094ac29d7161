import TableQuery.Proofs.ConditionMeaning

namespace TableQuery

variable {α : Type}

/-- A list divided before its last element behind an OR, if it has one. -/
def divideLast? : List (Connector × α) → Option (List (Connector × α) × List (Connector × α))
  | [] => none
  | entry :: rest =>
    match divideLast? rest with
    | some (before, last) => some (entry :: before, last)
    | none => if entry.1 = .or then some ([], entry :: rest) else none

/-- The clauses before the last OR, the connector of the first clause not counting. -/
def Criteria.earlier : Criteria → Criteria
  | [] => []
  | first :: rest =>
    match divideLast? rest with
    | some (before, _) => first :: before
    | none => []

/-- The clauses behind the last OR. -/
def Criteria.lastPiece : Criteria → Criteria
  | [] => []
  | first :: rest =>
    match divideLast? rest with
    | some (_, last) => last
    | none => first :: rest

theorem divideLast?_none {entries : List (Connector × α)} (h : divideLast? entries = none) :
    ∀ entry ∈ entries, entry.1 = .and := by
  induction entries with
  | nil => simp
  | cons entry rest ih =>
    unfold divideLast? at h
    split at h
    next => cases h
    next hrest =>
      split at h
      next => cases h
      next hor =>
        have hand : entry.1 = .and := by
          cases hc : entry.1 with
          | and => rfl
          | or => exact absurd hc hor
        exact List.forall_mem_cons.mpr ⟨hand, ih hrest⟩

theorem divideLast?_some {entries before last : List (Connector × α)}
    (h : divideLast? entries = some (before, last)) :
    entries = before ++ last ∧
      ∃ a rest, last = (.or, a) :: rest ∧ ∀ entry ∈ rest, entry.1 = .and := by
  induction entries generalizing before last with
  | nil => simp [divideLast?] at h
  | cons entry rest ih =>
    unfold divideLast? at h
    split at h
    next b l hrest =>
      cases h
      obtain ⟨heq, hlast⟩ := ih hrest
      exact ⟨by rw [heq, List.cons_append], hlast⟩
    next hrest =>
      split at h
      next hor =>
        cases h
        exact ⟨rfl, entry.2, rest, by rw [← hor], divideLast?_none hrest⟩
      next => cases h

/-- A last element behind an AND stays with the elements behind the last OR. -/
theorem divideLast?_append (entries : List (Connector × α)) (a : α) :
    divideLast? (entries ++ [(.and, a)]) =
      (divideLast? entries).map fun parts => (parts.1, parts.2 ++ [(.and, a)]) := by
  induction entries with
  | nil => rfl
  | cons entry rest ih =>
    rw [List.cons_append, divideLast?, ih, divideLast?]
    cases divideLast? rest with
    | none => by_cases hor : entry.1 = .or <;> simp [hor]
    | some parts => rfl

theorem piecesFrom_and {piece : List α} {entries : List (Connector × α)}
    (h : ∀ entry ∈ entries, entry.1 = .and) :
    piecesFrom piece entries = [piece ++ entries.map Prod.snd] := by
  induction entries generalizing piece with
  | nil => simp [piecesFrom]
  | cons entry rest ih =>
    obtain ⟨connector, a⟩ := entry
    have hand : connector = .and := h (connector, a) (by simp)
    subst hand
    rw [piecesFrom, ih fun entry hmem => h entry (by simp [hmem])]
    simp

theorem piecesFrom_or (piece : List α) (entries : List (Connector × α)) (a : α)
    (rest : List (Connector × α)) :
    piecesFrom piece (entries ++ (.or, a) :: rest) =
      piecesFrom piece entries ++ piecesFrom [a] rest := by
  induction entries generalizing piece with
  | nil => rfl
  | cons entry entries ih =>
    obtain ⟨connector, b⟩ := entry
    cases connector <;> simp [piecesFrom, ih]

theorem truthAny_append (ss ts : List (Option Bool)) :
    truthAny (ss ++ ts) = truthOr (truthAny ss) (truthAny ts) := by
  induction ss with
  | nil =>
    have hnil : truthAny [] = some false := rfl
    rw [List.nil_append, hnil]
    rcases truthAny ts with _ | _ | _ <;> rfl
  | cons s ss ih =>
    have hcons : ∀ us, truthAny (s :: us) = truthOr s (truthAny us) := fun _ => rfl
    rw [List.cons_append, hcons, hcons, ih, truthOr_assoc]

theorem truthOfClauses_cons (first : Connector × Option Bool)
    (rest : List (Connector × Option Bool)) :
    truthOfClauses (first :: rest) = truthAny ((piecesFrom [first.2] rest).map truthAll) :=
  rfl

namespace Criteria

theorem earlier_append (criteria : Criteria) (t : Test) :
    earlier (criteria ++ [(.and, t)]) = earlier criteria := by
  cases criteria with
  | nil => rfl
  | cons first rest =>
    rw [List.cons_append, earlier, earlier, divideLast?_append]
    cases divideLast? rest <;> rfl

theorem lastPiece_append (criteria : Criteria) (t : Test) :
    lastPiece (criteria ++ [(.and, t)]) = lastPiece criteria ++ [(.and, t)] := by
  cases criteria with
  | nil => rfl
  | cons first rest =>
    rw [List.cons_append, lastPiece, lastPiece, divideLast?_append]
    cases divideLast? rest <;> rfl

theorem earlier_append_lastPiece (criteria : Criteria) :
    earlier criteria ++ lastPiece criteria = criteria := by
  cases criteria with
  | nil => rfl
  | cons first rest =>
    rw [earlier, lastPiece]
    cases hdivide : divideLast? rest with
    | none => rfl
    | some parts =>
      obtain ⟨before, last⟩ := parts
      rw [(divideLast?_some hdivide).1, List.cons_append]

/-- The truth value of each clause beside its connector. -/
def values (m : Test → Option Bool) (criteria : Criteria) : List (Connector × Option Bool) :=
  criteria.map fun clause => (clause.1, m clause.2)

/-- What the clauses before the last OR say; nothing is true of no clauses. -/
def earlierTruth (m : Test → Option Bool) (criteria : Criteria) : Option Bool :=
  if (earlier criteria).isEmpty then some false
  else truthOfClauses (values m (earlier criteria))

theorem truthOfClauses_values (m : Test → Option Bool) (criteria : Criteria) :
    truthOfClauses (values m criteria) =
      truthOr (earlierTruth m criteria) (truthOfClauses (values m (lastPiece criteria))) := by
  cases criteria with
  | nil => rfl
  | cons first rest =>
    unfold earlierTruth
    rw [earlier, lastPiece]
    cases hdivide : divideLast? rest with
    | none =>
      simp only [List.isEmpty_nil, ↓reduceIte]
      generalize truthOfClauses _ = t
      rcases t with _ | _ | _ <;> rfl
    | some parts =>
      obtain ⟨before, last⟩ := parts
      obtain ⟨hrest, a, ands, rfl, _⟩ := divideLast?_some hdivide
      simp only [List.isEmpty_cons, Bool.false_eq_true, ↓reduceIte]
      simp only [values, hrest, List.map_cons, List.map_append, truthOfClauses_cons,
        piecesFrom_or, truthAny_append]

theorem truthOfClauses_lastPiece (m : Test → Option Bool) (criteria : Criteria) (t : Test) :
    truthOfClauses (values m (lastPiece criteria ++ [(.and, t)])) =
      truthAnd (truthOfClauses (values m (lastPiece criteria))) (m t) := by
  have hpiece : lastPiece criteria = [] ∨ ∃ first rest, lastPiece criteria = first :: rest ∧
      ∀ clause ∈ rest, clause.1 = .and := by
    cases criteria with
    | nil => exact .inl rfl
    | cons first rest =>
      rw [lastPiece]
      cases hdivide : divideLast? rest with
      | none => exact .inr ⟨first, rest, rfl, divideLast?_none hdivide⟩
      | some parts =>
        obtain ⟨before, last⟩ := parts
        obtain ⟨_, a, ands, rfl, hands⟩ := divideLast?_some hdivide
        exact .inr ⟨_, ands, rfl, hands⟩
  -- behind its first clause the last piece has no OR left, so it is one conjunction
  rcases hpiece with hnil | ⟨first, rest, hcons, hands⟩
  · rw [hnil]
    rcases h : m t with _ | _ | _ <;>
      simp [values, truthOfClauses, pieces, piecesFrom, truthAny, truthAll, h, truthAnd, truthOr]
  · have hall : ∀ ts : Criteria, (∀ clause ∈ ts, clause.1 = .and) →
        ∀ entry ∈ values m ts, entry.1 = .and := by
      intro ts hts entry hmem
      obtain ⟨clause, hclause, rfl⟩ := List.mem_map.mp hmem
      exact hts clause hclause
    have hkeyed : ∀ clause ∈ rest ++ [(Connector.and, t)], clause.1 = .and := by
      intro clause hmem
      rcases List.mem_append.mp hmem with hmem | hmem
      · exact hands clause hmem
      · rw [List.mem_singleton.mp hmem]
    have hone : ∀ s, truthAny [s] = s := truthOr_false
    rw [hcons]
    have hleft : values m (first :: rest ++ [(.and, t)]) =
        (first.1, m first.2) :: values m (rest ++ [(.and, t)]) := rfl
    have hright : values m (first :: rest) = (first.1, m first.2) :: values m rest := rfl
    rw [hleft, hright, truthOfClauses_cons, truthOfClauses_cons,
      piecesFrom_and (hall _ hkeyed), piecesFrom_and (hall _ hands)]
    simp only [List.map_cons, List.map_nil, hone]
    rw [← truthAll_append_singleton]
    simp [values]

theorem earlierTruth_append (m : Test → Option Bool) (criteria : Criteria) (t : Test) :
    earlierTruth m (criteria ++ [(.and, t)]) = earlierTruth m criteria := by
  unfold earlierTruth
  rw [earlier_append]

/-- A clause added behind an AND binds the clauses behind the last OR alone. -/
theorem truthOfClauses_append (m : Test → Option Bool) (criteria : Criteria) (t : Test) :
    truthOfClauses (values m (criteria ++ [(.and, t)])) =
      truthOr (earlierTruth m criteria)
        (truthAnd (truthOfClauses (values m (lastPiece criteria))) (m t)) := by
  rw [truthOfClauses_values, lastPiece_append, truthOfClauses_lastPiece, earlierTruth_append]

/-- So do any number of clauses, each behind an AND. -/
theorem truthOfClauses_append_all (m : Test → Option Bool) (criteria : Criteria)
    (tests : List Test) :
    truthOfClauses (values m (criteria ++ tests.map (Prod.mk .and))) =
      truthOr (earlierTruth m criteria)
        (truthAnd (truthOfClauses (values m (lastPiece criteria))) (truthAll (tests.map m))) := by
  induction tests generalizing criteria with
  | nil =>
    have hnone : truthAll ([].map m) = some true := rfl
    rw [List.map_nil, List.append_nil, hnone, truthAnd_true, truthOfClauses_values]
  | cons t tests ih =>
    have hmoved : criteria ++ (t :: tests).map (Prod.mk .and) =
        (criteria ++ [(.and, t)]) ++ tests.map (Prod.mk .and) := by
      simp
    have hall : truthAll ((t :: tests).map m) = truthAnd (m t) (truthAll (tests.map m)) := rfl
    rw [hmoved, ih, earlierTruth_append, lastPiece_append, truthOfClauses_lastPiece, truthAnd_assoc,
      hall]

end Criteria

end TableQuery
