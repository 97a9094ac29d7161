import TableQuery.Sql.Reader

namespace TableQuery.Sql

/-- The characters that end every token, with the tokens that they make themselves. -/
def stopTokens : Char → Option (List Token)
  | ' ' => some []
  | '(' => some [.left]
  | ')' => some [.right]
  | ',' => some [.comma]
  | _ => none

theorem tokensFrom_cons (p : Begun) (c : Char) (rest : List Char) :
    tokensFrom p (c :: rest) =
      (p.step? c).bind fun next => (tokensFrom next.2 rest).map (next.1 ++ ·) := by
  simp only [tokensFrom, Option.bind_eq_bind, Option.map_eq_bind]
  rfl

theorem step?_stop {p : Begun} {c : Char} {done own : List Token}
    (hp : p.finish? = some done) (hc : stopTokens c = some own) :
    p.step? c = some (done ++ own, .nothing) := by
  have hcases : c = ' ' ∨ c = '(' ∨ c = ')' ∨ c = ',' := by
    unfold stopTokens at hc
    split at hc <;> simp_all
  have hname : Identifier.isNameCharacter c = false := by
    rcases hcases with rfl | rfl | rfl | rfl <;> decide
  have hdigit : c.isDigit = false := by
    rcases hcases with rfl | rfl | rfl | rfl <;> decide
  have hstart : Begun.start? c = some (own, .nothing) := by
    rcases hcases with rfl | rfl | rfl | rfl <;> cases hc <;> rfl
  have hpair : p.pair? c = none := by
    rcases hcases with rfl | rfl | rfl | rfl <;> cases p <;> rfl
  have hext : p.extend? c = none := by
    cases p with
    | text cs => simp [Begun.finish?] at hp
    | decimal cs parts => simp [Begun.extend?, hdigit]
    | digits cs => rcases hcases with rfl | rfl | rfl | rfl <;> simp [Begun.extend?, hdigit]
    | quote cs => rcases hcases with rfl | rfl | rfl | rfl <;> simp [Begun.extend?]
    | _ => simp [Begun.extend?, hname]
  simp [Begun.step?, hext, hpair, hname, hp, hstart]

/-- A stop divides a text into two texts that are read on their own. -/
theorem tokensFrom_stop {p : Begun} {cs : List Char} {l own : List Token} {c : Char}
    (h : tokensFrom p cs = some l) (hc : stopTokens c = some own) (rest : List Char) :
    tokensFrom p (cs ++ c :: rest) = (tokensFrom .nothing rest).map (l ++ own ++ ·) := by
  -- what has been begun is finished by the stop at the latest
  induction cs generalizing p l with
  | nil =>
    have hp : p.finish? = some l := h
    simp [tokensFrom_cons, step?_stop hp hc]
  | cons d cs ih =>
    rw [tokensFrom_cons] at h
    obtain ⟨⟨done, q⟩, hstep, h⟩ := Option.bind_eq_some_iff.mp h
    obtain ⟨others, hothers, rfl⟩ := Option.map_eq_some_iff.mp h
    rw [List.cons_append, tokensFrom_cons, hstep, Option.bind_some, ih hothers, Option.map_map]
    congr 1
    funext rest
    simp

/-- Characters that no text behind a stop can change the tokens of. -/
def Sealed (cs : List Char) : Prop :=
  ∀ c own rest, stopTokens c = some own →
    tokensFrom .nothing (cs ++ c :: rest) =
      (tokensFrom .nothing cs).bind fun ts => (tokensFrom .nothing rest).map (ts ++ own ++ ·)

theorem Sealed.of_some {cs : List Char} {ts : List Token} (h : tokensFrom .nothing cs = some ts) :
    Sealed cs := by
  intro c own rest hc
  rw [tokensFrom_stop h hc, h, Option.bind_some]

/-- Characters that cannot be read, whatever stands behind them. -/
theorem Sealed.of_none {cs : List Char}
    (h : ∀ rest, tokensFrom .nothing (cs ++ rest) = none) : Sealed cs := by
  intro c own rest hc
  have hcs : tokensFrom .nothing cs = none := by simpa using h []
  rw [h, hcs, Option.bind_none]

theorem Sealed.append {as bs : List Char} {c : Char} {own : List Token} (ha : Sealed as)
    (hb : Sealed bs) (hc : stopTokens c = some own) : Sealed (as ++ c :: bs) := by
  intro d down rest hd
  rw [List.append_assoc, List.cons_append, ha c own _ hc, ha c own _ hc, hb d down rest hd]
  cases tokensFrom .nothing as with
  | none => rfl
  | some ts => cases tokensFrom .nothing bs <;> simp [Function.comp_def]

theorem Sealed.tokens_append {as bs : List Char} {c : Char} {own : List Token} (ha : Sealed as)
    (hc : stopTokens c = some own) :
    tokensFrom .nothing (as ++ c :: bs) =
      (tokensFrom .nothing as).bind fun ts => (tokensFrom .nothing bs).map (ts ++ own ++ ·) :=
  ha c own bs hc

theorem tokensFrom_nothing_nil : tokensFrom .nothing [] = some [] := rfl

end TableQuery.Sql
