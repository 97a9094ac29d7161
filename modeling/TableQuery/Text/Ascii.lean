namespace TableQuery.Text

/-- The ASCII letters brought to lower case; every other character stays. -/
def lower (s : String) : String :=
  String.ofList (s.toList.map Char.toLower)

/-- Two names are the same when they differ in ASCII case at most. -/
def sameName (a b : String) : Bool :=
  a.toList.map Char.toLower == b.toList.map Char.toLower

theorem sameName_refl (a : String) : sameName a a = true := by
  simp [sameName]

theorem sameName_symm (a b : String) : sameName a b = sameName b a := by
  simp [sameName, Bool.beq_comm]

/-- The texts one after another, `separator` between neighbours. -/
def joined (separator : String) : List String → String
  | [] => ""
  | [a] => a
  | a :: b :: rest => a ++ separator ++ joined separator (b :: rest)

theorem joined_cons {separator a : String} {rest : List String} (h : rest ≠ []) :
    joined separator (a :: rest) = a ++ separator ++ joined separator rest := by
  cases rest with
  | nil => exact absurd rfl h
  | cons b rest => rfl

/-- The list of names as a statement writes it. -/
def commaList (names : List String) : String :=
  joined ", " names

/-- A placeholder for each of `count` values. -/
def placeholders (count : Nat) : String :=
  commaList (List.replicate count "?")

end TableQuery.Text
