namespace TableQuery

/-- The characters with a meaning of their own in a search pattern. -/
def isWild (c : Char) : Bool :=
  c = '%' || c = '_' || c = '\\'

/-- Each wild character gets a backslash before it. -/
def escapedPattern (cs : List Char) : List Char :=
  cs.flatMap fun c => if isWild c then ['\\', c] else [c]

def escapePattern (s : String) : String :=
  String.ofList (escapedPattern s.toList)

/-- The pattern of the texts that contain `s`. -/
def containsPattern (s : String) : String :=
  String.ofList ('%' :: escapedPattern s.toList ++ ['%'])

/-- One step of a search pattern. -/
inductive PatternPiece
  | anyRun
  | anyOne
  | letter (c : Char)
deriving DecidableEq, Repr

/-- The steps of a pattern. The character behind the escape character stands for itself; an escape
character with nothing behind it spoils the pattern. -/
def patternPieces (escape : Option Char) : List Char → Option (List PatternPiece)
  | [] => some []
  | c :: rest =>
    if escape = some c then
      match rest with
      | [] => none
      | d :: rest => (patternPieces escape rest).map (.letter d :: ·)
    else
      let piece := if c = '%' then .anyRun else if c = '_' then .anyOne else .letter c
      (patternPieces escape rest).map (piece :: ·)

/-- A list and what is left after each of its elements. -/
def suffixes {α : Type} : List α → List (List α)
  | [] => [[]]
  | a :: rest => (a :: rest) :: suffixes rest

/-- ASCII letters match in either case. -/
def sameLetter (a b : Char) : Bool :=
  a.toLower = b.toLower

/-- Whether the steps can be taken through the whole of a text. -/
def matchesPieces : List PatternPiece → List Char → Bool
  | [], s => s.isEmpty
  | .anyRun :: pieces, s => (suffixes s).any (matchesPieces pieces)
  | .anyOne :: pieces, s =>
    match s with
    | [] => false
    | _ :: rest => matchesPieces pieces rest
  | .letter c :: pieces, s =>
    match s with
    | [] => false
    | d :: rest => sameLetter c d && matchesPieces pieces rest

/-- At each place, whether anything from there on is true. -/
def anyBehind : List Bool → List Bool
  | [] => []
  | b :: rest =>
    let behind := anyBehind rest
    (b || behind.headD false) :: behind

/-- For a text and what is left after each of its characters, whether the steps can be taken
through it. Each step takes one pass over the answers of the steps behind it. -/
def matchRow : List PatternPiece → List Char → List Bool
  | [], s => (suffixes s).map List.isEmpty
  | .anyRun :: pieces, s => anyBehind (matchRow pieces s)
  | .anyOne :: pieces, s => (matchRow pieces s).tail ++ [false]
  | .letter c :: pieces, s =>
    List.zipWith (fun d b => sameLetter c d && b) s (matchRow pieces s).tail ++ [false]

theorem map_suffixes {α : Type} (f : List Char → α) (s : List Char) :
    (suffixes s).map f = f s :: ((suffixes s).map f).tail := by
  cases s <;> rfl

theorem anyBehind_suffixes (f : List Char → Bool) (s : List Char) :
    anyBehind ((suffixes s).map f) = (suffixes s).map fun t => (suffixes t).any f := by
  induction s with
  | nil => simp [suffixes, anyBehind]
  | cons c rest ih =>
    simp only [suffixes, List.map_cons, anyBehind, ih, List.any_cons]
    rw [map_suffixes (fun t => (suffixes t).any f) rest]
    rfl

theorem anyOne_suffixes (f g : List Char → Bool) (s : List Char) (hnil : g [] = false)
    (hcons : ∀ c rest, g (c :: rest) = f rest) :
    ((suffixes s).map f).tail ++ [false] = (suffixes s).map g := by
  induction s with
  | nil => simp [suffixes, hnil]
  | cons c rest ih =>
    have h := map_suffixes f rest
    simp only [suffixes, List.map_cons, List.tail_cons, hcons]
    rw [← ih, ← List.cons_append, ← h]

theorem letter_suffixes (c : Char) (f g : List Char → Bool) (s : List Char) (hnil : g [] = false)
    (hcons : ∀ d rest, g (d :: rest) = (sameLetter c d && f rest)) :
    List.zipWith (fun d b => sameLetter c d && b) s ((suffixes s).map f).tail ++ [false] =
      (suffixes s).map g := by
  induction s with
  | nil => simp [suffixes, hnil]
  | cons d rest ih =>
    have h := map_suffixes f rest
    simp only [suffixes, List.map_cons, List.tail_cons, hcons]
    rw [← ih, h, List.zipWith_cons_cons, List.cons_append]
    rfl

theorem matchRow_eq (pieces : List PatternPiece) (s : List Char) :
    matchRow pieces s = (suffixes s).map (matchesPieces pieces) := by
  induction pieces with
  | nil => exact List.map_congr_left fun t _ => by cases t <;> rfl
  | cons piece pieces ih =>
    cases piece with
    | anyRun =>
      rw [matchRow, ih, anyBehind_suffixes]
      exact List.map_congr_left fun t _ => by cases t <;> rfl
    | anyOne =>
      rw [matchRow, ih]
      exact anyOne_suffixes _ _ s rfl fun _ _ => rfl
    | letter c =>
      rw [matchRow, ih]
      exact letter_suffixes c _ _ s rfl fun _ _ => rfl

/-- Whether a text matches a pattern; a spoiled pattern matches nothing. -/
def matchesPattern (escape : Option Char) (pattern subject : List Char) : Bool :=
  match patternPieces escape pattern with
  | some pieces => (matchRow pieces subject).head?.getD false
  | none => false

theorem matchesPattern_eq {escape : Option Char} {pattern subject : List Char}
    {pieces : List PatternPiece} (h : patternPieces escape pattern = some pieces) :
    matchesPattern escape pattern subject = matchesPieces pieces subject := by
  simp only [matchesPattern, h, matchRow_eq]
  rw [map_suffixes]
  rfl

example : matchesPattern (some '\\') ['%', '5', '\\', '%', '%'] ['a', '5', '%'] = true := by decide
example : matchesPattern (some '\\') ['%', '5', '\\', '%', '%'] ['a', '5', '0'] = false := by decide
example : matchesPattern none ['_', 'B'] ['é', 'b'] = true := by decide

end TableQuery
