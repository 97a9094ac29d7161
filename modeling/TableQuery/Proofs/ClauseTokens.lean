import TableQuery.Criteria
import TableQuery.Proofs.IdentifierTokens

namespace TableQuery

namespace Sql

/-- A name that is no keyword and begins nothing of its own, wherever it stands. -/
def IsPlain (s : String) : Prop :=
  Identifier.IsName s.toList ∧ wordToken s.toList = .name s ∧ present? s = none ∧
    (["cast", "raise", "with"].any (Text.sameName s)) = false

instance : DecidablePred IsPlain := fun s => by
  unfold IsPlain
  infer_instance

/-- A plain name, alone or behind the plain name of a table. -/
def IsPlainColumn (s : String) : Prop :=
  IsPlain s ∨ ∃ table name, s = table ++ "." ++ name ∧ IsPlain table ∧ IsPlain name

/-- Characters with their tokens, whatever stands behind the next stop. -/
def Reads (cs : List Char) (ts : Option (List Token)) : Prop :=
  Sealed cs ∧ tokensFrom .nothing cs = ts

theorem Reads.of_some {cs : List Char} {ts : List Token}
    (h : tokensFrom .nothing cs = some ts) : Reads cs (some ts) :=
  ⟨.of_some h, h⟩

theorem Reads.append {as bs : List Char} {us vs : Option (List Token)} {c : Char}
    {own : List Token} (ha : Reads as us) (hc : stopTokens c = some own) (hb : Reads bs vs) :
    Reads (as ++ c :: bs) (us.bind fun ts => vs.map (ts ++ own ++ ·)) := by
  refine ⟨ha.1.append hb.1 hc, ?_⟩
  rw [ha.1.tokens_append hc, ha.2, hb.2]

theorem Reads.of_valid {column : String} (h : Identifier.valid column = true) :
    Reads column.toList (tokens? column) :=
  ⟨sealed_of_valid h, rfl⟩

theorem IsPlain.tokensFrom {s : String} (h : IsPlain s) :
    tokensFrom .nothing s.toList = some [.name s] := by
  rw [tokensFrom_onlyName h.1, h.2.1]

theorem tokensFrom_qualified {table name : String} (ht : IsPlain table) (hn : IsPlain name) :
    tokensFrom .nothing (table.toList ++ '.' :: name.toList) =
      some [.name table, .dot, .name name] := by
  rw [tokensFrom_name ht.1, tokensFrom_word_dot, hn.tokensFrom, ht.2.1]
  rfl

/-- The tokens of placeholders with commas between them. -/
def markList : Nat → List Token
  | 0 => []
  | 1 => [.mark]
  | n + 2 => .mark :: .comma :: markList (n + 1)

theorem tokensFrom_placeholders (n : Nat) :
    tokensFrom .nothing (Text.placeholders n).toList = some (markList n) := by
  induction n with
  | zero => rfl
  | succ n ih =>
    cases n with
    | zero => rfl
    | succ n =>
      have htext : (Text.placeholders (n + 2)).toList =
          ['?'] ++ ',' :: ([] ++ ' ' :: (Text.placeholders (n + 1)).toList) := by
        simp [Text.placeholders, Text.commaList, List.replicate_succ, Text.joined]
      rw [htext, tokensFrom_stop (l := [.mark]) rfl rfl, tokensFrom_stop tokensFrom_nothing_nil rfl,
        ih]
      rfl

end Sql

open Sql

/-- The names that a relation is made of are plain. -/
def Relation.Plain (r : Relation) : Prop :=
  IsPlain r.table ∧ IsPlain r.relatedKey ∧ IsPlain r.parentKey

instance : DecidablePred Relation.Plain := fun r => by
  unfold Relation.Plain
  infer_instance

namespace Test

theorem nestedInduction {P : Test → Prop}
    (raw : ∀ sql values, P (.raw sql values))
    (compare : ∀ column op value, P (.compare column op value))
    (member : ∀ column values negated, P (.member column values negated))
    (between : ∀ column low high negated, P (.between column low high negated))
    (isNull : ∀ column negated, P (.isNull column negated))
    (date : ∀ column op value, P (.date column op value))
    (contains : ∀ column text, P (.contains column text))
    (activeOn : ∀ table day, P (.activeOn table day))
    (group : ∀ clauses : Criteria, (∀ clause ∈ clauses, P clause.2) → P (.group clauses))
    (has : ∀ parent relation, ∀ clauses : Criteria, (∀ clause ∈ clauses, P clause.2) →
      P (.has parent relation clauses))
    (t : Test) : P t :=
  Test.rec (motive_1 := P) (motive_2 := fun clauses => ∀ clause ∈ clauses, P clause.2)
    (motive_3 := fun clause => P clause.2)
    raw compare member between isNull date contains activeOn
    (fun clauses ih => group clauses ih)
    (fun parent relation clauses ih => has parent relation clauses ih)
    (by simp) (fun _ _ head tail clause hmem => by
      rcases List.mem_cons.mp hmem with rfl | hmem
      · exact head
      · exact tail clause hmem)
    (fun _ _ h => h) t

end Test

mutual

/-- Columns are identifiers, the names of tables and relations are plain, no group is empty, and
nothing is written in the caller's own words. -/
def Test.Checked : Test → Prop
  | .raw _ _ => False
  | .compare column _ _ => Identifier.valid column = true
  | .member column _ _ => Identifier.valid column = true
  | .between column _ _ _ => Identifier.valid column = true
  | .isNull column _ => Identifier.valid column = true
  | .date column _ _ => Identifier.valid column = true
  | .contains column _ => Identifier.valid column = true
  | .activeOn table _ => IsPlain table
  | .group clauses => clauses ≠ [] ∧ Criteria.Checked clauses
  | .has parent relation clauses => IsPlain parent ∧ relation.Plain ∧ Criteria.Checked clauses

def Criteria.Checked : List (Connector × Test) → Prop
  | [] => True
  | (_, test) :: rest => test.Checked ∧ Criteria.Checked rest

end

theorem Criteria.checked_iff {criteria : Criteria} :
    Criteria.Checked criteria ↔ ∀ clause ∈ criteria, clause.2.Checked := by
  induction criteria with
  | nil => simp [Criteria.Checked]
  | cons clause rest ih => simp [Criteria.Checked, ih]

def Connector.token : Connector → Token
  | and => .keyword .and
  | or => .keyword .or

def Comparison.tokens : Comparison → List Token
  | eq => [.eq]
  | ne => [.ne]
  | gt => [.gt]
  | ge => [.ge]
  | lt => [.lt]
  | le => [.le]
  | like => [.keyword .like]
  | notLike => [.keyword .not, .keyword .like]

namespace Test

def notTokens (negated : Bool) : List Token :=
  if negated then [.keyword .not] else []

/-- The tokens behind the column of a comparison. -/
def compareTokens (op : Comparison) (value : Value) : List Token :=
  match op, value with
  | .eq, .null => [.keyword .is, .keyword .null]
  | .ne, .null => [.keyword .is, .keyword .not, .keyword .null]
  | op, _ => op.tokens ++ [.mark]

def memberTokens (count : Nat) (negated : Bool) : List Token :=
  notTokens negated ++ [.keyword .member, .left] ++ markList count ++ [.right]

/-- A comparison of numbers that stands for a list without members. -/
def emptyMemberTokens (negated : Bool) : List Token :=
  [.number (.int (if negated then 1 else 0)), .eq, .number (.int 1)]

def betweenTokens (negated : Bool) : List Token :=
  notTokens negated ++ [.keyword .between, .mark, .keyword .and, .mark]

def nullTokens (negated : Bool) : List Token :=
  .keyword .is :: notTokens negated ++ [.keyword .null]

def containsTokens : List Token :=
  [.keyword .like, .mark, .keyword .escape, .text "\\"]

def dateTokens (column : List Token) (op : Comparison) : List Token :=
  [.name "DATE", .left] ++ column ++ [.right] ++ op.tokens ++ [.mark]

def columnTokens (table name : String) : List Token :=
  [.name table, .dot, .name name]

def activeOnTokens (table : String) : List Token :=
  let entered := dateTokens (columnTokens table "entry_at") .le
  [.left, .keyword .caseOf, .keyword .when] ++ columnTokens table "leave_at" ++ nullTokens true ++
    [.keyword .thenArm] ++ entered ++ [.keyword .and] ++
    dateTokens (columnTokens table "leave_at") .ge ++ [.keyword .elseArm] ++ entered ++
    [.keyword .endCase, .right]

def hasTokens (parent : String) (relation : Relation) : List Token :=
  [.keyword .exists_, .left, .keyword .select, .number (.int 1), .keyword .source,
    .name relation.table, .keyword .test] ++ columnTokens relation.table relation.relatedKey ++
    [.eq] ++ columnTokens parent relation.parentKey

end Test

mutual

/-- The tokens of a test, if its columns can be read. -/
def Test.tokens? : Test → Option (List Token)
  | .raw sql _ => Sql.tokens? sql
  | .compare column op value => (Sql.tokens? column).map (· ++ Test.compareTokens op value)
  | .member column values negated =>
    if values.isEmpty then some (Test.emptyMemberTokens negated)
    else (Sql.tokens? column).map (· ++ Test.memberTokens values.length negated)
  | .between column _ _ negated => (Sql.tokens? column).map (· ++ Test.betweenTokens negated)
  | .isNull column negated => (Sql.tokens? column).map (· ++ Test.nullTokens negated)
  | .date column op _ => (Sql.tokens? column).map fun ts => Test.dateTokens ts op
  | .contains column _ => (Sql.tokens? column).map (· ++ Test.containsTokens)
  | .activeOn table _ => some (Test.activeOnTokens table)
  | .group clauses => (Criteria.tokens? clauses).map fun ts => .left :: ts ++ [.right]
  | .has parent relation clauses =>
    if clauses.isEmpty then some (Test.hasTokens parent relation ++ [.right])
    else (Criteria.tokens? clauses).map fun ts =>
      Test.hasTokens parent relation ++ [.keyword .and, .left] ++ ts ++ [.right, .right]

/-- The tokens of clauses, with the connectors of all but the first. -/
def Criteria.tokens? : List (Connector × Test) → Option (List Token)
  | [] => some []
  | (_, test) :: rest => test.tokens?.bind fun ts => (Criteria.restTokens? rest).map (ts ++ ·)

def Criteria.restTokens? : List (Connector × Test) → Option (List Token)
  | [] => some []
  | (connector, test) :: rest => test.tokens?.bind fun ts =>
    (Criteria.restTokens? rest).map fun us => connector.token :: ts ++ us

end

namespace Test

theorem reads_column {column : String} {tail : List Char} {ts : List Token}
    (hcolumn : Identifier.valid column = true) (htail : tokensFrom .nothing tail = some ts) :
    Reads (column.toList ++ ' ' :: tail) ((Sql.tokens? column).map (· ++ ts)) := by
  have h := (Reads.of_valid hcolumn).append (c := ' ') rfl (.of_some htail)
  simpa [Option.map_eq_bind, Function.comp_def] using h

theorem tokensFrom_sign (op : Comparison) :
    tokensFrom .nothing (op.sign ++ " ?").toList = some (op.tokens ++ [.mark]) := by
  cases op <;> rfl

theorem reads_compare {column : String} (op : Comparison) (value : Value)
    (hcolumn : Identifier.valid column = true) :
    Reads (compareText column op value).toList
      ((Sql.tokens? column).map (· ++ compareTokens op value)) := by
  by_cases heq : op = .eq ∧ value = .null
  · obtain ⟨rfl, rfl⟩ := heq
    have htail : tokensFrom .nothing "IS NULL".toList = some (compareTokens .eq .null) := rfl
    simpa [compareText] using reads_column hcolumn htail
  by_cases hne : op = .ne ∧ value = .null
  · obtain ⟨rfl, rfl⟩ := hne
    have htail : tokensFrom .nothing "IS NOT NULL".toList = some (compareTokens .ne .null) := rfl
    simpa [compareText] using reads_column hcolumn htail
  have htext : compareText column op value = column ++ " " ++ op.sign ++ " ?" := by
    unfold compareText
    split <;> simp_all
  have htokens : compareTokens op value = op.tokens ++ [.mark] := by
    unfold compareTokens
    split <;> simp_all
  rw [htext, htokens]
  simpa using reads_column hcolumn (tokensFrom_sign op)

theorem reads_member {column : String} (values : List Value) (negated : Bool)
    (hcolumn : Identifier.valid column = true) :
    Reads (memberText column values.length negated).toList
      (if values.isEmpty then some (emptyMemberTokens negated)
      else (Sql.tokens? column).map (· ++ memberTokens values.length negated)) := by
  by_cases hv : values = []
  · subst hv
    have hread : tokensFrom .nothing (if negated then "1 = 1" else "0 = 1").toList =
        some (emptyMemberTokens negated) := by
      cases negated <;> rfl
    exact .of_some hread
  · have hlength : values.length ≠ 0 := by simpa using hv
    have hopen : ∀ ts, tokensFrom .nothing ((if negated then "NOT IN" else "IN").toList ++ ' ' ::
        ([] ++ '(' :: ts)) = (tokensFrom .nothing ts).map
          (notTokens negated ++ [.keyword .member, .left] ++ ·) := fun ts => by
      rw [tokensFrom_stop (l := notTokens negated ++ [.keyword .member]) (by cases negated <;> rfl)
        rfl, tokensFrom_stop tokensFrom_nothing_nil rfl, Option.map_map]
      congr 1
      funext us
      simp
    have hclose : tokensFrom .nothing ((Text.placeholders values.length).toList ++ [')']) =
        some (markList values.length ++ [.right]) := by
      rw [tokensFrom_stop (tokensFrom_placeholders _) rfl, tokensFrom_nothing_nil]
      simp
    have htext : (memberText column values.length negated).toList =
        column.toList ++ ' ' :: ((if negated then "NOT IN" else "IN").toList ++ ' ' ::
          ([] ++ '(' :: ((Text.placeholders values.length).toList ++ [')']))) := by
      cases negated <;> simp [memberText, hlength]
    have htail := hopen ((Text.placeholders values.length).toList ++ [')'])
    rw [hclose] at htail
    have hempty : values.isEmpty = false := by simpa using hv
    rw [htext, hempty]
    simpa [memberTokens] using reads_column hcolumn htail

theorem reads_date {column : String} (op : Comparison) (hcolumn : Identifier.valid column = true) :
    Reads ("DATE(" ++ column ++ ") " ++ op.sign ++ " ?").toList
      ((Sql.tokens? column).map fun ts => dateTokens ts op) := by
  have htext : ("DATE(" ++ column ++ ") " ++ op.sign ++ " ?").toList =
      "DATE".toList ++
        '(' :: (column.toList ++ ')' :: ([] ++ ' ' :: (op.sign ++ " ?").toList)) := by
    simp
  have hname : Reads "DATE".toList (some [.name "DATE"]) := .of_some rfl
  have h := hname.append (c := '(') rfl ((Reads.of_valid hcolumn).append (c := ')') rfl
    ((Reads.of_some tokensFrom_nothing_nil).append (c := ' ') rfl (.of_some (tokensFrom_sign op))))
  rw [htext]
  cases hc : Sql.tokens? column with
  | none => simpa [hc] using h
  | some ts => simpa [hc, dateTokens] using h

theorem tokensFrom_date {table name : String} (op : Comparison) (ht : IsPlain table)
    (hn : IsPlain name) :
    tokensFrom .nothing ("DATE(" ++ table ++ "." ++ name ++ ") " ++ op.sign ++ " ?").toList =
      some (dateTokens (columnTokens table name) op) := by
  have htext : ("DATE(" ++ table ++ "." ++ name ++ ") " ++ op.sign ++ " ?").toList =
      "DATE".toList ++ '(' :: ((table.toList ++ '.' :: name.toList) ++ ')' ::
        ([] ++ ' ' :: (op.sign ++ " ?").toList)) := by
    simp
  have hword : tokensFrom .nothing "DATE".toList = some [.name "DATE"] := rfl
  rw [htext, tokensFrom_stop hword rfl, tokensFrom_stop (tokensFrom_qualified ht hn) rfl,
    tokensFrom_stop tokensFrom_nothing_nil rfl, tokensFrom_sign]
  simp [dateTokens, columnTokens]

theorem tokensFrom_enteredText {table : String} (ht : IsPlain table) :
    tokensFrom .nothing (enteredText table).toList =
      some (dateTokens (columnTokens table "entry_at") .le) := by
  have hentry : IsPlain "entry_at" := by decide +kernel
  have htext : enteredText table = "DATE(" ++ table ++ "." ++ "entry_at" ++ ") " ++
      Comparison.le.sign ++ " ?" := by
    have htail : ".entry_at) <= ?" = "." ++ "entry_at" ++ ") " ++ Comparison.le.sign ++ " ?" := rfl
    unfold enteredText
    simp only [htail, String.append_assoc]
  rw [htext, tokensFrom_date .le ht hentry]

theorem activeOnText_toList (table : String) :
    (activeOnText table).toList = [] ++ '(' :: ("CASE WHEN".toList ++ ' ' ::
      ((table.toList ++ '.' :: "leave_at".toList) ++ ' ' :: ("IS NOT NULL THEN".toList ++ ' ' ::
      ((enteredText table).toList ++ ' ' :: ("AND".toList ++ ' ' ::
      (("DATE(" ++ table ++ "." ++ "leave_at" ++ ") " ++ Comparison.ge.sign ++ " ?").toList ++
      ' ' :: ("ELSE".toList ++ ' ' :: ((enteredText table).toList ++ ' ' ::
      "END)".toList)))))))) := by
  have hopen : "(CASE WHEN ".toList = '(' :: ("CASE WHEN".toList ++ [' ']) := rfl
  have hthen : ".leave_at IS NOT NULL THEN ".toList =
      '.' :: ("leave_at".toList ++ ' ' :: ("IS NOT NULL THEN".toList ++ [' '])) := rfl
  have hdate : " AND DATE(".toList = ' ' :: ("AND".toList ++ ' ' :: "DATE(".toList) := rfl
  have hleave : ".leave_at) >= ? ELSE ".toList = ".".toList ++ ("leave_at".toList ++
      (") ".toList ++ (Comparison.ge.sign.toList ++ (" ?".toList ++ ' ' ::
      ("ELSE".toList ++ [' ']))))) := rfl
  have hend : " END)".toList = ' ' :: "END)".toList := rfl
  unfold activeOnText
  simp only [String.toList_append, hopen, hthen, hdate, hleave, hend, List.append_assoc,
    List.cons_append, List.nil_append]

theorem tokensFrom_activeOn {table : String} (ht : IsPlain table) :
    tokensFrom .nothing (activeOnText table).toList = some (activeOnTokens table) := by
  have hleave : IsPlain "leave_at" := by decide +kernel
  have hcase : tokensFrom .nothing "CASE WHEN".toList =
      some [.keyword .caseOf, .keyword .when] := by
    decide +kernel
  have hnull : tokensFrom .nothing "IS NOT NULL THEN".toList =
      some (nullTokens true ++ [.keyword .thenArm]) := by
    decide +kernel
  have hand : tokensFrom .nothing "AND".toList = some [.keyword .and] := by
    decide +kernel
  have helse : tokensFrom .nothing "ELSE".toList = some [.keyword .elseArm] := by
    decide +kernel
  have hend : tokensFrom .nothing "END)".toList = some [.keyword .endCase, .right] := by
    decide +kernel
  have hentered := tokensFrom_enteredText ht
  rw [activeOnText_toList, tokensFrom_stop tokensFrom_nothing_nil rfl, tokensFrom_stop hcase rfl,
    tokensFrom_stop (tokensFrom_qualified ht hleave) rfl, tokensFrom_stop hnull rfl,
    tokensFrom_stop hentered rfl, tokensFrom_stop hand rfl,
    tokensFrom_stop (tokensFrom_date .ge ht hleave) rfl, tokensFrom_stop helse rfl,
    tokensFrom_stop hentered rfl, hend]
  simp [activeOnTokens, columnTokens]

theorem hasText_toList (parent : String) (relation : Relation) :
    (hasText parent relation).toList = "EXISTS".toList ++ ' ' :: ([] ++ '(' ::
      ("SELECT 1 FROM".toList ++ ' ' :: (relation.table.toList ++ ' ' :: ("WHERE".toList ++ ' ' ::
      ((relation.table.toList ++ '.' :: relation.relatedKey.toList) ++ ' ' :: ("=".toList ++
      ' ' :: (parent.toList ++ '.' :: relation.parentKey.toList))))))) := by
  have hopen : "EXISTS (SELECT 1 FROM ".toList =
      "EXISTS".toList ++ ' ' :: '(' :: ("SELECT 1 FROM".toList ++ [' ']) := rfl
  have hwhere : " WHERE ".toList = ' ' :: ("WHERE".toList ++ [' ']) := rfl
  have hequal : " = ".toList = ' ' :: ("=".toList ++ [' ']) := rfl
  have hdot : ".".toList = ['.'] := rfl
  unfold hasText
  simp only [String.toList_append, hopen, hwhere, hequal, hdot, List.append_assoc,
    List.cons_append, List.nil_append]

theorem tokensFrom_hasText {parent : String} {relation : Relation} (hp : IsPlain parent)
    (hr : relation.Plain) :
    tokensFrom .nothing (hasText parent relation).toList = some (hasTokens parent relation) := by
  have hexists : tokensFrom .nothing "EXISTS".toList = some [.keyword .exists_] := by
    decide +kernel
  have hselect : tokensFrom .nothing "SELECT 1 FROM".toList =
      some [.keyword .select, .number (.int 1), .keyword .source] := by
    decide +kernel
  have hwhere : tokensFrom .nothing "WHERE".toList = some [.keyword .test] := by
    decide +kernel
  have hequal : tokensFrom .nothing "=".toList = some [.eq] := by
    decide +kernel
  rw [hasText_toList, tokensFrom_stop hexists rfl, tokensFrom_stop tokensFrom_nothing_nil rfl,
    tokensFrom_stop hselect rfl, tokensFrom_stop hr.1.tokensFrom rfl, tokensFrom_stop hwhere rfl,
    tokensFrom_stop (tokensFrom_qualified hr.1 hr.2.1) rfl, tokensFrom_stop hequal rfl,
    tokensFrom_qualified hp hr.2.2]
  simp [hasTokens, columnTokens]

end Test

theorem Criteria.reads_restText {criteria : Criteria}
    (h : ∀ clause ∈ criteria, Reads clause.2.text.toList clause.2.tokens?) {as : List Char}
    {us : Option (List Token)} (ha : Reads as us) :
    Reads (as ++ (Criteria.restText criteria).toList)
      (us.bind fun ts => (Criteria.restTokens? criteria).map (ts ++ ·)) := by
  -- the text so far is sealed, so the next connector begins a token of its own
  induction criteria generalizing as us with
  | nil => simpa [Criteria.restText, Criteria.restTokens?] using ha
  | cons clause rest ih =>
    obtain ⟨connector, test⟩ := clause
    have hword : ∃ word, connector.text = " " ++ word ++ " " ∧
        tokensFrom .nothing word.toList = some [connector.token] := by
      cases connector
      · exact ⟨"AND", rfl, rfl⟩
      · exact ⟨"OR", rfl, rfl⟩
    obtain ⟨word, htext, hword⟩ := hword
    have htest : Reads test.text.toList test.tokens? := h (connector, test) (by simp)
    have hnext := ha.append (c := ' ') rfl ((Reads.of_some hword).append (c := ' ') rfl htest)
    have hrest := ih (fun clause hmem => h clause (by simp [hmem])) hnext
    have happend : as ++ (Criteria.restText ((connector, test) :: rest)).toList =
        (as ++ ' ' :: (word.toList ++ ' ' :: test.text.toList)) ++
          (Criteria.restText rest).toList := by
      simp [Criteria.restText, htext]
    rw [happend]
    simp only [Criteria.restTokens?]
    cases us with
    | none => simpa using hrest
    | some ts =>
      cases htokens : test.tokens? with
      | none => simpa [htokens] using hrest
      | some vs =>
        cases hmore : Criteria.restTokens? rest with
        | none => simpa [htokens, hmore] using hrest
        | some ws => simpa [htokens, hmore] using hrest

theorem Criteria.reads_text {criteria : Criteria}
    (h : ∀ clause ∈ criteria, Reads clause.2.text.toList clause.2.tokens?) :
    Reads (Criteria.text criteria).toList (Criteria.tokens? criteria) := by
  cases criteria with
  | nil => exact .of_some rfl
  | cons clause rest =>
    obtain ⟨connector, test⟩ := clause
    have hclauses : ∀ clause ∈ rest, Reads clause.2.text.toList clause.2.tokens? :=
      fun clause hmem => h clause (by simp [hmem])
    have hrest := Criteria.reads_restText hclauses (h (connector, test) (by simp))
    simpa [Criteria.text, Criteria.tokens?] using hrest

theorem Test.reads_text {t : Test} (ht : t.Checked) : Reads t.text.toList t.tokens? := by
  induction t using Test.nestedInduction with
  | raw => exact ht.elim
  | compare column op value => simpa [Test.text, Test.tokens?] using reads_compare op value ht
  | member column values negated =>
    simpa [Test.text, Test.tokens?] using reads_member values negated ht
  | between column low high negated =>
    have htail : tokensFrom .nothing
        (if negated then "NOT BETWEEN ? AND ?" else "BETWEEN ? AND ?").toList =
          some (betweenTokens negated) := by
      cases negated <;> rfl
    have h := reads_column ht htail
    cases negated <;> simpa [Test.text, Test.tokens?] using h
  | isNull column negated =>
    have htail : tokensFrom .nothing (if negated then "IS NOT NULL" else "IS NULL").toList =
        some (nullTokens negated) := by
      cases negated <;> rfl
    have h := reads_column ht htail
    cases negated <;> simpa [Test.text, Test.tokens?] using h
  | date column op value => simpa [Test.text, Test.tokens?] using reads_date op ht
  | contains column text =>
    have htail : tokensFrom .nothing "LIKE ? ESCAPE '\\'".toList = some containsTokens := rfl
    simpa [Test.text, Test.tokens?] using reads_column ht htail
  | activeOn table day =>
    simpa [Test.text, Test.tokens?] using Reads.of_some (tokensFrom_activeOn ht)
  | group clauses ih =>
    have hinner := Criteria.reads_text fun clause hmem =>
      ih clause hmem (Criteria.checked_iff.mp ht.2 clause hmem)
    have h := (Reads.of_some tokensFrom_nothing_nil).append (c := '(') rfl
      (hinner.append (c := ')') rfl (.of_some tokensFrom_nothing_nil))
    cases htokens : Criteria.tokens? clauses <;>
      simpa [Test.text, Test.tokens?, htokens] using h
  | has parent relation clauses ih =>
    obtain ⟨hparent, hrelation, hclauses⟩ := ht
    have hinner := Criteria.reads_text fun clause hmem =>
      ih clause hmem (Criteria.checked_iff.mp hclauses clause hmem)
    have hopen := Reads.of_some (tokensFrom_hasText hparent hrelation)
    have hnil := Reads.of_some tokensFrom_nothing_nil
    by_cases hempty : clauses = []
    · have h := hopen.append (c := ')') rfl hnil
      simpa [Test.text, Test.tokens?, hempty] using h
    · have hand : tokensFrom .nothing "AND".toList = some [.keyword .and] := rfl
      have h := hopen.append (c := ' ') rfl ((Reads.of_some hand).append (c := ' ') rfl
        (hnil.append (c := '(') rfl
          (hinner.append (c := ')') rfl (hnil.append (c := ')') rfl hnil))))
      cases htokens : Criteria.tokens? clauses <;>
        simpa [Test.text, Test.tokens?, hempty, htokens] using h

/-- The text of clauses has the tokens of the clauses, or none if a column cannot be read. -/
theorem Criteria.tokens?_text {criteria : Criteria} (h : Criteria.Checked criteria) :
    Sql.tokens? (Criteria.text criteria) = Criteria.tokens? criteria :=
  (Criteria.reads_text fun clause hmem =>
    Test.reads_text (Criteria.checked_iff.mp h clause hmem)).2

end TableQuery
