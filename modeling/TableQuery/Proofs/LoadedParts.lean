import Mathlib.Data.List.Perm.Subperm
import TableQuery.Proofs.RelatedRows

namespace TableQuery

open Sql

namespace Store

theorem itemsHeight_bound (values : List Value) :
    Expr.itemsHeight (values.map .bound) ≤ 2 := by
  induction values with
  | nil => simp [Expr.itemsHeight]
  | cons v values ih =>
    cases values with
    | nil => simp [Expr.itemsHeight, Expr.height]
    | cons w values =>
      simp only [List.map_cons] at ih
      simp only [List.map_cons, Expr.itemsHeight, Expr.height]
      omega

theorem itemsFit_bound (base : Nat) (values : List Value) :
    Expr.itemsFit base (values.map .bound) = true := by
  induction values with
  | nil => rfl
  | cons v values ih => simpa [Expr.itemsFit, Expr.innerFits] using ih

theorem sourceFits_member (table : Option String) (name : String) (values : List Value) :
    sourceFits false (some (.member (.column table name) (values.map .bound) false)) [] = true := by
  have hitems := itemsHeight_bound values
  have hcolumn : Expr.height (.column table name) ≤ 2 := by
    rw [Expr.height]
    split <;> omega
  have hheight : Expr.height (.member (.column table name) (values.map .bound) false) ≤
      Expr.greatestHeight := by
    rw [Expr.height, Expr.negation, Expr.greatestHeight]
    simp only [Bool.false_eq_true, ↓reduceIte]
    omega
  simp [sourceFits, sourceHeight, Expr.fits, hheight, Expr.innerFits, itemsFit_bound]

section

variable {column : String}

theorem checkItems_bound (store : Store) (env : Env) (values : List Value) :
    Expr.checkItems store env (values.map .bound) = .ok () := by
  induction values with
  | nil => rfl
  | cons v values ih =>
    rw [List.map_cons, Expr.checkItems, ih]
    rfl

/-- A clause alone is prepared where its names are found and its values are not too many. -/
theorem prepareTest_clause (store : Store) (scope : Scope) (clause : Clause) {e : Expr}
    (hchecked : clause.2.Checked) (hexpr : clause.2.expr? = some e) :
    store.prepareTest scope [clause] =
      if limits.values < clause.2.bindings.length then .error .statement
      else (e.check store [⟨scope, []⟩]).map fun _ => some e := by
  obtain ⟨connector, t⟩ := clause
  have hread : Criteria.expr? [(connector, t)] = some e := by
    rw [Criteria.expr?, Criteria.exprs, Criteria.exprs, hexpr]
    rfl
  have htext : Criteria.text? [(connector, t)] = some (Criteria.text [(connector, t)]) := rfl
  have hbindings : Criteria.bindings [(connector, t)] = t.bindings := by
    simp [Criteria.bindings]
  have hall : Criteria.Checked [(connector, t)] := ⟨hchecked, trivial⟩
  unfold prepareTest
  rw [htext]
  dsimp only
  rw [Criteria.readTest?_text (List.cons_ne_nil _ _) hall, hread, hbindings]

/-- A membership is read as one, with its names looked up whatever it asks for. -/
theorem prepareTest_member (store : Store) (scope : Scope) (hcolumn : IsPlainColumn column) :
    ∃ table name, ∀ {keys : List Value}, keys ≠ [] →
      store.prepareTest scope [(.and, .member column keys false)] =
        if limits.values < keys.length then .error .statement
        else ((Expr.column table name).check store [⟨scope, []⟩]).map fun _ =>
          some (.member (.column table name) (keys.map .bound) false) := by
  obtain ⟨table, name, ts, hts, hexpr, _, _, _⟩ := columnExpr?_plain hcolumn
  refine ⟨table, name, fun {keys} hkeys => ?_⟩
  have hnonempty : keys.isEmpty = false := by simpa using hkeys
  have hmember : (Test.member column keys false).expr? =
      some (.member (.column table name) (keys.map .bound) false) := by
    rw [Test.expr?, hnonempty, hts]
    simp [hexpr]
  have hcheck : Expr.check store [⟨scope, []⟩]
      (.member (.column table name) (keys.map .bound) false) =
        ((Expr.column table name).check store [⟨scope, []⟩] >>= fun _ => .ok ()) := by
    rw [Expr.check.eq_def, ← checkItems_bound store [⟨scope, []⟩] keys]
  have hbindings : (Test.member column keys false).bindings = keys := by
    rw [Test.bindings]
  rw [prepareTest_clause store scope (.and, .member column keys false)
    (IsPlainColumn.valid hcolumn) hmember, hcheck, hbindings]
  cases (Expr.column table name).check store [⟨scope, []⟩] <;> rfl

/-- Clauses that hold fewer levels and values than others on one table are prepared with them. -/
theorem prepare_of_test {store : Store} {source : Source} {columns : List String} {p : Prepared}
    (h : store.prepare false source columns = .ok p) (hjoins : source.joins = [])
    {criteria : Criteria} {test : Option Expr} (htest : store.prepareTest p.scope criteria = .ok test)
    (hfits : sourceFits false test [] = true) :
    store.prepare false { source with criteria := criteria } columns =
      .ok { p with test := test } := by
  obtain ⟨⟨parts⟩, hreach, hlimits⟩ := of_prepare h
  have hnone : p.joined = [] := joined_nil parts hjoins
  have hreduced : p.joined = reduced p.scope test parts.joined := by
    rw [hnone, parts.joined_eq_nil hjoins, reduced_nil]
  refine prepare_of_parts { parts with test_eq := htest, joined_eq := hreduced } ⟨hreach, ?_⟩
  rintro (htables | hcolumns | hheight)
  · exact hlimits (.inl htables)
  · exact hlimits (.inr (.inl hcolumns))
  · dsimp only at hheight
    rw [hnone, hfits] at hheight
    cases hheight

end

end Store

namespace EagerLoad

theorem nodup_displays (values : List Value) : ((distinct values).map Value.display).Nodup := by
  induction values with
  | nil => exact List.nodup_nil
  | cons v values ih =>
    rw [distinct, List.map_cons, List.nodup_cons]
    constructor
    · intro hmem
      obtain ⟨w, hw, hsame⟩ := List.mem_map.mp hmem
      have hne := (List.mem_filter.mp hw).2
      simp [hsame] at hne
    · exact (List.filter_sublist.map Value.display).nodup ih

section

variable {load : EagerLoad} {store : Store} {parents part : List Record}

theorem length_keys_le (hsub : ∀ parent ∈ part, parent ∈ parents) :
    (load.keys part).length ≤ (load.keys parents).length := by
  have hsubset : (load.keys part).map Value.display ⊆ (load.keys parents).map Value.display := by
    intro text hmem
    obtain ⟨key, hkey, rfl⟩ := List.mem_map.mp hmem
    obtain ⟨hnull, parent, hparent, rfl⟩ := of_mem_keys hkey
    obtain ⟨other, hother, hsame⟩ := exists_key (hsub parent hparent) hnull
    exact List.mem_map.mpr ⟨other, hother, hsame⟩
  have hnodup : ((load.keys part).map Value.display).Nodup := nodup_displays _
  have hdisplays := (hnodup.subperm hsubset).length_le
  simpa using hdisplays

/-- A related row equals a key that it is sought by. -/
def Meets (load : EagerLoad) (related : Store.Prepared) (row : Row) (key : Value) : Prop :=
  Cell.compare .eq (load.soughtCell related row) (.ofValue key) = some true

instance (load : EagerLoad) (related : Store.Prepared) (row : Row) (key : Value) :
    Decidable (load.Meets related row key) :=
  inferInstanceAs (Decidable (_ = _))

/-- How the key of a related row looks in its record. -/
def look (load : EagerLoad) (related : Store.Prepared) (row : Row) : String :=
  ((Store.record related.scope related.columns [row]).value load.relation.relatedKey).display

/-- A related row that equals the key of some parent can be read, and also equals each key of a
parent that its own looks like. -/
def KeysTell (load : EagerLoad) (store : Store) (parents : List Record) : Prop :=
  ∀ related, store.prepare false (load.toSelect (load.keys parents)).source load.selectList =
      .ok related →
    ∀ row ∈ related.first.rows, ∀ a ∈ parents,
      load.Meets related row (a.value load.relation.parentKey) →
      Store.legible related.scope related.columns [row] = true ∧
      ∀ b ∈ parents, load.look related row = (b.value load.relation.parentKey).display →
        (b.value load.relation.parentKey).isNull = false →
        load.Meets related row (b.value load.relation.parentKey)

instance (load : EagerLoad) (store : Store) (parents : List Record) :
    Decidable (load.KeysTell store parents) := by
  unfold KeysTell
  infer_instance

theorem seeks_iff {related : Store.Prepared} {row : Row} {keys : List Value} :
    load.seeks related keys row = true ↔ ∃ key ∈ keys, load.Meets related row key := by
  rw [seeks, decide_eq_true_iff, Cell.member_eq_true_iff]
  constructor
  · rintro ⟨item, hitem, hequal⟩
    obtain ⟨key, hkey, rfl⟩ := List.mem_map.mp hitem
    exact ⟨key, hkey, hequal⟩
  · rintro ⟨key, hkey, hmeets⟩
    exact ⟨_, List.mem_map_of_mem hkey, hmeets⟩

/-- Where the keys tell, a row that looks like the key of one of some parents is sought by their
keys if it is by those of all. -/
theorem KeysTell.meets_iff {related : Store.Prepared}
    (htell : load.KeysTell store parents) (hsub : ∀ parent ∈ part, parent ∈ parents)
    (hp : store.prepare false (load.toSelect (load.keys parents)).source load.selectList =
      .ok related) {row : Row} (hrow : row ∈ related.first.rows) {parent : Record}
    (hparent : parent ∈ part) (hnull : (parent.value load.relation.parentKey).isNull = false)
    (hlook : load.look related row = (parent.value load.relation.parentKey).display) :
    (∃ key ∈ load.keys part, load.Meets related row key) ↔
      ∃ key ∈ load.keys parents, load.Meets related row key := by
  -- the key that stands for the parent's among others looks like it, and so like the row
  have hshift : ∀ {some others : List Record}, (∀ r ∈ some, r ∈ parents) →
      (∀ r ∈ others, r ∈ parents) → parent ∈ others →
      (∃ key ∈ load.keys some, load.Meets related row key) →
        ∃ key ∈ load.keys others, load.Meets related row key := by
    rintro some others hsome hothers hmem ⟨key, hkey, hmeets⟩
    obtain ⟨_, a, ha, rfl⟩ := of_mem_keys hkey
    obtain ⟨other, hother, hsame⟩ := exists_key hmem hnull
    obtain ⟨hnull', b, hb, rfl⟩ := of_mem_keys hother
    exact ⟨_, hother, (htell related hp row hrow a (hsome a ha) hmeets).2 b (hothers b hb)
      (hlook.trans hsame.symm) hnull'⟩
  exact ⟨hshift hsub (fun _ hmem => hmem) (hsub parent hparent),
    hshift (fun _ hmem => hmem) hsub hparent⟩

theorem relatedTo_sought {related : Store.Prepared} {keys : List Value} {parent : Record}
    (hnull : (parent.value load.relation.parentKey).isNull = false) :
    load.relatedTo (load.sought related keys) parent = rowsWhere related fun row =>
      load.look related row = (parent.value load.relation.parentKey).display ∧
        ∃ key ∈ keys, load.Meets related row key := by
  unfold relatedTo
  dsimp only
  rw [hnull, sought, rowsWhere, rowsWhere, List.filter_map, List.filter_filter]
  refine congrArg (List.map _) (List.filter_congr fun row _ => ?_)
  rw [Bool.eq_iff_iff, Bool.and_eq_true, decide_eq_true_iff, seeks_iff]
  exact and_congr_left fun _ => decide_eq_true_iff

/-- Where the keys tell, the rows sought by the keys of some parents give each of them what those
sought by the keys of all do. -/
theorem relatedTo_part {related : Store.Prepared} (hsub : ∀ parent ∈ part, parent ∈ parents)
    (htell : load.KeysTell store parents)
    (hp : store.prepare false (load.toSelect (load.keys parents)).source load.selectList =
      .ok related) {parent : Record} (hparent : parent ∈ part) :
    load.relatedTo (load.sought related (load.keys part)) parent =
      load.relatedTo (load.sought related (load.keys parents)) parent := by
  cases hnull : (parent.value load.relation.parentKey).isNull with
  | true => simp [relatedTo, hnull]
  | false =>
    rw [relatedTo_sought hnull, relatedTo_sought hnull]
    refine congrArg (List.map _) (List.filter_congr fun row hrow => ?_)
    have hsame := and_congr_right fun hlook => htell.meets_iff hsub hp hrow hparent hnull hlook
    exact decide_eq_decide.mpr hsame

/-- Fewer keys of the same load can be asked for as well. -/
theorem prepare_fewer {related : Store.Prepared} {keys keys' : List Value}
    (hkey : IsPlainColumn load.relation.relatedKey) (hkeys : keys ≠ []) (hkeys' : keys' ≠ [])
    (hlength : keys'.length ≤ keys.length)
    (hp : store.prepare false (load.toSelect keys).source load.selectList = .ok related) :
    ∃ test, store.prepare false (load.toSelect keys').source load.selectList =
      .ok { related with test := test } := by
  obtain ⟨parts⟩ := Store.preparedBy_of_prepare hp
  obtain ⟨table, name, htests⟩ := Store.prepareTest_member store related.scope hkey
  have htest := parts.test_eq
  have hmember : store.prepareTest related.scope (load.toSelect keys).source.criteria = _ :=
    htests hkeys
  rw [hmember] at htest
  split at htest
  next => cases htest
  next hvalues =>
    obtain ⟨_, hcheck, _⟩ := Except.of_map_ok htest
    have htest' := htests hkeys'
    rw [if_neg (by omega), hcheck] at htest'
    exact ⟨_, Store.prepare_of_test hp rfl htest' (Store.sourceFits_member table name keys')⟩

/-- Where the keys tell, a part of the parents is given what it gets among all. -/
theorem related_part {found : List Record} (hkey : IsPlainColumn load.relation.relatedKey)
    (hsub : ∀ parent ∈ part, parent ∈ parents) (htell : load.KeysTell store parents)
    (h : load.related store parents = .ok found) :
    ∃ found', load.related store part = .ok found' ∧
      ∀ parent ∈ part, load.attach found' parent = load.attach found parent := by
  by_cases hpart : load.keys part = []
  · refine ⟨[], by simp [related, hpart], fun parent hmem => ?_⟩
    have hnull : (parent.value load.relation.parentKey).isNull = true := by
      cases hcase : (parent.value load.relation.parentKey).isNull with
      | true => rfl
      | false =>
        obtain ⟨key, hmem, _⟩ := exists_key hmem hcase
        rw [hpart] at hmem
        cases hmem
    simp [attach, relatedTo, hnull]
  · have hlength : (load.keys part).length ≤ (load.keys parents).length := length_keys_le hsub
    have hall : load.keys parents ≠ [] := by
      intro hnone
      rw [hnone] at hlength
      exact hpart (List.length_eq_zero_iff.mp (Nat.le_zero.mp hlength))
    obtain ⟨p, hp, _, hfound⟩ := of_related hkey hall h
    obtain ⟨test, hp'⟩ := prepare_fewer hkey hall hpart hlength hp
    have hlegible : LegibleWhere p (load.seeks p (load.keys part)) := by
      intro row hrow hseeks
      obtain ⟨key, hmem, hmeets⟩ := seeks_iff.mp hseeks
      obtain ⟨_, parent, hparent, rfl⟩ := of_mem_keys hmem
      exact (htell p hp row hrow parent (hsub parent hparent) hmeets).1
    have hselect : store.select (load.toSelect (load.keys part)) =
        .ok (load.sought p (load.keys part)) := by
      rw [select_sought hkey hp']
      exact readWhere_eq_ok_iff.mpr ⟨hlegible, rfl⟩
    refine ⟨load.sought p (load.keys part), ?_, fun parent hmem => ?_⟩
    · simpa [related, hpart] using hselect
    · rw [attach, attach, relatedTo_part hsub htell hp hmem, hfound]

end

/-- The keys of each load tell among the parents that the loads before it have made. -/
def AllTell (store : Store) : List EagerLoad → List Record → Prop
  | [], _ => True
  | load :: loads, parents =>
    load.KeysTell store parents ∧
      ∀ found, load.related store parents = .ok found →
        AllTell store loads (parents.map (load.attach found))

instance decidableAllTell (store : Store) :
    ∀ loads parents, Decidable (AllTell store loads parents)
  | [], _ => isTrue trivial
  | load :: loads, parents =>
    have := fun found : List Record => decidableAllTell store loads (parents.map (load.attach found))
    inferInstanceAs (Decidable (load.KeysTell store parents ∧
      ∀ found, load.related store parents = .ok found →
        AllTell store loads (parents.map (load.attach found))))

/-- Loads do to a part of the parents what they do to it among all. -/
theorem attachAll_part {store : Store} {loads : List EagerLoad} {parents part rows : List Record}
    (hkeys : ∀ load ∈ loads, IsPlainColumn load.relation.relatedKey)
    (hsub : ∀ parent ∈ part, parent ∈ parents) (htell : AllTell store loads parents)
    (h : attachAll store loads parents = .ok rows) :
    ∃ change : Record → Record, rows = parents.map change ∧
      attachAll store loads part = .ok (part.map change) := by
  -- each load changes the records, so the later ones see both the part and all as it left them
  induction loads generalizing parents part with
  | nil =>
    cases h
    exact ⟨id, (List.map_id _).symm, by rw [attachAll, List.map_id]⟩
  | cons load loads ih =>
    obtain ⟨hfirst, hlater⟩ := htell
    obtain ⟨found, hfound, hrest⟩ := Except.of_bind_ok h
    obtain ⟨found', hfound', hattach⟩ :=
      related_part (hkeys load List.mem_cons_self) hsub hfirst hfound
    have hpart : part.map (load.attach found') = part.map (load.attach found) :=
      List.map_congr_left hattach
    have hsub' : ∀ parent ∈ part.map (load.attach found),
        parent ∈ parents.map (load.attach found) := by
      intro parent hmem
      obtain ⟨bare, hbare, rfl⟩ := List.mem_map.mp hmem
      exact List.mem_map_of_mem (hsub bare hbare)
    obtain ⟨change, hrows, hchange⟩ := ih
      (fun other hmem => hkeys other (List.mem_cons_of_mem _ hmem)) hsub' (hlater found hfound)
      hrest
    refine ⟨change ∘ load.attach found, by rw [hrows, List.map_map], ?_⟩
    rw [attachAll, hfound']
    change attachAll store loads (part.map (load.attach found')) = _
    rw [hpart, hchange, List.map_map]

end EagerLoad

end TableQuery
