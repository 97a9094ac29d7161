import TableQuery.Config
import TableQuery.Proofs.AddressablePages
import TableQuery.Proofs.RunSteps
import TableQuery.Proofs.WrittenIntegers

namespace TableQuery

namespace Config

/-- The variables that hold a number. -/
inductive NumberVariable
  | connections
  | seconds
  | pageSize
  | unlimited
deriving DecidableEq

namespace NumberVariable

variable {v : NumberVariable} {lookup : String → Option String} {m n : Int}

def name : NumberVariable → String
  | connections => "DATABASE_MAX_CONNECTIONS"
  | seconds => "DATABASE_ACQUIRE_TIMEOUT_SECS"
  | pageSize => "DEFAULT_PAGE_SIZE"
  | unlimited => "UNLIMITED_PAGE_SIZE"

def range : NumberVariable → Text.NumeralRange
  | connections => .nat32
  | seconds => .nat64
  | pageSize => .int64
  | unlimited => .int64

def absent : NumberVariable → Int
  | connections => 10
  | seconds => 10
  | pageSize => 10
  | unlimited => 9999

def read (v : NumberVariable) (lookup : String → Option String) : Except ConfigFault Int :=
  readNumber lookup v.name v.range v.absent

/-- The number that a variable gives: the one it writes, or its default where it is not set. -/
def Gives (v : NumberVariable) (lookup : String → Option String) (n : Int) : Prop :=
  match lookup v.name with
  | some written => v.range.Writes written.toList n
  | none => n = v.absent

/-- The variable is set to what is no integer of its range, and this is the cause. -/
def Faulty (v : NumberVariable) (lookup : String → Option String) (fault : ConfigFault) : Prop :=
  ∃ written cause, lookup v.name = some written ∧
    Text.readInt v.range written.toList = .error cause ∧ fault = .numeral v.name cause

theorem holds_zero (v : NumberVariable) : v.range.Holds 0 := by
  unfold Text.NumeralRange.Holds
  cases v <;> decide

theorem read_eq_ok_iff : v.read lookup = .ok n ↔ v.Gives lookup n := by
  unfold read readNumber Gives
  cases lookup v.name with
  | none => simp [eq_comm]
  | some written =>
    dsimp only
    rw [← Text.readInt_eq_ok_iff v.holds_zero]
    cases Text.readInt v.range written.toList with
    | error cause => simp [Except.mapError]
    | ok k => simp [Except.mapError]

theorem read_eq_error_iff {fault : ConfigFault} :
    v.read lookup = .error fault ↔ v.Faulty lookup fault := by
  unfold read readNumber Faulty
  cases lookup v.name with
  | none => simp
  | some written =>
    cases hread : Text.readInt v.range written.toList with
    | error cause => simp [Except.mapError, hread, eq_comm]
    | ok k => simp [Except.mapError, hread]

theorem Gives.unique (h : v.Gives lookup m) (hother : v.Gives lookup n) : m = n := by
  rw [← read_eq_ok_iff] at h hother
  exact Except.ok.inj (h.symm.trans hother)

theorem Gives.holds (h : v.Gives lookup n) : v.range.Holds n := by
  unfold Gives at h
  split at h
  next => exact h.holds
  next =>
    rw [h]
    unfold Text.NumeralRange.Holds
    cases v <;> decide

end NumberVariable

open NumberVariable

variable {lookup : String → Option String} {c made : Config} {fault : ConfigFault}

/-- The configuration holds what the variables give. A path of the database counts before its
URL. -/
structure ReadFrom (c : Config) (lookup : String → Option String) : Prop where
  databaseUrl : c.databaseUrl =
    ((lookup "DATABASE_PATH").orElse fun _ => lookup "DATABASE_URL").getD
      "sqlite:./data/repokit.db"
  maxConnections : connections.Gives lookup c.maxConnections
  acquireSeconds : seconds.Gives lookup c.acquireSeconds
  defaultPageSize : pageSize.Gives lookup c.defaultPageSize
  unlimitedPageSize : unlimited.Gives lookup c.unlimitedPageSize

/-- There is a connection, and pages have a size between one and the greatest. -/
structure Usable (c : Config) : Prop where
  connection : 1 ≤ c.maxConnections
  leastSize : 1 ≤ c.defaultPageSize
  greatestSize : c.defaultPageSize ≤ c.unlimitedPageSize

/-- What the variables give, before its sizes are looked at. -/
def given (lookup : String → Option String) (connections seconds pageSize unlimited : Int) :
    Config where
  databaseUrl := ((lookup "DATABASE_PATH").orElse fun _ => lookup "DATABASE_URL").getD
    "sqlite:./data/repokit.db"
  maxConnections := connections
  acquireSeconds := seconds
  defaultPageSize := pageSize
  unlimitedPageSize := unlimited

theorem read_eq (lookup : String → Option String) :
    read lookup = (do
      let connections ← connections.read lookup
      let seconds ← seconds.read lookup
      let pageSize ← pageSize.read lookup
      let unlimited ← unlimited.read lookup
      checked (given lookup connections seconds pageSize unlimited)) :=
  rfl

theorem checked_eq_ok_iff (h : 0 ≤ c.maxConnections) :
    checked c = .ok made ↔ made = c ∧ c.Usable := by
  unfold checked
  split
  next hnone => exact iff_of_false nofun fun ⟨_, husable⟩ => absurd husable.connection (by omega)
  next hsome =>
    split
    next hsizes =>
      refine iff_of_false nofun fun ⟨_, husable⟩ => ?_
      have := husable.leastSize
      have := husable.greatestSize
      omega
    next hsizes =>
      rw [Except.ok.injEq]
      constructor
      · rintro rfl
        exact ⟨rfl, by omega, by omega, by omega⟩
      · exact fun hmade => hmade.1.symm

theorem checked_eq_error_iff (h : 0 ≤ c.maxConnections) :
    checked c = .error fault ↔
      (c.maxConnections < 1 ∧ fault = .noConnection) ∨
        (1 ≤ c.maxConnections ∧ ¬(1 ≤ c.defaultPageSize ∧ c.defaultPageSize ≤ c.unlimitedPageSize) ∧
          fault = .pageSizes c.defaultPageSize c.unlimitedPageSize) := by
  unfold checked
  split
  next hnone => simp [hnone, eq_comm]
  next hsome =>
    have hone : 1 ≤ c.maxConnections := by omega
    split
    next hsizes =>
      have hbounds : ¬(1 ≤ c.defaultPageSize ∧ c.defaultPageSize ≤ c.unlimitedPageSize) := by omega
      simp [hone, Int.not_lt.mpr hone, hbounds, eq_comm]
    next hsizes =>
      have hbounds : 1 ≤ c.defaultPageSize ∧ c.defaultPageSize ≤ c.unlimitedPageSize := by omega
      simp [Int.not_lt.mpr hone, hbounds]

theorem read_eq_ok_iff : read lookup = .ok c ↔ c.ReadFrom lookup ∧ c.Usable := by
  simp only [read_eq, Except.bind_eq_ok_iff, NumberVariable.read_eq_ok_iff]
  constructor
  · rintro ⟨m, hm, n, hn, size, hsize, greatest, hgreatest, h⟩
    have hleast : 0 ≤ (given lookup m n size greatest).maxConnections := hm.holds.1
    obtain ⟨rfl, husable⟩ := (checked_eq_ok_iff hleast).mp h
    exact ⟨⟨rfl, hm, hn, hsize, hgreatest⟩, husable⟩
  · rintro ⟨⟨hurl, hm, hn, hsize, hgreatest⟩, husable⟩
    refine ⟨_, hm, _, hn, _, hsize, _, hgreatest, ?_⟩
    have hgiven : given lookup c.maxConnections c.acquireSeconds c.defaultPageSize
        c.unlimitedPageSize = c := by
      unfold given
      rw [← hurl]
    rw [hgiven]
    exact (checked_eq_ok_iff hm.holds.1).mpr ⟨rfl, husable⟩

/-- What is looked at while variables are read. -/
inductive Check
  | number (v : NumberVariable)
  | connection
  | pageSizes

/-- The checks in their order. -/
def checks : List Check :=
  [.number connections, .number seconds, .number pageSize, .number unlimited, .connection,
    .pageSizes]

def Check.Passes (lookup : String → Option String) : Check → Prop
  | number v => ∃ n, v.Gives lookup n
  | connection => ∃ n, connections.Gives lookup n ∧ 1 ≤ n
  | pageSizes => ∃ size greatest, pageSize.Gives lookup size ∧
      unlimited.Gives lookup greatest ∧ 1 ≤ size ∧ size ≤ greatest

/-- The fault that a check reports where it does not pass. -/
def Check.Reports (lookup : String → Option String) (fault : ConfigFault) : Check → Prop
  | number v => v.Faulty lookup fault
  | connection => fault = .noConnection
  | pageSizes => ∃ size greatest, pageSize.Gives lookup size ∧
      unlimited.Gives lookup greatest ∧ fault = .pageSizes size greatest

/-- The fault is that of the first check that does not pass. -/
inductive FirstFault (lookup : String → Option String) (fault : ConfigFault) : List Check → Prop
  | here {check : Check} {rest : List Check} (hfails : ¬check.Passes lookup)
      (hreports : check.Reports lookup fault) : FirstFault lookup fault (check :: rest)
  | later {check : Check} {rest : List Check} (hpasses : check.Passes lookup)
      (hrest : FirstFault lookup fault rest) : FirstFault lookup fault (check :: rest)

namespace FirstFault

variable {check : Check} {rest : List Check}

theorem not_nil : ¬FirstFault lookup fault [] :=
  nofun

theorem cons_iff : FirstFault lookup fault (check :: rest) ↔
    (¬check.Passes lookup ∧ check.Reports lookup fault) ∨
      check.Passes lookup ∧ FirstFault lookup fault rest := by
  constructor
  · intro h
    cases h with
    | here hfails hreports => exact .inl ⟨hfails, hreports⟩
    | later hpasses hrest => exact .inr ⟨hpasses, hrest⟩
  · rintro (⟨hfails, hreports⟩ | ⟨hpasses, hrest⟩)
    · exact .here hfails hreports
    · exact .later hpasses hrest

/-- A number that can be read leaves the checks behind it, one that cannot ends them. -/
theorem number_iff {v : NumberVariable} : FirstFault lookup fault (.number v :: rest) ↔
    v.read lookup = .error fault ∨
      ∃ n, v.read lookup = .ok n ∧ FirstFault lookup fault rest := by
  have hpasses : Check.Passes lookup (.number v) ↔ ∃ n, v.read lookup = .ok n :=
    exists_congr fun n => NumberVariable.read_eq_ok_iff.symm
  have hreports : Check.Reports lookup fault (.number v) ↔ v.read lookup = .error fault :=
    NumberVariable.read_eq_error_iff.symm
  rw [cons_iff, hpasses, hreports]
  cases v.read lookup with
  | error cause => simp
  | ok n => simp

theorem connection_iff {m : Int} (hm : connections.Gives lookup m) :
    FirstFault lookup fault (.connection :: rest) ↔
      (m < 1 ∧ fault = .noConnection) ∨ (1 ≤ m ∧ FirstFault lookup fault rest) := by
  have hpasses : Check.Passes lookup .connection ↔ 1 ≤ m := by
    constructor
    · rintro ⟨n, hn, hone⟩
      rwa [hm.unique hn]
    · exact fun hone => ⟨m, hm, hone⟩
  rw [cons_iff, hpasses, Int.not_le]
  exact Iff.rfl

theorem pageSizes_iff {size greatest : Int} (hsize : pageSize.Gives lookup size)
    (hgreatest : unlimited.Gives lookup greatest) :
    FirstFault lookup fault (.pageSizes :: rest) ↔
      (¬(1 ≤ size ∧ size ≤ greatest) ∧ fault = .pageSizes size greatest) ∨
        ((1 ≤ size ∧ size ≤ greatest) ∧ FirstFault lookup fault rest) := by
  have hpasses : Check.Passes lookup .pageSizes ↔ 1 ≤ size ∧ size ≤ greatest := by
    constructor
    · rintro ⟨s, g, hs, hg, hbounds⟩
      rwa [hsize.unique hs, hgreatest.unique hg]
    · exact fun hbounds => ⟨size, greatest, hsize, hgreatest, hbounds⟩
  have hreports : Check.Reports lookup fault .pageSizes ↔ fault = .pageSizes size greatest := by
    constructor
    · rintro ⟨s, g, hs, hg, rfl⟩
      rw [hsize.unique hs, hgreatest.unique hg]
    · exact fun hfault => ⟨size, greatest, hsize, hgreatest, hfault⟩
  rw [cons_iff, hpasses, hreports]

theorem exists_not_passes {cs : List Check} (h : FirstFault lookup fault cs) :
    ∃ check ∈ cs, ¬check.Passes lookup := by
  induction h with
  | here hfails _ => exact ⟨_, List.mem_cons_self, hfails⟩
  | later _ _ ih =>
    obtain ⟨check, hmem, hfails⟩ := ih
    exact ⟨check, List.mem_cons_of_mem _ hmem, hfails⟩

end FirstFault

theorem read_eq_error_iff : read lookup = .error fault ↔ FirstFault lookup fault checks := by
  unfold checks
  rw [read_eq, Except.bind_eq_error_iff, FirstFault.number_iff]
  refine or_congr_right (exists_congr fun m => and_congr_right fun hm => ?_)
  rw [Except.bind_eq_error_iff, FirstFault.number_iff]
  refine or_congr_right (exists_congr fun n => and_congr_right fun _ => ?_)
  rw [Except.bind_eq_error_iff, FirstFault.number_iff]
  refine or_congr_right (exists_congr fun size => and_congr_right fun hsize => ?_)
  rw [Except.bind_eq_error_iff, FirstFault.number_iff]
  refine or_congr_right (exists_congr fun greatest => and_congr_right fun hgreatest => ?_)
  rw [NumberVariable.read_eq_ok_iff] at hm hsize hgreatest
  have hleast : 0 ≤ (given lookup m n size greatest).maxConnections := hm.holds.1
  rw [checked_eq_error_iff hleast, FirstFault.connection_iff hm,
    FirstFault.pageSizes_iff hsize hgreatest]
  simp only [FirstFault.not_nil, and_false, or_false]
  exact Iff.rfl

/-- A number that cannot be read counts before a number that is too small. -/
example : read (fun name =>
    if name = "DATABASE_MAX_CONNECTIONS" then some "0"
    else if name = "DEFAULT_PAGE_SIZE" then some "ten" else none) =
      .error (.numeral "DEFAULT_PAGE_SIZE" .invalidDigit) := by
  decide +kernel

theorem exists_read_iff :
    (∃ c, read lookup = .ok c) ↔ ∀ check ∈ checks, check.Passes lookup := by
  constructor
  · rintro ⟨c, h⟩
    obtain ⟨⟨_, hm, hn, hsize, hgreatest⟩, hone, hleast, hmost⟩ := read_eq_ok_iff.mp h
    simp only [checks, List.forall_mem_cons, List.not_mem_nil, false_implies, implies_true,
      and_true]
    exact ⟨⟨_, hm⟩, ⟨_, hn⟩, ⟨_, hsize⟩, ⟨_, hgreatest⟩, ⟨_, hm, hone⟩,
      ⟨_, _, hsize, hgreatest, hleast, hmost⟩⟩
  · intro hall
    cases h : read lookup with
    | ok c => exact ⟨c, rfl⟩
    | error fault =>
      obtain ⟨check, hmem, hfails⟩ := (read_eq_error_iff.mp h).exists_not_passes
      exact absurd (hall check hmem) hfails

/-- The page for a request that asks for a size, or for none, by the limits of a configuration. -/
structure Sizes (c : Config) (size : Option Int) (p : Page) : Prop where
  least : 1 ≤ p.size
  most : p.size ≤ c.unlimitedPageSize
  kept : ∀ s ∈ size, 1 ≤ s → s ≤ c.unlimitedPageSize → p.size = s
  cut : ∀ s ∈ size, c.unlimitedPageSize < s → p.size = c.unlimitedPageSize
  absent : (∀ s ∈ size, s < 1) → p.size = c.defaultPageSize

theorem Usable.sizes (h : c.Usable) (number size : Option Int) :
    c.Sizes size (Page.ofRequest number size c.pageLimits) := by
  obtain ⟨_, hleast, hmost⟩ := h
  cases size with
  | none =>
    have hsize : (Page.ofRequest number none c.pageLimits).size = max c.defaultPageSize 1 := rfl
    exact ⟨by omega, by omega, nofun, nofun, fun _ => by omega⟩
  | some s =>
    have hsize : (Page.ofRequest number (some s) c.pageLimits).size =
        max (if 1 ≤ s then min s c.unlimitedPageSize else c.defaultPageSize) 1 := rfl
    by_cases hone : 1 ≤ s
    · rw [if_pos hone] at hsize
      refine ⟨by omega, by omega, ?_, ?_, fun hnone => ?_⟩
      · rintro _ ⟨⟩ _ hfits
        omega
      · rintro _ ⟨⟩ hgreat
        omega
      · have := hnone s rfl
        omega
    · rw [if_neg hone] at hsize
      refine ⟨by omega, by omega, ?_, ?_, fun _ => by omega⟩
      · rintro _ ⟨⟩ hleast
        omega
      · rintro _ ⟨⟩ hgreat
        omega

/-- What is loaded can be used: the variables are accepted where every check passes, the fault is
that of the first one that does not, and each request is given a page between one and the greatest
size, the size asked for where it is one of these. -/
theorem read_gives_usable_limits (lookup : String → Option String) :
    (∀ c, read lookup = .ok c ↔ c.ReadFrom lookup ∧ c.Usable) ∧
    ((∃ c, read lookup = .ok c) ↔ ∀ check ∈ checks, check.Passes lookup) ∧
    (∀ fault, read lookup = .error fault ↔ FirstFault lookup fault checks) ∧
    ∀ c, read lookup = .ok c → ∀ number size : Option Int,
      c.Sizes size (Page.ofRequest number size c.pageLimits) := by
  refine ⟨fun c => read_eq_ok_iff, exists_read_iff, fun fault => read_eq_error_iff, ?_⟩
  intro c h number size
  exact (read_eq_ok_iff.mp h).2.sizes number size

/-- Variables with signs and leading zeros. -/
def signedSizes : String → Option String
  | "DATABASE_MAX_CONNECTIONS" => some "007"
  | "DEFAULT_PAGE_SIZE" => some "+25"
  | "UNLIMITED_PAGE_SIZE" => some "0500"
  | _ => none

theorem signedSizes_give_limits :
    ∃ c, read signedSizes = .ok c ∧
      (Page.ofRequest (some 3) (some 80) c.pageLimits).size = 80 ∧
      (Page.ofRequest (some 3) (some 1000) c.pageLimits).size = 500 ∧
      (Page.ofRequest none (some (-4)) c.pageLimits).size = 25 := by
  have hread : read signedSizes =
      .ok { maxConnections := 7, defaultPageSize := 25, unlimitedPageSize := 500 } := by
    decide +kernel
  have hsizes := (read_gives_usable_limits signedSizes).2.2.2 _ hread
  refine ⟨_, hread, ?_, ?_, ?_⟩
  · exact (hsizes (some 3) (some 80)).kept 80 rfl (by decide) (by decide)
  · exact (hsizes (some 3) (some 1000)).cut 1000 rfl (by decide)
  · refine (hsizes none (some (-4))).absent ?_
    rintro _ ⟨⟩
    decide

end Config

end TableQuery
