import Owls.Bindings
import Owls.Requests

/-!
# The query block

`ParseParameters` with the whole of `InitQueryBlock`. `is_number` takes digit strings of any
length, and `std::stoull` those of 64 bits.
-/

open Exits Word

namespace Owls.QueryParameters

open RESTAPIHandler (Thrown)

/-! ## The block -/

structure Block extends QueryBlock where
  serialNumber : String := ""
  filter : String := ""
  select : List String := []
  lifetime : Bool := false
  lastOnly : Bool := false
  newest : Bool := false
  countOnly : Bool := false
  additionalInfo : Bool := false

def getBoolParameter (ps : Parameters) (name : String) (dflt : Bool) : Bool :=
  match ps.lookup name with
  | none => dflt
  | some v => if v = "true" ∨ v = "false" then v == "true" else dflt

/-- `InitQueryBlock` of a fresh handler. `none`: `std::out_of_range`. -/
def initBlock (ps : Parameters) : Option Block := do
  let serialNumber := getParameter ps "serialNumber" ""
  let startDate ← getParameterNumber ps "startDate" 0
  let endDate ← getParameterNumber ps "endDate" 0
  let offset ← getParameterNumber ps "offset" 0
  let limit ← getParameterNumber ps "limit" 100
  let filter := getParameter ps "filter" ""
  let lifetime := getBoolParameter ps "lifetime" false
  let logType ← getParameterNumber ps "logType" 0
  let lastOnly := getBoolParameter ps "lastOnly" false
  let newest := getBoolParameter ps "newest" false
  let countOnly := getBoolParameter ps "countOnly" false
  let additionalInfo := getBoolParameter ps "withExtendedInfo" false
  let select := Router.stringTokenizer (getParameter ps "select" "") ','
  return { serialNumber, startDate, endDate, offset := if offset < 1 then 0 else offset, limit,
           filter, lifetime, logType, lastOnly, newest, countOnly, additionalInfo, select }

/-- The parameters of the URI, and `none` where `Poco::URI` throws: a `Poco::Exception`. -/
def parseParameters : Option Parameters → Except Thrown (Parameters × Block)
  | none => .error .poco
  | some ps =>
    match initBlock ps with
    | none => .error .std
    | some block => .ok (ps, block)

/-- The parameters that are read as numbers: those of the block, and the one of `DoPost`. -/
def numericNames : List String := ["startDate", "endDate", "offset", "limit", "logType", "index"]

/-! ## Numbers -/

def decimalValue (s : String) : Nat := Nat.ofDigitChars 10 s.toList 0

/-- The decimal value of the first parameter of that name, or the default. -/
def Yields (ps : Parameters) (name : String) (dflt v : UInt64) : Prop :=
  match ps.lookup name with
  | none => v = dflt
  | some s => if isNumber s then v.toNat = decimalValue s else v = dflt

def Fits (ps : Parameters) (name : String) : Prop :=
  ∀ s, ps.lookup name = some s → isNumber s = true → decimalValue s < 2 ^ 64

structure Numeric (ps : Parameters) (block : Block) (index : UInt64) : Prop where
  startDate : Yields ps "startDate" 0 block.startDate
  endDate : Yields ps "endDate" 0 block.endDate
  offset : Yields ps "offset" 0 block.offset
  limit : Yields ps "limit" 100 block.limit
  logType : Yields ps "logType" 0 block.logType
  index : Yields ps "index" 0 index

variable {ps : Parameters} {name s : String} {dflt v : UInt64} {block : Block}

theorem ofDecimal?_eq_some (h : ofDecimal? s = some v) : v.toNat = decimalValue s := by
  simp only [ofDecimal?] at h
  split at h
  · rename_i hlt
    obtain rfl := Option.some.inj h
    exact UInt64.toNat_ofNat_of_lt' hlt
  · cases h

theorem yields_of_read (h : getParameterNumber ps name dflt = some v) : Yields ps name dflt v := by
  unfold getParameterNumber at h
  unfold Yields
  cases hs : ps.lookup name with
  | none =>
    rw [hs] at h
    exact (Option.some.inj h).symm
  | some s =>
    simp only [hs] at h
    by_cases hnum : isNumber s = true
    · simp only [hnum, if_true] at h ⊢
      exact ofDecimal?_eq_some h
    · simp only [hnum] at h ⊢
      exact (Option.some.inj h).symm

theorem read_iff (dflt : UInt64) : (∃ v, getParameterNumber ps name dflt = some v) ↔ Fits ps name := by
  unfold getParameterNumber Fits
  cases hs : ps.lookup name with
  | none => simp
  | some s =>
    by_cases hnum : isNumber s = true
    · simp only [hnum, if_true, ofDecimal?, Option.some.injEq, forall_eq', forall_const]
      change (∃ v, (if decimalValue s < UInt64.size then some _ else none) = some v) ↔
        decimalValue s < UInt64.size
      split <;> simp_all
    · simp [hnum]

/-! ## The block of a request -/

theorem atLeastZero (v : UInt64) : (if v < 1 then 0 else v) = v := by
  split
  · rename_i hlt
    rw [UInt64.lt_iff_toNat_lt] at hlt
    exact UInt64.toNat_inj.mp (Nat.lt_one_iff.mp hlt).symm
  · rfl

theorem initBlock_eq_some (h : initBlock ps = some block) :
    getParameterNumber ps "startDate" 0 = some block.startDate ∧
      getParameterNumber ps "endDate" 0 = some block.endDate ∧
      getParameterNumber ps "offset" 0 = some block.offset ∧
      getParameterNumber ps "limit" 100 = some block.limit ∧
      getParameterNumber ps "logType" 0 = some block.logType := by
  simp only [initBlock, Option.bind_eq_bind, Option.bind_eq_some_iff] at h
  obtain ⟨_, hstart, _, hend, offset, hoffset, _, hlimit, _, hlog, h⟩ := h
  cases h
  exact ⟨hstart, hend, by rw [hoffset, atLeastZero], hlimit, hlog⟩

theorem initBlock_iff :
    (∃ block, initBlock ps = some block) ↔
      ∀ name ∈ ["startDate", "endDate", "offset", "limit", "logType"], Fits ps name := by
  constructor
  · rintro ⟨block, h⟩
    obtain ⟨hstart, hend, hoffset, hlimit, hlog⟩ := initBlock_eq_some h
    simp only [List.forall_mem_cons, List.not_mem_nil, false_imp_iff, implies_true, and_true]
    exact ⟨(read_iff _).mp ⟨_, hstart⟩, (read_iff _).mp ⟨_, hend⟩, (read_iff _).mp ⟨_, hoffset⟩,
      (read_iff _).mp ⟨_, hlimit⟩, (read_iff _).mp ⟨_, hlog⟩⟩
  · intro h
    simp only [List.forall_mem_cons, List.not_mem_nil, false_imp_iff, implies_true, and_true] at h
    obtain ⟨hstart, hend, hoffset, hlimit, hlog⟩ := h
    obtain ⟨_, hstart⟩ := (read_iff 0).mpr hstart
    obtain ⟨_, hend⟩ := (read_iff 0).mpr hend
    obtain ⟨_, hoffset⟩ := (read_iff 0).mpr hoffset
    obtain ⟨_, hlimit⟩ := (read_iff 100).mpr hlimit
    obtain ⟨_, hlog⟩ := (read_iff 0).mpr hlog
    simp [initBlock, hstart, hend, hoffset, hlimit, hlog]

theorem toQueryBlock_initBlock (ps : Parameters) :
    (initBlock ps).map Block.toQueryBlock = initQueryBlock ps := by
  simp only [initBlock, initQueryBlock, atLeastZero]
  cases getParameterNumber ps "startDate" 0
  · rfl
  cases getParameterNumber ps "endDate" 0
  · rfl
  cases getParameterNumber ps "offset" 0
  · rfl
  cases getParameterNumber ps "limit" 100
  · rfl
  cases getParameterNumber ps "logType" 0
  · rfl
  rfl

theorem parseParameters_ends {V : Type} {w : RESTAPIHandler.World V} {r : RESTAPIHandler.Request}
    {path : String} {parsed : Option Parameters} (s : RESTAPIHandler.Handling V)
    (h : w.uri r.uri = parsed.elim (.error .poco) fun ps => .ok (path, ps)) :
    (RESTAPIHandler.parseParameters w r s).1 =
      match parseParameters parsed with
      | .ok _ => .value ()
      | .error e => .thrown e := by
  cases parsed with
  | none =>
    simp only [Option.elim] at h
    unfold RESTAPIHandler.parseParameters
    rw [h]
    rfl
  | some ps =>
    simp only [Option.elim] at h
    have hblock := toQueryBlock_initBlock ps
    unfold RESTAPIHandler.parseParameters parseParameters
    rw [h]
    cases hfull : initBlock ps <;> rw [hfull, Option.map] at hblock <;>
      simp [bind, Call.bind, RESTAPIHandler.attempt, pure, Call.modify, Call.throw, ← hblock, hfull]

/-- Parsing ends without an exception that `handleRequest` does not catch, and reads every
numeric parameter, in exactly the cases in which their values have 64 bits. -/
theorem parameters_read_iff (parsed : Option Parameters) :
    (parseParameters parsed ≠ .error .std ∧ ∀ ps, parsed = some ps →
      ∃ block index, parseParameters parsed = .ok (ps, block) ∧
        getParameterNumber ps "index" 0 = some index ∧ Numeric ps block index) ↔
      ∀ ps, parsed = some ps → ∀ name ∈ numericNames, Fits ps name := by
  constructor
  · rintro ⟨-, hread⟩ ps rfl
    obtain ⟨block, index, hparse, hindex, -⟩ := hread ps rfl
    have hblock : ∃ block, initBlock ps = some block := by
      rw [← Option.ne_none_iff_exists']
      intro hnone
      simp [parseParameters, hnone] at hparse
    have hfits := initBlock_iff.mp hblock
    have hfits' := (read_iff 0).mp ⟨index, hindex⟩
    simp only [List.forall_mem_cons, numericNames] at hfits ⊢
    tauto
  · intro hfits
    cases parsed with
    | none => exact ⟨by simp [parseParameters], fun _ h => nomatch h⟩
    | some ps =>
      have hall := hfits ps rfl
      obtain ⟨block, hblock⟩ := initBlock_iff.mpr fun name hname => hall name (by
        simp only [numericNames, List.mem_cons, List.not_mem_nil, or_false] at hname ⊢
        tauto)
      obtain ⟨index, hindex⟩ := (read_iff 0).mpr (hall "index" (by simp [numericNames]))
      have hparse : parseParameters (some ps) = .ok (ps, block) := by
        simp [parseParameters, hblock]
      refine ⟨by simp [hparse], fun ps' h => ?_⟩
      obtain rfl := Option.some.inj h
      obtain ⟨hstart, hend, hoffset, hlimit, hlog⟩ := initBlock_eq_some hblock
      exact ⟨block, index, hparse, hindex, ⟨yields_of_read hstart, yields_of_read hend,
        yields_of_read hoffset, yields_of_read hlimit, yields_of_read hlog,
        yields_of_read hindex⟩⟩

theorem limit_out_of_range :
    ¬ ∀ parsed : Option Parameters, parseParameters parsed ≠ .error .std ∧
      ∀ ps, parsed = some ps → ∃ block index, parseParameters parsed = .ok (ps, block) ∧
        getParameterNumber ps "index" 0 = some index ∧ Numeric ps block index := by
  intro h
  exact (h (some [("limit", "18446744073709551616")])).1 rfl

end Owls.QueryParameters
