import Owls.Base.Word

/-!
# Query parameters

`RESTAPIHandler::ParseParameters`: the parameters of a request and its query block.
-/

open Word

namespace Owls

abbrev Parameters := List (String × String)

/-- What the modelled handlers read of `QB_`. -/
structure QueryBlock where
  startDate : UInt64 := 0
  endDate : UInt64 := 0
  offset : UInt64 := 0
  limit : UInt64 := 0
  logType : UInt64 := 0

/-- `HasParameter`: the value of the first parameter of that name. -/
def hasParameter (ps : Parameters) (name : String) : Option String := ps.lookup name

def getParameter (ps : Parameters) (name : String) (dflt : String) : String :=
  (ps.lookup name).getD dflt

/-- `GetParameter` for a number. `none`: `std::stoull` throws `std::out_of_range`. -/
def getParameterNumber (ps : Parameters) (name : String) (dflt : UInt64) : Option UInt64 :=
  match ps.lookup name with
  | none => some dflt
  | some v => if isNumber v then ofDecimal? v else some dflt

def initQueryBlock (ps : Parameters) : Option QueryBlock := do
  let startDate ← getParameterNumber ps "startDate" 0
  let endDate ← getParameterNumber ps "endDate" 0
  let offset ← getParameterNumber ps "offset" 0
  let limit ← getParameterNumber ps "limit" 100
  let logType ← getParameterNumber ps "logType" 0
  return { startDate, endDate, offset, limit, logType }

theorem getParameterNumber_toDecimal {ps : Parameters} {name : String} {n dflt : UInt64}
    (h : ps.lookup name = some (toDecimal n)) : getParameterNumber ps name dflt = some n := by
  rw [getParameterNumber, h]
  simp only [isNumber_toDecimal, if_true]
  exact ofDecimal?_toDecimal n

end Owls
