import Mathlib.Logic.Function.Basic
import Owls.Objects

/-!
# The tables of `StorageService`

Both tables have `id` as their primary key.
-/

namespace Owls

theorem update_eq_some {κ α : Type*} [DecidableEq κ] {f : κ → Option α} {a b : κ} {x : Option α}
    {v : α} (h : Function.update f a x b = some v) : b = a ∧ x = some v ∨ f b = some v := by
  by_cases hb : b = a
  · subst hb
    rw [Function.update_self] at h
    exact .inl ⟨rfl, h⟩
  · rw [Function.update_of_ne hb] at h
    exact .inr h

/-! ## Simulation definitions -/

/-- The table of the definitions: each record sits under its own `id`. -/
structure SimulationDB where
  getRecord : String → Option SimulationDetails := fun _ => none
  id_eq : ∀ id s, getRecord id = some s → s.id = id := by intro _ _ h; cases h

namespace SimulationDB

theorem id_eq_none (id : String) (s : SimulationDetails) :
    (fun _ => none : String → Option SimulationDetails) id = some s → s.id = id := nofun

def empty : SimulationDB := ⟨fun _ => none, id_eq_none⟩

def put (t : SimulationDB) (s : SimulationDetails) : SimulationDB where
  getRecord := Function.update t.getRecord s.id (some s)
  id_eq id s' h := by
    rcases update_eq_some h with ⟨rfl, hs⟩ | h
    · rw [Option.some.inj hs]
    · exact t.id_eq id s' h

def deleteRecord (t : SimulationDB) (id : String) : SimulationDB where
  getRecord := Function.update t.getRecord id none
  id_eq id' s h := by
    rcases update_eq_some h with ⟨_, hs⟩ | h
    · cases hs
    · exact t.id_eq id' s h

/-- `none`: the key is in use. -/
def createRecord (t : SimulationDB) (s : SimulationDetails) : Option SimulationDB :=
  if (t.getRecord s.id).isNone then some (t.put s) else none

variable {t : SimulationDB} {s s' : SimulationDetails} {id id' : String}

theorem getRecord_put (h : (t.put s).getRecord id = some s') :
    s' = s ∨ t.getRecord id = some s' := by
  rcases update_eq_some h with ⟨_, hs⟩ | h
  · exact .inl (Option.some.inj hs).symm
  · exact .inr h

theorem getRecord_put_self (t : SimulationDB) (s : SimulationDetails) :
    (t.put s).getRecord s.id = some s := Function.update_self ..

theorem getRecord_deleteRecord (h : (t.deleteRecord id).getRecord id' = some s) :
    t.getRecord id' = some s := by
  rcases update_eq_some h with ⟨_, hs⟩ | h
  · cases hs
  · exact h

end SimulationDB

/-! ## Results -/

abbrev SimulationResultsDB := List SimulationStatus

/-- `Convert`: the table has no column for `expectedDevices`. -/
def SimulationStatus.row (s : SimulationStatus) : SimulationStatus :=
  { s with expectedDevices := 0 }

/-- The insertion is lost when the database fails (`written` is false) or the key is in use. -/
def SimulationResultsDB.createRecord (t : SimulationResultsDB) (s : SimulationStatus)
    (written : Bool) : SimulationResultsDB :=
  if written && t.all (·.id != s.id) then t ++ [s.row] else t

end Owls
