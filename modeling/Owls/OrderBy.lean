import Owls.Bindings
import Owls.Statements

/-!
# The order of the records

`PrepareOrderBy`: a list of fields and directions, as a request has it, and the clause that is made of
it.
-/

open Separators Sql

namespace Owls.ORM

open Router (stringTokenizer stringTokenizer_intercalate)

/-! ## The code -/

/-- The loop over the items. `none`: it has returned false. -/
def orderItems (db : DB) : String → List String → Option String
  | itemList, [] => some itemList
  | itemList, i :: items =>
    match stringTokenizer i ':' with
    | [name, direction] =>
      if direction ≠ "a" ∧ direction ≠ "d" then none
      else if db.validFieldName name then
        orderItems db
          ((if itemList = "" then itemList else itemList ++ " , ") ++
            (name ++ if direction = "a" then " ASC" else " DESC")) items
      else none
    | _ => none

/-- The result, and `OrderByString` after the call. -/
def prepareOrderBy (db : DB) (orderByList orderByString : String) : Bool × String :=
  match orderItems db "" (stringTokenizer orderByList ',') with
  | none => (false, orderByString)
  | some itemList =>
    (true, if itemList = "" then orderByString else " ORDER BY " ++ itemList)

/-! ## The grammar -/

structure OrderItem where
  name : String
  descending : Bool

def OrderItem.text (i : OrderItem) : String := i.name ++ ":" ++ if i.descending then "d" else "a"

def OrderItem.clause (i : OrderItem) : String :=
  i.name ++ if i.descending then " DESC" else " ASC"

/-- The name is that of a field, in any case of its letters. -/
def DB.hasField (db : DB) (name : String) : Prop :=
  ∃ c ∈ db.columns, toLower name = toLower c.field.name

/-- The text is the items, with commas between them. -/
def Lists (text : String) (its : List OrderItem) : Prop :=
  text = ",".intercalate (its.map OrderItem.text)

/-- The clause for the items, or what was there if there are none. -/
def orderClause (old : String) (its : List OrderItem) : String :=
  if its = [] then old else " ORDER BY " ++ " , ".intercalate (its.map OrderItem.clause)

/-! ## Names of fields -/

variable {db : DB} {name item : String} {its : List OrderItem}

theorem contains_foldl (type : DBType) (fields : List Field) (b : Built) (k : String) :
    (fields.foldl (addField type) b).fieldNames.contains k = true ↔
      b.fieldNames.contains k = true ∨ ∃ f ∈ fields, toLower f.name = k := by
  induction fields generalizing b with
  | nil => simp
  | cons f fs ih =>
    have hadd : (addField type b f).fieldNames = b.fieldNames.insert (toLower f.name) b.place := rfl
    rw [List.foldl_cons, ih, hadd, Std.ExtTreeMap.contains_insert]
    simp only [Bool.or_eq_true, beq_iff_eq, Std.compare_eq_iff_eq, List.mem_cons,
      exists_eq_or_imp]
    tauto

theorem validFieldName_iff : db.validFieldName name = true ↔ db.hasField name := by
  have hbuilt : db.built.fieldNames =
      ((db.columns.map (·.field)).foldl (addField db.type) {}).fieldNames := rfl
  rw [DB.validFieldName, hbuilt, contains_foldl]
  simp only [Std.ExtTreeMap.contains_empty, Bool.false_eq_true, false_or, List.mem_map,
    DB.hasField]
  constructor
  · rintro ⟨f, ⟨c, hc, rfl⟩, h⟩
    exact ⟨c, hc, h.symm⟩
  · rintro ⟨c, hc, h⟩
    exact ⟨c.field, ⟨c, hc, rfl⟩, h.symm⟩

theorem not_mem_of_hasField (h : db.hasField name) {c : Char} (hlower : c.toLower = c)
    (hin : inName c = false) : c ∉ name.toList := by
  obtain ⟨column, -, hname⟩ := h
  intro hmem
  have hlowered : c ∈ (toLower name).toList := by
    rw [toLower, String.toList_ofList]
    exact List.mem_map.mpr ⟨c, hmem, hlower⟩
  rw [hname] at hlowered
  exact absurd (column.name.all_inName c hlowered) (by simp [hin])

/-! ## Items -/

theorem intercalate_stringTokenizer (sep : Char) (s : String) :
    s.toList = [sep].intercalate ((stringTokenizer s sep).map String.toList) := by
  unfold stringTokenizer
  split
  · rename_i h
    rw [h]
    rfl
  · rw [List.map_map]
    simp [Function.comp_def, List.intercalate_splitOn]

theorem direction_eq (descending : Bool) :
    (if (if descending then "d" else "a") = "a" then " ASC" else " DESC") =
      if descending then " DESC" else " ASC" := by
  cases descending <;> rfl

theorem orderItems_item (i : OrderItem) (hi : db.hasField i.name) (itemList : String)
    (items : List String) :
    orderItems db itemList (i.text :: items) =
      orderItems db (add " , " itemList i.clause) items := by
  obtain ⟨name, descending⟩ := i
  have hcolon : ':' ∉ name.toList := not_mem_of_hasField hi rfl rfl
  have htokens : stringTokenizer (OrderItem.text ⟨name, descending⟩) ':' =
      [name, if descending then "d" else "a"] := by
    refine stringTokenizer_intercalate ':' _ ?_ (List.cons_ne_nil _ _) ?_ ?_
    · cases descending <;> simpa using hcolon
    · cases descending <;> simp [OrderItem.text, String.append_eq_empty_iff]
    · cases descending <;> simp [OrderItem.text, List.intercalate_cons_cons]
  have hdirection : ¬ ((if descending then "d" else "a") ≠ "a" ∧
      (if descending then "d" else "a") ≠ "d") := by
    cases descending <;> decide
  rw [orderItems, htokens]
  simp only [if_neg hdirection, validFieldName_iff.mpr hi, if_true, direction_eq]
  rfl

theorem exists_item {itemList r : String} {items : List String}
    (h : orderItems db itemList (item :: items) = some r) :
    ∃ i : OrderItem, item = i.text ∧ db.hasField i.name := by
  rw [orderItems] at h
  split at h
  · rename_i name direction htokens
    split at h
    · cases h
    · rename_i hdirection
      split at h
      · rename_i hvalid
        have htext := intercalate_stringTokenizer ':' item
        rw [htokens] at htext
        have hitem : item = name ++ ":" ++ direction := by
          rw [← String.toList_inj, htext]
          simp [List.intercalate_cons_cons]
        have hfield := validFieldName_iff.mp hvalid
        by_cases ha : direction = "a"
        · exact ⟨⟨name, false⟩, by rw [hitem, ha]; rfl, hfield⟩
        · have hd : direction = "d" := by
            by_contra hd
            exact hdirection ⟨ha, hd⟩
          exact ⟨⟨name, true⟩, by rw [hitem, hd]; rfl, hfield⟩
      · cases h
  · cases h

/-! ## Lists of items -/

theorem orderItems_items (h : ∀ i ∈ its, db.hasField i.name) (itemList : String) :
    orderItems db itemList (its.map OrderItem.text) =
      some (addAll " , " itemList (its.map OrderItem.clause)) := by
  induction its generalizing itemList with
  | nil => rfl
  | cons i its ih =>
    rw [List.forall_mem_cons] at h
    rw [List.map_cons, orderItems_item i h.1, ih h.2]
    rfl

theorem exists_items {itemList r : String} {items : List String}
    (h : orderItems db itemList items = some r) :
    ∃ its : List OrderItem, items = its.map OrderItem.text ∧ ∀ i ∈ its, db.hasField i.name := by
  induction items generalizing itemList with
  | nil => exact ⟨[], rfl, List.forall_mem_nil _⟩
  | cons item items ih =>
    obtain ⟨i, rfl, hi⟩ := exists_item h
    rw [orderItems_item i hi] at h
    obtain ⟨its, rfl, hits⟩ := ih h
    exact ⟨i :: its, rfl, List.forall_mem_cons.mpr ⟨hi, hits⟩⟩

theorem itemText_ne_empty (i : OrderItem) : i.text ≠ "" := by
  simp [OrderItem.text, String.append_eq_empty_iff]

theorem itemClause_ne_empty (i : OrderItem) : i.clause ≠ "" := by
  cases hdesc : i.descending <;> simp [OrderItem.clause, hdesc, String.append_eq_empty_iff]

theorem stringTokenizer_lists (h : ∀ i ∈ its, db.hasField i.name) {text : String}
    (hlists : Lists text its) : stringTokenizer text ',' = its.map OrderItem.text := by
  rw [Lists, ← String.toList_inj, String.toList_intercalate] at hlists
  cases its with
  | nil =>
    obtain rfl : text = "" := String.toList_injective hlists
    rfl
  | cons i its =>
    refine stringTokenizer_intercalate ',' _ ?_ (by simp) ?_ hlists
    · refine List.forall_mem_map.mpr fun j hj => ?_
      have hcomma : ',' ∉ j.name.toList := not_mem_of_hasField (h j hj) rfl rfl
      cases hdesc : j.descending <;> simp [OrderItem.text, hdesc, hcomma]
    · rintro rfl
      rw [List.map_cons, List.map_cons, intercalate_cons] at hlists
      have htext := (List.append_eq_nil_iff.mp hlists.symm).1
      exact itemText_ne_empty i (String.toList_eq_nil_iff.mp htext)

theorem prepareOrderBy_lists (h : ∀ i ∈ its, db.hasField i.name) {text : String}
    (hlists : Lists text its) (old : String) :
    prepareOrderBy db text old = (true, orderClause old its) := by
  have hclauses : ∀ p ∈ its.map OrderItem.clause, p ≠ "" :=
    List.forall_mem_map.mpr fun i _ => itemClause_ne_empty i
  have hempty := addAll_empty_eq " , " hclauses
  rw [prepareOrderBy, stringTokenizer_lists h hlists, orderItems_items h, orderClause]
  by_cases hnil : its = []
  · subst hnil
    rfl
  · have hne : addAll " , " "" (its.map OrderItem.clause) ≠ "" := fun heq =>
      hnil (List.map_eq_nil_iff.mp (hempty.mp heq))
    have htext : addAll " , " "" (its.map OrderItem.clause) =
        " , ".intercalate (its.map OrderItem.clause) := by
      rw [← String.toList_inj, toList_addAll_empty " , " hclauses, String.toList_intercalate]
    rw [htext] at hne
    simp only [htext, if_neg hne, if_neg hnil]

/-- What is accepted is a list of fields with directions, the clause is made of these, and a list
that is refused leaves the clause as it was. -/
theorem order_by_accepts (db : DB) (orderByList old : String) :
    ((prepareOrderBy db orderByList old).1 = true ↔
        ∃ its, Lists orderByList its ∧ ∀ i ∈ its, db.hasField i.name) ∧
      (∀ its, Lists orderByList its → (∀ i ∈ its, db.hasField i.name) →
        prepareOrderBy db orderByList old = (true, orderClause old its)) ∧
      ((prepareOrderBy db orderByList old).1 = false →
        (prepareOrderBy db orderByList old).2 = old) := by
  refine ⟨⟨fun h => ?_, ?_⟩, fun its hlists hits => prepareOrderBy_lists hits hlists old,
    fun h => ?_⟩
  · rw [prepareOrderBy] at h
    split at h
    · cases h
    · rename_i itemList hitems
      obtain ⟨its, htokens, hits⟩ := exists_items hitems
      refine ⟨its, ?_, hits⟩
      rw [Lists, ← String.toList_inj, String.toList_intercalate,
        intercalate_stringTokenizer ',' orderByList, htokens]
      rfl
  · rintro ⟨its, hlists, hits⟩
    rw [prepareOrderBy_lists hits hlists]
  · rw [prepareOrderBy] at h ⊢
    split at h
    · rfl
    · cases h

end Owls.ORM
