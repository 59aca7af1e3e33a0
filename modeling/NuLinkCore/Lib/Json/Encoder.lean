import NuLinkCore.Lib.Json.Value

/-!
# Python objects as JSON

The objects that {lit}`json` reads, and two kinds that it refuses to write.  Tuples and names
that are no strings, which are written but come back as other objects, are left out.

Main results:

- Theorems {lit}`PyObject.toJson_ofJson` and {lit}`PyObject.ofJson_of_toJson`: the objects that
  are written are those that are read.
- Theorem {lit}`PyObject.loads_dumps`: reading inverts writing.
-/

/-- Python objects. -/
inductive PyObject where
  | none
  | bool (b : Bool)
  | int (n : Int)
  | float (literal : Json.Float)
  | str (text : String)
  | list (items : List PyObject)
  | dict (members : List (String × PyObject))
  /-- A {lit}`pathlib.Path`. -/
  | path (text : String)
  /-- Any other object that is not written. -/
  | other (name : String)

namespace PyObject

mutual

/-- What is written for an object, or {lit}`none` where the encoder raises
{lit}`TypeError`. -/
def toJson : PyObject → Option Json
  | .none => some .null
  | .bool b => some (.bool b)
  | .int n => some (.int n)
  | .float literal => some (.float literal)
  | .str text => some (.str text)
  | .list items => (toJsonItems items).map .arr
  | .dict members => (toJsonMembers members).map .obj
  | .path _ => Option.none
  | .other _ => Option.none

def toJsonItems : List PyObject → Option (List Json)
  | [] => some []
  | item :: items =>
      match toJson item, toJsonItems items with
      | some value, some values => some (value :: values)
      | _, _ => Option.none

def toJsonMembers : List (String × PyObject) → Option (List (String × Json))
  | [] => some []
  | (name, object) :: members =>
      match toJson object, toJsonMembers members with
      | some value, some values => some ((name, value) :: values)
      | _, _ => Option.none

end

mutual

/-- The object that a value is read as. -/
def ofJson : Json → PyObject
  | .null => .none
  | .bool b => .bool b
  | .int n => .int n
  | .float literal => .float literal
  | .str text => .str text
  | .arr items => .list (ofJsonItems items)
  | .obj members => .dict (ofJsonMembers members)

def ofJsonItems : List Json → List PyObject
  | [] => []
  | item :: items => ofJson item :: ofJsonItems items

def ofJsonMembers : List (String × Json) → List (String × PyObject)
  | [] => []
  | (name, value) :: members => (name, ofJson value) :: ofJsonMembers members

end

mutual

/-- The names of every dictionary in an object are distinct. -/
def Distinct : PyObject → Prop
  | .list items => DistinctItems items
  | .dict members => (members.map Prod.fst).Nodup ∧ DistinctMembers members
  | _ => True

def DistinctItems : List PyObject → Prop
  | [] => True
  | item :: items => Distinct item ∧ DistinctItems items

def DistinctMembers : List (String × PyObject) → Prop
  | [] => True
  | (_, object) :: members => Distinct object ∧ DistinctMembers members

end

/-- {lit}`json.dumps`. -/
def dumps (object : PyObject) (indent : Option Nat) : Option String :=
  (toJson object).map fun value => Json.dumps value indent

/-- {lit}`json.loads`. -/
def loads (text : String) : Option PyObject := (Json.loads text).map ofJson

/-! ## Writing and reading are inverse -/

mutual

/-- What was read is written as it was. -/
@[simp]
theorem toJson_ofJson : (value : Json) → toJson (ofJson value) = some value
  | .null => rfl
  | .bool b => rfl
  | .int n => rfl
  | .float literal => rfl
  | .str text => rfl
  | .arr items => by rw [ofJson, toJson, toJsonItems_ofJsonItems items, Option.map_some]
  | .obj members => by rw [ofJson, toJson, toJsonMembers_ofJsonMembers members, Option.map_some]

@[simp]
theorem toJsonItems_ofJsonItems : (items : List Json) →
    toJsonItems (ofJsonItems items) = some items
  | [] => rfl
  | item :: items => by
      rw [ofJsonItems, toJsonItems, toJson_ofJson item, toJsonItems_ofJsonItems items]

@[simp]
theorem toJsonMembers_ofJsonMembers : (members : List (String × Json)) →
    toJsonMembers (ofJsonMembers members) = some members
  | [] => rfl
  | (name, value) :: members => by
      rw [ofJsonMembers, toJsonMembers, toJson_ofJson value, toJsonMembers_ofJsonMembers members]

end

theorem toJsonItems_cons {item : PyObject} {items : List PyObject} {values : List Json} :
    toJsonItems (item :: items) = some values ↔
      ∃ value rest, toJson item = some value ∧ toJsonItems items = some rest ∧
        values = value :: rest := by
  rw [toJsonItems]
  cases toJson item with
  | none => simp
  | some value =>
      cases toJsonItems items with
      | none => simp
      | some rest => simp [eq_comm]

theorem toJsonMembers_cons {member : String × PyObject} {members : List (String × PyObject)}
    {values : List (String × Json)} :
    toJsonMembers (member :: members) = some values ↔
      ∃ value rest, toJson member.2 = some value ∧ toJsonMembers members = some rest ∧
        values = (member.1, value) :: rest := by
  rcases member with ⟨name, object⟩
  rw [toJsonMembers]
  cases toJson object with
  | none => simp
  | some value =>
      cases toJsonMembers members with
      | none => simp
      | some rest => simp [eq_comm]

mutual

/-- What was written is read as it was. -/
theorem ofJson_of_toJson : (object : PyObject) → (value : Json) → toJson object = some value →
    ofJson value = object
  | .none, _, h => by
      cases h
      rfl
  | .bool b, _, h => by
      cases h
      rfl
  | .int n, _, h => by
      cases h
      rfl
  | .float literal, _, h => by
      cases h
      rfl
  | .str text, _, h => by
      cases h
      rfl
  | .list items, _, h => by
      rcases Option.map_eq_some_iff.mp h with ⟨values, hvalues, rfl⟩
      rw [ofJson, ofJsonItems_of_toJsonItems items values hvalues]
  | .dict members, _, h => by
      rcases Option.map_eq_some_iff.mp h with ⟨values, hvalues, rfl⟩
      rw [ofJson, ofJsonMembers_of_toJsonMembers members values hvalues]
  | .path _, _, h => by cases h
  | .other _, _, h => by cases h

theorem ofJsonItems_of_toJsonItems : (items : List PyObject) → (values : List Json) →
    toJsonItems items = some values → ofJsonItems values = items
  | [], _, h => by
      cases h
      rfl
  | item :: items, _, h => by
      rcases toJsonItems_cons.mp h with ⟨value, rest, hvalue, hrest, rfl⟩
      rw [ofJsonItems, ofJson_of_toJson item value hvalue,
        ofJsonItems_of_toJsonItems items rest hrest]

theorem ofJsonMembers_of_toJsonMembers : (members : List (String × PyObject)) →
    (values : List (String × Json)) → toJsonMembers members = some values →
    ofJsonMembers values = members
  | [], _, h => by
      cases h
      rfl
  | (name, object) :: members, _, h => by
      rcases toJsonMembers_cons.mp h with ⟨value, rest, hvalue, hrest, rfl⟩
      rw [ofJsonMembers, ofJson_of_toJson object value hvalue,
        ofJsonMembers_of_toJsonMembers members rest hrest]

end

theorem map_fst_ofJsonMembers (members : List (String × Json)) :
    (ofJsonMembers members).map Prod.fst = members.map Prod.fst := by
  induction members with
  | nil => rfl
  | cons member members ih => rw [ofJsonMembers, List.map_cons, List.map_cons, ih]

mutual

theorem distinct_ofJson : (value : Json) → ((ofJson value).Distinct ↔ value.Distinct)
  | .null => Iff.rfl
  | .bool _ => Iff.rfl
  | .int _ => Iff.rfl
  | .float _ => Iff.rfl
  | .str _ => Iff.rfl
  | .arr items => distinctItems_ofJsonItems items
  | .obj members => by
      rw [ofJson, Distinct, map_fst_ofJsonMembers, distinctMembers_ofJsonMembers members,
        Json.Distinct]

theorem distinctItems_ofJsonItems : (items : List Json) →
    (DistinctItems (ofJsonItems items) ↔ Json.DistinctItems items)
  | [] => Iff.rfl
  | item :: items => by
      rw [ofJsonItems, DistinctItems, distinct_ofJson item, distinctItems_ofJsonItems items,
        Json.DistinctItems]

theorem distinctMembers_ofJsonMembers : (members : List (String × Json)) →
    (DistinctMembers (ofJsonMembers members) ↔ Json.DistinctMembers members)
  | [] => Iff.rfl
  | (name, value) :: members => by
      rw [ofJsonMembers, DistinctMembers, distinct_ofJson value,
        distinctMembers_ofJsonMembers members, Json.DistinctMembers]

end

/-- Reading inverts writing. -/
theorem loads_dumps {object : PyObject} (hdistinct : object.Distinct) {indent : Option Nat}
    {text : String} (h : object.dumps indent = some text) : loads text = some object := by
  rcases Option.map_eq_some_iff.mp h with ⟨value, hvalue, rfl⟩
  have hobject := ofJson_of_toJson object value hvalue
  rw [← hobject, distinct_ofJson] at hdistinct
  rw [loads, Json.loads_dumps hdistinct, Option.map_some, hobject]

/-- What is read has distinct names. -/
theorem loads_distinct {text : String} {object : PyObject} (h : loads text = some object) :
    object.Distinct := by
  rcases Option.map_eq_some_iff.mp h with ⟨value, hvalue, rfl⟩
  exact (distinct_ofJson value).mpr (Json.loads_distinct hvalue)

/-! ## Which objects are written -/

/-- Whether an object is written. -/
def isWritable (object : PyObject) : Bool := (toJson object).isSome

theorem isWritable_of_loads {text : String} {object : PyObject} (h : loads text = some object) :
    object.isWritable = true := by
  rcases Option.map_eq_some_iff.mp h with ⟨value, -, rfl⟩
  rw [isWritable, toJson_ofJson, Option.isSome_some]

theorem isSome_dumps (object : PyObject) (indent : Option Nat) :
    (object.dumps indent).isSome = object.isWritable := by
  rw [dumps, isWritable, Option.isSome_map]

theorem isSome_toJsonItems (items : List PyObject) :
    (toJsonItems items).isSome = items.all isWritable := by
  induction items with
  | nil => rfl
  | cons item items ih =>
      rw [List.all_cons, ← ih, isWritable, toJsonItems]
      cases toJson item with
      | none => rfl
      | some value =>
          cases toJsonItems items with
          | none => rfl
          | some values => rfl

theorem isSome_toJsonMembers (members : List (String × PyObject)) :
    (toJsonMembers members).isSome = members.all fun member => member.2.isWritable := by
  induction members with
  | nil => rfl
  | cons member members ih =>
      rw [List.all_cons, ← ih, isWritable, toJsonMembers]
      cases toJson member.2 with
      | none => rfl
      | some value =>
          cases toJsonMembers members with
          | none => rfl
          | some values => rfl

/-- A list is written if its items are. -/
@[simp]
theorem isWritable_list (items : List PyObject) :
    (list items).isWritable = items.all isWritable := by
  rw [isWritable, toJson, Option.isSome_map, isSome_toJsonItems]

/-- A dictionary is written if its values are. -/
@[simp]
theorem isWritable_dict (members : List (String × PyObject)) :
    (dict members).isWritable = members.all fun member => member.2.isWritable := by
  rw [isWritable, toJson, Option.isSome_map, isSome_toJsonMembers]

theorem distinctItems_iff {items : List PyObject} :
    DistinctItems items ↔ ∀ item ∈ items, item.Distinct := by
  induction items with
  | nil => simp [DistinctItems]
  | cons item items ih => rw [DistinctItems, ih, List.forall_mem_cons]

@[simp]
theorem distinct_list {items : List PyObject} :
    (list items).Distinct ↔ ∀ item ∈ items, item.Distinct := by
  rw [Distinct, distinctItems_iff]

theorem distinctMembers_iff {members : List (String × PyObject)} :
    DistinctMembers members ↔ ∀ member ∈ members, member.2.Distinct := by
  induction members with
  | nil => simp [DistinctMembers]
  | cons member members ih => rw [DistinctMembers, ih, List.forall_mem_cons]

@[simp]
theorem distinct_dict {members : List (String × PyObject)} :
    (dict members).Distinct ↔
      (members.map Prod.fst).Nodup ∧ ∀ member ∈ members, member.2.Distinct := by
  rw [Distinct, distinctMembers_iff]

end PyObject
