import Mathlib.Data.List.Basic

/-!
# JSON values

The values the server and the clients exchange: `serde_json::Value`, a `jsonb` column, a plain JavaScript object. A number is kept as its literal, since no modelled function computes with one. Objects are member lists read by first match; an object that was parsed has each key once.
-/

namespace ShishiTodo

inductive Json where
  | null
  | bool (value : Bool)
  | num (literal : String)
  | str (text : String)
  | arr (items : List Json)
  | obj (members : List (String × Json))
  deriving Repr, Inhabited

namespace Json

mutual

protected def decEq : (left right : Json) → Decidable (left = right)
  | .null, .null => isTrue rfl
  | .bool a, .bool b => decidable_of_iff (a = b) (by simp)
  | .num a, .num b => decidable_of_iff (a = b) (by simp)
  | .str a, .str b => decidable_of_iff (a = b) (by simp)
  | .arr a, .arr b => match Json.decEqItems a b with
      | isTrue h => isTrue (by rw [h])
      | isFalse h => isFalse (by simpa using h)
  | .obj a, .obj b => match Json.decEqMembers a b with
      | isTrue h => isTrue (by rw [h])
      | isFalse h => isFalse (by simpa using h)
  | .null, .bool _ | .null, .num _ | .null, .str _ | .null, .arr _ | .null, .obj _ => isFalse nofun
  | .bool _, .null | .bool _, .num _ | .bool _, .str _ | .bool _, .arr _ | .bool _, .obj _ =>
      isFalse nofun
  | .num _, .null | .num _, .bool _ | .num _, .str _ | .num _, .arr _ | .num _, .obj _ =>
      isFalse nofun
  | .str _, .null | .str _, .bool _ | .str _, .num _ | .str _, .arr _ | .str _, .obj _ =>
      isFalse nofun
  | .arr _, .null | .arr _, .bool _ | .arr _, .num _ | .arr _, .str _ | .arr _, .obj _ =>
      isFalse nofun
  | .obj _, .null | .obj _, .bool _ | .obj _, .num _ | .obj _, .str _ | .obj _, .arr _ =>
      isFalse nofun

protected def decEqItems : (left right : List Json) → Decidable (left = right)
  | [], [] => isTrue rfl
  | a :: as, b :: bs => match Json.decEq a b, Json.decEqItems as bs with
      | isTrue h, isTrue hs => isTrue (by rw [h, hs])
      | isFalse h, _ => isFalse (by simp [h])
      | _, isFalse hs => isFalse (by simp [hs])
  | [], _ :: _ => isFalse nofun
  | _ :: _, [] => isFalse nofun

protected def decEqMembers : (left right : List (String × Json)) → Decidable (left = right)
  | [], [] => isTrue rfl
  | (k, a) :: as, (l, b) :: bs => match Json.decEq a b, Json.decEqMembers as bs with
      | isTrue h, isTrue hs => decidable_of_iff (k = l) (by simp [h, hs])
      | isFalse h, _ => isFalse (by simp [h])
      | _, isFalse hs => isFalse (by simp [hs])
  | [], _ :: _ => isFalse nofun
  | _ :: _, [] => isFalse nofun

end

instance : DecidableEq Json := Json.decEq

/-- The member of an object under `key`; nothing for any other value. -/
def get (key : String) : Json → Option Json
  | .obj members => members.lookup key
  | _ => none

/-- The members, when the value is an object. -/
def asObject : Json → Option (List (String × Json))
  | .obj members => some members
  | _ => none

def isObject (value : Json) : Bool := value.asObject.isSome

/-- Writes one member in place, or appends it. -/
def putMember (key : String) (value : Json) : List (String × Json) → List (String × Json)
  | [] => [(key, value)]
  | (other, old) :: rest =>
      if other = key then (key, value) :: rest else (other, old) :: putMember key value rest

/-- `Map::insert` of a member; a value that is no object is left alone. -/
def insert (object : Json) (key : String) (value : Json) : Json :=
  match object with
  | .obj members => .obj (putMember key value members)
  | other => other

/-- An optional string column: `null` when it is absent. -/
def ofOption {α : Type} (render : α → Json) : Option α → Json
  | none => .null
  | some value => render value

theorem lookup_cons_eq_ite (key name : String) (value : Json) (members : List (String × Json)) :
    ((name, value) :: members).lookup key = if key = name then some value else members.lookup key := by
  by_cases h : key = name
  · subst h
    simp
  · have hne : (key == name) = false := beq_false_of_ne h
    simp [List.lookup_cons, hne, h]

theorem lookup_putMember (key other : String) (value : Json) (members : List (String × Json)) :
    (putMember key value members).lookup other =
      if other = key then some value else members.lookup other := by
  induction members with
  | nil => rw [putMember, lookup_cons_eq_ite]
  | cons member rest ih =>
      obtain ⟨name, old⟩ := member
      by_cases hname : name = key
      · subst hname
        rw [putMember, if_pos rfl, lookup_cons_eq_ite, lookup_cons_eq_ite]
        by_cases h : other = name <;> simp [h]
      · rw [putMember, if_neg hname, lookup_cons_eq_ite, ih, lookup_cons_eq_ite]
        by_cases h : other = key
        · have hne : other ≠ name := fun heq => hname (heq.symm.trans h)
          rw [if_pos h, if_pos h, if_neg hne]
        · rw [if_neg h, if_neg h]

@[simp] theorem get_obj (key : String) (members : List (String × Json)) :
    get key (.obj members) = members.lookup key := rfl

end Json

end ShishiTodo
