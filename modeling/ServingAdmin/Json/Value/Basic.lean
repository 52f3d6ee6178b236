import ServingAdmin.Binary64.Basic
import ServingAdmin.KeyMap

/-!
# JSON values

A value of any shape.  The members of an object are listed by increasing name, each name
once, so objects that say the same are one value.
-/

namespace ServingAdmin
namespace Json

/-- A value of any shape. -/
inductive Value
  | null
  | boolean (b : Bool)
  | whole (n : Int)
  | real (x : Binary64)
  | text (s : String)
  | array (items : List Value)
  | object (members : List (String × Value))

namespace Value

mutual
/-- Decides whether two values are equal. -/
def decEq (v w : Value) : Decidable (v = w) :=
  match v, w with
  | null, null => isTrue rfl
  | boolean a, boolean b => decidable_of_iff (a = b) (by simp)
  | whole a, whole b => decidable_of_iff (a = b) (by simp)
  | real a, real b => decidable_of_iff (a = b) (by simp)
  | text a, text b => decidable_of_iff (a = b) (by simp)
  | array a, array b =>
      match decEqItems a b with
      | isTrue h => isTrue (by rw [h])
      | isFalse h => isFalse (by simpa using h)
  | object a, object b =>
      match decEqMembers a b with
      | isTrue h => isTrue (by rw [h])
      | isFalse h => isFalse (by simpa using h)
  | null, boolean _ | null, whole _ | null, real _ | null, text _ | null, array _
  | null, object _ | boolean _, null | boolean _, whole _ | boolean _, real _
  | boolean _, text _ | boolean _, array _ | boolean _, object _ | whole _, null
  | whole _, boolean _ | whole _, real _ | whole _, text _ | whole _, array _
  | whole _, object _ | real _, null | real _, boolean _ | real _, whole _ | real _, text _
  | real _, array _ | real _, object _ | text _, null | text _, boolean _ | text _, whole _
  | text _, real _ | text _, array _ | text _, object _ | array _, null | array _, boolean _
  | array _, whole _ | array _, real _ | array _, text _ | array _, object _ | object _, null
  | object _, boolean _ | object _, whole _ | object _, real _ | object _, text _
  | object _, array _ => isFalse (by simp)

/-- Decides whether two lists of items are equal. -/
def decEqItems (a b : List Value) : Decidable (a = b) :=
  match a, b with
  | [], [] => isTrue rfl
  | [], _ :: _ | _ :: _, [] => isFalse (by simp)
  | v :: a, w :: b =>
      match decEq v w, decEqItems a b with
      | isTrue hv, isTrue ha => isTrue (by rw [hv, ha])
      | isFalse hv, _ => isFalse fun h => hv (List.cons.inj h).1
      | _, isFalse ha => isFalse fun h => ha (List.cons.inj h).2

/-- Decides whether two lists of members are equal. -/
def decEqMembers (a b : List (String × Value)) : Decidable (a = b) :=
  match a, b with
  | [], [] => isTrue rfl
  | [], _ :: _ | _ :: _, [] => isFalse (by simp)
  | (m, v) :: a, (n, w) :: b =>
      if hn : m = n then
        match decEq v w, decEqMembers a b with
        | isTrue hv, isTrue ha => isTrue (by rw [hn, hv, ha])
        | isFalse hv, _ => isFalse fun h => hv (Prod.mk.inj (List.cons.inj h).1).2
        | _, isFalse ha => isFalse fun h => ha (List.cons.inj h).2
      else isFalse fun h => hn (Prod.mk.inj (List.cons.inj h).1).1
end

instance : DecidableEq Value := decEq

/-- The object of a map. -/
def ofMap (m : KeyMap Value) : Value := object m.entries

/-- The value of a member. -/
def member? (v : Value) (name : String) : Option Value :=
  match v with
  | object members => KeyMap.lookup name members
  | _ => none

@[simp] theorem member?_ofMap (m : KeyMap Value) (name : String) :
    (ofMap m).member? name = m.get? name := rfl

end Value
end Json
end ServingAdmin
