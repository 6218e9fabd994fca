import Mathlib.Data.List.AList

set_option autoImplicit false

/-!
# Plain objects of a script realm

Every object and array literal of a realm inherits from one shared root object. A property that is
added to the root is visible through all of them, and a `for ... in` loop visits it too.
-/

namespace Script

/-- What a `for ... in` loop visits: an own element, or a number found on the root object. -/
inductive Visited (α : Type) where
  | own (value : α)
  | inherited (value : Int)

inductive SharedObject where
  | root
  | builtin (name : String)
deriving DecidableEq

inductive Inherited where
  | object (shared : SharedObject)
  | number (value : Int)
deriving DecidableEq

/-- The properties a script has written to the shared objects, all of them numbers. -/
structure Realm where
  root : AList (fun _ : String => Int)
  builtins : AList (fun _ : String => AList (fun _ : String => Int))

-- The methods every object literal inherits. None of them is enumerable.
def builtinNames : List String :=
  ["constructor", "hasOwnProperty", "isPrototypeOf", "propertyIsEnumerable", "toLocaleString",
    "toString", "valueOf", "__defineGetter__", "__defineSetter__", "__lookupGetter__",
    "__lookupSetter__"]

namespace Realm

def pristine : Realm := ⟨∅, ∅⟩

/-- `for (k in xs)`: the own elements in order, then the enumerable properties of the root. -/
def forIn {α : Type} (realm : Realm) (xs : List α) : List (Visited α) :=
  xs.map .own ++ realm.root.entries.map fun entry => .inherited entry.2

@[simp] theorem forIn_pristine {α : Type} (xs : List α) : pristine.forIn xs = xs.map .own := by
  simp [forIn, pristine]

-- `object[key]` for a key that `object` does not own.
def inherited (realm : Realm) (key : String) : Option Inherited :=
  if key = "__proto__" then some (.object .root)
  else if key ∈ builtinNames then some (.object (.builtin key))
  else (realm.root.lookup key).map .number

def write (realm : Realm) (shared : SharedObject) (key : String) (value : Int) : Realm :=
  match shared with
  | .root => { realm with root := realm.root.insert key value }
  | .builtin name =>
    { realm with
      builtins := realm.builtins.insert name (((realm.builtins.lookup name).getD ∅).insert key value) }

theorem inherited_object_iff (realm realm' : Realm) (key : String) (shared : SharedObject) :
    realm.inherited key = some (.object shared) ↔
      realm'.inherited key = some (.object shared) := by
  unfold inherited
  split_ifs <;> simp

@[simp] theorem inherited_pristine (key : String) (value : Int) :
    pristine.inherited key ≠ some (.number value) := by
  unfold inherited
  split_ifs <;> simp [pristine]

end Realm

def Inherited.truthy : Inherited → Bool
  | .object _ => true
  | .number value => value != 0

end Script
