import NavDirections.Number.Binary

/-!
# JSON values

The values of a JSON document.  Integers are unbounded and distinct from floating-point numbers;
the entries of an object keep the order of their first appearance.
-/

namespace NavDirections

inductive Json where
  | null
  | bool (b : Bool)
  | int (n : Int)
  | float (x : Floating)
  | text (t : Text)
  | array (items : List Json)
  | object (fields : List (Text × Json))

namespace Json

instance : Inhabited Json := ⟨null⟩

instance : Coe Text Json := ⟨text⟩

def find? (key : Text) : List (Text × Json) → Option Json
  | [] => none
  | (k, v) :: rest => if k = key then some v else find? key rest

/-- Replaces the value under `key`, or adds the entry at the end. -/
def insert (key : Text) (value : Json) : List (Text × Json) → List (Text × Json)
  | [] => [(key, value)]
  | (k, v) :: rest => if k = key then (k, value) :: rest else (k, v) :: insert key value rest

/-- The first entries with those of the second put over them, one by one. -/
def overlay (base : List (Text × Json)) (upper : List (Text × Json)) : List (Text × Json) :=
  upper.foldl (fun fields (key, value) => insert key value fields) base

/-- The value of an entry, for an object that has it. -/
def field? (v : Json) (key : Text) : Option Json :=
  match v with
  | object fields => find? key fields
  | _ => none

/-- What was put under a key is found there, and every other entry stays. -/
theorem find?_insert (key key' : Text) (value : Json) (fields : List (Text × Json)) :
    find? key' (insert key value fields) = if key = key' then some value else find? key' fields := by
  induction fields with
  | nil => simp [insert, find?]
  | cons entry rest ih =>
    obtain ⟨k, v⟩ := entry
    by_cases hk : k = key
    · by_cases hk' : key = key' <;> simp [insert, find?, hk, hk']
    · by_cases hk' : k = key'
      · subst hk'
        simp [insert, find?, hk, Ne.symm hk]
      · simp [insert, find?, hk, hk', ih]

/-- Null, false, zero and everything empty do not count as given. -/
def isGiven : Json → Bool
  | null => false
  | bool b => b
  | int n => n != 0
  | float x => !x.isZero
  | text t => !t.isEmpty
  | array items => !items.isEmpty
  | object fields => !fields.isEmpty

def text? : Json → Option Text
  | text t => some t
  | _ => none

def kindName : Json → Text
  | null => "NoneType"
  | bool _ => "bool"
  | int _ => "int"
  | float _ => "float"
  | text _ => "str"
  | array _ => "list"
  | object _ => "dict"

/-- A value that can be told apart from others as a name: anything but an array or an object. -/
def isScalar : Json → Bool
  | array _ | object _ => false
  | _ => true

def toInt? : Json → Option Int
  | bool b => some (if b then 1 else 0)
  | int n => some n
  | float x => x.toInt?
  | _ => none

/-- Do two scalars name the same thing?  Numbers are compared by value, truth values being the
numbers zero and one. -/
def sameScalar (a b : Json) : Bool :=
  match a, b with
  | null, null => true
  | text s, text t => s == t
  | float x, float y => x == y || (a.toInt?.isSome && a.toInt? == b.toInt?)
  | _, _ => a.toInt?.isSome && a.toInt? == b.toInt?

theorem sameScalar_self {v : Json} (h : v.isScalar = true) : v.sameScalar v = true := by
  cases v with
  | array items => cases h
  | object fields => cases h
  | _ => simp [sameScalar, toInt?]

end Json
end NavDirections
