import TreeMatch.Fields
import TreeMatch.Number

/-!
# Trees

The trees that are matched and the documents that describe them are values of one type: scalars,
arrays and objects. An object lists its fields in ascending order of their keys; the readers build
it with `Node.ofPairs`, and `Node.WellFormed` says it of a whole tree.
-/

namespace TreeMatch

/-- A tree: a scalar, an array of trees or an object with named trees. -/
inductive Node where
  | null
  | bool (value : Bool)
  | number (value : Number)
  | string (text : String)
  | array (items : List Node)
  | object (fields : List (String × Node))
deriving Inhabited

namespace Node

/-- The object with the given fields; of two fields with one key the later stays. -/
def ofPairs (pairs : List (String × Node)) : Node := object (Fields.ofPairs pairs)

/-- The elements of an array. -/
def items? : Node → Option (List Node)
  | array items => some items
  | _ => none

/-- The fields of an object. -/
def fields? : Node → Option (List (String × Node))
  | object fields => some fields
  | _ => none

/-! ## Well-formed trees -/

mutual

/-- Every object in the tree lists its keys in strictly ascending order. -/
def WellFormed : Node → Prop
  | array items => WellFormedItems items
  | object fields => Fields.Ascending fields ∧ WellFormedFields fields
  | null | bool _ | number _ | string _ => True

/-- Every element is well-formed. -/
def WellFormedItems : List Node → Prop
  | [] => True
  | item :: rest => WellFormed item ∧ WellFormedItems rest

/-- Every value is well-formed. -/
def WellFormedFields : List (String × Node) → Prop
  | [] => True
  | (_, value) :: rest => WellFormed value ∧ WellFormedFields rest

end

/-! ## Equality of trees -/

mutual

/-- Whether two trees are the same value, numbers by value and kind. -/
def same : Node → Node → Bool
  | null, null => true
  | bool a, bool b => a == b
  | number a, number b => a.same b
  | string a, string b => a == b
  | array a, array b => sameItems a b
  | object a, object b => sameFields a b
  | _, _ => false

/-- Whether two lists hold the same trees. -/
def sameItems : List Node → List Node → Bool
  | [], [] => true
  | a :: restA, b :: restB => same a b && sameItems restA restB
  | _, _ => false

/-- Whether two lists hold the same keys with the same trees. -/
def sameFields : List (String × Node) → List (String × Node) → Bool
  | [], [] => true
  | (keyA, a) :: restA, (keyB, b) :: restB => keyA == keyB && same a b && sameFields restA restB
  | _, _ => false

end

/-! ## Containment -/

mutual

/-- Whether a literal is contained in a candidate: every key of an object and every element of an
array of the literal is met at its place in the candidate, which may hold more keys and further
elements; numbers are compared by value. -/
def contains (candidate : Node) : Node → Bool
  | null => match candidate with
    | null => true
    | _ => false
  | bool expected => match candidate with
    | bool value => value == expected
    | _ => false
  | number expected => match candidate with
    | number value => value.equal expected
    | _ => false
  | string expected => match candidate with
    | string text => text == expected
    | _ => false
  | array expected => match candidate with
    | array items => containsItems items expected
    | _ => false
  | object expected => match candidate with
    | object fields => containsFields fields expected
    | _ => false

/-- Whether each literal is contained in the element at its index. -/
def containsItems : List Node → List Node → Bool
  | _, [] => true
  | [], _ :: _ => false
  | item :: items, expected :: rest => contains item expected && containsItems items rest

/-- Whether each literal is contained in the value of its key. -/
def containsFields (fields : List (String × Node)) : List (String × Node) → Bool
  | [] => true
  | (key, expected) :: rest =>
    (match fields.lookup key with
      | some value => contains value expected
      | none => false) && containsFields fields rest

end

end Node

end TreeMatch
