/-
  The values of JSON documents.

  Every number that a record of the market holds is an
  integer, so of the other numbers only their presence is
  kept.

  Key definitions include:
    * `JsonValue`
    * `JsonValue.depth`
-/

namespace DriveMarket

/-
  A JSON value.  The members of an object are in the order in
  which they are to be read.
-/
inductive JsonValue where
  | null
  | bool (value : Bool)
  | integer (value : Int)
  | fraction
  | text (value : String)
  | list (items : List JsonValue)
  | object (members : List (String × JsonValue))
deriving Inhabited

namespace JsonValue

mutual

/- How deeply a value is nested. -/
def depth : JsonValue → Nat
  | .null => 0
  | .bool _ => 0
  | .integer _ => 0
  | .fraction => 0
  | .text _ => 0
  | .list items => depthOfItems items + 1
  | .object members => depthOfMembers members + 1
termination_by structural value => value

/- The depth of the most deeply nested item. -/
def depthOfItems : List JsonValue → Nat
  | [] => 0
  | item :: rest => max item.depth (depthOfItems rest)
termination_by structural items => items

/- The depth of the most deeply nested member. -/
def depthOfMembers : List (String × JsonValue) → Nat
  | [] => 0
  | member :: rest =>
      max (depthOfMember member) (depthOfMembers rest)
termination_by structural members => members

/- The depth of a member's value. -/
def depthOfMember : String × JsonValue → Nat
  | (_, value) => value.depth
termination_by structural member => member

end

end JsonValue

end DriveMarket
