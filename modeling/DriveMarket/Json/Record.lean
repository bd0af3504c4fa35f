import DriveMarket.Json.Form

/-
  Records as JSON objects.

  A record is described once, field by field, for reading and
  writing.  It may also be given as a list of the fields in
  order, with none left out.  Members of an object that name
  no field are ignored.

  Key definitions include:
    * `RecordFields`
    * `field`
    * `optionalField`
    * `RecordFields.form`
-/

namespace DriveMarket

/- Named JSON values. -/
abbrev JsonMembers :=
  List (String × JsonValue)

/- Faults of the fields of a record, with the fields' names. -/
abbrev FieldFaults :=
  List (String × JsonFault)

/-
  Some fields of a record `ρ`, from which an `α` is made.
  Every field is read, and all their faults are told.
-/
structure RecordFields (ρ α : Type) where
  names : List String
  read : JsonMembers → Except FieldFaults α
  write : ρ → JsonMembers

namespace RecordFields

variable {ρ α β : Type}

/- No field at all. -/
def none
    (made : α) : RecordFields ρ α :=
  { names := []
    read := fun _ => .ok made
    write := fun _ => [] }

/- More fields, after some others. -/
def andThen
    (first : RecordFields ρ (α → β))
    (second : RecordFields ρ α) : RecordFields ρ β :=
  { names := first.names ++ second.names
    read := fun members =>
      match first.read members, second.read members with
      | .ok make, .ok item => .ok (make item)
      | .ok _, .error faults => .error faults
      | .error faults, .ok _ => .error faults
      | .error faults, .error more => .error (faults ++ more)
    write := fun record =>
      first.write record ++ second.write record }

instance : Applicative (RecordFields ρ) where
  pure := none
  seq first second := first.andThen (second ())

------------------------------------------------------------
-- Records
------------------------------------------------------------

/- The fault of the first member that has one. -/
def firstFault
    (faults : FieldFaults)
    (members : JsonMembers) : JsonFault :=
  (members.findSome? fun member =>
    faults.lookup member.1).getD .malformed

/-
  Read a record from members, in their order.  A field that is
  missing matters only if the others are in order.
-/
def readMembers
    (fields : RecordFields ρ α)
    (members : JsonMembers) : Except JsonFault α :=
  (fields.read members).mapError (firstFault · members)

/- The form of a record with the given fields. -/
def form
    (fields : RecordFields ρ ρ) : JsonForm ρ :=
  { read := fun
      | .object members => fields.readMembers members
      | .list items => do
          let record ←
            fields.readMembers (fields.names.zip items)
          if items.length = fields.names.length then
            return record
          else
            throw .malformed
      | _ => .error .malformed
    write := fun record => .object (fields.write record) }

end RecordFields

------------------------------------------------------------
-- Fields
------------------------------------------------------------

/- A field that a record must have. -/
def field
    {ρ α : Type}
    (name : String)
    (form : JsonForm α)
    (get : ρ → α) : RecordFields ρ α :=
  { names := [name]
    read := fun members =>
      match members.lookup name with
      | some value =>
          (form.read value).mapError fun fault =>
            [(name, fault)]
      | none => .error [(name, .malformed)]
    write := fun record => [(name, form.write (get record))] }

/- A field that may be left out, or be null. -/
def optionalField
    {ρ α : Type}
    (name : String)
    (form : JsonForm α)
    (get : ρ → Option α) : RecordFields ρ (Option α) :=
  { names := [name]
    read := fun members =>
      match members.lookup name with
      | some value =>
          (form.optional.read value).mapError fun fault =>
            [(name, fault)]
      | none => .ok Option.none
    write := fun record =>
      [(name, form.optional.write (get record))] }

end DriveMarket
