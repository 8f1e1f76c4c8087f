/-
Module: ClassFactory.Types.Union
Purpose: Building unions and records. A union is flattened by one level, loses repeated members,
  is unconstrained as soon as one of its parts is, and never has fewer than two members.
Main exports: Ty.join, Ty.nullable, Ty.orUndefined, Ty.admitsNullish, Ty.nonNullish,
  Fields.insert, Fields.extend
-/
import ClassFactory.Types.Basic

namespace ClassFactory

namespace Ty

/-- Adds a member at the end unless an equal one is present. -/
def addMember (members : List Ty) (type : Ty) : List Ty :=
  if members.any (fun m => m.same type) then members else members ++ [type]

/-- Adds the parts of a union one after another; `none` once a part is unconstrained. -/
def collectMembers : List Ty → List Ty → Option (List Ty)
  | members, [] => some members
  | _, .unknown :: _ => none
  | members, .union inner :: rest => collectMembers (inner.foldl addMember members) rest
  | members, type :: rest => collectMembers (addMember members type) rest

/-- A union of the collected members, or the only member itself. -/
def ofMembers : List Ty → Ty
  | [] => .unknown
  | [type] => type
  | members => .union members

/-- The join of some types: their union in normal form. -/
def join (types : List Ty) : Ty :=
  match collectMembers [] types with
  | some members => ofMembers members
  | none => .unknown

/-- The type with `null` added. -/
def nullable (type : Ty) : Ty :=
  join [type, .null]

/-- The type with `undefined` added. -/
def orUndefined (type : Ty) : Ty :=
  join [type, .undefined]

mutual
/-- Whether `null` or `undefined` is among the values of the type. -/
def admitsNullish : Ty → Bool
  | .unknown => true
  | .null => true
  | .undefined => true
  | .union members => anyAdmitsNullish members
  | _ => false
termination_by structural type => type

/-- Whether one of the types admits `null` or `undefined`. -/
def anyAdmitsNullish : List Ty → Bool
  | [] => false
  | type :: rest => type.admitsNullish || anyAdmitsNullish rest
termination_by structural types => types
end

/-- Whether the type is `null` or `undefined` itself. -/
def isNullish : Ty → Bool
  | .null => true
  | .undefined => true
  | _ => false

/-- The type without the members `null` and `undefined` of a union. -/
def nonNullish : Ty → Ty
  | .union members => join (members.filter fun m => !m.isNullish)
  | type => type

end Ty

namespace Fields

/-- Writes a field: it takes the place of the field of its name, or goes last. -/
def insert (field : Field) : List Field → List Field
  | [] => [field]
  | old :: rest => if old.name = field.name then field :: rest else old :: insert field rest

/-- Writes every field of `later` into `base`, in order. -/
def extend (base later : List Field) : List Field :=
  later.foldl (fun fields field => insert field fields) base

/-- The fields that result from writing them one after another. -/
def ofList (fields : List Field) : List Field :=
  extend [] fields

end Fields

end ClassFactory
