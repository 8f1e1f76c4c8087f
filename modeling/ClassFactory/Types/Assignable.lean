/-
Module: ClassFactory.Types.Assignable
Purpose: When a value of one type may stand where another is expected. The unconstrained type is
  compatible with everything, a union value must fit with each of its members, and a union target
  is met by any of its members. Types known by name are compared by name.
Main exports: Ty.anyAlternative, Ty.isRenderable, Ty.assignable
-/
import ClassFactory.Types.Basic

namespace ClassFactory

mutual
/-- Whether a condition holds of the type or, if it is a union, of one of its alternatives. -/
def Ty.anyAlternative (p : Ty → Bool) : Ty → Bool
  | .union members => someAlternative p members
  | type => p type
termination_by structural type => type

/-- Whether a condition holds of an alternative of one of the types. -/
def someAlternative (p : Ty → Bool) : List Ty → Bool
  | [] => false
  | type :: rest => type.anyAlternative p || someAlternative p rest
termination_by structural types => types
end

mutual
/-- Whether every value of the type may stand as the child of an element. -/
def Ty.isRenderable : Ty → Bool
  | .unknown => true
  | .renderable => true
  | .element _ => true
  | .null => true
  | .undefined => true
  | .literal _ => true
  | .primitive kind => kind ≠ .symbol
  | .array item => item.isRenderable
  | .union members => allRenderable members
  | _ => false
termination_by structural type => type

/-- Whether all the types are renderable. -/
def allRenderable : List Ty → Bool
  | [] => true
  | type :: rest => type.isRenderable && allRenderable rest
termination_by structural types => types
end

/-- Whether a type is an object in the widest sense. -/
def Ty.isObject : Ty → Bool
  | .array _ => true
  | .map _ => true
  | .record _ => true
  | .anyObject => true
  | .named _ => true
  | .function _ _ => true
  | .anyFunction => true
  | .constructor _ => true
  | .element _ => true
  | _ => false

/-- Whether a type that has no parts of its own meets a target that is no union. -/
def Ty.meets : Ty → Ty → Bool
  | .unknown, _ => true
  | _, .unknown => true
  | .primitive a, .primitive b => a = b
  | .literal l, .primitive p => l.primitive = p
  | .literal a, .literal b => a = b
  | .null, .null => true
  | .undefined, .undefined => true
  | .null, .named _ => true
  | .anyObject, .array _ => true
  | .anyObject, .map _ => true
  | .anyObject, .record _ => true
  | .anyObject, .named _ => true
  | .function _ _, .function _ _ => true
  | .function _ _, .anyFunction => true
  | .anyFunction, .function _ _ => true
  | .anyFunction, .anyFunction => true
  | .constructor _, .function _ _ => true
  | .constructor _, .anyFunction => true
  | value, .anyObject => value.isObject
  | .named a, .named b => a = b
  | .constructor a, .constructor b => a = b
  | .element _, .element none => true
  | .element none, .element (some _) => true
  | .element (some a), .element (some b) => a = b
  | value, .renderable => value.isRenderable
  | _, _ => false

mutual
/-- Whether a value of the first type may stand where the second is expected. -/
def Ty.assignable : Ty → Ty → Bool
  | .unknown, _ => true
  | .union members, target => target.isUnknown || allAssignable members target
  | .array item, target =>
    target.anyAlternative fun
      | .array expected => item.assignable expected
      | other => (Ty.array item).meets other
  | .map value, target =>
    target.anyAlternative fun
      | .map expected => value.assignable expected
      | other => (Ty.map value).meets other
  | .record fields, target =>
    target.anyAlternative fun
      | .map expected => allFieldsAssignable fields expected
      | .record expected => expected.all fun f => fieldMeets f.name f.type f.optional fields
      | other => (Ty.record fields).meets other
  | value, target => target.anyAlternative value.meets
termination_by structural value => value

/-- Whether values of all the types may stand where the target is expected. -/
def allAssignable : List Ty → Ty → Bool
  | [], _ => true
  | type :: rest, target => type.assignable target && allAssignable rest target
termination_by structural types => types

/-- Whether the type of a field is assignable to the target. -/
def fieldAssignable : Field → Ty → Bool
  | .mk _ type _, target => type.assignable target
termination_by structural field => field

/-- Whether the types of all fields are assignable to the target. -/
def allFieldsAssignable : List Field → Ty → Bool
  | [], _ => true
  | field :: rest, target => fieldAssignable field target && allFieldsAssignable rest target
termination_by structural fields => fields

/-- Whether the field of that name, among those of a record value, is assignable to the type that
the target gives it; a missing field must be optional in the target. -/
def fieldMeets (name : String) (target : Ty) (optional : Bool) : List Field → Bool
  | [] => optional
  | field :: rest =>
    if field.name = name then fieldAssignable field target
    else fieldMeets name target optional rest
termination_by structural fields => fields
end

end ClassFactory
