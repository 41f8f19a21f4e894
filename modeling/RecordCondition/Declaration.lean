import RecordCondition.Annotation
import RecordCondition.Registry

/-!
# Declared fields

The fields of a record type are declared with annotations, which select the
fields that conditions may name and the comparators on them.  Every field that
is not excluded is exposed and can be compared for equality.
-/

namespace RecordCondition

structure DeclaredField where
  name : String
  annotations : List String := []
  deriving DecidableEq, Repr

/-- A record type as it is declared. -/
inductive Declaration
  | named (fields : List DeclaredField)
  /-- A type without named fields. -/
  | unnamed

/-- A declared field as conditions see it. -/
structure Exposure where
  name : String
  field : String
  operators : List Comparator
  ignored : Bool
  deriving DecidableEq, Repr

inductive DeclarationError
  | unnamedFields
  | unreadable (fault : Annotation.Fault)
  | unknownOperator (name : String)
  /-- The member that would be generated for a field cannot be named so. -/
  | unnameable (member : String)
  deriving DecidableEq, Repr

def DeclarationError.message : DeclarationError → String
  | .unnamedFields => "Filterable can only be derived for structs with named fields."
  | .unreadable fault => fault.message
  | .unknownOperator name => s!"unknown operator {name}"
  | .unnameable member => s!"\"{member}\" is not a valid Ident"

/-- The name of the member that is generated for a field. -/
def Exposure.member (exposure : Exposure) : String :=
  exposure.field ++ "Field"

/-- Adds the comparators of the names to a list that keeps each of them once, at
its first mention. -/
def addOperators (operators : List Comparator) :
    List String → Except DeclarationError (List Comparator)
  | [] => .ok operators
  | name :: names =>
      match Comparator.ofName? name with
      | none => .error (.unknownOperator name)
      | some comparator =>
          if operators.contains comparator then
            addOperators operators names
          else
            addOperators (operators ++ [comparator]) names

/-- Whether the name of a field is marked with `r#`, as reserved words are.  The name
of its member would begin with the mark as well, and no member can be named so. -/
def DeclaredField.isMarked (field : DeclaredField) : Bool :=
  ['r', '#'].isPrefixOf field.name.toList

/-- What is exposed of a field, which is nothing where it is excluded. -/
def DeclaredField.expose (field : DeclaredField) :
    Except DeclarationError (Option Exposure) :=
  match Annotation.Settings.read field.annotations with
  | .error fault => .error (.unreadable fault)
  | .ok settings =>
      if settings.excluded then
        .ok none
      else
        match addOperators [.equal, .notEqual] settings.operators with
        | .error e => .error e
        | .ok operators =>
            let exposure : Exposure :=
              ⟨settings.name.getD field.name, field.name, operators, settings.ignored⟩
            if field.isMarked then .error (.unnameable exposure.member) else .ok (some exposure)

/-- The exposed fields in the order of their declaration. -/
def Declaration.exposures : Declaration → Except DeclarationError (List Exposure)
  | .named fields =>
      (fields.mapM DeclaredField.expose).map fun exposures => exposures.filterMap id
  | .unnamed => .error .unnamedFields

/-- The field behind an exposure.  A field that is not checked keeps its
column. -/
def Exposure.toField {R : Type} (column : Column R) (exposure : Exposure) : Field R :=
  let field := Field.typed
    { column := column, operators := ComparatorSet.ofList exposure.operators }
  if exposure.ignored then .over field else field

/-- What a declared field with its column adds to a registry. -/
def Registry.entryOf {R : Type} (declared : DeclaredField × Column R) :
    Except DeclarationError (Option (String × Field R)) :=
  declared.1.expose.map fun exposure? =>
    exposure?.map fun exposure => (exposure.name, exposure.toField declared.2)

/-- The registry of a record type that is declared with the columns of its
fields. -/
def Registry.ofDeclared {R : Type} (fields : List (DeclaredField × Column R)) :
    Except DeclarationError (Registry R) :=
  (fields.mapM Registry.entryOf).map fun entries => .ofList (entries.filterMap id)

end RecordCondition
