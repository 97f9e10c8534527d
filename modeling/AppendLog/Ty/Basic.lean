import AppendLog.Ty.Datum

/-! Codes for the types of data that are known in full when they are stored.

A record has fields that are stored and fields that are skipped; skipped fields and
transient values live in memory only. Inside of a record, its type and those of the
records around it can be referred to. Behind an option or in a sequence such a reference
may have no value, and so a record that refers to itself has finite values.

What was not stored is restored by the default of its type. That of a record is whatever the
type takes for it, and it comes with the type.
-/

set_option autoImplicit false

namespace AppendLog

inductive Ty where
  | bool
  | int (kind : IntKind)
  | float (kind : FloatKind)
  | complex (kind : FloatKind)
  | text
  | unit
  /-- Carried in memory and never stored. -/
  | transient (ty : Ty)
  | seq (item : Ty)
  | array (item : Ty) (length : Nat)
  | option (item : Ty)
  /-- A value behind a reference of its own; the reference is not stored. -/
  | boxed (ty : Ty)
  | tuple (parts : List Ty)
  | record (fields skipped : List (String × Ty)) (default : Datum)
  /-- The type of the record that is `up` records further out. -/
  | ref (up : Nat)
  deriving Repr

namespace Ty

/-- What has to be known of a record to resolve a reference to it. -/
structure Layout where
  fields : List (String × Ty)
  skipped : List (String × Ty)
  default : Datum

def Layout.ty (layout : Layout) : Ty := .record layout.fields layout.skipped layout.default

abbrev Scope := List Layout

mutual

def default (scope : Scope) : Ty → Datum
  | bool => .bool false
  | int kind => .int kind 0
  | float kind => .float kind 0
  | complex kind => .complex kind 0 0
  | text => .text ""
  | unit => .unit
  | transient ty => .transient (default scope ty)
  | seq _ => .list []
  | array item length => .list (List.replicate length (default scope item))
  | option _ => .absent
  | boxed ty => default scope ty
  | tuple parts => .tuple (defaultParts scope parts)
  | record _ _ own => own
  | ref up =>
    match scope[up]? with
    | some layout => layout.default
    | none => .unit

def defaultParts (scope : Scope) : List Ty → List Datum
  | [] => []
  | ty :: rest => default scope ty :: defaultParts scope rest

end

def defaultFields (scope : Scope) (fields : List (String × Ty)) : List (String × Datum) :=
  fields.map fun (name, ty) => (name, default scope ty)

/-- The record whose default has the defaults of its fields. A record that would have to hold another
one of itself has none, and so those of references to it are of no account. -/
def derived (scope : Scope) (fields skipped : List (String × Ty)) : Ty :=
  let inside : Scope := ⟨fields, skipped, .unit⟩ :: scope
  .record fields skipped (.record (defaultFields inside fields) (defaultFields inside skipped))

end Ty

end AppendLog
