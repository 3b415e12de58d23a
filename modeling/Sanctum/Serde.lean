/-
Values that are read from JSON documents.

A derived deserializer reads a structure from an object whose members have the names of the fields, each
of them once and in any order, with any other members besides, or from an array with one item a field.
A text stands for any value of a type that is a wrapper around a text, whatever its constructors check.

Main definitions:

* `Serde.Json` — a JSON document;
* `Serde.string`, `Serde.uint`, `Serde.seq`, `Serde.unitVariant` — values of simple types;
* `Serde.fieldValues` — the values of the fields of a structure.
-/

import Mathlib

set_option relaxedAutoImplicit false
set_option autoImplicit false

namespace Serde

/-- **A JSON document.**  The members of an object are in their order, and a name may be there twice. -/
inductive Json
  | null
  | bool (value : Bool)
  | int (value : ℤ)
  | float (text : String)
  | str (text : String)
  | arr (items : List Json)
  | obj (members : List (String × Json))

def string : Json → Option String
  | .str text => some text
  | _ => none

/-- An unsigned number of some bits. -/
def uint (bits : ℕ) : Json → Option ℕ
  | .int value => if 0 ≤ value ∧ value < 2 ^ bits then some value.toNat else none
  | _ => none

def seq {α : Type} (item : Json → Option α) : Json → Option (List α)
  | .arr items => items.mapM item
  | _ => none

/-- A variant without fields: its name, or an object with the name and `null`. -/
def unitVariant {α : Type} (variants : List (String × α)) : Json → Option α
  | .str name => variants.lookup name
  | .obj [(name, .null)] => variants.lookup name
  | _ => none

/-- The value of a member that is there once. -/
def member (members : List (String × Json)) (name : String) : Option Json :=
  match members.filter fun member => member.1 = name with
  | [(_, value)] => some value
  | _ => none

/-- **The values of the fields of a structure**, with their names. -/
def fieldValues (fields : List String) : Json → Option (List (String × Json))
  | .arr items => if items.length = fields.length then some (fields.zip items) else none
  | .obj members => fields.mapM fun name => (member members name).map fun value => (name, value)
  | _ => none

theorem string_eq_some_iff {json : Json} {text : String} : string json = some text ↔ json = .str text := by
  constructor
  · intro h
    unfold string at h
    split at h
    · obtain rfl := Option.some.inj h
      rfl
    · cases h
  · rintro rfl
    rfl

end Serde
