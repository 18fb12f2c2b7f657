import Cuprate.Epee.Value

/-!
# Objects with fields

What the macro `epee_object` makes of a list of fields (`net/epee-encoding/src/macros.rs`): one
field in front of the others, down to the object without fields. A field is not written if it has
its default.
-/

namespace Cuprate.Epee

open Cuprate.Stream

/-- A field of an object: its name, how it is read and written, and its default. -/
structure Field (α : Type) where
  name : String
  /-- Reads the value with its marker. -/
  read : Read α
  /-- Whether the field is written and counted. -/
  written : α → Bool
  /-- Writes the name and the value. -/
  write : α → List UInt8
  /-- The value if the field is missing. -/
  default : Option α

namespace Field

variable {α : Type}

/-- A field without a default of its own: `name: ty`. -/
def new (name : String) (v : EpeeValue α) : Field α where
  name := name
  read := readEpeeValue v
  written := v.shouldWrite
  write := writeField v name
  default := v.epeeDefaultValue

/-- A field with a default: `name: ty = default`. -/
def withDefault [DecidableEq α] (name : String) (v : EpeeValue α) (default : α) : Field α where
  name := name
  read := readEpeeValue v
  written a := a != default && v.shouldWrite a
  write := writeField v name
  default := some default

end Field

namespace EpeeObject

variable {α S T : Type}

def empty : EpeeObject Unit where
  Builder := Unit
  default := ()
  addField _ _ := pure ((), false)
  finish _ := .ok ()
  numberOfFields _ := 0
  writeFields _ := []

/-- An object with one more field before the others. -/
def field (f : Field α) (o : EpeeObject T) : EpeeObject (α × T) where
  Builder := Option α × o.Builder
  default := (none, o.default)
  addField b name :=
    if name = asciiBytes f.name then do
      let value ← f.read
      if b.1.isSome then .fail (.value ("Duplicate field in data: " ++ f.name))
      else pure ((some value, b.2), true)
    else do
      let added ← o.addField b.2 name
      pure ((b.1, added.1), added.2)
  finish b :=
    match b.1.or f.default with
    | some value => (o.finish b.2).map fun rest => (value, rest)
    | none => .error (.value ("Missing field in data: " ++ f.name))
  numberOfFields val := (if f.written val.1 then 1 else 0) + o.numberOfFields val.2
  writeFields val := (if f.written val.1 then f.write val.1 else []) ++ o.writeFields val.2

def iso (fields : S → T) (new : T → S) (o : EpeeObject T) : EpeeObject S where
  Builder := o.Builder
  default := o.default
  addField := o.addField
  finish b := (o.finish b).map new
  numberOfFields val := o.numberOfFields (fields val)
  writeFields val := o.writeFields (fields val)

end EpeeObject

end Cuprate.Epee
