import Mathlib.Data.Char
import Movid.Lib.OrderedMap
import Movid.Preset.Property

/-!
# Containers

What the blob streams carry: properties under names. The property `implements` lists the tags
that say which other properties a module may read. Reading one that is not there ends the
program.
-/

namespace Movid

open Preset (Platform Value)

variable {P : Platform}

/-- `moDataGenericContainer`. -/
structure Container (P : Platform) where
  properties : OrderedMap Str (Value P)

namespace Container

def empty : Container P := ⟨.empty⟩

variable (c : Container P) (name : String)

/-- `properties[name]`; a NULL pointer is `none`. -/
def find : Option (Value P) := c.properties.find name.toList

def hasProperty : Bool := (c.find name).isSome

/-- `properties[name] = new moProperty(value)`. -/
def put (value : Value P) : Container P := ⟨c.properties.insert name.toList value⟩

/-- `properties[name]->set(value)` keeps the type of the property. -/
def set (value : Value P) : Option (Container P) :=
  (c.find name).map fun old =>
    c.put name (if value.type = old.type then value else Value.ofString P old.type value.asString)

/-- All properties become strings. -/
def clone : Container P := ⟨c.properties.map fun value => .string value.asString⟩

def integer : Option Int32 := (c.find name).map (·.asInteger)

def implements : Option Str := (c.find "implements").map (·.asString)

/-- `moUtils::inList(tag, implements)`. -/
def inTags (tag : String) (implements : Str) : Option Bool := Utils.inList tag.toList implements [',']

def tags : List Str := (c.implements.map fun implements => Utils.fields implements [',']).getD []

instance decidableMemTags (tag : Str) : Decidable (tag ∈ c.tags) := inferInstance

theorem inTags_eq (tag : String) (implements : Str) :
    inTags tag implements = some (decide (tag.toList ∈ Utils.fields implements [','])) := Utils.inList_eq ..

theorem tags_eq {c : Container P} {implements : Str} (found : c.implements = some implements) :
    c.tags = Utils.fields implements [','] := by
  rw [tags, found]
  rfl

theorem implements_isSome : c.implements.isSome = c.hasProperty "implements" := Option.isSome_map

theorem integer_isSome : (c.integer name).isSome = c.hasProperty name := Option.isSome_map

theorem find_put (value : Value P) (other : String) :
    (c.put name value).find other = if other = name then some value else c.find other := by
  unfold find put
  rw [OrderedMap.find_insert]
  by_cases same : other = name
  · rw [if_pos same, if_pos (by rw [same])]
  · rw [if_neg same, if_neg fun h => same (String.toList_injective h)]

theorem find_clone : c.clone.find name = (c.find name).map fun value => .string value.asString :=
  OrderedMap.find_map ..

theorem set_string {c : Container P} {name : String} {old : Str} (found : c.find name = some (.string old)) (s : Str) :
    c.set name (.string s) = some (c.put name (.string s)) := by
  unfold set
  rw [found]
  rfl

end Container

end Movid
