import Lineage.Json.Basic

/-!
# Records in JSON

A record with known keys is written either as an object, where keys that are
not known are ignored, or as an array of its parts in the order of the keys,
where trailing parts may be left out.  `record?` reads both presentations into
the same list of keyed parts.  Every part is smaller than the document it was
taken from, which is what lets a decoder recurse on parts.
-/

set_option autoImplicit false

namespace Lineage.Json

/-- The documents that are smaller than the given one. -/
abbrev Below (json : Json) := { part : Json // sizeOf part < sizeOf json }

theorem sizeOf_lt_arr {items : List Json} {item : Json} (member : item ∈ items) :
    sizeOf item < sizeOf (arr items) := by
  have smaller := List.sizeOf_lt_of_mem member
  simp only [arr.sizeOf_spec]
  omega

theorem sizeOf_lt_obj {members : List (String × Json)} {entry : String × Json}
    (member : entry ∈ members) : sizeOf entry.2 < sizeOf (obj members) := by
  have smaller := List.sizeOf_lt_of_mem member
  obtain ⟨key, value⟩ := entry
  simp only [obj.sizeOf_spec, Prod.mk.sizeOf_spec] at smaller ⊢
  omega

def items? : (json : Json) → Option (List (Below json))
  | .arr items => some (items.attach.map fun item => ⟨item.1, sizeOf_lt_arr item.2⟩)
  | _ => none

/-- The parts of a record under their keys. -/
abbrev Record (json : Json) := List (String × Below json)

/-- Read a record with the given keys.  An array longer than the list of keys
and an object that repeats a known key are refused. -/
def record? (keys : List String) : (json : Json) → Option (Record json)
  | .obj members =>
      if keys.all fun key => members.countP (·.1 == key) ≤ 1 then
        some (members.attach.map fun entry => (entry.1.1, ⟨entry.1.2, sizeOf_lt_obj entry.2⟩))
      else none
  | .arr items =>
      if items.length ≤ keys.length then
        some (keys.zip (items.attach.map fun item => ⟨item.1, sizeOf_lt_arr item.2⟩))
      else none
  | _ => none

def Record.part? {json : Json} (record : Record json) (key : String) : Option (Below json) :=
  record.lookup key

/-- Decode the part under a key; without the part the given value stands in. -/
def Record.optional {json : Json} {α : Type} (record : Record json) (key : String)
    (absent : α) (decode : Json → Option α) : Option α :=
  match record.part? key with
  | none => some absent
  | some part => decode part.1

/-- Decode the part under a key, which must be there. -/
def Record.required {json : Json} {α : Type} (record : Record json) (key : String)
    (decode : Json → Option α) : Option α :=
  (record.part? key).bind fun part => decode part.1

def nullable {α : Type} (decode : Json → Option α) : Json → Option (Option α)
  | .null => some none
  | json => (decode json).map some

def listOf {α : Type} (decode : Json → Option α) : Json → Option (List α)
  | .arr items => items.mapM decode
  | _ => none

end Lineage.Json
