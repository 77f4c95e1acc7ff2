import ApiManifest.Json

/-!
Values on their way out: what a manifest holds, with the fields of a record in the order in which
they are written, and with a variant that carries data marked as such. As JSON a variant is an
object with one key.
-/

namespace ApiManifest

inductive Wire where
  | bool (value : Bool)
  | int (value : Int)
  | string (text : String)
  | list (items : List Wire)
  | record (fields : List (String × Wire))
  | variant (tag : String) (payload : Wire)
  deriving Inhabited

namespace Wire

mutual

def toJson : Wire → Json
  | .bool value => .bool value
  | .int value => .int value
  | .string text => .string text
  | .list items => .array (itemsToJson items)
  | .record fields => .ofEntries (fieldsToJson fields)
  | .variant tag payload => .object [(tag, toJson payload)]

def itemsToJson : List Wire → List Json
  | [] => []
  | item :: rest => toJson item :: itemsToJson rest

def fieldsToJson : List (String × Wire) → List (String × Json)
  | [] => []
  | (name, value) :: rest => (name, toJson value) :: fieldsToJson rest

end

theorem toJson_ne_null (wire : Wire) : wire.toJson ≠ .null := by
  cases wire <;> simp [Wire.toJson, Json.ofEntries]

theorem itemsToJson_eq (items : List Wire) : itemsToJson items = items.map toJson := by
  induction items with
  | nil => rfl
  | cons item rest ih => rw [itemsToJson, ih, List.map_cons]

theorem fieldsToJson_eq (fields : List (String × Wire)) :
    fieldsToJson fields = fields.map (fun field => (field.1, field.2.toJson)) := by
  induction fields with
  | nil => rfl
  | cons field rest ih => rw [fieldsToJson, ih, List.map_cons]

end Wire

end ApiManifest
