import ApiManifest.SortedDict
import ApiManifest.Decimal.Shortest

/-!
JSON values. An object's entries stand in the order of their keys; `Json.object` builds one from
entries in any order, where the last value given for a key is the one kept. Numbers are either
integers or doubles, and a double is never an integer.
-/

namespace ApiManifest

inductive Json where
  | null
  | bool (value : Bool)
  | int (value : Int)
  | float (value : Double)
  | string (text : String)
  | array (items : List Json)
  | object (entries : List (String × Json))
  deriving Inhabited

namespace Json

/-- The object with these entries, sorted by key. -/
def ofEntries (entries : List (String × Json)) : Json :=
  .object (SortedDict.ofList entries).entries

mutual

def beq : Json → Json → Bool
  | .null, .null => true
  | .bool a, .bool b => a == b
  | .int a, .int b => a == b
  | .float a, .float b => decide (a = b)
  | .string a, .string b => a == b
  | .array a, .array b => beqItems a b
  | .object a, .object b => beqEntries a b
  | _, _ => false

def beqItems : List Json → List Json → Bool
  | [], [] => true
  | a :: as, b :: bs => beq a b && beqItems as bs
  | _, _ => false

def beqEntries : List (String × Json) → List (String × Json) → Bool
  | [], [] => true
  | (k, a) :: as, (l, b) :: bs => k == l && beq a b && beqEntries as bs
  | _, _ => false

end

mutual

theorem eq_of_beq {a b : Json} (same : beq a b = true) : a = b := by
  cases a <;> cases b <;> simp_all [beq]
  · exact eq_of_beqItems same
  · exact eq_of_beqEntries same

theorem eq_of_beqItems {as bs : List Json} (same : beqItems as bs = true) : as = bs := by
  cases as <;> cases bs <;> simp_all [beqItems]
  exact ⟨eq_of_beq same.1, eq_of_beqItems same.2⟩

theorem eq_of_beqEntries {as bs : List (String × Json)} (same : beqEntries as bs = true) :
    as = bs := by
  match as, bs with
  | [], [] => rfl
  | [], _ :: _ => simp [beqEntries] at same
  | _ :: _, [] => simp [beqEntries] at same
  | (k, a) :: as, (l, b) :: bs =>
    simp only [beqEntries, Bool.and_eq_true, beq_iff_eq] at same
    obtain ⟨⟨h, values⟩, rest⟩ := same
    rw [h, eq_of_beq values, eq_of_beqEntries rest]

end

mutual

theorem beq_self (a : Json) : beq a a = true := by
  cases a with
  | array items => exact beqItems_self items
  | object entries => exact beqEntries_self entries
  | _ => simp [beq]

theorem beqItems_self (items : List Json) : beqItems items items = true := by
  cases items with
  | nil => rfl
  | cons a rest => simp [beqItems, beq_self a, beqItems_self rest]

theorem beqEntries_self (entries : List (String × Json)) : beqEntries entries entries = true := by
  match entries with
  | [] => rfl
  | (k, a) :: rest => simp [beqEntries, beq_self a, beqEntries_self rest]

end

instance : DecidableEq Json := fun a b =>
  if same : beq a b = true then .isTrue (eq_of_beq same)
  else .isFalse (fun h => same (h ▸ beq_self a))

end Json

end ApiManifest
