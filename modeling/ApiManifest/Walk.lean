/-!
Walks: steps in a fixed order, each of which yields something or fails. A walk ends at the first
step that fails.
-/

namespace ApiManifest

abbrev Walk (ε α : Type) := List (Except ε α)

namespace Walk

variable {ε α : Type}

/-- What all steps yield, or the first failure. -/
def results : Walk ε α → Except ε (List α)
  | [] => .ok []
  | .ok value :: rest => (results rest).map (value :: ·)
  | .error error :: _ => .error error

/-- What the steps before the first failure yield. -/
def reached : Walk ε α → List α
  | [] => []
  | .ok value :: rest => value :: reached rest
  | .error _ :: _ => []

theorem results_eq_ok_iff (walk : Walk ε α) (values : List α) :
    walk.results = .ok values ↔ walk = values.map .ok := by
  induction walk generalizing values with
  | nil => cases values <;> simp [results]
  | cons step rest ih =>
    cases step with
    | error error => cases values <;> simp [results]
    | ok value =>
      cases values with
      | nil => cases same : results rest <;> simp [results, same, Except.map]
      | cons first others =>
        have tail := ih others
        cases same : results rest <;> simp_all [results, Except.map]

end Walk

end ApiManifest
