import ApiManifest.Resolution
import ApiManifest.Security

/-!
The way through the security requirements of the enabled operations, which both kinds of
authentication manifest take. They differ in what they make of a scheme and in whether a scheme
that is not declared or not supported is passed over or refused.
-/

namespace ApiManifest.Generate

open OpenApi (Document Requirement)
open Resolution (Resolved)
open Security (Scheme)

/-- What a requirement asks for. -/
inductive Demand where
  | anonymous
  | undeclared (scheme : String)
  | declared (name : String) (scheme : Scheme)
  deriving DecidableEq

def demand (document : Document) (operation : Resolved) (requirement : Requirement) :
    Except GenerationError Demand := do
  match ← Security.requiredScheme operation.name requirement with
  | none => return .anonymous
  | some name =>
    match document.components.securitySchemes.get? name with
    | none => return .undeclared name
    | some scheme => return .declared name (← Security.classify name scheme)

/-- What comes of an operation without requirements, or of one requirement. -/
inductive AuthOutcome (ρ : Type) where
  | unsecured (operation : String)
  | anonymous (operation : String)
  | undeclared (operation scheme : String)
  | unsupported (operation scheme kind : String)
  | rule (value : ρ)
  deriving DecidableEq

def AuthOutcome.rule? {ρ : Type} : AuthOutcome ρ → Option ρ
  | .rule value => some value
  | _ => none

/-- The name of the rule for a scheme of an operation. -/
def ruleName (operation : Resolved) (scheme : String) : String :=
  operation.name ++ "_" ++ scheme

/-- Goes through the requirements of an operation. -/
def walkRequirements {ρ : Type} (document : Document)
    (settle : Resolved → Demand → Except GenerationError (AuthOutcome ρ)) (operation : Resolved) :
    Walk GenerationError (AuthOutcome ρ) :=
  if !operation.isSecured then [.ok (.unsecured operation.name)]
  else operation.security.map (fun requirement =>
    demand document operation requirement >>= settle operation)

def walkSecurity {ρ : Type} (document : Document)
    (settle : Resolved → Demand → Except GenerationError (AuthOutcome ρ))
    (operations : List Resolved) : Walk GenerationError (AuthOutcome ρ) :=
  operations.flatMap (walkRequirements document settle)

end ApiManifest.Generate
