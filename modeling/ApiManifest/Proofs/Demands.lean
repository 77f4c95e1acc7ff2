import ApiManifest.Generate.Authentication

/-!
What declared schemes mean and what requirements ask for, case by case. A scheme is refused for
something that its type asks for and that it lacks, a requirement for the scheme that it names or for
naming several. Later case splits over schemes and over requirements are splits over these cases.
-/

namespace ApiManifest

theorem Nonempty.text?_eq_some_iff {text : Option String} {value : String} :
    text? text = some value ↔ text = some value ∧ value ≠ "" := by
  unfold text?
  rw [Option.filter_eq_some_iff]
  simp

theorem Nonempty.text?_eq_none_iff {text : Option String} :
    text? text = none ↔ text.getD "" = "" := by
  cases text with
  | none => simp [text?]
  | some value => simp [text?, Option.filter]

theorem Security.KeyLocation.ofName?_name (location : KeyLocation) :
    ofName? location.name = some location := by
  cases location <;> rfl

theorem Security.KeyLocation.ofName?_eq_some {text : String} {location : KeyLocation}
    (found : ofName? text = some location) : text = location.name := by
  unfold ofName? at found
  split at found <;> cases found <;> rfl

theorem Security.KeyLocation.ofName?_eq_none_iff {text : String} :
    ofName? text = none ↔ ∀ location : KeyLocation, text ≠ location.name := by
  constructor
  · rintro unknown location rfl
    rw [ofName?_name] at unknown
    cases unknown
  · intro unknown
    cases found : ofName? text with
    | none => rfl
    | some location => exact absurd (ofName?_eq_some found) (unknown location)

namespace Generate

open ApiManifest.Nonempty (text?_eq_some_iff text?_eq_none_iff)
open OpenApi (Document Requirement SecurityScheme)
open Resolution (Resolved)
open Security (KeyLocation Scheme)
open Security.KeyLocation (ofName?_name ofName?_eq_some ofName?_eq_none_iff)

/-- What a scheme of that type must have and this one lacks. -/
inductive Lacks (scheme : SecurityScheme) : SchemeFault → Prop
  | location (kind : scheme.kind = "apiKey") (missing : scheme.location = none) :
      Lacks scheme .locationMissing
  | knownLocation {text : String} (kind : scheme.kind = "apiKey")
      (given : scheme.location = some text)
      (unknown : ∀ location : KeyLocation, text ≠ location.name) : Lacks scheme .locationUnknown
  | keyName {location : KeyLocation} (kind : scheme.kind = "apiKey")
      (given : scheme.location = some location.name) (missing : scheme.name.getD "" = "") :
      Lacks scheme .nameMissing
  | url (kind : scheme.kind = "openIdConnect") (missing : scheme.openIdConnectUrl.getD "" = "") :
      Lacks scheme .urlMissing

/-! ### What schemes mean -/

inductive Means (name : String) (scheme : SecurityScheme) : Except GenerationError Scheme → Prop
  | apiKey {location : KeyLocation} {key : String} (kind : scheme.kind = "apiKey")
      (given : scheme.location = some location.name) (keyName : scheme.name = some key)
      (filled : key ≠ "") : Means name scheme (.ok (.apiKey location key))
  | openIdConnect {url : String} (kind : scheme.kind = "openIdConnect")
      (given : scheme.openIdConnectUrl = some url) (filled : url ≠ "") :
      Means name scheme (.ok (.openIdConnect url))
  | unsupported (notKey : scheme.kind ≠ "apiKey") (notIssuer : scheme.kind ≠ "openIdConnect") :
      Means name scheme (.ok (.unsupported scheme.kind))
  | invalid {fault : SchemeFault} (lacks : Lacks scheme fault) :
      Means name scheme (.error (.invalidScheme name fault))

theorem classify_means (name : String) (scheme : SecurityScheme) :
    Means name scheme (Security.classify name scheme) := by
  unfold Security.classify
  split
  next isKey =>
    split
    next missing => exact .invalid (.location isKey missing)
    next text given =>
      split
      next unknown => exact .invalid (.knownLocation isKey given (ofName?_eq_none_iff.1 unknown))
      next location known =>
        have stands : scheme.location = some location.name :=
          given.trans (congrArg some (ofName?_eq_some known))
        split
        next unnamed => exact .invalid (.keyName isKey stands (text?_eq_none_iff.1 unnamed))
        next key named =>
          obtain ⟨keyName, filled⟩ := text?_eq_some_iff.1 named
          exact .apiKey isKey stands keyName filled
  next notKey =>
    split
    next isIssuer =>
      split
      next missing => exact .invalid (.url isIssuer (text?_eq_none_iff.1 missing))
      next url given =>
        obtain ⟨given, filled⟩ := text?_eq_some_iff.1 given
        exact .openIdConnect isIssuer given filled
    next notIssuer => exact .unsupported notKey notIssuer

theorem notKey_of_isIssuer {scheme : SecurityScheme} (kind : scheme.kind = "openIdConnect") :
    scheme.kind ≠ "apiKey" := by
  rw [kind]
  decide

theorem classify_of_lacks (name : String) {scheme : SecurityScheme} {fault : SchemeFault}
    (lacks : Lacks scheme fault) :
    Security.classify name scheme = .error (.invalidScheme name fault) := by
  unfold Security.classify
  cases lacks with
  | location kind missing => rw [if_pos kind, missing]
  | knownLocation kind given unknown =>
    rw [if_pos kind, given]
    simp only [ofName?_eq_none_iff.2 unknown]
  | keyName kind given missing =>
    rw [if_pos kind, given]
    simp only [ofName?_name, text?_eq_none_iff.2 missing]
  | url kind missing =>
    rw [if_neg (notKey_of_isIssuer kind), if_pos kind, text?_eq_none_iff.2 missing]

theorem classify_eq_iff {name : String} {scheme : SecurityScheme}
    {outcome : Except GenerationError Scheme} :
    Security.classify name scheme = outcome ↔ Means name scheme outcome := by
  constructor
  · rintro rfl
    exact classify_means name scheme
  · intro means
    cases means with
    | invalid lacks => exact classify_of_lacks name lacks
    | unsupported notKey notIssuer =>
      unfold Security.classify
      rw [if_neg notKey, if_neg notIssuer]
    | apiKey kind given keyName filled =>
      unfold Security.classify
      rw [if_pos kind, given]
      simp only [ofName?_name, text?_eq_some_iff.2 ⟨keyName, filled⟩]
    | openIdConnect kind given filled =>
      unfold Security.classify
      rw [if_neg (notKey_of_isIssuer kind), if_pos kind, text?_eq_some_iff.2 ⟨given, filled⟩]

/-! ### What requirements ask for -/

section Demands

variable {document : Document} {operation : Resolved} {requirement : Requirement}

/-- What a requirement of an operation asks for, or why it is refused. -/
inductive Asks (document : Document) (operation : Resolved) (requirement : Requirement) :
    Except GenerationError Demand → Prop
  | anyone (free : requirement.keys = []) : Asks document operation requirement (.ok .anonymous)
  | undeclared {name : String} (alone : requirement.keys = [name])
      (absent : document.components.securitySchemes.get? name = none) :
      Asks document operation requirement (.ok (.undeclared name))
  | declared {name : String} {scheme : SecurityScheme} {meaning : Scheme}
      (alone : requirement.keys = [name])
      (declared : document.components.securitySchemes.get? name = some scheme)
      (means : Means name scheme (.ok meaning)) :
      Asks document operation requirement (.ok (.declared name meaning))
  | invalid {name : String} {scheme : SecurityScheme} {fault : SchemeFault}
      (alone : requirement.keys = [name])
      (declared : document.components.securitySchemes.get? name = some scheme)
      (lacks : Lacks scheme fault) :
      Asks document operation requirement (.error (.invalidScheme name fault))
  | combined (several : 2 ≤ requirement.keys.length) :
      Asks document operation requirement
        (.error (.unsupportedRequirement operation.name requirement.keys))

theorem demand_of_anyone (free : requirement.keys = []) :
    demand document operation requirement = .ok .anonymous := by
  unfold demand Security.requiredScheme
  rw [free]
  rfl

theorem demand_of_undeclared {name : String} (alone : requirement.keys = [name])
    (absent : document.components.securitySchemes.get? name = none) :
    demand document operation requirement = .ok (.undeclared name) := by
  unfold demand Security.requiredScheme
  rw [alone]
  simp only [bind, Except.bind, absent]
  rfl

theorem demand_of_declared {name : String} {scheme : SecurityScheme}
    (alone : requirement.keys = [name])
    (declared : document.components.securitySchemes.get? name = some scheme) :
    demand document operation requirement =
      (Security.classify name scheme).map (Demand.declared name) := by
  unfold demand Security.requiredScheme
  rw [alone]
  simp only [bind, Except.bind, declared]
  cases Security.classify name scheme <;> rfl

theorem demand_of_several (several : 2 ≤ requirement.keys.length) :
    demand document operation requirement =
      .error (.unsupportedRequirement operation.name requirement.keys) := by
  unfold demand Security.requiredScheme
  cases keys : requirement.keys with
  | nil => simp [keys] at several
  | cons name rest =>
    cases rest with
    | nil => simp [keys] at several
    | cons next others => rfl

theorem demand_asks (document : Document) (operation : Resolved) (requirement : Requirement) :
    Asks document operation requirement (demand document operation requirement) := by
  rcases keys : requirement.keys with _ | ⟨name, _ | ⟨next, others⟩⟩
  · rw [demand_of_anyone keys]
    exact .anyone keys
  · cases declared : document.components.securitySchemes.get? name with
    | none =>
      rw [demand_of_undeclared keys declared]
      exact .undeclared keys declared
    | some scheme =>
      rw [demand_of_declared keys declared]
      cases classified : Security.classify name scheme with
      | ok meaning => exact .declared keys declared (classify_eq_iff.1 classified)
      | error error =>
        cases classify_eq_iff.1 classified with
        | invalid lacks => exact .invalid keys declared lacks
  · have several : 2 ≤ requirement.keys.length := by simp [keys]
    rw [demand_of_several several]
    exact .combined several

theorem demand_eq_iff {outcome : Except GenerationError Demand} :
    demand document operation requirement = outcome ↔
      Asks document operation requirement outcome := by
  constructor
  · rintro rfl
    exact demand_asks document operation requirement
  · intro asks
    cases asks with
    | anyone free => exact demand_of_anyone free
    | undeclared alone absent => exact demand_of_undeclared alone absent
    | combined several => exact demand_of_several several
    | declared alone declared means =>
      rw [demand_of_declared alone declared, classify_eq_iff.2 means]
      rfl
    | invalid alone declared lacks =>
      rw [demand_of_declared alone declared, classify_of_lacks _ lacks]
      rfl

end Demands

end Generate

end ApiManifest
