import ApiManifest.Proofs.JsonText
import ApiManifest.Proofs.PlainData
import ApiManifest.Proofs.WrittenShape

/-!
The two formats in which a manifest is written. The JSON text says what the manifest is. The YAML
text says the same as plain data exactly when no variant with data was written as a tag and no text
stands plain that the core schema takes for a number.
-/

namespace ApiManifest.CommandLine

/-- A manifest of one of the kinds that are made. -/
inductive Resource where
  | httpRoute (manifest : Gateway.HttpRoute)
  | authPolicy (manifest : Policy.AuthPolicy)
  | rateLimitPolicy (manifest : Policy.RateLimitPolicy)
  | authConfig (manifest : AuthConfig.Config)
  | virtualService (manifest : Mesh.VirtualService)
  | authorizationPolicy (manifest : Mesh.AuthorizationPolicy)
  | api (manifest : Descriptor.Api)

namespace Resource

def toWire : Resource → Wire
  | .httpRoute manifest => manifest.toWire
  | .authPolicy manifest => manifest.toWire
  | .rateLimitPolicy manifest => manifest.toWire
  | .authConfig manifest => manifest.toWire
  | .virtualService manifest => manifest.toWire
  | .authorizationPolicy manifest => manifest.toWire
  | .api manifest => manifest.toWire

theorem toWire_sound (resource : Resource) :
    ∃ fields, resource.toWire = .record fields ∧ fields ≠ [] ∧ Wire.Sound false (.record fields) := by
  cases resource with
  | httpRoute manifest => exact manifest.toWire_sound Gateway.RouteSpec.codec_sound
  | authPolicy manifest => exact manifest.toWire_sound Policy.AuthPolicySpec.codec_sound
  | rateLimitPolicy manifest => exact manifest.toWire_sound Policy.RateLimitPolicySpec.codec_sound
  | authConfig manifest => exact manifest.toWire_sound AuthConfig.AuthConfigSpec.codec_sound
  | virtualService manifest => exact manifest.toWire_sound Mesh.VirtualServiceSpec.codec_sound
  | authorizationPolicy manifest =>
    exact manifest.toWire_sound Mesh.AuthorizationPolicySpec.codec_sound
  | api manifest => exact manifest.toWire_sound Descriptor.ApiSpec.codec_sound

theorem readData_yaml_iff (resource : Resource) :
    Yaml.readData (encode .yaml resource.toWire) = some resource.toWire.toJson ↔
      resource.toWire.isPlainData := by
  obtain ⟨fields, written, nonempty, sound⟩ := resource.toWire_sound
  rw [written]
  exact Wire.readData_toYaml_iff nonempty sound

/-- Both formats say what the manifest is, YAML exactly if all of the manifest is plain data. -/
theorem formats_agree_iff (resource : Resource) :
    Json.parse? (encode .json resource.toWire) = some resource.toWire.toJson ∧
      (Yaml.readData (encode .yaml resource.toWire) = Json.parse? (encode .json resource.toWire) ↔
        resource.toWire.isPlainData) := by
  have json : Json.parse? (encode .json resource.toWire) = some resource.toWire.toJson :=
    Wire.parse?_toJsonText resource.toWire
  rw [json]
  exact ⟨rfl, resource.readData_yaml_iff⟩

def exactPath : Mesh.VirtualService where
  metadata := .named "petstore"
  spec := ⟨[], [], [⟨"listPets", [⟨some (.exact "/pets"), none⟩], []⟩]⟩

/-- The path is an object in JSON, and only a text in YAML. -/
theorem exactPath_formats_differ :
    Yaml.readData (encode .yaml (Resource.virtualService exactPath).toWire)
      ≠ Json.parse? (encode .json (Resource.virtualService exactPath).toWire) := by
  have json : Json.parse? (encode .json (Resource.virtualService exactPath).toWire)
      = some (Resource.virtualService exactPath).toWire.toJson := Wire.parse?_toJsonText _
  rw [json, Ne, readData_yaml_iff]
  decide

end Resource

end ApiManifest.CommandLine
