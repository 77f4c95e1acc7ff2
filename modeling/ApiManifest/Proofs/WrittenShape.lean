import ApiManifest.CommandLine.Run
import ApiManifest.Proofs.Yaml.WrittenTokens

/-!
The shape of what codecs write. Keys of a record are distinct, and a variant that carries data
stands directly under the name of a field, which is short enough for a line with its value. Both
follow for each manifest from the codecs it is put together from.
-/

namespace ApiManifest

open Wire (ItemsSound EntriesSound)
open Yaml.Written (isSimpleKey)

variable {α σ : Type}

theorem Wire.itemsSound_iff {items : List Wire} :
    ItemsSound items ↔ ∀ item ∈ items, Wire.Sound false item := by
  induction items with
  | nil => simp [ItemsSound]
  | cons item items ih => simp [ItemsSound, ih]

theorem Wire.entriesSound_iff {fields : List (String × Wire)} : EntriesSound fields ↔
    ∀ field ∈ fields, Wire.Sound (isSimpleKey field.1.toList) field.2 := by
  induction fields with
  | nil => simp [EntriesSound]
  | cons field fields ih => simp [EntriesSound, ih]

def Codec.Sound (codec : Codec α) : Prop :=
  ∀ tagged value, Wire.Sound tagged (codec.write value)

/-- What the codec writes may stand after a key on the same line. -/
def Codec.SoundUnderKey (codec : Codec α) : Prop :=
  ∀ value, Wire.Sound true (codec.write value)

def WireField.Sound (field : WireField α) : Prop :=
  ∀ value wire, field.write value = some wire → Wire.Sound (isSimpleKey field.name.toList) wire

namespace Fields

@[simp] def Sound : {σ : Type} → Fields WireField σ → Prop
  | _, .nil => True
  | _, .cons field rest => field.Sound ∧ rest.Sound

theorem write_sound {σ : Type} {fields : Fields WireField σ} (sound : fields.Sound) (values : σ) :
    EntriesSound (fields.write values) := by
  induction fields with
  | nil => trivial
  | cons field rest ih =>
    obtain ⟨value, others⟩ := values
    rw [write]
    split
    · next wire found => exact ⟨sound.1 value wire found, ih sound.2 others⟩
    · exact ih sound.2 others

end Fields

namespace Codec

@[simp] theorem sound_text : Codec.text.Sound := fun _ _ => trivial

@[simp] theorem sound_flag : Codec.flag.Sound := fun _ _ => trivial

@[simp] theorem sound_int32 : Codec.int32.Sound := fun _ _ => trivial

@[simp] theorem sound_int64 : Codec.int64.Sound := fun _ _ => trivial

@[simp] theorem sound_nat32 : Codec.nat32.Sound := fun _ _ => trivial

@[simp] theorem sound_choice (values : List (String × α)) (name : α → String) :
    (choice values name).Sound := fun _ _ => trivial

variable {codec : Codec α}

@[simp] theorem sound_list (sound : codec.Sound) : (list codec).Sound := by
  intro tagged items
  refine Wire.itemsSound_iff.2 fun wire member => ?_
  obtain ⟨item, -, rfl⟩ := List.mem_map.1 member
  exact sound false item

/-- A dictionary may have keys of any length, so its values must be sound anywhere. -/
@[simp] theorem sound_sorted (sound : codec.Sound) : (sorted codec).Sound := by
  intro tagged dict
  refine ⟨?_, Wire.entriesSound_iff.2 fun field member => ?_⟩
  · have keys := SortedDict.nodup_of_sorted dict.sorted
    simpa [List.map_map, Function.comp_def] using keys
  · obtain ⟨entry, -, rfl⟩ := List.mem_map.1 member
    exact sound _ entry.2

variable {fields : Fields WireField σ}

theorem sound_record {name : String} {build : σ → α} {parts : α → σ}
    (distinct : fields.names.Nodup) (sound : fields.Sound) :
    (record name fields build parts).Sound :=
  fun _ value => ⟨(fields.write_names (parts value)).nodup distinct,
    Fields.write_sound sound (parts value)⟩

/-- The name of the variant must be no field's. -/
theorem sound_recordWith {β : Type} {name : String} {choice : Variants β} {build : σ → β → α}
    {parts : α → σ} {variant : α → β} {names : List String} (distinct : fields.names.Nodup)
    (sound : fields.Sound) (named : ∀ value, (choice.write value).1 ∈ names)
    (other : ∀ name ∈ names, name ∉ fields.names)
    (carried : ∀ value,
      Wire.Sound (isSimpleKey (choice.write value).1.toList) (choice.write value).2) :
    (recordWith name fields choice build parts variant).Sound := by
  intro tagged value
  have written := fields.write_names (parts value)
  refine ⟨?_, Wire.entriesSound_iff.2 fun field member => ?_⟩
  · rw [List.map_append, List.nodup_append]
    refine ⟨written.nodup distinct, by simp, ?_⟩
    intro key member last here same
    rw [List.map_singleton, List.mem_singleton] at here
    exact other _ (named (variant value)) (here ▸ same ▸ written.subset member)
  · rcases List.mem_append.1 member with given | last
    · exact Wire.entriesSound_iff.1 (Fields.write_sound sound (parts value)) field given
    · rw [List.mem_singleton.1 last]
      exact carried (variant value)

/-- The names of the variants must be words, and none of them a key of what a variant carries. -/
theorem soundUnderKey_variants {choice : Variants α} {names : List String} (keys : List String)
    (named : ∀ value, (choice.write value).1 ∈ names)
    (words : names.all (fun name => !name.toList.isEmpty && name.toList.all Yaml.isWord))
    (apart : ∀ name ∈ names, name ∉ keys)
    (carried : ∀ value, (choice.write value).2.isPayload ∧ (choice.write value).2.names = keys ∧
      Wire.Sound true (choice.write value).2) : (variants choice).SoundUnderKey := by
  intro value
  obtain ⟨payload, held, sound⟩ := carried value
  have spelled := List.all_eq_true.1 words _ (named value)
  rw [Bool.and_eq_true, List.all_eq_true] at spelled
  obtain ⟨nonempty, word⟩ := spelled
  exact ⟨rfl, by simpa using nonempty, word, payload, held ▸ apart _ (named value), sound⟩

end Codec

namespace WireField

variable {name : String} {codec : Codec α}

@[simp] theorem sound_required (sound : codec.Sound) : (required name codec).Sound := by
  intro value wire written
  obtain rfl := Option.some.inj written
  exact sound _ value

@[simp] theorem sound_optional (sound : codec.Sound) : (optional name codec).Sound := by
  intro value wire written
  obtain ⟨value, -, rfl⟩ := Option.map_eq_some_iff.1 written
  exact sound _ value

theorem sound_optional_variants (simple : isSimpleKey name.toList)
    (sound : codec.SoundUnderKey) : (optional name codec).Sound := by
  intro value wire written
  obtain ⟨value, -, rfl⟩ := Option.map_eq_some_iff.1 written
  rw [show (optional name codec).name = name from rfl, simple]
  exact sound value

@[simp] theorem sound_items (sound : codec.Sound) : (items name codec).Sound := by
  intro value wire written
  simp only [items, Option.ite_none_left_eq_some, Option.some.injEq] at written
  obtain ⟨-, rfl⟩ := written
  exact Codec.sound_list sound _ value

@[simp] theorem sound_textOrEmpty : (textOrEmpty name).Sound := by
  intro value wire written
  simp only [textOrEmpty, Option.ite_none_left_eq_some, Option.some.injEq] at written
  obtain ⟨-, rfl⟩ := written
  trivial

@[simp] theorem sound_textAlways : (textAlways name).Sound := by
  intro value wire written
  obtain rfl := Option.some.inj written
  trivial

end WireField

namespace Gateway

@[simp] theorem PathModifierType.codec_sound : PathModifierType.codec.Sound :=
  Codec.sound_choice _ _

@[simp] theorem RedirectScheme.codec_sound : RedirectScheme.codec.Sound :=
  Codec.sound_choice _ _

@[simp] theorem FilterType.codec_sound : FilterType.codec.Sound :=
  Codec.sound_choice _ _

@[simp] theorem PathMatchType.codec_sound : PathMatchType.codec.Sound :=
  Codec.sound_choice _ _

@[simp] theorem ValueMatchType.codec_sound : ValueMatchType.codec.Sound :=
  Codec.sound_choice _ _

@[simp] theorem Method.codec_sound : Method.codec.Sound :=
  Codec.sound_choice _ _

@[simp] theorem ParentRef.codec_sound : ParentRef.codec.Sound :=
  Codec.sound_record (by decide) (by simp)

@[simp] theorem ExtensionRef.codec_sound : ExtensionRef.codec.Sound :=
  Codec.sound_record (by decide) (by simp)

@[simp] theorem Header.codec_sound (recordName : String) : (Header.codec recordName).Sound :=
  Codec.sound_record (by decide) (by simp)

@[simp] theorem HeaderModifier.codec_sound (recordName : String) : (HeaderModifier.codec recordName).Sound :=
  Codec.sound_record (show ["add", "remove", "set"].Nodup by decide) (by simp)

@[simp] theorem MirrorTarget.codec_sound : MirrorTarget.codec.Sound :=
  Codec.sound_record (by decide) (by simp)

@[simp] theorem Mirror.codec_sound : Mirror.codec.Sound :=
  Codec.sound_record (by decide) (by simp)

@[simp] theorem PathModifier.codec_sound (recordName : String) : (PathModifier.codec recordName).Sound :=
  Codec.sound_record (by decide) (by simp)

@[simp] theorem Redirect.codec_sound : Redirect.codec.Sound :=
  Codec.sound_record (by decide) (by simp)

@[simp] theorem UrlModifier.codec_sound : UrlModifier.codec.Sound :=
  Codec.sound_record (by decide) (by simp)

@[simp] theorem Filter.codec_sound : Filter.codec.Sound :=
  Codec.sound_record (by decide) (by simp)

@[simp] theorem BackendRef.codec_sound : BackendRef.codec.Sound :=
  Codec.sound_record (by decide) (by simp)

@[simp] theorem PathMatch.codec_sound : PathMatch.codec.Sound :=
  Codec.sound_record (by decide) (by simp)

@[simp] theorem ValueMatch.codec_sound (recordName : String) : (ValueMatch.codec recordName).Sound :=
  Codec.sound_record (by decide) (by simp)

@[simp] theorem RouteMatch.codec_sound : RouteMatch.codec.Sound :=
  Codec.sound_record (by decide) (by simp)

@[simp] theorem RouteRule.codec_sound : RouteRule.codec.Sound :=
  Codec.sound_record (by decide) (by simp)

@[simp] theorem RouteSpec.codec_sound : RouteSpec.codec.Sound :=
  Codec.sound_record (by decide) (by simp)

end Gateway

namespace Policy

@[simp] theorem ConditionOperator.codec_sound : ConditionOperator.codec.Sound :=
  Codec.sound_choice _ _

@[simp] theorem TimeUnit.codec_sound : TimeUnit.codec.Sound :=
  Codec.sound_choice _ _

@[simp] theorem TargetRef.codec_sound : TargetRef.codec.Sound :=
  Codec.sound_record (by decide) (by simp)

@[simp] theorem RouteSelector.codec_sound : RouteSelector.codec.Sound :=
  Codec.sound_record (by decide) (by simp)

@[simp] theorem LabelSelector.codec_sound : LabelSelector.codec.Sound :=
  Codec.sound_record (by decide) (by simp)

@[simp] theorem Named.codec_sound : Named.codec.Sound :=
  Codec.sound_record (by decide) (by simp)

@[simp] theorem ApiKeyAuthentication.codec_sound : ApiKeyAuthentication.codec.Sound :=
  Codec.sound_record (by decide) (by simp)

@[simp] theorem JwtAuthentication.codec_sound : JwtAuthentication.codec.Sound :=
  Codec.sound_record (by decide) (by simp)

theorem Credentials.codec_sound : Credentials.codec.SoundUnderKey := by
  have named : ∀ credentials, (Credentials.variants.write credentials).1
      ∈ ["customHeader", "queryString", "cookie"] := by
    intro credentials
    cases credentials <;> simp [variants]
  apply Codec.soundUnderKey_variants ["name"] named (by decide) (by decide)
  intro credentials
  cases credentials <;> exact ⟨rfl, rfl, Named.codec_sound true _⟩

@[simp] theorem Authentication.codec_sound : Authentication.codec.Sound := by
  have named : ∀ method, (AuthenticationMethod.variants.write method).1 ∈ ["apiKey", "jwt"] := by
    intro method
    cases method <;> simp [AuthenticationMethod.variants]
  have credentials : (WireField.optional "credentials" Credentials.codec).Sound :=
    WireField.sound_optional_variants (by decide) Credentials.codec_sound
  apply Codec.sound_recordWith (by decide) (by simp [credentials]) named (by decide)
  intro method
  cases method with
  | apiKey key => exact ApiKeyAuthentication.codec_sound _ key
  | jwt token => exact JwtAuthentication.codec_sound _ token

@[simp] theorem AuthRules.codec_sound : AuthRules.codec.Sound :=
  Codec.sound_record (by decide) (by simp)

@[simp] theorem AuthPolicySpec.codec_sound : AuthPolicySpec.codec.Sound :=
  Codec.sound_record (by decide) (by simp)

@[simp] theorem Condition.codec_sound : Condition.codec.Sound :=
  Codec.sound_record (by decide) (by simp)

@[simp] theorem Rate.codec_sound : Rate.codec.Sound :=
  Codec.sound_record (by decide) (by simp)

@[simp] theorem Limit.codec_sound : Limit.codec.Sound :=
  Codec.sound_record (by decide) (by simp)

@[simp] theorem RateLimitPolicySpec.codec_sound : RateLimitPolicySpec.codec.Sound :=
  Codec.sound_record (by decide) (by simp)

end Policy

namespace Mesh

@[simp] theorem Action.codec_sound : Action.codec.Sound :=
  Codec.sound_choice _ _

theorem StringMatch.codec_sound : StringMatch.codec.SoundUnderKey := by
  have named : ∀ condition, (StringMatch.variants.write condition).1
      ∈ ["exact", "prefix", "regex"] := by
    intro condition
    cases condition <;> simp [variants]
  apply Codec.soundUnderKey_variants [] named (by decide) (by decide)
  intro condition
  cases condition <;> exact ⟨rfl, rfl, trivial⟩

@[simp] theorem RequestMatch.codec_sound : RequestMatch.codec.Sound :=
  Codec.sound_record (by decide)
    ⟨WireField.sound_optional_variants (by decide) StringMatch.codec_sound,
      WireField.sound_optional_variants (by decide) StringMatch.codec_sound, trivial⟩

@[simp] theorem Port.codec_sound : Port.codec.Sound :=
  Codec.sound_record (by decide) (by simp)

@[simp] theorem Destination.codec_sound : Destination.codec.Sound :=
  Codec.sound_record (by decide) (by simp)

@[simp] theorem WeightedDestination.codec_sound : WeightedDestination.codec.Sound :=
  Codec.sound_record (by decide) (by simp)

@[simp] theorem ServiceRoute.codec_sound : ServiceRoute.codec.Sound :=
  Codec.sound_record (by decide) (by simp)

@[simp] theorem VirtualServiceSpec.codec_sound : VirtualServiceSpec.codec.Sound :=
  Codec.sound_record (by decide) (by simp)

@[simp] theorem WorkloadSelector.codec_sound : WorkloadSelector.codec.Sound :=
  Codec.sound_record (by decide) (by simp)

@[simp] theorem RequestSet.codec_sound : RequestSet.codec.Sound :=
  Codec.sound_record (by decide) (by simp)

@[simp] theorem RuleTarget.codec_sound : RuleTarget.codec.Sound :=
  Codec.sound_record (by decide) (by simp)

@[simp] theorem AuthorizationRule.codec_sound : AuthorizationRule.codec.Sound :=
  Codec.sound_record (by decide) (by simp)

@[simp] theorem Provider.codec_sound : Provider.codec.Sound :=
  Codec.sound_record (by decide) (by simp)

@[simp] theorem AuthorizationPolicySpec.codec_sound : AuthorizationPolicySpec.codec.Sound :=
  Codec.sound_record (by decide) (by simp)

end Mesh

namespace AuthConfig

@[simp] theorem PatternOperator.codec_sound : PatternOperator.codec.Sound :=
  Codec.sound_choice _ _

@[simp] theorem CredentialsLocation.codec_sound : CredentialsLocation.codec.Sound :=
  Codec.sound_choice _ _

@[simp] theorem Pattern.codec_sound : Pattern.codec.Sound :=
  Codec.sound_record (by decide) (by simp)

@[simp] theorem Credentials.codec_sound : Credentials.codec.Sound :=
  Codec.sound_record (by decide) (by simp)

@[simp] theorem ApiKey.codec_sound : ApiKey.codec.Sound :=
  Codec.sound_record (by decide) (by simp)

@[simp] theorem Oidc.codec_sound : Oidc.codec.Sound :=
  Codec.sound_record (by decide) (by simp)

@[simp] theorem Identity.codec_sound : Identity.codec.Sound := by
  have named : ∀ method, (IdentityMethod.variants.write method).1 ∈ ["apiKey", "oidc"] := by
    intro method
    cases method <;> simp [IdentityMethod.variants]
  apply Codec.sound_recordWith (by decide) (by simp) named (by decide)
  intro method
  cases method with
  | apiKey key => exact ApiKey.codec_sound _ key
  | oidc issuer => exact Oidc.codec_sound _ issuer

@[simp] theorem AuthConfigSpec.codec_sound : AuthConfigSpec.codec.Sound :=
  Codec.sound_record (by decide) (by simp [hostsField])

end AuthConfig

namespace Descriptor

@[simp] theorem Operation.codec_sound : Operation.codec.Sound :=
  Codec.sound_record (by decide) (by simp)

@[simp] theorem ApiKeyAuth.codec_sound : ApiKeyAuth.codec.Sound :=
  Codec.sound_record (by decide) (by simp)

@[simp] theorem OpenIdAuth.codec_sound : OpenIdAuth.codec.Sound :=
  Codec.sound_record (by decide) (by simp)

@[simp] theorem SecurityScheme.codec_sound : SecurityScheme.codec.Sound :=
  Codec.sound_record (by decide) (by simp)

@[simp] theorem ApiSpec.codec_sound : ApiSpec.codec.Sound :=
  Codec.sound_record (by decide) (by simp)

end Descriptor

@[simp] theorem Metadata.codec_sound : Metadata.codec.Sound := by
  have sound : Metadata.fields.Sound := by
    simp [Metadata.fields]
  intro tagged metadata
  exact ⟨(Metadata.fields.write_names _).nodup (by decide), Fields.write_sound sound _⟩

theorem Manifest.toWire_sound {σ : Type} [Specification σ]
    (sound : (Specification.codec (σ := σ)).Sound) (manifest : Manifest σ) :
    ∃ fields, manifest.toWire = .record fields ∧ fields ≠ [] ∧
      Wire.Sound false (.record fields) := by
  have parts : (Manifest.fields (σ := σ)).Sound := by
    simp [Manifest.fields, sound]
  have distinct : ["apiVersion", "kind", "metadata", "spec"].Nodup := by decide
  exact ⟨_, rfl, by simp, distinct, trivial, trivial, Fields.write_sound parts _⟩

end ApiManifest
