import ApiManifest.Extension
import ApiManifest.Proofs.RoundTrip

/-!
The settings of a path or an operation as an extension that says just that. Everything the settings
may hold is written by a lawful codec, so the extension is read as the settings it was made of.
-/

namespace ApiManifest

open Codec WireField

namespace Gateway

theorem PathMatchType.lawful : PathMatchType.codec.Lawful :=
  choice_lawful fun type => by cases type <;> rfl

theorem ExtensionRef.lawful : ExtensionRef.codec.Lawful :=
  record_lawful
    (.cons (required_lawful text_lawful) <|
      .cons (required_lawful text_lawful) <|
      .cons (required_lawful text_lawful) .nil)
    (by decide) (fun _ => rfl)

theorem Header.lawful (recordName : String) : (Header.codec recordName).Lawful :=
  record_lawful
    (.cons (required_lawful text_lawful) <|
      .cons (required_lawful text_lawful) .nil)
    (by decide) (fun _ => rfl)

theorem HeaderModifier.lawful (recordName : String) : (HeaderModifier.codec recordName).Lawful := by
  refine record_lawful
    (.cons (optional_lawful (list_lawful (Header.lawful _))) <|
      .cons (optional_lawful (list_lawful text_lawful)) <|
      .cons (optional_lawful (list_lawful (Header.lawful _))) .nil) ?_ (fun _ => rfl)
  change ["add", "remove", "set"].Nodup
  decide

theorem MirrorTarget.lawful : MirrorTarget.codec.Lawful :=
  record_lawful
    (.cons (optional_lawful text_lawful) <|
      .cons (optional_lawful text_lawful) <|
      .cons (required_lawful text_lawful) <|
      .cons (optional_lawful text_lawful) <|
      .cons (optional_lawful int32_lawful) .nil)
    (by decide) (fun _ => rfl)

theorem Mirror.lawful : Mirror.codec.Lawful :=
  record_lawful
    (.cons (required_lawful MirrorTarget.lawful) .nil)
    (by decide) (fun _ => rfl)

theorem PathModifierType.lawful : PathModifierType.codec.Lawful :=
  choice_lawful fun type => by cases type <;> rfl

theorem PathModifier.lawful (recordName : String) : (PathModifier.codec recordName).Lawful :=
  record_lawful
    (.cons (optional_lawful text_lawful) <|
      .cons (optional_lawful text_lawful) <|
      .cons (required_lawful PathModifierType.lawful) .nil)
    (by decide) (fun _ => rfl)

theorem RedirectScheme.lawful : RedirectScheme.codec.Lawful :=
  choice_lawful fun scheme => by cases scheme <;> rfl

theorem Redirect.lawful : Redirect.codec.Lawful :=
  record_lawful
    (.cons (optional_lawful text_lawful) <|
      .cons (optional_lawful (PathModifier.lawful _)) <|
      .cons (optional_lawful int32_lawful) <|
      .cons (optional_lawful RedirectScheme.lawful) <|
      .cons (optional_lawful int64_lawful) .nil)
    (by decide) (fun _ => rfl)

theorem UrlModifier.lawful : UrlModifier.codec.Lawful :=
  record_lawful
    (.cons (optional_lawful text_lawful) <|
      .cons (optional_lawful (PathModifier.lawful _)) .nil)
    (by decide) (fun _ => rfl)

theorem FilterType.lawful : FilterType.codec.Lawful :=
  choice_lawful fun type => by cases type <;> rfl

theorem Filter.lawful : Filter.codec.Lawful :=
  record_lawful
    (.cons (optional_lawful ExtensionRef.lawful) <|
      .cons (optional_lawful (HeaderModifier.lawful _)) <|
      .cons (optional_lawful Mirror.lawful) <|
      .cons (optional_lawful Redirect.lawful) <|
      .cons (optional_lawful (HeaderModifier.lawful _)) <|
      .cons (required_lawful FilterType.lawful) <|
      .cons (optional_lawful UrlModifier.lawful) .nil)
    (by decide) (fun _ => rfl)

theorem BackendRef.lawful : BackendRef.codec.Lawful :=
  record_lawful
    (.cons (optional_lawful (list_lawful Filter.lawful)) <|
      .cons (optional_lawful text_lawful) <|
      .cons (optional_lawful text_lawful) <|
      .cons (required_lawful text_lawful) <|
      .cons (optional_lawful text_lawful) <|
      .cons (optional_lawful int32_lawful) <|
      .cons (optional_lawful int32_lawful) .nil)
    (by decide) (fun _ => rfl)

end Gateway

namespace Policy

theorem ConditionOperator.lawful : ConditionOperator.codec.Lawful :=
  choice_lawful fun operator => by cases operator <;> rfl

theorem Condition.lawful : Condition.codec.Lawful :=
  record_lawful
    (.cons (required_lawful text_lawful) <|
      .cons (required_lawful ConditionOperator.lawful) <|
      .cons (required_lawful text_lawful) .nil)
    (by decide) (fun _ => rfl)

theorem TimeUnit.lawful : TimeUnit.codec.Lawful :=
  choice_lawful fun unit => by cases unit <;> rfl

theorem Rate.lawful : Rate.codec.Lawful :=
  record_lawful
    (.cons (required_lawful int32_lawful) <|
      .cons (required_lawful int32_lawful) <|
      .cons (required_lawful TimeUnit.lawful) .nil)
    (by decide) (fun _ => rfl)

end Policy

namespace Extension

open Gateway (BackendRef PathMatchType)
open Policy (Condition Rate)

/-- A field of an extension, left out where nothing is set. -/
def setting {α : Type} (name : String) (codec : Codec α) : WireField (Option α) where
  toField := .optional name codec.read
  write := Option.map codec.write

theorem setting_lawful {α : Type} {name : String} {codec : Codec α} (lawful : codec.Lawful) :
    (setting name codec).Lawful :=
  option_lawful lawful rfl rfl rfl

def RateLimit.fields :
    Fields WireField (Option (List Condition) × Option (List String) × Option (List Rate) × Unit) :=
  .cons (setting "when" (.list Condition.codec)) <|
    .cons (setting "counters" (.list .text)) <|
    .cons (setting "rates" (.list Rate.codec)) .nil

def RateLimit.codec : Codec RateLimit where
  read := RateLimit.reader
  write := fun limit =>
    .record (RateLimit.fields.write (limit.conditions, limit.counters, limit.rates, ()))

def Settings.fields :
    Fields WireField
      (Option Bool × Option PathMatchType × List BackendRef × Option RateLimit × Unit) :=
  .cons (setting "disable" .flag) <|
    .cons (setting "pathMatchType" PathMatchType.codec) <|
    .cons (.items "backendRefs" BackendRef.codec) <|
    .cons (setting "rate_limit" RateLimit.codec) .nil

def Settings.codec : Codec Settings where
  read := Settings.reader
  write := fun settings => .record (Settings.fields.write
    (settings.disable, settings.pathMatchType, settings.backendRefs, settings.rateLimit, ()))

theorem RateLimit.lawful : RateLimit.codec.Lawful := by
  intro limit
  have lawful : RateLimit.fields.Lawful :=
    .cons (setting_lawful (list_lawful Condition.lawful)) <|
    .cons (setting_lawful (list_lawful text_lawful)) <|
    .cons (setting_lawful (list_lawful Rate.lawful)) .nil
  exact Reader.map_yields
    (Reader.fields_yields lawful (by decide) _ (Fields.among_self _ _)) _

theorem Settings.lawful : Settings.codec.Lawful := by
  intro settings
  have lawful : Settings.fields.Lawful :=
    .cons (setting_lawful flag_lawful) <|
    .cons (setting_lawful PathMatchType.lawful) <|
    .cons (items_lawful BackendRef.lawful) <|
    .cons (setting_lawful RateLimit.lawful) .nil
  exact Reader.map_yields
    (Reader.fields_yields lawful (by decide) _ (Fields.among_self _ _)) _

def Settings.toJson (settings : Settings) : Json :=
  (Settings.codec.write settings).toJson

theorem ofJson_toJson (place : ExtensionPlace) (settings : Settings) :
    Settings.ofJson place (some settings.toJson) = .ok settings := by
  have read : Settings.reader (.json settings.toJson) 0 = .ok (settings, 0) :=
    congrFun (Settings.lawful settings .plain) 0
  unfold Settings.ofJson Extension.read
  split
  · next absent => cases absent
  · next absent => exact absurd (Option.some.inj absent) (Wire.toJson_ne_null _)
  · next value _ given =>
    cases given
    rw [read]

end Extension

end ApiManifest
