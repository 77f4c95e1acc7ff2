import ApiManifest.Codec

/-!
JSON values as they are read. A reader meets a JSON value either as such or as the typed content of
one, and to a reader of what was written the two look the same.
-/

namespace ApiManifest

/-- The two forms in which a JSON value is read. -/
inductive JsonForm where
  | plain
  | typed

def JsonForm.datum : JsonForm → Json → Datum
  | .plain, json => .json json
  | .typed, json => .content (.ofJson json)

theorem Content.ofItems_eq (items : List Json) : ofItems items = items.map ofJson := by
  induction items with
  | nil => rfl
  | cons item rest ih => rw [ofItems, ih, List.map_cons]

theorem Content.ofEntries_eq (entries : List (String × Json)) :
    ofEntries entries = entries.map (fun entry => (.string entry.1, ofJson entry.2)) := by
  induction entries with
  | nil => rfl
  | cons entry rest ih => rw [ofEntries, ih, List.map_cons]

namespace JsonForm

variable (form : JsonForm)

theorem force_datum (json : Json) : (form.datum json).force = pure (form.datum json) := by
  cases form <;> rfl

theorem isNull_datum {json : Json} (given : json ≠ .null) :
    (form.datum json).isNull = pure false := by
  cases json with
  | null => exact absurd rfl given
  | _ => cases form <;> rfl

theorem text_datum (text : String) : (form.datum (.string text)).text = pure text := by
  cases form <;> rfl

theorem flag_datum (value : Bool) : (form.datum (.bool value)).flag = pure value := by
  cases form <;> rfl

theorem int_datum (range : Datum.IntRange) (n : Int) :
    (form.datum (.int n)).int range = Datum.inRange range n := by
  cases form <;> rfl

theorem items_datum (items : List Json) :
    (form.datum (.array items)).items = pure (items.map form.datum) := by
  cases form with
  | plain => rfl
  | typed =>
    change (pure ((Content.ofItems items).map Datum.content) : Read (List Datum)) = _
    rw [Content.ofItems_eq, List.map_map]
    rfl

theorem mapM_ofEntries {β : Type} (entries : List (String × Json))
    {step : Content × Content → Read β} {result : String × Json → β}
    (steps : ∀ entry : String × Json,
      step (.string entry.1, .ofJson entry.2) = pure (result entry)) :
    (Content.ofEntries entries).mapM step = pure (entries.map result) := by
  rw [Content.ofEntries_eq, List.mapM_map]
  have all : step ∘ (fun entry : String × Json => (.string entry.1, .ofJson entry.2)) =
      fun entry => pure (result entry) := funext steps
  rw [all]
  exact List.mapM_pure

theorem entries_datum (entries : List (String × Json)) :
    (form.datum (.object entries)).entries =
      pure (entries.map (fun entry => (entry.1, form.datum entry.2))) := by
  cases form with
  | plain => rfl
  | typed =>
    have named : (Content.ofEntries entries).mapM (fun entry =>
        return (← (Datum.content entry.1).text, Datum.content entry.2)) =
        (pure (entries.map (fun entry => (entry.1, JsonForm.typed.datum entry.2))) : Read _) :=
      mapM_ofEntries entries fun _ => rfl
    exact named

theorem recordForm_datum (expected : String) (entries : List (String × Json)) :
    (form.datum (.object entries)).recordForm expected =
      pure (.named (entries.map (fun entry => (.name entry.1, form.datum entry.2)))) := by
  cases form with
  | plain => rfl
  | typed =>
    have named : (Content.ofEntries entries).mapM (fun entry =>
        return (← Datum.contentKey entry.1, Datum.content entry.2)) =
        (pure (entries.map (fun entry => (.name entry.1, JsonForm.typed.datum entry.2))) :
          Read (List (FieldKey × Datum))) :=
      mapM_ofEntries entries fun _ => rfl
    exact congrArg (· >>= fun entries => pure (RecordForm.named entries)) named

theorem variantForm_text (text : String) :
    (form.datum (.string text)).variantForm = pure ⟨.name text, none⟩ := by
  cases form <;> rfl

theorem variantForm_object (tag : String) (payload : Json) :
    (form.datum (.object [(tag, payload)])).variantForm =
      pure ⟨.name tag, some (form.datum payload)⟩ := by
  cases form <;> rfl

theorem typed_datum (json : Json) : (form.datum json).typed = pure (.ofJson json) := by
  cases form <;> rfl

end JsonForm

end ApiManifest
