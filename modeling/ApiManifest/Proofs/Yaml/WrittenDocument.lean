import ApiManifest.Proofs.Yaml.WrittenTokens

/-!
The tokens of a whole text. A record is written with characters that may all stand in a text, so
its text is scanned as it is, from the first key to the end of the last line.
-/

namespace ApiManifest.Yaml

namespace Written

theorem isShown_of_isGraphic {c : Char} (graphic : isGraphic c) : isShown c := by
  obtain ⟨low, high⟩ := graphic
  simp only [isShown, Bool.or_eq_true, Bool.and_eq_true, decide_eq_true_eq]
  omega

theorem isShown_of_isWord {c : Char} (word : isWord c) : isShown c := by
  apply isShown_of_isGraphic
  simp only [isWord, Text.isWordChar, Char.isAlphanum, Char.isAlpha, Char.isUpper, Char.isLower,
    Char.isDigit, Bool.or_eq_true, Bool.and_eq_true, decide_eq_true_eq, ge_iff_le,
    UInt32.le_iff_toNat_le] at word
  unfold isGraphic
  rcases word with (((⟨low, high⟩ | ⟨low, high⟩) | ⟨low, high⟩) | rfl) | rfl
  any_goals
    change _ ≤ c.toNat at low
    change c.toNat ≤ _ at high
    simp at low high
    omega
  all_goals decide

theorem isAllowed_of_isShown {c : Char} (shown : isShown c) : isAllowed c := by
  have valid : c.toNat.isValidChar := c.valid
  unfold Nat.isValidChar at valid
  simp only [isShown, Bool.or_eq_true, Bool.and_eq_true, decide_eq_true_eq] at shown
  simp only [isAllowed, Bool.or_eq_true, Bool.and_eq_true, decide_eq_true_eq]
  omega

theorem uniformBreaks_shown {text : List Char} (shown : ∀ c ∈ text, isShown c) :
    uniformBreaks text = text := by
  induction text with
  | nil => rfl
  | cons c text ih =>
    have kind := shown c (by simp)
    have line : c ≠ '\r' ∧ c ≠ '\u0085' := by
      constructor <;> rintro rfl <;> revert kind <;> decide
    rw [uniformBreaks]
    · simp [line, ih (fun d member => shown d (by simp [member]))]
    · intro rest same
      exact absurd same line.1

theorem shown_of_all {text : List Char} (all : text.all isShown) : ∀ c ∈ text, isShown c :=
  List.all_eq_true.1 all

theorem shown_append {first second : List Char} (left : ∀ c ∈ first, isShown c)
    (right : ∀ c ∈ second, isShown c) : ∀ c ∈ first ++ second, isShown c := by
  intro c member
  rcases List.mem_append.1 member with early | late
  · exact left c early
  · exact right c late

theorem shown_pad (count : Nat) : ∀ c ∈ pad count, isShown c := by
  intro c member
  obtain rfl := List.eq_of_mem_replicate member
  decide

theorem shown_lines {text : List Char} (shown : ∀ c ∈ text, isShown c) (indent : Nat)
    (fresh : Bool) : ∀ c ∈ lines indent fresh text, isShown c := by
  induction text generalizing fresh with
  | nil => simp [lines]
  | cons c text ih =>
    have kind := shown c (by simp)
    have later := ih (fun d member => shown d (by simp [member]))
    unfold lines
    split
    · exact List.forall_mem_cons.2 ⟨kind, later true⟩
    · apply shown_append
      · split
        · exact shown_pad indent
        · simp
      · exact List.forall_mem_cons.2 ⟨kind, later false⟩

theorem shown_doubleQuoted (text : List Char) : ∀ c ∈ doubleQuoted text, isShown c := by
  have escaped : ∀ c ∈ text.flatMap escapeChar, isShown c := by
    intro c member
    obtain ⟨d, -, member⟩ := List.mem_flatMap.1 member
    rcases escapeChar_cases d with ⟨same, shown, -⟩ | ⟨code, same, -, graphic, -⟩
    · rw [same, List.mem_singleton] at member
      exact member ▸ shown
    · rw [same] at member
      rcases List.mem_cons.1 member with rfl | member
      · decide
      · exact isShown_of_isGraphic (graphic c member)
  unfold doubleQuoted
  simp only [List.cons_append]
  exact List.forall_mem_cons.2 ⟨by decide, shown_append escaped (shown_of_all (by decide))⟩

theorem shown_singleQuoted {text : List Char} (shown : ∀ c ∈ text, isShown c) (indent : Nat) :
    ∀ c ∈ singleQuoted indent text, isShown c := by
  have doubled : ∀ c ∈ text.flatMap (fun c => if c = '\x27' then [c, c] else [c]), isShown c := by
    intro c member
    obtain ⟨d, source, member⟩ := List.mem_flatMap.1 member
    have same : c = d := by
      split at member <;> simpa using member
    exact same ▸ shown d source
  unfold singleQuoted
  simp only [List.cons_append, List.append_assoc]
  refine List.forall_mem_cons.2 ⟨by decide, shown_append (shown_lines doubled _ _) ?_⟩
  apply shown_append
  · split
    · exact shown_pad indent
    · simp
  · exact shown_of_all (by decide)

theorem shown_literal {text : List Char} (shown : ∀ c ∈ text, isShown c) (indent : Nat) :
    ∀ c ∈ literal indent text, isShown c := by
  have bar : ∀ c ∈ chomping text, isShown c := by
    unfold chomping
    split
    · exact shown_of_all (by decide)
    · split
      · exact shown_of_all (by decide)
      · split <;> exact shown_of_all (by decide)
  unfold literal
  simp only [List.cons_append, List.append_assoc]
  refine List.forall_mem_cons.2 ⟨by decide, ?_⟩
  apply shown_append
  · split <;> exact shown_of_all (by decide)
  · exact shown_append bar (List.forall_mem_cons.2 ⟨by decide, shown_lines shown _ _⟩)

theorem shown_of_calm {text : List Char} (calm : needsEscapes text = false) :
    ∀ c ∈ text, isShown c := by
  intro c member
  simp only [needsEscapes, Bool.or_eq_false_iff, List.any_eq_false] at calm
  simpa using calm.1 c member

theorem shown_of_standsPlain {text : List Char} (plain : standsPlain text) :
    ∀ c ∈ text, isShown c := by
  cases text with
  | nil => simp
  | cons c text =>
    apply shown_of_calm
    simp only [standsPlain, Bool.and_eq_true, Bool.not_eq_true'] at plain
    exact plain.1.1.1.1.1.1

theorem shown_scalar (indent : Nat) (text : List Char) : ∀ c ∈ scalar indent text, isShown c := by
  have feed : ∀ c ∈ ['\n'], isShown c := shown_of_all (by decide)
  rcases style_cases text with ⟨style, plain, -⟩ | ⟨style, fits⟩ | style | ⟨style, shown, -⟩
  all_goals simp only [scalar, style]
  · exact shown_append (shown_of_standsPlain plain) feed
  · exact shown_append (shown_singleQuoted fits.shown indent) feed
  · exact shown_append (shown_doubleQuoted text) feed
  · refine shown_append (shown_literal shown indent) ?_
    split
    · simp
    · exact feed

theorem shown_simpleKey (text : List Char) : ∀ c ∈ simpleKey text, isShown c := by
  rcases style_cases text with ⟨style, plain, -⟩ | ⟨style, fits⟩ | style | ⟨style, -⟩
  all_goals simp only [simpleKey, style]
  · exact shown_of_standsPlain plain
  · exact shown_singleQuoted fits.shown 0
  · exact shown_doubleQuoted text
  · exact shown_doubleQuoted text

end Written

/-- What is read of a text that leads to the end of a block collection at the left margin. -/
theorem tokens?_eq {text : List Char} {output : List Token}
    (shown : ∀ c ∈ text, Written.isShown c)
    (leads : Leads ⟨text, 0, [], true, []⟩ ⟨[], 0, [0], true, output⟩) :
    tokens? text = some (output ++ [.blockEnd]) := by
  have allowed : text.all isAllowed := by
    rw [List.all_eq_true]
    exact fun c member => Written.isAllowed_of_isShown (shown c member)
  obtain ⟨last, reached, stands⟩ := leads (.start text) ⟨rfl, rfl, rfl, rfl, .inl rfl, .start⟩
  obtain ⟨later, enough, same⟩ := reached (text.length + 2) (Nat.le_refl _)
  obtain ⟨later, rfl⟩ : ∃ n, later = n + 1 := ⟨later - 1, by omega⟩
  have blanks := @Scan.toToken_start last (by simp [stands.rest]) later
  have inside : last.settled.unroll (some last.settled.cursor.column) = last.settled := by
    apply Scan.unroll_fits
    simp [Scan.settled, stands.indents]
  have closed : last.settled.unroll none = last.settled.closed := by
    have open_ : last.settled.indents = [0] := stands.indents
    rw [Scan.unroll, stands.settled.block]
    simp [Scan.closed, Scan.push, open_]
  have finished : last.run (later + 1) = some { last.settled.closed with keyAllowed := false } := by
    have empty : last.settled.cursor.rest = [] := stands.rest
    rw [Scan.run]
    simp only [blanks, stands.dropStale, Option.bind_eq_bind, Option.bind_some, inside, empty]
    simp only [Scan.finish, Scan.endBlocks, closed]
    rfl
  have wrote := (stands.wrote.push .blockEnd).written [] [] (by simp)
  have tokens : Scan.withKeys 0 last.keys.reverse (.blockEnd :: last.tokens).reverse
      = output ++ [.blockEnd] := by
    simpa [Scan.withKeys] using wrote
  rw [tokens?, if_pos allowed, Written.uniformBreaks_shown shown]
  simp only [same, finished, Option.bind_eq_bind, Option.bind_some, Option.some.injEq]
  exact tokens

end ApiManifest.Yaml

namespace ApiManifest.Wire

open Yaml (Token)
open Yaml.Written (pad isShown shown_append shown_of_all shown_pad shown_scalar)

theorem shown_space : ∀ c ∈ [' '], isShown c :=
  shown_of_all (by decide)

theorem shown_key (column : Nat) (key : List Char) :
    (∀ c ∈ (yamlKey column key).1, isShown c) ∧ ∀ c ∈ (yamlKey column key).2.lead, isShown c := by
  unfold yamlKey
  split
  · exact ⟨shown_append (Yaml.Written.shown_simpleKey key) (shown_of_all (by decide)), shown_space⟩
  · refine ⟨?_, shown_space⟩
    simp only [List.cons_append, List.append_assoc]
    refine List.forall_mem_cons.2 ⟨by decide, List.forall_mem_cons.2 ⟨by decide, ?_⟩⟩
    exact shown_append (shown_scalar _ key) (shown_append (shown_pad column) (shown_of_all (by decide)))

theorem shown_opening {spot : Spot} (lead : ∀ c ∈ spot.lead, isShown c) (column : Nat) :
    ∀ c ∈ spot.opening column, isShown c := by
  unfold Spot.opening
  split
  · exact lead
  · exact List.forall_mem_cons.2 ⟨by decide, shown_pad column⟩

mutual

theorem shown_value {spot : Spot} {tagged : Bool} (value : Wire) (sound : Sound tagged value)
    (lead : ∀ c ∈ spot.lead, isShown c) : ∀ c ∈ yamlValue spot value, isShown c := by
  have feed : ∀ c ∈ ['\n'], isShown c := shown_of_all (by decide)
  rcases value with value | value | text | ⟨_ | ⟨item, items⟩⟩ | ⟨_ | ⟨⟨key, value⟩, fields⟩⟩ |
    ⟨tag, payload⟩
  all_goals simp only [yamlValue, List.append_assoc]
  · exact shown_append lead (shown_append (shown_of_all (by cases value <;> decide)) feed)
  · exact shown_append lead (shown_append
      (Yaml.Written.shown_of_standsPlain (standsPlain_int value)) feed)
  · exact shown_append lead (shown_scalar _ _)
  · exact shown_append lead (shown_of_all (by decide))
  · refine shown_append (shown_opening lead _) (List.forall_mem_cons.2 ⟨by decide, ?_⟩)
    exact shown_append (shown_value item sound.1 shown_space) (shown_items items sound.2)
  · exact shown_append lead (shown_of_all (by decide))
  · obtain ⟨start, after⟩ := shown_key spot.recordColumn key.toList
    exact shown_append (shown_opening lead _) (shown_append start
      (shown_append (shown_value value sound.2.1 after) (shown_entries fields sound.2.2)))
  · obtain ⟨-, -, word, -, -, carried⟩ := sound
    refine shown_append lead (List.forall_mem_cons.2 ⟨by decide, ?_⟩)
    exact shown_append (fun c member => Yaml.Written.isShown_of_isWord (word c member))
      (shown_value payload carried shown_space)

theorem shown_items {column : Nat} (items : List Wire) (sound : ItemsSound items) :
    ∀ c ∈ yamlItems column items, isShown c := by
  cases items with
  | nil => simp [yamlItems]
  | cons item rest =>
    simp only [yamlItems, List.append_assoc]
    refine shown_append (shown_pad column) (List.forall_mem_cons.2 ⟨by decide, ?_⟩)
    exact shown_append (shown_value item sound.1 shown_space) (shown_items rest sound.2)

theorem shown_entries {column : Nat} (fields : List (String × Wire)) (sound : EntriesSound fields) :
    ∀ c ∈ yamlEntries column fields, isShown c := by
  rcases fields with _ | ⟨⟨key, value⟩, rest⟩
  · simp [yamlEntries]
  · obtain ⟨start, after⟩ := shown_key column key.toList
    simp only [yamlEntries, List.append_assoc]
    exact shown_append (shown_pad column) (shown_append start
      (shown_append (shown_value value sound.1 after) (shown_entries rest sound.2)))

end

/-- The tokens of a record's text are those of the record. -/
theorem tokens?_toYaml {fields : List (String × Wire)} (nonempty : fields ≠ [])
    (sound : Sound false (.record fields)) :
    Yaml.tokens? (toYaml (.record fields)).toList = some (tokens false (.record fields)) := by
  obtain ⟨⟨key, value⟩, rest, rfl⟩ := List.exists_cons_of_ne_nil nonempty
  have written : (toYaml (.record ((key, value) :: rest))).toList
      = (nextEntry 0 0 [] ((key, value) :: rest)).2 := by
    simp [toYaml, yamlValue, nextEntry, entryText, Spot.root, Spot.opening, pad]
  have shown := @shown_value .root _ _ sound (shown_of_all (by decide))
  have leads := @leads_entries 0 0 [] [] [] _ _ _ (leading_of_sound value sound.2.1)
      (entries_leading rest sound.2.2) (by simp) (Nat.le_refl 0) (by simp)
  rw [written]
  have read := Yaml.tokens?_eq (by rwa [← written, toYaml, String.toList_ofList]) leads
  simpa [tokens, entryTokens, Yaml.opening] using read

end ApiManifest.Wire
