import ApiManifest.Proofs.NodeReading

/-!
A mapping and its typed contents, side by side: which key of the one is which key of the other,
and when a field reads a node and its typed content alike.
-/

namespace ApiManifest

open Read (Always Never Settled)
open Yaml (Node Style)

namespace Yaml

def Node.valuesUnder (name : String) (entries : List (Node × Node)) : List Node :=
  (entries.filter (fun entry => entry.1.scalarText? = some name)).map Prod.snd

def Node.isBare : Node → Bool
  | .scalar tag style _ => style = .plain || (style = .literal && tag = some (coreTag "bool"))
  | _ => false

/-- Whether a scalar of this text may have that content. -/
def Suits (text : String) : Content → Prop
  | .null => text.toList = [] ∨ Plain.isNull text.toList
  | .bool value => Plain.bool? text.toList = some value
  | .int n =>
    (Plain.integer? text.toList).bind (fun parts => Plain.ofInteger? parts.1 parts.2)
      = some (.int n)
  | .float x => Plain.float? text.toList = some x
  | .string found => found = text
  | .list _ => False
  | .map _ => False

def Plain.content? (text : String) : Plain → Option Content
  | .null => some .null
  | .bool value => some (.bool value)
  | .int n => some (.int n)
  | .wide => none
  | .float x => some (.float x)
  | .text => some (.string text)

theorem ofInteger?_cases {negative : Bool} {magnitude : Nat} {plain : Plain}
    (found : Plain.ofInteger? negative magnitude = some plain) :
    plain = .wide ∨ ∃ n, plain = .int n := by
  unfold Plain.ofInteger? at found
  split at found
  all_goals
    split at found
    · cases found
      exact .inr ⟨_, rfl⟩
    · split at found
      · cases found
        exact .inl rfl
      · cases found

theorem suits_of_number? {text : String} {plain : Plain} {content : Content}
    (found : Plain.number? text.toList = some plain) (typed : plain.content? text = some content) :
    Suits text content := by
  unfold Plain.number? at found
  split at found
  next whole read =>
    cases found
    obtain ⟨parts, -, made⟩ := Option.bind_eq_some_iff.1 read
    rcases ofInteger?_cases made with rfl | ⟨n, rfl⟩
    · cases typed
    · cases typed
      exact read
  next none_ =>
    split at found
    · cases found
    · obtain ⟨x, read, rfl⟩ := Option.map_eq_some_iff.1 found
      cases typed
      exact read

theorem suits_of_resolve {text : String} {content : Content}
    (typed : (Plain.resolve text.toList).content? text = some content) : Suits text content := by
  unfold Plain.resolve at typed
  split at typed
  next empty =>
    cases typed
    simpa [Suits] using empty
  next =>
    split at typed
    next value read =>
      cases typed
      exact read
    next =>
      cases number : Plain.number? text.toList with
      | some plain =>
        rw [number] at typed
        exact suits_of_number? number typed
      | none =>
        rw [number] at typed
        cases typed
        rfl

theorem Node.valuesUnder_cons_key {name : String} {entry : Node × Node}
    {entries : List (Node × Node)} (here : entry.1.scalarText? = some name) :
    Node.valuesUnder name (entry :: entries) = entry.2 :: Node.valuesUnder name entries := by
  simp [valuesUnder, here]

theorem Node.valuesUnder_cons_other {name : String} {entry : Node × Node}
    {entries : List (Node × Node)} (other : entry.1.scalarText? ≠ some name) :
    Node.valuesUnder name (entry :: entries) = Node.valuesUnder name entries := by
  simp [valuesUnder, other]

variable {tag : Option String} {style : Style} {text : String} {content : Content}

theorem suits_of_scalarContent (typed : scalarContent tag style text = .ok content) :
    Suits text content := by
  unfold scalarContent at typed
  dsimp only at typed
  repeat' split at typed
  all_goals cases typed
  all_goals first
    | assumption
    | exact rfl
    | exact .inr ‹_›
    | exact suits_of_resolve (by simp only [‹Plain.resolve _ = _›]; rfl)

/-- A text that is typed as text, whatever its tag and style. -/
def IsWord (text : String) : Prop :=
  text.toList ≠ [] ∧ Plain.isNull text.toList = false ∧ Plain.bool? text.toList = none ∧
    Plain.integer? text.toList = none ∧ Plain.float? text.toList = none

theorem content_of_word (word : IsWord text) (suits : Suits text content) :
    content = .string text := by
  obtain ⟨nonempty, null, flag, integer, float⟩ := word
  cases content <;> simp_all [Suits]

theorem isWord_name : IsWord "name" := by unfold IsWord; decide
theorem isWord_in : IsWord "in" := by unfold IsWord; decide
theorem isWord_required : IsWord "required" := by unfold IsWord; decide

end Yaml

deriving instance DecidableEq for FieldKey

namespace Content

def under (key : FieldKey) (contents : List (Content × Content)) : List Content :=
  contents.filterMap (fun entry => if entry.1.fieldKey? = some key then some entry.2 else none)

theorem under_cons_key {key : FieldKey} {entry : Content × Content}
    (contents : List (Content × Content)) (here : entry.1.fieldKey? = some key) :
    under key (entry :: contents) = entry.2 :: under key contents := by
  simp [under, here]

theorem under_cons_other {entry : Content × Content} (key : FieldKey)
    (contents : List (Content × Content)) (other : entry.1.fieldKey? ≠ some key) :
    under key (entry :: contents) = under key contents := by
  simp [under, other]

theorem fieldKey?_name_iff {content : Content} {text : String} :
    content.fieldKey? = some (.name text) ↔ content = .string text := by
  unfold fieldKey?
  split
  · simp
  next n => split <;> simp
  next noText _ => simpa using noText text

theorem fieldKey?_number_iff {content : Content} {n : Nat} :
    content.fieldKey? = some (.number n) ↔ content = .int n := by
  unfold fieldKey?
  split
  · simp
  next m =>
    split
    next large =>
      simp only [Option.some.injEq, FieldKey.number.injEq, Content.int.injEq]
      omega
    next negative =>
      simp only [Content.int.injEq, false_iff, reduceCtorEq]
      omega
  next noInt => simpa using noInt n

theorem mem_under {key : FieldKey} {entry : Content × Content}
    {contents : List (Content × Content)} (member : entry ∈ contents)
    (found : entry.1.fieldKey? = some key) : entry.2 ∈ under key contents :=
  List.mem_filterMap.2 ⟨entry, member, if_pos found⟩

end Content

namespace Datum

variable {anchors : Yaml.Anchors} {depth : Nat} {content : Content} {node : Node}

theorem scalar_of_string {text : String} (closed : node.isClosed)
    (typed : Always (nodeContent anchors depth node) (.string text)) :
    ∃ tag style, node = .scalar tag style text ∧ Yaml.variantTag? tag = none := by
  cases node with
  | reference anchor => cases closed
  | scalar tag style found =>
    obtain ⟨untagged, read⟩ := always_nodeContent_scalar_iff.1 typed
    have same : text = found := Yaml.suits_of_scalarContent read
    exact ⟨tag, style, by rw [same], untagged⟩
  | sequence tag items =>
    obtain ⟨-, contents, same⟩ := list_of_sequence closed typed
    cases same
  | mapping tag entries =>
    obtain ⟨-, less, contents, -, same, -⟩ := (always_nodeContent_mapping_iff closed).1 typed
    cases same

theorem text_of_scalar (closed : node.isClosed)
    (typed : Always (nodeContent anchors depth node) content)
    (scalar : (∀ items, content ≠ .list items) ∧ ∀ entries, content ≠ .map entries) :
    ∃ text, node.scalarText? = some text := by
  cases node with
  | reference anchor => cases closed
  | scalar tag style text => exact ⟨text, rfl⟩
  | sequence tag items =>
    obtain ⟨-, contents, same⟩ := list_of_sequence closed typed
    exact absurd same (scalar.1 contents)
  | mapping tag entries =>
    obtain ⟨-, less, contents, -, same, -⟩ := (always_nodeContent_mapping_iff closed).1 typed
    exact absurd same (scalar.2 contents)

theorem string_of_word {text : String} (closed : node.isClosed) (word : Yaml.IsWord text)
    (typed : Always (nodeContent anchors depth node) content)
    (here : node.scalarText? = some text) :
    content = .string text := by
  cases node with
  | scalar tag style found =>
    cases here
    obtain ⟨-, read⟩ := always_nodeContent_scalar_iff.1 typed
    exact Yaml.content_of_word word (Yaml.suits_of_scalarContent read)
  | _ => cases here

theorem scalarText?_eq_iff {text : String} (closed : node.isClosed) (word : Yaml.IsWord text)
    (typed : Always (nodeContent anchors depth node) content) :
    node.scalarText? = some text ↔ content.fieldKey? = some (.name text) := by
  rw [Content.fieldKey?_name_iff]
  constructor
  · exact string_of_word closed word typed
  · rintro rfl
    obtain ⟨tag, style, rfl, -⟩ := scalar_of_string closed typed
    rfl

section Rows

variable {entries : List (Node × Node)} {contents : List (Content × Content)}

def IsTyped (anchors : Yaml.Anchors) (depth : Nat) (node : Node) (content : Content) : Prop :=
  node.isClosed ∧ Always (nodeContent anchors depth node) content

theorem valuesUnder_typed {name : String} (word : Yaml.IsWord name)
    (closed : Node.closedEntries entries)
    (rows : List.Forall₂ (IsEntryTyped anchors depth) entries contents) :
    List.Forall₂ (IsTyped anchors depth) (Node.valuesUnder name entries)
      (Content.under (.name name) contents) := by
  induction rows with
  | nil => exact .nil
  | @cons entry content entries contents row _ ih =>
    have parts := Node.closed_of_mem_entries closed (List.mem_cons_self)
    have later : Node.closedEntries entries := by
      rw [Node.closedEntries, Bool.and_eq_true] at closed
      exact closed.2
    have same := scalarText?_eq_iff parts.1 word row.1
    by_cases here : entry.1.scalarText? = some name
    · rw [Content.under_cons_key contents (same.1 here), Node.valuesUnder_cons_key here]
      exact .cons ⟨parts.2, row.2⟩ (ih later)
    · rw [Content.under_cons_other _ contents (fun found => here (same.2 found)),
        Node.valuesUnder_cons_other here]
      exact ih later

theorem standing_keyed {place : Place} {keyed : List (FieldKey × Datum)} (index : Nat)
    (name : String) (related : List.Forall₂ (IsKeyed place) entries keyed) :
    Fields.standing index name keyed = (Node.valuesUnder name entries).map (.node place) := by
  induction related with
  | nil => rfl
  | @cons entry field entries keyed head _ ih =>
    obtain ⟨text, found, rfl⟩ := head
    by_cases here : text = name
    · rw [Node.valuesUnder_cons_key (by rw [found, here]), List.map_cons, ← ih]
      simp [Fields.standing, Fields.selects, here]
    · rw [Node.valuesUnder_cons_other (by simp [found, here]), ← ih]
      simp [Fields.standing, Fields.selects, here]

/-- Typed content may name a field or give its number. -/
theorem standing_contentKeyed {keyed : List (FieldKey × Datum)} (index : Nat) (name : String)
    (related : List.Forall₂ IsContentKeyed contents keyed) :
    (Fields.standing index name keyed).Perm
      ((Content.under (.name name) contents ++ Content.under (.number index) contents).map
        .content) := by
  induction related with
  | nil => exact .refl _
  | @cons entry field contents keyed head _ ih =>
    obtain ⟨found, same⟩ := head
    obtain ⟨key, datum⟩ := field
    cases same
    cases key with
    | name text =>
      rw [Content.under_cons_other (.number index) contents (by simp [found])]
      by_cases here : text = name
      · rw [Content.under_cons_key contents (by rw [found, here])]
        simpa [Fields.standing, Fields.selects, here] using ih
      · rw [Content.under_cons_other _ contents (by simp [found, here])]
        simpa [Fields.standing, Fields.selects, here] using ih
    | number n =>
      rw [Content.under_cons_other (.name name) contents (by simp [found])]
      by_cases here : n = index
      · rw [Content.under_cons_key contents (by rw [found, here])]
        simp only [Fields.standing, Fields.selects, here] at ih ⊢
        simp only [decide_true, List.filterMap_cons, if_true, List.map_append, List.map_cons]
          at ih ⊢
        exact (ih.cons _).trans List.perm_middle.symm
      · rw [Content.under_cons_other _ contents (by simp [found, here])]
        simpa [Fields.standing, Fields.selects, here] using ih

end Rows

section Fields

variable {place : Place} {nodes : List Node} {contents : List Content} {name : String}

/-- A field reads nodes and their typed contents alike if it reads each of them alike. -/
theorem holds_typed_iff {α : Type} {field : Field α} {value : α}
    (typed : List.Forall₂ (IsTyped anchors depth) nodes contents)
    (alike : ∀ node ∈ nodes, ∀ content ∈ contents, IsTyped anchors depth node content →
      (Always (field.read (.node place node)) value ↔
        Always (field.read (.content content)) value)) :
    field.Holds (nodes.map (.node place)) value ↔ field.Holds (contents.map .content) value := by
  apply Field.holds_congr
  induction typed with
  | nil => exact .nil
  | cons first _ ih =>
    refine .cons (alike _ List.mem_cons_self _ List.mem_cons_self first) (ih ?_)
    exact fun node inNodes content inContents =>
      alike node (List.mem_cons_of_mem _ inNodes) content (List.mem_cons_of_mem _ inContents)

theorem text_typed_iff {value : String} (typed : IsTyped anchors depth node content)
    (text : ∃ text, content = .string text) :
    Always (Datum.node place node).text value ↔ Always (Datum.content content).text value := by
  obtain ⟨text, rfl⟩ := text
  obtain ⟨tag, style, rfl, -⟩ := scalar_of_string typed.1 typed.2
  rw [always_text_iff typed.1, always_content_text_iff]
  simp [Node.scalarText?]

theorem variantForm_text (text : String) :
    (Datum.content (.string text)).variantForm = pure ⟨.name text, none⟩ := by
  unfold variantForm
  rw [force_direct rfl, pure_bind]

theorem variantForm_scalar {tag : Option String} (style : Style) (text : String)
    (untagged : Yaml.variantTag? tag = none) :
    (Datum.node place (.scalar tag style text)).variantForm = pure ⟨.name text, none⟩ := by
  unfold variantForm
  rw [force_direct rfl, pure_bind]
  simp only [untagged]

theorem choice_typed_iff {α : Type} {values : List (String × α)} (write : α → String) {value : α}
    (typed : IsTyped anchors depth node content) (text : ∃ text, content = .string text) :
    Always ((Codec.choice values write).read (.node place node)) value ↔
      Always ((Codec.choice values write).read (.content content)) value := by
  obtain ⟨text, rfl⟩ := text
  obtain ⟨tag, style, rfl, untagged⟩ := scalar_of_string typed.1 typed.2
  unfold Codec.choice
  simp only [variantForm_text, variantForm_scalar style text untagged]

/-- Nothing but a scalar names a variant without a tag. -/
theorem scalar_of_variantForm {form : VariantForm} (typed : IsTyped anchors depth node content)
    (formed : Always (Datum.node place node).variantForm form) :
    ∃ tag style text, node = .scalar tag style text := by
  obtain ⟨closed, typed⟩ := typed
  unfold variantForm at formed
  rw [force_direct (direct_of_closed closed), pure_bind] at formed
  cases node with
  | reference anchor => cases closed
  | scalar tag style text => exact ⟨tag, style, text, rfl⟩
  | sequence tag items =>
    have untagged := (list_of_sequence closed typed).1
    simp only [untagged, refuse] at formed
    exact absurd formed (Read.not_always_refuse _ _)
  | mapping tag entries =>
    have untagged := ((always_nodeContent_mapping_iff closed).1 typed).1
    simp only [untagged, refuse] at formed
    exact absurd formed (Read.not_always_refuse _ _)

theorem string_of_choice {α : Type} {values : List (String × α)} (write : α → String)
    {first second : α} (typed : IsTyped anchors depth node content)
    (declared : Always ((Codec.choice values write).read (.node place node)) first)
    (used : Always ((Codec.choice values write).read (.content content)) second) :
    ∃ text, content = .string text := by
  have direct : (Datum.node place node).isDirect := direct_of_closed typed.1
  have settled : Settled (Datum.content content).variantForm := settled_variantForm rfl
  obtain ⟨form, formed, -⟩ := (Read.always_bind_iff (settled_variantForm direct)).1 declared
  obtain ⟨usedForm, usedFormed, -⟩ := (Read.always_bind_iff settled).1 used
  obtain ⟨tag, style, text, rfl⟩ := scalar_of_variantForm typed formed
  have suits := Yaml.suits_of_scalarContent (always_nodeContent_scalar_iff.1 typed.2).2
  unfold variantForm at usedFormed
  rw [force_direct rfl, pure_bind] at usedFormed
  cases content with
  | string text => exact ⟨text, rfl⟩
  | list items => exact suits.elim
  | map entries => exact suits.elim
  | _ => exact absurd usedFormed (Read.not_always_refuse _ _)

theorem always_flag_iff {value : Bool} (closed : node.isClosed) (unused : place.tagUsed = false) :
    Always (Datum.node place node).flag value ↔
      node.isBare ∧ ∃ text, node.scalarText? = some text ∧
        Yaml.Plain.bool? text.toList = some value := by
  unfold flag
  rw [force_direct (direct_of_closed closed), pure_bind]
  cases node with
  | reference anchor => cases closed
  | scalar tag style text =>
    have bare : isBare place tag style "bool" = (Node.scalar tag style text).isBare := by
      simp [isBare, Node.isBare, unused]
    simp only [bare, Node.scalarText?, Option.some.injEq, exists_eq_left']
    split
    next here =>
      cases read : Yaml.Plain.bool? text.toList with
      | some found => simp [here, Read.always_pure_iff]
      | none => simp [Read.not_always_refuse]
    next other => simp [other, Read.not_always_refuse]
  | _ => simp [refuse, Read.not_always_refuse, Node.isBare]

theorem flag_typed_iff {value : Bool} (typed : IsTyped anchors depth node content)
    (flag : ∃ flag, content = .bool flag) (bare : node.isBare) (unused : place.tagUsed = false) :
    Always (Datum.node place node).flag value ↔ Always (Datum.content content).flag value := by
  obtain ⟨closed, typed⟩ := typed
  obtain ⟨flag, rfl⟩ := flag
  rw [always_flag_iff closed unused, always_content_flag_iff]
  cases node with
  | scalar tag style text =>
    have suits : Yaml.Plain.bool? text.toList = some flag :=
      Yaml.suits_of_scalarContent (always_nodeContent_scalar_iff.1 typed).2
    simp [bare, Node.scalarText?, suits]
  | _ => cases bare

end Fields

end Datum

end ApiManifest
