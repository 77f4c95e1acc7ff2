import ApiManifest.Proofs.Yaml.WrittenDocument
import ApiManifest.Yaml.Node

/-!
The nodes that are parsed from the tokens of a value. A value has no anchors, so what was read is
never looked up, and the tag of a variant is a property of the node of what it carries.
-/

namespace ApiManifest.Yaml.Parse

variable {token : Token} {rest : List Token} {anchors : Anchors}
  {handles : List (List Char × List Char)} {block indentless : Bool} {fuel : Nat}
  {given : Properties} {result : Option (Node × ParseState)}

theorem accept_self :
    (accept token).run ⟨token :: rest, anchors, handles⟩ = some (true, ⟨rest, anchors, handles⟩) := by
  simp [accept, peek, skip]

theorem accept_other {other : Token} (differ : other ≠ token) :
    (accept token).run ⟨other :: rest, anchors, handles⟩
      = some (false, ⟨other :: rest, anchors, handles⟩) := by
  simp [accept, peek, differ]

theorem expect_self :
    (expect token).run ⟨token :: rest, anchors, handles⟩ = some ((), ⟨rest, anchors, handles⟩) := by
  simp [expect, accept_self]

theorem atAny_cons (tokens : List Token) :
    (atAny tokens).run ⟨token :: rest, anchors, handles⟩
      = some (tokens.contains token, ⟨token :: rest, anchors, handles⟩) := by
  simp [atAny, peek]

def startsNode : Token → Bool
  | .scalar .. => true
  | .flowSequenceStart => true
  | .flowMappingStart => true
  | .blockSequenceStart => true
  | .blockMappingStart => true
  | .blockEntry => true
  | _ => false

def leadsNode (token : Token) : Bool :=
  startsNode token || token matches .tag ..

theorem anchor?_none (leads : leadsNode token) :
    anchor?.run ⟨token :: rest, anchors, handles⟩ = some (none, ⟨token :: rest, anchors, handles⟩) := by
  cases token <;> first | rfl | cases leads

theorem tag?_none (starts : startsNode token) :
    tag?.run ⟨token :: rest, anchors, handles⟩ = some (none, ⟨token :: rest, anchors, handles⟩) := by
  cases token <;> first | rfl | cases starts

theorem tag?_given {suffix : List Char} (handle : handles.lookup ['!'] = some ['!']) :
    tag?.run ⟨.tag ['!'] suffix :: rest, anchors, handles⟩
      = some (some (String.ofList ('!' :: suffix)), ⟨rest, anchors, handles⟩) := by
  simp [tag?, peek, skip, fullTag, handle]

theorem properties_none (starts : startsNode token) :
    properties.run ⟨token :: rest, anchors, handles⟩ = some ({}, ⟨token :: rest, anchors, handles⟩) := by
  have leads : leadsNode token := by simp [leadsNode, starts]
  simp only [properties, StateT.run_bind, anchor?_none leads, tag?_none starts, Option.bind_eq_bind,
    Option.bind_some, StateT.run_pure, Option.pure_def]

theorem properties_tag {suffix : List Char} (handle : handles.lookup ['!'] = some ['!'])
    (starts : startsNode token) :
    properties.run ⟨.tag ['!'] suffix :: token :: rest, anchors, handles⟩
      = some (⟨none, some (String.ofList ('!' :: suffix))⟩, ⟨token :: rest, anchors, handles⟩) := by
  have leads : leadsNode token := by simp [leadsNode, starts]
  have tagLeads : leadsNode (.tag ['!'] suffix) := rfl
  simp only [properties, StateT.run_bind, anchor?_none tagLeads, tag?_given handle,
    anchor?_none leads, Option.bind_eq_bind, Option.bind_some, StateT.run_pure, Option.pure_def]

/-- A node without an anchor is read by its content, once its tag has been. -/
theorem node_of_properties {tag : Option String} {after : ParseState} (leads : leadsNode token)
    (found : properties.run ⟨token :: rest, anchors, handles⟩ = some (⟨none, tag⟩, after)) :
    (node block indentless (fuel + 1)).run ⟨token :: rest, anchors, handles⟩
      = (content ⟨none, tag⟩ block indentless fuel).run after := by
  have peeked : peek.run ⟨token :: rest, anchors, handles⟩
      = some (some token, ⟨token :: rest, anchors, handles⟩) := rfl
  rw [node, StateT.run_bind, peeked]
  simp only [Option.bind_eq_bind, Option.bind_some]
  split
  · next name same =>
    cases same
    cases leads
  · simp only [StateT.run_bind, found, Option.bind_eq_bind, Option.bind_some]

theorem node_plain (starts : startsNode token)
    (read : (content {} block indentless fuel).run ⟨token :: rest, anchors, handles⟩ = result) :
    (node block indentless (fuel + 1)).run ⟨token :: rest, anchors, handles⟩ = result := by
  have leads : leadsNode token := by simp [leadsNode, starts]
  rw [node_of_properties leads (properties_none starts)]
  exact read

theorem node_tagged {suffix : List Char} (handle : handles.lookup ['!'] = some ['!'])
    (starts : startsNode token)
    (read : (content ⟨none, some (String.ofList ('!' :: suffix))⟩ block indentless fuel).run
      ⟨token :: rest, anchors, handles⟩ = result) :
    (node block indentless (fuel + 1)).run ⟨.tag ['!'] suffix :: token :: rest, anchors, handles⟩
      = result := by
  rw [node_of_properties rfl (properties_tag handle starts)]
  exact read

theorem content_scalar (style : Style) (text : List Char) :
    (content given block indentless (fuel + 1)).run ⟨.scalar style text :: rest, anchors, handles⟩
      = some (.scalar given.tag style (String.ofList text), ⟨rest, anchors, handles⟩) := by
  simp [content, peek, skip]

theorem content_emptyList :
    (content given block indentless (fuel + 2)).run
        ⟨.flowSequenceStart :: .flowSequenceEnd :: rest, anchors, handles⟩
      = some (.sequence given.tag [], ⟨rest, anchors, handles⟩) := by
  simp [content, flowItems, peek, skip, accept_self]

theorem content_emptyRecord :
    (content given block indentless (fuel + 2)).run
        ⟨.flowMappingStart :: .flowMappingEnd :: rest, anchors, handles⟩
      = some (.mapping given.tag [], ⟨rest, anchors, handles⟩) := by
  simp [content, flowEntries, peek, skip, accept_self]

theorem content_block {items : List Node} {after : ParseState}
    (read : (blockItems fuel).run ⟨rest, anchors, handles⟩ = some (items, after)) :
    (content given true indentless (fuel + 1)).run ⟨.blockSequenceStart :: rest, anchors, handles⟩
      = some (.sequence given.tag items, after) := by
  simp [content, peek, skip, read]

theorem content_indentless {items : List Node} {after : ParseState}
    (read : (indentlessItems fuel).run ⟨.blockEntry :: rest, anchors, handles⟩
      = some (items, after)) :
    (content given block true (fuel + 1)).run ⟨.blockEntry :: rest, anchors, handles⟩
      = some (.sequence given.tag items, after) := by
  simp [content, peek, read]

theorem content_mapping {entries : List (Node × Node)} {after : ParseState}
    (read : (blockEntries fuel).run ⟨rest, anchors, handles⟩ = some (entries, after)) :
    (content given true indentless (fuel + 1)).run ⟨.blockMappingStart :: rest, anchors, handles⟩
      = some (.mapping given.tag entries, after) := by
  simp [content, peek, skip, read]

theorem blockItems_cons {item : Node} {items : List Node} {between after : ParseState}
    (starts : leadsNode token) (other : token ≠ .blockEntry)
    (first : (node true false fuel).run ⟨token :: rest, anchors, handles⟩ = some (item, between))
    (others : (blockItems fuel).run between = some (items, after)) :
    (blockItems (fuel + 1)).run ⟨.blockEntry :: token :: rest, anchors, handles⟩
      = some (item :: items, after) := by
  have value : [Token.blockEntry, .blockEnd].contains token = false := by
    cases token <;> simp_all [leadsNode, startsNode]
  simp only [blockItems, StateT.run_bind, accept_self, Option.bind_eq_bind, Option.bind_some,
    if_true, atAny_cons, value, Bool.false_eq_true, if_false, first, others, StateT.run_pure,
    Option.pure_def]

theorem indentlessItems_cons {item : Node} {items : List Node} {between after : ParseState}
    (starts : leadsNode token) (other : token ≠ .blockEntry)
    (first : (node true false fuel).run ⟨token :: rest, anchors, handles⟩ = some (item, between))
    (others : (indentlessItems fuel).run between = some (items, after)) :
    (indentlessItems (fuel + 1)).run ⟨.blockEntry :: token :: rest, anchors, handles⟩
      = some (item :: items, after) := by
  have value : [Token.blockEntry, .key, .value, .blockEnd].contains token = false := by
    cases token <;> simp_all [leadsNode, startsNode]
  simp only [indentlessItems, StateT.run_bind, accept_self, Option.bind_eq_bind, Option.bind_some,
    if_true, atAny_cons, value, Bool.false_eq_true, if_false, first, others, StateT.run_pure,
    Option.pure_def]

theorem blockEntries_cons {key value : Node} {entries : List (Node × Node)}
    {style : Style} {text : List Char} {between after : ParseState} (starts : leadsNode token)
    (first : (node true true fuel).run ⟨.scalar style text :: .value :: token :: rest, anchors,
      handles⟩ = some (key, ⟨.value :: token :: rest, anchors, handles⟩))
    (second : (node true true fuel).run ⟨token :: rest, anchors, handles⟩ = some (value, between))
    (others : (blockEntries fuel).run between = some (entries, after)) :
    (blockEntries (fuel + 1)).run
        ⟨.key :: .scalar style text :: .value :: token :: rest, anchors, handles⟩
      = some ((key, value) :: entries, after) := by
  have named : [Token.key, .value, .blockEnd].contains (.scalar style text) = false := by
    simp
  have given : [Token.key, .value, .blockEnd].contains token = false := by
    cases token <;> simp_all [leadsNode, startsNode]
  simp only [blockEntries, StateT.run_bind, accept_self, Option.bind_eq_bind, Option.bind_some,
    if_true, atAny_cons, named, given, Bool.false_eq_true, if_false, first, second, others,
    StateT.run_pure, Option.pure_def]

theorem blockItems_nil :
    (blockItems (fuel + 1)).run ⟨.blockEnd :: rest, anchors, handles⟩
      = some ([], ⟨rest, anchors, handles⟩) := by
  simp [blockItems, accept_other, expect_self]

theorem indentlessItems_nil {state : ParseState} (other : state.tokens.head? ≠ some .blockEntry) :
    (indentlessItems (fuel + 1)).run state = some ([], state) := by
  simp [indentlessItems, accept, peek, other]

theorem blockEntries_nil :
    (blockEntries (fuel + 1)).run ⟨.blockEnd :: rest, anchors, handles⟩
      = some ([], ⟨rest, anchors, handles⟩) := by
  simp [blockEntries, accept_other, expect_self]

theorem document_read {root : Node} (starts : startsNode token)
    (read : (node true false (fuel + 1)).run ⟨token :: rest, {}, defaultHandles⟩
      = some (root, ⟨[], {}, defaultHandles⟩)) :
    (document (fuel + 1)).run ⟨token :: rest, {}, []⟩
      = some (some root, ⟨[], {}, defaultHandles⟩) := by
  have unmarked : (directives false [] (fuel + 1)).run ⟨token :: rest, {}, []⟩
      = some (false, ⟨token :: rest, {}, defaultHandles⟩) := by
    cases token <;> first | simp [directives, peek]; done | cases starts
  have started : (accept .documentStart).run ⟨token :: rest, {}, defaultHandles⟩
      = some (false, ⟨token :: rest, {}, defaultHandles⟩) := by
    apply accept_other
    rintro rfl
    cases starts
  simp [document, peek, unmarked, started, read]

end ApiManifest.Yaml.Parse

namespace ApiManifest.Wire

open Yaml (Node Token ParseState)
open Yaml.Parse (content node blockItems indentlessItems blockEntries startsNode leadsNode defaultHandles)

mutual

def nodeOf (tag : Option String) : Wire → Node
  | .bool value => .scalar tag .plain (if value then "true" else "false")
  | .int value => .scalar tag .plain (toString value)
  | .string text => .scalar tag (Yaml.Written.style text.toList) text
  | .list items => .sequence tag (itemNodes items)
  | .record fields => .mapping tag (entryNodes fields)
  | .variant name payload => nodeOf (some (String.ofList ('!' :: name.toList))) payload

def itemNodes : List Wire → List Node
  | [] => []
  | item :: rest => nodeOf none item :: itemNodes rest

def entryNodes : List (String × Wire) → List (Node × Node)
  | [] => []
  | (key, value) :: rest =>
    (.scalar none (Yaml.Written.style key.toList) key, nodeOf none value) :: entryNodes rest

end

def bare : Wire → Wire
  | .variant _ payload => payload
  | value => value

/-- The content of the value's node is read from its tokens. -/
def ContentRead (tagged : Bool) (value : Wire) : Prop :=
  ∀ (tag : Option String) (indentless : Bool) (rest : List Token) (fuel : Nat),
    (tagged → indentless) → 4 * (tokens tagged value).length + 3 ≤ fuel →
    (tagged → rest.head? ≠ some .blockEntry) →
    (content ⟨none, tag⟩ true indentless fuel).run ⟨tokens tagged value ++ rest, {}, defaultHandles⟩
      = some (nodeOf tag value, ⟨rest, {}, defaultHandles⟩)

def NodeRead (tagged : Bool) (value : Wire) : Prop :=
  ∀ (indentless : Bool) (rest : List Token) (fuel : Nat),
    (tagged → indentless) → 4 * (tokens tagged value).length + 4 ≤ fuel →
    (tagged → rest.head? ≠ some .blockEntry) →
    (node true indentless fuel).run ⟨tokens tagged value ++ rest, {}, defaultHandles⟩
      = some (nodeOf none value, ⟨rest, {}, defaultHandles⟩)

variable {tagged : Bool}

theorem bare_start {value : Wire} (sound : Sound tagged value) :
    ∃ token rest, tokens tagged value.bare = token :: rest ∧ startsNode token ∧
      (tagged = false → token ≠ .blockEntry) := by
  have plain : ∀ value : Wire, (∀ tag payload, value ≠ .variant tag payload) →
      ∃ token rest, tokens tagged value = token :: rest ∧ startsNode token ∧
        (tagged = false → token ≠ .blockEntry) := by
    intro value other
    rcases value with value | value | text | ⟨_ | ⟨item, items⟩⟩ | ⟨_ | ⟨⟨key, value⟩, fields⟩⟩ |
      ⟨tag, payload⟩
    case list.cons => cases tagged <;> exact ⟨_, _, rfl, rfl, by simp⟩
    case variant => exact absurd rfl (other tag payload)
    all_goals exact ⟨_, _, rfl, rfl, by simp⟩
  cases value with
  | variant tag payload =>
    apply plain
    rintro inner carried rfl
    exact absurd sound.2.2.2.1 (by simp [isPayload])
  | _ => exact plain _ (by simp [bare])

theorem tokens_start {value : Wire} (sound : Sound tagged value) :
    ∃ token rest, tokens tagged value = token :: rest ∧ leadsNode token ∧
      (tagged = false → token ≠ .blockEntry) := by
  cases value with
  | variant tag payload => exact ⟨_, _, rfl, rfl, by simp⟩
  | _ =>
    obtain ⟨token, rest, same, starts, other⟩ := bare_start sound
    exact ⟨token, rest, same, by simp [leadsNode, starts], other⟩

theorem node_of_content {value : Wire} (sound : Sound tagged value)
    (read : ContentRead tagged value.bare) : NodeRead tagged value := by
  intro indentless rest fuel admits enough next
  obtain ⟨fuel, rfl⟩ : ∃ n, fuel = n + 1 := ⟨fuel - 1, by omega⟩
  obtain ⟨token, more, same, starts, -⟩ := bare_start sound
  cases value with
  | variant tag payload =>
    have held := read (some (String.ofList ('!' :: tag.toList))) indentless rest fuel admits
      (by simp only [tokens, List.length_cons] at enough; simp only [bare]; omega) next
    rw [same] at held
    simp only [bare] at same
    simp only [tokens, same]
    exact Yaml.Parse.node_tagged rfl starts held
  | _ =>
    have held := read none indentless rest fuel admits (by simp only [bare]; omega) next
    rw [same] at held
    simp only [bare] at same
    rw [same]
    exact Yaml.Parse.node_plain starts held

def BlockItemsRead (items : List Wire) : Prop :=
  ∀ (rest : List Token) (fuel : Nat), 4 * (itemTokens items).length + 2 ≤ fuel →
    (blockItems fuel).run ⟨itemTokens items ++ .blockEnd :: rest, {}, defaultHandles⟩
      = some (itemNodes items, ⟨rest, {}, defaultHandles⟩)

def IndentlessItemsRead (items : List Wire) : Prop :=
  ∀ (rest : List Token) (fuel : Nat), 4 * (itemTokens items).length + 2 ≤ fuel →
    rest.head? ≠ some .blockEntry →
    (indentlessItems fuel).run ⟨itemTokens items ++ rest, {}, defaultHandles⟩
      = some (itemNodes items, ⟨rest, {}, defaultHandles⟩)

def BlockEntriesRead (fields : List (String × Wire)) : Prop :=
  ∀ (rest : List Token) (fuel : Nat), 4 * (entryTokens fields).length + 2 ≤ fuel →
    (blockEntries fuel).run ⟨entryTokens fields ++ .blockEnd :: rest, {}, defaultHandles⟩
      = some (entryNodes fields, ⟨rest, {}, defaultHandles⟩)

theorem blockItems_read {item : Wire} {items : List Wire} (sound : Sound false item)
    (first : NodeRead false item) (others : BlockItemsRead items) :
    BlockItemsRead (item :: items) := by
  intro rest fuel enough
  obtain ⟨fuel, rfl⟩ : ∃ n, fuel = n + 1 := ⟨fuel - 1, by omega⟩
  obtain ⟨token, more, same, starts, other⟩ := tokens_start sound
  simp only [itemTokens, List.length_cons, List.length_append] at enough
  have item_ := first false (itemTokens items ++ .blockEnd :: rest) fuel (by simp) (by omega)
    (by simp)
  rw [same] at item_
  simp only [itemTokens, same, List.cons_append, List.append_assoc]
  exact Yaml.Parse.blockItems_cons starts (other rfl) item_ (others rest fuel (by omega))

theorem indentlessItems_read {item : Wire} {items : List Wire} (sound : Sound false item)
    (first : NodeRead false item) (others : IndentlessItemsRead items) :
    IndentlessItemsRead (item :: items) := by
  intro rest fuel enough next
  obtain ⟨fuel, rfl⟩ : ∃ n, fuel = n + 1 := ⟨fuel - 1, by omega⟩
  obtain ⟨token, more, same, starts, other⟩ := tokens_start sound
  simp only [itemTokens, List.length_cons, List.length_append] at enough
  have item_ := first false (itemTokens items ++ rest) fuel (by simp) (by omega) (by simp)
  rw [same] at item_
  simp only [itemTokens, same, List.cons_append, List.append_assoc]
  exact Yaml.Parse.indentlessItems_cons starts (other rfl) item_ (others rest fuel (by omega) next)

theorem entryTokens_next (fields : List (String × Wire)) (rest : List Token) :
    (entryTokens fields ++ .blockEnd :: rest).head? ≠ some .blockEntry := by
  rcases fields with _ | ⟨⟨key, value⟩, fields⟩ <;> simp [entryTokens]

theorem blockEntries_read {key : String} {value : Wire} {fields : List (String × Wire)}
    (sound : Sound (Yaml.Written.isSimpleKey key.toList) value)
    (first : NodeRead (Yaml.Written.isSimpleKey key.toList) value)
    (others : BlockEntriesRead fields) : BlockEntriesRead ((key, value) :: fields) := by
  intro rest fuel enough
  obtain ⟨fuel, rfl⟩ : ∃ n, fuel = n + 1 := ⟨fuel - 1, by omega⟩
  obtain ⟨token, more, same, starts, other⟩ := tokens_start sound
  simp only [entryTokens, List.length_cons, List.length_append] at enough
  have value_ := first true (entryTokens fields ++ .blockEnd :: rest) fuel (fun _ => rfl)
    (by omega)    (fun _ => entryTokens_next fields rest)
  rw [same] at value_
  simp only [entryTokens, same, List.cons_append, List.append_assoc]
  refine Yaml.Parse.blockEntries_cons starts ?_ value_ (others rest fuel (by omega))
  obtain ⟨fuel, rfl⟩ : ∃ n, fuel = n + 2 := ⟨fuel - 2, by omega⟩
  apply Yaml.Parse.node_plain rfl
  rw [Yaml.Parse.content_scalar, String.ofList_toList]

/-- A list stands between its own marks, or without them under a key. -/
theorem content_list {item : Wire} {items : List Wire} (block : BlockItemsRead (item :: items))
    (indentless : IndentlessItemsRead (item :: items)) : ContentRead tagged (.list (item :: items)) := by
  intro tag indentless_ rest fuel admits enough next
  obtain ⟨fuel, rfl⟩ : ∃ n, fuel = n + 1 := ⟨fuel - 1, by omega⟩
  cases tagged with
  | true =>
    have bound : (tokens true (.list (item :: items))).length = (itemTokens (item :: items)).length := rfl
    obtain rfl := admits rfl
    exact Yaml.Parse.content_indentless (indentless rest fuel (by omega) (next rfl))
  | false =>
    have bound : (tokens false (.list (item :: items))).length
        = (itemTokens (item :: items)).length + 2 := by
      simp [tokens, itemTokens, Nat.add_assoc]
    have read := block rest fuel (by omega)
    simp only [itemTokens, List.cons_append, List.append_assoc] at read
    simp only [tokens, List.cons_append, List.append_assoc, List.nil_append, Bool.false_eq_true,
      if_false]
    exact Yaml.Parse.content_block read

theorem content_record {key : String} {value : Wire} {fields : List (String × Wire)}
    (entries : BlockEntriesRead ((key, value) :: fields)) :
    ContentRead tagged (.record ((key, value) :: fields)) := by
  intro tag indentless rest fuel admits enough next
  obtain ⟨fuel, rfl⟩ : ∃ n, fuel = n + 1 := ⟨fuel - 1, by omega⟩
  have bound : (tokens tagged (.record ((key, value) :: fields))).length
      = (entryTokens ((key, value) :: fields)).length + 2 := by
    simp [tokens, entryTokens]
    omega
  have read := entries rest fuel (by omega)
  simp only [entryTokens, List.cons_append, List.append_assoc] at read
  simp only [tokens, List.cons_append, List.append_assoc, List.nil_append]
  exact Yaml.Parse.content_mapping read

theorem content_scalar {value : Wire} {style : Yaml.Style} {text : List Char}
    (read : tokens tagged value = [.scalar style text])
    (node : ∀ tag, nodeOf tag value = .scalar tag style (String.ofList text)) :
    ContentRead tagged value := by
  intro tag indentless rest fuel admits enough next
  obtain ⟨fuel, rfl⟩ : ∃ n, fuel = n + 1 := ⟨fuel - 1, by omega⟩
  rw [read, node]
  exact Yaml.Parse.content_scalar style text

mutual

theorem content_of_sound {tagged : Bool} (value : Wire) (sound : Sound tagged value) :
    ContentRead tagged value.bare := by
  rcases value with value | value | text | ⟨_ | ⟨item, items⟩⟩ | ⟨_ | ⟨⟨key, value⟩, fields⟩⟩ |
    ⟨tag, payload⟩
  · exact content_scalar rfl (fun tag => by simp [bare, nodeOf])
  · exact content_scalar rfl (fun tag => by simp [bare, nodeOf])
  · exact content_scalar rfl (fun tag => by simp [bare, nodeOf])
  · intro tag indentless rest fuel admits enough next
    obtain ⟨fuel, rfl⟩ : ∃ n, fuel = n + 2 := ⟨fuel - 2, by omega⟩
    exact Yaml.Parse.content_emptyList
  · exact content_list (blockItems_of_sound _ sound) (indentlessItems_of_sound _ sound)
  · intro tag indentless rest fuel admits enough next
    obtain ⟨fuel, rfl⟩ : ∃ n, fuel = n + 2 := ⟨fuel - 2, by omega⟩
    exact Yaml.Parse.content_emptyRecord
  · exact content_record (blockEntries_of_sound _ sound.2)
  · obtain ⟨rfl, -, -, payload_, -, carried⟩ := sound
    have same : payload.bare = payload := by
      cases payload <;> simp_all [isPayload, bare]
    have read := content_of_sound payload carried
    rwa [same] at read

theorem blockItems_of_sound (items : List Wire) (sound : ItemsSound items) :
    BlockItemsRead items := by
  cases items with
  | nil =>
    intro rest fuel enough
    obtain ⟨fuel, rfl⟩ : ∃ n, fuel = n + 1 := ⟨fuel - 1, by omega⟩
    exact Yaml.Parse.blockItems_nil
  | cons item items =>
    exact blockItems_read sound.1 (node_of_content sound.1 (content_of_sound item sound.1))
      (blockItems_of_sound items sound.2)

theorem indentlessItems_of_sound (items : List Wire) (sound : ItemsSound items) :
    IndentlessItemsRead items := by
  cases items with
  | nil =>
    intro rest fuel enough next
    obtain ⟨fuel, rfl⟩ : ∃ n, fuel = n + 1 := ⟨fuel - 1, by omega⟩
    exact Yaml.Parse.indentlessItems_nil next
  | cons item items =>
    exact indentlessItems_read sound.1 (node_of_content sound.1 (content_of_sound item sound.1))
      (indentlessItems_of_sound items sound.2)

theorem blockEntries_of_sound (fields : List (String × Wire)) (sound : EntriesSound fields) :
    BlockEntriesRead fields := by
  rcases fields with _ | ⟨⟨key, value⟩, fields⟩
  · intro rest fuel enough
    obtain ⟨fuel, rfl⟩ : ∃ n, fuel = n + 1 := ⟨fuel - 1, by omega⟩
    exact Yaml.Parse.blockEntries_nil
  · exact blockEntries_read sound.1 (node_of_content sound.1 (content_of_sound value sound.1))
      (blockEntries_of_sound fields sound.2)

end

/-- The only document of a record's text is its node. -/
theorem parse?_toYaml {fields : List (String × Wire)} (nonempty : fields ≠ [])
    (sound : Sound false (.record fields)) :
    Yaml.Stream.parse? (toYaml (.record fields)).toList
      = some ⟨some (nodeOf none (.record fields)), {}⟩ := by
  have read := node_of_content sound (content_of_sound _ sound) false []
    (4 * (tokens false (.record fields)).length + 8) (by simp) (by omega) (by simp)
  obtain ⟨⟨key, value⟩, rest, rfl⟩ := List.exists_cons_of_ne_nil nonempty
  rw [Yaml.Stream.parse?, tokens?_toYaml nonempty sound]
  simp only [Option.bind_eq_bind, Option.bind_some]
  rw [List.append_nil] at read
  simp only [tokens] at read ⊢
  rw [Yaml.Parse.document_read rfl read]
  rfl

end ApiManifest.Wire
