import ApiManifest.Proofs.Json.Tokens
import ApiManifest.Proofs.Yaml.WrittenNodes

/-!
The nodes that are parsed from the tokens of a JSON text. An object is a mapping with the same
entries in the same order, whose keys are scalars in quotes.
-/

namespace ApiManifest.Yaml.Parse

variable {token : Token} {rest : List Token} {anchors : Anchors}
  {handles : List (List Char × List Char)} {block indentless : Bool} {fuel : Nat}

/-- The comma in front of all items but the first. -/
def comma (first : Bool) : List Token :=
  if first then [] else [.flowEntry]

theorem content_flowItems {items : List Node} {after : ParseState}
    (read : (flowItems true fuel).run ⟨rest, anchors, handles⟩ = some (items, after)) :
    (content {} block indentless (fuel + 1)).run ⟨.flowSequenceStart :: rest, anchors, handles⟩
      = some (.sequence none items, after) := by
  simp [content, peek, skip, read]

theorem content_flowEntries {entries : List (Node × Node)} {after : ParseState}
    (read : (flowEntries true fuel).run ⟨rest, anchors, handles⟩ = some (entries, after)) :
    (content {} block indentless (fuel + 1)).run ⟨.flowMappingStart :: rest, anchors, handles⟩
      = some (.mapping none entries, after) := by
  simp [content, peek, skip, read]

theorem flowItems_end (first : Bool) :
    (flowItems first (fuel + 1)).run ⟨.flowSequenceEnd :: rest, anchors, handles⟩
      = some ([], ⟨rest, anchors, handles⟩) := by
  simp [flowItems, accept_self]

theorem flowEntries_end (first : Bool) :
    (flowEntries first (fuel + 1)).run ⟨.flowMappingEnd :: rest, anchors, handles⟩
      = some ([], ⟨rest, anchors, handles⟩) := by
  simp [flowEntries, accept_self]

theorem flowItems_cons {item : Node} {items : List Node} {between after : ParseState}
    (starts : startsNode token) (first : Bool)
    (read : (node false false fuel).run ⟨token :: rest, anchors, handles⟩ = some (item, between))
    (others : (flowItems false fuel).run between = some (items, after)) :
    (flowItems first (fuel + 1)).run ⟨comma first ++ token :: rest, anchors, handles⟩
      = some (item :: items, after) := by
  have notEnd : token ≠ .flowSequenceEnd := by
    rintro rfl
    cases starts
  have notKey : token ≠ .key := by
    rintro rfl
    cases starts
  cases first with
  | true =>
    simp only [comma, if_true, List.nil_append, flowItems, StateT.run_bind, accept_other notEnd,
      accept_other notKey, Option.bind_eq_bind, Option.bind_some, Bool.false_eq_true, if_false,
      read, others, StateT.run_pure, Option.pure_def, Bool.not_true]
  | false =>
    have open_ : Token.flowEntry ≠ .flowSequenceEnd := by simp
    simp only [comma, if_false, Bool.false_eq_true, List.singleton_append, flowItems,
      StateT.run_bind, accept_other notEnd, accept_other notKey, accept_other open_, expect_self,
      Option.bind_eq_bind, Option.bind_some, read, others, StateT.run_pure, Option.pure_def,
      Bool.not_false, if_true]

theorem flowValue_given {value : Node} {between : ParseState} (starts : startsNode token)
    (read : (node false false fuel).run ⟨token :: rest, anchors, handles⟩ = some (value, between)) :
    (flowValue .flowMappingEnd (fuel + 1)).run ⟨.value :: token :: rest, anchors, handles⟩
      = some (value, between) := by
  have given : [Token.flowEntry, .flowMappingEnd].contains token = false := by
    cases token <;> simp_all [startsNode]
  simp only [flowValue, StateT.run_bind, accept_self, atAny_cons, given, Option.bind_eq_bind,
    Option.bind_some, if_true, Bool.false_eq_true, if_false, read]

theorem flowEntries_cons {key value : Node} {entries : List (Node × Node)} {style : Style}
    {text : List Char} {between after : ParseState} (first : Bool)
    (named : (node false false fuel).run ⟨.scalar style text :: rest, anchors, handles⟩
      = some (key, ⟨rest, anchors, handles⟩))
    (given : (flowValue .flowMappingEnd fuel).run ⟨rest, anchors, handles⟩ = some (value, between))
    (others : (flowEntries false fuel).run between = some (entries, after)) :
    (flowEntries first (fuel + 1)).run
        ⟨comma first ++ .key :: .scalar style text :: rest, anchors, handles⟩
      = some ((key, value) :: entries, after) := by
  have scalar :
      [Token.value, .flowEntry, .flowMappingEnd].contains (.scalar style text) = false := by
    simp
  have open_ : Token.key ≠ .flowMappingEnd := by simp
  cases first with
  | true =>
    simp only [comma, if_true, List.nil_append, flowEntries, StateT.run_bind, accept_other open_,
      accept_self, atAny_cons, scalar, Option.bind_eq_bind, Option.bind_some, Bool.false_eq_true,
      if_false, named, given, others, StateT.run_pure, Option.pure_def, Bool.not_true]
  | false =>
    have separated : Token.flowEntry ≠ .flowMappingEnd := by simp
    simp only [comma, if_false, Bool.false_eq_true, List.singleton_append, flowEntries,
      StateT.run_bind, accept_other separated, expect_self, accept_self, atAny_cons, scalar,
      Option.bind_eq_bind, Option.bind_some, named, given, others, StateT.run_pure,
      Option.pure_def, Bool.not_false, if_true]

end ApiManifest.Yaml.Parse

namespace ApiManifest.JsonSyntax

open Yaml (Node Token Anchors)
open Yaml.Parse (node content flowItems flowEntries flowValue startsNode comma)

def Key.node (key : Key) : Node :=
  .scalar none .doubleQuoted (String.ofList (key.pieces.map Piece.image))

mutual

def Value.node : Value → Node
  | .null => .scalar none .plain "null"
  | .bool value => .scalar none .plain (String.ofList (flagChars value))
  | .number numeral => .scalar none .plain (String.ofList numeral.chars)
  | .string pieces => .scalar none .doubleQuoted (String.ofList (pieces.map Piece.image))
  | .emptyArray _ => .sequence none []
  | .array _ items => .sequence none items.nodes
  | .emptyObject _ => .mapping none []
  | .object _ members => .mapping none members.nodes

def Items.nodes : Items → List Node
  | .last value _ => [value.node]
  | .more value _ _ rest => value.node :: rest.nodes

def Members.nodes : Members → List (Node × Node)
  | .last key value _ => [(key.node, value.node)]
  | .more key value _ _ rest => (key.node, value.node) :: rest.nodes

end

theorem Value.tokens_start (value : Value) :
    ∃ token rest, value.tokens = token :: rest ∧ startsNode token := by
  cases value with
  | array before items => exact ⟨.flowSequenceStart, items.tokens, rfl, rfl⟩
  | object before members => exact ⟨.flowMappingStart, members.tokens, rfl, rfl⟩
  | _ => exact ⟨_, _, rfl, rfl⟩

/-- The key of a member is read on its own, and what follows it as its value. -/
theorem Members.read_cons {key : Key} {value : Value} {rest : List Token}
    {anchors : Anchors} {handles : List (List Char × List Char)} {entries : List (Node × Node)}
    {between after : Yaml.ParseState} {fuel : Nat} (first : Bool)
    (read : (node false false fuel).run ⟨value.tokens ++ rest, anchors, handles⟩
      = some (value.node, between))
    (others : (flowEntries false (fuel + 1)).run between = some (entries, after))
    (enough : 1 ≤ fuel) :
    (flowEntries first (fuel + 2)).run
        ⟨comma first ++ (key.tokens ++ (value.tokens ++ rest)), anchors, handles⟩
      = some ((key.node, value.node) :: entries, after) := by
  obtain ⟨token, more, tokens, starts⟩ := value.tokens_start
  obtain ⟨fuel, rfl⟩ : ∃ n, fuel = n + 1 := ⟨fuel - 1, by omega⟩
  rw [tokens, List.cons_append] at read ⊢
  have named := @Yaml.Parse.node_plain _ _ anchors handles false false _ _ rfl
    (@Yaml.Parse.content_scalar (.value :: token :: (more ++ rest)) anchors handles false false fuel
      {} .doubleQuoted (key.pieces.map Piece.image))
  exact Yaml.Parse.flowEntries_cons first named (Yaml.Parse.flowValue_given starts read) others

mutual

theorem Value.node_read (value : Value) {block indentless : Bool} {rest : List Token}
    {anchors : Anchors} {handles : List (List Char × List Char)} {fuel : Nat}
    (enough : 2 * value.tokens.length ≤ fuel) :
    (node block indentless fuel).run ⟨value.tokens ++ rest, anchors, handles⟩
      = some (value.node, ⟨rest, anchors, handles⟩) := by
  obtain ⟨token, more, tokens, -⟩ := value.tokens_start
  have positive : 0 < value.tokens.length := by simp [tokens]
  obtain ⟨fuel, rfl⟩ : ∃ n, fuel = n + 2 := ⟨fuel - 2, by omega⟩
  match value with
  | .null => exact Yaml.Parse.node_plain rfl (Yaml.Parse.content_scalar _ _)
  | .bool value => exact Yaml.Parse.node_plain rfl (Yaml.Parse.content_scalar _ _)
  | .number numeral => exact Yaml.Parse.node_plain rfl (Yaml.Parse.content_scalar _ _)
  | .string pieces => exact Yaml.Parse.node_plain rfl (Yaml.Parse.content_scalar _ _)
  | .emptyArray inside =>
    obtain ⟨fuel, rfl⟩ : ∃ n, fuel = n + 1 := ⟨fuel - 1, by simp [Value.tokens] at enough; omega⟩
    exact Yaml.Parse.node_plain rfl (Yaml.Parse.content_flowItems (Yaml.Parse.flowItems_end true))
  | .array before items =>
    have read := @items.nodes_read true rest anchors handles fuel
      (by simp [Value.tokens] at enough; omega)
    exact Yaml.Parse.node_plain rfl (Yaml.Parse.content_flowItems read)
  | .emptyObject inside =>
    obtain ⟨fuel, rfl⟩ : ∃ n, fuel = n + 1 := ⟨fuel - 1, by simp [Value.tokens] at enough; omega⟩
    exact Yaml.Parse.node_plain rfl
      (Yaml.Parse.content_flowEntries (Yaml.Parse.flowEntries_end true))
  | .object before members =>
    have read := @members.nodes_read true rest anchors handles fuel
      (by simp [Value.tokens] at enough; omega)
    exact Yaml.Parse.node_plain rfl (Yaml.Parse.content_flowEntries read)

theorem Items.nodes_read (items : Items) (first : Bool) {rest : List Token} {anchors : Anchors}
    {handles : List (List Char × List Char)} {fuel : Nat}
    (enough : 2 * items.tokens.length ≤ fuel) :
    (flowItems first fuel).run ⟨comma first ++ (items.tokens ++ rest), anchors, handles⟩
      = some (items.nodes, ⟨rest, anchors, handles⟩) := by
  match items with
  | .last value after =>
    simp only [Items.tokens, List.length_append, List.length_singleton] at enough
    obtain ⟨fuel, rfl⟩ : ∃ n, fuel = n + 2 := ⟨fuel - 2, by omega⟩
    obtain ⟨token, more, tokens, starts⟩ := value.tokens_start
    have read := @value.node_read false false (.flowSequenceEnd :: rest) anchors handles (fuel + 1)
      (by omega)
    simp only [Items.tokens, List.append_assoc, List.singleton_append]
    rw [tokens, List.cons_append] at read ⊢
    exact Yaml.Parse.flowItems_cons starts first read (Yaml.Parse.flowItems_end false)
  | .more value after beyond others =>
    simp only [Items.tokens, List.length_append, List.length_cons] at enough
    obtain ⟨fuel, rfl⟩ : ∃ n, fuel = n + 2 := ⟨fuel - 2, by omega⟩
    obtain ⟨token, more, tokens, starts⟩ := value.tokens_start
    have read := @value.node_read false false (.flowEntry :: (others.tokens ++ rest)) anchors
      handles (fuel + 1) (by omega)
    have later := @others.nodes_read false rest anchors handles (fuel + 1) (by omega)
    simp only [Items.tokens, List.append_assoc, List.cons_append]
    rw [tokens, List.cons_append] at read ⊢
    exact Yaml.Parse.flowItems_cons starts first read later

theorem Members.nodes_read (members : Members) (first : Bool) {rest : List Token}
    {anchors : Anchors} {handles : List (List Char × List Char)} {fuel : Nat}
    (enough : 2 * members.tokens.length ≤ fuel) :
    (flowEntries first fuel).run ⟨comma first ++ (members.tokens ++ rest), anchors, handles⟩
      = some (members.nodes, ⟨rest, anchors, handles⟩) := by
  match members with
  | .last key value after =>
    simp only [Members.tokens, Key.tokens, List.length_append, List.length_cons,
      List.length_nil] at enough
    obtain ⟨fuel, rfl⟩ : ∃ n, fuel = n + 2 := ⟨fuel - 2, by omega⟩
    have read := @value.node_read false false (.flowMappingEnd :: rest) anchors handles fuel
      (by omega)
    simp only [Members.tokens, List.append_assoc, List.singleton_append]
    exact Members.read_cons first read (Yaml.Parse.flowEntries_end false) (by omega)
  | .more key value after beyond others =>
    simp only [Members.tokens, Key.tokens, List.length_append, List.length_cons,
      List.length_nil] at enough
    obtain ⟨fuel, rfl⟩ : ∃ n, fuel = n + 2 := ⟨fuel - 2, by omega⟩
    have read := @value.node_read false false (.flowEntry :: (others.tokens ++ rest)) anchors
      handles fuel (by omega)
    have later := @others.nodes_read false rest anchors handles (fuel + 1) (by omega)
    simp only [Members.tokens, List.append_assoc, List.cons_append]
    exact Members.read_cons first read later (by omega)

end

/-- The only document of a text that is an object is the node of the object. -/
theorem Text.parse?_spelled {text : Text} (read : text.IsRead)
    (object : text.root.members?.isSome) :
    Yaml.Stream.parse? (text.spelled Space.chars) = some ⟨some text.root.node, {}⟩ := by
  obtain ⟨token, more, tokens, starts⟩ := text.root.tokens_start
  have parsed := @text.root.node_read true false [] {} Yaml.Parse.defaultHandles
    (4 * text.root.tokens.length + 7 + 1) (by omega)
  rw [List.append_nil] at parsed
  rw [Yaml.Stream.parse?, tokens?_spelled read object]
  simp only [Option.bind_eq_bind, Option.bind_some]
  rw [tokens] at parsed ⊢
  rw [Yaml.Parse.document_read starts parsed]
  rfl

end ApiManifest.JsonSyntax
