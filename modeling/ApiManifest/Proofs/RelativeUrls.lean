import ApiManifest.Proofs.Generation
import ApiManifest.Proofs.ServerUrls

/-!
What relative server URLs come to. Whether a URL is relative is decided once the defaults are in it
and from the whole of it, which shows in two places. A URL that begins with one slash gets a host if
the variables after that slash all come to nothing and a second slash follows them. And a query or a
fragment that holds the end of a scheme makes the whole text a URI, which does no harm to a path
from the root that may stand in one, and makes every other path unreadable.
-/

namespace ApiManifest.OpenApi

open Resolution (bind_eq_ok)
open Text (isWordChar)

/-! ### Hosts -/

theorem host_isSome_iff {server : Server} {url : ServerUrl} (located : server.locate = .ok url) :
    url.host.isSome = true ↔ "//".toList <+: server.render.toList ∨
      "://".toList <:+: server.render.toList ∧ server.render.toList.head? ≠ some '/' := by
  unfold Server.locate at located
  by_cases network : "//".toList <+: server.render.toList
  · rw [splitUrl_network network] at located
    obtain ⟨uri, parsed, rfl⟩ := splitAbsolute_eq_ok_iff.1 located
    rw [Option.isSome_map, Uri.authority_isSome_iff parsed]
    exact iff_of_true (by simp) (Or.inl network)
  · by_cases scheme : "://".toList <:+: server.render.toList
    · rw [splitUrl_absolute network scheme] at located
      obtain ⟨uri, parsed, rfl⟩ := splitAbsolute_eq_ok_iff.1 located
      rw [Option.isSome_map, Uri.authority_isSome_iff parsed, or_iff_right network,
        and_iff_right scheme]
    · rw [splitUrl_relative network scheme] at located
      cases located
      simp only [Option.isSome_none, Bool.false_eq_true, network, scheme, false_and, or_self]

/-- Variables that come to nothing stand here, and a slash after the last of them. -/
inductive Hollow (value : String → String) : List Char → Prop where
  | slash (rest : List Char) : Hollow value ('/' :: rest)
  | blank {name rest : List Char} (filled : name ≠ []) (word : ∀ c ∈ name, isWordChar c = true)
      (empty : value (String.ofList name) = "") (inner : Hollow value rest) :
      Hollow value ('\x7b' :: (name ++ '\x7d' :: rest))

section Slashes

variable {value : String → String}

theorem hollow_variable_iff {text name rest : List Char}
    (found : placeholder? text = some (name, rest)) :
    Hollow value ('\x7b' :: text) ↔ value (String.ofList name) = "" ∧ Hollow value rest := by
  constructor
  · intro hollow
    cases hollow with
    | @blank other after filled word empty inner =>
      have again : placeholder? (other ++ '\x7d' :: after) = some (other, after) :=
        placeholder?_eq_some_iff.2 ⟨filled, word, rfl⟩
      cases found.symm.trans again
      exact ⟨empty, inner⟩
  · rintro ⟨empty, inner⟩
    obtain ⟨filled, word, rfl⟩ := placeholder?_eq_some_iff.1 found
    exact .blank filled word empty inner

/-- Where no value holds a slash, a slash comes first only after variables that come to nothing. -/
theorem head_substitute_iff (flat : ∀ name, '/' ∉ (value name).toList) (text : List Char) :
    (substitute value text).head? = some '/' ↔ Hollow value text := by
  fun_induction substitute value text with
  | case1 =>
    refine iff_of_false (by simp) ?_
    intro hollow
    cases hollow
  | case2 rest name after found ih =>
    rw [hollow_variable_iff found, List.head?_append, ← ih]
    cases same : (value (String.ofList name)).toList with
    | nil =>
      have empty : value (String.ofList name) = "" := String.toList_eq_nil_iff.1 same
      simp [empty]
    | cons c others =>
      have inside := flat (String.ofList name)
      rw [same] at inside
      have filled : value (String.ofList name) ≠ "" := by
        rintro empty
        rw [empty] at same
        cases same
      have notSlash : c ≠ '/' := fun slash => inside (slash ▸ List.mem_cons_self)
      simp [filled, notSlash]
  | case3 rest found ih =>
    refine iff_of_false (by simp) ?_
    intro hollow
    cases hollow with
    | blank filled word empty inner =>
      rw [placeholder?_eq_some_iff.2 ⟨filled, word, rfl⟩] at found
      cases found
  | case4 c rest notBrace ih =>
    constructor
    · intro first
      cases Option.some.inj first
      exact .slash rest
    · intro hollow
      cases hollow with
      | slash => rfl
      | blank => exact absurd rfl notBrace

end Slashes

theorem Server.valueOf_flat {server : Server}
    (flat : ∀ entry ∈ server.defaults.entries, '/' ∉ entry.2.toList) (name : String) :
    '/' ∉ (server.valueOf name).toList := by
  unfold valueOf
  cases found : server.defaults.get? name with
  | none => simp
  | some value => exact flat (name, value) (Dict.mem_of_lookup found)

theorem Document.hosts_split {document : Document} {before after : List Server} {server : Server}
    {hosts : List String} (servers : document.servers = before ++ server :: after)
    (found : document.hosts = .ok hosts) :
    ∃ first url last, server.locate = .ok url ∧ hosts = first ++ (url.host.toList ++ last) ∧
      Document.hosts { document with servers := before ++ after } = .ok (first ++ last) := by
  unfold Document.hosts at found ⊢
  rw [servers, List.mapM_append] at found
  rw [List.mapM_append]
  obtain ⟨urls, located, found⟩ := bind_eq_ok found
  obtain ⟨early, start, located⟩ := bind_eq_ok located
  obtain ⟨others, rest, located⟩ := bind_eq_ok located
  rw [List.mapM_cons] at rest
  obtain ⟨url, own, rest⟩ := bind_eq_ok rest
  obtain ⟨late, ending, rest⟩ := bind_eq_ok rest
  cases rest
  cases located
  cases found
  refine ⟨early.filterMap ServerUrl.host, url, late.filterMap ServerUrl.host, own, ?_, ?_⟩
  · rw [List.filterMap_append, List.filterMap_cons]
    cases url.host <;> rfl
  · rw [start, ending]
    exact congrArg Except.ok List.filterMap_append

/-- A server whose URL begins with a slash has a host, and gives it to the document, exactly if the
variables after that slash come to nothing up to another slash. -/
theorem host_of_rooted_iff {server : Server} {rest : List Char}
    (root : server.url.toList = '/' :: rest)
    (flat : ∀ entry ∈ server.defaults.entries, '/' ∉ entry.2.toList) :
    (∀ url, server.locate = .ok url → (url.host.isSome = true ↔ Hollow server.valueOf rest)) ∧
    ∀ (document : Document) (before after : List Server) (hosts : List String),
      document.servers = before ++ server :: after → document.hosts = .ok hosts →
        (Document.hosts { document with servers := before ++ after } = .ok hosts ↔
          ¬ Hollow server.valueOf rest) := by
  have rendered : server.render.toList = '/' :: substitute server.valueOf rest := by
    rw [Server.toList_render, root, substitute, if_neg (by decide)]
  have own : ∀ url, server.locate = .ok url →
      (url.host.isSome = true ↔ Hollow server.valueOf rest) := by
    intro url located
    rw [host_isSome_iff located, rendered, ← head_substitute_iff (Server.valueOf_flat flat)]
    cases substitute server.valueOf rest <;> simp [eq_comm]
  refine ⟨own, ?_⟩
  intro document before after hosts servers found
  obtain ⟨first, url, last, located, rfl, without⟩ := Document.hosts_split servers found
  rw [without, ← own url located]
  cases url.host <;> simp

def versioned (defaults : Dict String) : Server :=
  ⟨"/\x7bversion\x7d/api", defaults⟩

theorem versioned_without_host :
    (versioned (.ofList [("version", "v1")])).locate = .ok ⟨none, "/v1/api"⟩ ∧
    ¬ Hollow (versioned (.ofList [("version", "v1")])).valueOf "\x7bversion\x7d/api".toList := by
  have flat : ∀ entry ∈ (versioned (.ofList [("version", "v1")])).defaults.entries,
      '/' ∉ entry.2.toList := by decide +kernel
  have located : (versioned (.ofList [("version", "v1")])).locate = .ok ⟨none, "/v1/api"⟩ := by
    decide +kernel
  refine ⟨located, fun hollow => ?_⟩
  have host := ((host_of_rooted_iff (by decide +kernel) flat).1 _ located).2 hollow
  cases host

/-- Not declared, or empty by default, the variable leaves two slashes, after which the base path is
read as a host. -/
theorem versionless_has_host :
    ¬ "//".toList <+: (versioned .empty).url.toList ∧
    (versioned .empty).locate = .ok ⟨some "api", "/"⟩ ∧
    (versioned (.ofList [("version", "")])).locate = .ok ⟨some "api", "/"⟩ ∧
    Document.hosts { Generate.petstore with servers := [versioned .empty] } = .ok ["api"] := by
  refine ⟨?_, ?_, ?_, ?_⟩ <;> decide +kernel

/-! ### Queries and fragments -/

/-- The path of a relative URL without variables, up to the URL's query or its fragment. -/
structure IsRelativePath (path : String) : Prop where
  plain : '\x7b' ∉ path.toList
  noQuery : '?' ∉ path.toList
  noFragment : '#' ∉ path.toList
  noScheme : ¬ "://".toList <:+: path.toList
  notNetwork : ¬ "//".toList <+: path.toList

/-- The path begins at the root, and is part of a URI together with what comes after it. -/
structure FormsUri (path : String) (mark : Char) (after : String) : Prop where
  root : path.toList.head? = some '/'
  characters : path.toList.all Uri.isPathChar = true
  follows : Uri.mayFollow (mark :: after.toList) = true
  short : (path ++ String.singleton mark ++ after).utf8ByteSize ≤ Uri.byteLimit

theorem Server.render_plain {url : String} (plain : '\x7b' ∉ url.toList) (defaults : Dict String) :
    Server.render ⟨url, defaults⟩ = url := by
  rw [← String.toList_inj, toList_render, substitute_plain plain]

theorem IsRelativePath.endsNowhere {path : String} (relative : IsRelativePath path) :
    ∀ c ∈ path.toList, Uri.endsPath c = false := by
  intro c member
  rw [← Bool.not_eq_true, Uri.endsPath_iff]
  rintro (rfl | rfl)
  · exact relative.noQuery member
  · exact relative.noFragment member

theorem locate_path {path : String} (relative : IsRelativePath path) (defaults : Dict String) :
    Server.locate ⟨path, defaults⟩ = .ok ⟨none, path⟩ := by
  have whole : path.toList.takeWhile (fun c => !Uri.endsPath c) = path.toList :=
    List.takeWhile_eq_self_iff.2 (by simpa using relative.endsNowhere)
  unfold Server.locate
  rw [Server.render_plain relative.plain, splitUrl_relative relative.notNetwork relative.noScheme,
    whole, String.ofList_toList]

theorem toList_around_mark (path : String) (mark : Char) (after : String) :
    (path ++ String.singleton mark ++ after).toList = path.toList ++ mark :: after.toList := by
  simp

section Marks

variable {mark : Char} (marked : Uri.endsPath mark = true)
include marked

/-- No scheme ends across the beginning of a query or a fragment. -/
theorem scheme_around_mark (front after : List Char) :
    "://".toList <:+: front ++ mark :: after ↔
      "://".toList <:+: front ∨ "://".toList <:+: after := by
  have outside : mark ∉ "://".toList := by
    rcases Uri.endsPath_iff.1 marked with rfl | rfl <;> decide
  constructor
  · intro scheme
    rcases List.infix_append_iff.1 scheme with inFront | behind | ⟨early, late, whole, ends, begins⟩
    · exact Or.inl inFront
    · rcases List.infix_cons_iff.1 behind with here | inAfter
      · have same : ':' = mark := (List.cons_prefix_cons.1 here).1
        exact absurd (same ▸ List.mem_cons_self) outside
      · exact Or.inr inAfter
    · rcases List.prefix_cons_iff.1 begins with nothing | ⟨others, rfl, _⟩
      · rw [nothing, List.append_nil] at whole
        exact Or.inl (whole ▸ ends.isInfix)
      · rw [whole] at outside
        exact absurd (List.mem_append_right _ List.mem_cons_self) outside
  · rintro (inFront | inAfter)
    · exact inFront.trans (List.infix_append' [] front (mark :: after))
    · exact inAfter.trans ((List.suffix_cons mark after).trans (List.suffix_append front _)).isInfix

theorem takeWhile_before_mark {front : List Char} (inside : ∀ c ∈ front, Uri.endsPath c = false)
    (after : List Char) :
    (front ++ mark :: after).takeWhile (fun c => !Uri.endsPath c) = front := by
  apply takeWhile_run
  · simpa using inside
  · rintro c first
    cases first
    simp [marked]

theorem dropWhile_before_mark {front : List Char} (inside : ∀ c ∈ front, Uri.endsPath c = false)
    (after : List Char) :
    (front ++ mark :: after).dropWhile (fun c => !Uri.endsPath c) = mark :: after := by
  apply dropWhile_run
  · simpa using inside
  · rintro c first
    cases first
    simp [marked]

/-- Put before a query or a fragment, the path alone decides whether the whole is a network path. -/
theorem network_before_mark (front after : List Char) :
    "//".toList <+: front ++ mark :: after ↔ "//".toList <+: front := by
  have notSlash : '/' ≠ mark := by
    rintro rfl
    cases marked
  match front with
  | [] => simp [List.cons_prefix_cons, notSlash]
  | [c] => simp [List.cons_prefix_cons, notSlash]
  | first :: second :: rest => simp [List.cons_prefix_cons]

theorem parse_rooted_mark {path after : String} (relative : IsRelativePath path)
    (root : path.toList.head? = some '/') :
    Uri.parse (path.toList ++ mark :: after.toList) =
      if Uri.byteLimit < (path ++ String.singleton mark ++ after).utf8ByteSize then
        .error .tooLong
      else if path.toList.all Uri.isPathChar && Uri.mayFollow (mark :: after.toList) then
        .ok ⟨none, path.toList⟩
      else .error .character := by
  have filled : path.toList.isEmpty = false := by
    cases same : path.toList with
    | nil =>
      rw [same] at root
      cases root
    | cons => rfl
  have rooted : (path.toList ++ mark :: after.toList).head? = some '/' := by
    rw [List.head?_append, root]
    rfl
  rw [Uri.parse_of_root rooted, ← toList_around_mark, String.ofList_toList, toList_around_mark,
    Uri.readPath_eq, takeWhile_before_mark marked relative.endsNowhere,
    dropWhile_before_mark marked relative.endsNowhere, filled]
  cases path.toList.all Uri.isPathChar && Uri.mayFollow (mark :: after.toList) <;> rfl

theorem parse_around_mark {path after : String} (relative : IsRelativePath path) :
    Uri.parse (path.toList ++ mark :: after.toList) = .ok ⟨none, path.toList⟩ ∧
        FormsUri path mark after ∨
      (∃ fault, Uri.parse (path.toList ++ mark :: after.toList) = .error fault) ∧
        ¬ FormsUri path mark after := by
  by_cases forms : FormsUri path mark after
  · rw [parse_rooted_mark marked relative forms.root, if_neg (Nat.not_lt.2 forms.short),
      forms.characters, forms.follows]
    exact Or.inl ⟨rfl, forms⟩
  · refine Or.inr ⟨?_, forms⟩
    by_cases root : path.toList.head? = some '/'
    · rw [parse_rooted_mark marked relative root]
      split
      next => exact ⟨_, rfl⟩
      next short =>
        split
        next read =>
          rw [Bool.and_eq_true] at read
          exact (forms ⟨root, read.1, read.2, Nat.not_lt.1 short⟩).elim
        next => exact ⟨_, rfl⟩
    · exact Uri.parse_of_rootless root relative.noScheme marked

end Marks

/-- What comes after a relative path changes nothing unless a scheme ends there. Then the whole is
read as a URI: a path from the root that may stand in one remains, and every other is lost. -/
theorem after_path_ignored_iff {path after : String} {mark : Char} (relative : IsRelativePath path)
    (plain : '\x7b' ∉ after.toList) (isMark : mark = '?' ∨ mark = '#') (defaults : Dict String) :
    Server.locate ⟨path, defaults⟩ = .ok ⟨none, path⟩ ∧
    (Server.locate ⟨path ++ String.singleton mark ++ after, defaults⟩ = .ok ⟨none, path⟩ ↔
      ¬ "://".toList <:+: after.toList ∨ FormsUri path mark after) ∧
    (Server.locate ⟨path ++ String.singleton mark ++ after, defaults⟩ = .ok ⟨none, path⟩ ∨
      ∃ fault, Server.locate ⟨path ++ String.singleton mark ++ after, defaults⟩ =
        .error (.invalidServerUrl (path ++ String.singleton mark ++ after) fault)) := by
  refine ⟨locate_path relative defaults, ?_⟩
  have marked : Uri.endsPath mark = true := Uri.endsPath_iff.2 isMark
  have allPlain : '\x7b' ∉ (path ++ String.singleton mark ++ after).toList := by
    rw [toList_around_mark, List.mem_append, List.mem_cons]
    rintro (inPath | rfl | inAfter)
    · exact relative.plain inPath
    · cases marked
    · exact plain inAfter
  have notNetwork : ¬ "//".toList <+: (path ++ String.singleton mark ++ after).toList := by
    rw [toList_around_mark, network_before_mark marked]
    exact relative.notNetwork
  have scheme : "://".toList <:+: (path ++ String.singleton mark ++ after).toList ↔
      "://".toList <:+: after.toList := by
    rw [toList_around_mark, scheme_around_mark marked, or_iff_right relative.noScheme]
  unfold Server.locate
  rw [Server.render_plain allPlain]
  by_cases ends : "://".toList <:+: after.toList
  · rw [splitUrl_absolute notNetwork (scheme.2 ends), or_iff_right (not_not.2 ends)]
    unfold splitAbsolute
    rw [toList_around_mark]
    rcases parse_around_mark marked relative with ⟨parsed, forms⟩ | ⟨⟨fault, parsed⟩, formless⟩
    · rw [parsed]
      simp [forms]
    · rw [parsed]
      simp [formless]
  · rw [splitUrl_relative notNetwork (mt scheme.1 ends), toList_around_mark,
      takeWhile_before_mark marked relative.endsNowhere, String.ofList_toList]
    exact ⟨iff_of_true rfl (Or.inl ends), Or.inl rfl⟩

theorem isRelativePath_rooted : IsRelativePath "/v1" :=
  ⟨by decide +kernel, by decide +kernel, by decide +kernel, by decide +kernel, by decide +kernel⟩

theorem rooted_ignores_query :
    Server.locate ⟨"/v1?next=http://example.com", .empty⟩ = .ok ⟨none, "/v1"⟩ := by
  have forms : FormsUri "/v1" '?' "next=http://example.com" :=
    ⟨by decide +kernel, by decide +kernel, by decide +kernel, by decide +kernel⟩
  have joined : "/v1" ++ String.singleton '?' ++ "next=http://example.com" =
      "/v1?next=http://example.com" := by decide +kernel
  have plain : '\x7b' ∉ "next=http://example.com".toList := by decide +kernel
  have ignored := after_path_ignored_iff isRelativePath_rooted plain (Or.inl rfl) .empty
  rw [joined] at ignored
  exact ignored.2.1.2 (Or.inr forms)

/-- A path that does not begin at the root is lost when an address stands in the query. -/
theorem rootless_lost_by_query :
    IsRelativePath "v1" ∧ '\x7b' ∉ "callback=https://example.com".toList ∧
    Server.locate ⟨"v1", .empty⟩ = .ok ⟨none, "v1"⟩ ∧
    Server.locate ⟨"v1?callback=https://example.com", .empty⟩ =
      .error (.invalidServerUrl "v1?callback=https://example.com" .format) := by
  refine ⟨⟨?_, ?_, ?_, ?_, ?_⟩, ?_, ?_, ?_⟩ <;> decide +kernel

end ApiManifest.OpenApi
