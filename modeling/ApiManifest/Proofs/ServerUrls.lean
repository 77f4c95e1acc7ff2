import Mathlib.Data.List.Infix
import ApiManifest.Proofs.Resolution

/-!
How the URL of a server is read once the defaults are in it. Two slashes at its beginning announce an
authority, and any end of a scheme makes it a URI; of every other URL only the path counts, up to a
query or a fragment. A URI that can be read has an authority unless it begins with a slash, and the
path of one with a slash in it begins with a slash too.
-/

namespace ApiManifest

open Resolution (bind_eq_ok)

namespace Uri

theorem endsPath_iff {c : Char} : endsPath c = true ↔ c = '?' ∨ c = '#' := by
  simp [endsPath]

theorem endsAuthority_eq (c : Char) : endsAuthority c = (decide (c = '/') || endsPath c) := by
  simp [endsAuthority, endsPath, Bool.or_assoc]

/-- Whether a text may follow a path in a URI. Of a query each character is looked at, up to its
fragment, of which none is. -/
def mayFollow : List Char → Bool
  | '?' :: query => (query.takeWhile (· ≠ '#')).all isQueryChar
  | _ => true

theorem readPath_eq (text : List Char) :
    readPath text =
      if (text.takeWhile (fun c => !endsPath c)).all isPathChar &&
          mayFollow (text.dropWhile (fun c => !endsPath c)) then
        .ok (if (text.takeWhile (fun c => !endsPath c)).isEmpty then ['/']
          else text.takeWhile (fun c => !endsPath c))
      else .error .character := by
  unfold readPath
  simp only
  cases (text.takeWhile (fun c => !endsPath c)).all isPathChar with
  | false => rfl
  | true =>
    simp only [Bool.not_true, Bool.false_eq_true, if_false, Bool.true_and]
    generalize text.dropWhile (fun c => !endsPath c) = rest
    split
    next query =>
      simp only [mayFollow]
      cases (query.takeWhile (· ≠ '#')).all isQueryChar <;> rfl
    next other =>
      have follows : mayFollow rest = true := by
        unfold mayFollow
        split
        next query => exact (other query rfl).elim
        next => rfl
      rw [follows]
      rfl

theorem splitAuthority_eq_ok_iff {text authority rest : List Char} :
    splitAuthority text = .ok (authority, rest) ↔
      text ≠ [] ∧ checkAuthority authority = .ok () ∧
        authority = text.takeWhile (fun c => !endsAuthority c) ∧
        rest = text.dropWhile (fun c => !endsAuthority c) := by
  unfold splitAuthority
  cases text with
  | nil =>
    constructor
    · intro done
      cases done
    · rintro ⟨filled, _⟩
      exact absurd rfl filled
  | cons first others =>
    constructor
    · intro done
      obtain ⟨_, checked, done⟩ := bind_eq_ok done
      cases done
      exact ⟨List.cons_ne_nil _ _, checked, rfl, rfl⟩
    · rintro ⟨_, checked, rfl, rfl⟩
      simp only [List.isEmpty_cons, Bool.false_eq_true, if_false]
      rw [checked]
      rfl

/-- How a text that is short enough is read: as a path from the root, as an authority with a scheme
before it and a path after it, or as a bare authority. -/
inductive Reads (text : List Char) : Uri → Prop where
  | rooted {path : List Char} (root : text.head? = some '/') (read : readPath text = .ok path) :
      Reads text ⟨none, path⟩
  | schemed {rest authority after path : List Char} (root : text.head? ≠ some '/')
      (scheme : afterScheme? text = .ok (some rest))
      (split : splitAuthority rest = .ok (authority, after)) (filled : authority ≠ [])
      (read : readPath after = .ok path) : Reads text ⟨some authority, path⟩
  | bare {authority : List Char} (root : text.head? ≠ some '/')
      (noScheme : afterScheme? text = .ok none)
      (split : splitAuthority text = .ok (authority, [])) : Reads text ⟨some authority, []⟩

theorem reads_of_parse {text : List Char} {uri : Uri} (parsed : parse text = .ok uri) :
    Reads text uri := by
  unfold parse at parsed
  simp only at parsed
  split at parsed
  next => cases parsed
  split at parsed
  next root =>
    obtain ⟨path, read, parsed⟩ := bind_eq_ok parsed
    cases parsed
    exact .rooted root read
  next root =>
    obtain ⟨scheme?, found, parsed⟩ := bind_eq_ok parsed
    cases scheme? with
    | some rest =>
      obtain ⟨⟨authority, after⟩, split, parsed⟩ := bind_eq_ok parsed
      simp only at parsed
      split at parsed
      next => cases parsed
      next filled =>
        obtain ⟨path, read, parsed⟩ := bind_eq_ok parsed
        cases parsed
        exact .schemed root found split (fun empty => filled (List.isEmpty_iff.2 empty)) read
    | none =>
      obtain ⟨⟨authority, after⟩, split, parsed⟩ := bind_eq_ok parsed
      simp only at parsed
      split at parsed
      next => cases parsed
      next ended =>
        cases parsed
        have nothing : after = [] := by simpa using ended
        exact .bare root found (nothing ▸ split)

theorem parse_of_root {text : List Char} (root : text.head? = some '/') :
    parse text =
      if byteLimit < (String.ofList text).utf8ByteSize then .error .tooLong
      else (readPath text).map (fun path => ⟨none, path⟩) := by
  unfold parse
  simp only [root, if_true]
  split
  next => rfl
  next => cases readPath text <;> rfl

/-- A URI that can be read has an authority unless it begins with a slash. -/
theorem authority_isSome_iff {text : List Char} {uri : Uri} (parsed : parse text = .ok uri) :
    uri.authority.isSome = true ↔ text.head? ≠ some '/' := by
  cases reads_of_parse parsed with
  | rooted root => simp [root]
  | schemed root => simp [root]
  | bare root => simp [root]

theorem endsAuthority_of_head {text : List Char} {c : Char}
    (first : (text.dropWhile (fun c => !endsAuthority c)).head? = some c) :
    endsAuthority c = true := by
  have stops := List.head?_dropWhile_not (fun c => !endsAuthority c) text
  rw [first] at stops
  simpa using stops

theorem rooted_of_readPath {text path : List Char}
    (starts : ∀ c, text.head? = some c → endsAuthority c = true)
    (read : readPath text = .ok path) : path.head? = some '/' := by
  rw [readPath_eq] at read
  split at read
  next =>
    cases read
    cases text with
    | nil => rfl
    | cons c rest =>
      cases ends : endsPath c with
      | true => simp [ends]
      | false =>
        have slash : c = '/' := by
          simpa [endsAuthority_eq, ends] using starts c rfl
        subst slash
        simp [ends]
  next => cases read

theorem rooted_of_parse {text : List Char} {uri : Uri} (parsed : parse text = .ok uri)
    (slash : '/' ∈ text) : uri.path.head? = some '/' := by
  cases reads_of_parse parsed with
  | rooted root read =>
    refine rooted_of_readPath (fun c first => ?_) read
    rw [root] at first
    cases first
    rfl
  | schemed _ _ split _ read =>
    obtain ⟨_, _, _, rfl⟩ := splitAuthority_eq_ok_iff.1 split
    exact rooted_of_readPath (fun c first => endsAuthority_of_head first) read
  | bare _ _ split =>
    obtain ⟨_, _, _, nothing⟩ := splitAuthority_eq_ok_iff.1 split
    have stays := List.dropWhile_eq_nil_iff.1 nothing.symm '/' slash
    exact absurd stays (by decide)

theorem text_of_scheme {text rest : List Char} (found : afterScheme? text = .ok (some rest)) :
    ∃ scheme, (∀ c ∈ scheme, isSchemeChar c = true) ∧ text = scheme ++ "://".toList ++ rest := by
  have whole := @List.takeWhile_append_dropWhile _ isSchemeChar text
  unfold afterScheme? at found
  simp only at found
  split at found
  next after same =>
    rw [same] at whole
    split at found
    next => cases found
    split at found
    next => cases found
    cases found
    refine ⟨text.takeWhile isSchemeChar, fun c member => ?_, ?_⟩
    · exact List.all_eq_true.1 List.all_takeWhile c member
    · rw [List.append_assoc]
      exact whole.symm
  next => cases found

theorem notRooted_of_scheme {scheme : List Char} (flat : '/' ∉ scheme) (rest : List Char) :
    (scheme ++ "://".toList ++ rest).head? ≠ some '/' := by
  intro root
  cases scheme with
  | nil => cases root
  | cons first others =>
    have slash : first = '/' := Option.some.inj root
    exact flat (slash ▸ List.mem_cons_self)

/-- Neither a query nor a fragment begins within a scheme or its end. -/
theorem not_mem_scheme {scheme : List Char} (letters : ∀ c ∈ scheme, isSchemeChar c = true)
    {mark : Char} (marked : endsPath mark = true) : mark ∉ scheme ++ "://".toList := by
  have apart : isSchemeChar mark = false ∧ mark ∉ "://".toList := by
    rcases endsPath_iff.1 marked with rfl | rfl <;> decide
  intro inside
  rcases List.mem_append.1 inside with letter | letter
  · rw [letters mark letter] at apart
    cases apart.1
  · exact apart.2 letter

/-- A text that does not begin with a slash and has no scheme before its query or its fragment is no
URI. -/
theorem parse_of_rootless {front after : List Char} {mark : Char}
    (root : front.head? ≠ some '/') (noScheme : ¬ "://".toList <:+: front)
    (marked : endsPath mark = true) : ∃ fault, parse (front ++ mark :: after) = .error fault := by
  have notSlash : mark ≠ '/' := by
    rintro rfl
    cases marked
  have notRooted : (front ++ mark :: after).head? ≠ some '/' := by
    cases front with
    | nil => simpa using notSlash
    | cons c rest => simpa using root
  cases parsed : parse (front ++ mark :: after) with
  | error fault => exact ⟨fault, rfl⟩
  | ok uri =>
    exfalso
    cases reads_of_parse parsed with
    | rooted rooted => exact notRooted rooted
    | schemed _ found =>
      obtain ⟨scheme, letters, whole⟩ := text_of_scheme found
      rcases List.append_eq_append_iff.1 whole with ⟨between, opened, closed⟩ | ⟨between, opened, _⟩
      · cases between with
        | nil =>
          rw [List.append_nil] at opened
          exact noScheme (opened ▸ (List.suffix_append scheme _).isInfix)
        | cons c others =>
          cases closed
          refine not_mem_scheme letters marked ?_
          rw [opened]
          exact List.mem_append_right _ List.mem_cons_self
      · exact noScheme (opened ▸ List.infix_append scheme _ between)
    | bare _ _ split =>
      obtain ⟨_, _, _, nothing⟩ := splitAuthority_eq_ok_iff.1 split
      have stays := List.dropWhile_eq_nil_iff.1 nothing.symm mark
        (List.mem_append_right _ List.mem_cons_self)
      simp [endsAuthority_eq, marked] at stays

end Uri

namespace OpenApi

open Text (isWordChar)

/-! ### The three kinds of URL -/

theorem hasSchemeEnd_iff (text : List Char) :
    hasSchemeEnd text = true ↔ "://".toList <:+: text := by
  induction text with
  | nil => simp [hasSchemeEnd]
  | cons c rest ih =>
    rw [hasSchemeEnd, Bool.or_eq_true, ih, List.isPrefixOf_iff_prefix, List.infix_cons_iff]

section Kinds

variable {url : String}

theorem splitUrl_network (network : "//".toList <+: url.toList) :
    splitUrl url = splitAbsolute url ("http:".toList ++ url.toList) := by
  unfold splitUrl
  simp only
  rw [if_pos (List.isPrefixOf_iff_prefix.2 network)]

theorem splitUrl_absolute (notNetwork : ¬ "//".toList <+: url.toList)
    (scheme : "://".toList <:+: url.toList) : splitUrl url = splitAbsolute url url.toList := by
  unfold splitUrl
  simp only
  rw [if_neg (mt List.isPrefixOf_iff_prefix.1 notNetwork), if_pos ((hasSchemeEnd_iff _).2 scheme)]

theorem splitUrl_relative (notNetwork : ¬ "//".toList <+: url.toList)
    (noScheme : ¬ "://".toList <:+: url.toList) :
    splitUrl url =
      .ok ⟨none, String.ofList (url.toList.takeWhile (fun c => !Uri.endsPath c))⟩ := by
  unfold splitUrl
  simp only
  rw [if_neg (mt List.isPrefixOf_iff_prefix.1 notNetwork),
    if_neg (mt (hasSchemeEnd_iff _).1 noScheme)]

theorem splitUrl_schemed {scheme rest : List Char} (flat : '/' ∉ scheme)
    (whole : url.toList = scheme ++ "://".toList ++ rest) :
    splitUrl url = splitAbsolute url (scheme ++ "://".toList ++ rest) := by
  have notNetwork : ¬ "//".toList <+: url.toList := by
    rintro ⟨after, same⟩
    apply Uri.notRooted_of_scheme flat rest
    rw [← whole, ← same]
    rfl
  have schemed : "://".toList <:+: url.toList := whole ▸ List.infix_append _ _ _
  rw [splitUrl_absolute notNetwork schemed, whole]

/-- A reference without a scheme is read as if it had one. -/
theorem splitUrl_reference {rest : List Char} (whole : url.toList = "//".toList ++ rest) :
    splitUrl url = splitAbsolute url ("http".toList ++ "://".toList ++ rest) := by
  have network : "//".toList <+: url.toList := whole ▸ List.prefix_append _ _
  rw [splitUrl_network network, whole]
  rfl

end Kinds

theorem splitAbsolute_eq_ok_iff {shown : String} {text : List Char} {url : ServerUrl} :
    splitAbsolute shown text = .ok url ↔ ∃ uri, Uri.parse text = .ok uri ∧
      url = ⟨uri.authority.map hostText, String.ofList uri.path⟩ := by
  unfold splitAbsolute
  cases Uri.parse text with
  | error fault => simp
  | ok uri => simp [eq_comm]

/-! ### Variables -/

theorem placeholder?_eq_some_iff {text name rest : List Char} :
    placeholder? text = some (name, rest) ↔
      name ≠ [] ∧ (∀ c ∈ name, isWordChar c = true) ∧ text = name ++ '\x7d' :: rest := by
  constructor
  · intro found
    have whole := @List.takeWhile_append_dropWhile _ isWordChar text
    unfold placeholder? at found
    simp only at found
    split at found
    next tail same =>
      split at found
      next => cases found
      next filled =>
        cases found
        rw [same] at whole
        exact ⟨fun empty => filled (List.isEmpty_iff.2 empty),
          fun c member => List.mem_takeWhile_imp member, whole.symm⟩
    next => cases found
  · rintro ⟨filled, word, rfl⟩
    have stops : isWordChar '\x7d' = false := by decide
    unfold placeholder?
    rw [List.takeWhile_append_of_pos word, List.dropWhile_append_of_pos word]
    simp [stops, filled]

theorem substitute_plain {value : String → String} {text : List Char} (plain : '\x7b' ∉ text) :
    substitute value text = text := by
  induction text with
  | nil => rw [substitute]
  | cons c rest ih =>
    rw [List.mem_cons, not_or] at plain
    rw [substitute, if_neg (Ne.symm plain.1), ih plain.2]

namespace Server

def valueOf (server : Server) (name : String) : String :=
  (server.defaults.get? name).getD ""

theorem toList_render (server : Server) :
    server.render.toList = substitute server.valueOf server.url.toList := by
  unfold render
  rw [String.toList_ofList]
  rfl

end Server

end OpenApi

end ApiManifest
