import ApiManifest.Proofs.ServerUrls

/-!
What the authority of a URI says. The host is what follows the user, up to the port, and the port is
read as a number of sixteen bits, so that digits of a greater number are no port. Behind a scheme
and two slashes an authority goes on up to a slash, a query or a fragment.
-/

namespace ApiManifest

namespace Uri

/-! ### Kinds of characters -/

def isPlain (marks : List Char) (c : Char) : Bool :=
  c.isAlphanum || marks.contains c

theorem isPlain_imp {marks : List Char} {kind : Char → Bool}
    (letters : ∀ c, c.isAlphanum = true → kind c = true)
    (others : marks.all kind = true) {c : Char} (plain : isPlain marks c = true) :
    kind c = true := by
  unfold isPlain at plain
  rw [Bool.or_eq_true, List.contains_iff_mem] at plain
  rcases plain with letter | mark
  · exact letters c letter
  · exact List.all_eq_true.1 others c mark

theorem isPlain_of_letter {marks : List Char} {c : Char} (letter : c.isAlphanum = true) :
    isPlain marks c = true := by
  simp [isPlain, letter]

theorem isPlain_mono {few many : List Char} (more : few.all many.contains = true) {c : Char}
    (plain : isPlain few c = true) : isPlain many c = true := by
  refine isPlain_imp (fun c => isPlain_of_letter) (List.all_eq_true.2 fun c mark => ?_) plain
  have known := List.all_eq_true.1 more c mark
  rw [isPlain, known, Bool.or_true]

theorem not_mem_of_plain {marks : List Char} {text : List Char}
    (plain : ∀ c ∈ text, isPlain marks c = true) {c : Char} (outside : isPlain marks c = false) :
    c ∉ text := by
  intro member
  rw [plain c member] at outside
  cases outside

theorem isAlphanum_cases {c : Char} (letter : c.isAlphanum = true) :
    ('0' ≤ c ∧ c ≤ '9') ∨ ('A' ≤ c ∧ c ≤ 'Z') ∨ 'a' ≤ c ∧ c ≤ 'z' := by
  rcases Bool.or_eq_true_iff.1 letter with alpha | digit
  · rcases Bool.or_eq_true_iff.1 alpha with upper | lower
    · exact .inr (.inl (of_decide_eq_true upper))
    · obtain ⟨low, high⟩ := Bool.and_eq_true_iff.1 lower
      exact .inr (.inr ⟨of_decide_eq_true low, of_decide_eq_true high⟩)
  · obtain ⟨low, high⟩ := Bool.and_eq_true_iff.1 digit
    exact .inl ⟨of_decide_eq_true low, of_decide_eq_true high⟩

theorem isAlphanum_of_isDigit {c : Char} (digit : c.isDigit = true) : c.isAlphanum = true := by
  rw [Char.isAlphanum, digit, Bool.or_true]

theorem isPathChar_of_letter (c : Char) (letter : c.isAlphanum = true) :
    isPathChar c = true := by
  have within : ('$' ≤ c ∧ c ≤ ';') ∨ ('@' ≤ c ∧ c ≤ '_') ∨ 'a' ≤ c ∧ c ≤ '~' := by
    rcases isAlphanum_cases letter with ⟨low, high⟩ | ⟨low, high⟩ | ⟨low, high⟩
    · exact Or.inl ⟨Char.le_trans (by decide) low, Char.le_trans high (by decide)⟩
    · exact Or.inr (Or.inl ⟨Char.le_trans (by decide) low, Char.le_trans high (by decide)⟩)
    · exact Or.inr (Or.inr ⟨low, Char.le_trans high (by decide)⟩)
  simp only [isPathChar, Bool.or_eq_true, Bool.and_eq_true, decide_eq_true_eq]
  tauto

theorem isQueryChar_of_letter (c : Char) (letter : c.isAlphanum = true) :
    isQueryChar c = true := by
  have within : ('$' ≤ c ∧ c ≤ ';') ∨ '?' ≤ c ∧ c ≤ '~' := by
    rcases isAlphanum_cases letter with ⟨low, high⟩ | ⟨low, high⟩ | ⟨low, high⟩
    · exact Or.inl ⟨Char.le_trans (by decide) low, Char.le_trans high (by decide)⟩
    · exact Or.inr ⟨Char.le_trans (by decide) low, Char.le_trans high (by decide)⟩
    · exact Or.inr ⟨Char.le_trans (by decide) low, Char.le_trans high (by decide)⟩
  simp only [isQueryChar, Bool.or_eq_true, Bool.and_eq_true, decide_eq_true_eq]
  tauto

theorem not_endsAuthority_of_letter (c : Char) (letter : c.isAlphanum = true) :
    (!endsAuthority c) = true := by
  have apart : ∀ mark, mark.isAlphanum = false → c ≠ mark := by
    rintro mark noLetter rfl
    rw [letter] at noLetter
    cases noLetter
  simp [endsAuthority, apart '/' (by decide), apart '?' (by decide), apart '#' (by decide)]

theorem isSchemeChar_of_letter {c : Char} (letter : c.isAlpha = true) : isSchemeChar c = true := by
  simp [isSchemeChar, Char.isAlphanum, letter]

/-! ### The user, the host and the port -/

section Authorities

theorem afterLast_append {mark : Char} {text : List Char} (outside : mark ∉ text)
    (front : List Char) : afterLast mark (front ++ text) = afterLast mark front ++ text := by
  unfold afterLast
  rw [List.reverse_append, List.takeWhile_append_of_pos, List.reverse_append, List.reverse_reverse]
  intro c member
  exact decide_eq_true (fun same => outside (same ▸ List.mem_reverse.1 member))

theorem afterLast_of_ends {mark : Char} {front : List Char}
    (ends : front = [] ∨ front.getLast? = some mark) : afterLast mark front = [] := by
  rcases ends with rfl | last
  · rfl
  · obtain ⟨before, rfl⟩ := List.getLast?_eq_some_iff.1 last
    simp [afterLast]

variable {user host digits : List Char}

theorem host_of_user (ends : user = [] ∨ user.getLast? = some '@') (filled : host ≠ [])
    (plain : ∀ c ∈ host, isPlain ['.', '-'] c = true) {after : List Char} (noUser : '@' ∉ after)
    (stops : ∀ c, after.head? = some c → c = ':') :
    Uri.host (user ++ (host ++ after)) = host := by
  have outside : '@' ∉ host ++ after := by
    rw [List.mem_append, not_or]
    exact ⟨not_mem_of_plain plain (by decide), noUser⟩
  unfold Uri.host
  rw [afterLast_append outside, afterLast_of_ends ends, List.nil_append]
  split
  next rest same =>
    obtain ⟨first, others, rfl⟩ := List.exists_cons_of_ne_nil filled
    have bracket : first = '[' := (List.cons.inj same).1
    exact absurd (bracket ▸ plain first List.mem_cons_self) (by decide)
  next =>
    apply takeWhile_run
    · intro c member
      have notColon := not_mem_of_plain (c := ':') plain (by decide)
      exact decide_eq_true (fun same => notColon (same ▸ member))
    · intro c first
      exact decide_eq_false (not_not.2 (stops c first))

theorem portNumber?_digits (filled : digits ≠ []) (decimal : ∀ c ∈ digits, c.isDigit = true) :
    portNumber? digits =
      if Nat.ofDigitChars 10 digits 0 ≤ 0xffff then some (Nat.ofDigitChars 10 digits 0)
      else none := by
  have bare : Text.dropPlus digits = digits := by
    unfold Text.dropPlus
    split
    · exact absurd (decimal '+' List.mem_cons_self) (by decide)
    · rfl
  have number : Text.decimal? digits = some (Nat.ofDigitChars 10 digits 0) := by
    simp [Text.decimal?, filled, List.all_eq_true.2 decimal]
  simp only [portNumber?, bare, number, Option.filter_some, decide_eq_true_eq]

theorem portNumber?_of_user {text : List Char} (inside : '@' ∈ text) : portNumber? text = none := by
  have kept : '@' ∈ Text.dropPlus text := by
    unfold Text.dropPlus
    split
    · simpa using inside
    · exact inside
  have refused : (Text.dropPlus text).all Char.isDigit = false :=
    List.all_eq_false.2 ⟨'@', kept, by decide⟩
  simp [portNumber?, Text.decimal?, refused]

theorem port?_of_digits (decimal : ∀ c ∈ digits, c.isDigit = true) (front : List Char) :
    port? (front ++ ':' :: digits) = portNumber? digits := by
  have outside : ':' ∉ digits := fun member => absurd (decimal ':' member) (by decide)
  have whole : front ++ ':' :: digits = front ++ [':'] ++ digits := by simp
  have ends : afterLast ':' (front ++ [':']) = [] := afterLast_of_ends (by simp)
  unfold port?
  rw [if_pos (by simp), whole, afterLast_append outside, ends, List.nil_append]

/-- A colon in the user announces no port. -/
theorem port?_of_user (ends : user = [] ∨ user.getLast? = some '@') (noColon : ':' ∉ host) :
    port? (user ++ host) = none := by
  unfold port?
  split
  next colon =>
    rw [afterLast_append noColon]
    rcases ends with rfl | last
    · rw [List.nil_append, List.contains_iff_mem] at colon
      exact absurd colon noColon
    · obtain ⟨name, rfl⟩ := List.getLast?_eq_some_iff.1 last
      have atSign : ':' ∉ ['@'] := by decide
      rw [afterLast_append atSign]
      exact portNumber?_of_user (by simp)
  next => rfl

theorem hostText_of_digits (ends : user = [] ∨ user.getLast? = some '@') (filled : host ≠ [])
    (plain : ∀ c ∈ host, isPlain ['.', '-'] c = true) (digitsFilled : digits ≠ [])
    (decimal : ∀ c ∈ digits, c.isDigit = true) :
    OpenApi.hostText (user ++ (host ++ ':' :: digits)) =
      if Nat.ofDigitChars 10 digits 0 ≤ 0xffff then
        String.ofList host ++ ":" ++ toString (Nat.ofDigitChars 10 digits 0)
      else String.ofList host := by
  have noUser : '@' ∉ ':' :: digits := by
    rw [List.mem_cons, not_or]
    exact ⟨by decide, fun member => absurd (decimal '@' member) (by decide)⟩
  have whole : user ++ (host ++ ':' :: digits) = user ++ host ++ ':' :: digits := by simp
  unfold OpenApi.hostText
  rw [host_of_user ends filled plain noUser (fun c first => (Option.some.inj first).symm), whole,
    port?_of_digits decimal, portNumber?_digits digitsFilled decimal]
  by_cases small : Nat.ofDigitChars 10 digits 0 ≤ 0xffff
  · rw [if_pos small, if_pos small]
  · rw [if_neg small, if_neg small]

theorem hostText_of_user (ends : user = [] ∨ user.getLast? = some '@') (filled : host ≠ [])
    (plain : ∀ c ∈ host, isPlain ['.', '-'] c = true) :
    OpenApi.hostText (user ++ host) = String.ofList host := by
  have alone := host_of_user ends filled plain List.not_mem_nil (fun c first => by cases first)
  rw [List.append_nil] at alone
  unfold OpenApi.hostText
  rw [alone, port?_of_user ends (not_mem_of_plain plain (by decide))]

end Authorities

/-! ### Reading a URI with an authority -/

theorem next_plain (seen : Seen) {c : Char} (plain : isPlain ['.', '-'] c = true) :
    seen.next c = .ok { seen with afterAt := false } := by
  have known : isAuthorityChar c = true := by
    refine isPlain_imp (fun c letter => ?_) ?_ plain
    · simp [isAuthorityChar, letter]
    · simp [isAuthorityChar]
  unfold Seen.next
  simp only
  split
  next => exact absurd plain (by decide)
  next => exact absurd plain (by decide)
  next => exact absurd plain (by decide)
  next => exact absurd plain (by decide)
  next => exact absurd plain (by decide)
  next => rw [if_pos known]

theorem foldlM_plain {seen : Seen} (calm : seen.afterAt = false) {text : List Char}
    (plain : ∀ c ∈ text, isPlain ['.', '-'] c = true) : text.foldlM Seen.next seen = .ok seen := by
  induction text with
  | nil => rfl
  | cons c text ih =>
    rw [List.forall_mem_cons] at plain
    have same : { seen with afterAt := false } = seen := by rw [← calm]
    rw [List.foldlM_cons, next_plain seen plain.1, same]
    exact ih plain.2

theorem afterScheme?_of_scheme {scheme : List Char} (letters : ∀ c ∈ scheme, isSchemeChar c = true)
    (filled : scheme ≠ []) (short : scheme.length ≤ schemeLimit) (rest : List Char) :
    afterScheme? (scheme ++ "://".toList ++ rest) = .ok (some rest) := by
  have stops : ∀ c, ("://".toList ++ rest).head? = some c → isSchemeChar c = false := by
    rintro c first
    cases first
    decide
  unfold afterScheme?
  simp only
  rw [List.append_assoc, takeWhile_run letters stops, dropWhile_run letters stops]
  simp [filled, Nat.not_lt.2 short]

theorem parse_of_parts {scheme authority after path : List Char}
    (letters : ∀ c ∈ scheme, isSchemeChar c = true) (filled : scheme ≠ [])
    (short : scheme.length ≤ schemeLimit) (present : authority ≠ [])
    (valid : checkAuthority authority = .ok ())
    (inside : ∀ c ∈ authority, (!endsAuthority c) = true)
    (stops : ∀ c, after.head? = some c → (!endsAuthority c) = false)
    (read : readPath after = .ok path)
    (fits : (String.ofList (scheme ++ "://".toList ++ (authority ++ after))).utf8ByteSize ≤
      byteLimit) :
    parse (scheme ++ "://".toList ++ (authority ++ after)) = .ok ⟨some authority, path⟩ := by
  have flat : '/' ∉ scheme := fun member => absurd (letters '/' member) (by decide)
  have split : splitAuthority (authority ++ after) = .ok (authority, after) := by
    refine splitAuthority_eq_ok_iff.2 ⟨?_, valid, ?_, ?_⟩
    · simp [present]
    · exact (takeWhile_run inside stops).symm
    · exact (dropWhile_run inside stops).symm
  unfold parse
  rw [if_neg (Nat.not_lt.2 fits), if_neg (notRooted_of_scheme flat _),
    afterScheme?_of_scheme letters filled short]
  change (splitAuthority (authority ++ after) >>= _) = _
  have full : authority.isEmpty = false := by simp [present]
  rw [split]
  simp only [bind, Except.bind, full, Bool.false_eq_true, if_false, read]

theorem dropWhile_scheme {scheme : List Char} (flat : '/' ∉ scheme) (rest : List Char) :
    (scheme ++ "://".toList ++ rest).dropWhile (· ≠ '/') = '/' :: '/' :: rest := by
  have outside : '/' ∉ scheme ++ [':'] := by simp [flat]
  have whole : scheme ++ "://".toList ++ rest = (scheme ++ [':']) ++ '/' :: '/' :: rest := by simp
  rw [whole, dropWhile_until outside]

/-- Behind a scheme and two slashes the authority goes on up to its end. -/
theorem authority_of_parse {scheme rest : List Char} (flat : '/' ∉ scheme) {uri : Uri}
    (parsed : parse (scheme ++ "://".toList ++ rest) = .ok uri) :
    uri.authority = some (rest.takeWhile (fun c => !endsAuthority c)) := by
  cases reads_of_parse parsed with
  | rooted root => exact absurd root (notRooted_of_scheme flat rest)
  | schemed _ found split =>
    obtain ⟨other, letters, whole⟩ := text_of_scheme found
    have otherFlat : '/' ∉ other := fun member => absurd (letters '/' member) (by decide)
    have same := dropWhile_scheme flat rest
    rw [whole, dropWhile_scheme otherFlat, List.cons.injEq, List.cons.injEq] at same
    obtain ⟨_, _, rfl, _⟩ := splitAuthority_eq_ok_iff.1 split
    rw [same.2.2]
  | bare _ _ split =>
    obtain ⟨_, _, _, nothing⟩ := splitAuthority_eq_ok_iff.1 split
    have slash : '/' ∈ scheme ++ "://".toList ++ rest := by simp
    exact absurd (List.dropWhile_eq_nil_iff.1 nothing.symm '/' slash) (by decide)

end Uri

end ApiManifest
