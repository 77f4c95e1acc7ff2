import ApiManifest.Proofs.Yaml.ScalarTokens

/-!
What a scan does inside flow collections. Keys found there open no block collection and no
candidate has to be a key, so a place is the text that remains, how many collections are open, and
whether a key may begin where that is known.
-/

namespace ApiManifest.Yaml

open Scan (startsToken)

structure FlowPlace where
  rest : List Char
  depth : Nat
  keyAllowed : Option Bool
  output : List Token

namespace Scan

structure StandsIn (scan : Scan) (place : FlowPlace) : Prop where
  rest : scan.cursor.rest = place.rest
  indents : scan.indents = []
  depth : scan.candidates.length = place.depth + 1
  optional : ∀ candidate, some candidate ∈ scan.candidates → candidate.required = false
  keyAllowed : ∀ known ∈ place.keyAllowed, scan.keyAllowed = known
  wrote : Wrote scan.count scan.tokens scan.keys place.output

end Scan

/-- From every scan that stands at the first place the run comes to one at the second. -/
def LeadsIn (first second : FlowPlace) : Prop :=
  ∀ scan : Scan, scan.StandsIn first → ∃ after, scan.Reaches after ∧ after.StandsIn second

theorem LeadsIn.refl (place : FlowPlace) : LeadsIn place place :=
  fun scan stands => ⟨scan, .refl scan, stands⟩

theorem LeadsIn.trans {first second third : FlowPlace} (before : LeadsIn first second)
    (after : LeadsIn second third) : LeadsIn first third :=
  Scan.reaches_trans before after

namespace Scan

variable {scan : Scan} {place : FlowPlace}

theorem StandsIn.inFlow (stands : scan.StandsIn place) : scan.inFlow = decide (0 < place.depth) := by
  simp [Scan.inFlow, stands.depth]

theorem StandsIn.candidates (stands : scan.StandsIn place) :
    ∃ candidate others, scan.candidates = candidate :: others ∧ others.length = place.depth := by
  cases h : scan.candidates with
  | nil =>
    have depth := stands.depth
    simp [h] at depth
  | cons candidate others => exact ⟨candidate, others, rfl, by simpa [h] using stands.depth⟩

/-- What is known of keys may be forgotten. -/
theorem StandsIn.forget {rest : List Char} {depth : Nat} {keyAllowed : Option Bool}
    {output : List Token} (stands : scan.StandsIn ⟨rest, depth, keyAllowed, output⟩) :
    scan.StandsIn ⟨rest, depth, none, output⟩ :=
  { stands with keyAllowed := by simp }

def fresh (scan : Scan) : Scan :=
  { scan with
    candidates := scan.candidates.map (·.filter (fun candidate => !isStale scan.cursor candidate)) }

theorem dropStaleFrom_eq (cursor : Cursor) {candidates : List (Option KeyCandidate)}
    (optional : ∀ candidate, some candidate ∈ candidates → candidate.required = false) :
    dropStaleFrom cursor candidates
      = some (candidates.map (·.filter (fun candidate => !isStale cursor candidate))) := by
  induction candidates with
  | nil => rfl
  | cons first others ih =>
    have later := ih fun candidate member => optional candidate (by simp [member])
    cases first with
    | none => simp [dropStaleFrom, later]
    | some candidate =>
      have free := optional candidate (by simp)
      by_cases stale : isStale cursor candidate
      · simp [dropStaleFrom, later, stale, free, Option.filter]
      · simp [dropStaleFrom, later, stale, Option.filter]

theorem StandsIn.dropStale (stands : scan.StandsIn place) : scan.dropStale = some scan.fresh := by
  rw [Scan.dropStale, dropStaleFrom_eq scan.cursor stands.optional]
  rfl

theorem StandsIn.fresh (stands : scan.StandsIn place) : scan.fresh.StandsIn place :=
  { stands with
    depth := by simpa [Scan.fresh] using stands.depth
    optional := by
      intro candidate member
      simp only [Scan.fresh, List.mem_map, Option.filter_eq_some_iff] at member
      obtain ⟨_, inside, rfl, -⟩ := member
      exact stands.optional candidate inside }

theorem reaches_token {fresh after : Scan} {c : Char} {rest : List Char}
    (here : scan.cursor.rest = c :: rest) (starts : startsToken c) (indents : scan.indents = [])
    (stale : scan.dropStale = some fresh)
    (read : ∀ fuel, scan.cursor.rest.length < fuel → fresh.token c rest fuel = some after)
    (shorter : after.cursor.rest.length < scan.cursor.rest.length) : Reaches scan after := by
  intro fuel enough
  obtain ⟨fuel, rfl⟩ : ∃ n, fuel = n + 1 := ⟨fuel - 1, by omega⟩
  have blanks := @toToken_start scan (by simpa [here] using starts) fuel
  obtain ⟨candidates, -, rfl⟩ := Option.map_eq_some_iff.1 stale
  have inside : ({ scan with candidates := candidates } : Scan).unroll
      (some scan.cursor.column) = { scan with candidates := candidates } := by
    apply unroll_fits
    simp [indents]
  refine ⟨fuel, by omega, ?_⟩
  rw [run]
  simp only [blanks, stale, Option.bind_eq_bind, Option.bind_some, inside, here]
  rw [read _ (by omega), Option.bind_some]

end Scan

/-- What one token does, seen from every scan that stands there. -/
theorem leadsIn_of_token {first second : FlowPlace} {c : Char} {rest : List Char}
    (here : first.rest = c :: rest) (starts : startsToken c)
    (token : ∀ scan : Scan, scan.StandsIn first → ∃ after : Scan,
      (∀ fuel, scan.cursor.rest.length < fuel → scan.token c rest fuel = some after) ∧
      after.cursor.rest.length < scan.cursor.rest.length ∧
      ∃ last, after.Reaches last ∧ last.StandsIn second) : LeadsIn first second := by
  intro scan stands
  obtain ⟨after, read, shorter, last, reached, ends⟩ := token scan.fresh stands.fresh
  have one := Scan.reaches_token (stands.rest.trans here) starts stands.indents stands.dropStale
    read shorter
  exact ⟨last, one.trans reached, ends⟩

section

variable {rest : List Char} {depth : Nat} {keyAllowed : Option Bool} {output : List Token}

theorem leadsIn_forget :
    LeadsIn ⟨rest, depth, keyAllowed, output⟩ ⟨rest, depth, none, output⟩ :=
  fun scan stands => ⟨scan, .refl scan, stands.forget⟩

/-- A blank is passed over; a tab only inside a collection or where no key may begin. -/
theorem leadsIn_blank {c : Char}
    (blank : c = ' ' ∨ (c = '\t' ∧ (0 < depth ∨ keyAllowed = some false))) :
    LeadsIn ⟨c :: rest, depth, keyAllowed, output⟩ ⟨rest, depth, keyAllowed, output⟩ := by
  intro scan stands
  have passed : c = ' ' ∨ (c = '\t' ∧ (scan.inFlow || !scan.keyAllowed)) := by
    rcases blank with space | ⟨tab, inside | known⟩
    · exact .inl space
    · exact .inr ⟨tab, by simp [stands.inFlow, inside]⟩
    · exact .inr ⟨tab, by simp [stands.keyAllowed false known]⟩
  refine ⟨_, Scan.reaches_blank stands.rest passed, ?_⟩
  exact { stands with rest := by simp [Scan.moveTo, Cursor.skip, stands.rest] }

theorem leadsIn_break :
    LeadsIn ⟨'\n' :: rest, depth + 1, keyAllowed, output⟩ ⟨rest, depth + 1, keyAllowed, output⟩ := by
  intro scan stands
  refine ⟨_, Scan.reaches_newline stands.rest, ?_⟩
  exact { stands with
    rest := by simp [Cursor.skipBreak, stands.rest]
    keyAllowed := by
      intro known found
      simp [stands.inFlow, stands.keyAllowed known found] }

/-- A break outside all collections: a key may begin after it. -/
theorem leadsIn_line :
    LeadsIn ⟨'\n' :: rest, 0, keyAllowed, output⟩ ⟨rest, 0, some true, output⟩ := by
  intro scan stands
  refine ⟨_, Scan.reaches_newline stands.rest, ?_⟩
  exact { stands with
    rest := by simp [Cursor.skipBreak, stands.rest]
    keyAllowed := by simp [stands.inFlow] }

theorem leadsIn_white {white : List Char} (kind : ∀ c ∈ white, c = ' ' ∨ c = '\t' ∨ c = '\n') :
    LeadsIn ⟨white ++ rest, depth + 1, keyAllowed, output⟩
      ⟨rest, depth + 1, keyAllowed, output⟩ := by
  induction white with
  | nil => exact .refl _
  | cons c white ih =>
    have later := ih fun d member => kind d (by simp [member])
    rcases kind c (by simp) with space | tab | rfl
    · exact (leadsIn_blank (.inl space)).trans later
    · exact (leadsIn_blank (.inr ⟨tab, .inl (Nat.succ_pos _)⟩)).trans later
    · exact leadsIn_break.trans later

end

namespace Scan

variable {scan : Scan} {place : FlowPlace}

theorem StandsIn.dropCandidate (stands : scan.StandsIn place) :
    ∃ dropped, scan.dropCandidate = some dropped ∧ dropped.StandsIn place ∧
      dropped.cursor = scan.cursor := by
  obtain ⟨candidate, others, found, -⟩ := stands.candidates
  cases candidate with
  | none => exact ⟨scan, by simp [Scan.dropCandidate, found], stands, rfl⟩
  | some candidate =>
    have free := stands.optional candidate (by simp [found])
    refine ⟨{ scan with candidates := none :: others },
      by simp [Scan.dropCandidate, found, free], ?_, rfl⟩
    exact { stands with
      depth := by simpa [found] using stands.depth
      optional := by
        intro other member
        exact stands.optional other (by simpa [found] using .inr (by simpa using member)) }

def candidateHere (scan : Scan) : KeyCandidate :=
  ⟨scan.count, false, scan.cursor.index, scan.cursor.line, scan.cursor.column⟩

/-- The scan once it has remembered that a key may begin here, if one may. -/
def saved (scan : Scan) : Scan :=
  if scan.keyAllowed then
    { scan with candidates := some scan.candidateHere :: scan.candidates.drop 1 }
  else scan

theorem StandsIn.saveCandidate (stands : scan.StandsIn place) :
    scan.saveCandidate = some scan.saved := by
  obtain ⟨candidate, others, found, -⟩ := stands.candidates
  by_cases allowed : scan.keyAllowed
  · cases candidate with
    | none =>
      simp [Scan.saveCandidate, saved, candidateHere, allowed, Scan.dropCandidate, found,
        stands.indents]
    | some candidate =>
      have free := stands.optional candidate (by simp [found])
      simp [Scan.saveCandidate, saved, candidateHere, allowed, Scan.dropCandidate, found, free,
        stands.indents]
  · simp [Scan.saveCandidate, saved, allowed]

theorem StandsIn.saved (stands : scan.StandsIn place) : scan.saved.StandsIn place := by
  obtain ⟨candidate, others, found, -⟩ := stands.candidates
  by_cases allowed : scan.keyAllowed
  · rw [Scan.saved, if_pos allowed]
    exact { stands with
      depth := by simpa [found] using stands.depth
      optional := by
        intro other member
        rcases List.mem_cons.1 member with same | inside
        · cases same
          rfl
        · exact stands.optional other (List.mem_of_mem_drop inside) }
  · rwa [Scan.saved, if_neg allowed]

@[simp]
theorem saved_cursor (scan : Scan) : scan.saved.cursor = scan.cursor := by
  unfold saved
  split <;> rfl

theorem StandsIn.single {c : Char} {rest : List Char} {depth inner : Nat}
    {keyAllowed : Option Bool} {output : List Token}
    (stands : scan.StandsIn ⟨c :: rest, depth, keyAllowed, output⟩) (token : Token)
    {candidates : List (Option KeyCandidate)} (allowed : Bool)
    (length : candidates.length = inner + 1)
    (optional : ∀ candidate, some candidate ∈ candidates → candidate.required = false) :
    ({ scan.single token with candidates := candidates, keyAllowed := allowed } : Scan).StandsIn
      ⟨rest, inner, some allowed, output ++ [token]⟩ where
  rest := by simp [Scan.single, Scan.moveTo, Cursor.skip, stands.rest]
  indents := stands.indents
  depth := length
  optional := optional
  keyAllowed := by simp
  wrote := stands.wrote.push token

end Scan

section

variable {rest : List Char} {depth : Nat} {keyAllowed : Option Bool} {output : List Token}

theorem noMark_of_head {cursor : Cursor} {c : Char} (here : cursor.rest = c :: rest)
    (dash : c ≠ '-') (dot : c ≠ '.') : cursor.atDocumentMark = false := by
  simp [Cursor.atDocumentMark, here, dash, dot]

theorem leadsIn_start {c : Char} {token : Token}
    (mark : (c = '[' ∧ token = .flowSequenceStart) ∨ (c = '\x7b' ∧ token = .flowMappingStart)) :
    LeadsIn ⟨c :: rest, depth, keyAllowed, output⟩
      ⟨rest, depth + 1, some true, output ++ [token]⟩ := by
  apply leadsIn_of_token rfl (by rcases mark with ⟨rfl, -⟩ | ⟨rfl, -⟩ <;> decide)
  intro scan stands
  have noMark : scan.cursor.atDocumentMark = false := by
    apply noMark_of_head stands.rest <;> rcases mark with ⟨rfl, -⟩ | ⟨rfl, -⟩ <;> decide
  refine ⟨{ scan.saved.single token with
    candidates := none :: scan.saved.candidates, keyAllowed := true }, ?_, ?_, _, .refl _, ?_⟩
  · intro fuel enough
    rcases mark with ⟨rfl, rfl⟩ | ⟨rfl, rfl⟩
    · simp [Scan.token, noMark, Scan.flowStart, stands.saveCandidate, Scan.single, Scan.push,
        Scan.moveTo]
    · simp [Scan.token, noMark, Scan.flowStart, stands.saveCandidate, Scan.single, Scan.push,
        Scan.moveTo]
  · simpa using shorter_single stands.saved.rest token
  · apply stands.saved.single token true
    · simpa using stands.saved.depth
    · intro candidate member
      exact stands.saved.optional candidate (by simpa using member)

theorem leadsIn_end {c : Char} {token : Token}
    (mark : (c = ']' ∧ token = .flowSequenceEnd) ∨ (c = '\x7d' ∧ token = .flowMappingEnd)) :
    LeadsIn ⟨c :: rest, depth + 1, keyAllowed, output⟩
      ⟨rest, depth, some false, output ++ [token]⟩ := by
  apply leadsIn_of_token rfl (by rcases mark with ⟨rfl, -⟩ | ⟨rfl, -⟩ <;> decide)
  intro scan stands
  have noMark : scan.cursor.atDocumentMark = false := by
    apply noMark_of_head stands.rest <;> rcases mark with ⟨rfl, -⟩ | ⟨rfl, -⟩ <;> decide
  obtain ⟨dropped, drop, stands_, cursor⟩ := stands.dropCandidate
  have inside : dropped.inFlow := by simp [stands_.inFlow]
  refine ⟨{ dropped.single token with
    candidates := dropped.candidates.drop 1, keyAllowed := false }, ?_, ?_, _, .refl _, ?_⟩
  · intro fuel enough
    rcases mark with ⟨rfl, rfl⟩ | ⟨rfl, rfl⟩
    · simp [Scan.token, noMark, Scan.flowEnd, drop, inside]
    · simp [Scan.token, noMark, Scan.flowEnd, drop, inside]
  · simpa [cursor] using shorter_single stands_.rest token
  · apply stands_.single token false
    · simpa using congrArg Nat.pred stands_.depth
    · intro candidate member
      exact stands_.optional candidate (List.mem_of_mem_drop member)

theorem leadsIn_comma :
    LeadsIn ⟨',' :: rest, depth, keyAllowed, output⟩
      ⟨rest, depth, some true, output ++ [.flowEntry]⟩ := by
  apply leadsIn_of_token rfl (by decide)
  intro scan stands
  have noMark := noMark_of_head stands.rest (by decide) (by decide)
  obtain ⟨dropped, drop, stands_, cursor⟩ := stands.dropCandidate
  refine ⟨{ dropped.single .flowEntry with keyAllowed := true }, ?_, ?_, _, .refl _,
    stands_.single .flowEntry true stands_.depth stands_.optional⟩
  · intro fuel enough
    simp [Scan.token, noMark, Scan.flowEntry, drop]
  · simpa [cursor] using shorter_single stands_.rest .flowEntry

theorem token_doubleQuoted {scan : Scan} {place : FlowPlace} {text written : List Char} {fuel : Nat}
    (quoted : Scalar.Quoted false text written) (stands : scan.StandsIn place)
    (here : place.rest = '"' :: (written ++ rest)) (enough : scan.cursor.rest.length < fuel) :
    scan.token '"' (written ++ rest) fuel = some
      { (scan.saved.push (.scalar .doubleQuoted text)).moveTo (scan.cursor.past ('"' :: written))
        with keyAllowed := false } := by
  have found := stands.rest.trans here
  have noMark := noMark_of_head found (by decide) (by decide)
  have read := Scalar.quoted_eq quoted found (by simp)
      (show written.length ≤ fuel by simp [found] at enough; omega)
  simp only [Scan.token, noMark]
  simp [Scan.quotedScalar, stands.saveCandidate, read, Scalar.quote]

theorem leadsIn_quoted {text written : List Char} (quoted : Scalar.Quoted false text written) :
    LeadsIn ⟨'"' :: (written ++ rest), depth, keyAllowed, output⟩
      ⟨rest, depth, some false, output ++ [.scalar .doubleQuoted text]⟩ := by
  apply leadsIn_of_token rfl (by decide)
  intro scan stands
  have here : scan.cursor.rest = '"' :: written ++ rest := stands.rest
  refine ⟨_, fun fuel enough => token_doubleQuoted quoted stands rfl enough, ?_, _, .refl _, ?_⟩
  · exact Cursor.past_shorter here (List.cons_ne_nil _ _)
  · have saved := stands.saved
    exact ⟨Cursor.past_rest here, saved.indents, saved.depth, saved.optional, by simp, saved.wrote.push _⟩

namespace Scan

/-- A scan just after a text that is a key if a colon comes: the candidate for it is the innermost,
and the output says that it is one. -/
structure IsNamed (scan : Scan) (candidate : KeyCandidate) (rest : List Char) (depth : Nat)
    (output : List Token) : Prop where
  rest : scan.cursor.rest = rest
  indents : scan.indents = []
  innermost : ∃ others, scan.candidates = some candidate :: others ∧ others.length = depth
  optional : ∀ candidate, some candidate ∈ scan.candidates → candidate.required = false
  last : addKey ⟨candidate.position, false⟩ scan.keys = ⟨candidate.position, false⟩ :: scan.keys
  wrote : Wrote scan.count scan.tokens (⟨candidate.position, false⟩ :: scan.keys) output

variable {scan : Scan} {candidate : KeyCandidate}

theorem IsNamed.inFlow (named : scan.IsNamed candidate rest (depth + 1) output) : scan.inFlow := by
  obtain ⟨others, found, length⟩ := named.innermost
  simp [Scan.inFlow, found, length]

theorem IsNamed.of_stands {token : Token} {cursor : Cursor}
    (stands : scan.StandsIn ⟨rest, depth, some true, output⟩) :
    ({ (scan.saved.push token).moveTo cursor with keyAllowed := false } : Scan).IsNamed
      scan.candidateHere cursor.rest depth (output ++ [.key, token]) := by
  have allowed : scan.keyAllowed := stands.keyAllowed true rfl
  obtain ⟨first, others, found, length⟩ := stands.candidates
  constructor
  · rfl
  · exact stands.saved.indents
  · exact ⟨others, by simp [Scan.saved, allowed, found, Scan.push, Scan.moveTo], length⟩
  · exact stands.saved.optional
  · have keys : scan.saved.keys = scan.keys := by simp [Scan.saved, allowed]
    change addKey ⟨scan.count, false⟩ scan.saved.keys = ⟨scan.count, false⟩ :: scan.saved.keys
    rw [keys]
    exact stands.wrote.addKey_eq false
  · have wrote := stands.wrote.pushKey token false
    simpa [Scan.saved, allowed, Scan.push, Scan.moveTo, candidateHere, FoundKey.marks] using wrote

theorem IsNamed.reaches_blanks {white : List Char} (kind : ∀ c ∈ white, c = ' ' ∨ c = '\t')
    (named : scan.IsNamed candidate (white ++ rest) (depth + 1) output) :
    ∃ after, scan.Reaches after ∧ after.cursor = scan.cursor.skip white.length ∧
      after.IsNamed candidate rest (depth + 1) output := by
  induction white generalizing scan with
  | nil => exact ⟨scan, .refl scan, rfl, named⟩
  | cons c white ih =>
    have one := reaches_blank named.rest
      ((kind c (by simp)).imp id (fun tab => ⟨tab, by simp [named.inFlow]⟩))
    have next : (scan.moveTo (scan.cursor.skip 1)).IsNamed candidate (white ++ rest) (depth + 1)
        output :=
      { named with rest := by simp [Scan.moveTo, Cursor.skip, named.rest] }
    obtain ⟨after, reached, cursor, ends⟩ := ih (fun d member => kind d (by simp [member])) next
    refine ⟨after, one.trans reached, ?_, ends⟩
    rw [cursor, List.length_cons, Nat.add_comm, ← Cursor.skip_skip]
    rfl

/-- A colon on the same line, and not too far from where the text began, makes it a key. -/
theorem IsNamed.reaches_colon (named : scan.IsNamed candidate (':' :: rest) (depth + 1) output)
    (current : isStale scan.cursor candidate = false) :
    ∃ after, scan.Reaches after ∧
      after.StandsIn ⟨rest, depth + 1, some false, output ++ [.value]⟩ := by
  obtain ⟨others, found, length⟩ := named.innermost
  have noMark := noMark_of_head named.rest (by decide) (by decide)
  have stale : scan.dropStale = some scan.fresh := by
    rw [Scan.dropStale, dropStaleFrom_eq scan.cursor named.optional]
    rfl
  have kept : scan.fresh.candidates = some candidate ::
      others.map (·.filter (fun candidate => !isStale scan.cursor candidate)) := by
    simp [Scan.fresh, found, Option.filter, current]
  have inside : scan.fresh.inFlow := by simp [Scan.inFlow, kept, length]
  have read (fuel : Nat) : scan.fresh.token ':' rest fuel = some { scan.fresh.single .value with
      keys := ⟨candidate.position, false⟩ :: scan.keys
      candidates := none :: others.map (·.filter (fun candidate => !isStale scan.cursor candidate))
      keyAllowed := false } := by
    have noMark : scan.fresh.cursor.atDocumentMark = false := noMark
    have last : addKey ⟨candidate.position, false⟩ scan.fresh.keys
        = ⟨candidate.position, false⟩ :: scan.keys := named.last
    simp [Scan.token, noMark, inside, Scan.valueMark, kept, Scan.opensAt, last, Scan.single,
      Scan.push, Scan.moveTo]
  refine ⟨_, reaches_token named.rest (by decide) named.indents stale (fun fuel _ => read fuel)
    (shorter_single named.rest .value), ?_⟩
  constructor
  · simp [Scan.single, Scan.moveTo, Scan.push, Scan.fresh, Cursor.skip, named.rest]
  · exact named.indents
  · simp [length]
  · intro other member
    simp only [List.mem_cons, reduceCtorEq, List.mem_map, Option.filter_eq_some_iff,
      false_or] at member
    obtain ⟨_, inside, rfl, -⟩ := member
    exact named.optional other (by simp [found, inside])
  · simp
  · exact named.wrote.push .value

end Scan

/-- A key in quotes with the blanks and the colon after it, all on one line and short enough. -/
theorem leadsIn_key {text written white : List Char} (quoted : Scalar.Quoted false text written)
    (line : ∀ c ∈ written, isBreak c = false) (kind : ∀ c ∈ white, c = ' ' ∨ c = '\t')
    (short : 1 + written.length + white.length ≤ 1024) :
    LeadsIn ⟨'"' :: (written ++ (white ++ ':' :: rest)), depth + 1, some true, output⟩
      ⟨rest, depth + 1, some false, output ++ [.key, .scalar .doubleQuoted text, .value]⟩ := by
  apply leadsIn_of_token rfl (by decide)
  intro scan stands
  have skips : scan.cursor.past ('"' :: written) = scan.cursor.skip (1 + written.length) := by
    rw [Cursor.past_of_line (by simpa [isBreak] using line), List.length_cons, Nat.add_comm]
  have here : scan.cursor.rest = '"' :: written ++ (white ++ ':' :: rest) := stands.rest
  have named := @Scan.IsNamed.of_stands _ _ _ scan (.scalar .doubleQuoted text)
      (scan.cursor.past ('"' :: written)) stands
  rw [Cursor.past_rest here] at named
  obtain ⟨marked, passed, cursor, atColon⟩ := named.reaches_blanks kind
  have current : Scan.isStale marked.cursor scan.candidateHere = false := by
    rw [cursor]
    simp only [Scan.moveTo, skips, Cursor.skip_skip]
    simp [Scan.isStale, Scan.candidateHere, Cursor.skip]
    omega
  obtain ⟨last, reached, ends⟩ := atColon.reaches_colon current
  refine ⟨_, fun fuel enough => token_doubleQuoted quoted stands rfl enough,
    Cursor.past_shorter here (List.cons_ne_nil _ _), last, passed.trans reached,
    by simpa using ends⟩

end

namespace Scalar

def isBare (c : Char) : Bool :=
  c.isAlphanum || c = '+' || c = '-' || c = '.'

def closes (c : Char) : Bool :=
  c = ',' || c = ']' || c = '\x7d'

theorem isBare_cases {c : Char} (bare : isBare c) :
    isBlank c = false ∧ isBreak c = false ∧ isFlowIndicator c = false ∧ c ≠ ':' ∧ c ≠ '#' := by
  have other {d : Char} (not : isBare d = false) : c ≠ d := by
    rintro rfl
    rw [bare] at not
    cases not
  refine ⟨?_, ?_, ?_, other (by decide), other (by decide)⟩
  · simp [isBlank, other (show isBare ' ' = false by decide),
      other (show isBare '\t' = false by decide)]
  · simp [isBreak, other (show isBare '\n' = false by decide),
      other (show isBare '\u2028' = false by decide), other (show isBare '\u2029' = false by decide)]
  · simp [isFlowIndicator, other (show isBare ',' = false by decide),
      other (show isBare '[' = false by decide), other (show isBare ']' = false by decide),
      other (show isBare '\x7b' = false by decide), other (show isBare '\x7d' = false by decide)]

theorem closes_cases {c : Char} (closing : closes c) :
    isBlank c = false ∧ isBreak c = false ∧ isFlowIndicator c ∧ c ≠ ':' ∧ c ≠ '#' ∧ c ≠ '-' ∧
      c ≠ '.' := by
  simp only [closes, Bool.or_eq_true, decide_eq_true_eq] at closing
  rcases closing with (rfl | rfl) | rfl <;> decide

theorem plainRun_stop {c : Char} {rest : List Char}
    (stop : isBlank c ∨ isBreak c ∨ closes c) : plainRun true (c :: rest) = some [] := by
  rcases stop with blank | breaks | closing
  · simp [plainRun, blank]
  · simp [plainRun, breaks]
  · obtain ⟨noBlank, noBreak, indicator, colon, -⟩ := closes_cases closing
    simp [plainRun, noBlank, noBreak, indicator, colon]

theorem plainRun_bare {word : List Char} (bare : ∀ c ∈ word, isBare c) {tail : List Char}
    (stops : plainRun true tail = some []) : plainRun true (word ++ tail) = some word := by
  induction word with
  | nil => exact stops
  | cons c word ih =>
    have later := ih fun d member => bare d (by simp [member])
    obtain ⟨noBlank, noBreak, noIndicator, colon, -⟩ := isBare_cases (bare c (by simp))
    simp [plainRun, noBlank, noBreak, noIndicator, colon, later]

/-- Nothing more belongs to a plain scalar at the end of a value. -/
theorem plainPieces_closed {gap : Gap} {cursor : Cursor} {c : Char} {rest : List Char}
    (closing : closes c) (here : cursor.rest = c :: rest) (fuel : Nat) :
    plainPieces true 0 gap cursor (fuel + 1) = some ⟨[], cursor, gap.broken⟩ := by
  obtain ⟨noBlank, noBreak, -, -, comment, dash, dot⟩ := closes_cases closing
  have noMark := noMark_of_head here dash dot
  have run := @plainRun_stop c rest (.inr (.inr closing))
  rw [plainPieces]
  simp [noMark, here, comment, run, noBlank, noBreak]

theorem plain_bare {cursor : Cursor} {word white rest : List Char} {c : Char} {fuel : Nat}
    (bare : ∀ d ∈ word, isBare d) (nonempty : word ≠ [])
    (noMark : cursor.atDocumentMark = false)
    (kind : ∀ d ∈ white, isBlank d ∨ isBreak d) (closing : closes c)
    (here : cursor.rest = word ++ (white ++ c :: rest)) (enough : cursor.rest.length < fuel) :
    plain true 0 cursor fuel
      = some ⟨word, cursor.past (word ++ white), (white.foldl Gap.take {}).broken⟩ := by
  obtain ⟨fuel, rfl⟩ : ∃ n, fuel = n + 2 := ⟨fuel - 2, by simp [here] at enough; omega⟩
  obtain ⟨noBlank, noBreak, -⟩ := closes_cases closing
  have noComment : cursor.rest.head? ≠ some '#' := by
    obtain ⟨first, more, rfl⟩ := List.exists_cons_of_ne_nil nonempty
    obtain ⟨-, -, -, -, other⟩ := isBare_cases (bare first (by simp))
    simpa [here] using other
  have stops : plainRun true (white ++ c :: rest) = some [] := by
    cases white with
    | nil => exact plainRun_stop (.inr (.inr closing))
    | cons d white => exact plainRun_stop ((kind d (by simp)).imp id .inl)
  have run : plainRun true cursor.rest = some word := here ▸ plainRun_bare bare stops
  have line : ∀ d ∈ word, isBreak d = false := fun d member => (isBare_cases (bare d member)).2.1
  have after : (cursor.skip word.length).rest = white ++ c :: rest := by simp [Cursor.skip, here]
  have skips : cursor.past word = cursor.skip word.length := Cursor.past_of_line line
  unfold plain
  rw [plainPieces]
  cases white with
  | nil => simp [noMark, noComment, run, nonempty, after, noBlank, noBreak, skips, Gap.fold]
  | cons d white =>
    have white_ : isBlank d ∨ isBreak d := kind d (by simp)
    have read := @Gap.read_white {} _ (some 0) _ _ (fuel + 2) after kind (by simp)
      (by simpa using ⟨noBlank, noBreak⟩) (by simp [here] at enough ⊢; omega)
    have ends := @plainPieces_closed ((d :: white).foldl Gap.take {}) _ _ _ closing
      (Cursor.past_rest after) fuel
    rw [Cursor.past_cons] at ends
    simp only [List.foldl_cons] at read ends ⊢
    simp [noMark, noComment, run, nonempty, after, white_, read, ends, Cursor.past_append, skips,
      Gap.fold]

end Scalar

/-- What a word without quotes begins with: no mark, or a minus sign and a further character. -/
def startsBare : List Char → Bool
  | [] => false
  | c :: rest => c ≠ '.' && (c ≠ '-' || rest.head?.any (fun d => d ≠ '-'))

section

variable {rest : List Char} {depth : Nat} {keyAllowed : Option Bool} {output : List Token}

theorem noMark_of_startsBare {cursor : Cursor} {word tail : List Char} (starts : startsBare word)
    (here : cursor.rest = word ++ tail) : cursor.atDocumentMark = false := by
  match word with
  | [] => cases starts
  | [c] =>
    have marks : c ≠ '.' ∧ c ≠ '-' := by simpa [startsBare] using starts
    exact noMark_of_head here marks.2 marks.1
  | c :: d :: word =>
    simp only [startsBare, List.head?_cons, Option.any_some, Bool.and_eq_true, Bool.or_eq_true,
      decide_eq_true_eq] at starts
    rcases starts.2 with noDash | second
    · exact noMark_of_head here noDash starts.1
    · simp [Cursor.atDocumentMark, here, starts.1, second]

theorem token_bare {scan : Scan} {c : Char} {word tail : List Char} (bare : Scalar.isBare c)
    (next : ∀ d ∈ word, Scalar.isBare d) (starts : startsBare (c :: word)) (inside : scan.inFlow)
    (here : scan.cursor.rest = c :: (word ++ tail)) (fuel : Nat) :
    scan.token c (word ++ tail) fuel = scan.plainScalar fuel := by
  have noMark := @noMark_of_startsBare _ (c :: word) tail starts here
  have other {d : Char} (not : Scalar.isBare d = false) : c ≠ d := by
    rintro rfl
    rw [bare] at not
    cases not
  have others : c ≠ '%' ∧ c ≠ '[' ∧ c ≠ ']' ∧ c ≠ '\x7b' ∧ c ≠ '\x7d' ∧ c ≠ ',' ∧ c ≠ '*' ∧ c ≠ '&' ∧
      c ≠ '!' ∧ c ≠ '\x27' ∧ c ≠ '"' ∧ c ≠ '?' ∧ c ≠ ':' ∧ c ≠ '|' ∧ c ≠ '>' ∧ c ≠ '#' ∧ c ≠ '@' ∧
      c ≠ '\x60' := by
    refine ⟨?_, ?_, ?_, ?_, ?_, ?_, ?_, ?_, ?_, ?_, ?_, ?_, ?_, ?_, ?_, ?_, ?_, ?_⟩ <;>
      exact other (by decide)
  have visible : isBlank c = false := (Scalar.isBare_cases bare).1
  have noEntry : ¬ (c = '-' ∧ endsWord (word ++ tail) = true) := by
    rintro ⟨rfl, ends⟩
    cases word with
    | nil => simp [startsBare] at starts
    | cons d word =>
      obtain ⟨noBlank, noBreak, -⟩ := Scalar.isBare_cases (next d (by simp))
      simp [endsWord, noBlank, noBreak] at ends
  have plain : Scan.startsPlain true c (word ++ tail) := by
    by_cases dash : c = '-'
    · cases word with
      | nil => simp [startsBare, dash] at starts
      | cons d word =>
        obtain ⟨noBlank, -⟩ := Scalar.isBare_cases (next d (by simp))
        simp [Scan.startsPlain, dash, noBlank]
    · simp [Scan.startsPlain, Scan.isIndicator, visible, dash, others]
  unfold Scan.token
  simp [noMark, inside, others, noEntry, plain]

theorem leadsIn_bare {word white : List Char} {c : Char} (bare : ∀ d ∈ word, Scalar.isBare d)
    (starts : startsBare word) (kind : ∀ d ∈ white, isBlank d ∨ isBreak d)
    (closing : Scalar.closes c) :
    LeadsIn ⟨word ++ (white ++ c :: rest), depth + 1, keyAllowed, output⟩
      ⟨c :: rest, depth + 1, none, output ++ [.scalar .plain word]⟩ := by
  obtain ⟨first, more, rfl⟩ : ∃ first more, word = first :: more := by
    cases word with
    | nil => cases starts
    | cons first more => exact ⟨first, more, rfl⟩
  have firstBare := bare first (by simp)
  have begins : startsToken first := by
    obtain ⟨noBlank, noBreak, -, -, noComment⟩ := Scalar.isBare_cases firstBare
    have noMark : first ≠ '\ufeff' := by
      rintro rfl
      revert firstBare
      decide
    simp only [isBlank, Bool.or_eq_false_iff, decide_eq_false_iff_not] at noBlank
    simp [startsToken, noBlank, noBreak, noComment, noMark]
  apply leadsIn_of_token (by exact List.cons_append) begins
  intro scan stands
  have inside : scan.inFlow := by simp [stands.inFlow]
  have noMark := @noMark_of_startsBare scan.cursor _ (white ++ c :: rest) starts stands.rest
  have here : scan.cursor.rest = first :: more ++ white ++ c :: rest := by simpa using stands.rest
  have saved := stands.saved
  refine ⟨{ (scan.saved.push (.scalar .plain (first :: more))).moveTo
      (scan.cursor.past (first :: more ++ white)) with
        keyAllowed := (white.foldl Gap.take {}).broken }, ?_, ?_, _, .refl _, ?_⟩
  · intro fuel enough
    have read := Scalar.plain_bare bare (by simp) noMark kind closing stands.rest enough
    have inside_ : scan.saved.inFlow := saved.inFlow.trans (by simp)
    rw [token_bare firstBare (fun d member => bare d (by simp [member])) starts inside stands.rest,
      plainScalar_eq, stands.saveCandidate]
    simp [inside_, saved.indents, leastColumn, read]
  · exact Cursor.past_shorter here (List.cons_ne_nil _ _)
  · exact ⟨Cursor.past_rest here, saved.indents, saved.depth, saved.optional, by simp, saved.wrote.push _⟩

end

/-- The tokens of a text that is one flow collection. -/
theorem tokens?_of_leadsIn {text uniform : List Char} {keyAllowed : Option Bool}
    {output : List Token} (allowed : ∀ c ∈ text, isAllowed c)
    (same : uniformBreaks text = uniform)
    (leads : LeadsIn ⟨uniform, 0, some true, []⟩ ⟨[], 0, keyAllowed, output⟩) :
    tokens? text = some output := by
  have starts : (Scan.start uniform).StandsIn ⟨uniform, 0, some true, []⟩ :=
    ⟨rfl, rfl, rfl, by simp [Scan.start], by simp [Scan.start], .start⟩
  obtain ⟨last, reached, stands⟩ := leads _ starts
  obtain ⟨later, enough, ends⟩ := reached (uniform.length + 2) (Nat.le_refl _)
  obtain ⟨later, rfl⟩ : ∃ n, later = n + 1 := ⟨later - 1, by omega⟩
  have blanks := @Scan.toToken_start last (by simp [stands.rest]) later
  have fresh := stands.fresh
  have inside (column : Option Nat) : last.fresh.unroll column = last.fresh := by
    have closed : last.fresh.indents = [] := fresh.indents
    rw [Scan.unroll, fresh.inFlow]
    simp [closed]
    rw [← closed]
  obtain ⟨dropped, drop, finished, -⟩ := fresh.dropCandidate
  have run : last.run (later + 1) = some { dropped with keyAllowed := false } := by
    have empty : last.fresh.cursor.rest = [] := stands.rest
    rw [Scan.run]
    simp only [blanks, stands.dropStale, Option.bind_eq_bind, Option.bind_some, inside, empty,
      Scan.finish, Scan.endBlocks, drop]
  have tokens : Scan.withKeys 0 dropped.keys.reverse dropped.tokens.reverse = output := by
    simpa [Scan.withKeys] using finished.wrote.written [] [] (by simp)
  have allowed_ : text.all isAllowed := List.all_eq_true.2 allowed
  rw [tokens?, if_pos allowed_, same]
  simp only [ends, run, Option.bind_eq_bind, Option.bind_some, Option.some.injEq]
  exact tokens

end ApiManifest.Yaml
