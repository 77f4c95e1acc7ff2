import ApiManifest.Proofs.CommandLines
import ApiManifest.Proofs.FirstFailure

/-!
Runs of the program. Whatever the command line asks for, a run does all of it or nothing: the one
manifest is written once it is made and encoded, and where a step before that fails nothing is.
-/

namespace ApiManifest.CommandLine

open OpenApi (Document)
open Resolution (bind_eq_ok)

inductive Holds (workspace : Workspace) (source : String) : String → Prop
  | standardInput {text : String} (dash : Source.ofText source = .standardInput)
      (input : workspace.input = some text) : Holds workspace source text
  | file {text : String} (here : Source.ofText source = .file)
      (reads : workspace.readFile source = .ok text) : Holds workspace source text

inductive Withholds (workspace : Workspace) (source : String) : RunError → Prop
  | standardInput (dash : Source.ofText source = .standardInput) (input : workspace.input = none) :
      Withholds workspace source (.unreadableInput .isDirectory)
  | remote (away : Source.ofText source = .remote) :
      Withholds workspace source (.remoteSource source)
  | file {fault : FileFault} (here : Source.ofText source = .file)
      (unreadable : workspace.readFile source = .error fault) :
      Withholds workspace source (.unreadableFile source fault)

def Loads (workspace : Workspace) (source : String) (document : Document) : Prop :=
  ∃ text, Holds workspace source text ∧ Document.parse? text = some document

/-- The errors of a run: those in the log filter, those on the way to the document, those in the
document itself, and those of the file that is written. -/
inductive Fails (workspace : Workspace) (line : Line) : RunError → Prop
  | logFilter (invalid : Log.Filter.parse? line.logFilter = none) :
      Fails workspace line (.invalidLogFilter line.logFilter)
  | source {error : RunError} (withheld : Withholds workspace line.source error) :
      Fails workspace line error
  | document {text : String} (held : Holds workspace line.source text)
      (unparsable : Document.parse? text = none) : Fails workspace line (.unparsable line.source)
  | generation {document : Document} {error : GenerationError}
      (loads : Loads workspace line.source document)
      (makes : Makes document line.options line.maker (.error error)) :
      Fails workspace line (.generation line.maker.kind error)
  | output {path : String} {fault : FileFault} (given : line.output = some path)
      (unwritable : workspace.writableName path = .error fault) :
      Fails workspace line (.unwritable path fault)

def Report.leaves (report : Report) (workspace : Workspace) : Workspace :=
  { workspace with
    files := report.written.foldl (fun files entry => files.put entry.1 entry.2) workspace.files }

/-- The text is written and nothing else is: to the file if there is one, from which it then can be
read, and else to standard output. -/
inductive Writes (workspace : Workspace) (text : String) (report : Report) : Option String → Prop
  | standardOutput (output : report.output = text) (written : report.written = [])
      (left : report.leaves workspace = workspace) : Writes workspace text report none
  | file {path name : String} (output : report.output = "")
      (written : report.written = [(name, text)])
      (left : (report.leaves workspace).readFile path = .ok text)
      (others : ∀ other, other ≠ name →
        (report.leaves workspace).files.get? other = workspace.files.get? other) :
      Writes workspace text report (some path)

/-- A run does all that the line asks for, or it fails and does nothing. -/
structure AllOrNothing (workspace : Workspace) (line : Line) (report : Report) : Prop where
  exit : report.exit = 0 ∨ report.exit = 1
  fails : report.exit = 1 ↔ ∃ error, Fails workspace line error
  nothing : report.exit = 1 → report.output = "" ∧ report.written = [] ∧
    report.leaves workspace = workspace ∧
    ∃ error, Fails workspace line error ∧ report.errors = error.messages
  all : report.exit = 0 → report.errors = [] ∧ ∃ document manifest,
    Loads workspace line.source document ∧
    Makes document line.options line.maker (.ok manifest) ∧
    Writes workspace (encode line.format manifest) report line.output

/-! ### Sources and files -/

section Surroundings

variable {workspace : Workspace} {source : String}

theorem readSource_eq_ok_iff {text : String} :
    workspace.readSource source = .ok text ↔ Holds workspace source text := by
  unfold Workspace.readSource
  constructor
  · intro read
    split at read
    next dash =>
      split at read
      next input =>
        cases read
        exact .standardInput dash input
      next => cases read
    next => cases read
    next here =>
      cases reads : workspace.readFile source with
      | error fault =>
        rw [reads] at read
        cases read
      | ok found =>
        rw [reads] at read
        cases read
        exact .file here reads
  · intro held
    cases held with
    | standardInput dash input => rw [dash, input]
    | file here reads =>
      rw [here, reads]
      rfl

theorem withholds_of_readSource {error : RunError}
    (failed : workspace.readSource source = .error error) : Withholds workspace source error := by
  unfold Workspace.readSource at failed
  split at failed
  next dash =>
    split at failed
    next => cases failed
    next input =>
      cases failed
      exact .standardInput dash input
  next away =>
    cases failed
    exact .remote away
  next here =>
    cases reads : workspace.readFile source with
    | error fault =>
      rw [reads] at failed
      cases failed
      exact .file here reads
    | ok text =>
      rw [reads] at failed
      cases failed

theorem Holds.not_withholds {text : String} {error : RunError}
    (held : Holds workspace source text) : ¬ Withholds workspace source error := by
  intro withheld
  cases held with
  | standardInput dash input =>
    cases withheld with
    | standardInput _ absent => cases input.symm.trans absent
    | remote away => cases dash.symm.trans away
    | file here _ => cases dash.symm.trans here
  | file here reads =>
    cases withheld with
    | standardInput dash _ => cases here.symm.trans dash
    | remote away => cases here.symm.trans away
    | file _ unreadable => cases reads.symm.trans unreadable

theorem Holds.unique {first second : String} (one : Holds workspace source first)
    (two : Holds workspace source second) : first = second := by
  have same := (readSource_eq_ok_iff.2 one).symm.trans (readSource_eq_ok_iff.2 two)
  exact Except.ok.inj same

theorem Loads.unique {first second : Document} (one : Loads workspace source first)
    (two : Loads workspace source second) : first = second := by
  obtain ⟨text, held, parses⟩ := one
  obtain ⟨other, holds, again⟩ := two
  cases held.unique holds
  exact Option.some.inj (parses.symm.trans again)

/-- A path that leads to a file leads there whatever files there are. -/
theorem follow_file {inside : Bool} {parts : List (List Char)} {name : String} {slash : Bool}
    (found : workspace.follow inside parts = .ok (.file name slash)) (other : Workspace) :
    other.follow inside parts = .ok (.file name slash) := by
  induction parts generalizing inside with
  | nil => cases found
  | cons part rest ih =>
    unfold Workspace.follow at found ⊢
    split at found
    next here =>
      rw [if_pos here]
      exact ih found
    next moves =>
      rw [if_neg moves]
      split at found
      next up =>
        rw [if_pos up]
        exact ih found
      next down =>
        rw [if_neg down]
        split at found
        next => cases found
        next within =>
          rw [if_neg within]
          extract_lets at found ⊢
          split at found
          next last =>
            rw [if_pos last]
            exact found
          next => split at found <;> cases found

/-- What is put under the name of a path is read from that path. -/
theorem readFile_of_writableName {path name : String}
    (writable : workspace.writableName path = .ok name) (text : String) :
    ({ workspace with files := workspace.files.put name text } : Workspace).readFile path =
      .ok text := by
  obtain ⟨destination, located, writable⟩ := bind_eq_ok writable
  cases destination with
  | directory => cases writable
  | file found slash =>
    cases slash with
    | true => cases writable
    | false =>
      cases writable
      have stays : ({ workspace with files := workspace.files.put name text } : Workspace).locate
          path = .ok (.file name false) := by
        unfold Workspace.locate at located ⊢
        split at located
        next => cases located
        next present =>
          rw [if_neg present]
          exact follow_file located _
      unfold Workspace.readFile
      rw [stays]
      simp [bind, Except.bind]

end Surroundings

/-! ### Steps of a run -/

section Performing

variable {invocation : Invocation} {line : Line} {workspace : Workspace}

theorem parse?_of_decode {text : String} {document : Document}
    (decoded : invocation.decode text = .ok document) : Document.parse? text = some document := by
  unfold Invocation.decode at decoded
  split at decoded
  next parses =>
    cases decoded
    exact parses
  next => cases decoded

theorem perform_eq_ok (carries : CarriesOut invocation line) {delivery : Delivery}
    (done : invocation.perform workspace = .ok delivery) :
    Log.Filter.parse? line.logFilter ≠ none ∧ ∃ document manifest,
      Loads workspace line.source document ∧
      Makes document line.options line.maker (.ok manifest) ∧
      invocation.deliver workspace (encode line.format manifest) = .ok delivery := by
  obtain ⟨filter, checked, done⟩ := bind_eq_ok done
  obtain ⟨text, read, done⟩ := bind_eq_ok done
  obtain ⟨document, decoded, done⟩ := bind_eq_ok done
  obtain ⟨encoded, produced, delivered⟩ := bind_eq_ok done
  have valid : Log.Filter.parse? line.logFilter ≠ none := by
    intro invalid
    rw [← carries.logFilter] at invalid
    unfold Invocation.checkLogFilter at checked
    rw [invalid] at checked
    cases checked
  rw [carries.source] at read
  have loads : Loads workspace line.source document :=
    ⟨text, readSource_eq_ok_iff.1 read, parse?_of_decode decoded⟩
  unfold Invocation.produce at produced
  split at produced
  next manifest made =>
    cases produced
    rw [carries.format] at delivered
    exact ⟨valid, document, manifest, loads, made ▸ carries.task document, delivered⟩
  next => cases produced

theorem fails_of_perform (carries : CarriesOut invocation line) {error : RunError}
    (failed : invocation.perform workspace = .error error) : Fails workspace line error := by
  rcases (bind_eq_error_iff _ _ _).1 failed with failed | ⟨filter, checked, failed⟩
  · unfold Invocation.checkLogFilter at failed
    split at failed
    next => cases failed
    next invalid =>
      cases failed
      rw [carries.logFilter] at invalid ⊢
      exact .logFilter invalid
  rcases (bind_eq_error_iff _ _ _).1 failed with failed | ⟨text, read, failed⟩
  · rw [carries.source] at failed
    exact .source (withholds_of_readSource failed)
  rw [carries.source] at read
  have held := readSource_eq_ok_iff.1 read
  rcases (bind_eq_error_iff _ _ _).1 failed with failed | ⟨document, decoded, failed⟩
  · unfold Invocation.decode at failed
    split at failed
    next => cases failed
    next unparsable =>
      cases failed
      rw [carries.source]
      exact .document held unparsable
  have loads : Loads workspace line.source document := ⟨text, held, parse?_of_decode decoded⟩
  rcases (bind_eq_error_iff _ _ _).1 failed with failed | ⟨encoded, produced, failed⟩
  · unfold Invocation.produce at failed
    split at failed
    next => cases failed
    next cause made =>
      cases failed
      rw [carries.kind]
      exact .generation loads (made ▸ carries.task document)
  unfold Invocation.deliver at failed
  split at failed
  next => cases failed
  next path given =>
    split at failed
    next => cases failed
    next unwritable =>
      cases failed
      exact .output (carries.output.symm.trans given) unwritable

theorem writes_of_deliver (carries : CarriesOut invocation line) {text : String}
    {delivery : Delivery} (delivered : invocation.deliver workspace text = .ok delivery)
    (events : List Log.Event) :
    Writes workspace text (.ofResult events (.ok delivery)) line.output := by
  unfold Invocation.deliver at delivered
  rw [carries.output] at delivered
  split at delivered
  next given =>
    cases delivered
    rw [given]
    exact .standardOutput rfl rfl rfl
  next path given =>
    split at delivered
    next name writable =>
      cases delivered
      rw [given]
      refine .file rfl rfl (readFile_of_writableName writable text) fun other different => ?_
      change (workspace.files.put name text).get? other = _
      rw [Dict.get?_put, if_neg different]
    next => cases delivered

theorem not_fails_of_perform (carries : CarriesOut invocation line) {delivery : Delivery}
    (done : invocation.perform workspace = .ok delivery) (error : RunError) :
    ¬ Fails workspace line error := by
  obtain ⟨valid, document, manifest, loads, makes, delivered⟩ := perform_eq_ok carries done
  intro fails
  cases fails with
  | logFilter invalid => exact valid invalid
  | source withheld =>
    obtain ⟨text, held, _⟩ := loads
    exact held.not_withholds withheld
  | document held unparsable =>
    obtain ⟨text, holds, parses⟩ := loads
    cases held.unique holds
    cases unparsable.symm.trans parses
  | generation again fails =>
    cases loads.unique again
    cases makes.unique fails
  | output given unwritable =>
    unfold Invocation.deliver at delivered
    rw [carries.output, given] at delivered
    dsimp only at delivered
    rw [unwritable] at delivered
    cases delivered

theorem report_allOrNothing (carries : CarriesOut invocation line) :
    AllOrNothing workspace line (invocation.report workspace) := by
  unfold Invocation.report
  generalize invocation.events workspace = events
  cases outcome : invocation.perform workspace with
  | error error =>
    have fails := fails_of_perform carries outcome
    exact {
      exit := .inr rfl
      fails := ⟨fun _ => ⟨error, fails⟩, fun _ => rfl⟩
      nothing := fun _ => ⟨rfl, rfl, rfl, error, fails, rfl⟩
      all := fun zero => by cases zero }
  | ok delivery =>
    obtain ⟨_, document, manifest, loads, makes, delivered⟩ := perform_eq_ok carries outcome
    have succeeds : (Report.ofResult events (.ok delivery)).exit = 0 ∧
        (Report.ofResult events (.ok delivery)).errors = [] := by
      cases delivery <;> exact ⟨rfl, rfl⟩
    have failsNot : (Report.ofResult events (.ok delivery)).exit ≠ 1 := by
      rw [succeeds.1]
      decide
    exact {
      exit := .inl succeeds.1
      fails := ⟨fun one => absurd one failsNot,
        fun ⟨error, fails⟩ => absurd fails (not_fails_of_perform carries outcome error)⟩
      nothing := fun one => absurd one failsNot
      all := fun _ => ⟨succeeds.2, document, manifest, loads, makes,
        writes_of_deliver carries delivered events⟩ }

end Performing

theorem ofArguments_eq_ok {preset : Option String} {arguments : List String}
    {inputs : List CommandInput} {invocation : Invocation}
    (accepted : read program preset.isSome arguments = .ok inputs)
    (asked : Invocation.ofInputs? preset inputs = some invocation) :
    Invocation.ofArguments preset arguments = .ok invocation := by
  unfold Invocation.ofArguments
  rw [accepted]
  simp only [bind, Except.bind]
  rw [asked]

theorem run_eq_ok {preset : Option String} {arguments : List String} {inputs : List CommandInput}
    {invocation : Invocation} (accepted : read program preset.isSome arguments = .ok inputs)
    (asked : Invocation.ofInputs? preset inputs = some invocation) (workspace : Workspace) :
    run preset arguments workspace = .ok (invocation.report workspace) := by
  unfold run
  rw [ofArguments_eq_ok accepted asked]
  rfl

/-- A command line is refused, and then nothing is run, or it asks for one thing, and the run does
all of it or nothing. -/
theorem run_all_or_nothing (preset : Option String) (arguments : List String)
    (workspace : Workspace) :
    (∃ error, read program preset.isSome arguments = .error error ∧
      run preset arguments workspace = .error error) ∨
    ∃ inputs report, read program preset.isSome arguments = .ok inputs ∧
      run preset arguments workspace = .ok report ∧
      (∃! line, Says preset inputs line) ∧
      ∀ line, Says preset inputs line → AllOrNothing workspace line report := by
  cases accepted : read program preset.isSome arguments with
  | error error =>
    refine .inl ⟨error, rfl, ?_⟩
    unfold run Invocation.ofArguments
    rw [accepted]
    rfl
  | ok inputs =>
    have accepts : Accepted preset inputs := accepted_of_leads (leads_of_read accepted)
    obtain ⟨line, invocation, asks, asked, carries⟩ := accepts
    have runs : run preset arguments workspace = .ok (invocation.report workspace) := by
      unfold run
      rw [ofArguments_eq_ok accepted asked]
      rfl
    refine .inr ⟨inputs, invocation.report workspace, rfl, runs, ⟨line, asks, ?_⟩, ?_⟩
    · exact fun other asksOther => asksOther.unique asks
    · intro other asksOther
      cases asksOther.unique asks
      exact report_allOrNothing carries

example : (run none ["api", "generate", "pets.yaml", "-o", "./api.yaml"]
      ⟨none, .ofList [("pets.yaml", "openapi: 3.0.2\ninfo:\n  title: Pets\n  version: 1.0.0\n")]⟩
    ).toOption.map (fun report => (report.exit, report.output, report.written)) =
    some (0, "", [("api.yaml", "apiVersion: networking.kuadrant.io/v1beta1\nkind: API\n" ++
      "metadata:\n  name: pets\nspec: \x7b\x7d\n")]) := by
  decide +kernel

example : (run none ["api", "generate", "HTTPS://a.io"] ⟨some "", .empty⟩).toOption.map
      (fun report => (report.exit, report.output, report.errors)) =
    some (1, "", ["remote OpenAPI documents are not supported, download HTTPS://a.io first"]) := by
  decide +kernel

end ApiManifest.CommandLine
