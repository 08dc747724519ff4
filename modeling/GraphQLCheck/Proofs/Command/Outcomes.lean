/-
  GraphQLCheck.Proofs.Command.Outcomes
  ────────────────────────────────────
  When commands succeed, and when they go on for ever.

  Both commands take a schema from files, a document from a file and the values of variables from a file,
  one earlier and the other later.  They succeed exactly if all these can be had, the document is valid,
  and the variables of the operations that they look at have values.

  A command that takes its schema from files in which the evaluation of a default has no end makes no report.
  All others make one.

  Main facts:
    * `ValidateOptions.succeeds_iff`     — when the check of a document succeeds
    * `CoerceOptions.succeeds_iff`       — when the variables of an operation are coerced
    * `Command.endlessDefault_of_value_run` — only a default without an end leaves a command without a report
    * `commands_agree`                   — the check succeeds if the coercion does for every operation
-/
import Mathlib
import GraphQLCheck.Proofs.Command.Tasks
import GraphQLCheck.Proofs.Validation.Operations

namespace GraphQLCheck

open GraphQLCheck.Task (outcome)

/-! ## §1. Reports. -/

/-- The exit code says success exactly for a report of one. -/
theorem Report.exitCode_eq_zero_iff {report : Report} :
    report.exitCode = 0 ↔ ∃ text, report = .success text := by
  cases report <;> simp [exitCode]

namespace Command

variable {files : FileLookup}

/-- The exit code that a command reports, if it ends. -/
def exitCode? (files : FileLookup) (command : Command) : Option Nat :=
  (command.run files).value.value?.map Report.exitCode

/-- A command reports on what it comes to. -/
theorem value_run (command : Command) : (command.run files).value = report (outcome (command.task files)) := rfl

theorem report_eq_endless_iff {result : Outcome CommandError Report} :
    report result = .endless ↔ result = .endless := by
  cases result <;> simp [report]

/-- A command says that it succeeds exactly if it comes to a report of that. -/
theorem exitCode?_eq_zero_iff {command : Command} :
    command.exitCode? files = some 0 ↔ ∃ text, outcome (command.task files) = .value (.success text) := by
  unfold exitCode?
  rw [value_run]
  cases outcome (command.task files) with
  | value result => simp [report, Outcome.value?, Report.exitCode_eq_zero_iff]
  | failure error => simp [report, Outcome.value?, Report.exitCode]
  | endless => simp [report, Outcome.value?]

end Command

/-! ## §2. Files and documents. -/

/-- In a valid document, the name of an operation, or none, stands for that operation. -/
theorem Document.operation?_name_of_valid {schema : Schema} (document : Document)
    (h : isValid (document.validate schema Rule.defaults) = true) {operation : Operation}
    (hmem : operation ∈ document.operations) : document.operation? operation.name = some operation := by
  have hrules := (document.isValid_validate_iff schema Rule.defaults).1 h
  exact operation?_name_of_mem (hrules .uniqueOperationNames (by simp [Rule.defaults]))
    (hrules .loneAnonymousOperation (by simp [Rule.defaults])) hmem

section Documents

variable {files : FileLookup} {path : String} {node : FileNode}

theorem value_readText (path : String) (node : Option FileNode) :
    (readText path node).value = FileNode.text path node := by
  unfold readText FileNode.text
  cases FileNode.bytes path node with
  | error cause => rfl
  | ok bytes => rfl

/-- A document is read from what its path leads to. -/
theorem value_readDocument (files : FileLookup) (path : String) :
    (readDocument path (files path)).value = Document.loadFile files path := by
  unfold readDocument Document.loadFile
  rw [Logged.value_bind, value_readText]
  cases FileNode.text path (files path) <;> rfl

/-- Documents are read from files. -/
theorem isFile_of_loadFile {document : Document} (h : Document.loadFile files path = .ok document) :
    ∃ node, files path = some node ∧ node.isFile = true := by
  unfold Document.loadFile FileNode.text at h
  cases hnode : files path with
  | none =>
    rw [hnode] at h
    cases h
  | some node =>
    cases node with
    | directory entries =>
      rw [hnode] at h
      cases h
    | file bytes => exact ⟨_, rfl, rfl⟩
    | unreadable reason => exact ⟨_, rfl, rfl⟩

/-- Under a file there is nothing. -/
theorem FileNode.walk_of_isFile (h : node.isFile = true) : node.walk path = [(path, node)] := by
  cases node with
  | directory entries => cases h
  | file bytes => rfl
  | unreadable reason => rfl

end Documents

/-! ## §3. The check of a document. -/

namespace ValidateOptions

variable {files : FileLookup} {options : ValidateOptions} {path : String} {node : FileNode}

/-- A single file is all that is found at its path. -/
theorem outcome_entries (hpaths : options.paths = [path]) (hnode : files path = some node)
    (hfile : node.isFile = true) : outcome (options.entries files) = .value [(path, node)] := by
  unfold entries
  simp only [hpaths, List.mapM_cons, List.mapM_nil, hnode, Task.outcome_bind, FileNode.walk_of_isFile hfile]
  rfl

/-- A single file is a document, whatever its extension, and nothing else is found. -/
theorem outcome_findDocuments (hpaths : options.paths = [path]) (hnode : files path = some node)
    (hfile : node.isFile = true) : outcome (options.findDocuments files) = .value ([⟨path, node⟩], 0) := by
  have honly : options.onlyFile? files = some ⟨path, node⟩ := by
    unfold onlyFile?
    simp [hpaths, hnode, hfile]
  unfold findDocuments
  refine Task.outcome_bind_eq_value_iff.2 ⟨(), Task.outcome_log .., Task.outcome_bind_eq_value_iff.2
    ⟨_, outcome_entries hpaths hnode hfile, ?_⟩⟩
  cases hdocument : options.isDocument path node with
  | true => simp [hdocument]
  | false =>
    have hpartition : ∀ isDocument : String × FileNode → Bool, isDocument (path, node) = false →
        [(path, node)].partition isDocument = ([], [(path, node)]) := by
      intro isDocument hnone
      simp [hnone]
    rw [hpartition _ hdocument, honly]
    exact Task.outcome_bind_eq_value_iff.2 ⟨(), Task.outcome_log .., rfl⟩

end ValidateOptions

section Problems

variable {schema : Schema} {path : String} {inputs : Variables}

/-- There is no problem exactly if the variables of every operation have values. -/
theorem outcome_variableProblems_eq_nil_iff {operations : List Operation} :
    outcome (variableProblems schema path inputs operations) = .value [] ↔
      ∀ op ∈ operations, ∃ values, schema.coerceVariables op inputs = .value values := by
  induction operations with
  | nil => simp [variableProblems]
  | cons op operations ih =>
    have hsettle : outcome (Task.settle (coercedVariables schema op inputs)) =
        (schema.coerceVariables op inputs).settle :=
      congrArg Outcome.settle (value_coercedVariables schema op inputs)
    rw [List.forall_mem_cons, ← ih, variableProblems, Task.outcome_bind, hsettle]
    cases schema.coerceVariables op inputs with
    | value values => simp [Outcome.settle]
    | failure cause =>
      -- whatever the others come to, this is a problem
      have hproblem : ∀ problem, outcome (variableProblems schema path inputs operations >>= fun rest =>
          pure (problem :: rest)) ≠ .value [] := by
        intro problem h
        obtain ⟨_, _, h⟩ := Task.outcome_bind_eq_value_iff.1 h
        cases h
      constructor
      · exact fun h => absurd h (hproblem _)
      · rintro ⟨⟨_, h⟩, _⟩
        cases h
    | endless => simp [Outcome.settle]

/-- A document has no problem exactly if it is valid, and the variables of all its operations have values. -/
theorem outcome_documentProblems_eq_nil_iff {document : Document} :
    outcome (documentProblems schema path (some inputs) document) = .value [] ↔
      isValid (document.validate schema Rule.defaults) = true ∧
      ∀ op ∈ document.operations, ∃ values, schema.coerceVariables op inputs = .value values := by
  have herrors : (checkedDocument schema document).value = document.validate schema Rule.defaults := rfl
  have hvariables := @outcome_variableProblems_eq_nil_iff schema path inputs document.operations
  rw [← hvariables, documentProblems, Task.outcome_bind, Task.outcome_lift, herrors, Outcome.bind_value]
  cases hvalid : isValid (document.validate schema Rule.defaults) with
  | true => simp
  | false =>
    unfold isValid at hvalid
    simpa using List.isEmpty_eq_false_iff.1 hvalid

end Problems

namespace ValidateOptions

variable {files : FileLookup} {options : ValidateOptions}

/-- The report of a check: how many operations there are, and what is wrong, decide. -/
def reportOn (schema : Schema) (fileCount skippedCount : Nat) (inputs : Option Variables)
    (found : Nat × List String) : Report :=
  if found.2.isEmpty then .success (successText schema fileCount skippedCount found.1 inputs)
  else .failure (redCross ++ " GraphQL validation errors:\n" ++ bulletList found.2)

theorem exists_success_reportOn_iff {schema : Schema} {fileCount skippedCount : Nat}
    {inputs : Option Variables} {found : Nat × List String} :
    (∃ text, reportOn schema fileCount skippedCount inputs found = .success text) ↔ found.2 = [] := by
  unfold reportOn
  rw [← List.isEmpty_iff]
  cases found.2.isEmpty <;> simp

/-- What the check of documents comes to: all that it needs can be had, and then the problems of the files decide. -/
theorem outcome_run_eq_value_iff {report : Report} : outcome (options.run files) = .value report ↔
    ∃ found skipped schema inputs problems, outcome (options.findDocuments files) = .value (found, skipped) ∧
      outcome (loadSchema files options.schemas) = .value schema ∧
      outcome (options.readInputs files) = .value inputs ∧
      outcome (fileProblems schema inputs found) = .value problems ∧
      report = reportOn schema found.length skipped inputs problems := by
  have hreport : ∀ schema fileCount skipped inputs (found : Nat × List String),
      outcome (if found.2.isEmpty then pure (.success (successText schema fileCount skipped found.1 inputs))
        else pure (.failure (redCross ++ " GraphQL validation errors:\n" ++ bulletList found.2)) : Task Report) =
      .value (reportOn schema fileCount skipped inputs found) := by
    intro schema fileCount skipped inputs found
    unfold reportOn
    cases found.2.isEmpty <;> rfl
  unfold run
  constructor
  · intro h
    obtain ⟨⟨found, skipped⟩, hfound, h⟩ := Task.outcome_bind_eq_value_iff.1 h
    obtain ⟨_, _, h⟩ := Task.outcome_bind_eq_value_iff.1 h
    obtain ⟨schema, hschema, h⟩ := Task.outcome_bind_eq_value_iff.1 h
    obtain ⟨inputs, hinputs, h⟩ := Task.outcome_bind_eq_value_iff.1 h
    obtain ⟨problems, hproblems, h⟩ := Task.outcome_bind_eq_value_iff.1 h
    exact ⟨found, skipped, schema, inputs, problems, hfound, hschema, hinputs, hproblems,
      Outcome.value.inj (h.symm.trans (hreport schema found.length skipped inputs problems))⟩
  · rintro ⟨found, skipped, schema, inputs, problems, hfound, hschema, hinputs, hproblems, rfl⟩
    exact Task.outcome_bind_eq_value_iff.2 ⟨_, hfound, Task.outcome_bind_eq_value_iff.2 ⟨(), Task.outcome_log ..,
      Task.outcome_bind_eq_value_iff.2 ⟨schema, hschema, Task.outcome_bind_eq_value_iff.2 ⟨inputs, hinputs,
        Task.outcome_bind_eq_value_iff.2 ⟨problems, hproblems,
          hreport schema found.length skipped inputs problems⟩⟩⟩⟩⟩

/-- Where a variables file is named, it is read. -/
theorem outcome_readInputs_eq_value_iff {path : String} (h : options.variablesFile = some path)
    {inputs? : Option Variables} : outcome (options.readInputs files) = .value inputs? ↔
      ∃ inputs, outcome (readVariables files path) = .value inputs ∧ inputs? = some inputs := by
  unfold readInputs
  rw [h]
  constructor
  · intro h
    obtain ⟨inputs, hinputs, h⟩ := Task.outcome_bind_eq_value_iff.1 h
    exact ⟨inputs, hinputs, (Outcome.value.inj h).symm⟩
  · rintro ⟨inputs, hinputs, rfl⟩
    exact Task.outcome_bind_eq_value_iff.2 ⟨inputs, hinputs, rfl⟩

/-- **When the check of a document succeeds**: there is a schema, the values of variables can be read, the document
is valid, and the variables of each of its operations have values. -/
theorem succeeds_iff {path inputsPath : String} {document : Document} (hpaths : options.paths = [path])
    (hinputs : options.variablesFile = some inputsPath) (hdocument : Document.loadFile files path = .ok document) :
    (∃ text, outcome (options.run files) = .value (.success text)) ↔
      ∃ schema inputs, outcome (loadSchema files options.schemas) = .value schema ∧
        outcome (readVariables files inputsPath) = .value inputs ∧
        isValid (document.validate schema Rule.defaults) = true ∧
        ∀ op ∈ document.operations, ∃ values, schema.coerceVariables op inputs = .value values := by
  obtain ⟨node, hnode, hfile⟩ := isFile_of_loadFile hdocument
  have hfound := outcome_findDocuments hpaths hnode hfile
  have hread : (readDocument path (some node)).value = .ok document := by
    rw [← hnode, value_readDocument, hdocument]
  -- the document is the only file, so its problems are all that there are
  have hproblems : ∀ schema inputs, outcome (fileProblems schema (some inputs) [⟨path, node⟩]) =
      outcome (documentProblems schema path (some inputs) document) >>= fun found =>
        .value (document.operations.length + 0, found ++ []) := by
    intro schema inputs
    unfold fileProblems
    rw [Task.outcome_bind, Task.outcome_lift, hread, Outcome.bind_value]
    exact Task.outcome_bind _ _
  constructor
  · rintro ⟨text, h⟩
    obtain ⟨_, _, schema, inputs?, problems, hfound', hschema, hinputs?, hresult, hreport⟩ :=
      outcome_run_eq_value_iff.1 h
    rw [hfound] at hfound'
    cases hfound'
    obtain ⟨inputs, hvalues, rfl⟩ := (outcome_readInputs_eq_value_iff hinputs).1 hinputs?
    rw [hproblems] at hresult
    obtain ⟨found, hgood, hresult⟩ := Outcome.bind_eq_value_iff.1 hresult
    cases hresult
    have hnone : found ++ [] = [] := exists_success_reportOn_iff.1 ⟨text, hreport.symm⟩
    rw [List.append_nil] at hnone
    rw [hnone] at hgood
    exact ⟨schema, inputs, hschema, hvalues, outcome_documentProblems_eq_nil_iff.1 hgood⟩
  · rintro ⟨schema, inputs, hschema, hvalues, hgood⟩
    have hnone : outcome (fileProblems schema (some inputs) [⟨path, node⟩]) =
        .value (document.operations.length + 0, []) := by
      rw [hproblems, outcome_documentProblems_eq_nil_iff.2 hgood]
      rfl
    obtain ⟨text, htext⟩ : ∃ text, reportOn schema 1 0 (some inputs) (document.operations.length + 0, []) =
        .success text := exists_success_reportOn_iff.2 rfl
    exact ⟨text, outcome_run_eq_value_iff.2 ⟨_, _, schema, some inputs, _, hfound, hschema,
      (outcome_readInputs_eq_value_iff hinputs).2 ⟨inputs, hvalues, rfl⟩, hnone, htext.symm⟩⟩

end ValidateOptions

/-! ## §4. The variables of an operation. -/

namespace CoerceOptions

variable {files : FileLookup} {options : CoerceOptions}

/-- What the coercion of variables comes to in a success: all that it needs can be had, and the values of the variables
are written. -/
theorem outcome_run_eq_success_iff {text : String} : outcome (options.run files) = .value (.success text) ↔
    ∃ schema document operation inputs values, outcome (loadSchema files options.schemas) = .value schema ∧
      Document.loadFile files options.document = .ok document ∧
      isValid (document.validate schema Rule.defaults) = true ∧
      document.operation? options.operation = some operation ∧
      outcome (options.readInputs files) = .value inputs ∧
      schema.coerceVariables operation inputs = .value values ∧ text = (Json.object values).pretty := by
  have herrors : ∀ schema document,
      (checkedDocument schema document).value = document.validate schema Rule.defaults := fun _ _ => rfl
  unfold run
  constructor
  · intro h
    obtain ⟨schema, hschema, h⟩ := Task.outcome_bind_eq_value_iff.1 h
    obtain ⟨document, hdocument, h⟩ := Task.outcome_bind_eq_value_iff.1 h
    rw [Task.outcome_ofLogged_eq_value_iff, value_readDocument] at hdocument
    obtain ⟨errors, hchecked, h⟩ := Task.outcome_bind_eq_value_iff.1 h
    rw [Task.outcome_lift, herrors] at hchecked
    cases hchecked
    cases hvalid : isValid (document.validate schema Rule.defaults) with
    | false =>
      rw [hvalid] at h
      cases h
    | true =>
      cases hfound : document.operation? options.operation with
      | none =>
        rw [hvalid, hfound] at h
        cases h
      | some operation =>
        rw [hvalid, hfound] at h
        obtain ⟨inputs, hinputs, h⟩ := Task.outcome_bind_eq_value_iff.1 h
        obtain ⟨values, hvalues, h⟩ := Task.outcome_bind_eq_value_iff.1 h
        rw [Task.outcome_ofOutcome_eq_value_iff, value_coercedVariables] at hvalues
        cases h
        exact ⟨schema, document, operation, inputs, values, hschema, hdocument, hvalid, hfound, hinputs,
          hvalues, rfl⟩
  · rintro ⟨schema, document, operation, inputs, values, hschema, hdocument, hvalid, hfound, hinputs, hvalues, rfl⟩
    have hread : outcome (Task.ofLogged (.document options.document)
        (readDocument options.document (files options.document))) = .value document := by
      rw [Task.outcome_ofLogged_eq_value_iff, value_readDocument, hdocument]
    refine Task.outcome_bind_eq_value_iff.2 ⟨schema, hschema, Task.outcome_bind_eq_value_iff.2 ⟨document, hread,
      Task.outcome_bind_eq_value_iff.2 ⟨_, Task.outcome_lift _, ?_⟩⟩⟩
    rw [herrors, hvalid, hfound]
    have hcoerced := (value_coercedVariables schema operation inputs).trans hvalues
    exact Task.outcome_bind_eq_value_iff.2 ⟨inputs, hinputs, Task.outcome_bind_eq_value_iff.2
      ⟨values, Task.outcome_ofOutcome_eq_value_iff.2 hcoerced, rfl⟩⟩

/-- **When the variables of an operation of a document are coerced**: there is a schema, the values of variables can be
read, the document is valid, and the variables of the operation have values. -/
theorem succeeds_iff {inputsPath : String} {document : Document} {operation : Operation}
    (hinputs : options.variablesFile = some inputsPath)
    (hdocument : Document.loadFile files options.document = .ok document) (hmem : operation ∈ document.operations)
    (hname : options.operation = operation.name) :
    (∃ text, outcome (options.run files) = .value (.success text)) ↔
      ∃ schema inputs, outcome (loadSchema files options.schemas) = .value schema ∧
        outcome (readVariables files inputsPath) = .value inputs ∧
        isValid (document.validate schema Rule.defaults) = true ∧
        ∃ values, schema.coerceVariables operation inputs = .value values := by
  have hreadInputs : options.readInputs files = readVariables files inputsPath := by
    unfold readInputs
    rw [hinputs]
  simp only [outcome_run_eq_success_iff, hreadInputs, hname]
  constructor
  · rintro ⟨_, schema, document', found, inputs, values, hschema, hdocument', hvalid, hfound, hvariables, hvalues, _⟩
    rw [hdocument] at hdocument'
    cases hdocument'
    -- the operation that is found is the one that was meant
    rw [document.operation?_name_of_valid hvalid hmem] at hfound
    cases hfound
    exact ⟨schema, inputs, hschema, hvariables, hvalid, values, hvalues⟩
  · rintro ⟨schema, inputs, hschema, hvariables, hvalid, values, hvalues⟩
    exact ⟨_, schema, document, operation, inputs, values, hschema, hdocument, hvalid,
      document.operation?_name_of_valid hvalid hmem, hvariables, hvalues, rfl⟩

end CoerceOptions

/-! ## §5. Both commands. -/

namespace Command

/-- The files that a command takes its schema from. -/
def schemas : Command → List String
  | .validate options => options.schemas
  | .coerceVariables options => options.schemas

theorem endlessDefault_of_value_run {files : FileLookup} {command : Command}
    (h : (command.run files).value = .endless) : EndlessDefault files command.schemas := by
  rw [value_run, report_eq_endless_iff] at h
  rw [← outcome_loadSchema_eq_endless_iff]
  by_contra hends
  cases command with
  | validate options => exact options.ends_run hends h
  | coerceVariables options => exact options.ends_run hends h

end Command

/-- What the program prints of a report: it says either that a command succeeded, with a text for standard output, or
that it failed, with a text for standard error. -/
theorem ProgramOutput.ofLogged_cases (verbose : Bool) (levelWord : Option String)
    {computation : Logged (Outcome Empty Report)} {report : Report} (h : computation.value = .value report) :
    let output := ofLogged verbose levelWord computation
    (output.exitCode = 0 ∧ (∃ text, output.output = some text) ∧ output.errorOutput = none) ∨
    (output.exitCode = 1 ∧ output.output = none ∧ ∃ text, output.errorOutput = some text) := by
  unfold ofLogged
  rw [h]
  cases report with
  | success text => exact .inl ⟨rfl, ⟨text, rfl⟩, rfl⟩
  | failure text => exact .inr ⟨rfl, rfl, ⟨text, rfl⟩⟩

/-- **The commands agree.**  Let a document with operations be read from a file.  It passes the check with a variables
file exactly if the variables of each of its operations are coerced by themselves, each operation being taken by its
name, or without one if it has none.  Where the schema files define a default whose evaluation has no end, and only
there, neither has a result.  This is the only reason for any command to have none: else it says either that it
succeeded, with a text for standard output, or that it failed, with a text for standard error. -/
theorem commands_agree (files : FileLookup) (schemas extensions : List String) (path inputsPath : String)
    (document : Document) (hdocument : Document.loadFile files path = .ok document)
    (hoperations : document.operations ≠ []) :
    let check := Command.validate { extensions, schemas, variablesFile := some inputsPath, paths := [path] }
    let coercion (op : Operation) := Command.coerceVariables
      { schemas, operation := op.name, document := path, variablesFile := some inputsPath }
    (check.exitCode? files = some 0 ↔
      ∀ op ∈ document.operations, (coercion op).exitCode? files = some 0) ∧
    (((check.run files).value = .endless ↔ EndlessDefault files schemas) ∧
      ∀ op ∈ document.operations, ((coercion op).run files).value = .endless ↔ EndlessDefault files schemas) ∧
    ∀ (verbose : Bool) (levelWord : Option String) (command : Command),
      ((command.run files).value = .endless ∧ EndlessDefault files command.schemas) ∨
      (∃ report, (command.run files).value = .value report) ∧
        let output := ProgramOutput.ofLogged verbose levelWord (command.run files)
        (output.exitCode = 0 ∧ (∃ text, output.output = some text) ∧ output.errorOutput = none) ∨
        (output.exitCode = 1 ∧ output.output = none ∧ ∃ text, output.errorOutput = some text) := by
  intro check coercion
  refine ⟨?_, ⟨?_, fun op _ => ?_⟩, fun verbose levelWord command => ?_⟩
  · rw [Command.exitCode?_eq_zero_iff]
    simp only [Command.exitCode?_eq_zero_iff]
    refine (ValidateOptions.succeeds_iff rfl rfl hdocument).trans ?_
    constructor
    · rintro ⟨schema, inputs, hschema, hinputs, hvalid, hvalues⟩ op hop
      exact (CoerceOptions.succeeds_iff rfl hdocument hop rfl).2
        ⟨schema, inputs, hschema, hinputs, hvalid, hvalues op hop⟩
    · intro h
      have hcoerced := fun op hop => (CoerceOptions.succeeds_iff rfl hdocument hop rfl).1 (h op hop)
      obtain ⟨first, hfirst⟩ := List.exists_mem_of_ne_nil _ hoperations
      obtain ⟨schema, inputs, hschema, hinputs, hvalid, _⟩ := hcoerced first hfirst
      refine ⟨schema, inputs, hschema, hinputs, hvalid, fun op hop => ?_⟩
      -- all runs load the same schema and read the same values
      obtain ⟨schema', inputs', hschema', hinputs', _, hvalues⟩ := hcoerced op hop
      cases hschema.symm.trans hschema'
      cases hinputs.symm.trans hinputs'
      exact hvalues
  · obtain ⟨node, hnode, hfile⟩ := isFile_of_loadFile hdocument
    rw [Command.value_run, Command.report_eq_endless_iff]
    exact ValidateOptions.outcome_run_eq_endless_iff (ValidateOptions.outcome_findDocuments rfl hnode hfile)
  · rw [Command.value_run, Command.report_eq_endless_iff]
    exact CoerceOptions.outcome_run_eq_endless_iff
  · cases hvalue : (command.run files).value with
    | value report => exact .inr ⟨⟨report, rfl⟩, ProgramOutput.ofLogged_cases verbose levelWord hvalue⟩
    | failure error => cases error
    | endless => exact .inl ⟨rfl, Command.endlessDefault_of_value_run hvalue⟩

namespace Greeting

/-- The bytes of a text of ASCII characters. -/
def bytesOf (text : String) : List UInt8 := text.toList.map fun c => c.toNat.toUInt8

/-- A schema, a document with two operations, and values of variables. -/
def files : FileLookup
  | "schema.graphql" => some (.file (bytesOf "type Query{hello:Int}"))
  | "hello.graphql" => some (.file (bytesOf "query A($n:Int!){hello} query B{hello}"))
  | "n.json" => some (.file (bytesOf "\x7b\"n\":1\x7d"))
  | _ => none

def query : FieldedType where
  name := "Query"
  fields := ⟨[{ name := "hello", type := .named "Int" }], by decide⟩

def schema : Schema where
  types := ⟨SchemaBuilder.builtinTypes.toList ++ [.object query], by decide⟩
  queryType := "Query"
  mutationType := none
  subscriptionType := none

/-- An operation that selects `hello`, given the columns of its name and of its braces. -/
def hello (name : String) (variableDefinitions : List VariableDefinition) (start braces : Nat) : Operation where
  kind := .query
  name := some name
  variableDefinitions := variableDefinitions
  selectionSet := ⟨[.field ⟨none, "hello", [], none, ⟨1, braces + 1⟩⟩], ⟨1, braces⟩⟩
  location := ⟨1, start⟩

def first : Operation := hello "A" [⟨"n", .nonNull (.named "Int"), none, ⟨1, 9⟩⟩] 1 17

def second : Operation := hello "B" [] 25 32

def document : Document := ⟨[.operation first, .operation second]⟩

/-- What the document is checked with. -/
def checkOptions : ValidateOptions :=
  { schemas := ["schema.graphql"], variablesFile := some "n.json", paths := ["hello.graphql"] }

/-- What the variables of an operation are coerced with. -/
def coerceOptions (operation : Operation) : CoerceOptions :=
  { schemas := ["schema.graphql"], operation := operation.name, document := "hello.graphql",
    variablesFile := some "n.json" }

theorem loadFile_document : Document.loadFile files "hello.graphql" = .ok document := by
  unfold document first second hello
  cbv

theorem outcome_loadSchema : outcome (loadSchema files ["schema.graphql"]) = .value schema := by
  unfold schema query
  cbv

theorem outcome_readVariables : outcome (readVariables files "n.json") = .value [("n", .ofInt 1)] := by
  cbv

theorem isValid_document : isValid (document.validate schema Rule.defaults) = true := rfl

theorem coercion_succeeds {operation : Operation} (h : operation ∈ document.operations) :
    (Command.coerceVariables (coerceOptions operation)).exitCode? files = some 0 := by
  have hvalues : ∃ values, schema.coerceVariables operation [("n", .ofInt 1)] = .value values := by
    rcases List.mem_cons.1 h with rfl | h
    · exact ⟨_, rfl⟩
    · rw [List.mem_singleton.1 h]
      exact ⟨_, rfl⟩
  rw [Command.exitCode?_eq_zero_iff]
  exact (@CoerceOptions.succeeds_iff files (coerceOptions operation) "n.json" document operation rfl
    loadFile_document h rfl).2
    ⟨schema, [("n", .ofInt 1)], outcome_loadSchema, outcome_readVariables, isValid_document, hvalues⟩

/-- The variables of both operations are coerced, so the document passes the check. -/
theorem both_commands_succeed :
    (Command.coerceVariables (coerceOptions first)).exitCode? files = some 0 ∧
      (Command.coerceVariables (coerceOptions second)).exitCode? files = some 0 ∧
      (Command.validate checkOptions).exitCode? files = some 0 := by
  obtain ⟨hagree, _⟩ := commands_agree files ["schema.graphql"] ["graphql", "gql"] "hello.graphql" "n.json"
    document loadFile_document (List.cons_ne_nil _ _)
  exact ⟨coercion_succeeds (List.mem_cons_self ..),
    coercion_succeeds (List.mem_cons_of_mem _ (List.mem_cons_self ..)),
    hagree.2 fun _ hop => coercion_succeeds hop⟩

/-- With a default that leads back to itself, neither command would have a result. -/
example : EndlessDefault (fun _ => some (.file (bytesOf "input A\x7ba:A=\x7b\x7d\x7dtype Query\x7bhello:Int\x7d")))
    ["schema.graphql"] :=
  outcome_loadSchema_eq_endless_iff.1 (by cbv)

end Greeting

end GraphQLCheck
