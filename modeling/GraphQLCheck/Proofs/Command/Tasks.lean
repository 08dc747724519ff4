/-
  GraphQLCheck.Proofs.Command.Tasks
  ─────────────────────────────────
  What tasks come to, whatever they log, and which of them have an end.

  A command is made of tasks.  What a task comes to is what remains of it without its records: a value, the
  error that ends it, or nothing, ever.  Tasks that follow each other come to what the last one comes to, if
  each of those before it ends with a value.

  Reading files and checking documents has an end in any case, and evaluations have one where those of the
  defaults have.  A schema is taken from files only once its defaults are evaluated.  So this is the one place
  where a command may go on for ever, and what comes after it ends.

  Main facts:
    * `Task.outcome_bind`                       — tasks that follow each other
    * `Task.Ends.bind`                          — they have an end if each of them has
    * `outcome_loadSchema_eq_endless_iff`       — a schema is taken from files for ever exactly if the evaluation of
                                                  one of its defaults has no end
    * `ValidateOptions.ends_run`, `CoerceOptions.ends_run` — a command ends if it gets its schema, or an error
-/
import GraphQLCheck.Command.Program
import GraphQLCheck.Proofs.Coercion.Variables
import GraphQLCheck.Proofs.Shape.Registry

namespace GraphQLCheck

/-! ## §1. What tasks come to. -/

namespace Task

/-- What a task comes to, apart from what it logs. -/
def outcome (task : Task α) : Outcome CommandError α := task.run.value

/-- Tasks that follow each other come to what the last one comes to, if each before it ends with a value. -/
theorem outcome_bind (task : Task α) (next : α → Task β) :
    outcome (task >>= next) = outcome task >>= fun value => outcome (next value) := by
  show (task.run >>= _).value = _
  rw [Logged.value_bind]
  unfold outcome
  cases task.run.value <;> rfl

theorem outcome_bind_eq_value_iff {task : Task α} {next : α → Task β} {result : β} :
    outcome (task >>= next) = .value result ↔
      ∃ value, outcome task = .value value ∧ outcome (next value) = .value result := by
  rw [outcome_bind, Outcome.bind_eq_value_iff]

@[simp] theorem outcome_pure (value : α) : outcome (pure value) = .value value := rfl

@[simp] theorem outcome_log (level : LogLevel) (message : String) : outcome (log level message) = .value () := rfl

@[simp] theorem outcome_lift (computation : Logged α) : outcome (lift computation) = .value computation.value :=
  rfl

theorem outcome_ofOutcome_eq_value_iff {error : ε → CommandError} {computation : Logged (Outcome ε α)}
    {value : α} : outcome (ofOutcome error computation) = .value value ↔ computation.value = .value value :=
  Outcome.mapFailure_eq_value_iff

theorem outcome_ofLogged_eq_value_iff {error : ε → CommandError} {computation : Logged (Except ε α)} {value : α} :
    outcome (ofLogged error computation) = .value value ↔ computation.value = .ok value := by
  unfold ofLogged
  rw [outcome_ofOutcome_eq_value_iff, Logged.value_bind, Logged.value_pure]
  cases computation.value <;> simp [Outcome.ofExcept]

/-! ## §2. Tasks that have an end. -/

/-- A task comes to a value or to an error. -/
def Ends (task : Task α) : Prop := outcome task ≠ .endless

theorem ends_pure (value : α) : (pure value : Task α).Ends := nofun

theorem ends_fail (error : CommandError) : (fail error : Task α).Ends := nofun

theorem ends_log (level : LogLevel) (message : String) : (log level message).Ends := nofun

theorem ends_lift (computation : Logged α) : (lift computation).Ends := nofun

theorem ends_ofOutcome {error : ε → CommandError} {computation : Logged (Outcome ε α)}
    (h : computation.value ≠ .endless) : (ofOutcome error computation).Ends :=
  mt Outcome.mapFailure_eq_endless_iff.1 h

theorem ends_ofLogged {error : ε → CommandError} (computation : Logged (Except ε α)) :
    (ofLogged error computation).Ends := by
  apply ends_ofOutcome
  rw [Logged.value_bind, Logged.value_pure]
  cases computation.value <;> exact nofun

theorem ends_ofExcept {error : ε → CommandError} (result : Except ε α) : (ofExcept error result).Ends :=
  ends_ofLogged _

theorem ends_settle {computation : Logged (Outcome ε α)} (h : computation.value ≠ .endless) :
    (settle computation).Ends := by
  show computation.value.settle ≠ .endless
  cases hvalue : computation.value with
  | value value => exact nofun
  | failure error => exact nofun
  | endless => exact absurd hvalue h

/-- Tasks that follow each other have an end if each of them has. -/
theorem Ends.bind {task : Task α} {next : α → Task β} (h : task.Ends)
    (hnext : ∀ value, outcome task = .value value → (next value).Ends) : (task >>= next).Ends := by
  unfold Ends
  rw [outcome_bind]
  cases hvalue : outcome task with
  | value value => exact hnext value hvalue
  | failure error => exact nofun
  | endless => exact absurd hvalue h

theorem ends_forM {f : α → Task Unit} {l : List α} (h : ∀ a ∈ l, (f a).Ends) : (l.forM f).Ends := by
  induction l with
  | nil => exact ends_pure ()
  | cons a l ih =>
    show (f a >>= fun _ => l.forM f).Ends
    exact (h a (List.mem_cons_self ..)).bind fun _ _ => ih fun b hb => h b (List.mem_cons_of_mem _ hb)

theorem ends_foldlM {step : β → α → Task β} {l : List α} (h : ∀ b, ∀ a ∈ l, (step b a).Ends) (b : β) :
    (l.foldlM step b).Ends := by
  induction l generalizing b with
  | nil => exact ends_pure b
  | cons a l ih =>
    rw [List.foldlM_cons]
    exact (h b a (List.mem_cons_self ..)).bind fun b' _ => ih (fun b a ha => h b a (List.mem_cons_of_mem _ ha)) b'

theorem ends_mapM {f : α → Task β} {l : List α} (h : ∀ a ∈ l, (f a).Ends) : (l.mapM f).Ends := by
  induction l with
  | nil => exact ends_pure []
  | cons a l ih =>
    rw [List.mapM_cons]
    exact (h a (List.mem_cons_self ..)).bind fun _ _ =>
      (ih fun b hb => h b (List.mem_cons_of_mem _ hb)).bind fun _ _ => ends_pure _

end Task

open GraphQLCheck.Task (outcome)

/-! ## §3. Schemas. -/

/-- Files define a schema, and the evaluation of one of its defaults has no end. -/
def EndlessDefault (files : FileLookup) (paths : List String) : Prop :=
  ∃ schema, outcome (definedSchema files paths) = .value schema ∧ ¬ schema.DefaultsEnd

section Schemas

variable {files : FileLookup} {paths : List String}

/-- Apart from what is logged, a schema is taken from files if they define one and its defaults are evaluated. -/
theorem outcome_loadSchema (files : FileLookup) (paths : List String) :
    outcome (loadSchema files paths) =
      outcome (definedSchema files paths) >>= fun schema => schema.evaluateDefaults.map fun _ => schema := by
  unfold loadSchema
  rw [Task.outcome_bind]
  congr 1
  funext schema
  rw [Task.outcome_bind]
  show schema.evaluateDefaults.mapFailure id >>= (fun _ => .value schema) = _
  cases (schema.evaluateDefaults : Outcome CommandError Unit) <;> rfl

theorem outcome_loadSchema_eq_value_iff {schema : Schema} : outcome (loadSchema files paths) = .value schema ↔
    outcome (definedSchema files paths) = .value schema ∧ schema.DefaultsEnd := by
  simp only [outcome_loadSchema, Outcome.bind_eq_value_iff, Outcome.map_eq_value_iff]
  constructor
  · rintro ⟨schema', hdefined, _, hends, rfl⟩
    exact ⟨hdefined, Schema.evaluateDefaults_eq_value_iff.1 hends⟩
  · rintro ⟨hdefined, hends⟩
    exact ⟨schema, hdefined, (), Schema.evaluateDefaults_eq_value_iff.2 hends, rfl⟩

theorem ends_loadSchemaFile (builder : SchemaBuilder) (path : String) :
    (loadSchemaFile files builder path).Ends := by
  refine (Task.ends_ofLogged _).bind fun text _ => (Task.ends_log _ _).bind fun _ _ => ?_
  refine (Task.ends_ofExcept _).bind fun definitions _ => ?_
  exact (Task.ends_forM fun _ _ => Task.ends_log _ _).bind fun _ _ => Task.ends_ofExcept _

theorem ends_definedSchema : (definedSchema files paths).Ends :=
  (Task.ends_foldlM (fun builder path _ => ends_loadSchemaFile builder path) .empty).bind fun _ _ =>
    Task.ends_ofExcept _

/-- **A schema is taken from files for ever exactly if they define one with a default without an end.** -/
theorem outcome_loadSchema_eq_endless_iff :
    outcome (loadSchema files paths) = .endless ↔ EndlessDefault files paths := by
  unfold EndlessDefault
  rw [outcome_loadSchema]
  cases hdefined : outcome (definedSchema files paths) with
  | value schema =>
    rw [Outcome.bind_value, Outcome.map_eq_endless_iff, Schema.evaluateDefaults_eq_endless_iff]
    simp
  | failure error => simp
  | endless =>
    -- nothing is evaluated before there is a schema
    exact absurd hdefined ends_definedSchema

theorem ends_readVariables (path : String) : (readVariables files path).Ends := by
  refine (Task.ends_ofLogged _).bind fun text _ => ?_
  cases Json.readObject? text with
  | some values => exact Task.ends_pure values
  | none => exact Task.ends_fail _

end Schemas

/-! ## §4. Commands. -/

section Problems

variable {schema : Schema} {path : String}

theorem value_coercedVariables (schema : Schema) (operation : Operation) (inputs : Variables) :
    (coercedVariables schema operation inputs).value = schema.coerceVariables operation inputs := by
  unfold coercedVariables
  cases schema.coerceVariables operation inputs <;> rfl

theorem ends_variableProblems (h : schema.DefaultsEnd) (inputs : Variables) (operations : List Operation) :
    (variableProblems schema path inputs operations).Ends := by
  induction operations with
  | nil => exact Task.ends_pure []
  | cons op operations ih =>
    refine Task.Ends.bind ?_ fun result _ => ih.bind fun _ _ => ?_
    · apply Task.ends_settle
      rw [value_coercedVariables]
      exact h.coerceVariables_ne_endless op inputs
    · cases result <;> exact Task.ends_pure _

theorem ends_documentProblems (h : schema.DefaultsEnd) (inputs : Option Variables) (document : Document) :
    (documentProblems schema path inputs document).Ends := by
  refine (Task.ends_lift _).bind fun errors _ => ?_
  cases inputs with
  | none => exact Task.ends_pure _
  | some inputs =>
    show Task.Ends (if isValid errors then _ else _)
    split
    · exact ends_variableProblems h inputs document.operations
    · exact Task.ends_pure _

theorem ends_fileProblems (h : schema.DefaultsEnd) (inputs : Option Variables) (found : List FoundFile) :
    (fileProblems schema inputs found).Ends := by
  induction found with
  | nil => exact Task.ends_pure _
  | cons file others ih =>
    refine (Task.ends_lift _).bind fun document? _ => ?_
    cases document? with
    | error cause => exact ih.bind fun _ _ => Task.ends_pure _
    | ok document =>
      exact (ends_documentProblems h inputs document).bind fun _ _ => ih.bind fun _ _ => Task.ends_pure _

end Problems

namespace ValidateOptions

variable {files : FileLookup} {options : ValidateOptions}

theorem ends_entries : (options.entries files).Ends := by
  refine (Task.ends_mapM fun path _ => ?_).bind fun _ _ => Task.ends_pure _
  cases files path with
  | none => exact Task.ends_fail _
  | some node => exact (Task.ends_forM fun _ _ => Task.ends_log _ _).bind fun _ _ => Task.ends_pure _

theorem ends_findDocuments : (options.findDocuments files).Ends := by
  refine (Task.ends_log _ _).bind fun _ _ => ends_entries.bind fun entries _ => ?_
  -- the documents, and what else there is
  split
  split
  · exact (Task.ends_log _ _).bind fun _ _ => Task.ends_pure _
  · exact Task.ends_pure _

theorem ends_readInputs : (options.readInputs files).Ends := by
  unfold readInputs
  cases options.variablesFile with
  | none => exact Task.ends_pure none
  | some path =>
    exact (ends_readVariables path).bind fun _ _ => (Task.ends_log _ _).bind fun _ _ => Task.ends_pure _

/-- **The check of documents ends if it gets its schema, or an error.** -/
theorem ends_run (h : (loadSchema files options.schemas).Ends) : (options.run files).Ends := by
  refine ends_findDocuments.bind fun found _ => (Task.ends_log _ _).bind fun _ _ =>
    h.bind fun schema hschema => ends_readInputs.bind fun inputs _ => ?_
  -- a schema that is there has its defaults behind it
  have hdefaults := (outcome_loadSchema_eq_value_iff.1 hschema).2
  refine (ends_fileProblems hdefaults inputs found.1).bind fun (operationCount, problems) _ => ?_
  show Task.Ends (if problems.isEmpty then _ else _)
  split <;> exact Task.ends_pure _

/-- Once the documents are found, the schema is next. -/
theorem outcome_run_eq_endless_iff {found : List FoundFile × Nat}
    (hfound : outcome (options.findDocuments files) = .value found) :
    outcome (options.run files) = .endless ↔ EndlessDefault files options.schemas := by
  rw [← outcome_loadSchema_eq_endless_iff]
  constructor
  · exact fun h => Classical.byContradiction fun hends => ends_run hends h
  · intro h
    unfold run
    rw [Task.outcome_bind, hfound, Outcome.bind_value, Task.outcome_bind, Task.outcome_log, Outcome.bind_value,
      Task.outcome_bind, h]
    rfl

end ValidateOptions

namespace CoerceOptions

variable {files : FileLookup} {options : CoerceOptions}

theorem ends_readInputs : (options.readInputs files).Ends := by
  unfold readInputs
  cases options.variablesFile with
  | none => exact Task.ends_pure []
  | some path => exact ends_readVariables path

/-- **The coercion of variables ends if it gets its schema, or an error.** -/
theorem ends_run (h : (loadSchema files options.schemas).Ends) : (options.run files).Ends := by
  refine h.bind fun schema hschema => (Task.ends_ofLogged _).bind fun document _ =>
    (Task.ends_lift _).bind fun errors _ => ?_
  have hdefaults := (outcome_loadSchema_eq_value_iff.1 hschema).2
  split
  · exact Task.ends_pure _
  · split
    · exact Task.ends_pure _
    · refine ends_readInputs.bind fun inputs _ => Task.Ends.bind ?_ fun _ _ => Task.ends_pure _
      apply Task.ends_ofOutcome
      rw [value_coercedVariables]
      exact hdefaults.coerceVariables_ne_endless _ inputs

theorem outcome_run_eq_endless_iff :
    outcome (options.run files) = .endless ↔ EndlessDefault files options.schemas := by
  rw [← outcome_loadSchema_eq_endless_iff]
  constructor
  · exact fun h => Classical.byContradiction fun hends => ends_run hends h
  · intro h
    unfold run
    rw [Task.outcome_bind, h]
    rfl

end CoerceOptions

end GraphQLCheck
