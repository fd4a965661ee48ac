import SchemaSnapshot.Snapshot
import SchemaSnapshot.Source

/-!
# Runs and what they make known

A run of the reader is followed from outside by three channels: listeners hear a message at the
start of each phase, the source is asked questions, and a log is kept. An `Event` is one item on any
of the channels. A `Traced ε α` is a finished run: the events it made, in order, and how it ended,
with a value or an error (a `ReadError`, where a snapshot is taken). Running one thing after another
appends the events of the second to those of the first, and an error keeps whatever was to follow
from running at all (`events_bind`, `outcome_bind`). The events made before an error stay.
-/

namespace SchemaSnapshot

/-! ### The log

While a database is read, a log records what was skipped, ignored, dropped and found. A `Notice`
is one such record; how urgent it is, its wording and the values that go with it are functions
of it. -/

/-- How urgent a record of the log is. -/
inductive Severity where
  | debug
  | info
  | warn
deriving DecidableEq, Inhabited

/-- The name of a severity. -/
def Severity.name : Severity → String
  | .debug => "DEBUG"
  | .info => "INFO"
  | .warn => "WARN"

/-- A record of the log. -/
inductive Notice where
  /-- A status message that goes to the log. -/
  | progress (message : String)
  | warned (warning : Warning)
  /-- An object that is not the user's. -/
  | objectExcluded (name : String)
  /-- An object that is neither a table nor a view. -/
  | objectIgnored (name kind : String)
  | containersRead (tables views : Nat)
  /-- An index row that does not say which index or which column. -/
  | indexRowSkipped (table : String)
  /-- An index that only keeps a primary key. -/
  | keyIndexDropped (table index : String)
  | snapshotComplete (tally : Tally)
  /-- A view whose columns could not be listed. -/
  | viewUnreadable (view error : String)
  /-- An index with an expression among its columns. -/
  | expressionIndexSkipped (table index : String)
  | catalogLoaded (objects columns : Nat)
deriving DecidableEq, Inhabited

namespace Notice

/-- How urgent a record is. -/
def severity : Notice → Severity
  | .progress _ => .info
  | .snapshotComplete _ => .info
  | .warned _ => .warn
  | .viewUnreadable _ _ => .warn
  | _ => .debug

/-- The wording of a record. -/
def message : Notice → String
  | .progress message => message
  | .warned warning => warning.message
  | .objectExcluded _ => "Skipping system or bookkeeping object"
  | .objectIgnored _ _ => "Ignoring object of unsupported kind"
  | .containersRead _ _ => "Read tables and views"
  | .indexRowSkipped _ => "Skipping index row without index or column name"
  | .keyIndexDropped _ _ => "Dropping primary key index"
  | .snapshotComplete _ => "Snapshot complete"
  | .viewUnreadable _ _ => "Skipping columns of unreadable view"
  | .expressionIndexSkipped _ _ => "Skipping index over expressions"
  | .catalogLoaded _ _ => "Loaded SQLite catalog"

/-- The values that go with a record, by name. -/
def fields : Notice → List (String × Json)
  | .progress _ => []
  | .warned _ => []
  | .objectExcluded name => [("name", encode name)]
  | .objectIgnored name kind => [("name", encode name), ("kind", encode kind)]
  | .containersRead tables views => [("tables", .int tables), ("views", .int views)]
  | .indexRowSkipped table => [("table", encode table)]
  | .keyIndexDropped table index => [("table", encode table), ("index", encode index)]
  | .snapshotComplete tally =>
    [("tables", .int tally.tables), ("views", .int tally.views),
     ("foreign_keys", .int tally.foreignKeys), ("indexes", .int tally.indexes),
     ("primary_keys", .int tally.primaryKeys), ("sequences", .int tally.sequences),
     ("warnings", .int tally.warnings)]
  | .viewUnreadable view error => [("view", encode view), ("error", encode error)]
  | .expressionIndexSkipped table index => [("table", encode table), ("index", encode index)]
  | .catalogLoaded objects columns => [("objects", .int objects), ("columns", .int columns)]

end Notice

/-! ### Why a snapshot could not be taken -/

/-- Why reading was given up. -/
inductive ReadError where
  /-- The source could not answer. -/
  | connectivity (cause : SourceError)
  /-- A foreign key names a table that is not in the snapshot. -/
  | referentialIntegrity (table column : String)
  /-- The columns of a key or index are not numbered from 1 without gaps. -/
  | invalidColumnPosition (object : String) (position : Int) (reason : String)
deriving DecidableEq, Inhabited

namespace ReadError

/-- The wording of a cause. -/
def message : ReadError → String
  | .connectivity cause => cause.message
  | .referentialIntegrity table column =>
    "Could not find table " ++ table ++ " for column " ++ column
  | .invalidColumnPosition object position reason =>
    "Invalid column position " ++ Text.decimal position ++ " in " ++ object ++ ": " ++ reason

/-- The source's own words, `none` where the source is not to blame. -/
def sourceText? : ReadError → Option String
  | .connectivity cause => some cause.cause
  | _ => none

end ReadError

/-! ### Events -/

/-- One thing that becomes known during a run. -/
inductive Event where
  /-- A listener hears a message. -/
  | status (listener message : String)
  /-- The source is asked. -/
  | asked (call : Call)
  /-- The log turns to the snapshot of a database. -/
  | opened (database dialect : String)
  /-- The log takes a record. -/
  | logged (notice : Notice)
deriving DecidableEq, Inhabited

/-- Who hears the status messages. -/
inductive Listener where
  /-- A listener of its own, known by a name. -/
  | named (name : String)
  /-- The log. -/
  | log
deriving DecidableEq, Inhabited

/-- The event of a listener hearing `message`. With the log as the listener it is a record. -/
def Listener.hear (message : String) : Listener → Event
  | .named name => .status name message
  | .log => .logged (.progress message)

/-- The six phases of reading a database, in the order in which they come. -/
inductive Phase where
  | tables
  | columns
  | foreignKeys
  | primaryKeys
  | indexes
  | sequences
deriving DecidableEq, Inhabited

/-- What a phase reads. -/
def Phase.subject : Phase → String
  | .tables => "tables"
  | .columns => "columns"
  | .foreignKeys => "foreign keys"
  | .primaryKeys => "primary keys"
  | .indexes => "indexes"
  | .sequences => "sequences"

/-- The message at the start of `phase`, for the database called `label`. -/
def Phase.message (phase : Phase) (label : String) : String :=
  "Reading " ++ phase.subject ++ " for " ++ label ++ " ..."

/-! ### Runs with a trace -/

/-- A finished run: the events it made and how it ended. -/
structure Traced (ε α : Type) where
  events : List Event
  outcome : Except ε α

namespace Traced

variable {ε α β : Type}

/-- A run that makes no event and ends with `a`. -/
def pure (a : α) : Traced ε α :=
  ⟨[], .ok a⟩

/-- `run`, and then `next` on its value. Nothing follows a run that ends with an error. -/
def bind (run : Traced ε α) (next : α → Traced ε β) : Traced ε β :=
  match run.outcome with
  | .ok a => ⟨run.events ++ (next a).events, (next a).outcome⟩
  | .error e => ⟨run.events, .error e⟩

instance : Monad (Traced ε) where
  pure := Traced.pure
  bind := Traced.bind

/-- A run that makes `events` and has no value. -/
def emit (events : List Event) : Traced ε Unit :=
  ⟨events, .ok ()⟩

/-- A run that puts one record into the log. -/
def log (notice : Notice) : Traced ε Unit :=
  emit [.logged notice]

/-- A run that is over at once, without any event. -/
def ofExcept (outcome : Except ε α) : Traced ε α :=
  ⟨[], outcome⟩

/-! ### Events and outcome of composite runs -/

theorem outcome_pure (a : α) : (Pure.pure a : Traced ε α).outcome = .ok a := rfl

theorem events_pure (a : α) : (Pure.pure a : Traced ε α).events = [] := rfl

/-- `outcome` is a homomorphism: the outcome of `run >>= next` does not depend on the events of
either. -/
theorem outcome_bind (run : Traced ε α) (next : α → Traced ε β) :
    (run >>= next).outcome = run.outcome >>= fun a => (next a).outcome := by
  show (run.bind next).outcome = _
  rw [Traced.bind]
  cases run.outcome <;> rfl

/-- The events of `run >>= next` are those of `run`, followed by those of `next` unless `run` ended
with an error. -/
theorem events_bind (run : Traced ε α) (next : α → Traced ε β) :
    (run >>= next).events =
      run.events ++ match run.outcome with
        | .ok a => (next a).events
        | .error _ => [] := by
  show (run.bind next).events = _
  rw [Traced.bind]
  cases run.outcome <;> simp

@[ext] theorem ext {run other : Traced ε α} (events : run.events = other.events)
    (outcome : run.outcome = other.outcome) : run = other := by
  cases run; cases other
  simp_all

instance : LawfulMonad (Traced ε) := LawfulMonad.mk' _
  (fun x => by
    cases x with
    | mk events outcome =>
      cases outcome <;> simp [Functor.map, Traced.bind, Traced.pure])
  (fun a f => by
    apply ext <;> simp [Bind.bind, Pure.pure, Traced.bind, Traced.pure])
  (fun x f g => by
    cases x with
    | mk events outcome =>
      cases outcome with
      | error e => rfl
      | ok a =>
        simp only [Bind.bind, Traced.bind]
        cases (f a).outcome <;> simp [List.append_assoc])

end Traced

end SchemaSnapshot
