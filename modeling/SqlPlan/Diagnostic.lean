import SqlPlan.Sql.Statement

/-!
# Diagnostics

Why a statement is refused.  Lowering stops at the first offence it meets, so a refused statement
has one diagnostic; a batch of statements collects the diagnostics of all of them in a report.

There are two kinds of diagnostic.  A construct may be *unsupported*: it is well formed, but no
lowering is defined for it.  A clause may be *invalid*: its parts do not fit together.  Both name the
clause as their context.
-/

namespace SqlPlan

/-- Why a statement is refused. -/
inductive Diagnostic where
  | unsupported (context : String)
  | invalid (context : String) (message : String)
deriving DecidableEq

namespace Diagnostic

/-- The clause that the diagnostic is about. -/
def context : Diagnostic → String
  | unsupported context => context
  | invalid context _ => context

/-- Whether the statement is merely not supported. -/
def isUnsupported : Diagnostic → Bool
  | unsupported _ => true
  | invalid _ _ => false

/-- The text of the diagnostic. -/
def text : Diagnostic → String
  | unsupported context => context ++ ": unsupported"
  | invalid context message => context ++ ": " ++ message

end Diagnostic

/-! ### Constructs without a lowering -/

/-- A construct for which no lowering is defined. -/
inductive Construct where
  | parameter
  | functionFilter
  | overWindow
  | functionStar
  | distinctFunction
  | row
  | cast
  | caseWhen
  | inList
  | existsIn
  /-- A query in the place of a value or of a table. -/
  | subquery
  | tableFunction
  | rightJoin
  | fullJoin
  /-- A join on columns of the same name. -/
  | joinColumns
  | window
  | group
  | ctes
  | compound
  | order
  | upsert
  | create (kind : Sql.CreateKind)
  | alterTable
  | transaction
  | vacuum
  | analyze
  | pragma
deriving DecidableEq

namespace Construct

/-- The context under which the construct is refused. -/
def context : Construct → String
  | parameter => "bind parameter"
  | functionFilter => "filter"
  | overWindow => "over"
  | functionStar => "function star"
  | distinctFunction => "distinct on function"
  | row => "row value"
  | cast => "cast"
  | caseWhen => "case"
  | inList => "in"
  | existsIn => "exists"
  | subquery => "subquery"
  | tableFunction => "table function"
  | rightJoin => "right join"
  | fullJoin => "full join"
  | joinColumns => "join"
  | window => "window"
  | group => "group"
  | ctes => "with"
  | compound => "compound select"
  | order => "order"
  | upsert => "upsert"
  | create .table => "create table"
  | create .virtualTable => "create virtual table"
  | create .index => "create index"
  | create .trigger => "create trigger"
  | create .view => "create view"
  | alterTable => "alter table"
  | transaction => "transaction"
  | vacuum => "vacuum"
  | analyze => "analyze"
  | pragma => "pragma"

end Construct

namespace Diagnostic

/-- The diagnostic of a construct without a lowering. -/
def ofConstruct (c : Construct) : Diagnostic := unsupported c.context

/-! ### Clauses whose parts do not fit together -/

/-- Rows of values of different lengths. -/
def unevenRows : Diagnostic := invalid "values" "all VALUES must have the same number of terms"

/-- A `FROM` clause without any table. -/
def noTables : Diagnostic := invalid "from" "no tables to select from"

/-- Rows of values that do not match the columns they are put into. -/
def widthMismatch (values columns : Nat) : Diagnostic :=
  invalid "insert" (values.repr ++ " values for " ++ columns.repr ++ " columns")

end Diagnostic

/-! ### Reports -/

/-- The diagnostics of several statements, in order. -/
structure Report where
  diagnostics : List Diagnostic := []
deriving DecidableEq

namespace Report

/-- The report of one diagnostic. -/
def ofDiagnostic (d : Diagnostic) : Report := ⟨[d]⟩

/-- The report with one more diagnostic at its end. -/
def push (r : Report) (d : Diagnostic) : Report := ⟨r.diagnostics ++ [d]⟩

/-- The number of diagnostics. -/
def size (r : Report) : Nat := r.diagnostics.length

/-- Whether there is nothing to report. -/
def isEmpty (r : Report) : Bool := r.diagnostics.isEmpty

/-- The text of a report: nothing, the one diagnostic, or a heading and a line for each. -/
def text (r : Report) : String :=
  match r.diagnostics with
  | [] => ""
  | [d] => d.text
  | ds => "multiple errors:" ++ String.join (ds.map fun d => "\n\t" ++ d.text)

/-- Success if there is nothing to report. -/
def toExcept (r : Report) : Except Report Unit := if r.isEmpty then .ok () else .error r

end Report

end SqlPlan
