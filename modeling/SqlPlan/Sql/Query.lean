import SqlPlan.Sql.Name

/-!
# Expressions and queries

The parsed form of an SQL query.  Expressions and queries contain each other: a query may stand
inside an expression, and expressions stand in every clause of a query.  A clause that a query does
not have is `none`; a list that is present and empty is something else than one that is absent.

The tree holds more than can be compiled.  What has no lowering is kept all the same, so that it
can be refused by name.
-/

namespace SqlPlan.Sql

/-! ### Words -/

/-- An operator in front of one operand. -/
inductive UnaryOp where
  | minus
  | plus
  | not
  | bitNot
deriving DecidableEq

/-- An operator between two operands.  Equality and inequality have two spellings each. -/
inductive BinaryOp where
  | concat
  | multiply
  | divide
  | modulo
  | add
  | subtract
  | shiftLeft
  | shiftRight
  | bitAnd
  | bitOr
  | less
  | lessEquals
  | greater
  | greaterEquals
  /-- `=` -/
  | equals
  /-- `==` -/
  | doubleEquals
  /-- `!=` -/
  | notEquals
  /-- `<>` -/
  | lessGreater
  | is
  | isNot
  | like
  | glob
  | and
  | or
deriving DecidableEq

/-- The quantifier of a select clause. -/
inductive Quantifier where
  | distinct
  | all
deriving DecidableEq

/-- How two queries are compounded. -/
inductive CompoundOp where
  | union
  | unionAll
  | intersect
  | except
deriving DecidableEq

/-- The kind of a join that a statement names. -/
inductive JoinWord where
  | left
  | leftOuter
  | right
  | full
  | inner
  | cross
deriving DecidableEq

/-- A join operator: a comma, or `JOIN` with the words in front of it. -/
inductive JoinOp where
  | comma
  | join (natural : Bool) (kind : Option JoinWord)
deriving DecidableEq

/-! ### Trees -/

mutual

/-- An expression. -/
inductive Expr where
  /-- The text of a literal token. -/
  | literal (text : String)
  | column (ref : ColumnRef)
  /-- A parameter to be bound when the statement runs. -/
  | parameter (name : String)
  | unary (op : UnaryOp) (operand : Expr)
  | binary (op : BinaryOp) (left right : Expr)
  /-- `operand [NOT] BETWEEN low AND high` -/
  | between (negated : Bool) (operand low high : Expr)
  /-- A function call, with its `FILTER` and `OVER` clauses. -/
  | call (name : String) (distinct : Bool) (args : Args) (filter : Option Expr)
      (window : Option Over)
  /-- Expressions between parentheses: a row, or with one entry a group. -/
  | row (items : List Expr)
  | cast (operand : Expr) (type : String)
  /-- `CASE`, with its operand, its branches from `WHEN` to `THEN`, and its `ELSE`. -/
  | caseWhen (operand : Option Expr) (branches : List (Expr × Expr)) (otherwise : Option Expr)
  /-- `operand [NOT] IN (items)` -/
  | inList (negated : Bool) (operand : Expr) (items : List Expr)
  /-- `EXISTS (query)` -/
  | existsIn (query : Select)
  /-- A query in the place of a value. -/
  | subquery (query : Select)

/-- The arguments of a function call. -/
inductive Args where
  | star
  | list (items : List Expr)

/-- The window of a function call, by name or in place. -/
inductive Over where
  | window (name : String)
  | definition (window : Window)

/-- A window. -/
structure Window where
  base : Option String := none
  partitionBy : List Expr := []
  orderBy : List OrderTerm := []

/-- A term of an `ORDER BY`. -/
structure OrderTerm where
  expr : Expr
  descending : Bool := false

/-- A query with its outer clauses. -/
structure Select where
  ctes : Option With := none
  core : Core
  compound : List Compound := []
  orderBy : Option (List OrderTerm) := none
  limit : Option Limit := none

/-- A `WITH` clause. -/
structure With where
  recursive : Bool := false
  tables : List Cte

/-- One table of a `WITH` clause. -/
structure Cte where
  name : String
  columns : List String := []
  query : Select

/-- A further core of a compound query. -/
structure Compound where
  op : CompoundOp
  core : Core

/-- A `LIMIT` clause with its `OFFSET`. -/
structure Limit where
  count : Expr
  offset : Option Expr := none

/-- The core of a query: a select clause, or rows of values. -/
inductive Core where
  | select (clause : Clause)
  | values (rows : List (List Expr))

/-- A select clause. -/
structure Clause where
  quantifier : Option Quantifier := none
  columns : List ResultColumn
  source : Option From := none
  filter : Option Expr := none
  groupBy : Option GroupBy := none
  windows : Option (List NamedWindow) := none

/-- A result column. -/
inductive ResultColumn where
  /-- `*` -/
  | star
  /-- `table.*` -/
  | tableStar (table : String)
  | expr (value : Expr) (label : Option String)

/-- A `GROUP BY` clause with its `HAVING`. -/
structure GroupBy where
  exprs : List Expr
  having : Option Expr := none

/-- A window of a `WINDOW` clause. -/
structure NamedWindow where
  name : String
  definition : Window

/-- A `FROM` clause: a list of sources, or a source with others joined to it. -/
inductive From where
  | tables (sources : List Source)
  | join (first : Source) (parts : List JoinPart)

/-- One source of a `FROM` clause. -/
inductive Source where
  | table (name : TableName)
  | subquery (query : Select) (label : Option String)
  | function (name : QualifiedName) (args : List Expr) (label : Option String)
  /-- A `FROM` clause between parentheses. -/
  | nested (clause : From)

/-- One join of a `FROM` clause: the operator, what is joined, and on what condition. -/
structure JoinPart where
  op : JoinOp
  source : Source
  constraint : Option JoinConstraint := none

/-- The condition of a join. -/
inductive JoinConstraint where
  /-- `ON condition` -/
  | condition (value : Expr)
  /-- `USING (columns)` -/
  | columns (names : List String)

end

/-! ### Building queries step by step -/

/-- A plain table. -/
def TableName.ofName (name : String) : TableName := { name := name }

namespace Clause

/-- A select clause of result columns alone. -/
def ofColumns (columns : List ResultColumn) : Clause := { columns := columns }

/-- The clause made distinct. -/
def distinct (c : Clause) : Clause := { c with quantifier := some .distinct }

end Clause

namespace Select

/-- A query of a core alone. -/
def ofCore (core : Core) : Select := { core := core }

/-- A query of a select clause alone. -/
def ofClause (clause : Clause) : Select := ofCore (.select clause)

end Select

end SqlPlan.Sql
