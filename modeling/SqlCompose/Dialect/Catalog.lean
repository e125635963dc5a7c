import SqlCompose.Dialect.Basic

/-! The dialects known by name, and dialects made from others by changing single answers. -/

namespace SqlCompose

namespace Dialect

def doubleQuotes : QuotePair := ⟨'\x22', '\x22'⟩

/-- What most dialects have in common. It has no upsert and no row locks. -/
def standard (name : String) : Dialect where
  name
  quotes := doubleQuotes
  placeholder := .fixed "?"
  escapeSequence := "\\"
  wildcards := ['%', '_']
  literals := .standard
  paging := .limitOffset none
  locking := .refusedBy name
  nullsOrdering := true
  multiRowInsert := true
  batchGeneratedKeys := true
  returning := false
  rowValueInList := true
  rowValueInSubQuery := true
  conflict := .absent

def postgres : Dialect :=
  { standard "postgres" with
    placeholder := .numbered "$"
    literals := { LiteralStyle.standard with bytesOpening := "'\\x" }
    locking := .supported
    returning := true
    conflict := .onConflict }

/-- The largest row count stands for no limit. -/
def mySql : Dialect :=
  { standard "mysql" with
    quotes := ⟨'\x60', '\x60'⟩
    paging := .limitOffset (some 18446744073709551615)
    locking := .supported
    nullsOrdering := false
    conflict := .onDuplicateKey }

/-- A row value needs a sub-query on the right of `in`. -/
def sqlite : Dialect :=
  { standard "sqlite" with
    paging := .limitOffset (some (-1))
    batchGeneratedKeys := false
    returning := true
    rowValueInList := false
    conflict := .onConflict }

def h2 : Dialect :=
  { standard "h2" with
    locking := .supported
    conflict := .merge false }

/-- A bracket opens a character class in a LIKE pattern. -/
def sqlServer : Dialect :=
  { standard "sqlserver" with
    quotes := ⟨'[', ']'⟩
    wildcards := ['%', '_', '[']
    literals := { trueText := "1", falseText := "0", textOpening := "N'", bytesOpening := "X'" }
    paging := .offsetFetch
    nullsOrdering := false
    batchGeneratedKeys := false
    rowValueInList := false
    rowValueInSubQuery := false
    conflict := .merge true }

/-- For display, without a database. -/
def dryRun : Dialect :=
  { standard "dry_run" with
    locking := .supported }

end Dialect

/-- A dialect as configuration files name it. -/
inductive DialectKind where
  | postgres
  | mySql
  | sqlite
  | h2
  | sqlServer
  | dryRun
deriving DecidableEq, Repr

namespace DialectKind

def all : List DialectKind := [.postgres, .mySql, .sqlite, .h2, .sqlServer, .dryRun]

def key : DialectKind → String
  | .postgres => "postgres"
  | .mySql => "my_sql"
  | .sqlite => "sqlite"
  | .h2 => "h2"
  | .sqlServer => "sql_server"
  | .dryRun => "dry_run"

def ofKey? (key : String) : Option DialectKind := all.find? (·.key == key)

def dialect : DialectKind → Dialect
  | .postgres => .postgres
  | .mySql => .mySql
  | .sqlite => .sqlite
  | .h2 => .h2
  | .sqlServer => .sqlServer
  | .dryRun => .dryRun

end DialectKind

/-- The answers that a derived dialect changes. LIKE wildcards, literals, paging and locking stay
those of the base. -/
structure DialectOverrides where
  placeholder : Option String := none
  escapeSequence : Option String := none
  quotes : Option QuotePair := none
  nullsOrdering : Option Bool := none
  multiRowInsert : Option Bool := none
  batchGeneratedKeys : Option Bool := none
  returning : Option Bool := none
  rowValueInList : Option Bool := none
  rowValueInSubQuery : Option Bool := none
  conflict : Option ConflictSyntax := none

namespace Dialect

/-- The dialect of that name which differs from its base in the given answers. -/
def derive (base : Dialect) (name : String) (o : DialectOverrides) : Dialect :=
  { base with
    name
    placeholder := match o.placeholder with
      | some lead => .numbered lead
      | none => base.placeholder
    escapeSequence := o.escapeSequence.getD base.escapeSequence
    quotes := o.quotes.getD base.quotes
    nullsOrdering := o.nullsOrdering.getD base.nullsOrdering
    multiRowInsert := o.multiRowInsert.getD base.multiRowInsert
    batchGeneratedKeys := o.batchGeneratedKeys.getD base.batchGeneratedKeys
    returning := o.returning.getD base.returning
    rowValueInList := o.rowValueInList.getD base.rowValueInList
    rowValueInSubQuery := o.rowValueInSubQuery.getD base.rowValueInSubQuery
    conflict := o.conflict.getD base.conflict }

end Dialect

end SqlCompose
