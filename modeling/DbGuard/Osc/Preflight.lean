import DbGuard.Osc.Copy
import DbGuard.PyText
import Mathlib.Algebra.Group.Nat.Defs

/-!
# `DbGuard.Osc.Preflight`: which ALTERs are let through

The data of `osc/table.py` and of `AlterSpec`, and the two checks of `osc/runner.py` before
anything is copied. `preflight` reads the table and the clauses of the ALTER. `validateShadow`
compares the altered shadow with the table and says which columns are copied and which are
compared by the checksum.

`Change` is an ALTER with its two tables. `Change.alter` is what the copy of `DbGuard.Osc.Copy`
does for it: a row gives each column a value or NULL, the copy columns are taken over, and a
UNIQUE index ignores the rows with a NULL in it. `CRC32(CONCAT_WS(..))` over the checksum
columns is a parameter.

Names are compared in lower case, which is exact for ASCII.
-/

set_option autoImplicit false

namespace DbGuard.Osc

/-! ### Tables -/

/-- `class Column`. -/
structure Column where
  name : String
  columnType : String
  nullable : Bool
  default : Option String
  extra : String
deriving DecidableEq

/-- `class TableInfo`. -/
structure TableInfo where
  db : String
  name : String
  exists_ : Bool := true
  columns : List Column := []
  pk : List String := []
  hasFulltext : Bool := false
  uniqueNonPk : List String := []
  triggers : List String := []
  fks : List String := []
  rowFormat : Option String := none
  engine : Option String := none
  rowsEst : Nat := 0
  dataBytes : Nat := 0
  indexBytes : Nat := 0
  totalRowVersions : Option Nat := none

/-- `s.lower()`. -/
def lower (s : String) : List Char := Py.lower s.toList

/-- `s.upper()` of ASCII text. -/
def upper (s : String) : List Char := s.toList.map Char.toUpper

/-- `part in text`. -/
def isIn (part : String) (text : List Char) : Bool := part.toList <:+: text

/-- `Column.generated`. -/
def Column.generated (c : Column) : Bool :=
  isIn "GENERATED" (upper c.extra) && !isIn "DEFAULT_GENERATED" (upper c.extra)

/-- `Column.auto_increment`. -/
def Column.autoIncrement (c : Column) : Bool := isIn "auto_increment" (lower c.extra)

/-- `TableInfo.col`. -/
def TableInfo.col (t : TableInfo) (name : String) : Option Column :=
  t.columns.find? fun c => lower c.name = lower name

/-- `SHADOW_PREFIX`. -/
def shadowPrefix : String := "__osc_new_"

/-- `OLD_PREFIX`. -/
def oldPrefix : String := "__osc_old_"

/-- `TRIGGER_PREFIX`. -/
def triggerPrefix : String := "__osc_"

/-- `MAX_TABLE_NAME`. -/
def maxTableName : Nat := 64 - shadowPrefix.length

/-- `osc_triggers`. -/
def oscTriggers (t : TableInfo) : List String :=
  t.triggers.filter fun n => triggerPrefix.toList.isPrefixOf n.toList

/-! ### Clauses -/

/-- `Clause.kind`. -/
inductive ClauseKind
  | addColumn
  | addIndex
  | addPk
  | addFulltext
  | addGenerated
  | dropColumn
  | dropPk
  | dropIndex
  | modify
  | change
  | renameColumn
  | renameTable
  | algorithm
  | other
deriving DecidableEq

/-- The text of a kind. -/
def ClauseKind.text : ClauseKind → String
  | addColumn => "add_column"
  | addIndex => "add_index"
  | addPk => "add_pk"
  | addFulltext => "add_fulltext"
  | addGenerated => "add_generated"
  | dropColumn => "drop_column"
  | dropPk => "drop_pk"
  | dropIndex => "drop_index"
  | modify => "modify"
  | change => "change"
  | renameColumn => "rename_column"
  | renameTable => "rename_table"
  | algorithm => "algorithm"
  | other => "other"

/-- `class Clause`. -/
structure Clause where
  text : String
  kind : ClauseKind
  column : Option String := none
  positioned : Bool := false
  unique : Bool := false

/-- `class AlterSpec`. -/
structure AlterSpec where
  text : String
  clauses : List Clause := []

/-- `class InstantVerdict`. -/
structure InstantVerdict where
  ok : Bool
  reason : String

/-- `instant_verdict`. -/
def instantVerdict (spec : AlterSpec) (hasFulltext : Bool) (rowFormat : Option String)
    (totalRowVersions : Option Nat) : InstantVerdict :=
  let kinds := (spec.clauses.map (·.kind)).dedup
  let names := (kinds.map (·.text)).mergeSort (fun a b => a ≤ b)
  if spec.clauses.isEmpty then ⟨false, "empty ALTER"⟩
  else if kinds ≠ [.addColumn] then
    ⟨false, "not only ADD COLUMN (" ++ ", ".intercalate names ++ ")"⟩
  else if spec.clauses.any (·.positioned) then ⟨false, "ADD COLUMN uses AFTER or FIRST"⟩
  else if hasFulltext then ⟨false, "table has a FULLTEXT index"⟩
  else if upper (rowFormat.getD "") = "COMPRESSED".toList then
    ⟨false, "table is ROW_FORMAT=COMPRESSED"⟩
  else
    match totalRowVersions.filter (64 ≤ ·) with
    | some v =>
      ⟨false, s!"table already has {v} row versions (INSTANT allows 64, rebuild first)"⟩
    | none => ⟨true, "only ADD COLUMN at the end, no FULLTEXT index"⟩

/-! ### Preflight -/

/-- `class Preflight`. -/
structure Preflight where
  errors : List String
  warnings : List String := []
  instant : Option InstantVerdict := none

/-- `Preflight.ok`. -/
def Preflight.ok (p : Preflight) : Bool := p.errors.isEmpty

/-- `f"{n / 2**20:.0f}"`. -/
def mebibytes (n : Nat) : Nat :=
  let q := n / 2 ^ 20
  let r := n % 2 ^ 20
  if 2 * r < 2 ^ 20 then q else if 2 ^ 20 < 2 * r then q + 1 else q + q % 2

/-- An error that is there when a condition holds. -/
def errorIf (b : Bool) (e : String) : List String := if b then [e] else []

/-- The errors of one clause. -/
def clauseErrors (t : TableInfo) (c : Clause) : List String :=
  let touchesPk := c.column.any fun col => col ≠ "" && t.pk.any fun k => lower k = lower col
  match c.kind with
  | .dropPk | .addPk => [s!"`{c.text}` changes the PRIMARY KEY, the copy needs a stable one"]
  | .renameColumn | .renameTable =>
    [s!"`{c.text}` renames, which the column mapping of the copy does not follow. " ++
      "Rename in a separate native ALTER (it is INSTANT)"]
  | .dropColumn | .modify | .change =>
    let column := c.column.getD ""
    errorIf touchesPk s!"`{c.text}` touches primary key column {column}"
  | .addColumn =>
    let column := c.column.getD ""
    errorIf (c.column.any fun col => col ≠ "" && (t.col col).isSome)
      s!"column {column} already exists"
  | _ => []

/-- The warning of a clause. -/
def clauseWarnings (c : Clause) : List String :=
  errorIf (c.kind = .addIndex && c.unique)
    (s!"`{c.text}` adds a UNIQUE index. INSERT IGNORE would drop duplicate rows silently, " ++
      "the checksum's row counts catch it and abort the change")

/-- `preflight`. -/
def preflight (t : TableInfo) (spec : AlterSpec) (shadow old : Option TableInfo)
    (readOnly : Bool) (datadir : Option String) : Preflight :=
  let serverErrors := errorIf readOnly
    ("server is read-only (super_read_only or read_only is 1). Point --host " ++
      "at the primary, `dbgctl status` shows which node it is")
  if !t.exists_ then { errors := serverErrors ++ [s!"table {t.db}.{t.name} does not exist"] }
  else
    let leftover := oscTriggers t
    let engine := t.engine.getD "None"
    let leftoverText := ", ".intercalate leftover
    let triggersText := ", ".intercalate t.triggers
    let fksText := ", ".intercalate t.fks
    let shadowText := (shadow.map (·.name)).getD ""
    let oldText := (old.map (·.name)).getD ""
    let triggerErrors :=
      if leftover ≠ [] then
        [s!"leftover osc triggers from an earlier run: {leftoverText}" ++
          ". Run `dbgctl osc cleanup` first"]
      else errorIf (t.triggers ≠ [])
        (s!"table already has triggers ({triggersText}), this tool " ++
          "adds its own and does not merge with existing ones")
    let size := t.dataBytes + t.indexBytes
    let mib := mebibytes size
    let dir := (datadir.filter (· ≠ "")).getD "?"
    { errors :=
        serverErrors ++
        errorIf (maxTableName < t.name.length)
          (s!"table name longer than {maxTableName} characters, the shadow and " ++
            "trigger names would not fit in 64") ++
        errorIf (upper (t.engine.getD "") ≠ "INNODB".toList)
          s!"engine is {engine}, only InnoDB is supported" ++
        errorIf (t.pk = [])
          "table has no PRIMARY KEY, the chunked copy and the triggers need one" ++
        triggerErrors ++
        errorIf (shadow.any (·.exists_))
          (s!"shadow table {shadowText} exists from an earlier run. Run " ++
            "`dbgctl osc cleanup` first") ++
        errorIf (old.any (·.exists_))
          (s!"{oldText} exists from an earlier swap. Drop it or run " ++
            "`dbgctl osc cleanup --old`") ++
        errorIf (t.fks ≠ [])
          (s!"table has or is referenced by foreign keys ({fksText}" ++
            "), RENAME would leave them pointing at the old table") ++
        spec.clauses.flatMap (clauseErrors t)
      warnings :=
        spec.clauses.flatMap clauseWarnings ++
        [s!"disk headroom not verified: the copy needs about {mib} MiB more " ++
          s!"(table data+index {mib} MiB from information_schema, which is an " ++
          s!"estimate) plus binlog for the copied rows, in datadir {dir}. Free space " ++
          "cannot be read over SQL, check `df` on the host"]
      instant := some (instantVerdict spec t.hasFulltext t.rowFormat t.totalRowVersions) }

/-! ### The altered shadow -/

/-- `class ShadowCheck`. -/
structure ShadowCheck where
  errors : List String
  copyCols : List String
  checksumCols : List String
  changedType : List String

/-- A list of names as Python prints it. -/
def nameList (names : List String) : String :=
  "[" ++ ", ".intercalate (names.map fun n => "'" ++ n ++ "'") ++ "]"

/-- The columns that are in both tables and not generated, with their two types. -/
def sharedColumns (src shadow : TableInfo) : List (Column × Column) :=
  src.columns.filterMap fun c =>
    (shadow.col c.name).bind fun s => if c.generated || s.generated then none else some (c, s)

/-- The types of a column are the same text. -/
def sameType (x : Column × Column) : Bool := lower x.2.columnType = lower x.1.columnType

/-- `validate_shadow`. -/
def validateShadow (src shadow : TableInfo) (allowTypeChange : Bool) : ShadowCheck :=
  let shared := sharedColumns src shadow
  let changed := (shared.filter fun x => !sameType x).map fun x =>
    x.1.name ++ " " ++ x.1.columnType ++ " -> " ++ x.2.columnType
  let changedText := "; ".intercalate changed
  let fromText := nameList src.pk
  let toText := nameList shadow.pk
  { errors :=
      errorIf (shadow.pk.map lower ≠ src.pk.map lower)
        s!"the ALTER changed the primary key from {fromText} to {toText}" ++
      errorIf (changed ≠ [] && !allowTypeChange)
        (s!"the ALTER changes column types ({changedText}). A value " ++
          "that does not fit would make the trigger fail the application's own " ++
          "write. Pass --allow-type-change if every value fits") ++
      (shadow.columns.filter fun s =>
          (src.col s.name).isNone && !s.nullable && s.default.isNone && !s.generated &&
            !s.autoIncrement).map fun s =>
        s!"new column {s.name} is NOT NULL without a DEFAULT. The trigger's " ++
          "REPLACE would fail application writes in strict mode, add a DEFAULT"
    copyCols := shared.map (·.1.name)
    checksumCols := (shared.filter sameType).map (·.1.name)
    changedType := changed }

/-! ### An ALTER and its copy -/

/-- A row: the value of each column, none for NULL. -/
abbrev Row (V : Type) := String → Option V

/-- An ALTER, the table and the altered shadow, and the columns of the UNIQUE indexes of both
besides the primary key. `defaults` is what the shadow has in the columns that are not
copied, and `crc` is the CRC32 of the values of a row. -/
structure Change (V : Type) where
  src : TableInfo
  shadow : TableInfo
  spec : AlterSpec
  allowTypeChange : Bool := false
  srcUnique : List (List String)
  dstUnique : List (List String)
  defaults : Row V
  crc : List (Option V) → BitVec 32

namespace Change

variable {V : Type} (ch : Change V)

/-- `validate_shadow` of its tables. -/
def check : ShadowCheck := validateShadow ch.src ch.shadow ch.allowTypeChange

/-- Both checks let the ALTER through. -/
def accepted : Bool :=
  (preflight ch.src ch.spec none none false none).ok && ch.check.errors.isEmpty

/-- The values of a row in an index, none if one of them is NULL. -/
def indexed (cols : List String) (r : Row V) : Option (List V) := cols.mapM r

/-- What the copy does, where the server stores the rows of the shadow as `stores` says. -/
def alter (K : Type) (stores : Nat → K → Row V → K × Row V) : Alter K (Row V) (Row V) (List V) where
  project r := fun col => if col ∈ ch.check.copyCols then r col else ch.defaults col
  stores := stores
  srcUnique := ch.srcUnique.map fun cols _ r => indexed cols r
  dstUnique := ch.dstUnique.map fun cols _ r => indexed cols r
  srcCrc _ r := ch.crc (ch.check.checksumCols.map r)
  dstCrc _ r := ch.crc (ch.check.checksumCols.map r)

end Change

end DbGuard.Osc
