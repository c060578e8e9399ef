import DbGuard.Keyed
import DbGuard.Machine

/-!
# `DbGuard.Osc.Copy`: the online copy of a table

`Runner._copy_path` of `osc/runner.py` from its first `CREATE TRIGGER` to its `RENAME TABLE`,
with the application that writes the table all the while. The machine has one move for each
statement of the runner and for each row that the application writes.

A table is a `Keyed`: rows in the order of their primary keys. A composite key is one value
here, and the range predicates that `chunks.py` writes out column by column are the order of
these values. `Alter` says what an ALTER makes of the rows: what the copy columns hold, which
UNIQUE indexes there are before and after, and what the server stores of a row that is put
into the shadow. A session that does not set NO_AUTO_VALUE_ON_ZERO, and none does here, has
the server generate a value where it stores 0 in an AUTO_INCREMENT column.

A write and the trigger that it fires commit together (`Write.apply`, `Write.mirror`). A
transaction that writes several rows is several moves. A chunk is copied row by row in the
order of the keys. The rows of the source behind its position are locked, and so is a range
while it is summed: no write touches them. Locks on rows of the shadow are left out, so a
write that would wait for one is made at once. The moves `undoChunk` and `undoRange` are a
statement that failed and was rolled back, and that `_retry` starts again.

The throttle, the progress row and the durations do not touch the tables and are left out. The
size of a chunk is whatever the sizer says.
-/

set_option autoImplicit false

namespace DbGuard.Osc

/-- How rows are stored in a table without an AUTO_INCREMENT column: as they are given. -/
def storesAll {K S : Type} (_ : Nat) (k : K) (v : S) : K × S := (k, v)

/-- What an ALTER does to the rows of a table. `project` gives the columns that the copy and
the triggers write. An index gives the values that must be unique, and none where a NULL
excludes the row. `stores n` is what the server makes of the `n`-th row that a statement puts
into the shadow: the key and the values that it stores. The last two fields are the CRC32
over the checksum columns. -/
structure Alter (K R S U : Type) where
  project : R → S
  stores : Nat → K → S → K × S := storesAll
  srcUnique : List (K → R → Option U)
  dstUnique : List (K → S → Option U)
  srcCrc : K → R → BitVec 32
  dstCrc : K → S → BitVec 32

/-- An ALTER that leaves the UNIQUE indexes alone, of a table whose rows are stored as they are
given: every index of the shadow is one that the table has, on the same values. -/
structure PlainAlter (K R S U : Type) extends Alter K R S U where
  same_unique : ∀ i ∈ dstUnique, ∃ j ∈ srcUnique, ∀ k r, i k (project r) = j k r
  as_given : ∀ n k v, stores n k v = (k, v)

section

variable {K R S U V : Type} [LinearOrder K] [DecidableEq U]

/-- Two rows have the same values in a UNIQUE index. -/
def clash (ix : List (K → V → Option U)) (k : K) (v : V) (k' : K) (v' : V) : Bool :=
  ix.any fun i => (i k v).isSome && i k v == i k' v'

/-- No two rows of the table clash. -/
def Unique (ix : List (K → V → Option U)) (t : Keyed K V) : Prop :=
  ∀ k v k' v', (k, v) ∈ t → (k', v') ∈ t → k ≠ k' → clash ix k v k' v' = false

/-- A table that meets its UNIQUE indexes. -/
structure Table (ix : List (K → V → Option U)) where
  rows : Keyed K V
  unique : Unique ix rows

/-- `DELETE IGNORE FROM t WHERE pk = k`. -/
abbrev deleteIgnore (t : Keyed K V) (k : K) : Keyed K V := t.erase k

/-- `REPLACE INTO t`: the rows that clash with the new one go. -/
def replaceInto (ix : List (K → V → Option U)) (t : Keyed K V) (k : K) (v : V) : Keyed K V :=
  (t.keep fun k' v' => !clash ix k v k' v').put k v

/-- No row of the table keeps `v` from being stored under `k`. The row under `old` is the one
that it replaces. -/
def fits (ix : List (K → V → Option U)) (t : Keyed K V) (old : Option K) (k : K) (v : V) : Bool :=
  t.rows.all fun x => some x.1 = old || !(x.1 = k || clash ix k v x.1 x.2)

/-- `INSERT IGNORE INTO t`: a row that does not fit is skipped. -/
def insertIgnore (ix : List (K → V → Option U)) (t : Keyed K V) (k : K) (v : V) : Keyed K V :=
  if fits ix t none k v then t.put k v else t

/-! ### The application's writes -/

/-- One row of an INSERT, UPDATE or DELETE. An update gives the new key and row. -/
inductive Write (K R : Type)
  | insert (k : K) (r : R)
  | update (k k' : K) (r : R)
  | delete (k : K)

/-- The events of a trigger, in the order in which `trigger_sql` lists the triggers. -/
inductive Dml
  | insert
  | update
  | delete
deriving DecidableEq

/-- The order in which the triggers are created. -/
def triggerSql : List Dml := [.insert, .update, .delete]

namespace Write

/-- The keys whose rows a write touches. -/
def touches : Write K R → List K
  | .insert k _ => [k]
  | .update k k' _ => [k, k']
  | .delete k => [k]

/-- What a write makes of the table. `none` when there is no such row, or when a key forbids
the new one. -/
def apply (ix : List (K → R → Option U)) (t : Keyed K R) : Write K R → Option (Keyed K R)
  | .insert k r => if fits ix t none k r then some (t.put k r) else none
  | .update k k' r =>
    if k ∈ t.keys ∧ fits ix t (some k) k' r then some ((t.erase k).put k' r) else none
  | .delete k => if k ∈ t.keys then some (t.erase k) else none

/-- What the trigger of a write makes of the shadow, if it exists. The row of its REPLACE is
the `n`-th that is put there. -/
def mirror (a : Alter K R S U) (n : Nat) (installed : List Dml) (t : Keyed K S) :
    Write K R → Keyed K S
  | .insert k r =>
    if .insert ∈ installed then
      let x := a.stores n k (a.project r)
      replaceInto a.dstUnique t x.1 x.2
    else t
  | .update k k' r =>
    if .update ∈ installed then
      let x := a.stores n k' (a.project r)
      replaceInto a.dstUnique (if k = k' then t else deleteIgnore t k) x.1 x.2
    else t
  | .delete k => if .delete ∈ installed then deleteIgnore t k else t

end Write

/-! ### Ranges and sums -/

/-- `lo < pk`, where no `lo` is the start of the table. -/
def above (lo : Option K) (k : K) : Bool := lo.all (· < k)

/-- `pk <= hi`, where no `hi` is the end of the table. -/
def upto (hi : Option K) (k : K) : Bool := hi.all (k ≤ ·)

/-- `range_predicate`. -/
def inRange (rg : Option K × Option K) (k : K) : Bool := above rg.1 k && upto rg.2 k

/-- `chunk_ranges`. -/
def chunkRangesFrom (lo : Option K) : List K → List (Option K × Option K)
  | [] => [(lo, none)]
  | b :: bs => (lo, some b) :: chunkRangesFrom (some b) bs

/-- `chunk_ranges`. -/
def chunkRanges (boundaries : List K) : List (Option K × Option K) :=
  chunkRangesFrom none boundaries

/-- `checksum_sql`: how many rows a range has, and the exclusive or of their CRCs. -/
def checksum (crc : K → V → BitVec 32) (t : Keyed K V) (rg : Option K × Option K) :
    Nat × BitVec 32 :=
  let rows := (t.keep fun k _ => inRange rg k).rows
  (rows.length, (rows.map fun x => crc x.1 x.2).foldl (· ^^^ ·) 0)

/-- `class ChunkSum`. -/
structure ChunkSum (K : Type) where
  range : Option K × Option K
  src : Nat × BitVec 32
  dst : Nat × BitVec 32

/-- `ChunkSum.match`. -/
def ChunkSum.agrees (s : ChunkSum K) : Bool := s.src.1 = s.dst.1 && s.src.2 = s.dst.2

/-- `compare_checksums`. -/
def compareChecksums (sums : List (ChunkSum K)) : List (ChunkSum K) :=
  sums.filter fun s => !s.agrees

/-- `max_pk_sql`. -/
def maxPk (t : Keyed K R) : Option K := t.last?.map (·.1)

/-- `boundary_sql`: the key of the `size`-th row after `lo`, up to `max`. -/
def boundary (t : Keyed K R) (lo : Option K) (max : K) (size : Int) : Option K :=
  ((t.keep fun k _ => inRange (lo, some max) k).rows[(size - 1).toNat]?).map (·.1)

/-! ### The machine -/

/-- Where the runner is. `chunk` has the bounds of the open chunk, the position up to which
its rows are copied, the keys that it has written, and whether it is the last one. In
`checksum` the second field is what the open transaction has read of the source. -/
inductive Phase (K : Type)
  | triggers (todo : List Dml)
  | maxPk
  | boundary (max : K) (lo : Option K)
  | chunk (max : K) (lo : Option K) (hi : K) (last : Bool) (pos : Option K) (written : List K)
  | checksum (todo : List (Option K × Option K)) (read : Option (Nat × BitVec 32))
  | swap
  | renamed
  | mismatch

/-- The two tables, how many statements put rows into the shadow, the triggers in place, and
what the runner keeps. -/
structure Copy (K R S : Type) [LinearOrder K] where
  source : Keyed K R
  shadow : Keyed K S
  puts : Nat := 0
  installed : List Dml := []
  phase : Phase K
  boundaries : List K := []
  sums : List (ChunkSum K) := []

/-- A choice of the application or the server, or the next statement of the runner. -/
inductive Move (K R : Type)
  | write (w : Write K R)
  | createTrigger
  | readMax
  | readBoundary (size : Int)
  | copyRow
  | endChunk
  | undoChunk
  | sumSource
  | sumShadow
  | undoRange
  | compare
  | rename

namespace Copy

/-- The keys whose rows the open transaction of the runner has locked. After the swap nobody
writes the old table. -/
def locked (c : Copy K R S) (k : K) : Bool :=
  match c.phase with
  | .chunk _ lo _ _ (some pos) _ => inRange (lo, some pos) k
  | .checksum (rg :: _) (some _) => inRange rg k
  | .renamed => true
  | _ => false

/-- The next row of the open chunk. -/
def nextRow (c : Copy K R S) (pos : Option K) (hi : K) : Option (K × R) :=
  c.source.rows.find? fun x => inRange (pos, some hi) x.1

/-- The row that is copied next. -/
def upcoming (c : Copy K R S) : Option (K × R) :=
  match c.phase with
  | .chunk _ _ hi _ pos _ => c.nextRow pos hi
  | _ => none

/-- A write commits, and its trigger with it. -/
def write (a : Alter K R S U) (c : Copy K R S) (w : Write K R) : Option (Copy K R S) :=
  if w.touches.any c.locked then none
  else (w.apply a.srcUnique c.source).map fun source =>
    { c with source, shadow := w.mirror a c.puts c.installed c.shadow, puts := c.puts + 1 }

/-- The runner makes its next statement. -/
def step (a : Alter K R S U) (c : Copy K R S) : Move K R → Option (Copy K R S)
  | .write w => c.write a w
  | .createTrigger =>
    match c.phase with
    | .triggers (e :: todo) =>
      some { c with
        installed := c.installed ++ [e]
        phase := if todo = [] then .maxPk else .triggers todo }
    | _ => none
  | .readMax =>
    match c.phase with
    | .maxPk =>
      match maxPk c.source with
      | none => some { c with phase := .checksum (chunkRanges []) none }
      | some max => some { c with phase := .boundary max none }
    | _ => none
  | .readBoundary size =>
    match c.phase with
    | .boundary max lo =>
      match boundary c.source lo max size with
      | none => some { c with phase := .chunk max lo max true lo [] }
      | some hi => some { c with phase := .chunk max lo hi false lo [] }
    | _ => none
  | .copyRow =>
    match c.phase with
    | .chunk max lo hi last pos written =>
      (c.nextRow pos hi).map fun x =>
        let y := a.stores c.puts x.1 (a.project x.2)
        let fresh := fits a.dstUnique c.shadow none y.1 y.2
        { c with
          shadow := insertIgnore a.dstUnique c.shadow y.1 y.2
          puts := c.puts + 1
          phase := .chunk max lo hi last (some x.1) (if fresh then written ++ [y.1] else written) }
    | _ => none
  | .endChunk =>
    match c.phase with
    | .chunk max _ hi last pos _ =>
      if (c.nextRow pos hi).isSome then none
      else
        let boundaries := c.boundaries ++ [hi]
        let phase :=
          if last then .checksum (chunkRanges boundaries) none else .boundary max (some hi)
        some { c with boundaries, phase }
    | _ => none
  | .undoChunk =>
    match c.phase with
    | .chunk max lo hi last _ written =>
      some { c with
        shadow := c.shadow.keep fun k _ => k ∉ written
        phase := .chunk max lo hi last lo [] }
    | _ => none
  | .sumSource =>
    match c.phase with
    | .checksum (rg :: todo) none =>
      some { c with phase := .checksum (rg :: todo) (some (checksum a.srcCrc c.source rg)) }
    | _ => none
  | .sumShadow =>
    match c.phase with
    | .checksum (rg :: todo) (some src) =>
      some { c with
        phase := .checksum todo none
        sums := c.sums ++ [⟨rg, src, checksum a.dstCrc c.shadow rg⟩] }
    | _ => none
  | .undoRange =>
    match c.phase with
    | .checksum todo (some _) => some { c with phase := .checksum todo none }
    | _ => none
  | .compare =>
    match c.phase with
    | .checksum [] none =>
      some { c with phase := if (compareChecksums c.sums).isEmpty then .swap else .mismatch }
    | _ => none
  | .rename =>
    match c.phase with
    | .swap => some { c with phase := .renamed }
    | _ => none

/-- The shadow is created and altered, and no trigger exists. -/
def start {a : Alter K R S U} (source : Table a.srcUnique) : Copy K R S :=
  { source := source.rows, shadow := .empty, phase := .triggers triggerSql }

end Copy

end

end DbGuard.Osc
