import DbGuard.Osc.Preflight
import DbGuard.PyFormat

/-!
# `DbGuard.Osc.Chunks`: range predicates, chunks and checksum inputs

The parts of `osc/chunks.py` that `Copy` takes for granted: how the range of a chunk is written
as an SQL predicate over the columns of the key, and what the checksum of a row is computed
from. `copyFrom` is the loop of `Runner._copy` on its own, against whatever the table holds at
each of its queries.

`rangePredicate` gives the text of a predicate, with `%s` for each value, and the values. The
driver puts the literals of the values into the text with the `%` operator of Python. What the
server is sent is a text again. `Predicate` is what such a text says: comparisons of columns
with values, which `Predicate.text` prints and which `Predicate.holds` evaluates on a row.
-/

set_option autoImplicit false

namespace DbGuard.Osc

/-! ### Range predicates -/

/-- A backtick. -/
def tick : Char := '\x60'

/-- A name with its backticks doubled. -/
def escaped (name : List Char) : List Char :=
  name.flatMap fun c => if c = tick then [c, c] else [c]

/-- `q`. -/
def q (name : String) : List Char := tick :: escaped name.toList ++ [tick]

/-- The operators that `_bound` uses. -/
inductive Op
  | eq
  | gt
  | ge
  | lt
  | le
deriving DecidableEq

/-- The operator in the SQL text. -/
def Op.text : Op → List Char
  | .eq => ['=']
  | .gt => ['>']
  | .ge => ['>', '=']
  | .lt => ['<']
  | .le => ['<', '=']

/-- A comparison as it is written, with whatever stands for the value. -/
def compared (col : String) (op : Op) (value : List Char) : List Char :=
  q col ++ ' ' :: op.text ++ ' ' :: value

/-- A comparison with a placeholder. -/
def placeholder (col : String) (op : Op) : List Char := compared col op ['%', 's']

/-- `" AND ".join(texts)`. -/
def conjunction (texts : List (List Char)) : List Char := " AND ".toList.intercalate texts

/-- `" OR ".join(texts)`. -/
def disjunction (texts : List (List Char)) : List Char := " OR ".toList.intercalate texts

/-- A text in brackets. -/
def bracketed (text : List Char) : List Char := '(' :: text ++ [')']

/-- The `ValueError` of `_bound`. -/
structure BoundLength where
  vals : Nat
  cols : Nat
deriving DecidableEq

/-- `terms` of `_bound`, each as the list of its comparisons. -/
def boundTerms (pk : List String) (lower : Bool) : List (List (List Char)) :=
  pk.zipIdx.map fun ci =>
    let eqs := (pk.take ci.2).map (placeholder · .eq)
    let last := ci.2 + 1 = pk.length
    let op := if lower then Op.gt else if last then Op.le else Op.lt
    eqs ++ [placeholder ci.1 op]

section
variable {V : Type}

/-- `_bound`. The last case is the empty key, whose first column is looked up in vain. -/
def bound (pk : List String) (vals : List V) (lower : Bool) :
    Except (Option BoundLength) (List Char × List V) :=
  if vals.length ≠ pk.length then .error (some ⟨vals.length, pk.length⟩)
  else
    match pk, vals with
    | [c], [v] => .ok (placeholder c (if lower then .gt else .le), [v])
    | c :: _, v :: _ =>
      let terms := (boundTerms pk lower).map fun term => bracketed (conjunction term)
      let args := (List.range pk.length).flatMap fun i => vals.take (i + 1)
      let lead := placeholder c (if lower then .ge else .le)
      .ok (bracketed (conjunction [lead, bracketed (disjunction terms)]), v :: args)
    | _, _ => .error none

/-- `bound_arg_count`. -/
def boundArgCount (k : Nat) : Nat := if k = 1 then 1 else 1 + k * (k + 1) / 2

/-- The loop body of `range_predicate`. -/
def addBound (pk : List String) (acc : List (List Char) × List V) (vals : Option (List V))
    (lower : Bool) : Except (Option BoundLength) (List (List Char) × List V) :=
  match vals with
  | none => .ok acc
  | some vals => (bound pk vals lower).map fun b => (acc.1 ++ [b.1], acc.2 ++ b.2)

/-- `range_predicate`. -/
def rangePredicate (pk : List String) (lo hi : Option (List V)) :
    Except (Option BoundLength) (List Char × List V) := do
  let acc ← addBound pk ([], []) lo true
  let (parts, args) ← addBound pk acc hi false
  let sql := conjunction parts
  return (if sql = [] then "1=1".toList else sql, args)

/-- What `cursor.execute` sends: `sql % args`, with the literals of the arguments. -/
def mogrify (conv : List Char → Char → List Char → Except Py.FormatError (List Char))
    (lit : V → List Char) (sql : List Char) (args : List V) : Except Py.FormatError (List Char) :=
  Py.format conv none sql (args.map lit)

example : (rangePredicate ["a", "b"] (some [1, 2]) none).toOption =
    some ("(`a` >= %s AND ((`a` > %s) OR (`a` = %s AND `b` > %s)))".toList, [1, 1, 1, 2]) := by
  decide +kernel

/-! ### What a predicate says -/

/-- A comparison of a column with a value. -/
structure Cmp (V : Type) where
  col : String
  op : Op
  val : V

/-- One bound: a single comparison, or a leading one and terms, of which one must hold. A term is
a conjunction. -/
inductive Bound (V : Type)
  | single (c : Cmp V)
  | expanded (lead : Cmp V) (terms : List (List (Cmp V)))

/-- A conjunction of bounds. Without a bound it is `1=1`. -/
abbrev Predicate (V : Type) := List (Bound V)

section
variable (lit : V → List Char)

/-- A comparison, with the literal of its value. -/
def Cmp.text (c : Cmp V) : List Char := compared c.col c.op (lit c.val)

/-- A term, in its brackets. -/
def termText (term : List (Cmp V)) : List Char := bracketed (conjunction (term.map (Cmp.text lit)))

/-- The bound in the SQL text. -/
def Bound.text : Bound V → List Char
  | .single c => c.text lit
  | .expanded lead terms =>
    bracketed (conjunction [lead.text lit, bracketed (disjunction (terms.map (termText lit)))])

/-- The text that the server is sent. -/
def Predicate.text (p : Predicate V) : List Char :=
  if p = [] then "1=1".toList else conjunction (p.map (Bound.text lit))

end

section
variable (ord : String → LinearOrder V) (row : String → V)

/-- A comparison of a row's columns, each with the order of its type. -/
def Cmp.test (c : Cmp V) : Bool :=
  letI := ord c.col
  match c.op with
  | .eq => row c.col = c.val
  | .gt => c.val < row c.col
  | .ge => c.val ≤ row c.col
  | .lt => row c.col < c.val
  | .le => row c.col ≤ c.val

/-- The row is on this side of the bound. -/
def Bound.holds : Bound V → Bool
  | .single c => c.test ord row
  | .expanded lead terms => lead.test ord row && terms.any fun term => term.all (Cmp.test ord row)

/-- The truth of a predicate on a row. -/
def Predicate.holds (p : Predicate V) : Bool := p.all (Bound.holds ord row)

end

end

/-! ### The loop of `_copy` -/

section
variable {K R : Type} [LinearOrder K]

/-- A chunk of the copy: the bounds of its `copy_sql`. -/
abbrev Chunk (K : Type) := Option K × K

/-- The key is in the range of the chunk. -/
def Chunk.selects (c : Chunk K) (k : K) : Bool := inRange (c.1, some c.2) k

/-- The loop of `_copy`: the chunks that it copies. A round has the table as its boundary query
finds it, and the size that the sizer gives. `none` when the loop goes on after the last
round. -/
def copyFrom (max : K) (lo : Option K) : List (Keyed K R × Int) → Option (List (Chunk K))
  | [] => none
  | (t, size) :: rounds =>
    match boundary t lo max size with
    | none => some [(lo, max)]
    | some hi => (copyFrom max (some hi) rounds).map ((lo, hi) :: ·)

/-- `Runner._copy`, from the query for the largest key. -/
def copyChunks (start : Keyed K R) (rounds : List (Keyed K R × Int)) : Option (List (Chunk K)) :=
  match maxPk start with
  | none => some []
  | some max => copyFrom max none rounds

/-- The boundaries that `_copy` returns. -/
def boundariesOf (chunks : List (Chunk K)) : List K := chunks.map (·.2)

end

/-! ### The input of the checksum -/

/-- `CONCAT_WS`, which skips NULLs. -/
def concatWs (sep : List Char) (vals : List (Option (List Char))) : List Char :=
  sep.intercalate vals.reduceOption

/-- `CONCAT(ISNULL(c1), ISNULL(c2), ...)`. -/
def nullBitmap (vals : List (Option (List Char))) : List Char :=
  vals.map fun v => if v.isNone then '1' else '0'

/-- What `checksum_expr` gives to `CRC32` for a row of texts. -/
def checksumInput (cols : List String) (row : Row (List Char)) : List Char :=
  concatWs ['#'] (cols.map row ++ [some (nullBitmap (cols.map row))])

end DbGuard.Osc
