import DbGuard.Gtid
import DbGuard.Grouped
import DbGuard.PyText

/-!
# `DbGuard.Harness.Gtid`: the GTID helpers of the chaos harness

The functions of `dbguard/harness/chaos.py` that compare GTID sets without `GtidSet`. A set is
a dict from a key to merged intervals. The key is the uuid in lower case, and `uuid:tag` with
the tag as it is written. `none` stands for an exception.
-/

set_option autoImplicit false

namespace DbGuard

namespace Harness

/-- A dict from keys to intervals. -/
abbrev Dict := Grouped (List Char) (Int × Int)

/-- `(int(a), int(b or a))` for `f.partition("-")`. -/
def readBounds (f : List Char) : Option (Int × Int) :=
  let a := f.takeWhile (· ≠ '-')
  let b := (f.dropWhile (· ≠ '-')).drop 1
  (Py.int a).bind fun lo => (Py.int (if b = [] then a else b)).map fun hi => (lo, hi)

/-- One round of the loop over the fields of a part, on the dict and the key `u`. -/
def readField (sid : List Char) (st : Dict × List Char) (f : List Char) :
    Option (Dict × List Char) :=
  if f.head?.any Py.isDigit then (readBounds f).map fun iv => (st.1.append st.2 iv, st.2)
  else some (st.1.touch (sid ++ ':' :: f), sid ++ ':' :: f)

/-- One round of the loop over the parts of a text. -/
def readPart (out : Dict) (part : List Char) : Option Dict :=
  if part = [] then some out
  else
    match part.splitOn ':' with
    | [] => some out
    | head :: fields =>
      (fields.foldlM (readField (Py.lower head)) (out.touch (Py.lower head), Py.lower head)).map
        Prod.fst

/-- `parse_gtid`. Merging is as in `GtidSet`. -/
def parseGtid (s : String) : Option Dict :=
  (((Py.dropSpaces s.toList).splitOn ',').foldlM readPart .empty).map fun out =>
    (out.mapValues Interval.normalize).dropEmpty

/-- `gtid_count`. -/
def gtidCount (s : String) : Option Int :=
  (parseGtid s).map fun p => (p.entries.map fun kv => Interval.count kv.2).sum

/-- `gtid_equal`. -/
def gtidEqual (a b : String) : Option Bool :=
  (parseGtid a).bind fun pa => (parseGtid b).map fun pb => pa.eq pb

/-- `gtid_subset`. -/
def gtidSubset (a b : String) : Option Bool :=
  (parseGtid b).bind fun pb => (parseGtid a).map fun pa =>
    pa.entries.all fun kv => kv.2.all fun iv =>
      (pb.get kv.1).any fun biv => biv.1 ≤ iv.1 && iv.2 ≤ biv.2

/-- What the inner loop of `gtid_minus` appends to `missing` for an interval that ends at `hi`,
from `cur` on. -/
def missing (hi : Int) : Int → List (Int × Int) → List (Int × Int)
  | cur, [] => if cur ≤ hi then [(cur, hi)] else []
  | cur, (blo, bhi) :: rest =>
    if bhi < cur ∨ hi < blo then missing hi cur rest
    else (if cur < blo then [(cur, blo - 1)] else []) ++ missing hi (max cur (bhi + 1)) rest

/-- `f"{x}-{y}" if x != y else f"{x}"`. -/
def ivText (iv : Int × Int) : List Char :=
  if iv.1 ≠ iv.2 then (toString iv.1).toList ++ '-' :: (toString iv.2).toList
  else (toString iv.1).toList

/-- The order of `sorted(parse_gtid(a).items())`. Keys of a dict are distinct. -/
abbrev itemLe (x y : List Char × List (Int × Int)) : Prop :=
  String.ofList x.1 ≤ String.ofList y.1

/-- `u + ":" + ":".join(..)` for one key, if anything of it is missing. -/
def minusPart (pb : Dict) (kv : List Char × List (Int × Int)) : Option (List Char) :=
  let gaps := kv.2.flatMap fun iv => missing iv.2 iv.1 (pb.get kv.1)
  if gaps = [] then none else some (kv.1 ++ ':' :: [':'].intercalate (gaps.map ivText))

/-- `gtid_minus`. -/
def gtidMinus (a b : String) : Option String :=
  (parseGtid b).bind fun pb => (parseGtid a).map fun pa =>
    String.ofList ([','].intercalate
      ((pa.entries.insertionSort itemLe).filterMap (minusPart pb)))

/-- `caught_up`. The second comparison is made only if the first one holds. -/
def caughtUp (before replica after : String) : Option Bool :=
  (gtidSubset before replica).bind fun first =>
    if first then gtidSubset replica after else some false

end Harness

end DbGuard
