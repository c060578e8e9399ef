import DbGuard.GtidParse
import DbGuard.Grouped

/-!
# `DbGuard.Agent.GtidCount`: counting phantoms for a rebuild

`dbguard/agent/gtidcount.py`. `subtractCount` counts what one GTID set has and another has
not. It does so with `GtidSet`, and with a small parser of its own, `parse` and
`intervalCount`, where one of the texts is no GTID set. That parser takes a uuid and a tag as
they are written, drops no white space inside a part, and does not merge intervals.
`none` stands for an exception.
-/

set_option autoImplicit false

namespace DbGuard

namespace GtidCount

/-- `f"{sid}:{tag}" if tag else sid`. -/
def keyText (sid tag : List Char) : List Char := if tag = [] then sid else sid ++ ':' :: tag

/-- `(int(lo), int(hi) if hi else int(lo))` for `f.partition("-")`. -/
def readBounds (f : List Char) : Option (Int × Int) :=
  let lo := f.takeWhile (· ≠ '-')
  let hi := (f.dropWhile (· ≠ '-')).drop 1
  (Py.int lo).bind fun l => (if hi = [] then Py.int lo else Py.int hi).map fun h => (l, h)

/-- `f and not f[0].isdigit()`. -/
def isTag (f : List Char) : Bool := f.head?.any fun c => !Py.isDigit c

/-- What the loops of `_parse` fill. -/
abbrev Dict := Grouped (List Char) (Int × Int)

/-- One round of the loop over the fields of a part, on the dict and the tag. -/
def readField (sid : List Char) (st : Dict × List Char) (f : List Char) :
    Option (Dict × List Char) :=
  if isTag f then some (st.1, Py.lower f)
  else (readBounds f).map fun iv => (st.1.add (keyText sid st.2) iv, st.2)

/-- One round of the loop over the parts of a text. -/
def readPart (out : Dict) (part : List Char) : Option Dict :=
  let part := Py.strip part
  if part = [] then some out
  else
    match part.splitOn ':' with
    | [] => some out
    | head :: fields => (fields.foldlM (readField (Py.lower head)) (out, [])).map Prod.fst

/-- `_parse`. -/
def parse (text : String) : Option Dict :=
  ((text.toList.filter (· ≠ '\n')).splitOn ',').foldlM readPart {}

/-- What one round of the inner loop of `_interval_count` puts into `nxt` for one piece. -/
def cutPiece (b p : Int × Int) : List (Int × Int) :=
  if b.2 < p.1 ∨ p.2 < b.1 then [p]
  else
    (if p.1 < b.1 then [(p.1, b.1 - 1)] else []) ++ if b.2 < p.2 then [(b.2 + 1, p.2)] else []

/-- `_interval_count`. -/
def intervalCount (a b : List (Int × Int)) : Int :=
  (a.map fun iv =>
    ((b.foldl (fun pieces b => pieces.flatMap (cutPiece b)) [iv]).map
      fun p => p.2 - p.1 + 1).sum).sum

/-- `sum(_interval_count(ivs, _parse(b).get(k, [])) for k, ivs in _parse(a).items())`. The
second text is parsed anew for each key of the first. -/
def localCount (a b : String) : Option Int :=
  (parse a).bind fun pa =>
    (pa.entries.mapM fun kv => (parse b).map fun pb => intervalCount kv.2 (pb.get kv.1)).map
      List.sum

/-- `subtract_count`. -/
def subtractCount (a b : String) : Option Int :=
  match GtidSet.parse a, GtidSet.parse b with
  | .ok a, .ok b => some (a.subtract b).count
  | _, _ => localCount a b

end GtidCount

end DbGuard
