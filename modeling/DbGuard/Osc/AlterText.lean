import DbGuard.Osc.Preflight
import DbGuard.PyRegex

/-!
# `DbGuard.Osc.AlterText`: the text of an ALTER

The scanners of `osc/sqlutil.py`. `splitTopLevel` cuts the text into clauses, `stripQuoted`
blanks what is quoted or in parentheses, and `parseAlter` finds the kind of each clause by
patterns on what is left.

The loop of `split_top_level` looks one character ahead, so a turn of it takes one character or
two. `turns` are the turns for a text, with the quote that each is in, and the loop body runs
on them. The loop of `_strip_quoted` takes a character at a time, and `Strip` is its state.
-/

set_option autoImplicit false

namespace DbGuard.Osc

open Py (Re)

/-! ### `split_top_level` -/

/-- `'`. -/
abbrev apostrophe : Char := '\x27'
/-- `"`. -/
abbrev quotation : Char := '\x22'
/-- The quote of names. -/
abbrev backtick : Char := '\x60'
/-- The escape of MySQL, which the scanners do not know. -/
abbrev backslash : Char := '\x5c'

/-- What a turn of the loop finds. Those in a quote have its character first. -/
inductive Turn
  | escaped (q ch : Char)
  | doubled (q : Char)
  | body (q ch : Char)
  | closing (q : Char)
  | opening (q : Char)
  | left
  | right
  | plain (ch : Char)
deriving DecidableEq

/-- The characters of a turn. -/
def Turn.text : Turn → List Char
  | .escaped _ ch => [backslash, ch]
  | .doubled q => [q, q]
  | .body _ ch => [ch]
  | .closing q => [q]
  | .opening q => [q]
  | .left => ['(']
  | .right => [')']
  | .plain ch => [ch]

/-- The characters that open a quote. -/
def quotes : List Char := [apostrophe, quotation, backtick]

/-- The turns of `split_top_level`, from a quote on. -/
def turns : Option Char → List Char → List Turn
  | _, [] => []
  | some q, [ch] => if ch = q then [.closing q] else [.body q ch]
  | some q, ch :: next :: rest =>
    if ch = backslash ∧ q ≠ backtick then .escaped q next :: turns (some q) rest
    else if ch = q then
      if next = q then .doubled q :: turns (some q) rest
      else .closing q :: turns none (next :: rest)
    else .body q ch :: turns (some q) (next :: rest)
  | none, ch :: rest =>
    if ch ∈ quotes then .opening ch :: turns (some ch) rest
    else if ch = '(' then .left :: turns none rest
    else if ch = ')' then .right :: turns none rest
    else .plain ch :: turns none rest

/-- The loop body of `split_top_level`, and what comes after the loop. -/
def splitLoop (sep : Char) (depth : Int) (buf : List Char) (parts : List (List Char)) :
    List Turn → List (List Char)
  | [] => if Py.strip buf = [] then parts else parts ++ [Py.strip buf]
  | .left :: ts => splitLoop sep (depth + 1) (buf ++ ['(']) parts ts
  | .right :: ts => splitLoop sep (depth - 1) (buf ++ [')']) parts ts
  | .plain ch :: ts =>
    if ch = sep ∧ depth = 0 then splitLoop sep depth [] (parts ++ [Py.strip buf]) ts
    else splitLoop sep depth (buf ++ [ch]) parts ts
  | t :: ts => splitLoop sep depth (buf ++ t.text) parts ts

/-- `split_top_level`. -/
def splitTopLevel (sep : Char) (text : List Char) : List (List Char) :=
  (splitLoop sep 0 [] [] (turns none text)).filter (· ≠ [])

/-! ### `_strip_quoted` -/

/-- `quote` and `depth` of `_strip_quoted`. -/
structure Strip where
  quote : Option Char := none
  depth : Int := 0
deriving DecidableEq

/-- The loop body of `_strip_quoted`: the new state, and what it writes. -/
def Strip.next (s : Strip) (ch : Char) : Strip × Char :=
  match s.quote with
  | some q => (if ch = q then { s with quote := none } else s, ' ')
  | none =>
    if ch = apostrophe ∨ ch = quotation then ({ s with quote := some ch }, ' ')
    else if ch = '(' then ({ s with depth := s.depth + 1 }, ' ')
    else if ch = ')' then ({ s with depth := s.depth - 1 }, ' ')
    else (s, if s.depth ≠ 0 then ' ' else ch)

/-- The loop of `_strip_quoted`. -/
def Strip.loop : Strip → List Char → List Char
  | _, [] => []
  | s, ch :: rest => (s.next ch).2 :: Strip.loop (s.next ch).1 rest

/-- `_strip_quoted`. -/
def stripQuoted (text : List Char) : List Char := Strip.loop {} text

/-! ### `parse_alter` -/

/-- `replace`, of two backticks by one. -/
def undouble : List Char → List Char
  | ch :: next :: rest =>
    if ch = backtick ∧ next = backtick then backtick :: undouble rest
    else ch :: undouble (next :: rest)
  | text => text

/-- `_ident`. -/
def ident (tok : List Char) : String :=
  let tok := Py.strip tok
  if tok.head? = some backtick ∧ tok.getLast? = some backtick then
    String.ofList (undouble (tok.drop 1).dropLast)
  else String.ofList tok

/-- `_IDENT`. The class has four characters outside ASCII in `(?i)`. -/
def identRe : Re :=
  .group (.alt
    (.all [.char (· = backtick),
      .plus (.alt (.char (· ≠ backtick)) (.all [.char (· = backtick), .char (· = backtick)])),
      .char (· = backtick)])
    (.plus (.char fun c => c.isAlphanum || c = '_' || c = '$' ||
      c ∈ [Py.kelvin, '\u017f', '\u0130', '\u0131'])))

section
variable (alnum : Char → Bool)

/-- `re.match` of keywords with space between them and `\b` behind. -/
def startsWith (keywords : List String) (u : List Char) : Bool :=
  ((Re.all ((keywords.map Re.text).intersperse .spaces ++ [.boundary])).match_ alnum u).isSome

/-- The identifier behind a keyword and an optional `COLUMN`, both in any case. -/
def columnAfter (keyword : String) (raw : List Char) : Option String :=
  ((Re.all [.textIgnoreCase keyword, .spaces, .opt (.seq (.textIgnoreCase "column") .spaces),
    identRe]).match_ alnum raw).map fun e => ident (e.groups.headD [])

/-- The clause of `raw`, where `top` is what `_strip_quoted` leaves of it. -/
def clauseOf (top raw : List Char) : Clause :=
  let u := Py.upper top
  let words := Py.words u
  let has := fun (n : Nat) (word : String) => decide (word.toList ∈ words.take n)
  let text := String.ofList raw
  let bare := Py.strip raw
  let drops := [["INDEX"], ["KEY"], ["FOREIGN", "KEY"], ["CHECK"], ["CONSTRAINT"]]
  let adds := ["UNIQUE", "INDEX", "KEY", "FULLTEXT", "SPATIAL", "FOREIGN", "CHECK"]
  if startsWith alnum ["DROP", "PRIMARY", "KEY"] u then { text, kind := .dropPk }
  else if drops.any fun words => startsWith alnum ("DROP" :: words) u then
    { text, kind := .dropIndex }
  else if startsWith alnum ["DROP"] u then
    { text, kind := .dropColumn, column := columnAfter alnum "drop" bare }
  else if ((Re.all [.text "ADD", .spaces,
      .opt (.all [.text "CONSTRAINT", .boundary, .star (.char (· ≠ '\n'))]),
      .text "PRIMARY", .spaces, .text "KEY", .boundary]).match_ alnum u).isSome then
    { text, kind := .addPk }
  else if ((Re.all [.text "ADD", .spaces,
      .opt (.all [.text "CONSTRAINT", .spaces, .plus (.char fun c => !Py.isSpace c), .spaces]),
      .any (adds.map Re.text), .boundary]).match_ alnum u).isSome then
    { text, unique := has 4 "UNIQUE", kind := if has 3 "FULLTEXT" then .addFulltext else .addIndex }
  else if startsWith alnum ["ADD"] u then
    if ((Re.all [.text "ADD", .spaces, .opt (.seq (.text "COLUMN") .spaces),
        .text "("]).match_ alnum (Py.upper bare)).isSome then
      { text, kind := .other }
    else
      { text
        kind := if ((Re.all [.boundary, .text "AS", .boundary]).search alnum u).isSome
          then .addGenerated else .addColumn
        column := columnAfter alnum "add" bare
        positioned := ((Re.all [.boundary, .any [.text "AFTER", .text "FIRST"],
          .boundary]).search alnum u).isSome }
  else if startsWith alnum ["RENAME", "COLUMN"] u then
    { text
      kind := .renameColumn
      column := ((Re.all [.textIgnoreCase "rename", .spaces, .textIgnoreCase "column", .spaces,
        identRe]).match_ alnum bare).map fun e => ident (e.groups.headD []) }
  else if startsWith alnum ["RENAME"] u then { text, kind := .renameTable }
  else if startsWith alnum ["CHANGE"] u then
    match (Re.all [.textIgnoreCase "change", .spaces,
        .opt (.seq (.textIgnoreCase "column") .spaces), identRe, .spaces,
        identRe]).match_ alnum bare with
    | none => { text, kind := .change }
    | some e =>
      let old := ident (e.groups.headD [])
      let new := ident ((e.groups.drop 1).headD [])
      { text
        kind := if lower new ≠ lower old then .renameColumn else .change
        column := some old }
  else if startsWith alnum ["MODIFY"] u then
    { text, kind := .modify, column := columnAfter alnum "modify" bare }
  else if ["ALGORITHM", "LOCK"].any fun word => startsWith alnum [word] u then
    { text, kind := .algorithm }
  else { text, kind := .other }

/-- `text.strip().rstrip(";").strip()`. -/
def bareText (text : List Char) : List Char :=
  Py.strip ((Py.strip text).reverse.dropWhile (· = ';')).reverse

/-- `parse_alter`. -/
def parseAlter (text : List Char) : Except String AlterSpec :=
  let text := bareText text
  if ((Re.all [.textIgnoreCase "alter", .spaces, .textIgnoreCase "table",
      .char Py.isSpace]).match_ alnum text).isSome then
    .error "--alter takes the clauses only, without ALTER TABLE <name>"
  else
    .ok
      { text := String.ofList text
        clauses := (splitTopLevel ',' text).map fun raw => clauseOf alnum (stripQuoted raw) raw }

end

end DbGuard.Osc
