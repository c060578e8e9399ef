import DbGuard.Osc.AlterText

/-!
# `DbGuard.Osc.Reading`: how the server reads an ALTER

MySQL reads the text of `--alter` itself, when the runner sends it for the shadow. `Mysql` is the
server as a parameter: it refuses a text, or it gives the clauses that it read and the table
that it made. A clause is a list of tokens. Its comments are tokens too, and mean nothing.

`renamed` and `dropped` are the clauses of the documented syntax that take a column's name away:
`CHANGE [COLUMN] old new definition`, `RENAME COLUMN old TO new` and `DROP [COLUMN] column`.
`Documented` is what the runner can rely on: a name is only taken away by such a clause, and the
text is the clauses with commas between them, but for what may stand behind a statement.
-/

set_option autoImplicit false

namespace DbGuard.Osc

/-- The white space of MySQL. -/
def blanks : List Char := [' ', '\t', '\n', '\x0b', '\x0c', '\r']

/-- A piece of the text of a clause. An identifier is a word, or it is quoted by backticks, or
by other means (`ANSI_QUOTES`). -/
inductive Token
  | word (text : List Char)
  | quoted (name : List Char)
  | otherwise (text name : List Char)
  | blank (ch : Char)
  | comment (text : List Char)
  | symbol (text : List Char)
deriving DecidableEq

/-- A name with its backticks doubled. -/
def double (name : List Char) : List Char :=
  name.flatMap fun ch => if ch = backtick then [backtick, backtick] else [ch]

namespace Token

/-- How a token is spelled. -/
def text : Token → List Char
  | word text => text
  | quoted name => backtick :: (double name ++ [backtick])
  | otherwise text _ => text
  | blank ch => [ch]
  | comment text => text
  | symbol text => text

/-- The name that an identifier stands for. -/
def name : Token → Option String
  | word text => some (String.ofList text)
  | quoted name => some (String.ofList name)
  | otherwise _ name => some (String.ofList name)
  | _ => none

/-- A keyword, in any case. -/
def isKeyword (keyword : String) : Token → Bool
  | word text => text.map Char.toUpper = keyword.toList
  | _ => false

/-- White space and comments. -/
def isGap : Token → Bool
  | blank _ | comment _ => true
  | _ => false

end Token

/-- The text of some tokens. -/
def render (clause : List Token) : List Char := clause.flatMap Token.text

/-- The tokens that mean something. -/
def significant (clause : List Token) : List Token := clause.filter fun t => !t.isGap

/-- The tokens behind an optional `COLUMN`. -/
def skipColumn : List Token → List Token
  | t :: ts => if t.isKeyword "COLUMN" then ts else t :: ts
  | [] => []

/-- The old and the new name of a column, in a CHANGE or a RENAME COLUMN. -/
def renamed (clause : List Token) : Option (String × String) :=
  match significant clause with
  | [] => none
  | t :: ts =>
    if t.isKeyword "CHANGE" then
      match skipColumn ts with
      | old :: new :: _ => old.name.bind fun o => new.name.map fun n => (o, n)
      | _ => none
    else if t.isKeyword "RENAME" then
      match ts with
      | column :: old :: toward :: new :: _ =>
        if column.isKeyword "COLUMN" && toward.isKeyword "TO" then
          old.name.bind fun o => new.name.map fun n => (o, n)
        else none
      | _ => none
    else none

/-- What else than a column a DROP can name. -/
def dropKinds : List String :=
  ["INDEX", "KEY", "PRIMARY", "FOREIGN", "CHECK", "CONSTRAINT", "PARTITION"]

/-- The column that a DROP COLUMN names. -/
def dropped (clause : List Token) : Option String :=
  match significant clause with
  | [] => none
  | t :: ts =>
    if t.isKeyword "DROP" then
      match skipColumn ts with
      | column :: _ => if dropKinds.any column.isKeyword then none else column.name
      | [] => none
    else none

/-- The server. `alter` reads the text of an ALTER of a table. -/
structure Mysql where
  same : String → String → Bool
  alter : TableInfo → List Char → Option (List (List Token) × TableInfo)

namespace Mysql

variable (m : Mysql)

/-- A clause drops a column. -/
def Drops (clause : List Token) (c : Column) : Prop :=
  ∃ column, dropped clause = some column ∧ m.same column c.name = true

/-- A clause gives a column another name. -/
def Renames (clause : List Token) (c : Column) : Prop :=
  ∃ old new, renamed clause = some (old, new) ∧ m.same old c.name = true ∧ lower new ≠ lower c.name

/-- What is documented of the server. -/
structure Documented : Prop where
  text : ∀ src text clauses shadow, m.alter src text = some (clauses, shadow) →
    ∃ tail, text = [','].intercalate (clauses.map render) ++ tail ∧
      ∀ ch ∈ tail, ch = ';' ∨ ch ∈ blanks
  columns : ∀ src text clauses shadow, m.alter src text = some (clauses, shadow) →
    ∀ c ∈ src.columns, shadow.col c.name = none →
      ∃ clause ∈ clauses, m.Drops clause c ∨ m.Renames clause c

end Mysql

end DbGuard.Osc
