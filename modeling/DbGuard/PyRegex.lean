import DbGuard.PyText

/-!
# `DbGuard.PyRegex`: regular expressions of Python

The part of `re` that hand-written parsers use: characters, sequences, alternatives, greedy
repetition, groups that are not nested, and `\b`. `Re.ends` gives the ends of all ways to match
a pattern, in the order in which Python tries them, so that the first one is Python's match.

`\s` is `str.isspace`. `\w` is a letter, a digit or an underscore. Which characters outside
ASCII are letters or digits is a parameter.
-/

set_option autoImplicit false

namespace Py

/-- A pattern. -/
inductive Re
  | empty
  | char (p : Char → Bool)
  | boundary
  | seq (r s : Re)
  | alt (r s : Re)
  | star (r : Re)
  | group (r : Re)

/-- A place in a text: the character before it, the text after it, and the groups so far. -/
structure Place where
  before : Option Char := none
  rest : List Char
  groups : List (List Char) := []

namespace Re

variable (alnum : Char → Bool)

/-- `\w`. -/
def isWord (c : Char) : Bool :=
  c.isAlphanum || c = '_' || (128 ≤ c.toNat && alnum c)

/-- The ends of a greedy repetition of at most `n` rounds. A round takes a character. -/
def rounds (f : Place → List Place) : Nat → Place → List Place
  | 0, at_ => [at_]
  | n + 1, at_ =>
    ((f at_).filter fun e => e.rest.length < at_.rest.length).flatMap (rounds f n) ++ [at_]

/-- The ends of the matches that start at a place. -/
def ends : Re → Place → List Place
  | empty, at_ => [at_]
  | char p, at_ =>
    match at_.rest with
    | [] => []
    | c :: rest => if p c then [{ at_ with before := some c, rest }] else []
  | boundary, at_ =>
    if at_.before.any (isWord alnum) ≠ at_.rest.head?.any (isWord alnum) then [at_] else []
  | seq r s, at_ => (ends r at_).flatMap (ends s)
  | alt r s, at_ => ends r at_ ++ ends s at_
  | star r, at_ => rounds (ends r) at_.rest.length at_
  | group r, at_ =>
    (ends r at_).map fun e =>
      { e with groups := e.groups ++ [at_.rest.take (at_.rest.length - e.rest.length)] }

/-- `re.match(r, text)`. -/
def match_ (r : Re) (text : List Char) : Option Place := (r.ends alnum { rest := text }).head?

/-- `re.search(r, text)`, from a place on. -/
def searchFrom (r : Re) (before : Option Char) : List Char → Option Place
  | [] => (r.ends alnum { before, rest := [] }).head?
  | c :: text =>
    ((r.ends alnum { before, rest := c :: text }).head?).or (searchFrom r (some c) text)

/-- `re.search(r, text)`. -/
def search (r : Re) (text : List Char) : Option Place := searchFrom alnum r none text

/-! ### Abbreviations -/

/-- Patterns one after the other. -/
def all (rs : List Re) : Re := rs.foldr .seq .empty

/-- One of some patterns. -/
def any : List Re → Re
  | [] => .char fun _ => false
  | [r] => r
  | r :: rs => .alt r (any rs)

/-- `(?:r)?`. -/
def opt (r : Re) : Re := .alt r .empty

/-- `(?:r)+`. -/
def plus (r : Re) : Re := .seq r (.star r)

/-- `\s+`. -/
def spaces : Re := plus (.char isSpace)

/-- The text itself. -/
def text (s : String) : Re := all (s.toList.map fun c => .char (· = c))

/-- A character in `(?i)`, where `c` is a small letter. The letters i, k and s have another
small or large form outside ASCII. -/
def sameLetter (c x : Char) : Bool :=
  x.toLower = c || (c = 'i' && (x = '\u0130' || x = '\u0131')) || (c = 'k' && x = kelvin) ||
    (c = 's' && x = '\u017f')

/-- The text in `(?i)`, written in small letters. -/
def textIgnoreCase (s : String) : Re := all (s.toList.map fun c => .char (sameLetter c))

end Re

/-! ### Other text operations -/

/-- The upper case of one character, where it has an ASCII letter. -/
def upperChar (c : Char) : List Char :=
  match c with
  | '\u00df' => ['S', 'S']
  | '\u0131' => ['I']
  | '\u0149' => ['\u02bc', 'N']
  | '\u017f' => ['S']
  | '\u01f0' => ['J', '\u030c']
  | '\u1e96' => ['H', '\u0331']
  | '\u1e97' => ['T', '\u0308']
  | '\u1e98' => ['W', '\u030a']
  | '\u1e99' => ['Y', '\u030a']
  | '\u1e9a' => ['A', '\u02be']
  | '\ufb00' => ['F', 'F']
  | '\ufb01' => ['F', 'I']
  | '\ufb02' => ['F', 'L']
  | '\ufb03' => ['F', 'F', 'I']
  | '\ufb04' => ['F', 'F', 'L']
  | '\ufb05' => ['S', 'T']
  | '\ufb06' => ['S', 'T']
  | c => [c.toUpper]

/-- `text.upper()`, exact where the result is ASCII. -/
def upper (text : List Char) : List Char := text.flatMap upperChar

/-- `text.split()`. -/
def words (text : List Char) : List (List Char) :=
  (text.splitOnP isSpace).filter (· ≠ [])

example : ((Re.all [.text "DROP", .spaces, .text "KEY", .boundary]).match_ (fun _ => false)
    "DROP  KEY(a)".toList).map (·.rest) = some "(a)".toList := by
  decide +kernel

end Py
