import DbGuard.Gtid
import DbGuard.PyText

/-!
# `DbGuard.GtidParse`: reading MySQL's text form

`GtidSet.parse` of `dbguard/gtid.py`. The text is cut at its commas into parts, white space
is dropped from each part, and a part is cut at its colons into a uuid and fields. A field that
starts with a digit is an interval, any other is the tag of the intervals after it in the
part. The dict `acc` that the source fills is a `Pieces`, whose fields say that keys are
distinct and intervals not empty, so that the constructor accepts it.
-/

set_option autoImplicit false

namespace DbGuard

namespace GtidSet

/-- What `GtidParseError` complains about. `number` is the `ValueError` of `int`. -/
inductive ParseError
  | uuid (text : List Char)
  | emptyField (part : List Char)
  | number (field : List Char)
  | interval (field : List Char)
  | tag (field : List Char)
  | noInterval (part : List Char)
deriving DecidableEq, Repr

/-- `_MAX_GNO`. -/
def maxGno : Int := 2 ^ 63 - 1

/-! ### The regular expressions -/

/-- `[0-9a-f]`. -/
def isHex (c : Char) : Bool := c.isDigit || ('a' ≤ c && c ≤ 'f')

/-- `[0-9a-f]{k}` at the start of a text. What follows it. -/
def hexRun : Nat → List Char → Option (List Char)
  | 0, u => some u
  | _ + 1, [] => none
  | k + 1, c :: u => if isHex c then hexRun k u else none

/-- `-?` at the start of a text. What follows it. -/
def optDash : List Char → List Char
  | '-' :: u => u
  | u => u

/-- `_UUID_RE`. -/
def uuidRe (u : List Char) : Bool :=
  (hexRun 8 u).any fun u =>
    (hexRun 4 (optDash u)).any fun u =>
      (hexRun 4 (optDash u)).any fun u =>
        (hexRun 4 (optDash u)).any fun u => hexRun 12 (optDash u) == some []

/-- `_TAG_RE`. -/
def tagRe : List Char → Bool
  | [] => false
  | c :: rest => (c.isLower || c == '_') && rest.length ≤ 31 &&
      rest.all fun c => c.isLower || c.isDigit || c == '_'

/-! ### The parts of a text -/

/-- `u[0:8]-u[8:12]-u[12:16]-u[16:20]-u[20:32]`. -/
def dashed (u : List Char) : List Char :=
  u.take 8 ++ '-' :: (u.drop 8).take 4 ++ '-' :: (u.drop 12).take 4 ++
    '-' :: (u.drop 16).take 4 ++ '-' :: (u.drop 20).take 12

/-- `_norm_uuid`. -/
def normUuid (text : List Char) : Except ParseError (List Char) :=
  let u := Py.lower (Py.strip text)
  if !uuidRe u then .error (.uuid text)
  else .ok (if '-' ∉ u then dashed u else u)

/-- A field that starts with a digit: `n` or `s-e`. -/
def readInterval (f : List Char) : Except ParseError { iv : Int × Int // iv.1 ≤ iv.2 } :=
  let a := if '-' ∈ f then f.takeWhile (· ≠ '-') else f
  let b := if '-' ∈ f then (f.dropWhile (· ≠ '-')).drop 1 else f
  match Py.int a, Py.int b with
  | some s, some e =>
    if h : s < 1 ∨ maxGno < e ∨ e < s then .error (.interval f)
    else .ok ⟨(s, e), by omega⟩
  | _, _ => .error (.number f)

/-- A field that starts with no digit: a tag. -/
def readTag (f : List Char) : Except ParseError (List Char) :=
  if tagRe (Py.lower f) then .ok (Py.lower f) else .error (.tag f)

/-- `acc`, a dict of lists of intervals. -/
structure Pieces where
  entries : Mapping := []
  nodup : (entries.map Prod.fst).Nodup := by simp
  valid : ∀ kv ∈ entries, Interval.Valid kv.2 := by simp

/-- `acc.setdefault(key, []).append(iv)` on the items of a dict. -/
def appendTo (m : Mapping) (key : Key) (iv : Int × Int) : Mapping :=
  if key ∈ m.map Prod.fst then m.map fun kv => if kv.1 = key then (key, kv.2 ++ [iv]) else kv
  else m ++ [(key, [iv])]

/-- A key that is new goes on the end. -/
theorem keys_appendTo (m : Mapping) (key : Key) (iv : Int × Int) :
    (appendTo m key iv).map Prod.fst =
      if key ∈ m.map Prod.fst then m.map Prod.fst else m.map Prod.fst ++ [key] := by
  unfold appendTo
  split
  · rw [List.map_map]
    refine List.map_congr_left fun kv _ => ?_
    show (if kv.1 = key then (key, kv.2 ++ [iv]) else kv).1 = kv.1
    split
    · rename_i h
      exact h.symm
    · rfl
  · simp

/-- The entries of the dict after an append. -/
theorem mem_appendTo {m : Mapping} {key : Key} {iv : Int × Int} {kv : Key × List (Int × Int)}
    (h : kv ∈ appendTo m key iv) :
    kv ∈ m ∨ kv = (key, [iv]) ∨ ∃ ivs, (key, ivs) ∈ m ∧ kv = (key, ivs ++ [iv]) := by
  unfold appendTo at h
  split at h
  · obtain ⟨kv', hkv', rfl⟩ := List.mem_map.mp h
    split
    · rename_i hkey
      subst hkey
      exact .inr (.inr ⟨kv'.2, hkv', rfl⟩)
    · exact .inl hkv'
  · rcases List.mem_append.mp h with h | h
    · exact .inl h
    · exact .inr (.inl (List.mem_singleton.mp h))

/-- `acc.setdefault(key, []).append(iv)`. -/
def Pieces.append (acc : Pieces) (key : Key) (iv : { iv : Int × Int // iv.1 ≤ iv.2 }) :
    Pieces where
  entries := appendTo acc.entries key iv
  nodup := by
    rw [keys_appendTo]
    split
    · exact acc.nodup
    · rename_i h
      exact acc.nodup.append (List.nodup_singleton key) (by simpa using h)
  valid := by
    have hiv : Interval.Valid [iv.1] := (Interval.valid_cons _ _).mpr ⟨iv.2, Interval.valid_nil⟩
    intro kv hkv
    rcases mem_appendTo hkv with h | rfl | ⟨ivs, h, rfl⟩
    · exact acc.valid kv h
    · exact hiv
    · exact (acc.valid _ h).append hiv

/-- What the loop over the fields of a part keeps. -/
structure FieldState where
  acc : Pieces
  tag : List Char := []
  sawInterval : Bool := false

/-- One round of the loop over the fields of a part. -/
def readField (part uuid : List Char) (st : FieldState) (f : List Char) :
    Except ParseError FieldState :=
  match f with
  | [] => .error (.emptyField part)
  | c :: _ =>
    if Py.isDigit c then do
      let iv ← readInterval f
      .ok { st with
        acc := st.acc.append (.ofList uuid, .ofList st.tag) iv
        sawInterval := true }
    else do
      let tag ← readTag f
      .ok { st with tag }

/-- One round of the loop over the parts of a text. -/
def readPart (acc : Pieces) (part : List Char) : Except ParseError Pieces :=
  let part := Py.dropSpaces part
  if part = [] then .ok acc
  else
    match part.splitOn ':' with
    | [] => .ok acc
    | head :: fields => do
      let uuid ← normUuid head
      let st ← fields.foldlM (readField part uuid) { acc }
      if st.sawInterval then .ok st.acc else .error (.noInterval part)

/-- `cls(acc)`. -/
def Pieces.build (acc : Pieces) : GtidSet := GtidSet.build acc.entries acc.valid acc.nodup

/-- `GtidSet.parse`. -/
def parse (text : String) : Except ParseError GtidSet :=
  let text := Py.strip text.toList
  if text = [] then .ok .empty
  else do
    let acc ← (text.splitOn ',').foldlM readPart {}
    .ok acc.build

end GtidSet

/-- What agents send as a GTID set, from its text. -/
def GtidText.ofText (text : String) : GtidText :=
  match GtidSet.parse text with
  | .ok s => .set s
  | .error _ => .malformed text

end DbGuard
