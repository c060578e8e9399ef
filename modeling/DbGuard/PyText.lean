import Mathlib.Data.List.Basic
import Mathlib.Data.List.DropRight
import Mathlib.Data.List.TakeWhile

/-!
# `DbGuard.PyText`: text operations of Python

The methods of `str` and the `int` constructor that parsers in Python are written with, on
lists of characters: `isspace`, `strip`, `"".join(text.split())`, `lower`, `isdigit` and
`int(text)`. They follow the documented behaviour, Unicode included: `int` reads the decimal
digits of every script, allows single underscores between digits and a sign, and refuses more
than 4300 digits.

`lower` is exact where its result is ASCII. The Kelvin sign and the dotted capital I are the
only characters outside ASCII whose lower case has an ASCII character. All others keep their
place here, and their lower case is not ASCII either.
-/

set_option autoImplicit false

namespace Py

/-! ### Whitespace -/

/-- The code points of `str.isspace`. -/
def spaces : List Nat :=
  [0x9, 0xa, 0xb, 0xc, 0xd, 0x1c, 0x1d, 0x1e, 0x1f, 0x20, 0x85, 0xa0, 0x1680, 0x2000, 0x2001,
   0x2002, 0x2003, 0x2004, 0x2005, 0x2006, 0x2007, 0x2008, 0x2009, 0x200a, 0x2028, 0x2029,
   0x202f, 0x205f, 0x3000]

/-- `c.isspace()`. -/
def isSpace (c : Char) : Bool := c.toNat ∈ spaces

/-- `text.strip()`. -/
def strip (text : List Char) : List Char :=
  ((text.dropWhile isSpace).reverse.dropWhile isSpace).reverse

/-- `"".join(text.split())`. -/
def dropSpaces (text : List Char) : List Char := text.filter fun c => !isSpace c

/-! ### Case -/

/-- The Kelvin sign. -/
def kelvin : Char := '\u212a'

/-- The lower case of one character. -/
def lowerChar (c : Char) : List Char :=
  if c = kelvin then ['k']
  else if c = '\u0130' then ['i', '\u0307']
  else [c.toLower]

/-- `text.lower()`. -/
def lower (text : List Char) : List Char := text.flatMap lowerChar

/-! ### Numbers -/

/-- The zero of each script's ten decimal digits, which are consecutive. -/
def zeros : List Nat :=
  [0x30, 0x660, 0x6f0, 0x7c0, 0x966, 0x9e6, 0xa66, 0xae6, 0xb66, 0xbe6, 0xc66, 0xce6, 0xd66,
   0xde6, 0xe50, 0xed0, 0xf20, 0x1040, 0x1090, 0x17e0, 0x1810, 0x1946, 0x19d0, 0x1a80, 0x1a90,
   0x1b50, 0x1bb0, 0x1c40, 0x1c50, 0xa620, 0xa8d0, 0xa900, 0xa9d0, 0xa9f0, 0xaa50, 0xabf0,
   0xff10, 0x104a0, 0x10d30, 0x11066, 0x110f0, 0x11136, 0x111d0, 0x112f0, 0x11450, 0x114d0,
   0x11650, 0x116c0, 0x11730, 0x118e0, 0x11950, 0x11c50, 0x11d50, 0x11da0, 0x11f50, 0x16a60,
   0x16ac0, 0x16b50, 0x1d7ce, 0x1d7d8, 0x1d7e2, 0x1d7ec, 0x1d7f6, 0x1e140, 0x1e2f0, 0x1e4f0,
   0x1e950, 0x1fbf0]

/-- The value of a decimal digit. -/
def decimal (c : Char) : Option Nat :=
  (zeros.find? fun z => z ≤ c.toNat && c.toNat < z + 10).map fun z => c.toNat - z

/-- The digits that are no decimal digits, such as superscripts, as ranges. -/
def otherDigits : List (Nat × Nat) :=
  [(0xb2, 0xb3), (0xb9, 0xb9), (0x1369, 0x1371), (0x19da, 0x19da), (0x2070, 0x2070),
   (0x2074, 0x2079), (0x2080, 0x2089), (0x2460, 0x2468), (0x2474, 0x247c), (0x2488, 0x2490),
   (0x24ea, 0x24ea), (0x24f5, 0x24fd), (0x24ff, 0x24ff), (0x2776, 0x277e), (0x2780, 0x2788),
   (0x278a, 0x2792), (0x10a40, 0x10a43), (0x10e60, 0x10e68), (0x11052, 0x1105a),
   (0x1f100, 0x1f10a)]

/-- `c.isdigit()`. -/
def isDigit (c : Char) : Bool :=
  (decimal c).isSome || otherDigits.any fun r => r.1 ≤ c.toNat && c.toNat ≤ r.2

/-- The digits of a number, with single underscores between them. -/
def digits : List Char → Option (List Nat)
  | [] => none
  | [c] => (decimal c).map fun d => [d]
  | c :: '_' :: rest => (decimal c).bind fun d => (digits rest).map fun ds => d :: ds
  | c :: c' :: rest => (decimal c).bind fun d => (digits (c' :: rest)).map fun ds => d :: ds

/-- The number that digits write. -/
def value (ds : List Nat) : Nat := ds.foldl (fun v d => 10 * v + d) 0

/-- `sys.get_int_max_str_digits()`. -/
def maxDigits : Nat := 4300

/-- `int(text)` without a sign. -/
def natural (text : List Char) : Option Nat :=
  (digits text).bind fun ds => if ds.length ≤ maxDigits then some (value ds) else none

/-- The white space that `int` takes off a number. The separators from 0x1c to 0x1f are none. -/
def isNumberSpace (c : Char) : Bool := isSpace c && !(0x1c ≤ c.toNat && c.toNat ≤ 0x1f)

/-- A text without the white space around a number. -/
def stripNumber (text : List Char) : List Char :=
  ((text.dropWhile isNumberSpace).reverse.dropWhile isNumberSpace).reverse

/-- `int(text)`, none where it raises. -/
def int (text : List Char) : Option Int :=
  match stripNumber text with
  | '-' :: rest => (natural rest).map fun n : Nat => -(n : Int)
  | '+' :: rest => (natural rest).map fun n : Nat => (n : Int)
  | rest => (natural rest).map fun n : Nat => (n : Int)

/-! ### What they make of ASCII -/

/-- A character of ASCII. -/
abbrev Ascii (c : Char) : Prop := c.toNat < 128

/-- Above ASCII, the decimal digits begin at 128. -/
theorem zeros_ascii : ∀ z ∈ zeros, z = 48 ∨ 128 ≤ z := by decide

/-- Digits by their code points. -/
theorem isDigit_iff (c : Char) : c.isDigit = true ↔ 48 ≤ c.toNat ∧ c.toNat ≤ 57 := by
  simp only [Char.isDigit, Bool.and_eq_true, decide_eq_true_eq, ge_iff_le,
    UInt32.le_iff_toNat_le]
  exact Iff.rfl

/-- Lower case letters by their code points. -/
theorem isLower_iff (c : Char) : c.isLower = true ↔ 97 ≤ c.toNat ∧ c.toNat ≤ 122 := by
  have h : c.isLower = (c.val ≥ 'a'.val && c.val ≤ 'z'.val) := rfl
  simp only [h, Bool.and_eq_true, decide_eq_true_eq, ge_iff_le, UInt32.le_iff_toNat_le]
  exact Iff.rfl

/-- Letters by their code points. -/
theorem isAlpha_iff (c : Char) : c.isAlpha = true ↔
    (65 ≤ c.toNat ∧ c.toNat ≤ 90) ∨ (97 ≤ c.toNat ∧ c.toNat ≤ 122) := by
  have h : c.isAlpha = (c.isUpper || c.isLower) := rfl
  have hup : c.isUpper = decide (c.val ≥ 'A'.val ∧ c.val ≤ 'Z'.val) := rfl
  rw [h, Bool.or_eq_true, isLower_iff, hup]
  simp only [decide_eq_true_eq, ge_iff_le, UInt32.le_iff_toNat_le]
  exact Iff.rfl

/-- An ASCII digit is a decimal digit. -/
theorem decimal_of_isDigit {c : Char} (h : c.isDigit = true) :
    decimal c = some (c.toNat - 48) := by
  have hrange := (isDigit_iff c).mp h
  have hfind : (zeros.find? fun z => z ≤ c.toNat && c.toNat < z + 10) = some 48 := by
    rw [zeros, List.find?_cons_of_pos]
    simp only [Bool.and_eq_true, decide_eq_true_eq]
    omega
  rw [decimal, hfind]
  rfl

/-- An ASCII character with a decimal value is an ASCII digit. -/
theorem isDigit_of_decimal {c : Char} {d : Nat} (h : decimal c = some d) (hc : Ascii c) :
    c.isDigit = true := by
  obtain ⟨z, hfind, -⟩ := Option.map_eq_some_iff.mp h
  have hz := List.find?_some hfind
  simp only [Bool.and_eq_true, decide_eq_true_eq] at hz
  rw [isDigit_iff]
  rcases zeros_ascii z (List.mem_of_find?_eq_some hfind) with rfl | hge
  · omega
  · omega

/-- Digits of ASCII are the ASCII digits. -/
theorem isDigit_of_ascii {c : Char} (hc : Ascii c) : isDigit c = true ↔ c.isDigit = true := by
  have hother : ∀ r ∈ otherDigits, 128 ≤ r.1 := by decide
  constructor
  · intro h
    rcases Bool.or_eq_true _ _ ▸ h with h | h
    · obtain ⟨d, hd⟩ := Option.isSome_iff_exists.mp h
      exact isDigit_of_decimal hd hc
    · obtain ⟨r, hr, hle⟩ := List.any_eq_true.mp h
      have hge := hother r hr
      simp only [Bool.and_eq_true, decide_eq_true_eq] at hle
      have hlt : c.toNat < 128 := hc
      omega
  · intro h
    rw [isDigit, decimal_of_isDigit h]
    rfl

/-- Lower case by code points. -/
theorem toNat_toLower (c : Char) :
    c.toLower.toNat = if 65 ≤ c.toNat ∧ c.toNat ≤ 90 then c.toNat + 32 else c.toNat := by
  unfold Char.toLower
  split
  · rename_i h
    have hge : 65 ≤ c.toNat := h.1
    have hle : c.toNat ≤ 90 := h.2
    have hval : c.val.toNat ≤ 90 := hle
    have hdiff : ('a'.val - 'A'.val).toNat = 32 := by decide
    rw [if_pos ⟨hge, hle⟩]
    show (c.val + ('a'.val - 'A'.val)).toNat = c.val.toNat + 32
    rw [UInt32.toNat_add]
    omega
  · rename_i h
    rw [if_neg]
    rintro ⟨hge, hle⟩
    exact h ⟨hge, hle⟩

/-- A character whose lower case is no letter is its own lower case. -/
theorem eq_of_toLower {c d : Char} (h : c.toLower = d) (hd : d.toNat < 97 ∨ 122 < d.toNat) :
    c = d := by
  have hnat := toNat_toLower c
  rw [h] at hnat
  split at hnat
  · omega
  · exact Char.toNat_inj.mp hnat.symm

/-- The lower case of a text without the two special characters. -/
theorem lower_of_forall {text : List Char}
    (h : ∀ c ∈ text, c ≠ kelvin ∧ c ≠ '\u0130') : lower text = text.map Char.toLower := by
  induction text with
  | nil => rfl
  | cons c text ih =>
      obtain ⟨hk, hi⟩ := h c List.mem_cons_self
      have hhead : lowerChar c = [c.toLower] := by
        rw [lowerChar, if_neg hk, if_neg hi]
      show lowerChar c ++ lower text = _
      rw [hhead, ih fun d hd => h d (List.mem_cons_of_mem _ hd)]
      rfl

/-- What the two special characters leave in the lower case. -/
theorem lower_special {text : List Char} (hk : kelvin ∈ text → 'k' ∉ lower text)
    (hi : '\u0307' ∉ lower text) : lower text = text.map Char.toLower := by
  refine lower_of_forall fun c hc => ⟨?_, ?_⟩
  · rintro rfl
    exact hk hc (List.mem_flatMap.mpr ⟨_, hc, by decide⟩)
  · rintro rfl
    exact hi (List.mem_flatMap.mpr ⟨_, hc, by decide⟩)

/-! ### Numerals of ASCII digits -/

/-- A number in ASCII digits. -/
def Numeral (text : List Char) : Prop := text ≠ [] ∧ ∀ c ∈ text, c.isDigit = true

/-- The digits of a numeral, one for each character. -/
theorem digits_of_numeral :
    ∀ text : List Char, Numeral text → digits text = some (text.map fun c => c.toNat - 48) := by
  intro text
  induction text with
  | nil =>
      intro h
      exact absurd rfl h.1
  | cons c text ih =>
      intro h
      have hc := decimal_of_isDigit (h.2 c List.mem_cons_self)
      cases text with
      | nil =>
          rw [digits, hc]
          rfl
      | cons c' rest =>
          have hrest := ih ⟨List.cons_ne_nil _ _, fun d hd => h.2 d (List.mem_cons_of_mem _ hd)⟩
          rw [digits]
          · rw [hc, hrest]
            rfl
          · rintro rfl
            exact absurd (h.2 '_' (by simp)) (by decide)

/-- A numeral is read as its number, up to the limit on the digits. -/
theorem natural_of_numeral {text : List Char} (h : Numeral text) :
    natural text
      = if text.length ≤ maxDigits then some (Nat.ofDigitChars 10 text 0) else none := by
  have hvalue : value (text.map fun c => c.toNat - 48) = Nat.ofDigitChars 10 text 0 := by
    rw [value, List.foldl_map, Nat.ofDigitChars_eq_foldl]
    rfl
  rw [natural, digits_of_numeral text h, Option.bind_some, List.length_map, hvalue]

/-- No digit is white space. -/
theorem not_isSpace_of_isDigit {c : Char} (h : c.isDigit = true) : isSpace c = false := by
  have hrange := (isDigit_iff c).mp h
  have hspaces : ∀ n ∈ spaces, ¬ (48 ≤ n ∧ n ≤ 57) := by decide
  simp only [isSpace, decide_eq_false_iff_not]
  exact fun hmem => hspaces _ hmem hrange

/-- Letters, digits and the signs between them are no white space. -/
theorem not_isSpace_of_toLower {c : Char} (h : 45 ≤ c.toLower.toNat)
    (h' : c.toLower.toNat ≤ 122) : isSpace c = false := by
  have hspaces : ∀ n ∈ spaces, n ≤ 32 ∨ 0x85 ≤ n := by decide
  have hnat := toNat_toLower c
  simp only [isSpace, decide_eq_false_iff_not]
  intro hmem
  have hn := hspaces _ hmem
  split at hnat <;> omega

/-- Every character of a number is a digit or an underscore. -/
theorem mem_of_digits :
    ∀ (text : List Char) (ds : List Nat), digits text = some ds →
      ∀ c ∈ text, c = '_' ∨ (decimal c).isSome = true := by
  -- By the recursion of the definition: a last digit, an underscore, or a further digit.
  intro text
  induction text using digits.induct with
  | case1 =>
      intro ds h
      cases h
  | case2 c =>
      intro ds h d hd
      obtain ⟨v, hv, -⟩ := Option.map_eq_some_iff.mp h
      rw [List.mem_singleton.mp hd, hv]
      exact .inr rfl
  | case3 c rest ih =>
      intro ds h d hd
      obtain ⟨v, hv, hrest⟩ := Option.bind_eq_some_iff.mp h
      obtain ⟨vs, hvs, -⟩ := Option.map_eq_some_iff.mp hrest
      rcases List.mem_cons.mp hd with rfl | hd
      · rw [hv]
        exact .inr rfl
      · rcases List.mem_cons.mp hd with rfl | hd
        · exact .inl rfl
        · exact ih vs hvs d hd
  | case4 c c' rest hne ih =>
      intro ds h d hd
      rw [digits] at h
      · obtain ⟨v, hv, hrest⟩ := Option.bind_eq_some_iff.mp h
        obtain ⟨vs, hvs, -⟩ := Option.map_eq_some_iff.mp hrest
        rcases List.mem_cons.mp hd with rfl | hd
        · rw [hv]
          exact .inr rfl
        · exact ih vs hvs d hd
      · exact hne

/-! ### Splitting -/

section
variable {α : Type} [DecidableEq α] {a : α}

/-- Splitting and dropping other characters commute. -/
theorem splitOn_filter {p : α → Bool} (ha : p a = true) (xs : List α) :
    (xs.filter p).splitOn a = (xs.splitOn a).map (List.filter p) := by
  induction xs with
  | nil => simp
  | cons x xs ih =>
      rw [List.splitOn_cons_eq_if_modifyHead]
      by_cases hx : x = a
      · subst hx
        rw [List.filter_cons_of_pos ha, List.splitOn_cons_eq_if_modifyHead, ih]
        simp
      · have hbeq : (x == a) = false := by simpa using hx
        obtain ⟨h, t, hsplit⟩ := List.exists_cons_of_ne_nil (List.splitOn_ne_nil a xs)
        rw [hsplit, List.map_cons] at ih
        by_cases hp : p x = true
        · rw [List.filter_cons_of_pos hp, List.splitOn_cons_eq_if_modifyHead, hbeq, ih, hsplit]
          simp [List.filter_cons_of_pos hp]
        · rw [List.filter_cons_of_neg hp, hbeq, ih, hsplit]
          simp [List.filter_cons_of_neg hp]

/-- Splitting commutes with a map that is injective at the separator. -/
theorem splitOn_map {f : α → α} (hf : ∀ x, f x = a ↔ x = a) (xs : List α) :
    (xs.map f).splitOn a = (xs.splitOn a).map (List.map f) := by
  induction xs with
  | nil => simp
  | cons x xs ih =>
      rw [List.map_cons, List.splitOn_cons_eq_if_modifyHead, List.splitOn_cons_eq_if_modifyHead]
      have hbeq : (f x == a) = (x == a) := by
        rw [Bool.eq_iff_iff, beq_iff_eq, beq_iff_eq]
        exact hf x
      obtain ⟨h, t, hsplit⟩ := List.exists_cons_of_ne_nil (List.splitOn_ne_nil a xs)
      rw [hbeq, ih, hsplit]
      by_cases hx : x = a
      · simp [hx]
      · have hne : (x == a) = false := by simpa using hx
        simp [hne]

/-- The separator is in no piece. -/
theorem not_mem_of_splitOn {xs piece : List α} (h : piece ∈ xs.splitOn a) : a ∉ piece := by
  induction xs generalizing piece with
  | nil =>
      rw [List.splitOn_nil, List.mem_singleton] at h
      subst h
      exact List.not_mem_nil
  | cons x xs ih =>
      rw [List.splitOn_cons_eq_if_modifyHead] at h
      by_cases hx : x = a
      · rw [if_pos (by simpa using hx)] at h
        rcases List.mem_cons.mp h with rfl | h
        · exact List.not_mem_nil
        · exact ih h
      · rw [if_neg (by simpa using hx)] at h
        obtain ⟨y, t, hsplit⟩ := List.exists_cons_of_ne_nil (List.splitOn_ne_nil a xs)
        rw [hsplit, List.modifyHead_cons] at h
        rw [hsplit] at ih
        rcases List.mem_cons.mp h with rfl | h
        · rw [List.mem_cons]
          rintro (heq | hmem)
          · exact hx heq.symm
          · exact ih List.mem_cons_self hmem
        · exact ih (List.mem_cons_of_mem _ h)

/-- The last piece goes on with the first one of what is appended. -/
theorem splitOn_append {xs ys piece piece' : List α} {done rest : List (List α)}
    (hx : xs.splitOn a = done ++ [piece]) (hy : ys.splitOn a = piece' :: rest) :
    (xs ++ ys).splitOn a = done ++ (piece ++ piece') :: rest := by
  -- By induction on the first text; its last piece meets the first one of the second.
  induction xs generalizing done piece with
  | nil =>
      rw [List.splitOn_nil] at hx
      cases done with
      | nil =>
          obtain rfl : piece = [] := by simpa using hx.symm
          exact hy
      | cons d done => simp at hx
  | cons x xs ih =>
      obtain ⟨init, last, hlast⟩ :=
        (List.eq_nil_or_concat' (xs.splitOn a)).resolve_left (List.splitOn_ne_nil a xs)
      rw [List.splitOn_cons_eq_if_modifyHead] at hx
      rw [List.cons_append, List.splitOn_cons_eq_if_modifyHead, ih hlast]
      -- The separator closes a piece, and any other character extends the first one.
      by_cases heq : (x == a) = true
      · rw [if_pos heq, hlast, ← List.cons_append] at hx
        rw [if_pos heq]
        obtain ⟨rfl, hp⟩ := List.append_inj' hx rfl
        cases hp
        rfl
      · rw [if_neg heq, hlast] at hx
        rw [if_neg heq]
        cases init with
        | nil =>
            have hp : [x :: last] = done ++ [piece] := hx
            obtain ⟨rfl, hlast⟩ := @List.append_inj' _ [] _ _ _ hp rfl
            cases hlast
            rfl
        | cons d init =>
            have hp : (x :: d) :: init ++ [last] = done ++ [piece] := hx
            obtain ⟨rfl, hl⟩ := List.append_inj' hp rfl
            cases hl
            rfl

/-- A text without the separator is one part. -/
theorem splitOn_of_notMem {xs : List α} (h : a ∉ xs) : xs.splitOn a = [xs] := by
  have hcut : ([a].intercalate [xs]).splitOn a = [xs] :=
    List.splitOn_intercalate a (by simpa using h) (List.cons_ne_nil _ _)
  rwa [List.intercalate_singleton] at hcut

/-- A separator at the end opens an empty piece. -/
theorem splitOn_append_sep (xs : List α) : (xs ++ [a]).splitOn a = xs.splitOn a ++ [[]] := by
  obtain ⟨init, last, hlast⟩ :=
    (List.eq_nil_or_concat' (xs.splitOn a)).resolve_left (List.splitOn_ne_nil a xs)
  have hsep : [a].splitOn a = [] :: [[]] := by simp [List.splitOn_cons_eq_if_modifyHead]
  rw [splitOn_append hlast hsep, hlast]
  simp

/-- The members of the pieces are members of the list. -/
theorem mem_of_mem_splitOn {xs piece : List α} {x : α} (h : piece ∈ xs.splitOn a)
    (hx : x ∈ piece) : x ∈ xs := by
  have hjoin : [a].intercalate (xs.splitOn a) = xs := List.intercalate_splitOn a
  rw [← hjoin]
  clear hjoin
  generalize xs.splitOn a = pieces at h
  induction pieces with
  | nil => cases h
  | cons p pieces ih =>
      cases pieces with
      | nil =>
          rw [List.mem_singleton] at h
          subst h
          rw [List.intercalate_singleton]
          exact hx
      | cons q pieces =>
          rw [List.intercalate_cons_cons, List.append_assoc, List.mem_append]
          rcases List.mem_cons.mp h with rfl | h
          · exact .inl hx
          · exact .inr (List.mem_append_right _ (ih h))

end

/-- The members of joined lists. -/
theorem mem_intercalate {α : Type} {x a : α} (xss : List (List α)) (h : x ∈ [a].intercalate xss) :
    x = a ∨ ∃ xs ∈ xss, x ∈ xs := by
  induction xss with
  | nil => cases h
  | cons xs xss ih =>
      cases xss with
      | nil =>
          rw [List.intercalate_singleton] at h
          exact .inr ⟨xs, List.mem_cons_self, h⟩
      | cons ys xss =>
          rw [List.intercalate_cons_cons, List.append_assoc, List.mem_append,
            List.mem_append] at h
          rcases h with h | h | h
          · exact .inr ⟨xs, List.mem_cons_self, h⟩
          · exact .inl (List.mem_singleton.mp h)
          · rcases ih h with h | ⟨zs, hzs, h⟩
            · exact .inl h
            · exact .inr ⟨zs, List.mem_cons_of_mem _ hzs, h⟩

/-- White space at the start is dropped one way or the other. -/
theorem dropSpaces_dropWhile {p : Char → Bool} (hp : ∀ c, p c = true → isSpace c = true)
    (text : List Char) : dropSpaces (text.dropWhile p) = dropSpaces text := by
  induction text with
  | nil => rfl
  | cons c text ih =>
      rw [List.dropWhile_cons]
      split
      · rename_i hc
        rw [ih]
        simp [dropSpaces, hp c hc]
      · rfl

/-- Reversing and dropping white space commute. -/
theorem dropSpaces_reverse (text : List Char) :
    dropSpaces text.reverse = (dropSpaces text).reverse := List.filter_reverse

/-- Stripping drops nothing but white space. -/
theorem dropSpaces_strip (text : List Char) : dropSpaces (strip text) = dropSpaces text := by
  have hself : ∀ c, isSpace c = true → isSpace c = true := fun _ h => h
  rw [strip, dropSpaces_reverse, dropSpaces_dropWhile hself, dropSpaces_reverse,
    List.reverse_reverse, dropSpaces_dropWhile hself]

/-- What is stripped from a number is white space. -/
theorem dropSpaces_stripNumber (text : List Char) :
    dropSpaces (stripNumber text) = dropSpaces text := by
  have hspace : ∀ c, isNumberSpace c = true → isSpace c = true := fun c h =>
    (Bool.and_eq_true _ _ ▸ h : _ ∧ _).1
  rw [stripNumber, dropSpaces_reverse, dropSpaces_dropWhile hspace, dropSpaces_reverse,
    List.reverse_reverse, dropSpaces_dropWhile hspace]

/-- Nothing is dropped where the test fails everywhere. -/
theorem dropWhile_of_forall {p : Char → Bool} {text : List Char}
    (h : ∀ c ∈ text, p c = false) : text.dropWhile p = text := by
  cases text with
  | nil => rfl
  | cons c text => rw [List.dropWhile_cons_of_neg (by simp [h c List.mem_cons_self])]

/-- A text that starts with no white space loses only what is at its end. -/
theorem strip_eq_rdropWhile {text : List Char} {c : Char} (h : text.head? = some c)
    (hc : isSpace c = false) : strip text = text.rdropWhile isSpace := by
  cases text with
  | nil => cases h
  | cons d text =>
    cases h
    rw [strip, List.dropWhile_cons_of_neg (by simpa using hc)]
    rfl

/-- A text without white space is left alone. -/
theorem strip_of_forall {text : List Char} (h : ∀ c ∈ text, isSpace c = false) :
    strip text = text := by
  rw [strip, dropWhile_of_forall h, dropWhile_of_forall, List.reverse_reverse]
  intro c hc
  exact h c (List.mem_reverse.mp hc)

/-- So it is by `int`. -/
theorem stripNumber_of_forall {text : List Char} (h : ∀ c ∈ text, isSpace c = false) :
    stripNumber text = text := by
  have hnumber : ∀ c ∈ text, isNumberSpace c = false := by
    intro c hc
    rw [isNumberSpace, h c hc]
    rfl
  rw [stripNumber, dropWhile_of_forall hnumber, dropWhile_of_forall, List.reverse_reverse]
  intro c hc
  exact hnumber c (List.mem_reverse.mp hc)

/-- `int` on ASCII digits. -/
theorem int_of_numeral {text : List Char} (h : Numeral text) :
    int text = if text.length ≤ maxDigits then some (Nat.ofDigitChars 10 text 0 : Int)
      else none := by
  have hstrip : stripNumber text = text :=
    stripNumber_of_forall fun c hc => not_isSpace_of_isDigit (h.2 c hc)
  have hmap : (natural text).map (fun n : Nat => (n : Int)) =
      if text.length ≤ maxDigits then some (Nat.ofDigitChars 10 text 0 : Int) else none := by
    rw [natural_of_numeral h]
    split
    · rfl
    · rfl
  rw [int, hstrip, ← hmap]
  split
  · exact absurd (h.2 '-' List.mem_cons_self) (by decide)
  · exact absurd (h.2 '+' List.mem_cons_self) (by decide)
  · rfl

/-! ### White space inside a text -/

/-- A text without white space is kept whole. -/
theorem dropSpaces_of_forall {text : List Char} (h : ∀ c ∈ text, isSpace c = false) :
    dropSpaces text = text :=
  List.filter_eq_self.mpr fun c hc => by simp [h c hc]

/-- No white space is left. -/
theorem not_isSpace_of_mem_dropSpaces {text : List Char} {c : Char} (h : c ∈ dropSpaces text) :
    isSpace c = false := by
  simpa using (List.mem_filter.mp h).2

/-- A text of white space is stripped to nothing. -/
theorem strip_eq_nil (text : List Char) : strip text = [] ↔ dropSpaces text = [] := by
  constructor
  · intro h
    rw [← dropSpaces_strip, h]
    rfl
  · intro h
    have hall : ∀ c ∈ text, isSpace c = true := by
      simpa [dropSpaces, List.filter_eq_nil_iff] using h
    have hdrop : text.dropWhile isSpace = [] := List.dropWhile_eq_nil_iff.mpr hall
    rw [strip, hdrop]
    rfl

section
variable {c : Char} (hc : isSpace c = false) (text : List Char)
include hc

/-- What stands in front of a character, without white space. -/
theorem takeWhile_dropSpaces :
    (dropSpaces text).takeWhile (· ≠ c) = dropSpaces (text.takeWhile (· ≠ c)) := by
  induction text with
  | nil => rfl
  | cons d text ih =>
      simp only [dropSpaces, ne_eq, decide_not] at ih ⊢
      by_cases hd : d = c
      · subst hd
        simp [hc]
      · by_cases hs : isSpace d = true
        · simp [hs, hd, ih]
        · simp [hs, hd, ih]

/-- What stands behind it, without white space. -/
theorem dropWhile_dropSpaces :
    ((dropSpaces text).dropWhile (· ≠ c)).drop 1 =
      dropSpaces ((text.dropWhile (· ≠ c)).drop 1) := by
  induction text with
  | nil => rfl
  | cons d text ih =>
      simp only [dropSpaces, ne_eq, decide_not] at ih ⊢
      by_cases hd : d = c
      · subst hd
        simp [hc]
      · by_cases hs : isSpace d = true
        · simp [hs, hd, ih]
        · simp [hs, hd, ih]

/-- The other characters are kept. -/
theorem mem_dropSpaces_iff : c ∈ dropSpaces text ↔ c ∈ text := by
  simp [dropSpaces, hc]

end

/-- The lower case of white space is white space, and that of no other character is. -/
theorem dropSpaces_lowerChar (c : Char) :
    dropSpaces (lowerChar c) = if isSpace c = true then [] else lowerChar c := by
  have hspaces : ∀ n ∈ spaces, n ≤ 32 ∨ (0x85 ≤ n ∧ n ≠ 0x212a ∧ n ≠ 0x130) := by decide
  have hnat := toNat_toLower c
  by_cases hk : c = kelvin
  · subst hk
    rfl
  · by_cases hi : c = '\u0130'
    · subst hi
      rfl
    · have hlow : lowerChar c = [c.toLower] := by
        rw [lowerChar, if_neg hk, if_neg hi]
      have hspace : isSpace c.toLower = isSpace c := by
        rw [Bool.eq_iff_iff, isSpace, isSpace, decide_eq_true_iff, decide_eq_true_iff, hnat]
        split
        · constructor
          · intro h
            have hn := hspaces _ h
            omega
          · intro h
            have hn := hspaces _ h
            omega
        · exact Iff.rfl
      rw [hlow, dropSpaces]
      by_cases hc : isSpace c = true
      · rw [if_pos hc, List.filter_cons_of_neg (by simp [hspace, hc])]
        rfl
      · rw [if_neg hc, List.filter_cons_of_pos (by simp [hspace, hc])]
        rfl

/-- White space is dropped part by part. -/
theorem dropSpaces_append (text text' : List Char) :
    dropSpaces (text ++ text') = dropSpaces text ++ dropSpaces text' := List.filter_append ..

/-- `lower` and dropping white space commute. -/
theorem dropSpaces_lower (text : List Char) :
    dropSpaces (lower text) = lower (dropSpaces text) := by
  induction text with
  | nil => rfl
  | cons c text ih =>
      have hcons : lower (c :: text) = lowerChar c ++ lower text := List.flatMap_cons ..
      rw [hcons, dropSpaces_append, ih, dropSpaces_lowerChar]
      by_cases hc : isSpace c = true
      · rw [if_pos hc, dropSpaces, dropSpaces, List.filter_cons_of_neg (by simp [hc])]
        rfl
      · rw [if_neg hc, dropSpaces, dropSpaces, List.filter_cons_of_pos (by simp [hc])]
        exact (List.flatMap_cons ..).symm

/-- A colon comes from a colon. -/
theorem colon_of_lower {text : List Char} (h : ':' ∈ lower text) : ':' ∈ text := by
  obtain ⟨c, hc, hlow⟩ := List.mem_flatMap.mp h
  have heq : c = ':' := by
    unfold lowerChar at hlow
    split at hlow
    · exact absurd hlow (by decide)
    · split at hlow
      · exact absurd hlow (by decide)
      · exact eq_of_toLower (List.mem_singleton.mp hlow).symm (.inl (by decide))
  exact heq ▸ hc

/-- A decimal digit is no white space. -/
theorem not_isSpace_of_decimal {c : Char} (h : (decimal c).isSome = true) :
    isSpace c = false := by
  have hapart : ∀ z ∈ zeros, ∀ n ∈ spaces, ¬ (z ≤ n ∧ n < z + 10) := by decide
  obtain ⟨d, hd⟩ := Option.isSome_iff_exists.mp h
  obtain ⟨z, hfind, -⟩ := Option.map_eq_some_iff.mp hd
  have hz := List.find?_some hfind
  simp only [Bool.and_eq_true, decide_eq_true_eq] at hz
  simp only [isSpace, decide_eq_false_iff_not]
  exact fun hn => hapart z (List.mem_of_find?_eq_some hfind) _ hn hz

/-- No digit of any script is white space. -/
theorem not_isSpace_of_digit {c : Char} (h : isDigit c = true) : isSpace c = false := by
  have hapart : ∀ r ∈ otherDigits, ∀ n ∈ spaces, ¬ (r.1 ≤ n ∧ n ≤ r.2) := by decide
  rcases Bool.or_eq_true _ _ ▸ h with h | h
  · exact not_isSpace_of_decimal h
  · obtain ⟨r, hr, hle⟩ := List.any_eq_true.mp h
    simp only [Bool.and_eq_true, decide_eq_true_eq] at hle
    simp only [isSpace, decide_eq_false_iff_not]
    exact fun hn => hapart r hr _ hn hle

/-- Numbers have no white space inside. -/
theorem not_isSpace_of_natural {text : List Char} {n : Nat} (h : natural text = some n) :
    ∀ c ∈ text, isSpace c = false := by
  obtain ⟨ds, hds, -⟩ := Option.bind_eq_some_iff.mp h
  intro c hc
  rcases mem_of_digits text ds hds c hc with rfl | hdec
  · decide
  · exact not_isSpace_of_decimal hdec

/-- `int` reads the same number when white space is dropped. -/
theorem int_dropSpaces {text : List Char} {n : Int} (h : int text = some n) :
    int (dropSpaces text) = some n := by
  have hcons : ∀ (c : Char) (rest : List Char), isSpace c = false →
      (∀ d ∈ rest, isSpace d = false) → ∀ d ∈ c :: rest, isSpace d = false := by
    intro c rest hc hrest d hd
    rcases List.mem_cons.mp hd with rfl | hd
    · exact hc
    · exact hrest d hd
  have hsolid : ∀ c ∈ stripNumber text, isSpace c = false := by
    unfold int at h
    split at h
    · rename_i rest hrest
      obtain ⟨k, hk, -⟩ := Option.map_eq_some_iff.mp h
      rw [hrest]
      exact hcons _ _ (by decide) (not_isSpace_of_natural hk)
    · rename_i rest hrest
      obtain ⟨k, hk, -⟩ := Option.map_eq_some_iff.mp h
      rw [hrest]
      exact hcons _ _ (by decide) (not_isSpace_of_natural hk)
    · obtain ⟨k, hk, -⟩ := Option.map_eq_some_iff.mp h
      exact not_isSpace_of_natural hk
  have hdrop : dropSpaces text = stripNumber text := by
    rw [← dropSpaces_stripNumber, dropSpaces_of_forall hsolid]
  have hagain : stripNumber (dropSpaces text) = stripNumber text := by
    rw [hdrop, stripNumber_of_forall hsolid]
  rw [← h, int, hagain, int]

end Py
