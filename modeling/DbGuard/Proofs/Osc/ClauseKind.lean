import DbGuard.Osc.Reading
import DbGuard.Proofs.Osc.Clauses
import DbGuard.Proofs.Regex

/-!
# `DbGuard.Proofs.Osc.ClauseKind`: the kind of a clause that renames a column

`PlainName` are the names that `_IDENT` takes as a whole, and gives back through `_ident`. With
white space and nothing else around its words, a `RENAME COLUMN` or a `CHANGE` with such names is
a rename to `parse_alter`, whatever follows the new name (`kind_rename`, `kind_change`).

`_strip_quoted` and the patterns are followed from the start of the clause. A keyword in any case
is in capitals after `upper`, and the patterns that are tried before fail at the first letter
(`kind_clauseOf`). An optional `COLUMN` is not found in a name that only begins so
(`PlainName.fails_column`).
-/

set_option autoImplicit false

namespace DbGuard.Osc

open Py (Re)

/-! ### How a name is spelled -/

/-- White space of MySQL and nothing else. -/
def IsBlank (gap : List Char) : Prop := ∀ ch ∈ gap, ch ∈ blanks

/-- A name that `_IDENT` matches: a word of ASCII, or a name in backticks. -/
inductive PlainName : Token → Prop
  | word {text : List Char} (hne : text ≠ [])
      (hall : ∀ ch ∈ text, (ch.isAlphanum || ch = '_' || ch = '$') = true) :
      PlainName (.word text)
  | quoted {name : List Char} (hne : name ≠ []) : PlainName (.quoted name)

/-- An optional `COLUMN`, with the white space behind it. -/
inductive ColumnWord : List Token → Prop
  | none : ColumnWord []
  | some {k : Token} {gap : List Char} (hk : k.isKeyword "COLUMN" = true) (hne : gap ≠ [])
      (hgap : IsBlank gap) : ColumnWord (k :: gap.map .blank)

/-! ### Tokens and their characters -/

section
variable {t : Token} {ts ts' : List Token} {gap : List Char} {keyword : String} {c : Column}

/-- No tokens, no text. -/
@[simp] theorem render_nil : render [] = [] := rfl

/-- The text of the first token comes first. -/
@[simp] theorem render_cons : render (t :: ts) = t.text ++ render ts := rfl

/-- Texts are put one behind the other. -/
@[simp] theorem render_append : render (ts ++ ts') = render ts ++ render ts' :=
  List.flatMap_append

/-- A gap is rendered as it stands. -/
@[simp] theorem render_blank : render (gap.map .blank) = gap := by
  induction gap with
  | nil => rfl
  | cons ch gap ih => rw [List.map_cons, render_cons, ih]; rfl

/-- The tokens that matter of both parts. -/
@[simp] theorem significant_append :
    significant (ts ++ ts') = significant ts ++ significant ts' :=
  List.filter_append ..

/-- None in a gap. -/
@[simp] theorem significant_blank : significant (gap.map .blank) = [] := by
  rw [significant, List.filter_eq_nil_iff]
  intro t ht
  obtain ⟨ch, -, rfl⟩ := List.mem_map.mp ht
  exact fun h => by cases h

/-- A token that is no gap matters. -/
theorem significant_cons (h : t.isGap = false) : significant (t :: ts) = t :: significant ts :=
  List.filter_cons_of_pos (by simp [h])

/-- A keyword is a word. -/
theorem Token.eq_word (h : t.isKeyword keyword = true) :
    ∃ w, t = .word w ∧ w.map Char.toUpper = keyword.toList := by
  cases t with
  | word w => exact ⟨w, rfl, of_decide_eq_true h⟩
  | _ => cases h

/-- A name is no gap. -/
theorem PlainName.isGap (h : PlainName t) : t.isGap = false := by
  cases h <;> rfl

/-- The characters of a word that is not quoted. -/
theorem plain_of_word {ch : Char} (h : (ch.isAlphanum || ch = '_' || ch = '$') = true) :
    ch ∉ quotes ∧ ch ≠ '(' ∧ ch ≠ ')' ∧ ch ≠ ',' ∧ ch ≠ backtick ∧ Py.isSpace ch = false := by
  have hne : ∀ x : Char, (x.isAlphanum || x = '_' || x = '$') = false → ch ≠ x := by
    rintro x hx rfl
    rw [h] at hx
    cases hx
  refine ⟨?_, hne _ (by decide), hne _ (by decide), hne _ (by decide), hne _ (by decide), ?_⟩
  · intro hmem
    simp only [quotes, List.mem_cons, List.not_mem_nil, or_false] at hmem
    rcases hmem with heq | heq | heq <;> exact hne _ (by decide) heq
  · simp only [Char.isAlphanum, Bool.or_eq_true, decide_eq_true_eq] at h
    rcases h with ((halpha | hdigit) | rfl) | rfl
    · refine Py.not_isSpace_of_toLower ?_ ?_ <;>
        rw [Py.toNat_toLower] <;> rcases (Py.isAlpha_iff ch).mp halpha with hr | hr <;> split <;> omega
    · exact Py.not_isSpace_of_isDigit hdigit
    · decide
    · decide

/-- What is computed for all of the white space of MySQL. -/
theorem of_blanks {f : Char → Bool} (hall : blanks.all f = true) {ch : Char} (h : ch ∈ blanks) :
    f ch = true :=
  List.all_eq_true.mp hall ch h

/-- A blank is white space to Python and nothing to the scanners. -/
theorem plain_of_blank {ch : Char} (h : ch ∈ blanks) :
    (ch ∉ quotes ∧ ch ≠ '(' ∧ ch ≠ ')' ∧ ch ≠ ',') ∧ Py.isSpace ch = true :=
  of_decide_eq_true (of_blanks (f := fun ch => decide ((ch ∉ quotes ∧ ch ≠ '(' ∧ ch ≠ ')' ∧
    ch ≠ ',') ∧ Py.isSpace ch = true)) (by decide) h)

/-- A text that closes what it opens, behind characters that open nothing. -/
theorem Closed.of_plain {w text : List Char} (h : Closed 0 text)
    (hw : ∀ ch ∈ w, ch ∉ quotes ∧ ch ≠ '(' ∧ ch ≠ ')' ∧ ch ≠ ',') : Closed 0 (w ++ text) := by
  induction w with
  | nil => exact h
  | cons ch w ih =>
    obtain ⟨hquote, hleft, hright, hcomma⟩ := hw ch List.mem_cons_self
    refine .char hquote ⟨hleft, hright⟩ (fun hch => absurd hch hcomma) ?_
    exact ih fun ch' hch' => hw ch' (List.mem_cons_of_mem _ hch')

/-- A name with its backticks doubled closes where it should. -/
theorem quotedBody_double (name : List Char) : QuotedBody backtick (double name) := by
  induction name with
  | nil => exact .nil
  | cons ch name ih =>
    show QuotedBody backtick ((if ch = backtick then [backtick, backtick] else [ch]) ++ double name)
    split
    · exact .doubled ih
    · rename_i hne
      exact .char hne (fun _ => rfl) ih

/-! ### A name, as `_IDENT` and `_ident` read it -/

/-- Undoing the doubling gives the name back. -/
theorem undouble_double (name : List Char) : undouble (double name) = name := by
  induction name with
  | nil => rfl
  | cons ch name ih =>
    show undouble ((if ch = backtick then [backtick, backtick] else [ch]) ++ double name) = _
    split
    · rename_i heq
      show undouble (backtick :: backtick :: double name) = _
      rw [undouble, if_pos ⟨rfl, rfl⟩, ih, heq]
    · rename_i hne
      show undouble (ch :: double name) = _
      cases hrest : double name with
      | nil =>
        rw [hrest] at ih
        rw [← ih]
        rfl
      | cons next rest => rw [undouble, if_neg fun h => hne h.1, ← hrest, ih]

section
variable {alnum : Char → Bool} {b : Option Char} {gs : List (List Char)} {rest : List Char}

/-- What `_IDENT` takes of a name in backticks in one round. -/
def quotedRe : Re :=
  .alt (.char (· ≠ backtick)) (.all [.char (· = backtick), .char (· = backtick)])

/-- There is no character but a backtick where one stands. -/
theorem fails_backtick {text : List Char} :
    Re.Fails alnum (.char (· ≠ backtick)) ⟨b, backtick :: text, gs⟩ := by
  refine .char fun ch hch => ?_
  obtain rfl : backtick = ch := Option.some.inj hch
  decide

/-- The pattern takes one character of the name, or a doubled backtick. -/
theorem first_quoted (ch : Char) (text : List Char) :
    Re.First alnum quotedRe ⟨b, double [ch] ++ text, gs⟩
      ⟨Re.lastOr b (double [ch]), text, gs⟩ := by
  by_cases hch : ch = backtick
  · subst hch
    exact .alt_right fails_backtick (.all_cons (.char (by decide))
      (.all_cons (.char (by decide)) .all_nil))
  · have hdouble : double [ch] = [ch] := by
      show (if ch = backtick then [backtick, backtick] else [ch]) ++ [] = [ch]
      rw [if_neg hch]
      rfl
    rw [hdouble]
    exact .alt_left (.char (decide_eq_true hch))

/-- Doubling goes character by character. -/
theorem double_cons (ch : Char) (name : List Char) :
    double (ch :: name) = double [ch] ++ double name := by
  rw [double, List.flatMap_cons, double, List.flatMap_singleton]
  rfl

/-- No character is doubled to nothing. -/
theorem double_ne_nil (ch : Char) : double [ch] ≠ [] := by
  show (if ch = backtick then [backtick, backtick] else [ch]) ++ [] ≠ []
  split <;> simp

/-- No character of a name in backticks ends it. -/
theorem first_double (hrest : rest.head? ≠ some backtick) (name : List Char) :
    Re.First alnum (.star quotedRe) ⟨b, double name ++ backtick :: rest, gs⟩
      ⟨Re.lastOr b (double name), backtick :: rest, gs⟩ := by
  induction name generalizing b with
  | nil =>
    refine .star_stop (.alt fails_backtick ?_)
    refine Re.Fails.seq_right (Re.ends_char (by decide)) (Re.Fails.all_cons (.char fun ch hch => ?_))
    exact decide_eq_false fun heq => hrest (heq ▸ hch)
  | cons ch name ih =>
    rw [double_cons, List.append_assoc, Re.lastOr_append]
    refine .star_cons (first_quoted ch _) ?_ ih
    have hlen := List.length_pos_of_ne_nil (double_ne_nil ch)
    simp only [List.length_append]
    omega

/-- The end of what follows a name. -/
def Ends (rest : List Char) : Prop := ∀ ch ∈ rest.head?, ch ∈ blanks

/-- A name ends before any further backtick. -/
theorem Ends.not_backtick (h : Ends rest) : rest.head? ≠ some backtick := by
  intro hhead
  exact absurd (h backtick hhead) (by decide)

/-- `_IDENT` takes a name as a whole. -/
theorem PlainName.first {t : Token} (h : PlainName t) (hrest : Ends rest) :
    Re.First alnum identRe ⟨b, t.text ++ rest, gs⟩
      ⟨Re.lastOr b t.text, rest, gs ++ [t.text]⟩ := by
  refine .group ?_
  -- A plain word is matched by the second alternative, a quoted name by the first.
  cases h with
  | @word text hne hall =>
    refine .alt_right (Re.Fails.all_cons (.char fun ch hch => ?_))
      (.plus_char hne (fun ch hch => ?_) fun ch hch => ?_)
    · cases text with
      | nil => exact absurd rfl hne
      | cons x text =>
        obtain rfl : x = ch := Option.some.inj hch
        exact decide_eq_false (plain_of_word (hall x List.mem_cons_self)).2.2.2.2.1
    · rw [hall ch hch, Bool.true_or]
    -- The word ends where a blank or nothing follows.
    · have hno := of_blanks (f := fun ch => !(ch.isAlphanum || ch = '_' || ch = '$' ||
        ch ∈ [Py.kelvin, '\u017f', '\u0130', '\u0131'])) (by decide) (hrest ch hch)
      simpa using hno
  | @quoted name hne =>
    cases name with
    | nil => exact absurd rfl hne
    | cons ch name =>
      -- The opening quote, the first character, the rest with its quotes doubled, the closing
      -- one.
      have htext : (Token.quoted (ch :: name)).text ++ rest =
          backtick :: (double [ch] ++ (double name ++ backtick :: rest)) := by
        rw [Token.text, double_cons]
        simp
      have hlast : Re.lastOr b (Token.quoted (ch :: name)).text = some backtick := by
        rw [Token.text, ← List.cons_append, Re.lastOr_append]
        rfl
      have hname : Re.First alnum (.plus quotedRe)
          ⟨some backtick, double [ch] ++ (double name ++ backtick :: rest), gs⟩
          ⟨Re.lastOr (Re.lastOr (some backtick) (double [ch])) (double name), backtick :: rest, gs⟩ :=
        (first_quoted ch _).seq (first_double hrest.not_backtick name)
      rw [htext, hlast]
      -- The name cannot be shortened: what follows it is no quote.
      exact .alt_left (.all_cons (.char (by decide)) (.all_cons hname
        (.all_cons (.char (by decide)) .all_nil)))

/-! ### Trimming -/

/-- A text that begins and ends with no white space, and does not end with a semicolon. -/
structure Solid (w : List Char) : Prop where
  nonempty : w ≠ []
  head : ∀ ch ∈ w.head?, Py.isSpace ch = false
  last : ∀ ch ∈ w.getLast?, Py.isSpace ch = false ∧ ch ≠ ';'

/-- What is taken off at the end stops at a character that stays. -/
theorem rdropWhile_append_of_last {p : Char → Bool} {w y : List Char}
    (hlast : ∀ ch ∈ w.getLast?, p ch = false) :
    (w ++ y).rdropWhile p = w ++ y.rdropWhile p := by
  have hstop : w.reverse.dropWhile p = w.reverse := by
    cases hw : w.reverse with
    | nil => rfl
    | cons ch tail =>
      refine List.dropWhile_cons_of_neg ?_
      have hch : ch ∈ w.getLast? := by
        rw [← List.head?_reverse, hw]
        rfl
      rw [hlast ch hch]
      exact Bool.false_ne_true
  unfold List.rdropWhile
  rw [List.reverse_append, List.dropWhile_append, hstop]
  split
  · rename_i hempty
    rw [List.isEmpty_iff.mp hempty]
    simp
  · simp

/-- White space in front is dropped up to a character that is none. -/
theorem dropWhile_append_of_head {p : Char → Bool} {lead w : List Char}
    (hhead : ∀ ch ∈ w.head?, p ch = false) :
    (lead ++ w).dropWhile p = lead.dropWhile p ++ w := by
  have hstop : w.dropWhile p = w := by
    cases w with
    | nil => rfl
    | cons ch tail =>
      refine List.dropWhile_cons_of_neg ?_
      rw [hhead ch rfl]
      exact Bool.false_ne_true
  rw [List.dropWhile_append, hstop]
  split
  · rename_i hempty
    rw [List.isEmpty_iff.mp hempty]
    rfl
  · rfl

/-- `strip` drops at both ends. -/
theorem strip_eq (text : List Char) :
    Py.strip text = (text.dropWhile Py.isSpace).rdropWhile Py.isSpace := rfl

/-- `strip` of a text around a solid one. -/
theorem Solid.strip {lead w : List Char} (h : Solid w) (y : List Char) :
    Py.strip (lead ++ (w ++ y)) =
      lead.dropWhile Py.isSpace ++ w ++ y.rdropWhile Py.isSpace := by
  have hhead : ∀ ch ∈ (w ++ y).head?, Py.isSpace ch = false := by
    intro ch hch
    rw [List.head?_append_of_ne_nil _ h.nonempty] at hch
    exact h.head ch hch
  have hlast : ∀ ch ∈ (lead.dropWhile Py.isSpace ++ w).getLast?, Py.isSpace ch = false := by
    intro ch hch
    rw [List.getLast?_append_of_ne_nil _ h.nonempty] at hch
    exact (h.last ch hch).1
  rw [strip_eq, dropWhile_append_of_head hhead, ← List.append_assoc,
    rdropWhile_append_of_last hlast]

/-- A solid text is not stripped. -/
theorem Solid.strip_self {w : List Char} (h : Solid w) : Py.strip w = w := by
  have hself : Py.strip ([] ++ (w ++ [])) = [].dropWhile Py.isSpace ++ w ++ [] := h.strip []
  simpa using hself

/-- A name is solid. -/
theorem PlainName.solid {t : Token} (h : PlainName t) : Solid t.text := by
  cases h with
  | @word text hne hall =>
    have hsolid : ∀ ch ∈ text, Py.isSpace ch = false := fun ch hch =>
      (plain_of_word (hall ch hch)).2.2.2.2.2
    refine ⟨hne, fun ch hch => hsolid ch (List.mem_of_mem_head? hch), fun ch hch => ?_⟩
    have hmem : ch ∈ text := List.mem_of_mem_getLast? hch
    refine ⟨hsolid ch hmem, ?_⟩
    rintro rfl
    exact absurd (hall ';' hmem) (by decide)
  | @quoted name hne =>
    refine ⟨by simp [Token.text], fun ch hch => ?_, fun ch hch => ?_⟩
    · obtain rfl : backtick = ch := Option.some.inj hch
      decide
    · rw [Token.text, ← List.cons_append, List.getLast?_concat] at hch
      obtain rfl : backtick = ch := Option.some.inj hch
      decide

/-- `_ident` gives the name back. -/
theorem PlainName.name {t : Token} (h : PlainName t) : t.name = some (ident t.text) := by
  cases h with
  | @word text hne hall =>
    have hstrip : Py.strip text = text :=
      Py.strip_of_forall fun ch hch => (plain_of_word (hall ch hch)).2.2.2.2.2
    have hhead : text.head? ≠ some backtick := by
      intro hhead
      have hmem : backtick ∈ text := List.mem_of_mem_head? hhead
      exact (plain_of_word (hall _ hmem)).2.2.2.2.1 rfl
    show some (String.ofList text) = some (ident text)
    rw [ident, hstrip, if_neg fun h => hhead h.1]
  | @quoted name hne =>
    have hsolid : Solid (Token.quoted name).text := (PlainName.quoted hne).solid
    show some (String.ofList name) = some (ident (Token.quoted name).text)
    rw [ident, hsolid.strip_self, if_pos]
    · show some (String.ofList name) =
        some (String.ofList (undouble (double name ++ [backtick]).dropLast))
      rw [List.dropLast_concat, undouble_double]
    · refine ⟨rfl, ?_⟩
      show (backtick :: (double name ++ [backtick])).getLast? = some backtick
      rw [← List.cons_append, List.getLast?_concat]

/-- No keyword COLUMN stands before this name. -/
theorem PlainName.fails_column {t : Token} (h : PlainName t) (hword : t.isKeyword "COLUMN" = false)
    {ch : Char} (hch : ch ∈ blanks) :
    Re.Fails alnum (.seq (.textIgnoreCase "column") .spaces) ⟨b, t.text ++ ch :: rest, gs⟩ := by
  rw [Re.textIgnoreCase_eq]
  refine .chars_seq fun w rest' heq hall => ?_
  have hcolumn : w.map Char.toUpper = "COLUMN".toList := by
    rw [List.forall₂_map_left_iff] at hall
    have hlower : w.map Char.toLower = "column".toList :=
      Re.toLower_of_sameLetter (by decide) hall
    have hupper := congrArg (List.map Char.toUpper) hlower
    rw [List.map_map] at hupper
    rw [← show Char.toUpper ∘ Char.toLower = Char.toUpper from funext Py.toUpper_toLower]
    exact hupper
  -- A word that begins with COLUMN goes on, so there is no white space behind it.
  have hnot : w ≠ t.text := by
    rintro rfl
    cases h with
    | word hne hall => exact absurd hcolumn (of_decide_eq_false hword)
    | quoted hne => cases List.head_eq_of_cons_eq hcolumn
  rcases List.append_eq_append_iff.mp heq with ⟨a, hw, hmore⟩ | ⟨a, htext, hrest'⟩
  · cases a with
    | nil => exact absurd (hw.trans (List.append_nil _)) hnot
    | cons x a =>
      obtain ⟨rfl, -⟩ := List.cons_eq_cons.mp hmore
      have hmem : ch.toUpper ∈ w.map Char.toUpper := by
        rw [hw]
        exact List.mem_map_of_mem (by simp)
      rw [hcolumn] at hmem
      have hno := of_blanks (f := fun ch => ch.toUpper ∉ "COLUMN".toList) (by decide) hch
      exact absurd hmem (of_decide_eq_true hno)
  · cases a with
    | nil => exact absurd (htext.trans (List.append_nil _)).symm hnot
    | cons x a =>
      have hx : Py.isSpace x = false := by
        cases h with
        | @word text hne hall =>
          have hmem : x ∈ (Token.word text).text := by
            rw [htext]
            simp
          exact (plain_of_word (hall x hmem)).2.2.2.2.2
        | quoted hne =>
          cases w with
          | nil => cases hcolumn
          | cons c w =>
            obtain ⟨rfl, -⟩ := List.cons_eq_cons.mp htext
            cases List.head_eq_of_cons_eq hcolumn
      rw [hrest']
      refine .seq (.char fun y hy => ?_)
      obtain rfl : x = y := Option.some.inj hy
      exact hx

/-- It stays so at its head when something follows. -/
theorem Solid.head_append {w : List Char} (h : Solid w) (y : List Char) :
    ∀ ch ∈ (w ++ y).head?, Py.isSpace ch = false := by
  intro ch hch
  rw [List.head?_append_of_ne_nil _ h.nonempty] at hch
  exact h.head ch hch

/-- A gap is white space to Python. -/
theorem IsBlank.isSpace {gap : List Char} (h : IsBlank gap) : ∀ ch ∈ gap, Py.isSpace ch = true :=
  fun ch hch => (plain_of_blank (h ch hch)).2

/-- A keyword is a plain name too. -/
theorem PlainName.of_keyword {t : Token} {keyword : String} (h : t.isKeyword keyword = true)
    (hne : keyword.toList ≠ []) (hletters : keyword.toList.all Char.isAlpha = true) :
    PlainName t := by
  obtain ⟨w, rfl, hw⟩ := Token.eq_word h
  refine .word (fun heq => hne ?_) fun ch hch => ?_
  · rw [← hw, heq]
    rfl
  · have hmem : ch.toUpper ∈ keyword.toList := hw ▸ List.mem_map_of_mem hch
    have hup := (Py.isAlpha_iff _).mp (List.all_eq_true.mp hletters _ hmem)
    have hnat := Py.toNat_toUpper ch
    have halpha : ch.isAlpha = true := by
      rw [Py.isAlpha_iff]
      split at hnat <;> omega
    simp [Char.isAlphanum, halpha]

/-- A keyword in any case, as `(?i)` takes it. -/
theorem Token.first_keyword {t : Token} {keyword small : String}
    (h : t.isKeyword keyword = true) (hsmall : keyword.toList.map Char.toLower = small.toList) :
    Re.First alnum (.textIgnoreCase small) ⟨b, t.text ++ rest, gs⟩
      ⟨Re.lastOr b t.text, rest, gs⟩ := by
  obtain ⟨w, rfl, hw⟩ := Token.eq_word h
  refine .textIgnoreCase ?_
  rw [← hsmall, ← hw, List.map_map]
  exact List.map_congr_left fun ch _ => (Py.toLower_toUpper ch).symm

/-- The pattern of a CHANGE. -/
def changeRe : Re :=
  .all [.textIgnoreCase "change", .spaces, .opt (.seq (.textIgnoreCase "column") .spaces), identRe,
    .spaces, identRe]

/-- An optional COLUMN before a name. -/
theorem ColumnWord.first {column : List Token} (h : ColumnWord column) (alnum : Char → Bool)
    (b : Option Char) (gs : List (List Char)) (rest : List Char) {old : Token} (hold : PlainName old)
    (hword : old.isKeyword "COLUMN" = false) {ch : Char} (hch : ch ∈ blanks) :
    ∃ b', Re.First alnum (.opt (.seq (.textIgnoreCase "column") .spaces))
      ⟨b, render column ++ (old.text ++ ch :: rest), gs⟩ ⟨b', old.text ++ ch :: rest, gs⟩ := by
  cases h with
  | none => exact ⟨b, .opt_none (hold.fails_column hword hch)⟩
  | @some k gap hk hne hgap =>
    rw [render_cons, render_blank, List.append_assoc]
    exact ⟨_, .opt ((Token.first_keyword hk (by decide)).seq
      (.spaces hne hgap.isSpace (hold.solid.head_append _)))⟩

/-- No white space stands in front of a clause's first word. -/
theorem ColumnWord.head {column : List Token} (h : ColumnWord column) {old : Token}
    (hold : PlainName old) (y : List Char) :
    ∀ ch ∈ (render column ++ (old.text ++ y)).head?, Py.isSpace ch = false := by
  cases h with
  | none => exact hold.solid.head_append y
  | @some k gap hk hne hgap =>
    rw [render_cons, List.append_assoc]
    exact (PlainName.of_keyword hk (by decide) (by decide)).solid.head_append _

/-- The pattern of a CHANGE takes the two names. -/
theorem first_change (alnum : Char → Bool) {column : List Token} {k old new : Token}
    {gap between : List Char}
    (hk : k.isKeyword "CHANGE" = true) (hne : gap ≠ []) (hgap : IsBlank gap)
    (hcolumn : ColumnWord column) (hold : PlainName old) (hword : old.isKeyword "COLUMN" = false)
    (hne' : between ≠ []) (hbetween : IsBlank between) (hnew : PlainName new) (hrest : Ends rest) :
    ∃ e, Re.First alnum changeRe ⟨none, render (k :: gap.map .blank ++ column ++ old ::
      between.map .blank ++ [new]) ++ rest, []⟩ e ∧ e.groups = [old.text, new.text] := by
  obtain ⟨ch, between', hbetween'⟩ := List.exists_cons_of_ne_nil hne'
  have hch : ch ∈ blanks := hbetween ch (hbetween' ▸ List.mem_cons_self)
  have htext : render (k :: gap.map .blank ++ column ++ old :: between.map .blank ++ [new]) ++ rest =
      k.text ++ (gap ++ (render column ++ (old.text ++ (between ++ (new.text ++ rest))))) := by
    simp
  have hends : Ends (between ++ (new.text ++ rest)) := by
    rw [hbetween']
    intro x hx
    obtain rfl : ch = x := Option.some.inj hx
    exact hch
  obtain ⟨b', hcol⟩ := hcolumn.first alnum (Re.lastOr (Re.lastOr none k.text) gap) []
    (between' ++ (new.text ++ rest)) hold hword hch
  rw [← List.cons_append, ← hbetween'] at hcol
  rw [htext]
  exact ⟨_, .all_cons (Token.first_keyword hk (by decide))
    (.all_cons (.spaces hne hgap.isSpace (hcolumn.head hold _))
      (.all_cons hcol
        (.all_cons (hold.first hends)
          (.all_cons (.spaces hne' hbetween.isSpace (hnew.solid.head_append _))
            (.all_cons (hnew.first hrest) .all_nil))))), rfl⟩

/-! ### The kind of a clause -/

/-- `_strip_quoted` keeps what opens nothing. -/
theorem stripQuoted_append {w : List Char}
    (hw : ∀ ch ∈ w, ch ∉ quotes ∧ ch ≠ '(' ∧ ch ≠ ')' ∧ ch ≠ ',') (y : List Char) :
    stripQuoted (w ++ y) = w ++ stripQuoted y := by
  induction w with
  | nil => rfl
  | cons ch w ih =>
    obtain ⟨hquote, hleft, hright, -⟩ := hw ch List.mem_cons_self
    have hno : ¬ (ch = apostrophe ∨ ch = quotation) := by
      rintro (rfl | rfl) <;> exact hquote (by decide)
    have hnext : ({} : Strip).next ch = ({}, ch) := by
      simp only [Strip.next, if_neg hno, if_neg hleft, if_neg hright]
      rfl
    have hrest : stripQuoted (w ++ y) = w ++ stripQuoted y :=
      ih fun ch' hch' => hw ch' (List.mem_cons_of_mem _ hch')
    show (({} : Strip).next ch).2 :: Strip.loop (({} : Strip).next ch).1 (w ++ y) = _
    rw [hnext]
    exact congrArg (ch :: ·) hrest

/-- Upper case goes part by part. -/
theorem upper_append (w y : List Char) : Py.upper (w ++ y) = Py.upper w ++ Py.upper y :=
  List.flatMap_append

/-- A gap has no case. -/
theorem IsBlank.upper {gap : List Char} (h : IsBlank gap) : Py.upper gap = gap := by
  have hone : ∀ ch ∈ gap, Py.upperChar ch = [ch] := fun ch hch =>
    of_decide_eq_true (of_blanks (f := fun ch => Py.upperChar ch = [ch]) (by decide) (h ch hch))
  rw [Py.upper, List.flatMap_congr hone, ← List.map_eq_flatMap, List.map_id']

/-- A gap has no quote, bracket or comma. -/
theorem IsBlank.plain {gap : List Char} (h : IsBlank gap) :
    ∀ ch ∈ gap, ch ∉ quotes ∧ ch ≠ '(' ∧ ch ≠ ')' ∧ ch ≠ ',' :=
  fun ch hch => (plain_of_blank (h ch hch)).1

/-- Nor has a keyword. -/
theorem Token.plain_of_keyword {t : Token} {keyword : String} (h : t.isKeyword keyword = true)
    (hne : keyword.toList ≠ []) (hletters : keyword.toList.all Char.isAlpha = true) :
    ∀ ch ∈ t.text, ch ∉ quotes ∧ ch ≠ '(' ∧ ch ≠ ')' ∧ ch ≠ ',' := by
  have hplain := PlainName.of_keyword h hne hletters
  cases hplain with
  | word hne hall =>
    intro ch hch
    obtain ⟨hquote, hleft, hright, hcomma, -⟩ := plain_of_word (hall ch hch)
    exact ⟨hquote, hleft, hright, hcomma⟩
  | quoted hne => cases h

/-- A keyword in upper case is that word. -/
theorem Token.upper_of_isKeyword {t : Token} {keyword : String} (h : t.isKeyword keyword = true)
    (hascii : keyword.toList.all (fun c => c.toNat < 128) = true) :
    Py.upper t.text = keyword.toList := by
  obtain ⟨w, rfl, hw⟩ := Token.eq_word h
  exact Py.upper_of_map hw hascii

/-- A clause that begins with another letter does not start with the keyword. -/
theorem startsWith_eq_false {keyword : String} {keywords : List String} {c : Char} {u : List Char}
    (h : keyword.toList.head? ≠ some c) (hne : keyword.toList ≠ []) :
    startsWith alnum (keyword :: keywords) (c :: u) = false := by
  have hfails : Re.Fails alnum (.all (((keyword :: keywords).map Re.text).intersperse .spaces ++
      [.boundary])) ⟨none, c :: u, []⟩ := by
    cases keywords with
    | nil => exact Re.Fails.all_cons (.text h hne)
    | cons next keywords => exact Re.Fails.all_cons (.text h hne)
  exact congrArg (fun ends => (List.head? ends).isSome) hfails

/-- A word ends before white space, or at the end. -/
theorem first_boundary {word : Char} (hword : Re.isWord alnum word = true) {y : List Char}
    (hy : Ends y) : Re.First alnum .boundary ⟨some word, y, gs⟩ ⟨some word, y, gs⟩ := by
  have hno : y.head?.any (Re.isWord alnum) = false := by
    rw [Option.any_eq_false]
    intro ch hch
    have hplain := of_blanks (f := fun ch => !(ch.isAlphanum || ch = '_' || 128 ≤ ch.toNat))
      (by decide) (hy ch hch)
    simp only [Bool.not_eq_true', Bool.or_eq_false_iff, decide_eq_false_iff_not] at hplain
    simp only [Re.isWord, hplain.1.1, hplain.1.2, hplain.2, decide_false, Bool.or_self,
      Bool.false_and]
  refine .boundary ?_
  show Re.isWord alnum word ≠ _
  rw [hword, hno]
  exact Bool.noConfusion

/-- A CHANGE starts with `CHANGE`. -/
theorem startsWith_change {u : List Char} (hu : Ends u) :
    startsWith alnum ["CHANGE"] ("CHANGE".toList ++ u) = true := by
  have hfirst : Re.First alnum (.all [.text "CHANGE", .boundary])
      ⟨none, "CHANGE".toList ++ u, []⟩ ⟨some 'E', u, []⟩ :=
    .all_cons (.text "CHANGE") (.all_cons (first_boundary rfl hu) .all_nil)
  exact congrArg Option.isSome hfirst

/-- A RENAME COLUMN starts with both words, whatever white space is between. -/
theorem startsWith_renameColumn {gap u : List Char} (hne : gap ≠ []) (hgap : IsBlank gap)
    (hu : Ends u) :
    startsWith alnum ["RENAME", "COLUMN"]
      ("RENAME".toList ++ (gap ++ ("COLUMN".toList ++ u))) = true := by
  have hfirst : Re.First alnum (.all [.text "RENAME", .spaces, .text "COLUMN", .boundary])
      ⟨none, "RENAME".toList ++ (gap ++ ("COLUMN".toList ++ u)), []⟩ ⟨some 'N', u, []⟩ := by
    refine .all_cons (.text "RENAME") (.all_cons (.spaces hne hgap.isSpace ?_)
      (.all_cons (.text "COLUMN") (.all_cons (first_boundary rfl hu) .all_nil)))
    intro c hc
    obtain rfl : 'C' = c := Option.some.inj hc
    decide
  exact congrArg Option.isSome hfirst

/-- A clause whose keyword is neither DROP nor ADD is a rename if it begins with RENAME COLUMN, or
if it is a CHANGE whose pattern takes two different names. -/
theorem kind_clauseOf {top raw : List Char} {c : Char} {u : List Char}
    (htop : Py.upper top = c :: u) (hdrop : c ≠ 'D') (hadd : c ≠ 'A') :
    (startsWith alnum ["RENAME", "COLUMN"] (c :: u) = true →
        (clauseOf alnum top raw).kind = .renameColumn) ∧
      (startsWith alnum ["RENAME", "COLUMN"] (c :: u) = false →
        startsWith alnum ["RENAME"] (c :: u) = false →
        startsWith alnum ["CHANGE"] (c :: u) = true →
        ∀ e, changeRe.match_ alnum (Py.strip raw) = some e →
          lower (ident ((e.groups.drop 1).headD [])) ≠ lower (ident (e.groups.headD [])) →
          (clauseOf alnum top raw).kind = .renameColumn) := by
  -- The clause begins with neither D nor A, so all the tests for drops and adds fail.
  have hD : ∀ words, startsWith alnum ("DROP" :: words) (c :: u) = false := fun words =>
    startsWith_eq_false (fun heq => hdrop (Option.some.inj heq).symm) (by decide)
  have hA : ∀ words, startsWith alnum ("ADD" :: words) (c :: u) = false := fun words =>
    startsWith_eq_false (fun heq => hadd (Option.some.inj heq).symm) (by decide)
  have hadds : ∀ rs, ((Re.all (.text "ADD" :: rs)).match_ alnum (c :: u)).isSome = false := by
    intro rs
    have hfails : Re.Fails alnum (.all (.text "ADD" :: rs)) ⟨none, c :: u, []⟩ :=
      Re.Fails.all_cons (.text (fun heq => hadd (Option.some.inj heq).symm) (by decide))
    exact congrArg (fun ends => (List.head? ends).isSome) hfails
  have hdrops : ([["INDEX"], ["KEY"], ["FOREIGN", "KEY"], ["CHECK"], ["CONSTRAINT"]].any fun words =>
      startsWith alnum ("DROP" :: words) (c :: u)) = false := by
    rw [List.any_eq_false]
    intro words _
    rw [hD]
    exact Bool.false_ne_true
  unfold clauseOf
  dsimp only
  -- What is left of the source's cascade are the tests for the renames.
  rw [htop, hD, hdrops, hD, hadds, hadds, hA, if_neg Bool.false_ne_true,
    if_neg Bool.false_ne_true, if_neg Bool.false_ne_true, if_neg Bool.false_ne_true,
    if_neg Bool.false_ne_true, if_neg Bool.false_ne_true]
  constructor
  · intro hrename
    rw [if_pos hrename]
  -- A change that names a new column is filed as a rename.
  · intro hcolumn hrename hchange e hmatch hdiff
    rw [hcolumn, hrename, hchange, if_neg Bool.false_ne_true, if_neg Bool.false_ne_true, if_pos rfl]
    unfold changeRe at hmatch
    rw [hmatch]
    exact if_pos hdiff

/-- A shorter text ends a name in the same way. -/
theorem Ends.of_prefix {y y' : List Char} (h : Ends y) (hpre : y' <+: y) : Ends y' := by
  intro ch hch
  refine h ch ?_
  obtain ⟨tail, rfl⟩ := hpre
  rw [List.head?_append_of_ne_nil]
  · exact hch
  · rintro rfl
    cases hch

/-- So does a text without its quoted parts, in upper case. -/
theorem Ends.top {y : List Char} (h : Ends y) : Ends (Py.upper (stripQuoted y)) := by
  cases y with
  | nil => exact h
  | cons ch y =>
    have hone : IsBlank [ch] := by
      intro x hx
      rw [List.mem_singleton.mp hx]
      exact h ch rfl
    show Ends (Py.upper (stripQuoted ([ch] ++ y)))
    rw [stripQuoted_append hone.plain, upper_append, hone.upper]
    exact h

/-- The kind of a RENAME COLUMN. -/
theorem kind_rename {gap y : List Char} {k column : Token} (hk : k.isKeyword "RENAME" = true)
    (hne : gap ≠ []) (hgap : IsBlank gap) (hcolumn : column.isKeyword "COLUMN" = true)
    (hy : Ends y) {raw : List Char} (hraw : raw = render (k :: gap.map .blank ++ [column]) ++ y) :
    (clauseOf alnum (stripQuoted raw) raw).kind = .renameColumn := by
  have htext : raw = k.text ++ (gap ++ (column.text ++ y)) := by
    rw [hraw]
    simp
  have htop : Py.upper (stripQuoted raw) =
      "RENAME".toList ++ (gap ++ ("COLUMN".toList ++ Py.upper (stripQuoted y))) := by
    rw [htext, stripQuoted_append (Token.plain_of_keyword hk (by decide) (by decide)),
      stripQuoted_append hgap.plain,
      stripQuoted_append (Token.plain_of_keyword hcolumn (by decide) (by decide)),
      upper_append, upper_append, upper_append, Token.upper_of_isKeyword hk (by decide),
      Token.upper_of_isKeyword hcolumn (by decide), hgap.upper]
  exact (kind_clauseOf htop (by decide) (by decide)).1 (startsWith_renameColumn hne hgap hy.top)

/-- A text between two solid ones is solid at both ends. -/
theorem Solid.around {w w' : List Char} (h : Solid w) (h' : Solid w') (y : List Char) :
    Solid (w ++ (y ++ w')) := by
  refine ⟨fun heq => h.nonempty (List.append_eq_nil_iff.mp heq).1, h.head_append _, ?_⟩
  intro ch hch
  rw [← List.append_assoc, List.getLast?_append_of_ne_nil _ h'.nonempty] at hch
  exact h'.last ch hch

/-- The text of a CHANGE up to the new name begins and ends with no white space. -/
theorem solid_change {column : List Token} {k old new : Token} {gap between : List Char}
    (hk : k.isKeyword "CHANGE" = true) (hnew : PlainName new) :
    Solid (render (k :: gap.map .blank ++ column ++ old :: between.map .blank ++ [new])) := by
  have htext : render (k :: gap.map .blank ++ column ++ old :: between.map .blank ++ [new]) =
      k.text ++ ((gap ++ (render column ++ (old.text ++ between))) ++ new.text) := by
    simp
  rw [htext]
  exact (PlainName.of_keyword hk (by decide) (by decide)).solid.around hnew.solid _

/-- The kind of a CHANGE to another name. -/
theorem kind_change {column : List Token} {k old new : Token} {gap between y : List Char}
    (hk : k.isKeyword "CHANGE" = true) (hne : gap ≠ []) (hgap : IsBlank gap)
    (hcolumn : ColumnWord column) (hold : PlainName old) (hword : old.isKeyword "COLUMN" = false)
    (hne' : between ≠ []) (hbetween : IsBlank between) (hnew : PlainName new) (hy : Ends y)
    {raw : List Char} {o n : String} (ho : old.name = some o) (hn : new.name = some n)
    (hdiff : lower n ≠ lower o)
    (hraw : raw = render (k :: gap.map .blank ++ column ++ old :: between.map .blank ++ [new]) ++ y) :
    (clauseOf alnum (stripQuoted raw) raw).kind = .renameColumn := by
  have htext : raw = k.text ++
      (gap ++ (render column ++ (old.text ++ (between ++ (new.text ++ y))))) := by
    rw [hraw]
    simp
  -- After the keyword there is a blank, so the match of words ends there.
  have hgo : Ends (gap ++ (render column ++ (old.text ++ (between ++ (new.text ++ y))))) := by
    intro ch hch
    rw [List.head?_append_of_ne_nil _ hne] at hch
    exact hgap ch (List.mem_of_mem_head? hch)
  -- The keyword survives the removal of quoted texts and is read in upper case.
  have htop : Py.upper (stripQuoted raw) = "CHANGE".toList ++ Py.upper (stripQuoted
      (gap ++ (render column ++ (old.text ++ (between ++ (new.text ++ y)))))) := by
    rw [htext, stripQuoted_append (Token.plain_of_keyword hk (by decide) (by decide)),
      upper_append, Token.upper_of_isKeyword hk (by decide)]
  -- Stripping the clause takes away blanks behind it only.
  have hstrip : Py.strip raw = render (k :: gap.map .blank ++ column ++ old ::
      between.map .blank ++ [new]) ++ y.rdropWhile Py.isSpace := by
    have hsolid : Solid (render (k :: gap.map .blank ++ column ++ old ::
        between.map .blank ++ [new])) := solid_change hk hnew
    rw [hraw, ← List.nil_append (render _ ++ y), hsolid.strip]
    rfl
  -- The pattern's two groups are the old and the new name.
  obtain ⟨e, hfirst, hgroups⟩ :=
    first_change alnum hk hne hgap hcolumn hold hword hne' hbetween hnew
      (hy.of_prefix (List.rdropWhile_prefix _ _))
  have hmatch : changeRe.match_ alnum (Py.strip raw) = some e := by
    rw [hstrip]
    exact hfirst
  have hold' : ident old.text = o := Option.some.inj (hold.name.symm.trans ho)
  have hnew' : ident new.text = n := Option.some.inj (hnew.name.symm.trans hn)
  -- So the cascade reaches the test for a change, and the names differ.
  refine (kind_clauseOf htop (by decide) (by decide)).2
    (startsWith_eq_false (by decide) (by decide)) (startsWith_eq_false (by decide) (by decide))
    (startsWith_change hgo.top) e hmatch ?_
  rw [hgroups]
  show lower (ident new.text) ≠ lower (ident old.text)
  rw [hold', hnew']
  exact hdiff

end

end

end DbGuard.Osc
