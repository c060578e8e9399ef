import DbGuard.Osc.AlterText

/-!
# `DbGuard.Proofs.Osc.AlterText`: the two scanners of an ALTER

`split_top_level` follows MySQL: a backslash escapes the next character of a string, and
nothing in a backticked identifier is special. `_strip_quoted` knows neither rule. So the two
stay in step as long as no string has its own quote behind a backslash, and no identifier has
a quote or a parenthesis (`Plain`).

`Lexed` is the text as a list of turns, each in the quote that the ones before it leave open.
`turn_synced` follows `_strip_quoted` over one turn, and `lexed_turns` says that the turns of
`split_top_level` are such a list, so what holds of a turn holds of the text by an induction
with one case.
-/

set_option autoImplicit false

namespace DbGuard.Osc

/-! ### What `split_top_level` sees -/

/-- Where a character stands: outside of everything, in a backticked identifier, or in a string
or parentheses. -/
inductive Mark
  | top
  | ident
  | inside
deriving DecidableEq

namespace Turn

/-- The parenthesis depth after a turn. -/
def depth (d : Int) : Turn → Int
  | .left => d + 1
  | .right => d - 1
  | _ => d

/-- The quote after a turn. -/
def quote (q : Option Char) : Turn → Option Char
  | .opening q' => some q'
  | .closing _ => none
  | _ => q

/-- Where the characters of a turn stand. Quotes and parentheses belong to what they enclose. -/
def mark (d : Int) : Turn → Mark
  | .plain _ => if d = 0 then .top else .inside
  | .left | .right => .inside
  | .escaped q _ | .doubled q | .body q _ | .closing q | .opening q =>
    if q = backtick ∧ d = 0 then .ident else .inside

/-- Which of its characters open or close a string or a parenthesis. A doubled quote closes the
string and opens it again. -/
def switches : Turn → List Bool
  | .escaped _ _ => [false, false]
  | .doubled q => if q = backtick then [false, false] else [true, true]
  | .body _ _ => [false]
  | .closing q | .opening q => [decide (q ≠ backtick)]
  | .left | .right => [true]
  | .plain _ => [false]

/-- The turn is no string's own quote behind a backslash, and no quote or parenthesis in an
identifier. -/
def harmless : Turn → Bool
  | .escaped q ch => ch ≠ q
  | .body q ch => q ≠ backtick || ch ∉ [apostrophe, quotation, '(', ')']
  | _ => true

end Turn

/-- The characters of the turns, each with where it stands. -/
def seen (d : Int) : List Turn → List (Mark × Char)
  | [] => []
  | t :: ts => t.text.map (t.mark d, ·) ++ seen (t.depth d) ts

/-- The quotes and parentheses are balanced. -/
def balancedFrom (q : Option Char) (d : Int) : List Turn → Bool
  | [] => q = none && d = 0
  | t :: ts => 0 ≤ d && balancedFrom (t.quote q) (t.depth d) ts

/-- The quotes and parentheses of a text are balanced. -/
def balanced (text : List Char) : Bool := balancedFrom none 0 (turns none text)

/-- What may stand for a character: itself where it is outside of everything, a blank inside
a string or parentheses, and either of them in an identifier. -/
def shows (x : Mark × Char) (out : Char) : Bool :=
  match x.1 with
  | .top => out = x.2
  | .ident => out = x.2 || out = ' '
  | .inside => out = ' '

/-- `_strip_quoted` keeps what `split_top_level` sees outside of everything, and blanks what
it sees in a string or in parentheses. -/
def Agrees (text : List Char) : Prop :=
  List.Forall₂ (fun x out => shows x out = true) (seen 0 (turns none text)) (stripQuoted text)

/-- The text without what is in strings and parentheses. -/
def visible (text : List Char) : List Char :=
  (seen 0 (turns none text)).map fun x => if x.1 = .inside then ' ' else x.2

/-- At which characters `_strip_quoted` opens or closes a string or a parenthesis. -/
def Strip.switches : Strip → List Char → List Bool
  | _, [] => []
  | s, ch :: rest => decide ((s.next ch).1 ≠ s) :: Strip.switches (s.next ch).1 rest

/-- The scanners open and close strings and parentheses at the same characters. -/
def InStep (text : List Char) : Prop :=
  Strip.switches {} text = (turns none text).flatMap Turn.switches

/-- No string has its own quote behind a backslash, and no identifier has a quote or a
parenthesis. -/
def Plain (text : List Char) : Prop := ∀ t ∈ turns none text, t.harmless = true

/-! ### A text is its turns -/

/-- A turn of the loop that starts in quote `q`. -/
def Turn.Arises (q : Option Char) : Turn → Prop
  | .escaped q' _ => q = some q' ∧ q' ≠ backtick
  | .doubled q' | .closing q' => q = some q'
  | .body q' ch => q = some q' ∧ ch ≠ q'
  | .opening q' => q = none ∧ q' ∈ quotes
  | .left | .right => q = none
  | .plain ch => q = none ∧ ch ∉ quotes ∧ ch ≠ '(' ∧ ch ≠ ')'

/-- A text as turns, from quote `q` on. -/
inductive Lexed : Option Char → List Turn → List Char → Prop
  | nil {q : Option Char} : Lexed q [] []
  | cons {q : Option Char} {t : Turn} {ts : List Turn} {text : List Char} (h : t.Arises q)
      (rest : Lexed (t.quote q) ts text) : Lexed q (t :: ts) (t.text ++ text)

/-- The turns of `split_top_level` are the text. -/
theorem lexed_turns (q : Option Char) (text : List Char) : Lexed q (turns q text) text := by
  fun_induction turns q text with
  | case1 q => exact .nil
  | case2 ch => exact .cons (t := .closing ch) rfl .nil
  | case3 q ch hne => exact .cons (t := .body q ch) ⟨rfl, hne⟩ .nil
  | case4 q ch next rest h ih =>
    rw [h.1]
    exact .cons (t := .escaped q next) ⟨rfl, h.2⟩ ih
  | case5 q rest h ih => exact .cons (t := .doubled q) rfl ih
  | case6 q next rest h hne ih => exact .cons (t := .closing q) rfl ih
  | case7 q ch next rest h hne ih => exact .cons (t := .body q ch) ⟨rfl, hne⟩ ih
  | case8 ch rest h ih => exact .cons (t := .opening ch) ⟨rfl, h⟩ ih
  | case9 rest h ih => exact .cons (t := .left) rfl ih
  | case10 rest h hne ih => exact .cons (t := .right) rfl ih
  | case11 ch rest h hleft hright ih => exact .cons (t := .plain ch) ⟨rfl, h, hleft, hright⟩ ih

/-! ### One turn of `_strip_quoted` -/

/-- The state of `_strip_quoted` where `split_top_level` is in quote `q` at depth `d`. It knows
nothing of backticks. -/
def stateOf (q : Option Char) (d : Int) : Strip :=
  { quote := if q = some backtick then none else q, depth := d }

/-- What `_strip_quoted` should write for a turn. -/
def Turn.shown (d : Int) (t : Turn) : List Char :=
  t.text.map fun ch => if t.mark d = .inside then ' ' else ch

/-- The state of `_strip_quoted` after a text. -/
def Strip.after (s : Strip) (text : List Char) : Strip := text.foldl (fun s ch => (s.next ch).1) s

/-- The scanner goes on where it left the first part. -/
theorem Strip.loop_append (s : Strip) (text rest : List Char) :
    s.loop (text ++ rest) = s.loop text ++ (s.after text).loop rest := by
  induction text generalizing s with
  | nil => rfl
  | cons ch text ih => simp [Strip.loop, Strip.after, ih]

/-- So it does with its switches. -/
theorem Strip.switches_append (s : Strip) (text rest : List Char) :
    s.switches (text ++ rest) = s.switches text ++ (s.after text).switches rest := by
  induction text generalizing s with
  | nil => rfl
  | cons ch text ih => simp [Strip.switches, Strip.after, ih]

/-- There is one switch for each character. -/
theorem length_switches (s : Strip) (text : List Char) :
    (s.switches text).length = text.length := by
  induction text generalizing s with
  | nil => rfl
  | cons ch text ih => simp [Strip.switches, ih]

/-- The same for a turn. -/
theorem Turn.length_switches (t : Turn) : t.switches.length = t.text.length := by
  cases t with
  | doubled q =>
    simp only [Turn.switches, Turn.text]
    split <;> rfl
  | _ => rfl

section
variable {q : Option Char} {d : Int} {s : Strip} {t : Turn} {ts : List Turn} {text : List Char}
  {c ch : Char}

/-- Outside a quote the scanner is outside. -/
theorem stateOf_none : stateOf none d = ⟨none, d⟩ := rfl

/-- It is in a name in backticks, too: it leaves these alone. -/
theorem stateOf_ident : stateOf (some backtick) d = ⟨none, d⟩ := rfl

/-- In a string it remembers its quote. -/
theorem stateOf_string (h : c ≠ backtick) : stateOf (some c) d = ⟨some c, d⟩ := by
  simp [stateOf, h]

/-- The end of a string. -/
theorem next_same : (⟨some c, d⟩ : Strip).next c = (⟨none, d⟩, ' ') := by
  simp [Strip.next]

/-- In a string, a character that is not its quote is blanked. -/
theorem next_other (hne : ch ≠ c) : (⟨some c, d⟩ : Strip).next ch = (⟨some c, d⟩, ' ') := by
  simp [Strip.next, hne]

/-- The start of a string. -/
theorem next_quote (hc : c ∈ quotes) (hback : c ≠ backtick) :
    (⟨none, d⟩ : Strip).next c = (⟨some c, d⟩, ' ') := by
  have hstring : c = apostrophe ∨ c = quotation := by
    simp only [quotes, List.mem_cons, List.not_mem_nil, or_false] at hc
    exact hc.imp_right fun h => h.resolve_right hback
  simp only [Strip.next, if_pos hstring]

/-- A bracket opens. -/
theorem next_left : (⟨none, d⟩ : Strip).next '(' = (⟨none, d + 1⟩, ' ') := rfl

/-- A bracket closes. -/
theorem next_right : (⟨none, d⟩ : Strip).next ')' = (⟨none, d - 1⟩, ' ') := rfl

/-- Outside of strings, a character without a meaning is kept at depth 0. -/
theorem next_plain (h : ch ∉ [apostrophe, quotation, '(', ')']) :
    (⟨none, d⟩ : Strip).next ch = (⟨none, d⟩, if d = 0 then ch else ' ') := by
  simp only [List.mem_cons, List.not_mem_nil, or_false, not_or] at h
  obtain ⟨ha, hq, hl, hr⟩ := h
  simp [Strip.next, ha, hq, hl, hr]

/-- A backtick is shown where no bracket is open. -/
theorem next_backtick :
    (⟨none, d⟩ : Strip).next backtick = (⟨none, d⟩, if d = 0 then backtick else ' ') :=
  next_plain (by decide)

/-- Over a harmless turn the scanners stay in step. -/
theorem turn_synced (hq : ∀ c ∈ q, c ∈ quotes) (ht : t.Arises q) (hok : t.harmless = true) :
    (stateOf q d).loop t.text = t.shown d ∧ (stateOf q d).switches t.text = t.switches ∧
      (stateOf q d).after t.text = stateOf (t.quote q) (t.depth d) := by
  -- One turn of the text: the scanner shows it, switches, and is left in the state of the place
  -- behind it.
  cases t with
  -- An escape in a string: harmless unless it hides the closing quote.
  | escaped c ch =>
    obtain ⟨rfl, hback⟩ := ht
    have hslash : backslash ≠ c := by
      rintro rfl
      exact absurd (hq backslash rfl) (by decide)
    have hne : ch ≠ c := by simpa [Turn.harmless] using hok
    rw [stateOf_string hback]
    simp [Strip.loop, Strip.switches, Strip.after, next_other hslash, next_other hne, Turn.shown,
      Turn.text, Turn.mark, Turn.switches, Turn.quote, Turn.depth, hback, stateOf_string hback]
  -- A doubled quote closes the string and opens it again; a doubled backtick is not noticed.
  | doubled c =>
    obtain rfl : q = some c := ht
    by_cases hback : c = backtick
    · subst hback
      rw [stateOf_ident]
      by_cases hd : d = 0 <;>
        simp [Strip.loop, Strip.switches, Strip.after, next_backtick, Turn.shown, Turn.text,
          Turn.mark, Turn.switches, Turn.quote, Turn.depth, stateOf_ident, hd]
    · rw [stateOf_string hback]
      simp [Strip.loop, Strip.switches, Strip.after, next_same, next_quote (hq c rfl) hback,
        Turn.shown, Turn.text, Turn.mark, Turn.switches, Turn.quote, Turn.depth, hback,
        stateOf_string hback]
  -- The body of a string is blanked, that of a name in backticks is read as text.
  | body c ch =>
    obtain ⟨rfl, hne⟩ := ht
    by_cases hback : c = backtick
    · subst hback
      have hch : ch ∉ [apostrophe, quotation, '(', ')'] := by simpa [Turn.harmless] using hok
      rw [stateOf_ident]
      by_cases hd : d = 0 <;>
        simp [Strip.loop, Strip.switches, Strip.after, next_plain hch, Turn.shown, Turn.text,
          Turn.mark, Turn.switches, Turn.quote, Turn.depth, stateOf_ident, hd]
    · rw [stateOf_string hback]
      simp [Strip.loop, Strip.switches, Strip.after, next_other hne, Turn.shown, Turn.text,
        Turn.mark, Turn.switches, Turn.quote, Turn.depth, hback, stateOf_string hback]
  | closing c =>
    obtain rfl : q = some c := ht
    by_cases hback : c = backtick
    · subst hback
      rw [stateOf_ident]
      by_cases hd : d = 0 <;>
        simp [Strip.loop, Strip.switches, Strip.after, next_backtick, Turn.shown, Turn.text,
          Turn.mark, Turn.switches, Turn.quote, Turn.depth, stateOf_none, hd]
    · rw [stateOf_string hback]
      simp [Strip.loop, Strip.switches, Strip.after, next_same, Turn.shown, Turn.text, Turn.mark,
        Turn.switches, Turn.quote, Turn.depth, hback, stateOf_none]
  | opening c =>
    obtain ⟨rfl, hc⟩ := ht
    rw [stateOf_none]
    by_cases hback : c = backtick
    · subst hback
      by_cases hd : d = 0 <;>
        simp [Strip.loop, Strip.switches, Strip.after, next_backtick, Turn.shown, Turn.text,
          Turn.mark, Turn.switches, Turn.quote, Turn.depth, stateOf_ident, hd]
    · simp [Strip.loop, Strip.switches, Strip.after, next_quote hc hback, Turn.shown, Turn.text,
        Turn.mark, Turn.switches, Turn.quote, Turn.depth, hback, stateOf_string hback]
  | left =>
    obtain rfl : q = none := ht
    have hdepth : d + 1 ≠ d := by omega
    simp [stateOf_none, Strip.loop, Strip.switches, Strip.after, next_left, Turn.shown, Turn.text,
      Turn.mark, Turn.switches, Turn.quote, Turn.depth, hdepth]
  | right =>
    obtain rfl : q = none := ht
    have hdepth : d - 1 ≠ d := by omega
    simp [stateOf_none, Strip.loop, Strip.switches, Strip.after, next_right, Turn.shown,
      Turn.text, Turn.mark, Turn.switches, Turn.quote, Turn.depth, hdepth]
  | plain ch =>
    obtain ⟨rfl, hquotes, hleft, hright⟩ := ht
    have hch : ch ∉ [apostrophe, quotation, '(', ')'] := by
      simp only [quotes, List.mem_cons, List.not_mem_nil, or_false, not_or] at hquotes ⊢
      exact ⟨hquotes.1, hquotes.2.1, hleft, hright⟩
    rw [stateOf_none]
    by_cases hd : d = 0 <;>
      simp [Strip.loop, Strip.switches, Strip.after, next_plain hch, Turn.shown, Turn.text,
        Turn.mark, Turn.switches, Turn.quote, Turn.depth, stateOf_none, hd]

/-- Over any other turn they do not: `_strip_quoted` ends a string at an escaped quote, or
opens something in an identifier. -/
theorem switches_ne (hq : ∀ c ∈ q, c ∈ quotes) (ht : t.Arises q) (hbad : t.harmless = false) :
    (stateOf q d).switches t.text ≠ t.switches := by
  cases t with
  -- After a backslash, only a quote of the same kind can do harm.
  | escaped c ch =>
    obtain ⟨rfl, hback⟩ := ht
    have hslash : backslash ≠ c := by
      rintro rfl
      exact absurd (hq backslash rfl) (by decide)
    obtain rfl : ch = c := by simpa [Turn.harmless] using hbad
    rw [stateOf_string hback]
    simp [Strip.switches, next_other hslash, next_same, Turn.text, Turn.switches]
  -- Within back ticks, a quote or a bracket does, because it moves the other scanner.
  | body c ch =>
    obtain ⟨rfl, hne⟩ := ht
    simp only [Turn.harmless, Bool.or_eq_false_iff, decide_eq_false_iff_not, not_not] at hbad
    obtain ⟨rfl, hch⟩ := hbad
    have hmoves : ((⟨none, d⟩ : Strip).next ch).1 ≠ ⟨none, d⟩ := by
      simp only [List.mem_cons, List.not_mem_nil, or_false] at hch
      rcases hch with rfl | rfl | rfl | rfl
      · rw [next_quote (by decide) (by decide)]
        simp
      · rw [next_quote (by decide) (by decide)]
        simp
      -- A bracket changes the depth.
      · have hdepth : d + 1 ≠ d := by omega
        rw [next_left]
        simp [hdepth]
      · have hdepth : d - 1 ≠ d := by omega
        rw [next_right]
        simp [hdepth]
    rw [stateOf_ident]
    simp [Strip.switches, Turn.text, Turn.switches, hmoves]
  | _ => cases hbad

/-! ### The whole text -/

/-- A turn stays within the quotes that the scanner knows. -/
theorem quote_mem (hq : ∀ c ∈ q, c ∈ quotes) (ht : t.Arises q) : ∀ c ∈ t.quote q, c ∈ quotes := by
  cases t with
  | opening c =>
    intro c' hc'
    cases hc'
    exact ht.2
  | closing c => simp [Turn.quote]
  | _ => exact hq

/-- The scanners are in step over a text if and only if all its turns are harmless. -/
theorem switches_eq_iff (h : Lexed q ts text) (hq : ∀ c ∈ q, c ∈ quotes) (d : Int) :
    (stateOf q d).switches text = ts.flatMap Turn.switches ↔ ∀ t ∈ ts, t.harmless = true := by
  induction h generalizing d with
  | nil => simp [Strip.switches]
  | @cons q t ts text ht rest ih =>
    have hlen : ((stateOf q d).switches t.text).length = t.switches.length := by
      rw [length_switches, t.length_switches]
    rw [Strip.switches_append, List.flatMap_cons, List.forall_mem_cons]
    cases hok : t.harmless with
    | false =>
      have hne : (stateOf q d).switches t.text ≠ t.switches := switches_ne hq ht hok
      exact iff_of_false (fun heq => hne (List.append_inj_left heq hlen))
        (fun hall => absurd hall.1 Bool.false_ne_true)
    | true =>
      obtain ⟨-, hswitch, hafter⟩ := turn_synced hq ht hok
      rw [hswitch, hafter, List.append_cancel_left_eq, ih (quote_mem hq ht)]
      simp

/-- On harmless turns the scanner shows what the characters' places say. -/
theorem loop_eq (h : Lexed q ts text) (hq : ∀ c ∈ q, c ∈ quotes) (d : Int)
    (hok : ∀ t ∈ ts, t.harmless = true) :
    (stateOf q d).loop text = (seen d ts).map fun x => if x.1 = .inside then ' ' else x.2 := by
  induction h generalizing d with
  | nil => rfl
  | @cons q t ts text ht rest ih =>
    obtain ⟨hfirst, hok⟩ := List.forall_mem_cons.mp hok
    obtain ⟨hloop, -, hafter⟩ := turn_synced hq ht hfirst
    rw [Strip.loop_append, hloop, hafter, ih (quote_mem hq ht) _ hok, seen, List.map_append,
      List.map_map]
    rfl

end

/-- Where the text is plain, `_strip_quoted` leaves what `split_top_level` sees outside. -/
theorem stripQuoted_eq_visible {text : List Char} (h : Plain text) :
    stripQuoted text = visible text :=
  loop_eq (lexed_turns none text) (by simp) 0 h

/-- A visible character is one that the scanner shows. -/
theorem shows_visible (x : Mark × Char) :
    shows x (if x.1 = .inside then ' ' else x.2) = true := by
  obtain ⟨mark, ch⟩ := x
  cases mark <;> simp [shows]

/-- The scanners open and close strings and parentheses at the same characters if and only if
the text is plain. Then `_strip_quoted` keeps and blanks what `split_top_level` sees outside and
inside, and `parse_alter` finds the clause that is there. -/
theorem scanners_agree (alnum : Char → Bool) (text : List Char) :
    (InStep text ↔ Plain text) ∧
      (Plain text → Agrees text ∧
        clauseOf alnum (stripQuoted text) text = clauseOf alnum (visible text) text) := by
  constructor
  · exact switches_eq_iff (lexed_turns none text) (by simp) 0
  · intro h
    have heq := stripQuoted_eq_visible h
    refine ⟨?_, by rw [heq]⟩
    rw [Agrees, heq, visible, List.forall₂_map_right_iff, List.forall₂_same]
    exact fun x _ => shows_visible x

/-- A clause with a doubled quote in its default. -/
def doubledQuote : List Char := "ADD a CHAR(4) DEFAULT 'it''s' AFTER b".toList

/-- A doubled quote is read alike. -/
theorem scanners_agree_doubledQuote :
    Agrees doubledQuote ∧ clauseOf (fun _ => false) (stripQuoted doubledQuote) doubledQuote =
      clauseOf (fun _ => false) (visible doubledQuote) doubledQuote :=
  (scanners_agree (fun _ => false) doubledQuote).2 (by
    unfold Plain
    decide +kernel)

/-- A clause with an escaped quote in its default. `_strip_quoted` ends the string there, and
takes the end of the string for the start of another one. -/
def escapedQuote : List Char := "ADD a CHAR(4) DEFAULT 'it\\'s' AFTER b".toList

/-- An escaped quote is not, so the two scanners can differ. -/
theorem keyword_hidden_by_escape :
    ¬ ∀ text : List Char, balanced text = true → Agrees text := by
  intro h
  have hagree := h escapedQuote (by decide +kernel)
  -- The first letter of AFTER is blanked.
  have hmem : ((Mark.top, 'A'), ' ') ∈
      (seen 0 (turns none escapedQuote)).zip (stripQuoted escapedQuote) := by decide +kernel
  have hshows : shows (Mark.top, 'A') ' ' = true := (List.forall₂_iff_zip.mp hagree).2 hmem
  exact absurd hshows (by decide)

example : (clauseOf (fun _ => false) (stripQuoted escapedQuote) escapedQuote).positioned = false := by
  decide +kernel

end DbGuard.Osc
