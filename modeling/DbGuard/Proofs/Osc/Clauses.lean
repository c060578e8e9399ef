import DbGuard.Proofs.Osc.AlterText

/-!
# `DbGuard.Proofs.Osc.Clauses`: splitting undoes joining

`Closed` is the grammar of a text whose quotes and parentheses are closed and that has no comma
outside of them. It says nothing of the scanner. `QuotedBody` is what may stand between two
quotes: escaped pairs in a string, doubled quotes, and other characters.

`splitLoop_closed` takes the scanner over such a text. It comes out at depth 0, outside of
quotes, with the text in its buffer, whatever was there before. One character makes this more
than an induction over the grammar. Where a quote is followed by the same quote, the scanner
sees a doubled quote and does not leave the first one, so the second half of the lemma is
about a scanner that stands before a closing quote.
-/

set_option autoImplicit false

namespace DbGuard.Osc

/-! ### The grammar of a clause -/

/-- What may stand between two quotes `q`. A backslash is special in strings only. -/
inductive QuotedBody (q : Char) : List Char → Prop
  | nil : QuotedBody q []
  | escaped {ch : Char} {body : List Char} (hq : q ≠ backtick) (rest : QuotedBody q body) :
      QuotedBody q (backslash :: ch :: body)
  | doubled {body : List Char} (rest : QuotedBody q body) : QuotedBody q (q :: q :: body)
  | char {ch : Char} {body : List Char} (hch : ch ≠ q) (hback : ch = backslash → q = backtick)
      (rest : QuotedBody q body) : QuotedBody q (ch :: body)

/-- The text closes `d` open parentheses and all of its own, and all of its quotes, and has no
comma outside of them. -/
inductive Closed : Nat → List Char → Prop
  | nil : Closed 0 []
  | quoted {d : Nat} {q : Char} {body text : List Char} (hq : q ∈ quotes)
      (hbody : QuotedBody q body) (rest : Closed d text) : Closed d (q :: (body ++ q :: text))
  | left {d : Nat} {text : List Char} (rest : Closed (d + 1) text) : Closed d ('(' :: text)
  | right {d : Nat} {text : List Char} (rest : Closed d text) : Closed (d + 1) (')' :: text)
  | char {d : Nat} {ch : Char} {text : List Char} (hquote : ch ∉ quotes)
      (hparen : ch ≠ '(' ∧ ch ≠ ')') (hcomma : ch = ',' → d ≠ 0) (rest : Closed d text) :
      Closed d (ch :: text)

/-- A clause: closed, not empty, with no white space at its ends. -/
structure IsClause (text : List Char) : Prop where
  closed : Closed 0 text
  nonempty : text ≠ []
  head : ∀ ch ∈ text.head?, Py.isSpace ch = false
  last : ∀ ch ∈ text.getLast?, Py.isSpace ch = false

/-! ### Checking a clause -/

/-- No comma stands outside of quotes and parentheses. -/
def commaFree (d : Int) : List Turn → Bool
  | [] => true
  | t :: ts => !(t = .plain ',' && d = 0) && commaFree (t.depth d) ts

/-- The text closes what is open: the quote, then `d` parentheses. -/
def ClosedFrom (d : Nat) : Option Char → List Char → Prop
  | none, text => Closed d text
  | some q, text => ∃ body rest, text = body ++ q :: rest ∧ QuotedBody q body ∧ Closed d rest

section
variable {q : Option Char} {d : Int} {t : Turn} {ts : List Turn}

/-- The tokens behind the first are balanced from its depth on. -/
theorem and_of_balanced (h : balancedFrom q d (t :: ts) = true) :
    0 ≤ d ∧ balancedFrom (t.quote q) (t.depth d) ts = true := by
  simpa only [balancedFrom, Bool.and_eq_true, decide_eq_true_eq] using h

/-- They have no comma at the top from there on. -/
theorem and_of_commaFree (h : commaFree d (t :: ts) = true) :
    (t = .plain ',' → d ≠ 0) ∧ commaFree (t.depth d) ts = true := by
  simpa [commaFree, imp_iff_not_or] using h

/-- The depth of a balanced text is never below 0. -/
theorem depth_of_balanced (h : balancedFrom q d ts = true) : 0 ≤ d := by
  cases ts with
  | nil =>
    simp only [balancedFrom, Bool.and_eq_true, decide_eq_true_eq] at h
    exact h.2.ge
  | cons t ts => exact (and_of_balanced h).1

end

/-- A balanced text without a comma at the top is closed. -/
theorem closedFrom_of_turns (q : Option Char) (text : List Char) (hq : ∀ q' ∈ q, q' ∈ quotes)
    (d : Nat) (hbalanced : balancedFrom q d (turns q text) = true)
    (hcomma : commaFree d (turns q text) = true) : ClosedFrom d q text := by
  -- Along the turns of the text: outside a quote it is closed at this depth, inside it the quote
  -- ends and the rest is closed.
  fun_induction turns q text generalizing d with
  | case1 q =>
    simp only [balancedFrom, Bool.and_eq_true, decide_eq_true_eq] at hbalanced
    obtain ⟨rfl, hd⟩ := hbalanced
    obtain rfl : d = 0 := by omega
    exact .nil
  | case2 ch =>
    obtain rfl : d = 0 := by simpa [balancedFrom, Turn.quote, Turn.depth] using hbalanced
    exact ⟨[], [], rfl, .nil, .nil⟩
  | case3 q ch hne => simp [balancedFrom, Turn.quote] at hbalanced
  -- An escape, a doubled quote and any other character go on inside the quote.
  | case4 q ch next rest h ih =>
    obtain ⟨body, text, rfl, hbody, hclosed⟩ :=
      ih hq d (and_of_balanced hbalanced).2 (and_of_commaFree hcomma).2
    rw [h.1]
    exact ⟨backslash :: next :: body, text, rfl, .escaped h.2 hbody, hclosed⟩
  | case5 q rest h ih =>
    obtain ⟨body, text, rfl, hbody, hclosed⟩ :=
      ih hq d (and_of_balanced hbalanced).2 (and_of_commaFree hcomma).2
    exact ⟨q :: q :: body, text, rfl, .doubled hbody, hclosed⟩
  -- The quote closes.
  | case6 q next rest h hne ih =>
    have hclosed : Closed d (next :: rest) :=
      ih (by simp) d (and_of_balanced hbalanced).2 (and_of_commaFree hcomma).2
    exact ⟨[], next :: rest, rfl, .nil, hclosed⟩
  | case7 q ch next rest h hne ih =>
    obtain ⟨body, text, heq, hbody, hclosed⟩ :=
      ih hq d (and_of_balanced hbalanced).2 (and_of_commaFree hcomma).2
    have hback : ch = backslash → q = backtick := fun hch => not_not.mp fun hqb => h ⟨hch, hqb⟩
    exact ⟨ch :: body, text, by rw [heq]; rfl, .char hne hback hbody, hclosed⟩
  -- A quote opens.
  | case8 ch rest h ih =>
    obtain ⟨body, text, rfl, hbody, hclosed⟩ :=
      ih (by simpa using h) d (and_of_balanced hbalanced).2 (and_of_commaFree hcomma).2
    exact .quoted h hbody hclosed
  -- A bracket goes a level down, and its closing one comes up again.
  | case9 rest h ih =>
    exact .left (ih hq (d + 1) (and_of_balanced hbalanced).2 (and_of_commaFree hcomma).2)
  | case10 rest h h' ih =>
    have hdeep := depth_of_balanced (and_of_balanced hbalanced).2
    obtain ⟨d, rfl⟩ : ∃ d', d = d' + 1 := ⟨d - 1, by simp only [Turn.depth] at hdeep; omega⟩
    have hdown : Turn.depth ((d + 1 : Nat) : Int) .right = d := by
      simp only [Turn.depth]
      omega
    have hrest := (and_of_balanced hbalanced).2
    have hfree := (and_of_commaFree hcomma).2
    rw [hdown] at hrest hfree
    exact .right (ih hq d hrest hfree)
  -- Any other character; a comma is one only below the top.
  | case11 ch rest h h' h'' ih =>
    have hfree := and_of_commaFree hcomma
    refine .char h ⟨h', h''⟩ (fun hch hd => ?_) (ih hq d (and_of_balanced hbalanced).2 hfree.2)
    exact hfree.1 (congrArg Turn.plain hch) (by omega)

/-- A clause can be checked by the turns of the scanner. -/
theorem isClause_of_turns {text : List Char} (hbalanced : balanced text = true)
    (hcomma : commaFree 0 (turns none text) = true) (hne : text ≠ [])
    (hhead : text.head?.all (!Py.isSpace ·) = true)
    (hlast : text.getLast?.all (!Py.isSpace ·) = true) : IsClause text := by
  have hsolid : ∀ o : Option Char, o.all (!Py.isSpace ·) = true →
      ∀ ch ∈ o, Py.isSpace ch = false := by
    intro o hall ch hch
    obtain rfl : o = some ch := hch
    simpa using hall
  exact ⟨closedFrom_of_turns none text (by simp) 0 hbalanced hcomma, hne, hsolid _ hhead,
    hsolid _ hlast⟩

/-! ### The scanner over a clause -/

section
variable {d : Nat} {q ch : Char} {body text more buf : List Char} {parts : List (List Char)}

/-- A backslash is no quote. -/
theorem quote_ne_backslash (hq : q ∈ quotes) : q ≠ backslash := by
  rintro rfl
  revert hq
  decide

/-- A single quote closes its string. -/
theorem turns_closing (h : text.head? ≠ some q) (hq : q ∈ quotes) :
    turns (some q) (q :: text) = .closing q :: turns none text := by
  cases text with
  | nil => simp [turns]
  | cons ch text =>
    have hne : ch ≠ q := fun heq => h (congrArg some heq)
    simp [turns, quote_ne_backslash hq, hne]

/-- A doubled one does not. -/
theorem turns_doubled (hq : q ∈ quotes) :
    turns (some q) (q :: q :: text) = .doubled q :: turns (some q) text := by
  simp [turns, quote_ne_backslash hq]

/-- In a quote the scanner puts everything in the buffer. -/
theorem splitLoop_body (hq : q ∈ quotes) (h : QuotedBody q body) (d : Int) (buf : List Char) :
    splitLoop ',' d buf parts (turns (some q) (body ++ q :: more)) =
      splitLoop ',' d (buf ++ body) parts (turns (some q) (q :: more)) := by
  induction h generalizing buf with
  | nil => rw [List.nil_append, List.append_nil]
  | @escaped ch body hback rest ih =>
    have hturn : turns (some q) (backslash :: ch :: (body ++ q :: more)) =
        .escaped q ch :: turns (some q) (body ++ q :: more) := by
      rw [turns, if_pos ⟨rfl, hback⟩]
    rw [List.cons_append, List.cons_append, hturn]
    show splitLoop ',' d (buf ++ [backslash, ch]) parts _ = _
    rw [ih, List.append_assoc]
    rfl
  | @doubled body rest ih =>
    rw [List.cons_append, List.cons_append, turns_doubled hq]
    show splitLoop ',' d (buf ++ [q, q]) parts _ = _
    rw [ih, List.append_assoc]
    rfl
  | @char ch body hch hback rest ih =>
    have hturn : turns (some q) (ch :: (body ++ q :: more)) =
        .body q ch :: turns (some q) (body ++ q :: more) := by
      have hplain : ¬ (ch = backslash ∧ q ≠ backtick) := fun h => h.2 (hback h.1)
      cases hrest : body ++ q :: more with
      | nil => simp at hrest
      | cons next tail => rw [turns, if_neg hplain, if_neg hch]
    rw [List.cons_append, hturn]
    show splitLoop ',' d (buf ++ [ch]) parts _ = _
    rw [ih, List.append_assoc]
    rfl

/-- The scanner passes a closed text, from outside of quotes and from before a closing quote.
What follows must not begin with a quote. -/
theorem splitLoop_closed (h : Closed d text) (hmore : ∀ q ∈ quotes, more.head? ≠ some q)
    (buf : List Char) :
    splitLoop ',' d buf parts (turns none (text ++ more)) =
        splitLoop ',' 0 (buf ++ text) parts (turns none more) ∧
      ∀ q ∈ quotes, splitLoop ',' d buf parts (turns (some q) (q :: (text ++ more))) =
        splitLoop ',' 0 (buf ++ q :: text) parts (turns none more) := by
  -- A quote that the text does not repeat is closed, and the first half goes on from there.
  have hclose : ∀ {d : Nat} {text : List Char},
      (∀ buf, splitLoop ',' d buf parts (turns none (text ++ more)) =
        splitLoop ',' 0 (buf ++ text) parts (turns none more)) →
      ∀ buf, ∀ q ∈ quotes, (text ++ more).head? ≠ some q →
        splitLoop ',' d buf parts (turns (some q) (q :: (text ++ more))) =
          splitLoop ',' 0 (buf ++ q :: text) parts (turns none more) := by
    intro d text hpass buf q hq hhead
    rw [turns_closing hhead hq]
    show splitLoop ',' d (buf ++ [q]) parts _ = _
    rw [hpass, List.append_assoc]
    rfl
  induction h generalizing buf with
  | nil =>
    have hpass : ∀ buf, splitLoop ',' ((0 : Nat) : Int) buf parts (turns none ([] ++ more)) =
        splitLoop ',' 0 (buf ++ []) parts (turns none more) := fun buf => by
      rw [List.nil_append, List.append_nil]
      rfl
    exact ⟨hpass buf, fun q hq => hclose hpass buf q hq (hmore q hq)⟩
  | @quoted d q body text hq hbody rest ih =>
    have hassoc : q :: (body ++ q :: text) ++ more = q :: (body ++ q :: (text ++ more)) := by
      simp
    have hpass : ∀ buf, splitLoop ',' d buf parts (turns none (q :: (body ++ q :: text) ++ more)) =
        splitLoop ',' 0 (buf ++ q :: (body ++ q :: text)) parts (turns none more) := fun buf => by
      have hturn : turns none (q :: (body ++ q :: (text ++ more))) =
          .opening q :: turns (some q) (body ++ q :: (text ++ more)) := by
        rw [turns, if_pos hq]
      rw [hassoc, hturn]
      show splitLoop ',' d (buf ++ [q]) parts _ = _
      rw [splitLoop_body hq hbody, (ih _).2 q hq]
      simp
    refine ⟨hpass buf, fun q' hq' => ?_⟩
    by_cases hsame : q' = q
    · -- The two quotes are read as a doubled one.
      subst hsame
      rw [hassoc, turns_doubled hq]
      show splitLoop ',' d (buf ++ [q', q']) parts _ = _
      rw [splitLoop_body hq hbody, (ih _).2 q' hq]
      simp
    · exact hclose hpass buf q' hq' fun hhead => hsame (Option.some.inj hhead).symm
  | @left d text rest ih =>
    have hpass : ∀ buf, splitLoop ',' d buf parts (turns none ('(' :: text ++ more)) =
        splitLoop ',' 0 (buf ++ '(' :: text) parts (turns none more) := fun buf => by
      have hturn : turns none ('(' :: (text ++ more)) = .left :: turns none (text ++ more) := by
        rw [turns, if_neg (by decide), if_pos rfl]
      rw [List.cons_append, hturn]
      show splitLoop ',' ((d + 1 : Nat) : Int) (buf ++ ['(']) parts _ = _
      rw [(ih _).1, List.append_assoc]
      rfl
    refine ⟨hpass buf, fun q hq => hclose hpass buf q hq fun hhead => ?_⟩
    obtain rfl : '(' = q := Option.some.inj hhead
    exact absurd hq (by decide)
  | @right d text rest ih =>
    have hpass : ∀ buf, splitLoop ',' ((d + 1 : Nat) : Int) buf parts
          (turns none (')' :: text ++ more)) =
        splitLoop ',' 0 (buf ++ ')' :: text) parts (turns none more) := fun buf => by
      have hturn : turns none (')' :: (text ++ more)) = .right :: turns none (text ++ more) := by
        rw [turns, if_neg (by decide), if_neg (by decide), if_pos rfl]
      rw [List.cons_append, hturn]
      show splitLoop ',' (((d + 1 : Nat) : Int) - 1) (buf ++ [')']) parts _ = _
      rw [show ((d + 1 : Nat) : Int) - 1 = d by omega, (ih _).1, List.append_assoc]
      rfl
    refine ⟨hpass buf, fun q hq => hclose hpass buf q hq fun hhead => ?_⟩
    obtain rfl : ')' = q := Option.some.inj hhead
    exact absurd hq (by decide)
  | @char d ch text hquote hparen hcomma rest ih =>
    have hpass : ∀ buf, splitLoop ',' d buf parts (turns none (ch :: text ++ more)) =
        splitLoop ',' 0 (buf ++ ch :: text) parts (turns none more) := fun buf => by
      have hturn : turns none (ch :: (text ++ more)) = .plain ch :: turns none (text ++ more) := by
        rw [turns, if_neg hquote, if_neg hparen.1, if_neg hparen.2]
      have hkeep : ¬ (ch = ',' ∧ (d : Int) = 0) := fun h => hcomma h.1 (by omega)
      rw [List.cons_append, hturn, splitLoop, if_neg hkeep, (ih _).1, List.append_assoc]
      rfl
    refine ⟨hpass buf, fun q hq => hclose hpass buf q hq fun hhead => ?_⟩
    obtain rfl : ch = q := Option.some.inj hhead
    exact hquote hq

/-! ### Joining and splitting -/

/-- A clause loses nothing to `strip`, and a blank before it is lost. -/
theorem IsClause.strip (h : IsClause text) (hblank : ∀ ch ∈ buf, Py.isSpace ch = true) :
    Py.strip (buf ++ text) = text := by
  have hends : ∀ text : List Char, (∀ ch ∈ text.head?, Py.isSpace ch = false) →
      text.dropWhile Py.isSpace = text := by
    intro text hhead
    cases text with
    | nil => rfl
    | cons ch text => exact List.dropWhile_cons_of_neg (by simp [hhead ch rfl])
  have hlast : ∀ ch ∈ text.reverse.head?, Py.isSpace ch = false := by
    rw [List.head?_reverse]
    exact h.last
  rw [Py.strip, List.dropWhile_append_of_pos hblank, hends text h.head, hends _ hlast,
    List.reverse_reverse]

/-- The scanner over clauses with a comma and a blank between them. -/
theorem splitLoop_join {clause : List Char} {clauses : List (List Char)}
    (h : ∀ c ∈ clause :: clauses, IsClause c) (hblank : ∀ ch ∈ buf, Py.isSpace ch = true)
    (parts : List (List Char)) :
    splitLoop ',' 0 buf parts (turns none ([',', ' '].intercalate (clause :: clauses))) =
      parts ++ clause :: clauses := by
  have hclause := h clause List.mem_cons_self
  -- Clause by clause: the buffer takes a whole one, and the comma behind it cuts.
  induction clauses generalizing clause buf parts with
  | nil =>
    -- The last clause ends with the text.
    have hpass : splitLoop ',' 0 buf parts (turns none (clause ++ [])) =
        splitLoop ',' 0 (buf ++ clause) parts (turns none []) :=
      (splitLoop_closed hclause.closed (by simp) buf).1
    rw [List.intercalate_singleton, ← List.append_nil clause, hpass]
    rw [turns, splitLoop, hclause.strip hblank, if_neg hclause.nonempty, List.append_nil]
  | cons next clauses ih =>
    have hspace : ∀ ch ∈ [' '], Py.isSpace ch = true := by
      intro ch hch
      rw [List.mem_singleton.mp hch]
      decide
    have hrest : splitLoop ',' 0 [' '] (parts ++ [clause])
        (turns none ([',', ' '].intercalate (next :: clauses))) =
          parts ++ [clause] ++ next :: clauses :=
      ih (fun c hc => h c (List.mem_cons_of_mem _ hc)) hspace _ (h next (by simp))
    rw [List.intercalate_cons_cons]
    generalize [',', ' '].intercalate (next :: clauses) = more at hrest
    -- A comma is no quote, so it cannot double the quote that a clause ends with.
    have hcomma : ∀ q ∈ quotes, (',' :: ' ' :: more).head? ≠ some q := by
      intro q hq hhead
      obtain rfl : ',' = q := Option.some.inj hhead
      exact absurd hq (by decide)
    have hpass : splitLoop ',' 0 buf parts (turns none (clause ++ ',' :: ' ' :: more)) =
        splitLoop ',' 0 (buf ++ clause) parts (turns none (',' :: ' ' :: more)) :=
      (splitLoop_closed hclause.closed hcomma buf).1
    have hturns : turns none (',' :: ' ' :: more) = .plain ',' :: .plain ' ' :: turns none more := by
      rw [turns, if_neg (by decide), if_neg (by decide), if_neg (by decide), turns,
        if_neg (by decide), if_neg (by decide), if_neg (by decide)]
    rw [List.append_assoc, List.cons_append, List.singleton_append, hpass, hturns, splitLoop,
      if_pos ⟨rfl, rfl⟩, hclause.strip hblank, splitLoop, if_neg (by decide), List.nil_append,
      hrest, List.append_assoc, List.singleton_append]

/-- `split_top_level` undoes `", ".join`. -/
theorem splitTopLevel_join (clauses : List (List Char)) (h : ∀ c ∈ clauses, IsClause c) :
    splitTopLevel ',' ([',', ' '].intercalate clauses) = clauses := by
  cases clauses with
  | nil => rfl
  | cons clause clauses =>
    rw [splitTopLevel, splitLoop_join h (by simp), List.nil_append, List.filter_eq_self]
    intro c hc
    exact decide_eq_true (h c hc).nonempty

end

/-- The clauses of an ALTER with commas in quotes and in parentheses. -/
def quotedClauses : List (List Char) :=
  ["ADD a CHAR(4) DEFAULT 'x, ''y'".toList, "ADD INDEX k (a, b)".toList]

/-- Clauses with quotes and brackets are split as they were joined. -/
theorem splitTopLevel_join_quoted :
    splitTopLevel ',' ([',', ' '].intercalate quotedClauses) = quotedClauses :=
  splitTopLevel_join quotedClauses (by
    intro c hc
    rcases List.mem_cons.mp hc with rfl | hc
    · exact isClause_of_turns (by decide +kernel) (by decide +kernel) (by decide)
        (by decide +kernel) (by decide +kernel)
    · rw [List.mem_singleton.mp hc]
      exact isClause_of_turns (by decide +kernel) (by decide +kernel) (by decide)
        (by decide +kernel) (by decide +kernel))

end DbGuard.Osc
