import DbGuard.Proofs.Osc.ClauseKind

/-!
# `DbGuard.Proofs.Osc.Renames`: which renames of a column are refused

The copy takes the columns that the shadow has under their old names, so a rename of a column
loses its data. Preflight refuses the clauses that `parse_alter` takes for renames, and MySQL
reads the text for itself. `accounted_iff` says when the two agree: exactly when every rename
that MySQL reads is plainly spelled (`Spelled`), behind clauses that close what they open.
`renamed_behind_comment` is a rename with a comment in it.

The scanner finds a clause behind closed ones (`mem_splitTopLevel`), with something behind its
new name, which does not matter. What `parse_alter` takes off the ends of the text does not
reach into the clause (`bareText_eq`).
-/

set_option autoImplicit false

namespace DbGuard.Osc

/-! ### How a rename is spelled -/

/-- A rename of a column that is spelled as `parse_alter` expects it: with white space and no
comment up to the new name, and for CHANGE with plain names, the old one as in the table. -/
inductive Spelled (c : Column) : List Token → Prop
  | rename {lead gap : List Char} {k column : Token} {ch : Char} {rest : List Token}
      (hlead : IsBlank lead) (hk : k.isKeyword "RENAME" = true) (hne : gap ≠ [])
      (hgap : IsBlank gap) (hcolumn : column.isKeyword "COLUMN" = true) (hch : ch ∈ blanks) :
      Spelled c (lead.map .blank ++ (k :: gap.map .blank ++ [column]) ++ .blank ch :: rest)
  | change {lead gap between : List Char} {column : List Token} {k old new : Token} {ch : Char}
      {rest : List Token}
      (hlead : IsBlank lead) (hk : k.isKeyword "CHANGE" = true) (hne : gap ≠ [])
      (hgap : IsBlank gap) (hcolumn : ColumnWord column) (hold : PlainName old)
      (hword : old.isKeyword "COLUMN" = false)
      (hsame : ∀ o ∈ old.name, lower o = lower c.name) (hne' : between ≠ [])
      (hbetween : IsBlank between) (hnew : PlainName new) (hch : ch ∈ blanks) :
      Spelled c (lead.map .blank ++
        (k :: gap.map .blank ++ column ++ old :: between.map .blank ++ [new]) ++ .blank ch :: rest)

/-! ### The clause in the text -/

section
variable {alnum : Char → Bool} {d : Int} {buf x : List Char} {parts : List (List Char)}
  {ts : List Turn}

/-- A part that is found stays. -/
theorem mem_splitLoop (h : x ∈ parts) : x ∈ splitLoop ',' d buf parts ts := by
  induction ts generalizing d buf parts with
  | nil =>
    rw [splitLoop]
    split
    · exact h
    · exact List.mem_append_left _ h
  | cons t ts ih =>
    cases t with
    | plain ch =>
      rw [splitLoop]
      split
      · exact ih (List.mem_append_left _ h)
      · exact ih h
    | left | right | escaped | doubled | body | closing | opening =>
      rw [splitLoop]
      · exact ih h
      all_goals simp

/-- What is in the buffer goes into a part, with more behind it. -/
theorem Lexed.exists_mem {q : Option Char} {text : List Char} (h : Lexed q ts text) (d : Int)
    (buf : List Char) (parts : List (List Char)) : ∃ y, y <+: text ∧ (Py.strip (buf ++ y) ≠ [] →
      Py.strip (buf ++ y) ∈ splitLoop ',' d buf parts ts) := by
  induction h generalizing d buf parts with
  | nil =>
    refine ⟨[], List.nil_prefix, fun hne => ?_⟩
    rw [List.append_nil] at hne ⊢
    rw [splitLoop, if_neg hne]
    exact List.mem_append_right _ (List.mem_singleton_self _)
  | @cons q t ts text ht rest ih =>
    have hgo : ∀ d', ∃ y, y <+: t.text ++ text ∧ (Py.strip (buf ++ y) ≠ [] →
        Py.strip (buf ++ y) ∈ splitLoop ',' d' (buf ++ t.text) parts ts) := by
      intro d'
      obtain ⟨y, hy, hmem⟩ := ih d' (buf ++ t.text) parts
      refine ⟨t.text ++ y, (List.prefix_append_right_inj _).mpr hy, ?_⟩
      rwa [← List.append_assoc]
    cases t with
    | plain ch =>
      rw [splitLoop]
      split
      · refine ⟨[], List.nil_prefix, fun _ => mem_splitLoop ?_⟩
        rw [List.append_nil]
        exact List.mem_append_right _ (List.mem_singleton_self _)
      · exact hgo d
    | left => exact hgo (d + 1)
    | right => exact hgo (d - 1)
    | escaped | doubled | body | closing | opening => exact hgo d

/-- The clauses before, each with its comma. -/
def withCommas (texts : List (List Char)) : List Char := texts.flatMap (· ++ [','])

/-- Behind the commas of closed clauses the scanner is where it began. -/
theorem splitLoop_withCommas {texts : List (List Char)} (h : ∀ text ∈ texts, Closed 0 text)
    (more : List Char) (parts : List (List Char)) :
    ∃ parts', splitLoop ',' 0 [] parts (turns none (withCommas texts ++ more)) =
      splitLoop ',' 0 [] parts' (turns none more) := by
  induction texts generalizing parts with
  | nil => exact ⟨parts, rfl⟩
  | cons text texts ih =>
    have htext : withCommas (text :: texts) ++ more = text ++ ',' :: (withCommas texts ++ more) := by
      simp [withCommas]
    have hcomma : ∀ q ∈ quotes, (',' :: (withCommas texts ++ more)).head? ≠ some q := by
      intro q hq hhead
      obtain rfl : ',' = q := Option.some.inj hhead
      exact absurd hq (by decide)
    have hpass : splitLoop ',' 0 [] parts
          (turns none (text ++ ',' :: (withCommas texts ++ more))) =
        splitLoop ',' 0 ([] ++ text) parts (turns none (',' :: (withCommas texts ++ more))) :=
      (splitLoop_closed (h text List.mem_cons_self) hcomma []).1
    have hturn : turns none (',' :: (withCommas texts ++ more)) =
        .plain ',' :: turns none (withCommas texts ++ more) := by
      rw [turns, if_neg (by decide), if_neg (by decide), if_neg (by decide)]
    obtain ⟨parts', hrest⟩ := ih (fun text' htext' => h text' (List.mem_cons_of_mem _ htext'))
      (parts ++ [Py.strip ([] ++ text)])
    refine ⟨parts', ?_⟩
    rw [htext]
    refine hpass.trans ?_
    rw [hturn, splitLoop, if_pos ⟨rfl, rfl⟩]
    exact hrest

/-- White space in front of a closed text can go. -/
theorem Closed.dropWhile {text : List Char} (h : Closed 0 text) :
    Closed 0 (text.dropWhile Py.isSpace) := by
  have hmain : ∀ {d : Nat} {text : List Char}, Closed d text → d = 0 →
      Closed 0 (text.dropWhile Py.isSpace) := by
    intro d text h
    induction h with
    | nil => exact fun _ => .nil
    | @quoted d q body text hq hbody rest ih =>
      rintro rfl
      have hsolid : Py.isSpace q = false := by
        have hall : quotes.all (fun q => !Py.isSpace q) = true := by decide
        simpa using List.all_eq_true.mp hall q hq
      rw [List.dropWhile_cons_of_neg (by rw [hsolid]; exact Bool.false_ne_true)]
      exact .quoted hq hbody rest
    | @left d text rest ih =>
      rintro rfl
      rw [List.dropWhile_cons_of_neg (by decide)]
      exact .left rest
    | right rest ih =>
      intro h0
      cases h0
    | @char d ch text hquote hparen hcomma rest ih =>
      rintro rfl
      by_cases hspace : Py.isSpace ch = true
      · rw [List.dropWhile_cons_of_pos hspace]
        exact ih rfl
      · rw [List.dropWhile_cons_of_neg hspace]
        exact .char hquote hparen hcomma rest
  exact hmain h rfl

/-- Without the white space in front, the clauses before a gap are still closed. -/
theorem dropWhile_withCommas {texts : List (List Char)} (h : ∀ text ∈ texts, Closed 0 text)
    {lead : List Char} (hlead : IsBlank lead) : ∃ texts' lead', IsBlank lead' ∧
      (∀ text ∈ texts', Closed 0 text) ∧
        (withCommas texts ++ lead).dropWhile Py.isSpace = withCommas texts' ++ lead' := by
  cases texts with
  | nil =>
    refine ⟨[], [], (fun ch hch => by cases hch), (fun text htext => by cases htext), ?_⟩
    exact List.dropWhile_eq_nil_iff.mpr hlead.isSpace
  | cons text texts =>
    refine ⟨text.dropWhile Py.isSpace :: texts, lead, hlead, fun text' htext' => ?_, ?_⟩
    · rcases List.mem_cons.mp htext' with rfl | hmem
      · exact (h text List.mem_cons_self).dropWhile
      · exact h text' (List.mem_cons_of_mem _ hmem)
    · have htext : withCommas (text :: texts) ++ lead = text ++ ',' :: (withCommas texts ++ lead) := by
        simp [withCommas]
      rw [htext, dropWhile_append_of_head]
      · simp [withCommas]
      · intro ch hch
        obtain rfl : ',' = ch := Option.some.inj hch
        decide

/-- What stands around the clauses does not reach into a solid text. -/
theorem bareText_eq (head : List Char) {core y : List Char} (hsolid : Solid core) (hy : Ends y) :
    ∃ y', Ends y' ∧ bareText (head ++ (core ++ y)) = head.dropWhile Py.isSpace ++ (core ++ y') := by
  have hlast : ∀ ch ∈ (head.dropWhile Py.isSpace ++ core).getLast?, decide (ch = ';') = false := by
    intro ch hch
    rw [List.getLast?_append_of_ne_nil _ hsolid.nonempty] at hch
    exact decide_eq_false (hsolid.last ch hch).2
  have hcut : (Py.strip (head ++ (core ++ y))).rdropWhile (· = ';') =
      head.dropWhile Py.isSpace ++ (core ++ (y.rdropWhile Py.isSpace).rdropWhile (· = ';')) := by
    rw [hsolid.strip, rdropWhile_append_of_last hlast, List.append_assoc]
  refine ⟨((y.rdropWhile Py.isSpace).rdropWhile (· = ';')).rdropWhile Py.isSpace, ?_, ?_⟩
  · exact hy.of_prefix ((List.rdropWhile_prefix _ _).trans
      ((List.rdropWhile_prefix _ _).trans (List.rdropWhile_prefix _ _)))
  · show Py.strip ((Py.strip (head ++ (core ++ y))).rdropWhile (· = ';')) = _
    rw [hcut, hsolid.strip, List.dropWhile_idempotent, List.append_assoc]

/-- A clause is found behind closed ones, as far as it is closed itself. -/
theorem mem_splitTopLevel {texts : List (List Char)} (h : ∀ text ∈ texts, Closed 0 text)
    {lead core y : List Char} (hlead : IsBlank lead) (hclosed : Closed 0 core) (hsolid : Solid core)
    (hy : Ends y) : ∃ y', Ends y' ∧ core ++ y' ∈
      splitTopLevel ',' (withCommas texts ++ lead ++ (core ++ y)) := by
  have hplain : Closed 0 (lead ++ core) := hclosed.of_plain hlead.plain
  have hquote : ∀ q ∈ quotes, y.head? ≠ some q := fun q hq hhead =>
    (plain_of_blank (hy q hhead)).1.1 hq
  obtain ⟨parts', hparts⟩ := splitLoop_withCommas h (lead ++ core ++ y) []
  have hpass : splitLoop ',' 0 [] parts' (turns none (lead ++ core ++ y)) =
      splitLoop ',' 0 (lead ++ core) parts' (turns none y) :=
    (splitLoop_closed hplain hquote []).1
  obtain ⟨y₁, hpre, hmem⟩ := (lexed_turns none y).exists_mem 0 (lead ++ core) parts'
  have hblank : lead.dropWhile Py.isSpace = [] := List.dropWhile_eq_nil_iff.mpr hlead.isSpace
  have hstrip : Py.strip (lead ++ core ++ y₁) = core ++ y₁.rdropWhile Py.isSpace := by
    rw [List.append_assoc, hsolid.strip, hblank]
    rfl
  have hne : core ++ y₁.rdropWhile Py.isSpace ≠ [] := fun heq =>
    hsolid.nonempty (List.append_eq_nil_iff.mp heq).1
  refine ⟨y₁.rdropWhile Py.isSpace,
    hy.of_prefix ((List.rdropWhile_prefix _ _).trans hpre), ?_⟩
  have htext : withCommas texts ++ lead ++ (core ++ y) = withCommas texts ++ (lead ++ core ++ y) := by
    simp
  rw [htext, splitTopLevel, hparts, hpass]
  rw [hstrip] at hmem
  exact List.mem_filter.mpr ⟨hmem hne, decide_eq_true hne⟩

/-- Some clauses with commas between them, from one of them on. -/
theorem intercalate_withCommas (texts : List (List Char)) (text : List Char)
    (more : List (List Char)) :
    ∃ z, [','].intercalate (texts ++ text :: more) = withCommas texts ++ (text ++ z) := by
  induction texts with
  | nil =>
    cases more with
    | nil => exact ⟨[], by simp [withCommas]⟩
    | cons next more => exact ⟨',' :: [','].intercalate (next :: more), by simp [withCommas]⟩
  | cons first texts ih =>
    obtain ⟨z, hz⟩ := ih
    refine ⟨z, ?_⟩
    obtain ⟨next, rest, hnext⟩ : ∃ next rest, texts ++ text :: more = next :: rest :=
      List.exists_cons_of_ne_nil (by simp)
    rw [List.cons_append, hnext, List.intercalate_cons_cons, ← hnext, hz]
    simp [withCommas]

/-- The beginning of a clause, behind its white space, is enough for the kind of a rename. -/
structure Telling (alnum : Char → Bool) (core : List Char) : Prop where
  closed : Closed 0 core
  solid : Solid core
  kind : ∀ y, Ends y →
    (clauseOf alnum (stripQuoted (core ++ y)) (core ++ y)).kind = .renameColumn

/-- A name in front keeps a text closed. -/
theorem PlainName.closed {t : Token} (h : PlainName t) {text : List Char} (hrest : Closed 0 text) :
    Closed 0 (t.text ++ text) := by
  cases h with
  | word hne hall =>
    refine hrest.of_plain fun ch hch => ?_
    obtain ⟨hquote, hleft, hright, hcomma, -⟩ := plain_of_word (hall ch hch)
    exact ⟨hquote, hleft, hright, hcomma⟩
  | @quoted name hne =>
    have htext : (Token.quoted name).text ++ text =
        backtick :: (double name ++ backtick :: text) := by
      simp [Token.text]
    rw [htext]
    exact .quoted (by decide) (quotedBody_double name) hrest

/-- So does `COLUMN`. -/
theorem ColumnWord.closed {column : List Token} (h : ColumnWord column) {text : List Char}
    (hrest : Closed 0 text) : Closed 0 (render column ++ text) := by
  cases h with
  | none => exact hrest
  | @some k gap hk hne hgap =>
    rw [render_cons, render_blank, List.append_assoc]
    exact (PlainName.of_keyword hk (by decide) (by decide)).closed (hrest.of_plain hgap.plain)

/-- `COLUMN` is skipped, and nothing else. -/
theorem ColumnWord.skip {column : List Token} (h : ColumnWord column) {old : Token}
    (hword : old.isKeyword "COLUMN" = false) (ts : List Token) :
    skipColumn (significant column ++ old :: ts) = old :: ts := by
  cases h with
  | none =>
    show (if old.isKeyword "COLUMN" then ts else old :: ts) = old :: ts
    rw [hword]
    rfl
  | @some k gap hk hne hgap =>
    have hk' : k.isGap = false := (PlainName.of_keyword hk (by decide) (by decide)).isGap
    rw [significant_cons hk', significant_blank]
    show (if k.isKeyword "COLUMN" then old :: ts else _) = old :: ts
    rw [if_pos hk]

/-- A CHANGE renames its first name to its second. -/
theorem renamed_change {clause ts ts' : List Token} {k old new : Token}
    (hsig : significant clause = k :: ts) (hk : k.isKeyword "CHANGE" = true)
    (hskip : skipColumn ts = old :: new :: ts') :
    renamed clause = old.name.bind fun o => new.name.map fun n => (o, n) := by
  unfold renamed
  rw [hsig]
  dsimp only
  rw [if_pos hk, hskip]

/-- A rename that is spelled as expected begins with what tells it. -/
theorem Spelled.telling (alnum : Char → Bool) {c : Column} {clause : List Token}
    (h : Spelled c clause) {o n : String}
    (hren : renamed clause = some (o, n)) (hdiff : lower n ≠ lower c.name) :
    ∃ lead core ch y, render clause = lead ++ (core ++ ch :: y) ∧ IsBlank lead ∧ ch ∈ blanks ∧
      Telling alnum core := by
  cases h with
  -- The keyword and the column stand one after the other, so the kind is read off the text.
  | @rename lead gap k column ch rest hlead hk hne hgap hcolumn hch =>
    have hcore : render (k :: gap.map .blank ++ [column]) = k.text ++ (gap ++ column.text) := by
      simp
    have hword : PlainName k := .of_keyword hk (by decide) (by decide)
    have hword' : PlainName column := .of_keyword hcolumn (by decide) (by decide)
    refine ⟨lead, render (k :: gap.map .blank ++ [column]), ch, render rest, ?_, hlead, hch,
      ?_, ?_, fun y hy => kind_rename hk hne hgap hcolumn hy rfl⟩
    · simp [Token.text]
    -- Neither has an open bracket or quote, so the commas split the text around them.
    · rw [hcore, ← List.append_nil column.text]
      exact hword.closed ((hword'.closed .nil).of_plain hgap.plain)
    · rw [hcore]
      exact hword.solid.around hword'.solid gap
  | @change lead gap between column k old new ch rest hlead hk hne hgap hcolumn hold hword hsame
      hne' hbetween hnew hch =>
    -- Without gaps and comments the clause is keyword, column, old name, new name.
    have hsig : significant (lead.map .blank ++ (k :: gap.map .blank ++ column ++ old ::
        between.map .blank ++ [new]) ++ .blank ch :: rest) =
          k :: (significant column ++ old :: new :: significant rest) := by
      have hk' : k.isGap = false := (PlainName.of_keyword hk (by decide) (by decide)).isGap
      have hblank : significant (.blank ch :: rest) = significant rest := rfl
      simp only [significant_append, significant_blank, List.cons_append, List.nil_append,
        significant_cons hk', significant_cons hold.isGap, significant_cons hnew.isGap, hblank,
        List.append_assoc]
    -- So the two names are the ones that the server reads, and they differ.
    have hnames := renamed_change hsig hk (hcolumn.skip hword _)
    rw [hren] at hnames
    obtain ⟨o', ho, hnames⟩ := Option.bind_eq_some_iff.mp hnames.symm
    obtain ⟨n', hn, heq⟩ := Option.map_eq_some_iff.mp hnames
    cases heq
    have hdiff' : lower n ≠ lower o := hsame o ho ▸ hdiff
    have hcore : render (k :: gap.map .blank ++ column ++ old :: between.map .blank ++ [new]) =
        k.text ++ (gap ++ (render column ++ (old.text ++ (between ++ (new.text ++ []))))) := by
      simp
    refine ⟨lead, render (k :: gap.map .blank ++ column ++ old :: between.map .blank ++ [new]), ch,
      render rest, ?_, hlead, hch, ?_, solid_change hk hnew, fun y hy =>
        kind_change hk hne hgap hcolumn hold hword hne' hbetween hnew hy ho hn hdiff' rfl⟩
    · simp [Token.text]
    -- Old and new name are closed words, and so is everything between them.
    · rw [hcore]
      exact (PlainName.of_keyword hk (by decide) (by decide)).closed ((hcolumn.closed (hold.closed
        ((hnew.closed .nil).of_plain hbetween.plain))).of_plain hgap.plain)

/-- A telling clause behind closed ones is a rename to `parse_alter`. -/
theorem exists_rename {texts : List (List Char)} (h : ∀ text ∈ texts, Closed 0 text)
    {lead core y : List Char} {ch : Char} (hlead : IsBlank lead) (hch : ch ∈ blanks)
    (hcore : Telling alnum core) {spec : AlterSpec}
    (hparse : parseAlter alnum (withCommas texts ++ (lead ++ (core ++ ch :: y))) = .ok spec) :
    ∃ clause ∈ spec.clauses, clause.kind = .renameColumn := by
  have hends : Ends (ch :: y) := by
    intro x hx
    obtain rfl : ch = x := Option.some.inj hx
    exact hch
  obtain ⟨y₁, hy₁, hbare⟩ := bareText_eq (withCommas texts ++ lead) hcore.solid hends
  obtain ⟨texts', lead', hlead', hclosed', hhead⟩ := dropWhile_withCommas h hlead
  obtain ⟨y₂, hy₂, hmem⟩ := mem_splitTopLevel hclosed' hlead' hcore.closed hcore.solid hy₁
  rw [← List.append_assoc] at hparse
  rw [parseAlter, hbare, hhead] at hparse
  split at hparse
  · cases hparse
  · cases hparse
    exact ⟨_, List.mem_map_of_mem hmem, hcore.kind y₂ hy₂⟩

end

/-! ### The checks and the server -/

/-- Everything that an ALTER passes on its way to the swap. -/
structure LetThrough (alnum : Char → Bool) (text : List Char) (spec : AlterSpec)
    (src shadow : TableInfo) (allowTypeChange : Bool) : Prop where
  parsed : parseAlter alnum text = .ok spec
  preflight : ∃ left old readOnly datadir, (preflight src spec left old readOnly datadir).ok = true
  validated : (validateShadow src shadow allowTypeChange).errors = []

/-- No column is lost without a DROP COLUMN, and none is renamed. -/
structure Accounted (m : Mysql) (src shadow : TableInfo) (allowTypeChange : Bool)
    (clauses : List (List Token)) : Prop where
  named : ∀ c ∈ src.columns, c.generated = false →
    c.name ∉ (validateShadow src shadow allowTypeChange).copyCols → shadow.col c.name = none →
      ∃ clause ∈ clauses, m.Drops clause c
  unrenamed : ∀ clause ∈ clauses, ∀ c ∈ src.columns, ¬ m.Renames clause c

/-- Every rename of a column is spelled as `parse_alter` expects it, and the clauses before it
close what they open. -/
def PlainlySpelled (m : Mysql) (src : TableInfo) (clauses : List (List Token)) : Prop :=
  ∀ before clause after, clauses = before ++ clause :: after → ∀ c ∈ src.columns,
    m.Renames clause c → Spelled c clause ∧ ∀ other ∈ before, Closed 0 (render other)

/-- A rename is refused by preflight. -/
theorem not_ok_of_rename {src : TableInfo} {spec : AlterSpec} {clause : Clause}
    (hmem : clause ∈ spec.clauses) (hkind : clause.kind = .renameColumn)
    (left old : Option TableInfo) (readOnly : Bool) (datadir : Option String) :
    (preflight src spec left old readOnly datadir).ok = false := by
  have herrors : clauseErrors src clause ≠ [] := by
    simp [clauseErrors, hkind]
  have hall : spec.clauses.flatMap (clauseErrors src) ≠ [] := fun hnil =>
    herrors (List.flatMap_eq_nil_iff.mp hnil clause hmem)
  unfold preflight Preflight.ok
  split
  · simp
  · simp [hall]

/-- A column is only lost to a DROP COLUMN, and no rename is let through, if and only if every
rename is plainly spelled. -/
theorem accounted_iff (alnum : Char → Bool) (m : Mysql) (hm : m.Documented) {text : List Char}
    {spec : AlterSpec} {src shadow : TableInfo} {allowTypeChange : Bool}
    {clauses : List (List Token)} (hread : m.alter src text = some (clauses, shadow))
    (hgo : LetThrough alnum text spec src shadow allowTypeChange) :
    Accounted m src shadow allowTypeChange clauses ↔ PlainlySpelled m src clauses := by
  -- Where every lost column is accounted for, no clause renames one.
  constructor
  · intro h before clause after heq c hc hren
    refine absurd hren (h.unrenamed clause ?_ c hc)
    rw [heq]
    simp
  -- The text is spelled plainly up to the first rename, which the preflight would see.
  · intro h
    have hnone : ∀ clause ∈ clauses, ∀ c ∈ src.columns, ¬ m.Renames clause c := by
      intro clause hclause c hc hren
      obtain ⟨before, after, heq⟩ := List.append_of_mem hclause
      obtain ⟨hspelled, hbefore⟩ := h before clause after heq c hc hren
      obtain ⟨old, new, hnames, -, hdiff⟩ := hren
      -- The rename stands in the text behind its neighbours and a comma.
      obtain ⟨tail, htext, -⟩ := hm.text src text clauses shadow hread
      obtain ⟨lead, core, ch, y, hrender, hlead, hch, hcore⟩ :=
        hspelled.telling alnum hnames hdiff
      obtain ⟨z, hz⟩ := intercalate_withCommas (before.map render) (render clause) (after.map render)
      have hall : text = withCommas (before.map render) ++
          (lead ++ (core ++ ch :: (y ++ z ++ tail))) := by
        rw [htext, heq, List.map_append, List.map_cons, hz, hrender]
        simp
      -- What stands before it is closed, so the split finds the clause.
      have hclosed : ∀ other ∈ before.map render, Closed 0 other := by
        intro other hother
        obtain ⟨clause', hclause', rfl⟩ := List.mem_map.mp hother
        exact hbefore clause' hclause'
      obtain ⟨found, hfound, hkind⟩ :=
        exists_rename hclosed hlead hch hcore (hall ▸ hgo.parsed)
      -- But the preflight let the text through.
      obtain ⟨left, old', readOnly, datadir, hok⟩ := hgo.preflight
      rw [not_ok_of_rename hfound hkind] at hok
      cases hok
    -- No clause renames, so a lost column is a dropped one.
    refine ⟨fun c hc _ _ hlost => ?_, hnone⟩
    obtain ⟨clause, hclause, hdrop | hren⟩ := hm.columns src text clauses shadow hread c hc hlost
    · exact ⟨clause, hclause, hdrop⟩
    · exact absurd hren (hnone clause hclause c hc)

/-! ### Two texts -/

/-- A server that reads one text, which is one clause. -/
def oneText (text : List Char) (clause : List Token) (columns : List Column → List Column) :
    Mysql where
  same a b := lower a = lower b
  alter src text' :=
    if text' = text then some ([clause], { src with columns := columns src.columns }) else none

/-- A server that reads one text as one clause that says what it does is documented. -/
theorem documented_oneText {text : List Char} {clause : List Token}
    {columns : List Column → List Column} (htext : text = render clause)
    (hcolumns : ∀ cs : List Column, ∀ c ∈ cs, (∀ c' ∈ columns cs, lower c'.name ≠ lower c.name) →
      (oneText text clause columns).Drops clause c ∨
        (oneText text clause columns).Renames clause c) :
    (oneText text clause columns).Documented where
  text := by
    intro src text' clauses shadow h
    obtain ⟨hsame, hread⟩ := Option.ite_none_right_eq_some.mp h
    cases hread
    refine ⟨[], ?_, fun ch hch => by cases hch⟩
    rw [hsame, htext]
    simp
  columns := by
    intro src text' clauses shadow h c hc hlost
    obtain ⟨-, hread⟩ := Option.ite_none_right_eq_some.mp h
    cases hread
    refine ⟨clause, List.mem_singleton_self _, hcolumns src.columns c hc fun c' hc' => ?_⟩
    have hno := List.find?_eq_none.mp hlost c' hc'
    simpa using hno

/-- A table with two columns. -/
def twoColumns : TableInfo where
  db := "d"
  name := "t"
  columns := [⟨"id", "int", false, none, ""⟩, ⟨"a", "int", true, none, ""⟩]
  pk := ["id"]
  engine := some "InnoDB"

/-- `DROP COLUMN a`. -/
def dropClause : List Token :=
  [.word "DROP".toList, .blank ' ', .word "COLUMN".toList, .blank ' ', .word "a".toList]

/-- A server that drops the column. -/
def dropServer : Mysql :=
  oneText (render dropClause) dropClause fun cs => cs.filter fun c => lower c.name ≠ lower "a"

/-- The server that drops `a` is documented. -/
theorem documented_dropServer : dropServer.Documented := by
  refine documented_oneText rfl fun cs c hc hlost => .inl ⟨"a", by decide +kernel, ?_⟩
  by_contra hne
  have hname : lower c.name ≠ lower "a" := fun heq => hne (decide_eq_true heq.symm)
  exact hlost c (List.mem_filter.mpr ⟨hc, decide_eq_true hname⟩) rfl

/-- `CHANGE /**/ a b INT`. -/
def commentClause : List Token :=
  [.word "CHANGE".toList, .blank ' ', .comment "/**/".toList, .blank ' ', .word "a".toList,
   .blank ' ', .word "b".toList, .blank ' ', .word "INT".toList]

/-- A server that renames the column. -/
def renameServer : Mysql :=
  oneText (render commentClause) commentClause fun cs =>
    cs.map fun c => if lower c.name = lower "a" then { c with name := "b" } else c

/-- So is the one that renames `a` to `b`. -/
theorem documented_renameServer : renameServer.Documented := by
  refine documented_oneText rfl fun cs c hc hlost => .inr ⟨"a", "b", by decide +kernel, ?_⟩
  have hname : lower c.name = lower "a" := by
    by_contra hne
    refine hlost c (List.mem_map.mpr ⟨c, hc, if_neg hne⟩) rfl
  refine ⟨decide_eq_true hname.symm, ?_⟩
  rw [hname]
  decide +kernel

/-- The checks of a text can be computed. -/
theorem letThrough_of_any (alnum : Char → Bool) (text : List Char) (src shadow : TableInfo)
    (h : (parseAlter alnum text).toOption.any
      (fun spec => (preflight src spec none none false none).ok) = true)
    (hvalid : (validateShadow src shadow false).errors = []) :
    ∃ spec, LetThrough alnum text spec src shadow false := by
  cases hparse : parseAlter alnum text with
  | error e =>
    rw [hparse] at h
    cases h
  | ok spec =>
    rw [hparse] at h
    exact ⟨spec, hparse, ⟨none, none, false, none, h⟩, hvalid⟩

/-- `DROP COLUMN a` is let through, and has no rename to spell. -/
theorem accounted_iff_dropColumn :
    Accounted dropServer twoColumns { twoColumns with columns := [⟨"id", "int", false, none, ""⟩] }
      false [dropClause] ↔ PlainlySpelled dropServer twoColumns [dropClause] := by
  obtain ⟨spec, hgo⟩ := letThrough_of_any (fun _ => false) (render dropClause) twoColumns
    { twoColumns with columns := [⟨"id", "int", false, none, ""⟩] }
    (by decide +kernel) (by decide +kernel)
  exact accounted_iff (fun _ => false) dropServer documented_dropServer (by rfl) hgo

/-- A comment behind CHANGE hides the rename from `parse_alter`. The shadow has the column under
its new name, and its data is not copied. -/
theorem renamed_behind_comment :
    ¬ ∀ (alnum : Char → Bool) (m : Mysql), m.Documented → ∀ (text : List Char) (spec : AlterSpec)
      (src shadow : TableInfo) (allowTypeChange : Bool) (clauses : List (List Token)),
      m.alter src text = some (clauses, shadow) →
      LetThrough alnum text spec src shadow allowTypeChange →
      Accounted m src shadow allowTypeChange clauses := by
  intro h
  let shadow : TableInfo := { twoColumns with
    columns := [⟨"id", "int", false, none, ""⟩, ⟨"b", "int", true, none, ""⟩] }
  obtain ⟨spec, hgo⟩ := letThrough_of_any (fun _ => false) (render commentClause) twoColumns shadow
    (by decide +kernel) (by decide +kernel)
  have haccounted := h (fun _ => false) renameServer documented_renameServer (render commentClause)
    spec twoColumns shadow false [commentClause] (by rfl) hgo
  have hcolumn : (⟨"a", "int", true, none, ""⟩ : Column) ∈ twoColumns.columns := by decide +kernel
  obtain ⟨clause, hclause, column, hdropped, -⟩ :=
    haccounted.named _ hcolumn (by decide +kernel) (by decide +kernel) (by decide +kernel)
  rw [List.mem_singleton.mp hclause] at hdropped
  have hnone : dropped commentClause = none := by decide +kernel
  rw [hnone] at hdropped
  cases hdropped

end DbGuard.Osc
