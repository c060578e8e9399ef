import DbGuard.Proofs.Osc.Predicate
import Mathlib.Algebra.Ring.Nat
import Mathlib.Data.Finset.Max

/-!
# `DbGuard.Proofs.Osc.Statement`: the predicate that the server is sent

`rangePredicate` puts `%s` where the values belong, and the driver formats the whole text with
the `%` operator. The names of the columns are in this text. A name without a percent sign is
left as it is, `%%` in a name becomes a single percent sign, and any other directive takes one
of the arguments, so that one is missing at the end (`mogrify_eq_ok`).

`text_injective` says that a text says one thing only, where the literals of the values can be
read back (`Readable`). A formatted predicate is thus the predicate of the range or one over
other columns.

`Selects` is what the chunks rely on. `selects_iff` says that the keys for which it is true are
those without a percent sign in the name of a column. `holds_iff_inRange` connects it with
`Copy`, whose keys are single values: where their order is tuple order, the predicate selects
the rows of `inRange`.
-/

set_option autoImplicit false

namespace DbGuard.Osc

open Py (Fills Takes)

variable {V : Type} {conv : List Char → Char → List Char → Except Py.FormatError (List Char)}
  {lit : V → List Char}

/-! ### Names -/

/-- The name has no other directive than `%%`. -/
def Quiet (name : String) : Prop := (Py.literal false name.toList).isSome = true
deriving Decidable

/-- What formatting makes of a name. -/
def formatted (name : String) : String :=
  ((Py.literal false name.toList).map String.ofList).getD name

section
variable {name : String}

/-- A name without a percent sign is quiet and stays as it is. -/
theorem quiet_of_notMem (h : '%' ∉ name.toList) : Quiet name ∧ formatted name = name := by
  simp [Quiet, formatted, Py.literal_of_notMem h]

/-- A name with a percent sign becomes another one, which is shorter. -/
theorem length_formatted (hq : Quiet name) (h : '%' ∈ name.toList) :
    (formatted name).toList.length < name.toList.length := by
  obtain ⟨out, hout⟩ := Option.isSome_iff_exists.mp hq
  have hlt := (Py.length_literal hout).2 rfl h
  simpa [formatted, hout] using hlt

/-- A backtick closes a literal run of text. -/
theorem tick_closes : Py.Closes tick := by
  refine ⟨by decide, fun d => ?_⟩
  cases d <;> decide

/-- Doubling the backticks does not touch the directives. -/
theorem literal_escaped (half : Bool) (cs : List Char) :
    Py.literal half (escaped cs) = (Py.literal half cs).map escaped := by
  have htick : tick ≠ '%' := by decide
  -- By induction on the text, with the half directive as a parameter.
  induction cs generalizing half with
  | nil => cases half <;> rfl
  | cons c cs ih =>
    have hcons : escaped (c :: cs) = (if c = tick then [c, c] else [c]) ++ escaped cs := rfl
    rw [hcons]
    -- A back tick is doubled; in a half directive it is refused either way.
    by_cases hc : c = tick
    · subst hc
      cases half
      · simp only [if_true, List.cons_append, List.nil_append, Py.literal, htick, if_false, ih,
          Option.map_map]
        rfl
      · simp [Py.literal, htick]
    -- A percent sign is no back tick, so escaping leaves it.
    · by_cases hpc : c = '%'
      · subst hpc
        have hne : ¬ '%' = tick := fun h => htick h.symm
        cases half
        · simp [Py.literal, hne, ih]
        · simp only [if_neg hne, List.cons_append, List.nil_append, Py.literal, if_true, ih,
            Option.map_map]
          rfl
      -- Any other character is copied.
      · cases half
        · simp only [if_neg hc, List.cons_append, List.nil_append, Py.literal, if_neg hpc, ih,
            Option.map_map]
          congr 1
          funext x
          simp [escaped, hc]
        · simp [Py.literal, hc, hpc]

variable (conv) in
/-- A quiet name in backticks takes no argument. -/
theorem fills_q (h : Quiet name) : Fills conv (q name) [] (q (formatted name)) := by
  obtain ⟨out, hout⟩ := Option.isSome_iff_exists.mp h
  have hname : formatted name = String.ofList out := by simp [formatted, hout]
  have hlit : Py.literal false (escaped name.toList) = some (escaped out) := by
    rw [literal_escaped, hout, Option.map_some]
  have htick : Fills conv [tick] [] [tick] := Fills.char (by decide)
  rw [q, q, hname, String.toList_ofList]
  exact (htick.append (Fills.literal hlit)).append htick

/-- How many arguments a quoted name takes. -/
def nameTakes (name : String) : Nat := Py.taken none (q name)

/-- Every name in backticks takes as many as its directives. -/
theorem takes_q (name : String) : Takes (q name) (nameTakes name) := by
  refine ⟨rfl, ?_⟩
  rw [q, List.foldl_append]
  generalize List.foldl Py.next none (tick :: escaped name.toList) = st
  cases st with
  | none => decide
  | some d => exact tick_closes.2 d

/-- A name that takes no argument is quiet. -/
theorem quiet_of_nameTakes (h : nameTakes name = 0) : Quiet name := by
  have hcons : Py.taken none (q name) = Py.taken none (escaped name.toList ++ [tick]) := by
    have htick : tick ≠ '%' := by decide
    simp [q, Py.taken, Py.takes, Py.next, htick]
  rw [nameTakes, hcons] at h
  obtain ⟨out, hout⟩ := Py.literal_of_taken tick_closes false h
  rw [literal_escaped] at hout
  obtain ⟨out', hout', -⟩ := Option.map_eq_some_iff.mp hout
  rw [Quiet, hout']
  rfl

end

/-! ### Comparisons, bounds and predicates -/

/-- The same comparison with another column. -/
def Cmp.rename (u : String → String) (c : Cmp V) : Cmp V := { c with col := u c.col }

/-- The same bound over other columns. -/
def Bound.rename (u : String → String) : Bound V → Bound V
  | .single c => .single (c.rename u)
  | .expanded lead terms => .expanded (lead.rename u) (terms.map fun term => term.map (Cmp.rename u))

/-- The same predicate over other columns. -/
def Predicate.rename (u : String → String) (p : Predicate V) : Predicate V := p.map (Bound.rename u)

/-- The literals of the values of some comparisons. -/
def literals (lit : V → List Char) (cs : List (Cmp V)) : List (List Char) :=
  cs.map fun c => lit c.val

section
variable (conv lit)

/-- A comparison takes its literal. -/
theorem fills_cmp {c : Cmp V} (h : Quiet c.col) :
    Fills conv (c.text hole) (literals lit [c]) ((c.rename formatted).text lit) := by
  have hop : Fills conv (' ' :: c.op.text ++ [' ']) [] (' ' :: c.op.text ++ [' ']) :=
    Fills.plain (by cases c.op <;> decide)
  have hall := ((fills_q conv h).append hop).append (Fills.hole (lit c.val))
  simpa [Cmp.text, compared, Cmp.rename, literals, hole] using hall

variable {conv} in
/-- Brackets around a text take nothing. -/
theorem Fills.bracketed {text out : List Char} {args : List (List Char)}
    (h : Fills conv text args out) : Fills conv (bracketed text) args (bracketed out) := by
  have hopen : Fills conv ['('] [] ['('] := Fills.char (by decide)
  have hclose : Fills conv [')'] [] [')'] := Fills.char (by decide)
  simpa [DbGuard.Osc.bracketed] using (hopen.append h).append hclose

/-- The literals of several parts are those of all their comparisons. -/
theorem flatMap_literals {α : Type} (f : α → List (Cmp V)) (xs : List α) :
    xs.flatMap (fun x => literals lit (f x)) = literals lit (xs.flatMap f) := by
  simp [literals, List.map_flatMap]

/-- A conjunction takes the literals of its comparisons. -/
theorem fills_term {term : List (Cmp V)} (h : ∀ c ∈ term, Quiet c.col) :
    Fills conv (termText hole term) (literals lit term)
      (termText lit (term.map (Cmp.rename formatted))) := by
  have hjoin := Fills.join (show '%' ∉ " AND ".toList by decide) term
    fun c hc => fills_cmp conv lit (h c hc)
  rw [flatMap_literals, List.flatMap_singleton'] at hjoin
  simpa [termText, conjunction, List.map_map, Function.comp_def] using Fills.bracketed hjoin

/-- A bound takes those of all its terms. -/
theorem fills_bound {b : Bound V} (h : ∀ c ∈ b.cmps, Quiet c.col) :
    Fills conv (b.text hole) (literals lit b.cmps) ((b.rename formatted).text lit) := by
  cases b with
  | single c => exact fills_cmp conv lit (h c List.mem_cons_self)
  | expanded lead terms =>
    have hlead : Fills conv (lead.text hole) (literals lit [lead])
        ((lead.rename formatted).text lit) := fills_cmp conv lit (h lead List.mem_cons_self)
    have hterms := Fills.join (show '%' ∉ " OR ".toList by decide) terms
      fun term hterm => fills_term conv lit fun c hc =>
        h c (List.mem_cons_of_mem _ (List.mem_flatten.mpr ⟨term, hterm, hc⟩))
    rw [flatMap_literals, List.flatMap_id'] at hterms
    have hand : Fills conv " AND ".toList [] " AND ".toList := Fills.plain (by decide)
    have hall := Fills.bracketed ((hlead.append hand).append (Fills.bracketed hterms))
    simpa [Bound.text, Bound.rename, Bound.cmps, literals, conjunction, disjunction,
      List.map_map, Function.comp_def, List.intercalate_cons_cons] using hall

/-- A predicate takes those of its bounds. -/
theorem fills_predicate {p : Predicate V} (h : ∀ c ∈ p.cmps, Quiet c.col) :
    Fills conv (p.text hole) (literals lit p.cmps) ((p.rename formatted).text lit) := by
  by_cases hp : p = []
  · subst hp
    have hone : Fills conv "1=1".toList [] "1=1".toList := Fills.plain (by decide)
    exact hone
  · have hjoin := Fills.join (show '%' ∉ " AND ".toList by decide) p
      fun b hb => fills_bound conv lit fun c hc => h c (List.mem_flatMap.mpr ⟨b, hb, hc⟩)
    rw [flatMap_literals] at hjoin
    have hp' : p.rename formatted ≠ [] := by simpa [Predicate.rename] using hp
    rw [Predicate.text, Predicate.text, if_neg hp, if_neg hp', Predicate.rename, List.map_map]
    exact hjoin

end

/-! ### The arguments that the names take -/

/-- How many arguments a comparison takes: one for its placeholder, besides those of the name. -/
def cmpTakes (c : Cmp V) : Nat := nameTakes c.col + 1

/-- A comparison takes its placeholder's argument and those of its name. -/
theorem takes_cmp (c : Cmp V) : Takes (c.text hole) (cmpTakes c) := by
  have hop : Takes (' ' :: c.op.text ++ [' ']) 0 := Takes.plain (by cases c.op <;> decide)
  simpa [Cmp.text, compared, hole, cmpTakes] using ((takes_q c.col).append hop).append Takes.hole

/-- Brackets take nothing more. -/
theorem Takes.bracketed {text : List Char} {n : Nat} (h : Takes text n) :
    Takes (bracketed text) n := by
  have hopen : Takes ['('] 0 := Takes.plain (by decide)
  have hclose : Takes [')'] 0 := Takes.plain (by decide)
  simpa [DbGuard.Osc.bracketed] using (hopen.append h).append hclose

/-- A conjunction takes as many as its comparisons together. -/
theorem takes_term (term : List (Cmp V)) : Takes (termText hole term) (term.map cmpTakes).sum :=
  Takes.bracketed (Takes.join (by decide) term fun c _ => takes_cmp c)

/-- A bound takes as many as its terms together. -/
theorem takes_bound (b : Bound V) : Takes (b.text hole) (b.cmps.map cmpTakes).sum := by
  cases b with
  | single c => exact takes_cmp c
  | expanded lead terms =>
    have hterms := Takes.join (show '%' ∉ " OR ".toList by decide) terms
      fun term _ => takes_term term
    have hsum : (terms.map fun term => (term.map cmpTakes).sum).sum =
        (terms.flatten.map cmpTakes).sum := by
      rw [List.map_flatten, List.sum_flatten, List.map_map]
      rfl
    rw [hsum] at hterms
    have hand : Takes " AND ".toList 0 := Takes.plain (by decide)
    have hall := Takes.bracketed (((takes_cmp lead).append hand).append (Takes.bracketed hterms))
    simpa [Bound.text, Bound.cmps, conjunction, disjunction, List.intercalate_cons_cons] using hall

/-- A predicate takes as many as its bounds together. -/
theorem takes_predicate (p : Predicate V) :
    Takes (p.text hole) (p.cmps.map cmpTakes).sum := by
  by_cases hp : p = []
  · subst hp
    have hone : Takes "1=1".toList 0 := Takes.plain (by decide)
    exact hone
  · have hjoin := Takes.join (show '%' ∉ " AND ".toList by decide) p
      fun b _ => takes_bound b
    have hsum : (p.map fun b => (b.cmps.map cmpTakes).sum).sum = (p.cmps.map cmpTakes).sum := by
      rw [Predicate.cmps, List.flatMap_def, List.map_flatten, List.sum_flatten, List.map_map,
        List.map_map]
      rfl
    rw [hsum] at hjoin
    rw [Predicate.text, if_neg hp]
    exact hjoin

/-- The driver sends a predicate exactly where no name takes an argument, and what it sends is
the predicate over the formatted names. -/
theorem mogrify_eq_ok {p : Predicate V} {text : List Char} :
    mogrify conv lit (p.text hole) (p.cmps.map (·.val)) = .ok text ↔
      (∀ c ∈ p.cmps, Quiet c.col) ∧ text = (p.rename formatted).text lit := by
  have hargs : (p.cmps.map (·.val)).map lit = literals lit p.cmps := by
    rw [List.map_map]
    rfl
  rw [mogrify, hargs]
  constructor
  · intro h
    have hquiet : ∀ c ∈ p.cmps, Quiet c.col := by
      -- Every comparison takes at least one argument, so none takes more.
      have hcount : (p.cmps.map cmpTakes).sum = p.cmps.length := by
        rw [← (takes_predicate p).1]
        simpa [literals] using Py.taken_of_format h
      have hzero : ∀ cs : List (Cmp V), (cs.map cmpTakes).sum = cs.length →
          ∀ c ∈ cs, nameTakes c.col = 0 := by
        have hle : ∀ cs : List (Cmp V), cs.length ≤ (cs.map cmpTakes).sum := by
          intro cs
          induction cs with
          | nil => exact le_refl 0
          | cons c cs ih =>
            simp only [List.length_cons, List.map_cons, List.sum_cons, cmpTakes]
            omega
        intro cs
        induction cs with
        | nil => simp
        | cons c cs ih =>
          intro hsum
          have hrest := hle cs
          simp only [List.map_cons, List.sum_cons, List.length_cons, cmpTakes] at hsum
          rintro c' (_ | ⟨_, hc'⟩)
          · omega
          · exact ih (by omega) c' hc'
      exact fun c hc => quiet_of_nameTakes (hzero p.cmps hcount c hc)
    have heq := (fills_predicate conv lit hquiet).format_eq
    rw [h] at heq
    exact ⟨hquiet, Except.ok.inj heq⟩
  · rintro ⟨hquiet, rfl⟩
    exact (fills_predicate conv lit hquiet).format_eq

/-! ### Reading a text back -/

/-- What may follow a comparison. -/
def AfterItem (rest : List Char) : Prop := ∀ c ∈ rest.head?, c = ' ' ∨ c = ')'

/-- The end of a conjunction or a disjunction. -/
def AtEnd (rest : List Char) : Prop := ∀ c ∈ rest.head?, c = ')'

/-- What is written can be read back, where the text goes on in a way that `E` allows. -/
def Prefixed {α : Type} (E : List Char → Prop) (f : α → List Char) : Prop :=
  ∀ x y s t, E s → E t → f x ++ s = f y ++ t → x = y ∧ s = t

/-- The literals of the values can be read back: each is a token of its own. -/
def Readable (lit : V → List Char) : Prop := Prefixed AfterItem lit

/-- At an end a comparison may end, too. -/
theorem AtEnd.afterItem {rest : List Char} (h : AtEnd rest) : AfterItem rest :=
  fun c hc => .inr (h c hc)

/-- It may end before a space. -/
theorem afterItem_space (rest : List Char) : AfterItem (' ' :: rest) := by simp [AfterItem]

/-- A bracket closes a conjunction. -/
theorem atEnd_cons (rest : List Char) : AtEnd (')' :: rest) := by simp [AtEnd]

/-- So does the end of the text. -/
theorem atEnd_nil : AtEnd [] := by simp [AtEnd]

/-- A list that is joined with a separator can be read back. -/
theorem prefixed_intercalate {α : Type} {f : α → List Char} (sep : List Char)
    (hf : Prefixed AfterItem f) (hhead : ∀ x, ∃ c cs, f x = c :: cs ∧ c ≠ ')') :
    Prefixed AtEnd fun xs : List α => (' ' :: sep).intercalate (xs.map f) := by
  -- An item is not the end of the list, and a separator is not either.
  have hitem : ∀ x rest t, AtEnd t → f x ++ rest ≠ t := by
    intro x rest t ht heq
    obtain ⟨c, cs, hfx, hc⟩ := hhead x
    rw [hfx] at heq
    exact hc (ht c (by rw [← heq]; rfl))
  have hsep : ∀ rest t, AtEnd t → ' ' :: rest ≠ t := by
    rintro rest _ ht rfl
    exact absurd (ht ' ' rfl) (by decide)
  intro xs
  induction xs with
  | nil =>
    intro ys s t hs ht heq
    cases ys with
    | nil => exact ⟨rfl, heq⟩
    | cons y ys =>
      cases ys with
      | nil => exact absurd heq.symm (by simpa using hitem y t s hs)
      | cons y' ys =>
        simp only [List.map_cons, List.intercalate_cons_cons, List.append_assoc] at heq
        exact absurd heq.symm (hitem y _ s hs)
  | cons x xs ih =>
    intro ys s t hs ht heq
    cases ys with
    | nil =>
      cases xs with
      | nil => exact absurd heq (by simpa using hitem x s t ht)
      | cons x' xs =>
        simp only [List.map_cons, List.intercalate_cons_cons, List.append_assoc] at heq
        exact absurd heq (hitem x _ t ht)
    | cons y ys =>
      cases xs with
      | nil =>
        cases ys with
        | nil =>
          simp only [List.map_cons, List.map_nil, List.intercalate_singleton] at heq
          obtain ⟨rfl, rfl⟩ := hf x y s t hs.afterItem ht.afterItem heq
          exact ⟨rfl, rfl⟩
        | cons y' ys =>
          simp only [List.map_cons, List.map_nil, List.intercalate_singleton,
            List.intercalate_cons_cons, List.append_assoc, List.cons_append] at heq
          obtain ⟨-, hrest⟩ := hf x y _ _ hs.afterItem (afterItem_space _) heq
          exact absurd hrest.symm (hsep _ s hs)
      | cons x' xs =>
        cases ys with
        | nil =>
          simp only [List.map_cons, List.map_nil, List.intercalate_singleton,
            List.intercalate_cons_cons, List.append_assoc, List.cons_append] at heq
          obtain ⟨-, hrest⟩ := hf x y _ _ (afterItem_space _) ht.afterItem heq
          exact absurd hrest (hsep _ t ht)
        | cons y' ys =>
          simp only [List.map_cons, List.intercalate_cons_cons, List.append_assoc,
            List.cons_append] at heq
          obtain ⟨rfl, hrest⟩ := hf x y _ _ (afterItem_space _) (afterItem_space _) heq
          have htail := List.append_cancel_left (List.cons.inj hrest).2
          obtain ⟨hlist, hst⟩ := ih (y' :: ys) s t hs ht (by simpa using htail)
          exact ⟨by rw [hlist], hst⟩

/-- What stands in brackets can be read back wherever the text goes on. -/
theorem prefixed_bracketed {α : Type} {f : α → List Char} (hf : Prefixed AtEnd f)
    (E : List Char → Prop) : Prefixed E fun x => bracketed (f x) := by
  intro x y s t _ _ heq
  have hinner : f x ++ ')' :: s = f y ++ ')' :: t := by
    simpa [bracketed] using heq
  obtain ⟨rfl, hrest⟩ := hf x y _ _ (atEnd_cons s) (atEnd_cons t) hinner
  exact ⟨rfl, (List.cons.inj hrest).2⟩

/-- The names are in backticks. -/
theorem escaped_prefixed {cs ds s t : List Char} (hs : ∀ c ∈ s.head?, c ≠ tick)
    (ht : ∀ c ∈ t.head?, c ≠ tick) (heq : escaped cs ++ tick :: s = escaped ds ++ tick :: t) :
    cs = ds ∧ s = t := by
  have hcons : ∀ c cs, escaped (c :: cs) = (if c = tick then [c, c] else [c]) ++ escaped cs :=
    fun _ _ => rfl
  -- A name that goes on cannot end where another one ends: its back tick is doubled.
  have hend : ∀ c cs s t, (∀ x ∈ t.head?, x ≠ tick) →
      escaped (c :: cs) ++ tick :: s ≠ tick :: t := by
    intro c cs s t ht heq
    rw [hcons] at heq
    by_cases hc : c = tick
    · subst hc
      simp only [if_true, List.cons_append, List.nil_append, List.cons.injEq, true_and] at heq
      exact ht tick (by rw [← heq]; rfl) rfl
    · simp only [if_neg hc, List.cons_append, List.nil_append, List.cons.injEq] at heq
      exact hc heq.1
  induction cs generalizing ds with
  | nil =>
    cases ds with
    | nil => exact ⟨rfl, (List.cons.inj heq).2⟩
    | cons d ds => exact absurd heq.symm (hend d ds t s hs)
  | cons c cs ih =>
    cases ds with
    | nil => exact absurd heq (hend c cs s t ht)
    | cons d ds =>
      -- So the two names have the same first character.
      have hboth : c = d ∧ escaped cs ++ tick :: s = escaped ds ++ tick :: t := by
        rw [hcons, hcons] at heq
        by_cases hc : c = tick <;> by_cases hd : d = tick <;> simp_all
      obtain ⟨rfl, hrest⟩ := hboth
      obtain ⟨rfl, hst⟩ := ih hrest
      exact ⟨rfl, hst⟩

/-- A comparison can be read back. -/
theorem prefixed_cmp (hlit : Readable lit) : Prefixed AfterItem (Cmp.text lit) := by
  rintro ⟨col, op, val⟩ ⟨col', op', val'⟩ s t hs ht heq
  have hspace : ∀ rest : List Char, ∀ c ∈ (' ' :: rest).head?, c ≠ tick := by
    intro rest c hc
    cases hc
    decide
  simp only [Cmp.text, compared, q, List.append_assoc, List.cons_append, List.nil_append] at heq
  obtain ⟨hcol, hrest⟩ := escaped_prefixed (hspace _) (hspace _) (List.cons.inj heq).2
  obtain rfl := String.toList_injective hcol
  have hop : op = op' ∧ lit val ++ s = lit val' ++ t := by
    cases op <;> cases op' <;> simp_all [Op.text]
  obtain ⟨rfl, hval⟩ := hop
  obtain ⟨rfl, hst⟩ := hlit val val' s t hs ht hval
  exact ⟨rfl, hst⟩

/-- So can a conjunction. -/
theorem prefixed_term (hlit : Readable lit) (E : List Char → Prop) :
    Prefixed E (termText lit) :=
  prefixed_bracketed (prefixed_intercalate "AND ".toList (prefixed_cmp hlit) fun c =>
    ⟨tick, _, rfl, by decide⟩) E

/-- So can a bound. -/
theorem prefixed_bound (hlit : Readable lit) : Prefixed AfterItem (Bound.text lit) := by
  have hterms : Prefixed (fun _ => True) fun terms : List (List (Cmp V)) =>
      bracketed (disjunction (terms.map (termText lit))) :=
    prefixed_bracketed (prefixed_intercalate "OR ".toList (prefixed_term hlit AfterItem)
      fun term => ⟨'(', _, rfl, by decide⟩) _
  have hexpanded : Prefixed AfterItem fun x : Cmp V × List (List (Cmp V)) =>
      bracketed (conjunction [x.1.text lit, bracketed (disjunction (x.2.map (termText lit)))]) := by
    refine prefixed_bracketed ?_ _
    rintro ⟨lead, terms⟩ ⟨lead', terms'⟩ s t _ _ heq
    have hand : " AND ".toList = ' ' :: "AND ".toList := by decide
    simp only [conjunction, List.intercalate_cons_cons, List.intercalate_singleton,
      List.append_assoc, hand, List.cons_append] at heq
    obtain ⟨rfl, hrest⟩ := prefixed_cmp hlit lead lead' _ _ (afterItem_space _)
      (afterItem_space _) heq
    obtain ⟨rfl, hst⟩ := hterms terms terms' s t trivial trivial
      (List.append_cancel_left (List.cons.inj hrest).2)
    exact ⟨rfl, hst⟩
  have htick : tick ≠ '(' := by decide
  rintro (c | ⟨lead, terms⟩) (c' | ⟨lead', terms'⟩) s t hs ht heq
  · obtain ⟨rfl, hst⟩ := prefixed_cmp hlit c c' s t hs ht heq
    exact ⟨rfl, hst⟩
  · exact absurd (List.cons.inj heq).1 htick
  · exact absurd (List.cons.inj heq).1.symm htick
  · obtain ⟨hpair, hst⟩ := hexpanded (lead, terms) (lead', terms') s t hs ht heq
    cases hpair
    exact ⟨rfl, hst⟩

/-- A text says one predicate only. -/
theorem text_injective (hlit : Readable lit) {p p' : Predicate V}
    (h : p.text lit = p'.text lit) : p = p' := by
  have hhead : ∀ b : Bound V, ∃ c cs, b.text lit = c :: cs ∧ (c = tick ∨ c = '(') := by
    rintro (c | ⟨lead, terms⟩)
    · exact ⟨tick, _, rfl, .inl rfl⟩
    · exact ⟨'(', _, rfl, .inr rfl⟩
  -- No bound begins like `1=1`.
  have hone : ∀ p : Predicate V, p ≠ [] → conjunction (p.map (Bound.text lit)) ≠ "1=1".toList := by
    intro p hp heq
    obtain ⟨b, bs, rfl⟩ := List.exists_cons_of_ne_nil hp
    obtain ⟨c, cs, hb, hc⟩ := hhead b
    have hfirst : c = '1' := by
      cases bs with
      | nil =>
        simp only [conjunction, List.map_cons, List.map_nil, List.intercalate_singleton, hb] at heq
        exact (List.cons.inj heq).1
      | cons b' bs =>
        simp only [conjunction, List.map_cons, List.intercalate_cons_cons, hb] at heq
        exact (List.cons.inj heq).1
    rcases hc with rfl | rfl <;> exact absurd hfirst (by decide)
  unfold Predicate.text at h
  split at h
  · rename_i hp
    split at h
    · rename_i hp'
      rw [hp, hp']
    · rename_i hp'
      exact absurd h.symm (hone p' hp')
  · rename_i hp
    split at h
    · exact absurd h (hone p hp)
    · have hjoin := prefixed_intercalate "AND ".toList (prefixed_bound hlit) fun b => by
        obtain ⟨c, cs, hb, hc⟩ := hhead b
        exact ⟨c, cs, hb, by rcases hc with rfl | rfl <;> decide⟩
      exact (hjoin p p' [] [] atEnd_nil atEnd_nil (congrArg (· ++ []) h)).1

/-! ### The range -/

/-- The predicate of a range, once the driver has put the arguments in, says of every row
whether its key is in the range. -/
def Selects (conv : List Char → Char → List Char → Except Py.FormatError (List Char))
    (lit : V → List Char) (ord : String → LinearOrder V) (pk : List String)
    (lo hi : Option (List V)) : Prop :=
  ∃ sql args text, rangePredicate pk lo hi = .ok (sql, args) ∧
    mogrify conv lit sql args = .ok text ∧
    ∃ p : Predicate V, p.text lit = text ∧
      ∀ row : String → V, p.holds ord row = true ↔ Between ord pk lo hi (pk.map row)

section
variable {ord : String → LinearOrder V} {pk : List String} {lo hi : Option (List V)}

/-- A bound whose columns are renamed to themselves is the same. -/
theorem Bound.rename_eq_self {b : Bound V} {u : String → String}
    (h : ∀ c ∈ b.cmps, u c.col = c.col) : b.rename u = b := by
  have hcmp : ∀ c : Cmp V, u c.col = c.col → c.rename u = c := by
    rintro ⟨col, op, val⟩ heq
    exact congrArg (Cmp.mk · op val) heq
  cases b with
  | single c => rw [Bound.rename, hcmp c (h c List.mem_cons_self)]
  | expanded lead terms =>
    have hterms : terms.map (fun term => term.map (Cmp.rename u)) = terms := by
      refine (List.map_congr_left fun term hterm => ?_).trans (List.map_id terms)
      refine (List.map_congr_left fun c hc => ?_).trans (List.map_id term)
      exact hcmp c (h c (List.mem_cons_of_mem _ (List.mem_flatten.mpr ⟨term, hterm, hc⟩)))
    rw [Bound.rename, hterms, hcmp lead (h lead List.mem_cons_self)]

/-- So is such a predicate. -/
theorem Predicate.rename_eq_self {p : Predicate V} {u : String → String}
    (h : ∀ c ∈ p.cmps, u c.col = c.col) : p.rename u = p := by
  refine (List.map_congr_left fun b hb => ?_).trans (List.map_id p)
  exact Bound.rename_eq_self fun c hc => h c (List.mem_flatMap.mpr ⟨b, hb, hc⟩)

/-- The comparisons of a renamed bound are the renamed ones. -/
theorem Bound.cmps_rename (u : String → String) (b : Bound V) :
    (b.rename u).cmps = b.cmps.map (Cmp.rename u) := by
  cases b with
  | single c => rfl
  | expanded lead terms => simp [Bound.rename, Bound.cmps, List.map_flatten]

/-- A test of all members depends on the members only. -/
theorem all_congr_mem {α : Type} {f g : α → Bool} {xs : List α} (h : ∀ x ∈ xs, f x = g x) :
    xs.all f = xs.all g := by
  rw [Bool.eq_iff_iff, List.all_eq_true, List.all_eq_true]
  exact forall₂_congr fun x hx => by rw [h x hx]

/-- So does a test for one. -/
theorem any_congr_mem {α : Type} {f g : α → Bool} {xs : List α} (h : ∀ x ∈ xs, f x = g x) :
    xs.any f = xs.any g := by
  rw [Bool.eq_iff_iff, List.any_eq_true, List.any_eq_true]
  exact exists_congr fun x => and_congr_right fun hx => by rw [h x hx]

/-- A predicate reads the columns of its comparisons only. -/
theorem Predicate.holds_congr {p : Predicate V} {row row' : String → V}
    (h : ∀ c ∈ p.cmps, row c.col = row' c.col) : p.holds ord row = p.holds ord row' := by
  have htest : ∀ c : Cmp V, row c.col = row' c.col → c.test ord row = c.test ord row' := by
    intro c heq
    unfold Cmp.test
    rw [heq]
  have hbound : ∀ b : Bound V, (∀ c ∈ b.cmps, row c.col = row' c.col) →
      b.holds ord row = b.holds ord row' := by
    intro b hb
    cases b with
    | single c => exact htest c (hb c List.mem_cons_self)
    | expanded lead terms =>
      have hlead := htest lead (hb lead List.mem_cons_self)
      have hterms : terms.any (fun term => term.all (Cmp.test ord row)) =
          terms.any fun term => term.all (Cmp.test ord row') := by
        refine any_congr_mem fun term hterm => all_congr_mem fun c hc => ?_
        exact htest c (hb c (List.mem_cons_of_mem _ (List.mem_flatten.mpr ⟨term, hterm, hc⟩)))
      rw [Bound.holds, Bound.holds, hlead, hterms]
  exact all_congr_mem fun b hb =>
    hbound b fun c hc => h c (List.mem_flatMap.mpr ⟨b, hb, hc⟩)

/-- Without a percent sign in the key the predicate selects the range. -/
theorem selects_of_plain (hpk : pk ≠ []) (hno : ∀ c ∈ pk, '%' ∉ c.toList)
    (hlo : ∀ b ∈ lo, b.length = pk.length) (hhi : ∀ b ∈ hi, b.length = pk.length) :
    Selects conv lit ord pk lo hi := by
  obtain ⟨p, heq, -, hcols, hholds⟩ := rangePredicate_eq ord hpk hlo hhi
  have hplain : ∀ c ∈ p.cmps, Quiet c.col ∧ formatted c.col = c.col := fun c hc =>
    quiet_of_notMem (hno c.col (hcols c hc))
  refine ⟨_, _, p.text lit, heq, ?_, p, rfl, hholds⟩
  have hsame : p.rename formatted = p := Predicate.rename_eq_self fun c hc => (hplain c hc).2
  exact mogrify_eq_ok.mpr ⟨fun c hc => (hplain c hc).1, by rw [hsame]⟩

/-- No key is before itself. -/
theorem tupleLt_irrefl (key : List V) : ¬ tupleLt ord pk key key := by
  induction pk generalizing key with
  | nil => simp [tupleLt]
  | cons c cs ih =>
    cases key with
    | nil => simp [tupleLt]
    | cons x xs =>
      rintro (hlt | ⟨-, hrest⟩)
      · let _ := ord c
        exact lt_irrefl x hlt
      · exact ih xs hrest

/-- A key that is larger in some column, and not smaller in any. -/
theorem tupleLt_of_col {row row' : String → V} {name : String} (hmem : name ∈ pk)
    (hlt : (ord name).lt (row name) (row' name)) (hsame : ∀ c ≠ name, row c = row' c) :
    tupleLt ord pk (pk.map row) (pk.map row') := by
  induction pk with
  | nil => cases hmem
  | cons c cs ih =>
    by_cases hc : c = name
    · subst hc
      exact .inl hlt
    · exact .inr ⟨hsame c hc, ih ((List.mem_cons.mp hmem).resolve_left (Ne.symm hc))⟩

/-- A predicate over formatted names does not read the longest name with a percent sign. -/
theorem exists_unread {p : Predicate V} (hcols : ∀ c ∈ p.cmps, c.col ∈ pk)
    (hquiet : ∀ c ∈ p.cmps, Quiet c.col) {name : String} (hname : name ∈ pk)
    (hpercent : '%' ∈ name.toList) :
    ∃ name ∈ pk, ∀ c ∈ (p.rename formatted).cmps, c.col ≠ name := by
  let names := (pk.filter fun c => '%' ∈ c.toList).toFinset
  have hmem : ∀ c, c ∈ names ↔ c ∈ pk ∧ '%' ∈ c.toList := by simp [names]
  obtain ⟨longest, hlongest, hmax⟩ := names.exists_max_image (fun c => c.toList.length)
    ⟨name, (hmem name).mpr ⟨hname, hpercent⟩⟩
  obtain ⟨hin, hsign⟩ := (hmem longest).mp hlongest
  refine ⟨longest, hin, fun c hc heq => ?_⟩
  obtain ⟨_, hb, hc⟩ := List.mem_flatMap.mp hc
  obtain ⟨b₀, hb₀, rfl⟩ := List.mem_map.mp hb
  rw [Bound.cmps_rename] at hc
  obtain ⟨c, hc₀, rfl⟩ := List.mem_map.mp hc
  have hcmp : c ∈ p.cmps := List.mem_flatMap.mpr ⟨b₀, hb₀, hc₀⟩
  have hformatted : formatted c.col = longest := heq
  by_cases hcol : '%' ∈ c.col.toList
  · have hshort := length_formatted (hquiet c hcmp) hcol
    have hle := hmax c.col ((hmem c.col).mpr ⟨hcols c hcmp, hcol⟩)
    rw [hformatted] at hshort
    exact absurd hle (not_le.mpr hshort)
  · rw [(quiet_of_notMem hcol).2] at hformatted
    exact hcol (hformatted ▸ hsign)

/-- With a percent sign in the key some range is not selected. -/
theorem not_selects_of_percent [Nontrivial V] (hlit : Readable lit) (hpk : pk ≠ []) {name : String}
    (hname : name ∈ pk) (hpercent : '%' ∈ name.toList) :
    ∃ lo : List V, lo.length = pk.length ∧ ¬ Selects conv lit ord pk (some lo) none := by
  obtain ⟨x, y, hne⟩ := exists_pair_ne V
  let low : String → V := fun c => (ord c).min x y
  let high : String → V := fun c => (ord c).max x y
  have hlow : ∀ c, (ord c).lt (low c) (high c) := by
    intro c
    let _ := ord c
    exact min_lt_max.mpr hne
  refine ⟨pk.map low, List.length_map _, ?_⟩
  rintro ⟨sql, args, text, heq, hsent, p', htext, hholds⟩
  obtain ⟨p, heq', -, hcols, -⟩ := rangePredicate_eq ord hpk
    (show ∀ b ∈ some (pk.map low), b.length = pk.length by simp)
    (show ∀ b ∈ (none : Option (List V)), b.length = pk.length by simp)
  rw [heq'] at heq
  cases heq
  obtain ⟨hquiet, hformatted⟩ := mogrify_eq_ok.mp hsent
  obtain rfl : p' = p.rename formatted := text_injective hlit (htext.trans hformatted)
  obtain ⟨unread, hin, hunread⟩ := exists_unread hcols hquiet hname hpercent
  -- Two rows that differ only in a column that the predicate does not read.
  let row : String → V := fun c => if c = unread then high c else low c
  have hsame : ∀ c ≠ unread, low c = row c := fun c hc => (if_neg hc).symm
  have hrow : row unread = high unread := if_pos rfl
  have hcongr : (p.rename formatted).holds ord low = (p.rename formatted).holds ord row :=
    Predicate.holds_congr fun c hc => hsame c.col (hunread c hc)
  have hnot : ¬ Between ord pk (some (pk.map low)) none (pk.map low) := fun h =>
    tupleLt_irrefl _ (h.1 _ rfl)
  have hyes : Between ord pk (some (pk.map low)) none (pk.map row) := by
    refine ⟨fun b hb => ?_, by simp⟩
    cases hb
    exact tupleLt_of_col hin (hrow ▸ hlow unread) hsame
  exact hnot ((hholds low).mp (hcongr.trans ((hholds row).mpr hyes)))

/-- Each bound takes its number of arguments. The predicate of every range selects the rows in
it, if and only if no column of the key has a percent sign in its name. -/
theorem selects_iff [Nontrivial V]
    (conv : List Char → Char → List Char → Except Py.FormatError (List Char))
    (hlit : Readable lit) (ord : String → LinearOrder V) (hpk : pk ≠ []) :
    (∀ (vals : List V) (lower : Bool), vals.length = pk.length →
      ∃ sql args, bound pk vals lower = .ok (sql, args) ∧
        args.length = boundArgCount pk.length) ∧
    ((∀ lo hi : Option (List V), (∀ b ∈ lo, b.length = pk.length) →
        (∀ b ∈ hi, b.length = pk.length) → Selects conv lit ord pk lo hi) ↔
      ∀ c ∈ pk, '%' ∉ c.toList) := by
  constructor
  · intro vals lower h
    obtain ⟨b, heq, hlen, -⟩ := bound_eq ord lower hpk h
    exact ⟨_, _, heq, by rw [List.length_map, hlen]⟩
  · constructor
    · intro h c hc hpercent
      obtain ⟨lo, hlen, hnot⟩ : ∃ lo : List V,
          lo.length = pk.length ∧ ¬ Selects conv lit ord pk (some lo) none :=
        not_selects_of_percent hlit hpk hc hpercent
      exact hnot (h (some lo) none (by simpa using hlen) (by simp))
    · exact fun hno lo hi hlo hhi => selects_of_plain hpk hno hlo hhi

/-- Where the order of the keys is tuple order, the predicate selects the rows of `inRange`. -/
theorem holds_iff_inRange {K : Type} [LinearOrder K] {key : K → List V} (hpk : pk ≠ [])
    (hno : ∀ c ∈ pk, '%' ∉ c.toList) (hlen : ∀ k, (key k).length = pk.length)
    (hlt : ∀ k k', k < k' ↔ tupleLt ord pk (key k) (key k')) (lo hi : Option K) :
    ∃ sql args text, rangePredicate pk (lo.map key) (hi.map key) = .ok (sql, args) ∧
      mogrify conv lit sql args = .ok text ∧
      ∃ p : Predicate V, p.text lit = text ∧ ∀ (row : String → V) (k : K), pk.map row = key k →
        p.holds ord row = inRange (lo, hi) k := by
  have hinj : ∀ k k', key k = key k' ↔ k = k' := by
    intro k k'
    constructor
    · intro heq
      rcases lt_trichotomy k k' with h | h | h
      · exact absurd ((hlt k k).mpr (heq ▸ (hlt k k').mp h)) (lt_irrefl k)
      · exact h
      · exact absurd ((hlt k k).mpr (heq ▸ (hlt k' k).mp h)) (lt_irrefl k)
    · exact congrArg key
  have hlens : ∀ (o : Option K), ∀ b ∈ o.map key, b.length = pk.length := by
    intro o b hb
    obtain ⟨k, -, rfl⟩ := Option.map_eq_some_iff.mp hb
    exact hlen k
  have hselects : Selects conv lit ord pk (lo.map key) (hi.map key) :=
    selects_of_plain hpk hno (hlens lo) (hlens hi)
  obtain ⟨sql, args, text, heq, hsent, p, htext, hholds⟩ := hselects
  refine ⟨sql, args, text, heq, hsent, p, htext, fun row k hk => ?_⟩
  rw [Bool.eq_iff_iff, hholds row, hk]
  simp only [inRange, above, upto, Between, Bool.and_eq_true]
  cases lo <;> cases hi <;> simp [← hlt, hinj, le_iff_lt_or_eq]

end

/-! ### A key with a percent sign -/

/-- A conversion other than `%s` and `%%` fails. -/
def noConversion (_ : List Char) (_ : Char) (_ : List Char) : Except Py.FormatError (List Char) :=
  .error .value

/-- The literals of a column of type BOOL. -/
def bit (b : Bool) : List Char := [if b then '1' else '0']

/-- Their order. -/
abbrev bitOrder (_ : String) : LinearOrder Bool := inferInstance

/-- A key of two columns without a percent sign. -/
theorem pair_selects :
    Selects noConversion bit bitOrder ["a", "b"] (some [true, false]) none :=
  have hbit : Readable bit := by
    rintro (_ | _) (_ | _) s t _ _ heq <;> simp_all [bit]
  ((selects_iff noConversion hbit bitOrder (by decide)).2.mpr (by decide)) _ _ (by simp) (by simp)

/-- Whatever the other conversions do, the backtick behind the name ends the directive `%` and
takes the only argument. -/
theorem percent_is_a_directive :
    ¬ ∃ conv : List Char → Char → List Char → Except Py.FormatError (List Char),
      ∀ (pk : List String) (lo hi : Option (List Bool)), pk ≠ [] →
        (∀ b ∈ lo, b.length = pk.length) → (∀ b ∈ hi, b.length = pk.length) →
          Selects conv bit bitOrder pk lo hi := by
  rintro ⟨conv, h⟩
  obtain ⟨sql, args, text, heq, hsent, -⟩ :=
    h ["50%"] (some [false]) none (by decide) (by simp) (by simp)
  let p : Predicate Bool := [.single ⟨"50%", .gt, false⟩]
  have hsql : rangePredicate ["50%"] (some [false]) none =
      .ok (p.text hole, p.cmps.map (·.val)) := by rfl
  rw [hsql] at heq
  cases heq
  have hquiet : Quiet "50%" := (mogrify_eq_ok.mp hsent).1 _ List.mem_cons_self
  have hloud : ¬ Quiet "50%" := by decide +kernel
  exact hloud hquiet

end DbGuard.Osc
