import DbGuard.Osc.Chunks

/-!
# `DbGuard.Proofs.Osc.Predicate`: the predicate of a range is tuple order

`tupleLt` compares two keys column by column, and the first column that differs decides. The
predicate that `rangePredicate` writes has one term for each column that may be the first to
differ. `any_terms_lower` and `any_terms_upper` are the inductions: the terms of a key with one
more column are a term for that column, and the old terms behind an equality on it. The
leading comparison follows from each of them.

The text of the source has placeholders, and the values stand in a list of their own.
`rangePredicate_eq` says that the two are one predicate: the text is its text with `%s` for
every value, and the values are in the order of its comparisons. This predicate holds of the
rows in the range.
-/

set_option autoImplicit false

namespace DbGuard.Osc

variable {V : Type}

/-- Tuple order, where each column has the order of its type. -/
def tupleLt (ord : String → LinearOrder V) : List String → List V → List V → Prop
  | c :: cs, x :: xs, y :: ys => (ord c).lt x y ∨ x = y ∧ tupleLt ord cs xs ys
  | _, _, _ => False

/-- `lo < key <= hi`, where an absent bound is no constraint. -/
def Between (ord : String → LinearOrder V) (pk : List String) (lo hi : Option (List V))
    (key : List V) : Prop :=
  (∀ b ∈ lo, tupleLt ord pk b key) ∧ ∀ b ∈ hi, tupleLt ord pk key b ∨ key = b

/-! ### The comparisons of a predicate -/

/-- `%s` for every value. -/
def hole (_ : V) : List Char := ['%', 's']

/-- The comparisons of a bound in the order in which they are written. -/
def Bound.cmps : Bound V → List (Cmp V)
  | .single c => [c]
  | .expanded lead terms => lead :: terms.flatten

/-- The comparisons of a predicate. -/
def Predicate.cmps (p : Predicate V) : List (Cmp V) := p.flatMap Bound.cmps

/-- The terms that `_bound` writes, with their values. -/
def terms (lower : Bool) : List String → List V → List (List (Cmp V))
  | c :: cs, v :: vs =>
    [⟨c, if lower then .gt else if cs = [] then .le else .lt, v⟩] ::
      (terms lower cs vs).map (⟨c, .eq, v⟩ :: ·)
  | _, _ => []

section
variable {lower : Bool} {c : String} {cs pk : List String} {v : V} {vs vals : List V}

/-- The terms of a longer key begin with its first column. -/
theorem boundTerms_cons :
    boundTerms (c :: cs) lower =
      [placeholder c (if lower then .gt else if cs = [] then .le else .lt)] ::
        (boundTerms cs lower).map (placeholder c .eq :: ·) := by
  have hzip : cs.zipIdx 1 = cs.zipIdx.map fun ci => (ci.1, ci.2 + 1) := List.zipIdx_succ
  unfold boundTerms
  rw [List.zipIdx_cons, List.map_cons, Nat.zero_add, hzip, List.map_map, List.map_map]
  congr 1
  · simp
  · apply List.map_congr_left
    intro ci _
    simp

/-- The source writes the terms, with placeholders. -/
theorem boundTerms_eq (lower : Bool) (h : vals.length = pk.length) :
    boundTerms pk lower = (terms lower pk vals).map fun term => term.map (Cmp.text hole) := by
  induction pk generalizing vals with
  | nil => simp [boundTerms, terms]
  | cons c cs ih =>
    cases vals with
    | nil => cases h
    | cons v vs =>
      rw [boundTerms_cons, ih (Nat.succ.inj h), terms, List.map_cons, List.map_map, List.map_map]
      rfl

/-- It collects their values in the same order. -/
theorem args_eq (lower : Bool) (h : vals.length = pk.length) :
    ((List.range pk.length).map fun i => vals.take (i + 1)) =
      (terms lower pk vals).map fun term => term.map (·.val) := by
  induction pk generalizing vals with
  | nil => simp [terms]
  | cons c cs ih =>
    cases vals with
    | nil => cases h
    | cons v vs =>
      rw [terms, List.map_cons, List.map_map]
      have hrest := congrArg (List.map (v :: ·)) (ih (Nat.succ.inj h))
      rw [List.map_map, List.map_map] at hrest
      rw [List.length_cons, List.range_succ_eq_map, List.map_cons, List.map_map]
      exact congrArg _ hrest

/-- The terms have the sum of 1 up to the number of columns as comparisons. -/
theorem two_mul_length_terms (lower : Bool) (h : vals.length = pk.length) :
    2 * (terms lower pk vals).flatten.length = pk.length * (pk.length + 1) ∧
      (terms lower pk vals).length = pk.length := by
  induction pk generalizing vals with
  | nil => simp [terms]
  | cons c cs ih =>
    cases vals with
    | nil => cases h
    | cons v vs =>
      obtain ⟨htwo, hlen⟩ := ih (Nat.succ.inj h)
      -- The equality before each term is one more comparison.
      have hpush : ∀ (e : Cmp V) (ts : List (List (Cmp V))),
          (ts.map (e :: ·)).flatten.length = ts.length + ts.flatten.length := by
        intro e ts
        induction ts with
        | nil => rfl
        | cons t ts ih =>
          simp only [List.map_cons, List.flatten_cons, List.length_append, List.length_cons, ih]
          omega
      refine ⟨?_, by simp [terms, hlen]⟩
      rw [terms, List.flatten_cons, List.length_append, List.length_singleton, hpush, hlen,
        List.length_cons]
      simp only [Nat.add_mul, Nat.mul_add] at htwo ⊢
      omega

/-- The columns of the terms are those of the key. -/
theorem col_of_mem_terms {term : List (Cmp V)} {x : Cmp V} (ht : term ∈ terms lower pk vals)
    (hx : x ∈ term) : x.col ∈ pk := by
  induction pk generalizing vals term with
  | nil => simp [terms] at ht
  | cons c cs ih =>
    cases vals with
    | nil => simp [terms] at ht
    | cons v vs =>
      rcases List.mem_cons.mp ht with rfl | ht
      · simp [List.mem_singleton.mp hx]
      · obtain ⟨term', hterm, rfl⟩ := List.mem_map.mp ht
        rcases List.mem_cons.mp hx with rfl | hx
        · exact List.mem_cons_self
        · exact List.mem_cons_of_mem c (ih hterm hx)

end

/-! ### Tuple order -/

section
variable {ord : String → LinearOrder V} {row : String → V} {c : String} {cs pk : List String}
  {v : V} {vs vals : List V}

/-- What `=` tests. -/
@[simp] theorem test_eq : (⟨c, .eq, v⟩ : Cmp V).test ord row = true ↔ row c = v := by
  simp [Cmp.test]

/-- What `>` tests. -/
@[simp] theorem test_gt :
    (⟨c, .gt, v⟩ : Cmp V).test ord row = true ↔ (ord c).lt v (row c) := by
  simp only [Cmp.test, decide_eq_true_eq]

/-- What `<` tests. -/
@[simp] theorem test_lt :
    (⟨c, .lt, v⟩ : Cmp V).test ord row = true ↔ (ord c).lt (row c) v := by
  simp only [Cmp.test, decide_eq_true_eq]

/-- What `>=` tests. -/
theorem test_ge :
    (⟨c, .ge, v⟩ : Cmp V).test ord row = true ↔ (ord c).lt v (row c) ∨ v = row c := by
  let _ := ord c
  simp only [Cmp.test, decide_eq_true_eq]
  exact le_iff_lt_or_eq

/-- What `<=` tests. -/
theorem test_le :
    (⟨c, .le, v⟩ : Cmp V).test ord row = true ↔ (ord c).lt (row c) v ∨ row c = v := by
  let _ := ord c
  simp only [Cmp.test, decide_eq_true_eq]
  exact le_iff_lt_or_eq

/-- One of the terms holds of a row. -/
def anyTerm (ord : String → LinearOrder V) (row : String → V) (ts : List (List (Cmp V))) : Bool :=
  ts.any fun term => term.all (Cmp.test ord row)

/-- An equality before every term. -/
theorem anyTerm_cons (e : Cmp V) (ts : List (List (Cmp V))) :
    anyTerm ord row (ts.map (e :: ·)) = (e.test ord row && anyTerm ord row ts) := by
  induction ts with
  | nil => simp [anyTerm]
  | cons t ts ih =>
    simp only [anyTerm, List.map_cons, List.any_cons, List.all_cons] at ih ⊢
    rw [ih, Bool.and_or_distrib_left]

/-- The terms of a lower bound, column by column. -/
theorem anyTerm_lower (h : vals.length = pk.length) :
    anyTerm ord row (terms true pk vals) = true ↔ tupleLt ord pk vals (pk.map row) := by
  induction pk generalizing vals with
  | nil => simp [terms, anyTerm, tupleLt]
  | cons c cs ih =>
    cases vals with
    | nil => cases h
    | cons v vs =>
      have hrest := ih (Nat.succ.inj h)
      rw [terms]
      show ((_ && true) || anyTerm ord row _) = true ↔ _
      rw [anyTerm_cons, Bool.and_true, Bool.or_eq_true, Bool.and_eq_true, hrest]
      simp only [if_true, test_gt, test_eq, List.map_cons, tupleLt]
      rw [eq_comm]

/-- The terms of an upper bound. The last column may also be equal. -/
theorem anyTerm_upper (hpk : pk ≠ []) (h : vals.length = pk.length) :
    anyTerm ord row (terms false pk vals) = true ↔
      tupleLt ord pk (pk.map row) vals ∨ pk.map row = vals := by
  induction pk generalizing vals with
  | nil => exact absurd rfl hpk
  | cons c cs ih =>
    cases vals with
    | nil => cases h
    | cons v vs =>
      rw [terms]
      show ((_ && true) || anyTerm ord row _) = true ↔ _
      rw [anyTerm_cons, Bool.and_true, Bool.or_eq_true, Bool.and_eq_true]
      cases cs with
      | nil =>
        obtain rfl : vs = [] := List.eq_nil_of_length_eq_zero (Nat.succ.inj h)
        simp [anyTerm, terms, tupleLt, test_le]
      | cons c' cs =>
        rw [ih (List.cons_ne_nil _ _) (Nat.succ.inj h)]
        simp only [reduceCtorEq, if_false, Bool.false_eq_true, test_lt, test_eq, List.map_cons, tupleLt,
          List.cons.injEq]
        grind

/-! ### One bound -/

/-- What one bound says of a key. -/
def Meets (ord : String → LinearOrder V) (pk : List String) (vals : List V) (lower : Bool)
    (key : List V) : Prop :=
  if lower then tupleLt ord pk vals key else tupleLt ord pk key vals ∨ key = vals

/-- Some term holds exactly if the key is on that side of the bound. -/
theorem anyTerm_terms {lower : Bool} (hpk : pk ≠ []) (h : vals.length = pk.length) :
    anyTerm ord row (terms lower pk vals) = true ↔ Meets ord pk vals lower (pk.map row) := by
  cases lower with
  | true => simpa only [Meets, if_true] using anyTerm_lower h
  | false => simpa only [Meets, Bool.false_eq_true, if_false] using anyTerm_upper hpk h

/-- The leading comparison is redundant. -/
theorem lead_of_meets {lower : Bool}
    (h : Meets ord (c :: cs) (v :: vs) lower (row c :: cs.map row)) :
    (⟨c, if lower then .ge else .le, v⟩ : Cmp V).test ord row = true := by
  cases lower with
  | true =>
    simp only [Meets, if_true, tupleLt] at h
    simp only [if_true, test_ge]
    exact h.imp_right fun heq => heq.1
  | false =>
    simp only [Meets, Bool.false_eq_true, if_false, tupleLt, List.cons.injEq] at h
    simp only [Bool.false_eq_true, if_false, test_le]
    rcases h with (hlt | heq) | heq
    · exact .inl hlt
    · exact .inr heq.1
    · exact .inr heq.1

/-- `_bound`: its text and its arguments are one bound, over the columns of the key, and what
the bound says of a row. -/
theorem bound_eq (ord : String → LinearOrder V) (lower : Bool) (hpk : pk ≠ [])
    (h : vals.length = pk.length) :
    ∃ b : Bound V, bound pk vals lower = .ok (b.text hole, b.cmps.map (·.val)) ∧
      b.cmps.length = boundArgCount pk.length ∧ (∀ x ∈ b.cmps, x.col ∈ pk) ∧
      ∀ row : String → V, b.holds ord row = true ↔ Meets ord pk vals lower (pk.map row) := by
  cases pk with
  | nil => exact absurd rfl hpk
  | cons c cs =>
    cases vals with
    | nil => cases h
    | cons v vs =>
      cases cs with
      | nil =>
        obtain rfl : vs = [] := List.eq_nil_of_length_eq_zero (Nat.succ.inj h)
        -- One key column: a single comparison decides.
        refine ⟨.single ⟨c, if lower then .gt else .le, v⟩, rfl, rfl, by simp [Bound.cmps],
          fun row => ?_⟩
        cases lower with
        | true => simp [Meets, tupleLt, Bound.holds]
        | false => simp [Meets, tupleLt, Bound.holds, test_le]
      | cons c' cs =>
        obtain ⟨htwo, -⟩ := two_mul_length_terms lower h
        -- More columns: a comparison of the leading one, and then one term per column.
        refine ⟨.expanded ⟨c, if lower then .ge else .le, v⟩
          (terms lower (c :: c' :: cs) (v :: vs)), ?_, ?_, ?_, fun row => ?_⟩
        · unfold bound
          rw [if_neg (not_not.mpr h)]
          simp only [List.flatMap_def, args_eq lower h, boundTerms_eq lower h, List.map_map]
          rw [← List.map_flatten]
          rfl
        -- The number of arguments is that of the two comparisons of every column but the last.
        · have hne : (c :: c' :: cs).length ≠ 1 := by simp
          rw [boundArgCount, if_neg hne, Bound.cmps, List.length_cons]
          omega
        -- Every comparison names a key column.
        · intro x hx
          rcases List.mem_cons.mp hx with rfl | hx
          · exact List.mem_cons_self
          · obtain ⟨term, hterm, hx⟩ := List.mem_flatten.mp hx
            exact col_of_mem_terms hterm hx
        -- The leading comparison follows from the terms, so it changes nothing.
        · rw [Bound.holds, Bool.and_eq_true]
          have hany : anyTerm ord row (terms lower (c :: c' :: cs) (v :: vs)) = true ↔
              Meets ord (c :: c' :: cs) (v :: vs) lower ((c :: c' :: cs).map row) :=
            anyTerm_terms (List.cons_ne_nil c (c' :: cs)) h
          exact (and_congr_right fun _ => hany).trans (and_iff_right_of_imp lead_of_meets)

end

/-! ### The range -/

section
variable {ord : String → LinearOrder V} {pk : List String} {lo hi : Option (List V)}

/-- What the loop of `range_predicate` adds for a bound that may be absent. -/
theorem addBound_eq (ord : String → LinearOrder V) {vals : Option (List V)} (lower : Bool)
    (hpk : pk ≠ []) (h : ∀ b ∈ vals, b.length = pk.length) :
    ∃ p : Predicate V,
      (∀ acc, addBound pk acc vals lower =
        .ok (acc.1 ++ p.map (Bound.text hole), acc.2 ++ p.cmps.map (·.val))) ∧
      p.cmps.length = vals.toList.length * boundArgCount pk.length ∧
      (∀ x ∈ p.cmps, x.col ∈ pk) ∧
      ∀ row : String → V,
        p.holds ord row = true ↔ ∀ b ∈ vals, Meets ord pk b lower (pk.map row) := by
  cases vals with
  | none => exact ⟨[], by simp [addBound, Predicate.cmps], by simp [Predicate.cmps],
      by simp [Predicate.cmps], by simp [Predicate.holds]⟩
  | some vals =>
    obtain ⟨b, heq, hlen, hcols, hholds⟩ := bound_eq ord lower hpk (h vals rfl)
    refine ⟨[b], ?_, by simpa [Predicate.cmps] using hlen, by simpa [Predicate.cmps] using hcols,
      fun row => by simpa [Predicate.holds] using hholds row⟩
    simp [addBound, heq, Except.map, Predicate.cmps]

/-- The text of a bound is not empty, so `or "1=1"` stands for no bound at all. -/
theorem conjunction_ne_nil {lit : V → List Char} {p : Predicate V} (hp : p ≠ []) :
    conjunction (p.map (Bound.text lit)) ≠ [] := by
  obtain ⟨b, bs, rfl⟩ := List.exists_cons_of_ne_nil hp
  have hb : b.text lit ≠ [] := by
    cases b <;> simp [Bound.text, Cmp.text, compared, q, bracketed]
  cases bs with
  | nil => simpa [conjunction] using hb
  | cons b' bs => simp [conjunction, List.intercalate_cons_cons]

/-- `range_predicate`: its text and its arguments are one predicate, over the columns of the
key, which holds of the rows in the range. -/
theorem rangePredicate_eq (ord : String → LinearOrder V) (hpk : pk ≠ [])
    (hlo : ∀ b ∈ lo, b.length = pk.length) (hhi : ∀ b ∈ hi, b.length = pk.length) :
    ∃ p : Predicate V, rangePredicate pk lo hi = .ok (p.text hole, p.cmps.map (·.val)) ∧
      p.cmps.length = (lo.toList.length + hi.toList.length) * boundArgCount pk.length ∧
      (∀ x ∈ p.cmps, x.col ∈ pk) ∧
      ∀ row : String → V, p.holds ord row = true ↔ Between ord pk lo hi (pk.map row) := by
  obtain ⟨p, heq, hlen, hcols, hholds⟩ := addBound_eq ord true hpk hlo
  obtain ⟨p', heq', hlen', hcols', hholds'⟩ := addBound_eq ord false hpk hhi
  have hcmps : Predicate.cmps (p ++ p') = p.cmps ++ p'.cmps := List.flatMap_append
  refine ⟨p ++ p', ?_, ?_, ?_, fun row => ?_⟩
  · simp only [rangePredicate, heq, heq', bind, Except.bind, pure, Except.pure, List.nil_append,
      ← List.map_append, ← hcmps, Predicate.text]
    by_cases hp : p ++ p' = []
    · simp [hp, conjunction]
    · rw [if_neg hp, if_neg (conjunction_ne_nil hp)]
  · rw [hcmps, List.length_append, hlen, hlen', Nat.add_mul]
  · intro x hx
    rw [hcmps] at hx
    rcases List.mem_append.mp hx with hx | hx
    · exact hcols x hx
    · exact hcols' x hx
  · have happend : Predicate.holds ord row (p ++ p') = (p.holds ord row && p'.holds ord row) :=
      List.all_append
    rw [happend, Bool.and_eq_true, hholds, hholds']
    simp [Meets, Between]

end

end DbGuard.Osc
