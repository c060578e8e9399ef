import Mathlib.Algebra.Ring.Nat
import Mathlib.Data.List.Basic

/-!
# `DbGuard.PyFormat`: `text % arguments` in Python

The `%` operator of `str` with a tuple of texts on its right, on lists of characters. A `%` in
the text begins a directive. Flags, a width, a precision and a size may follow, and the next
character is the conversion. `%%` is a percent sign, and every other directive takes the next
argument.

`format` reads the text from left to right. Its first argument is where it is: in plain text,
or in a directive, with the characters that the directive has had so far. `%s` gives the
argument as it is. What the other directives make of a text is left open (`conv`), and so is
which of them fail. A key in brackets needs a mapping and a `*` needs a number, so both fail
here.

`Fills text args out` says that formatting turns `text` into `out` with just these arguments,
whatever comes after. It is closed under appending and joining, so the text of a statement is
formatted piece by piece. `taken` counts the arguments that a text asks for. Formatting
succeeds with no other number of them.
-/

set_option autoImplicit false

namespace Py

/-- Which exception the operator raises. -/
inductive FormatError
  | type
  | value
deriving DecidableEq

/-- How far a directive has been read. -/
inductive Directive
  | start
  | flags
  | width
  | dot
  | precision
  | size
deriving DecidableEq

namespace Directive

/-- What may stand between a width or a precision and the conversion. -/
def readsSize (c : Char) : Option Directive := if c ∈ ['h', 'l', 'L'] then some .size else none

/-- A directive goes on with a character. `none` when the character is the conversion. -/
def reads : Directive → Char → Option Directive
  | .start, c | .flags, c =>
    if c ∈ ['#', '0', '-', ' ', '+'] then some .flags
    else if c.isDigit then some .width
    else if c = '.' then some .dot
    else readsSize c
  | .width, c =>
    if c.isDigit then some .width else if c = '.' then some .dot else readsSize c
  | .dot, c | .precision, c => if c.isDigit then some .precision else readsSize c
  | .size, _ => none

/-- The conversions that need something else than a text: a key in brackets, and a `*` in
place of a number. -/
def refuses (d : Directive) (c : Char) : Bool :=
  (d = .start && c = '(') || ((d = .start || d = .flags || d = .dot) && c = '*')

end Directive

section
variable (conv : List Char → Char → List Char → Except FormatError (List Char))

/-- What a conversion makes of its argument. -/
def convert (spec : List Char) (c : Char) (arg : List Char) : Except FormatError (List Char) :=
  if spec = [] ∧ c = 's' then .ok arg else conv spec c arg

/-- `text % args`, from a point in the text. -/
def format : Option (Directive × List Char) → List Char → List (List Char) →
    Except FormatError (List Char)
  | none, [], [] => .ok []
  | none, [], _ :: _ => .error .type
  | some _, [], _ => .error .value
  | none, c :: text, args =>
    if c = '%' then format (some (.start, [])) text args
    else (format none text args).map (c :: ·)
  | some (d, spec), c :: text, args =>
    match d.reads c, args with
    | some d', args => format (some (d', spec ++ [c])) text args
    | none, args =>
      if d = .start ∧ c = '%' then (format none text args).map ('%' :: ·)
      else if d.refuses c then .error .type
      else
        match args with
        | [] => .error .type
        | arg :: args =>
          (convert conv spec c arg).bind fun out => (format none text args).map (out ++ ·)

end

/-! ### How many arguments a text takes -/

/-- Where the formatting is after a character. -/
def next : Option Directive → Char → Option Directive
  | none, c => if c = '%' then some .start else none
  | some d, c => d.reads c

/-- A character that ends a directive other than `%%` takes an argument. -/
def takes : Option Directive → Char → Nat
  | none, _ => 0
  | some d, c => if d.reads c = none ∧ ¬(d = .start ∧ c = '%') then 1 else 0

/-- The number of arguments that a text takes. -/
def taken : Option Directive → List Char → Nat
  | _, [] => 0
  | st, c :: text => takes st c + taken (next st c) text

/-- What a text is formatted to, if it has no other directive than `%%`. The first argument says
whether a `%` has just been read. -/
def literal : Bool → List Char → Option (List Char)
  | false, [] => some []
  | true, [] => none
  | false, c :: text =>
    if c = '%' then literal true text else (literal false text).map (c :: ·)
  | true, c :: text => if c = '%' then (literal false text).map ('%' :: ·) else none

variable {conv : List Char → Char → List Char → Except FormatError (List Char)}

/-- The conversions of a text, part by part. -/
theorem taken_append (st : Option Directive) (a b : List Char) :
    taken st (a ++ b) = taken st a + taken (a.foldl next st) b := by
  induction a generalizing st with
  | nil => simp [taken]
  | cons c a ih => simp [taken, ih, Nat.add_assoc]

/-- Formatting succeeds only with as many arguments as the text takes. -/
theorem taken_of_format {st : Option (Directive × List Char)} {text out : List Char}
    {args : List (List Char)} (h : format conv st text args = .ok out) :
    taken (st.map (·.1)) text = args.length := by
  induction text generalizing st args out with
  | nil =>
    cases st with
    | some x => cases h
    | none =>
      cases args with
      | nil => rfl
      | cons => cases h
  | cons c text ih =>
    -- What is left of the text is formatted, wherever the character leads.
    have hmap : ∀ {f : List Char → List Char} {r : Except FormatError (List Char)},
        r.map f = .ok out → ∃ out', r = .ok out' := by
      intro f r hr
      cases r with
      | error e => cases hr
      | ok out' => exact ⟨out', rfl⟩
    cases st with
    | none =>
      simp only [format] at h
      simp only [Option.map_none, taken, takes, next, Nat.zero_add]
      split at h
      · rename_i hc
        simpa [hc] using ih h
      · rename_i hc
        obtain ⟨out', hout⟩ := hmap h
        simpa [hc] using ih hout
    | some x =>
      obtain ⟨d, spec⟩ := x
      simp only [format] at h
      simp only [Option.map_some, taken, takes, next]
      split at h
      · rename_i d' hd
        simpa [hd] using ih h
      · rename_i hd
        split at h
        · rename_i hc
          obtain ⟨out', hout⟩ := hmap h
          obtain ⟨rfl, rfl⟩ := hc
          simpa [hd] using ih hout
        · rename_i hc
          split at h
          · cases h
          · split at h
            · cases h
            · rename_i arg args
              cases hconv : convert conv spec c arg with
              | error e =>
                rw [hconv] at h
                cases h
              | ok o =>
                rw [hconv] at h
                obtain ⟨out', hout⟩ := hmap h
                have hrest : taken none text = args.length := ih hout
                simp only [hd, hc, not_false_eq_true, and_self, if_true, hrest,
                  List.length_cons]
                exact Nat.add_comm 1 _

/-! ### Texts that take nothing -/

/-- A character that ends every directive, and is no percent sign. -/
def Closes (q : Char) : Prop := q ≠ '%' ∧ ∀ d : Directive, d.reads q = none

variable {q : Char}

/-- After the start of a directive there is no way back. -/
theorem ne_start_of_reads {d d' : Directive} {c : Char} (h : d.reads c = some d') :
    d' ≠ .start := by
  rintro rfl
  cases d <;> simp [Directive.reads, Directive.readsSize] at h <;> grind

/-- A directive that has gone on past its start takes an argument. -/
theorem one_le_taken (hq : Closes q) {d : Directive} (hd : d ≠ .start) (cs : List Char) :
    1 ≤ taken (some d) (cs ++ [q]) := by
  induction cs generalizing d with
  | nil => simp [taken, takes, hq.2, hd]
  | cons c cs ih =>
    cases hread : d.reads c with
    | none => simp [taken, takes, next, hread, hd]
    | some d' =>
      have hrest := ih (ne_start_of_reads hread)
      simp only [List.cons_append, taken, takes, next, hread]
      omega

/-- A text that takes nothing has no other directive than `%%`. -/
theorem literal_of_taken (hq : Closes q) {cs : List Char} (half : Bool)
    (h : taken (if half then some .start else none) (cs ++ [q]) = 0) :
    ∃ out, literal half cs = some out := by
  induction cs generalizing half with
  | nil =>
    cases half with
    | false => exact ⟨[], rfl⟩
    | true => simp [taken, takes, hq.1, hq.2] at h
  | cons c cs ih =>
    simp only [List.cons_append, taken, Nat.add_eq_zero_iff] at h
    obtain ⟨hnow, hrest⟩ := h
    cases half with
    | false =>
      by_cases hc : c = '%'
      · obtain ⟨out, hout⟩ := ih true (by simpa [next, hc] using hrest)
        exact ⟨out, by simp [literal, hc, hout]⟩
      · obtain ⟨out, hout⟩ := ih false (by simpa [next, hc] using hrest)
        exact ⟨c :: out, by simp [literal, hc, hout]⟩
    | true =>
      by_cases hc : c = '%'
      · have hreads : Directive.start.reads '%' = none := by decide
        obtain ⟨out, hout⟩ := ih false (by simpa [next, hc, hreads] using hrest)
        exact ⟨'%' :: out, by simp [literal, hc, hout]⟩
      · cases hread : Directive.start.reads c with
        | none => simp [takes, hread, hc] at hnow
        | some d =>
          have hlater := one_le_taken hq (ne_start_of_reads hread) cs
          simp only [if_true, next, hread] at hrest
          omega

/-- A text without a percent sign is left as it is. -/
theorem literal_of_notMem {cs : List Char} (h : '%' ∉ cs) : literal false cs = some cs := by
  induction cs with
  | nil => rfl
  | cons c cs ih =>
    obtain ⟨hc, hrest⟩ := not_or.mp (mt List.mem_cons.mpr h)
    simp [literal, Ne.symm hc, ih hrest]

/-- A text with a percent sign gets shorter. -/
theorem length_literal {cs out : List Char} {half : Bool} (h : literal half cs = some out) :
    out.length ≤ cs.length ∧ (half = false → '%' ∈ cs → out.length < cs.length) := by
  induction cs generalizing half out with
  | nil =>
    cases half with
    | true => cases h
    | false => cases h; simp
  | cons c cs ih =>
    cases half with
    | false =>
      simp only [literal] at h
      split at h
      · -- The percent sign itself is dropped.
        have hrest := (ih h).1
        simp only [List.length_cons]
        omega
      · rename_i hc
        obtain ⟨out', hout, rfl⟩ := Option.map_eq_some_iff.mp h
        obtain ⟨hle, hlt⟩ := ih hout
        simp only [List.length_cons, List.mem_cons, Ne.symm hc, false_or]
        exact ⟨by omega, fun _ hmem => by have := hlt rfl hmem; omega⟩
    | true =>
      simp only [literal] at h
      split at h
      · obtain ⟨out', hout, rfl⟩ := Option.map_eq_some_iff.mp h
        have hle := (ih hout).1
        simp only [List.length_cons]
        exact ⟨by omega, by simp⟩
      · cases h

/-! ### Piece by piece -/

/-- Formatting turns the text into `out` with these arguments, and goes on in plain text. -/
def Fills (conv : List Char → Char → List Char → Except FormatError (List Char))
    (text : List Char) (args : List (List Char)) (out : List Char) : Prop :=
  ∀ rest args', format conv none (text ++ rest) (args ++ args') =
    (format conv none rest args').map (out ++ ·)

/-- The text takes this many arguments, and goes on in plain text. -/
def Takes (text : List Char) (n : Nat) : Prop :=
  taken none text = n ∧ text.foldl next none = none

/-- Two prefixes are one. -/
theorem map_append_map {out out' : List Char} {r : Except FormatError (List Char)} :
    (r.map (out' ++ ·)).map (out ++ ·) = r.map (out ++ out' ++ ·) := by
  cases r <;> simp [Except.map]

namespace Fills

variable {text text' out out' : List Char} {args args' : List (List Char)}

/-- A text that is filled is what formatting gives. -/
theorem format_eq (h : Fills conv text args out) : format conv none text args = .ok out := by
  have heq := h [] []
  rw [List.append_nil, List.append_nil] at heq
  rw [heq]
  simp [format, Except.map]

/-- Parts are filled one after the other. -/
theorem append (h : Fills conv text args out) (h' : Fills conv text' args' out') :
    Fills conv (text ++ text') (args ++ args') (out ++ out') := by
  intro rest more
  rw [List.append_assoc, List.append_assoc, h, h', map_append_map]

/-- The empty text takes no argument. -/
theorem nil : Fills conv [] [] [] := by
  intro rest more
  cases hr : format conv none rest more <;> simp [hr, Except.map]

/-- A plain character stands for itself. -/
theorem char {c : Char} (hc : c ≠ '%') : Fills conv [c] [] [c] := by
  intro rest more
  simp [format, hc]

/-- A text without a percent sign stands for itself. -/
theorem plain (h : '%' ∉ text) : Fills conv text [] text := by
  induction text with
  | nil => exact nil
  | cons c text ih =>
    obtain ⟨hc, hrest⟩ := not_or.mp (mt List.mem_cons.mpr h)
    exact (char (Ne.symm hc)).append (ih hrest)

/-- `%s` takes one argument. -/
theorem hole (arg : List Char) : Fills conv ['%', 's'] [arg] arg := by
  intro rest more
  have hs : Directive.start.reads 's' = none := by decide
  have hr : Directive.start.refuses 's' = false := by decide
  simp [format, hs, hr, convert, Except.bind]

/-- A text with no other directive than `%%`. -/
theorem literal {cs : List Char} (h : Py.literal false cs = some out) : Fills conv cs [] out := by
  -- Stated for both halves of a doubled percent sign, for the induction on the text.
  have hgen : ∀ {half out}, Py.literal half cs = some out → ∀ rest more,
      format conv (if half then some (.start, []) else none) (cs ++ rest) more =
        (format conv none rest more).map (out ++ ·) := by
    clear h
    have hreads : Directive.start.reads '%' = none := by decide
    induction cs with
    | nil =>
      intro half out h rest more
      -- A text cannot end after half a directive.
      cases half with
      | true => cases h
      | false =>
        cases h
        exact nil rest more
    | cons c cs ih =>
      intro half out h rest more
      cases half with
      | false =>
        -- A percent sign opens the directive, any other character is copied.
        simp only [Py.literal] at h
        simp only [Bool.false_eq_true, if_false, List.cons_append, format]
        split at h
        · rename_i hc
          rw [if_pos hc]
          exact ih h rest more
        · rename_i hc
          obtain ⟨out', hout, rfl⟩ := Option.map_eq_some_iff.mp h
          have hrest := ih hout rest more
          simp only [Bool.false_eq_true, if_false] at hrest
          rw [if_neg hc, hrest]
          exact @map_append_map [c] out' _
      | true =>
        simp only [Py.literal] at h
        -- The second percent sign of the pair is the one that is printed.
        split at h
        · rename_i hc
          subst hc
          obtain ⟨out', hout, rfl⟩ := Option.map_eq_some_iff.mp h
          have hrest := ih hout rest more
          simp only [Bool.false_eq_true, if_false] at hrest
          simp only [if_true, List.cons_append, format, hreads, and_self, hrest]
          exact @map_append_map ['%'] out' _
        · cases h
  exact hgen h

/-- Joining with a separator that has no directive. -/
theorem join {α : Type} {sep : List Char} (hsep : '%' ∉ sep) {text out : α → List Char}
    {args : α → List (List Char)} (xs : List α)
    (h : ∀ x ∈ xs, Fills conv (text x) (args x) (out x)) :
    Fills conv (sep.intercalate (xs.map text)) (xs.flatMap args)
      (sep.intercalate (xs.map out)) := by
  induction xs with
  | nil => exact nil
  | cons x xs ih =>
    have hx := h x List.mem_cons_self
    have hxs := ih fun y hy => h y (List.mem_cons_of_mem x hy)
    cases xs with
    | nil => simpa using hx
    | cons y ys =>
      simp only [List.map_cons, List.intercalate_cons_cons, List.flatMap_cons] at hxs ⊢
      simpa using (hx.append (plain hsep)).append hxs

end Fills

namespace Takes

variable {text text' : List Char} {m n : Nat}

/-- Conversions add up. -/
theorem append (h : Takes text m) (h' : Takes text' n) : Takes (text ++ text') (m + n) := by
  obtain ⟨hm, hend⟩ := h
  obtain ⟨hn, hend'⟩ := h'
  refine ⟨?_, ?_⟩
  · rw [taken_append, hm, hend, hn]
  · rw [List.foldl_append, hend, hend']

/-- The empty text has none. -/
theorem nil : Takes [] 0 := ⟨rfl, rfl⟩

/-- A text without a percent sign has none. -/
theorem plain (h : '%' ∉ text) : Takes text 0 := by
  induction text with
  | nil => exact nil
  | cons c text ih =>
    obtain ⟨hc, hrest⟩ := not_or.mp (mt List.mem_cons.mpr h)
    have hhead : Takes [c] 0 := by simp [Takes, taken, takes, next, Ne.symm hc]
    exact hhead.append (ih hrest)

/-- `%s` is one. -/
theorem hole : Takes ['%', 's'] 1 := ⟨by decide, by decide⟩

/-- Texts that are joined by a separator without a percent sign. -/
theorem join {α : Type} {sep : List Char} (hsep : '%' ∉ sep) {text : α → List Char}
    {count : α → Nat} (xs : List α) (h : ∀ x ∈ xs, Takes (text x) (count x)) :
    Takes (sep.intercalate (xs.map text)) (xs.map count).sum := by
  induction xs with
  | nil => exact nil
  | cons x xs ih =>
    have hx := h x List.mem_cons_self
    have hxs := ih fun y hy => h y (List.mem_cons_of_mem x hy)
    cases xs with
    | nil => simpa using hx
    | cons y ys =>
      simp only [List.map_cons, List.intercalate_cons_cons, List.sum_cons] at hxs ⊢
      simpa using (hx.append (plain hsep)).append hxs

end Takes

end Py
