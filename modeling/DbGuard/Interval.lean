import Mathlib.Data.Int.ConditionallyCompleteOrder
import Mathlib.Data.Int.Interval
import Mathlib.Data.List.Sort
import Mathlib.Data.Set.Card
import Mathlib.Order.Interval.Set.Basic

/-!
# `DbGuard.Interval`: sets of integers as lists of closed intervals

A list of pairs `(s, e)` stands for the integers `n` with `s ≤ n ≤ e` for one of its pairs
(`Interval.Mem`). It is `Normal` when its intervals are non-empty, sorted, disjoint and
never adjacent, which makes it the only normal list of its set.

`normalize` sorts and merges. `subtract` walks two normal lists with one pointer into the
second that never moves back, and `intersect` moves on in the list whose interval ends first.
Each operation comes with its meaning as a set and with the fact that it yields non-empty
intervals. `Normal.ext` says that a set has only one normal list, and `count_eq_ncard` that
counting over it is exact.
-/

set_option autoImplicit false

namespace Interval

/-- `n` lies in one of the intervals. -/
def Mem (n : Int) (l : List (Int × Int)) : Prop := ∃ iv ∈ l, iv.1 ≤ n ∧ n ≤ iv.2

/-- Every interval has an element. -/
def Valid (l : List (Int × Int)) : Prop := ∀ iv ∈ l, iv.1 ≤ iv.2

/-- Non-empty intervals, sorted, disjoint and not adjacent. -/
def Normal (l : List (Int × Int)) : Prop :=
  l.Pairwise (fun a b => a.2 + 1 < b.1) ∧ Valid l

instance (n : Int) (l : List (Int × Int)) : Decidable (Mem n l) :=
  inferInstanceAs (Decidable (∃ iv ∈ l, _ ∧ _))

instance (l : List (Int × Int)) : Decidable (Valid l) :=
  inferInstanceAs (Decidable (∀ iv ∈ l, iv.1 ≤ iv.2))

/-- No number is in no interval. -/
@[simp] theorem not_mem_nil (n : Int) : ¬ Mem n [] := by simp [Mem]

/-- A number is in the first interval or in the others. -/
@[simp] theorem mem_cons (n : Int) (iv : Int × Int) (l : List (Int × Int)) :
    Mem n (iv :: l) ↔ (iv.1 ≤ n ∧ n ≤ iv.2) ∨ Mem n l := by
  simp [Mem]

/-- A number is in one list or in the other. -/
@[simp] theorem mem_append (n : Int) (l l' : List (Int × Int)) :
    Mem n (l ++ l') ↔ Mem n l ∨ Mem n l' := by
  simp only [Mem, List.mem_append, or_and_right, exists_or]

/-- The empty list is valid. -/
@[simp] theorem valid_nil : Valid [] := by simp [Valid]

/-- A list is valid if its first interval and the others are. -/
@[simp] theorem valid_cons (iv : Int × Int) (l : List (Int × Int)) :
    Valid (iv :: l) ↔ iv.1 ≤ iv.2 ∧ Valid l := by
  simp [Valid]

/-- Two valid lists make a valid one. -/
theorem Valid.append {l l' : List (Int × Int)} (h : Valid l) (h' : Valid l') :
    Valid (l ++ l') := by
  intro iv hiv
  rcases List.mem_append.mp hiv with hl | hl
  · exact h iv hl
  · exact h' iv hl

/-- The empty list is in normal form. -/
@[simp] theorem normal_nil : Normal [] := by simp [Normal]

/-- The first interval ends with a gap before the others. -/
theorem normal_cons (iv : Int × Int) (l : List (Int × Int)) :
    Normal (iv :: l) ↔ iv.1 ≤ iv.2 ∧ (∀ b ∈ l, iv.2 + 1 < b.1) ∧ Normal l := by
  simp only [Normal, List.pairwise_cons, valid_cons]
  tauto

/-- A non-empty normal list has an element. -/
theorem Normal.exists_mem {l : List (Int × Int)} (h : Normal l) (hne : l ≠ []) :
    ∃ n, Mem n l := by
  obtain ⟨iv, hiv⟩ := List.exists_mem_of_ne_nil l hne
  exact ⟨iv.1, iv, hiv, le_refl _, h.2 iv hiv⟩

/-! ### Merging -/

/-- Merge a list sorted by lower bounds, starting from the open interval `cur`. -/
def mergeFrom : Int × Int → List (Int × Int) → List (Int × Int)
  | cur, [] => [cur]
  | cur, (s, e) :: rest =>
    if s ≤ cur.2 + 1 then mergeFrom (cur.1, max cur.2 e) rest
    else cur :: mergeFrom (s, e) rest

/-- Sort and merge overlapping or adjacent intervals. -/
def normalize (l : List (Int × Int)) : List (Int × Int) :=
  match l.insertionSort (fun a b => a.1 < b.1 ∨ (a.1 = b.1 ∧ a.2 ≤ b.2)) with
  | [] => []
  | iv :: rest => mergeFrom iv rest

/-- Merging keeps the numbers. `cur` is the interval that still grows. -/
theorem mem_mergeFrom (n : Int) :
    ∀ (l : List (Int × Int)) (cur : Int × Int), cur.1 ≤ cur.2 →
      (∀ b ∈ l, cur.1 ≤ b.1) → l.Pairwise (fun a b => a.1 ≤ b.1) → Valid l →
        (Mem n (mergeFrom cur l) ↔ (cur.1 ≤ n ∧ n ≤ cur.2) ∨ Mem n l) := by
  intro l
  induction l with
  | nil => intro cur _ _ _ _; simp [mergeFrom]
  | cons iv rest ih =>
      intro cur hcur hle hsort hvalid
      obtain ⟨s, e⟩ := iv
      rw [List.pairwise_cons] at hsort
      rw [valid_cons] at hvalid
      have hs : cur.1 ≤ s := hle (s, e) (by simp)
      have hse : s ≤ e := hvalid.1
      rw [mergeFrom]
      split
      · rename_i hadj
        rw [ih (cur.1, max cur.2 e) (by simp only; omega)
          (fun b hb => hle b (List.mem_cons_of_mem _ hb)) hsort.2 hvalid.2, mem_cons]
        simp only
        -- The merged interval is the union because the two touch or overlap.
        constructor
        · rintro (h | h)
          · by_cases hn : n ≤ cur.2
            · exact Or.inl ⟨h.1, hn⟩
            · exact Or.inr (Or.inl (by omega))
          · exact Or.inr (Or.inr h)
        · rintro (h | h | h)
          · exact Or.inl (by omega)
          · exact Or.inl (by omega)
          · exact Or.inr h
      · rw [mem_cons, ih (s, e) hse (fun b hb => hsort.1 b hb) hsort.2 hvalid.2, mem_cons]

/-- Merging leaves gaps, and nothing begins before `cur`. -/
theorem normal_mergeFrom :
    ∀ (l : List (Int × Int)) (cur : Int × Int), cur.1 ≤ cur.2 →
      (∀ b ∈ l, cur.1 ≤ b.1) → l.Pairwise (fun a b => a.1 ≤ b.1) → Valid l →
        Normal (mergeFrom cur l) ∧ ∀ b ∈ mergeFrom cur l, cur.1 ≤ b.1 := by
  -- By induction on the list, with the interval that is still open in front.
  intro l
  induction l with
  | nil =>
      intro cur hcur _ _ _
      simp [mergeFrom, Normal, hcur]
  | cons iv rest ih =>
      intro cur hcur hle hsort hvalid
      obtain ⟨s, e⟩ := iv
      rw [List.pairwise_cons] at hsort
      rw [valid_cons] at hvalid
      have hs : cur.1 ≤ s := hle (s, e) (by simp)
      have hse : s ≤ e := hvalid.1
      rw [mergeFrom]
      split
      -- The next one overlaps or touches, and the open interval grows.
      · exact ih (cur.1, max cur.2 e) (by simp only; omega)
          (fun b hb => hle b (List.mem_cons_of_mem _ hb)) hsort.2 hvalid.2
      -- There is a gap: the open interval is done, and the next one is opened.
      · rename_i hgap
        obtain ⟨hnorm, hlow⟩ := ih (s, e) hse (fun b hb => hsort.1 b hb) hsort.2 hvalid.2
        refine ⟨(normal_cons _ _).mpr ⟨hcur, fun b hb => ?_, hnorm⟩, ?_⟩
        · have := hlow b hb
          simp only at this
          omega
        · intro b hb
          rcases List.mem_cons.mp hb with rfl | hb
          · exact le_refl _
          · exact le_trans hs (hlow b hb)

/-- The order `normalize` sorts by. -/
private abbrev lexLe (a b : Int × Int) : Prop := a.1 < b.1 ∨ (a.1 = b.1 ∧ a.2 ≤ b.2)

private instance : Std.Total lexLe := ⟨fun a b => by unfold lexLe; omega⟩

private instance : IsTrans (Int × Int) lexLe := ⟨fun a b c hab hbc => by
  unfold lexLe at *; omega⟩

/-- Sorted by the first numbers. -/
private theorem pairwise_sort (l : List (Int × Int)) :
    (l.insertionSort lexLe).Pairwise (fun a b => a.1 ≤ b.1) :=
  (List.pairwise_insertionSort lexLe l).imp fun h => by unfold lexLe at h; omega

/-- Sorting keeps the numbers. -/
private theorem mem_sort (n : Int) (l : List (Int × Int)) :
    Mem n (l.insertionSort lexLe) ↔ Mem n l := by
  unfold Mem
  simp only [(List.perm_insertionSort lexLe l).mem_iff]

/-- Sorting keeps a list valid. -/
private theorem valid_sort {l : List (Int × Int)} (h : Valid l) :
    Valid (l.insertionSort lexLe) :=
  fun iv hiv => h iv ((List.perm_insertionSort lexLe l).mem_iff.mp hiv)

/-- `normalize` keeps the set. -/
theorem mem_normalize {l : List (Int × Int)} (h : Valid l) (n : Int) :
    Mem n (normalize l) ↔ Mem n l := by
  rw [← mem_sort n l, normalize]
  have hsort := pairwise_sort l
  have hvalid := valid_sort h
  change Mem n (match l.insertionSort lexLe with
    | [] => []
    | iv :: rest => mergeFrom iv rest) ↔ _
  cases hl : l.insertionSort lexLe with
  | nil => simp
  | cons iv rest =>
      rw [hl, List.pairwise_cons] at hsort
      rw [hl, valid_cons] at hvalid
      rw [mem_cons]
      exact mem_mergeFrom n rest iv hvalid.1 hsort.1 hsort.2 hvalid.2

/-- `normalize` yields normal form. -/
theorem normal_normalize {l : List (Int × Int)} (h : Valid l) : Normal (normalize l) := by
  rw [normalize]
  have hsort := pairwise_sort l
  have hvalid := valid_sort h
  change Normal (match l.insertionSort lexLe with
    | [] => []
    | iv :: rest => mergeFrom iv rest)
  cases hl : l.insertionSort lexLe with
  | nil => simp
  | cons iv rest =>
      rw [hl, List.pairwise_cons] at hsort
      rw [hl, valid_cons] at hvalid
      exact (normal_mergeFrom rest iv hvalid.1 hsort.1 hsort.2 hvalid.2).1

/-! ### Subtraction -/

/-- Cut the intervals of the second list out of the interval from `cur` to `e`. Returns the
pieces cut off and the lower bound of what is left. -/
def cut (e : Int) : Int → List (Int × Int) → List (Int × Int) × Int
  | cur, [] => ([], cur)
  | cur, (bs, be) :: rest =>
    if bs ≤ e then
      let piece := if cur < bs then [(cur, bs - 1)] else []
      let cur' := max cur (be + 1)
      if e < cur' then (piece, cur')
      else
        let next := cut e cur' rest
        (piece ++ next.1, next.2)
    else ([], cur)

/-- The parts of the first list not covered by the second. The second list is the rest of
it from the pointer on. -/
def subtract : List (Int × Int) → List (Int × Int) → List (Int × Int)
  | [], _ => []
  | (s, e) :: a, b =>
    let b' := b.dropWhile (fun iv => iv.2 < s)
    let c := cut e s b'
    c.1 ++ (if c.2 ≤ e then [(c.2, e)] else []) ++ subtract a b'

/-- What `cut` leaves out of `[cur, e]` is what the second list covers. -/
theorem mem_cut (e n : Int) :
    ∀ (b : List (Int × Int)) (cur : Int), Normal b →
      (Mem n (cut e cur b).1 ∨ ((cut e cur b).2 ≤ n ∧ n ≤ e) ↔
        (cur ≤ n ∧ n ≤ e) ∧ ¬ Mem n b) := by
  intro b
  induction b with
  | nil => intro cur _; simp [cut]
  | cons iv rest ih =>
      intro cur hb
      obtain ⟨bs, be⟩ := iv
      rw [normal_cons] at hb
      obtain ⟨hse, hgap, hrest⟩ := hb
      simp only at hse hgap
      -- Nothing later in the second list reaches below `be + 2`.
      have hlate : Mem n rest → be + 1 < n := by
        rintro ⟨iv, hiv, hlo, _⟩
        exact lt_of_lt_of_le (hgap iv hiv) hlo
      rw [cut]
      by_cases hbs : bs ≤ e
      · rw [if_pos hbs]
        have hpiece : Mem n (if cur < bs then [(cur, bs - 1)] else []) ↔
            cur ≤ n ∧ n < bs := by
          split
          · simp only [mem_cons, not_mem_nil, or_false]; omega
          · simp only [not_mem_nil, false_iff]; omega
        by_cases hend : e < max cur (be + 1)
        · simp only [if_pos hend, hpiece, mem_cons]
          constructor
          · rintro (h | h)
            · refine ⟨⟨h.1, by omega⟩, ?_⟩
              rintro (h' | h')
              · omega
              · have := hlate h'; omega
            · omega
          · rintro ⟨h, hno⟩
            refine Or.inl ⟨h.1, ?_⟩
            by_contra hlt
            exact hno (Or.inl (by omega))
        · simp only [if_neg hend, mem_append, hpiece, or_assoc]
          rw [ih (max cur (be + 1)) hrest, mem_cons]
          constructor
          · rintro (h | ⟨h, hno⟩)
            · refine ⟨⟨h.1, by omega⟩, ?_⟩
              rintro (h' | h')
              · omega
              · have := hlate h'; omega
            · refine ⟨by omega, ?_⟩
              rintro (h' | h')
              · omega
              · exact hno h'
          · rintro ⟨h, hno⟩
            by_cases hlt : n < bs
            · exact Or.inl ⟨h.1, hlt⟩
            · have hbe : be < n := by
                by_contra hge
                exact hno (Or.inl (by omega))
              exact Or.inr ⟨by omega, fun h' => hno (Or.inr h')⟩
      · rw [if_neg hbs]
        simp only [not_mem_nil, false_or, mem_cons]
        constructor
        · intro h
          refine ⟨h, ?_⟩
          rintro (h' | h')
          · omega
          · have := hlate h'; omega
        · exact fun h => h.1

/-- The intervals `dropWhile` drops lie below `s`. -/
theorem mem_dropWhile_of_le {s n : Int} (hn : s ≤ n) (b : List (Int × Int)) :
    Mem n (b.dropWhile (fun iv => iv.2 < s)) ↔ Mem n b := by
  induction b with
  | nil => simp
  | cons iv rest ih =>
      rw [List.dropWhile_cons]
      split
      · rename_i h
        have hlt : iv.2 < s := by simpa using h
        rw [ih, mem_cons]
        constructor
        · exact Or.inr
        · rintro (h' | h')
          · omega
          · exact h'
      · rfl

/-- What is left of a normal form is one. -/
theorem Normal.dropWhile {b : List (Int × Int)} (h : Normal b) (p : Int × Int → Bool) :
    Normal (b.dropWhile p) :=
  ⟨h.1.sublist (List.dropWhile_sublist p),
    fun iv hiv => h.2 iv ((List.dropWhile_sublist p).subset hiv)⟩

/-- `subtract` is the difference of the two sets. -/
theorem mem_subtract (n : Int) :
    ∀ (a b : List (Int × Int)), Normal a → Normal b →
      (Mem n (subtract a b) ↔ Mem n a ∧ ¬ Mem n b) := by
  intro a
  induction a with
  | nil => intro b _ _; simp [subtract]
  | cons iv rest ih =>
      intro b ha hb
      obtain ⟨s, e⟩ := iv
      rw [normal_cons] at ha
      obtain ⟨hse, hgap, hrest⟩ := ha
      simp only at hse hgap
      -- What lies below `s` cannot meet this interval or a later one.
      have hb' := hb.dropWhile (fun iv => iv.2 < s)
      have hlater : Mem n rest → s ≤ n := by
        rintro ⟨iv, hiv, hlo, _⟩
        have := hgap iv hiv
        omega
      rw [subtract]
      -- What is left behind the last cut is the end of the interval, if anything.
      have hleft : Mem n (if (cut e s (b.dropWhile fun iv => iv.2 < s)).2 ≤ e then
            [((cut e s (b.dropWhile fun iv => iv.2 < s)).2, e)] else []) ↔
          (cut e s (b.dropWhile fun iv => iv.2 < s)).2 ≤ n ∧ n ≤ e := by
        split
        · simp
        -- The interval is used up.
        · simp only [not_mem_nil, false_iff]; omega
      simp only [mem_append, hleft, mem_cut e n _ s hb', ih _ hrest hb', mem_cons]
      constructor
      -- The dropped intervals are below `n` on either side of the equivalence.
      · rintro (⟨h, hno⟩ | ⟨h, hno⟩)
        · exact ⟨Or.inl h, fun h' => hno ((mem_dropWhile_of_le h.1 b).mpr h')⟩
        · exact ⟨Or.inr h, fun h' => hno ((mem_dropWhile_of_le (hlater h) b).mpr h')⟩
      · rintro ⟨h | h, hno⟩
        · exact Or.inl ⟨h, fun h' => hno ((mem_dropWhile_of_le h.1 b).mp h')⟩
        · exact Or.inr ⟨h, fun h' => hno ((mem_dropWhile_of_le (hlater h) b).mp h')⟩

/-- What `cut` leaves of an interval is valid. -/
theorem valid_cut (e : Int) :
    ∀ (b : List (Int × Int)) (cur : Int), Valid (cut e cur b).1 := by
  intro b
  induction b with
  | nil => intro cur; simp [cut]
  | cons iv rest ih =>
      intro cur
      obtain ⟨bs, be⟩ := iv
      have hpiece : Valid (if cur < bs then [(cur, bs - 1)] else []) := by
        split
        · rw [valid_cons]; exact ⟨by simp only; omega, valid_nil⟩
        · exact valid_nil
      rw [cut]
      by_cases hbs : bs ≤ e
      · rw [if_pos hbs]
        by_cases hend : e < max cur (be + 1)
        · simp only [if_pos hend]; exact hpiece
        · simp only [if_neg hend]; exact hpiece.append (ih _)
      · rw [if_neg hbs]; exact valid_nil

/-- `subtract` yields non-empty intervals. -/
theorem valid_subtract :
    ∀ (a b : List (Int × Int)), Valid (subtract a b) := by
  intro a
  induction a with
  | nil => intro b; simp [subtract]
  | cons iv rest ih =>
      intro b
      obtain ⟨s, e⟩ := iv
      rw [subtract]
      refine ((valid_cut e _ s).append ?_).append (ih _)
      split
      · simpa
      · exact valid_nil

/-! ### Intersection -/

/-- The overlap of two sorted interval lists. -/
def intersect : List (Int × Int) → List (Int × Int) → List (Int × Int)
  | [], _ => []
  | _ :: _, [] => []
  | (s, e) :: a, (bs, be) :: b =>
    let lo := max s bs
    let hi := min e be
    (if lo ≤ hi then [(lo, hi)] else []) ++
      if e < be then intersect a ((bs, be) :: b) else intersect ((s, e) :: a) b
termination_by a b => a.length + b.length

/-- What starts above `x` has nothing at or below `x`. -/
theorem lt_of_mem {x n : Int} {l : List (Int × Int)} (h : ∀ iv ∈ l, x < iv.1)
    (hn : Mem n l) : x < n := by
  obtain ⟨iv, hiv, hlo, -⟩ := hn
  exact lt_of_lt_of_le (h iv hiv) hlo

/-- `intersect` is the intersection of the two sets. -/
theorem mem_intersect (n : Int) (a b : List (Int × Int)) (ha : Normal a) (hb : Normal b) :
    Mem n (intersect a b) ↔ Mem n a ∧ Mem n b := by
  induction a, b using intersect.induct with
  | case1 b => simp [intersect]
  | case2 iv a => simp [intersect]
  | case3 s e a bs be b ihlt ihge =>
      have ha' := (normal_cons _ _).mp ha
      have hb' := (normal_cons _ _).mp hb
      have hlate : Mem n a → e + 1 < n := lt_of_mem ha'.2.1
      have hlate' : Mem n b → be + 1 < n := lt_of_mem hb'.2.1
      have hpiece : Mem n (if max s bs ≤ min e be then [(max s bs, min e be)] else []) ↔
          max s bs ≤ n ∧ n ≤ min e be := by
        -- An empty overlap gives no piece.
        split
        · simp
        · simp only [not_mem_nil, false_iff]
          omega
      rw [intersect, mem_append, hpiece, mem_cons, mem_cons]
      by_cases hlt : e < be
      · -- the first interval ends first, and the rest of its list meets the second list
        rw [if_pos hlt, ihlt ha'.2.2 hb, mem_cons]
        constructor
        · rintro (h | ⟨h, h'⟩)
          · exact ⟨.inl (by omega), .inl (by omega)⟩
          · exact ⟨.inr h, h'⟩
        -- The rest of the second list begins behind the first interval.
        · rintro ⟨h | h, h' | h'⟩
          · exact .inl (by omega)
          · have := hlate' h'
            omega
          · exact .inr ⟨h, .inl h'⟩
          · exact .inr ⟨h, .inr h'⟩
      -- The second interval ends first, or both end together.
      · rw [if_neg hlt, ihge ha hb'.2.2, mem_cons]
        constructor
        · rintro (h | ⟨h, h'⟩)
          · exact ⟨.inl (by omega), .inl (by omega)⟩
          · exact ⟨h, .inr h'⟩
        -- The rest of the first list begins behind the second interval.
        · rintro ⟨h | h, h' | h'⟩
          · exact .inl (by omega)
          · exact .inr ⟨.inl h, h'⟩
          · have := hlate h
            omega
          · exact .inr ⟨.inr h, h'⟩

/-- `intersect` yields non-empty intervals. -/
theorem valid_intersect (a b : List (Int × Int)) : Valid (intersect a b) := by
  have hpiece : ∀ lo hi : Int, Valid (if lo ≤ hi then [(lo, hi)] else []) := by
    intro lo hi
    split
    · rename_i h
      simpa using h
    · exact valid_nil
  induction a, b using intersect.induct with
  | case1 b => simp [intersect]
  | case2 iv a => simp [intersect]
  | case3 s e a bs be b ihlt ihge =>
      rw [intersect]
      refine (hpiece _ _).append ?_
      split
      · exact ihlt
      · exact ihge

/-! ### A normal list is the only one of its set -/

/-- A stretch of numbers of a normal list lies in one of its intervals. -/
theorem Normal.exists_covering {l : List (Int × Int)} (h : Normal l) {lo hi : Int} (hle : lo ≤ hi)
    (hall : ∀ n, lo ≤ n → n ≤ hi → Mem n l) : ∃ iv ∈ l, iv.1 ≤ lo ∧ hi ≤ iv.2 := by
  induction l with
  | nil => exact absurd (hall lo (le_refl _) hle) (not_mem_nil lo)
  | cons iv l ih =>
      obtain ⟨-, hgap, hl⟩ := (normal_cons _ _).mp h
      have hlate : ∀ n, Mem n l → iv.2 + 1 < n := fun n => lt_of_mem hgap
      rcases (mem_cons _ _ _).mp (hall lo (le_refl _) hle) with hin | hin
      · refine ⟨iv, List.mem_cons_self, hin.1, ?_⟩
        by_contra hlt
        -- The number right after the interval is not in the list.
        rcases (mem_cons _ _ _).mp (hall (iv.2 + 1) (by omega) (by omega)) with hnext | hnext
        · omega
        · have hlater := hlate _ hnext
          omega
      · have hafter := hlate _ hin
        obtain ⟨iv', hiv', hcover⟩ := ih hl fun n hn hn' => by
          rcases (mem_cons _ _ _).mp (hall n hn hn') with h' | h'
          · omega
          · exact h'
        exact ⟨iv', List.mem_cons_of_mem _ hiv', hcover⟩

/-- The first interval of a normal list is the stretch of the set from its least element. -/
theorem Normal.head_eq {iv iv' : Int × Int} {l l' : List (Int × Int)}
    (h : Normal (iv :: l)) (h' : Normal (iv' :: l'))
    (heq : ∀ n, Mem n (iv :: l) ↔ Mem n (iv' :: l')) : iv = iv' := by
  obtain ⟨hle, hgap, -⟩ := (normal_cons _ _).mp h
  obtain ⟨hle', hgap', -⟩ := (normal_cons _ _).mp h'
  have hlate : ∀ n, Mem n l → iv.2 + 1 < n := fun n => lt_of_mem hgap
  have hlate' : ∀ n, Mem n l' → iv'.2 + 1 < n := fun n => lt_of_mem hgap'
  simp only [mem_cons] at heq
  -- The least element is in both.
  have hlo : iv.1 = iv'.1 := by
    rcases (heq iv.1).mp (.inl ⟨le_refl _, hle⟩) with h1 | h1
    · rcases (heq iv'.1).mpr (.inl ⟨le_refl _, hle'⟩) with h2 | h2
      · omega
      · have := hlate _ h2
        omega
    · rcases (heq iv'.1).mpr (.inl ⟨le_refl _, hle'⟩) with h2 | h2
      · have := hlate' _ h1
        omega
      · have h3 := hlate' _ h1
        have h4 := hlate _ h2
        omega
  -- What comes right after an interval is not in the set.
  have hhi : iv.2 = iv'.2 := by
    by_contra hne
    rcases lt_or_gt_of_ne hne with hlt | hgt
    · rcases (heq (iv.2 + 1)).mpr (.inl ⟨by omega, by omega⟩) with h1 | h1
      · omega
      · have := hlate _ h1
        omega
    · rcases (heq (iv'.2 + 1)).mp (.inl ⟨by omega, by omega⟩) with h1 | h1
      · omega
      · have := hlate' _ h1
        omega
  exact Prod.ext hlo hhi

-- By induction on both lists; their first intervals agree, and so do the rests.
/-- Two normal lists of one set are equal. -/
theorem Normal.ext :
    ∀ {l l' : List (Int × Int)}, Normal l → Normal l' → (∀ n, Mem n l ↔ Mem n l') → l = l' := by
  intro l
  induction l with
  | nil =>
      intro l' _ h' heq
      by_contra hne
      obtain ⟨n, hn⟩ := h'.exists_mem (Ne.symm hne)
      exact not_mem_nil n ((heq n).mpr hn)
  -- The second list is empty, but the first one is not.
  | cons iv l ih =>
      intro l' h h' heq
      cases l' with
      | nil => exact absurd ((heq iv.1).mp ⟨iv, by simp, le_refl _, h.2 iv (by simp)⟩) (by simp)
      | cons iv' l' =>
          obtain rfl := h.head_eq h' heq
          have hr := (normal_cons _ _).mp h
          have hr' := (normal_cons _ _).mp h'
          refine congrArg (iv :: ·) (ih hr.2.2 hr'.2.2 fun n => ?_)
          -- A member of the rest lies behind the first interval, so the other rest has it.
          have hn := heq n
          simp only [mem_cons] at hn
          constructor
          · intro hm
            have hlate := lt_of_mem hr.2.1 hm
            rcases hn.mp (.inr hm) with h1 | h1
            · omega
            · exact h1
          · intro hm
            have hlate := lt_of_mem hr'.2.1 hm
            rcases hn.mpr (.inr hm) with h1 | h1
            · omega
            · exact h1

/-! ### Counting -/

/-- The number of integers in a normal list. -/
def count (l : List (Int × Int)) : Int := (l.map fun iv => iv.2 - iv.1 + 1).sum

/-- The set of a list, split at its head. -/
theorem setOf_mem_cons (iv : Int × Int) (l : List (Int × Int)) :
    {n | Mem n (iv :: l)} = Set.Icc iv.1 iv.2 ∪ {n | Mem n l} := by
  ext n
  simp [Set.mem_Icc]

/-- Valid lists denote finitely many numbers. -/
theorem finite_mem (l : List (Int × Int)) : {n | Mem n l}.Finite := by
  induction l with
  | nil => simp
  | cons iv l ih =>
      rw [setOf_mem_cons]
      exact (Set.finite_Icc _ _).union ih

/-- The count of a normal list is the number of its integers. -/
theorem count_eq_ncard {l : List (Int × Int)} (h : Normal l) :
    count l = ({n | Mem n l}.ncard : Int) := by
  induction l with
  | nil => simp [count]
  | cons iv l ih =>
      obtain ⟨hle, hgap, hl⟩ := (normal_cons _ _).mp h
      have hdisj : Disjoint (Set.Icc iv.1 iv.2) {n | Mem n l} := by
        refine Set.disjoint_left.mpr fun n hn hm => ?_
        have hlate := lt_of_mem hgap hm
        have hhi := hn.2
        omega
      have hcard : ((Set.Icc iv.1 iv.2).ncard : Int) = iv.2 - iv.1 + 1 := by
        rw [Set.ncard_eq_toFinset_card', Set.toFinset_Icc, Int.card_Icc]
        omega
      rw [setOf_mem_cons, Set.ncard_union_eq hdisj (Set.finite_Icc _ _) (finite_mem l),
        Nat.cast_add, hcard, ← ih hl]
      simp [count]

/-- The numbers of lists of intervals, each with the key of its list. -/
def keyed {K : Type} (m : List (K × List (Int × Int))) : Set (K × Int) :=
  {x | ∃ kv ∈ m, kv.1 = x.1 ∧ Mem x.2 kv.2}

section
variable {K : Type}

/-- They are split at the first list. -/
theorem keyed_cons (kv : K × List (Int × Int)) (m : List (K × List (Int × Int))) :
    keyed (kv :: m) = Prod.mk kv.1 '' {n | Mem n kv.2} ∪ keyed m := by
  ext ⟨k, n⟩
  simp only [keyed, List.mem_cons, exists_eq_or_imp, Set.mem_ofPred_eq, Set.mem_union,
    Set.mem_image, Prod.mk.injEq]
  refine or_congr_left ?_
  constructor
  · rintro ⟨hk, hn⟩
    exact ⟨n, hn, hk, rfl⟩
  · rintro ⟨n', hn, hk, rfl⟩
    exact ⟨hk, hn⟩

/-- So do the lists of a mapping. -/
theorem finite_keyed (m : List (K × List (Int × Int))) : (keyed m).Finite := by
  induction m with
  | nil => simp [keyed]
  | cons kv m ih =>
      rw [keyed_cons]
      exact ((finite_mem _).image _).union ih

/-- Counting normal lists of distinct keys is exact. -/
theorem sum_count_eq_ncard {m : List (K × List (Int × Int))} (hkeys : (m.map Prod.fst).Nodup)
    (hnorm : ∀ kv ∈ m, Normal kv.2) :
    (m.map fun kv => count kv.2).sum = ((keyed m).ncard : Int) := by
  induction m with
  | nil => simp [keyed]
  | cons kv m ih =>
      rw [List.map_cons, List.nodup_cons] at hkeys
      have hdisj : Disjoint (Prod.mk kv.1 '' {n | Mem n kv.2}) (keyed m) := by
        refine Set.disjoint_left.mpr ?_
        rintro _ ⟨n, -, rfl⟩ ⟨kv', hkv', hkey, -⟩
        exact hkeys.1 (List.mem_map.mpr ⟨kv', hkv', hkey⟩)
      have himage : (Prod.mk kv.1 '' {n | Mem n kv.2}).ncard = {n | Mem n kv.2}.ncard :=
        Set.ncard_image_of_injective _ (Prod.mk_right_injective kv.1)
      rw [keyed_cons, Set.ncard_union_eq hdisj ((finite_mem _).image _) (finite_keyed m), himage,
        Nat.cast_add, List.map_cons, List.sum_cons, count_eq_ncard (hnorm kv List.mem_cons_self),
        ih hkeys.2 fun kv' hkv' => hnorm kv' (List.mem_cons_of_mem _ hkv')]

end

end Interval
