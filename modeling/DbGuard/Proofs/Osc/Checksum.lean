import DbGuard.Osc.Chunks
import DbGuard.PyText
import Mathlib.Data.List.ReduceOption
import Mathlib.Data.Multiset.MapFold

/-!
# `DbGuard.Proofs.Osc.Checksum`: which rows the checksum input tells apart

The input of a row's checksum is its texts with the separator between them, NULLs left out, and
then the NULL bitmap. `parts` is what one can read back from it: the columns that are NULL, and
the pieces between the separators. A text that contains the separator is several pieces, so
where one value ends and the next begins is lost. `checksumInput_eq_iff` says that nothing
else is.
-/

set_option autoImplicit false

namespace DbGuard.Osc

/-- The separator of `CONCAT_WS`. -/
abbrev sep : Char := '#'

/-- The texts of a row that are not NULL, cut at each separator. -/
def pieces (vals : List (Option (List Char))) : List (List Char) :=
  vals.reduceOption.flatMap (List.splitOn sep)

/-- Which columns are NULL, and the pieces of the others. -/
def parts (cols : List String) (row : Row (List Char)) : List Bool × List (List Char) :=
  ((cols.map row).map Option.isNone, pieces (cols.map row))

/-! ### Pieces -/

/-- Separators go between the two lists, too. -/
theorem intercalate_append {xs ys : List (List Char)} (hx : xs ≠ []) (hy : ys ≠ []) :
    [sep].intercalate (xs ++ ys) = [sep].intercalate xs ++ sep :: [sep].intercalate ys := by
  induction xs with
  | nil => exact absurd rfl hx
  | cons x xs ih =>
    cases xs with
    | nil =>
      rw [List.singleton_append, List.intercalate_cons_of_ne_nil hy, List.intercalate_singleton]
      simp
    | cons x' xs =>
      rw [List.cons_append, List.cons_append, List.intercalate_cons_cons, ← List.cons_append,
        ih (List.cons_ne_nil _ _), List.intercalate_cons_cons]
      simp

/-- Joining the pieces of the texts joins the texts. -/
theorem intercalate_flatMap_splitOn (ts : List (List Char)) :
    [sep].intercalate (ts.flatMap (List.splitOn sep)) = [sep].intercalate ts := by
  induction ts with
  | nil => rfl
  | cons t ts ih =>
    cases ts with
    | nil =>
      rw [List.flatMap_singleton, List.intercalate_splitOn, List.intercalate_singleton]
    | cons t' ts =>
      have hne : (t' :: ts).flatMap (List.splitOn sep) ≠ [] := by simp [List.splitOn_ne_nil]
      rw [List.flatMap_cons, intercalate_append (List.splitOn_ne_nil sep t) hne, ih,
        List.intercalate_splitOn, List.intercalate_cons_cons]
      simp

/-- Cutting texts that are joined gives the pieces of the texts. -/
theorem splitOn_intercalate_texts {ts : List (List Char)} (h : ts ≠ []) :
    ([sep].intercalate ts).splitOn sep = ts.flatMap (List.splitOn sep) := by
  rw [← intercalate_flatMap_splitOn]
  apply List.splitOn_intercalate
  · intro piece hpiece
    obtain ⟨t, -, ht⟩ := List.mem_flatMap.mp hpiece
    exact Py.not_mem_of_splitOn ht
  · obtain ⟨t, ts, rfl⟩ := List.exists_cons_of_ne_nil h
    simp [List.splitOn_ne_nil]

/-- No separator is in the bitmap of the nulls. -/
theorem sep_notMem_nullBitmap (vals : List (Option (List Char))) : sep ∉ nullBitmap vals := by
  intro hmem
  obtain ⟨v, -, hv⟩ := List.mem_map.mp hmem
  cases v <;> cases hv

/-- The bitmap says which values are null. -/
theorem nullBitmap_inj {vals vals' : List (Option (List Char))} :
    nullBitmap vals = nullBitmap vals' ↔ vals.map Option.isNone = vals'.map Option.isNone := by
  have hbits : ∀ vals : List (Option (List Char)),
      nullBitmap vals = (vals.map Option.isNone).map fun b => if b then '1' else '0' := by
    intro vals
    rw [List.map_map]
    rfl
  have hinj : Function.Injective fun b : Bool => if b then '1' else '0' := by decide
  rw [hbits, hbits]
  exact (List.map_injective_iff.mpr hinj).eq_iff

/-! ### Rows -/

/-- The input has the pieces of the texts and then the bitmap. -/
theorem splitOn_checksumInput (cols : List String) (row : Row (List Char)) :
    (checksumInput cols row).splitOn sep =
      pieces (cols.map row) ++ [nullBitmap (cols.map row)] := by
  have hvals : (cols.map row ++ [some (nullBitmap (cols.map row))]).reduceOption =
      (cols.map row).reduceOption ++ [nullBitmap (cols.map row)] := by
    rw [List.reduceOption_append]
    rfl
  rw [checksumInput, concatWs, hvals, splitOn_intercalate_texts (by simp), List.flatMap_append,
    List.flatMap_singleton, Py.splitOn_of_notMem (sep_notMem_nullBitmap _)]
  rfl

/-- Two rows have the same input if and only if they have the same parts. -/
theorem checksumInput_eq_iff (cols : List String) (row row' : Row (List Char)) :
    checksumInput cols row = checksumInput cols row' ↔ parts cols row = parts cols row' := by
  have hcut : checksumInput cols row = checksumInput cols row' ↔
      (checksumInput cols row).splitOn sep = (checksumInput cols row').splitOn sep := by
    constructor
    · exact congrArg _
    · intro h
      have hjoin : ∀ text : List Char, [sep].intercalate (text.splitOn sep) = text :=
        fun _ => List.intercalate_splitOn sep
      rw [← hjoin (checksumInput cols row), h, hjoin]
  rw [hcut, splitOn_checksumInput, splitOn_checksumInput, List.append_singleton_inj, nullBitmap_inj,
    parts, parts, Prod.mk.injEq, and_comm]

/-! ### Chunks -/

/-- Functions that identify the same rows make the same chunks equal. -/
theorem map_eq_map_iff {α β γ : Type} [Nonempty β] [Nonempty γ] {f : α → β} {g : α → γ}
    (h : ∀ x y, f x = f y ↔ g x = g y) (M M' : Multiset α) :
    M.map f = M'.map f ↔ M.map g = M'.map g := by
  obtain ⟨e, hg⟩ := (Function.factorsThrough_iff g).mp fun x y => (h x y).mp
  obtain ⟨e', hf⟩ := (Function.factorsThrough_iff f).mp fun x y => (h x y).mpr
  constructor
  · intro heq
    rw [hg, ← Multiset.map_map, ← Multiset.map_map, heq]
  · intro heq
    rw [hf, ← Multiset.map_map, ← Multiset.map_map, heq]

/-- Different rows have different inputs where their parts are different. Two chunks with the
same inputs have the same rows where that is so of chunks with the same parts. -/
theorem separates_iff_parts (cols : List String) :
    (∀ row row' : Row (List Char), cols.map row ≠ cols.map row' →
      (checksumInput cols row ≠ checksumInput cols row' ↔ parts cols row ≠ parts cols row')) ∧
    ∀ M M' : Multiset (Row (List Char)),
      (M.map (checksumInput cols) = M'.map (checksumInput cols) → M.map cols.map = M'.map cols.map) ↔
        (M.map (parts cols) = M'.map (parts cols) → M.map cols.map = M'.map cols.map) := by
  constructor
  · intro row row' _
    exact not_congr (checksumInput_eq_iff cols row row')
  · intro M M'
    rw [map_eq_map_iff (checksumInput_eq_iff cols)]

/-- A row of two columns. -/
def pair (a b : String) : Row (List Char) :=
  fun col => if col = "a" then some a.toList else some b.toList

/-- Two rows with checksums of different texts: their parts differ. -/
theorem separates_iff_parts_pair :
    ["a", "b"].map (pair "x" "y") ≠ ["a", "b"].map (pair "x" "z") ∧
      (checksumInput ["a", "b"] (pair "x" "y") ≠ checksumInput ["a", "b"] (pair "x" "z") ↔
        parts ["a", "b"] (pair "x" "y") ≠ parts ["a", "b"] (pair "x" "z")) := by
  have hne : ["a", "b"].map (pair "x" "y") ≠ ["a", "b"].map (pair "x" "z") := by decide
  exact ⟨hne, (separates_iff_parts ["a", "b"]).1 _ _ hne⟩

/-- A separator moves from one column to the next. -/
theorem moved_separator_unseen :
    ¬ ∀ (cols : List String) (row row' : Row (List Char)), cols.map row ≠ cols.map row' →
      checksumInput cols row ≠ checksumInput cols row' := by
  intro h
  exact h ["a", "b"] (pair "x#y" "z") (pair "x" "y#z") (by decide) (by decide)

end DbGuard.Osc
