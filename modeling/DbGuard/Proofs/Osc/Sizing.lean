import DbGuard.Osc.Pacing
import Mathlib.Tactic.FieldSimp
import Mathlib.Tactic.Linarith
import Mathlib.Tactic.NormNum
import Mathlib.Tactic.Positivity
import Mathlib.Tactic.Ring

/-!
# `DbGuard.Proofs.Osc.Sizing`: the size that a copy finds

The sizes of the chunks are those of a controller with a goal, the rows that the server copies
in `target_s`. It computes in doubles and then cuts off the fraction, so it may come out a row
beside the goal and stay there: with 0.3 s, at 5000 rows a second, it has 1499 rows for ever.

`product_cases` says what one chunk does: it doubles the size, or halves it, or comes within a
row of the goal. `le_fullChunk` and `fullChunk_le` are that on either side of the goal, and
`size_near_goal` says that the sizer comes within one row of it and stays, after as many chunks
as the start is powers of two away.
-/

set_option autoImplicit false

namespace DbGuard.Osc.ChunkSizer

open Double (round unit)

variable {c : ChunkSizer} {v : ℚ}

/-- The sizer after a full chunk, on a server that copies `v` rows in a second. The clock gives
the seconds as a double. -/
def fullChunk (v : ℚ) (c : ChunkSizer) : ChunkSizer :=
  c.update (Double.div (Double.ofInt c.size) v) c.size

/-- A number of rows within the bounds, without its fraction. -/
def cut (c : ChunkSizer) (x : ℚ) : Int := ⌊min (c.maxSize : ℚ) (max (c.minSize : ℚ) x)⌋

/-- The rows that such a server copies in `target_s`, within the bounds. -/
def goal (v : ℚ) (c : ChunkSizer) : Int := c.cut (c.targetS * v)

/-- The settings of a sizer, which `update` does not change. Doubles hold its sizes and their
halves. -/
structure Adapts (c : ChunkSizer) : Prop where
  adaptive : c.adaptive = true
  min_pos : 0 < c.minSize
  min_le_max : c.minSize ≤ c.maxSize
  max_le : c.maxSize ≤ 2 ^ 49

/-! ### Cutting off -/

section
variable {x y : ℚ}

/-- The bounds keep the order. -/
theorem cut_mono (h : x ≤ y) : c.cut x ≤ c.cut y :=
  Int.floor_mono (min_le_min_left _ (max_le_max_left _ h))

/-- Less than a row apart, at most a row apart afterwards. -/
theorem cut_le_add_one (h : x ≤ y + 1) : c.cut x ≤ c.cut y + 1 := by
  unfold cut
  rw [← Int.floor_add_one]
  refine Int.floor_mono ?_
  rw [← min_add_add_right, ← max_add_add_right]
  exact min_le_min (by linarith) (max_le_max (by linarith) h)

/-- A number within the bounds is not cut. -/
theorem cut_intCast {n : Int} (hmin : c.minSize ≤ n) (hmax : n ≤ c.maxSize) : c.cut n = n := by
  have h₁ : (c.minSize : ℚ) ≤ n := by exact_mod_cast hmin
  have h₂ : (n : ℚ) ≤ c.maxSize := by exact_mod_cast hmax
  rw [cut, max_eq_right h₁, min_eq_right h₂, Int.floor_intCast]

/-- A size is at least the smallest one. -/
theorem min_le_cut (hc : c.Adapts) : c.minSize ≤ c.cut x :=
  Int.le_floor.mpr (le_min (by exact_mod_cast hc.min_le_max) (le_max_left _ _))

/-- It is at most the largest one. -/
theorem cut_le_max : c.cut x ≤ c.maxSize := by
  have h : (c.cut x : ℚ) ≤ c.maxSize := (Int.floor_le _).trans (min_le_left _ _)
  exact_mod_cast h

end

/-! ### One chunk -/

/-- The unit of rounding is positive. -/
theorem unit_pos : 0 < unit := by norm_num [unit]

/-- It is at most a quarter. -/
theorem unit_le : unit ≤ 1 / 4 := by norm_num [unit]

/-- The seconds of a chunk are not far from the exact ones. -/
theorem div_near {s : ℚ} (hs : 0 < s) (hv : 0 < v) :
    |Double.div s v - s / v| ≤ unit * (s / v) ∧ s / v / 2 ≤ Double.div s v := by
  have hpos : 0 < s / v := by positivity
  have hloss : |Double.div s v - s / v| ≤ unit * (s / v) := by
    have h := Double.abs_round_sub_le (s / v)
    rwa [abs_of_pos hpos] at h
  refine ⟨hloss, ?_⟩
  have hsmall : unit * (s / v) ≤ 1 / 4 * (s / v) := mul_le_mul_of_nonneg_right unit_le hpos.le
  linarith [(abs_le.mp hloss).1]

/-- The quotient that the sizer computes, relative to the exact one. -/
theorem abs_quotient_sub_le {s t : ℚ} (hs : 0 < s) (hv : 0 < v) :
    |Double.div t (Double.div s v) - t * v / s| ≤ 4 * unit * |t * v / s| := by
  obtain ⟨hloss, hhalf⟩ := div_near hs hv
  have hpos : 0 < s / v := by positivity
  have hseconds : 0 < Double.div s v := lt_of_lt_of_le (by positivity) hhalf
  have hu := unit_pos
  -- The exact quotient of the rounded seconds.
  have hexact : |t / Double.div s v - t * v / s| ≤ 2 * unit * |t * v / s| := by
    have hsplit : t / Double.div s v - t * v / s =
        t * v / s * ((s / v - Double.div s v) / Double.div s v) := by
      field_simp
    have hfactor : |(s / v - Double.div s v) / Double.div s v| ≤ 2 * unit := by
      rw [abs_div, abs_of_pos hseconds, abs_sub_comm, div_le_iff₀ hseconds]
      calc |Double.div s v - s / v| ≤ unit * (s / v) := hloss
        _ = 2 * unit * (s / v / 2) := by ring
        _ ≤ 2 * unit * Double.div s v := mul_le_mul_of_nonneg_left hhalf (by positivity)
    rw [hsplit, abs_mul, mul_comm]
    exact mul_le_mul_of_nonneg_right hfactor (abs_nonneg _)
  -- And what its own rounding loses.
  have hround : |Double.div t (Double.div s v) - t / Double.div s v| ≤ 2 * unit * |t * v / s| := by
    have hsize : |t / Double.div s v| ≤ 2 * |t * v / s| := by
      have htri := abs_add_le (t / Double.div s v - t * v / s) (t * v / s)
      rw [sub_add_cancel] at htri
      have hsmall : 2 * unit * |t * v / s| ≤ 1 * |t * v / s| :=
        mul_le_mul_of_nonneg_right (by linarith [unit_le]) (abs_nonneg _)
      linarith
    calc |Double.div t (Double.div s v) - t / Double.div s v|
        ≤ unit * |t / Double.div s v| := Double.abs_round_sub_le _
      _ ≤ unit * (2 * |t * v / s|) := mul_le_mul_of_nonneg_left hsize hu.le
      _ = 2 * unit * |t * v / s| := by ring
  have htri := abs_add_le (Double.div t (Double.div s v) - t / Double.div s v)
    (t / Double.div s v - t * v / s)
  rw [sub_add_sub_cancel] at htri
  linarith

/-- The product of the size and the factor, before it is cut. -/
def product (v : ℚ) (c : ChunkSizer) : ℚ :=
  Double.mul c.size (min 2 (max (1 / 2) (Double.div c.targetS (Double.div c.size v))))

/-- The sizes are doubles exactly. -/
theorem ofInt_size (hsize : 0 < c.size) (hle : c.size ≤ 2 ^ 49) : Double.ofInt c.size = c.size :=
  Double.round_intCast (by rw [abs_of_pos hsize]; omega)

/-- A full chunk makes the size the product, cut to the bounds. -/
theorem size_fullChunk (hc : c.Adapts) (hv : 0 < v) (hsize : 0 < c.size) (hle : c.size ≤ 2 ^ 49) :
    (c.fullChunk v).size = c.cut (c.product v) := by
  have hs : (0 : ℚ) < c.size := by exact_mod_cast hsize
  have hseconds : 0 < Double.div c.size v :=
    lt_of_lt_of_le (by positivity) (div_near hs hv).2
  have hhalf : Double.mul c.size (1 / 2) = c.size / 2 := by
    rw [Double.mul, mul_one_div]
    exact Double.round_half (by rw [abs_of_pos hsize]; omega)
  have hfull : ¬(c.size : ℚ) < Double.mul c.size (1 / 2) := by
    rw [hhalf]
    linarith
  simp only [fullChunk, update, ofInt_size hsize hle, hc.adaptive, Bool.not_true, Bool.false_or,
    decide_eq_true_eq, if_neg hfull, if_neg (not_le.mpr hseconds)]
  rfl

/-- One chunk doubles the size, if that is not beyond what the server copies in `target_s`, or
halves it, if that is not below, or comes within a row of it. -/
theorem product_cases (hv : 0 < v) (hsize : 0 < c.size) (hle : c.size ≤ 2 ^ 49) :
    (c.product v = 2 * c.size ∧ 2 * c.size ≤ c.targetS * v + 1) ∨
      (c.product v = c.size / 2 ∧ c.targetS * v ≤ c.size / 2 + 1) ∨
      |c.product v - c.targetS * v| ≤ 1 := by
  -- `x` is the exact quotient of the goal by the size, `q` the one in doubles: they differ by four
  -- units of rounding at most.
  have hs : (0 : ℚ) < c.size := by exact_mod_cast hsize
  have hu := unit_pos
  have hlost : unit * c.size ≤ 1 / 16 := by
    have hbig : (c.size : ℚ) ≤ 2 ^ 49 := by exact_mod_cast hle
    calc unit * c.size ≤ unit * 2 ^ 49 := mul_le_mul_of_nonneg_left hbig hu.le
      _ = 1 / 16 := by norm_num [unit]
  have hquotient := abs_quotient_sub_le (t := c.targetS) hs hv
  have htarget : c.targetS * v / c.size * c.size = c.targetS * v := by field_simp
  unfold product
  generalize Double.div c.targetS (Double.div c.size v) = q at hquotient ⊢
  generalize c.targetS * v / c.size = x at hquotient htarget
  generalize c.targetS * v = y at htarget ⊢
  subst htarget
  obtain ⟨hlow, hhigh⟩ := abs_le.mp hquotient
  -- The cases are those of the clamp: doubled, halved, or near the goal.
  rcases le_or_gt 2 q with hq | hq
  · left
    -- Twice a size is a double.
    have hdouble : Double.mul c.size 2 = 2 * c.size := by
      have h := Double.round_intCast (n := 2 * c.size) (by rw [abs_of_pos (by omega)]; omega)
      push_cast at h
      rw [Double.mul, mul_comm, h]
    -- `q` is at least 2, so the exact quotient is positive too.
    have hx : 0 < x := by
      by_contra hneg
      rw [abs_of_nonpos (not_lt.mp hneg)] at hhigh
      have hsmall : 4 * unit * -x ≤ 1 * -x :=
        mul_le_mul_of_nonneg_right (by linarith [unit_le]) (by linarith)
      linarith
    rw [abs_of_pos hx] at hhigh
    refine ⟨by rw [min_eq_left (le_max_of_le_right hq), hdouble], ?_⟩
    -- Were twice the size far above the goal, the rounding of `q` could not make up for it.
    by_contra hfar
    have hshort : 2 * (c.size : ℚ) ≤ (1 + 4 * unit) * (x * c.size) := by
      calc 2 * (c.size : ℚ) ≤ (x + 4 * unit * x) * c.size :=
            mul_le_mul_of_nonneg_right (by linarith) hs.le
        _ = (1 + 4 * unit) * (x * c.size) := by ring
    have hmore : (1 + 4 * unit) * (x * c.size) ≤ (1 + 4 * unit) * (2 * c.size - 1) :=
      mul_le_mul_of_nonneg_left (by linarith) (by linarith)
    have hsplit : (1 + 4 * unit) * (2 * (c.size : ℚ) - 1) =
        2 * c.size - 1 + 8 * (unit * c.size) - 4 * unit := by ring
    linarith
  · right
    rcases le_or_gt q (1 / 2) with hq' | hq'
    · left
      -- Half a size is a double.
      have hhalf : Double.mul c.size (1 / 2) = c.size / 2 := by
        rw [Double.mul, mul_one_div]
        exact Double.round_half (by rw [abs_of_pos hsize]; omega)
      refine ⟨by rw [max_eq_left hq', min_eq_right (by norm_num), hhalf], ?_⟩
      rcases le_or_gt x 0 with hx | hx
      · have hnone : x * c.size ≤ 0 := mul_nonpos_of_nonpos_of_nonneg hx hs.le
        linarith
      rw [abs_of_pos hx] at hlow
      -- The same below: half the size is not far under the goal.
      by_contra hfar
      have hlong : (1 - 4 * unit) * (x * c.size) ≤ c.size / 2 := by
        calc (1 - 4 * unit) * (x * c.size) = (x - 4 * unit * x) * c.size := by ring
          _ ≤ 1 / 2 * c.size := mul_le_mul_of_nonneg_right (by linarith) hs.le
          _ = c.size / 2 := by ring
      have hmore : (1 - 4 * unit) * (c.size / 2 + 1) ≤ (1 - 4 * unit) * (x * c.size) :=
        mul_le_mul_of_nonneg_left (by linarith) (by linarith [unit_le])
      have hsplit : (1 - 4 * unit) * ((c.size : ℚ) / 2 + 1) =
          c.size / 2 + 1 - 2 * (unit * c.size) - 4 * unit := by ring
      have htiny : 4 * unit ≤ 1 / 4 := by norm_num [unit]
      linarith
    · right
      rw [max_eq_right hq'.le, min_eq_right hq.le]
      -- Unclamped: the product is off by its own rounding and by that of `q`.
      have hx : |x| ≤ 3 := by
        have htri := abs_add_le (x - q) q
        rw [sub_add_cancel, abs_sub_comm, abs_of_pos (by linarith : 0 < q)] at htri
        have hsmall : 4 * unit * |x| ≤ 1 / 4 * |x| :=
          mul_le_mul_of_nonneg_right (by norm_num [unit]) (abs_nonneg _)
        linarith
      have hround : |Double.mul c.size q - c.size * q| ≤ 2 * (unit * c.size) := by
        calc |Double.mul c.size q - c.size * q| ≤ unit * |c.size * q| :=
              Double.abs_round_sub_le _
          _ = unit * c.size * q := by
            rw [abs_of_pos (mul_pos hs (by linarith)), mul_assoc]
          _ ≤ unit * c.size * 2 := mul_le_mul_of_nonneg_left hq.le (by positivity)
          _ = 2 * (unit * c.size) := by ring
      have hnear : |c.size * q - x * c.size| ≤ 12 * (unit * c.size) := by
        calc |c.size * q - x * c.size| = c.size * |q - x| := by
              rw [mul_comm x, ← mul_sub, abs_mul, abs_of_pos hs]
          _ ≤ c.size * (4 * unit * 3) := by
            refine mul_le_mul_of_nonneg_left (hquotient.trans ?_) hs.le
            exact mul_le_mul_of_nonneg_left hx (by positivity)
          _ = 12 * (unit * c.size) := by ring
      have htri := abs_add_le (Double.mul c.size q - c.size * q) (c.size * q - x * c.size)
      rw [sub_add_sub_cancel] at htri
      linarith

/-! ### Towards the goal -/

/-- It leaves the settings. -/
theorem fullChunk_settings : (c.fullChunk v).targetS = c.targetS ∧
    (c.fullChunk v).minSize = c.minSize ∧ (c.fullChunk v).maxSize = c.maxSize ∧
    (c.fullChunk v).adaptive = c.adaptive := by
  unfold fullChunk update
  dsimp only
  split
  · exact ⟨rfl, rfl, rfl, rfl⟩
  · exact ⟨rfl, rfl, rfl, rfl⟩

/-- So the next chunk can adapt, too. -/
theorem Adapts.fullChunk (hc : c.Adapts) : (c.fullChunk v).Adapts := by
  obtain ⟨-, hmin, hmax, hadaptive⟩ := fullChunk_settings (c := c) (v := v)
  exact ⟨hadaptive.trans hc.1, hmin ▸ hc.2, hmin ▸ hmax ▸ hc.3, hmax ▸ hc.4⟩

/-- Its goal is the same. -/
@[simp] theorem goal_fullChunk : (c.fullChunk v).goal v = c.goal v := by
  obtain ⟨htarget, hmin, hmax, -⟩ := fullChunk_settings (c := c) (v := v)
  rw [goal, goal, cut, cut, htarget, hmin, hmax]

/-- The goal is positive. -/
theorem goal_pos (hc : c.Adapts) : 0 < c.goal v := Int.lt_of_lt_of_le hc.min_pos (min_le_cut hc)

/-- It is within the bounds. -/
theorem cut_goal (hc : c.Adapts) : c.cut (c.goal v) = c.goal v :=
  cut_intCast (min_le_cut hc) cut_le_max

/-- What comes within a row of the exact rows is cut to within a row of the goal. -/
theorem near_of_product {x : ℚ} (h : |x - c.targetS * v| ≤ 1) :
    c.goal v - 1 ≤ c.cut x ∧ c.cut x ≤ c.goal v + 1 := by
  obtain ⟨hlow, hhigh⟩ := abs_le.mp h
  have hbelow : c.cut x ≤ c.goal v + 1 := cut_le_add_one (by linarith)
  have habove : c.goal v ≤ c.cut x + 1 := cut_le_add_one (by linarith)
  omega

/-- Below the goal, or a row above it, a chunk goes up to twice the size, or to a row below the
goal, and not beyond a row above it. -/
theorem le_fullChunk (hc : c.Adapts) (hv : 0 < v) (hsize : 0 < c.size) (hbig : c.size ≤ 2 ^ 49)
    (hle : c.size ≤ c.goal v + 1) :
    min (2 * c.size) (c.goal v - 1) ≤ (c.fullChunk v).size ∧
      (c.fullChunk v).size ≤ c.goal v + 1 := by
  have hpos := goal_pos (v := v) hc
  rw [size_fullChunk hc hv hsize hbig]
  rcases product_cases hv hsize hbig with ⟨hproduct, hbelow⟩ | ⟨hproduct, habove⟩ | hnear
  · rw [hproduct]
    refine ⟨?_, cut_le_add_one hbelow⟩
    have htwice : c.cut (min (2 * c.size) (c.goal v) : Int) ≤ c.cut (2 * c.size) :=
      cut_mono (by push_cast; exact min_le_left _ _)
    by_cases hmin : c.minSize ≤ min (2 * c.size) (c.goal v)
    · rw [cut_intCast hmin ((min_le_right _ _).trans cut_le_max)] at htwice
      omega
    · have hleast : c.minSize ≤ c.cut (2 * c.size) := min_le_cut hc
      omega
  · rw [hproduct]
    have hgoal : c.goal v ≤ c.cut (c.size / 2) + 1 := cut_le_add_one habove
    have hhalf : c.cut (c.size / 2) ≤ c.cut (c.goal v) := by
      refine cut_mono ?_
      have h : (c.size : ℚ) ≤ 2 * c.goal v := by exact_mod_cast (by omega)
      linarith
    rw [cut_goal hc] at hhalf
    omega
  · have h := near_of_product hnear
    omega

/-- Above the goal, a chunk goes down to half the size, or to a row above the goal, and not beyond
a row below it. -/
theorem fullChunk_le (hc : c.Adapts) (hv : 0 < v) (hsize : 0 < c.size) (hbig : c.size ≤ 2 ^ 49)
    (hge : c.goal v ≤ c.size) :
    c.goal v - 1 ≤ (c.fullChunk v).size ∧
      ((c.fullChunk v).size ≤ c.goal v + 1 ∨ 2 * (c.fullChunk v).size ≤ c.size) := by
  rw [size_fullChunk hc hv hsize hbig]
  -- The product is small, large, or near the goal.
  rcases product_cases hv hsize hbig with ⟨hproduct, hbelow⟩ | ⟨hproduct, habove⟩ | hnear
  · rw [hproduct]
    refine ⟨?_, .inl (cut_le_add_one hbelow)⟩
    have hmore : c.cut (c.goal v) ≤ c.cut (2 * c.size) := by
      refine cut_mono ?_
      exact_mod_cast (by omega : c.goal v ≤ 2 * c.size)
    rw [cut_goal hc] at hmore
    omega
  -- It is cut to half the size, or to the least size.
  · rw [hproduct]
    have hgoal : c.goal v ≤ c.cut (c.size / 2) + 1 := cut_le_add_one habove
    refine ⟨by omega, ?_⟩
    have hmin : c.minSize ≤ c.goal v := min_le_cut hc
    by_cases hleast : (c.size : ℚ) / 2 ≤ c.minSize
    · left
      have h : c.cut (c.size / 2) ≤ c.cut c.minSize := cut_mono hleast
      rw [cut_intCast (le_refl _) hc.min_le_max] at h
      omega
    · right
      have h : (c.cut (c.size / 2) : ℚ) ≤ c.size / 2 := by
        refine (Int.floor_le _).trans ((min_le_right _ _).trans ?_)
        exact max_le (not_le.mp hleast).le (le_refl _)
      have htwice : (2 * c.cut (c.size / 2) : ℚ) ≤ c.size := by linarith
      exact_mod_cast htwice
  -- Near the goal the error is one row.
  · have h := near_of_product hnear
    exact ⟨h.1, .inl h.2⟩

/-- The sizer after `n` full chunks. -/
structure After (c : ChunkSizer) (v : ℚ) (n : Nat) (c' : ChunkSizer) : Prop where
  adapts : c'.Adapts
  goal : c'.goal v = c.goal v
  pos : 0 < c'.size
  big : c'.size ≤ 2 ^ 49
  up : c.size ≤ c.goal v + 1 → min (2 ^ n * c.size) (c.goal v - 1) ≤ c'.size ∧
    c'.size ≤ c.goal v + 1
  down : c.goal v + 1 ≤ c.size → c.goal v - 1 ≤ c'.size ∧
    (c'.size ≤ c.goal v + 1 ∨ 2 ^ n * c'.size ≤ c.size)

/-- The sizes of `n` full chunks. -/
theorem after_fullChunks (hc : c.Adapts) (hv : 0 < v) (hsize : 0 < c.size)
    (hbig : c.size ≤ 2 ^ 49) (n : Nat) : After c v n ((fullChunk v)^[n] c) := by
  -- By induction on the number of chunks: the size is still on its way to the goal, at twice or
  -- half of the one before, or it has come there.
  induction n with
  | zero => exact ⟨hc, rfl, hsize, hbig, by simp, fun h => ⟨by simp; omega, by simp⟩⟩
  | succ n ih =>
      rw [Function.iterate_succ_apply']
      generalize (fullChunk v)^[n] c = c' at ih
      have hpos := goal_pos (v := v) hc
      have hcut := size_fullChunk ih.adapts hv ih.pos ih.big
      have hmax : (c'.fullChunk v).size ≤ c'.maxSize := hcut ▸ cut_le_max
      have hmin : c'.minSize ≤ (c'.fullChunk v).size := hcut ▸ min_le_cut ih.adapts
      have hbelow := le_fullChunk ih.adapts hv ih.pos ih.big
      have habove := fullChunk_le ih.adapts hv ih.pos ih.big
      rw [ih.goal] at hbelow habove
      refine ⟨ih.adapts.fullChunk, goal_fullChunk.trans ih.goal,
        Int.lt_of_lt_of_le ih.adapts.min_pos hmin, hmax.trans ih.adapts.max_le, fun hle => ?_,
        fun hge => ?_⟩
      -- On the way up it doubles, or reaches the goal.
      · obtain ⟨hlow, hhigh⟩ := ih.up hle
        have hpow : 0 < (2 : Int) ^ n * c.size := by positivity
        have hstep := hbelow hhigh
        rw [pow_succ, mul_right_comm]
        omega
      -- On the way down it halves until it is there, and then it stays near.
      · obtain ⟨hlow, hnear | hfar⟩ := ih.down hge
        · have hstep := hbelow hnear
          have hpos' := ih.pos
          exact ⟨by omega, .inl hstep.2⟩
        · by_cases hnear : c'.size ≤ c.goal v
          · have hstep := hbelow (by omega)
            have hpos' := ih.pos
            exact ⟨by omega, .inl hstep.2⟩
          · obtain ⟨hstep, hdone | hhalf⟩ := habove (by omega)
            · exact ⟨hstep, .inl hdone⟩
            · refine ⟨hstep, .inr ?_⟩
              calc 2 ^ (n + 1) * (c'.fullChunk v).size
                  = 2 ^ n * (2 * (c'.fullChunk v).size) := by ring
                _ ≤ 2 ^ n * c'.size := by gcongr
                _ ≤ c.size := hfar

/-- On a server that copies `v` rows in a second, the size comes within one row of what it copies
in `target_s`, within the bounds, and stays: after `n` full chunks, if the first size is not
further from it than a factor of `2 ^ n`. -/
theorem size_near_goal (c : ChunkSizer) (hc : c.Adapts) (v : ℚ) (hv : 0 < v) (hsize : 0 < c.size)
    (hbig : c.size ≤ 2 ^ 49) (n : Nat) (hup : c.goal v ≤ 2 ^ n * c.size)
    (hdown : c.size < 2 ^ n * (c.goal v + 1)) :
    ∀ m, n ≤ m → |((fullChunk v)^[m] c).size - c.goal v| ≤ 1 := by
  intro m hm
  obtain ⟨-, -, -, -, hlow, hhigh⟩ := after_fullChunks hc hv hsize hbig m
  have hpow : (2 : Int) ^ n ≤ 2 ^ m := pow_le_pow_right₀ (by norm_num) hm
  have hpos := goal_pos (v := v) hc
  rw [abs_le]
  rcases le_total c.size (c.goal v + 1) with hle | hge
  · obtain ⟨hreach, hstay⟩ := hlow hle
    have : 2 ^ n * c.size ≤ 2 ^ m * c.size := by gcongr
    omega
  · obtain ⟨hstay, hdone | hfar⟩ := hhigh hge
    · omega
    · have hnext : ((fullChunk v)^[m] c).size ≤ c.goal v + 1 := by
        by_contra hne
        have hmore : c.goal v + 1 ≤ ((fullChunk v)^[m] c).size := by omega
        have : 2 ^ n * (c.goal v + 1) ≤ 2 ^ m * ((fullChunk v)^[m] c).size := by gcongr
        omega
      omega

/-- From the first size 1000, at 10110 rows in a second: within one row of 1011, here after two
chunks. -/
theorem size_near_goal_steady : |((fullChunk 10110)^[2] {}).size - 1011| ≤ 1 := by
  have hgoal : ChunkSizer.goal 10110 {} = 1011 := by decide +kernel
  have h := size_near_goal {} ⟨rfl, by decide, by decide, by decide⟩ 10110 (by norm_num)
    (by decide) (by decide) 1 (by decide +kernel) (by decide +kernel) 2 (by decide)
  rwa [hgoal] at h

example : ((fullChunk 5000)^[3] { targetS := Double.round (3 / 10) }).size = 1499 := by
  decide +kernel

end DbGuard.Osc.ChunkSizer
