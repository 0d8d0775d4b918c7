import Mathlib.Algebra.Order.Field.Power
import Mathlib.Algebra.Order.Floor.Semifield
import Mathlib.Data.Int.Log
import Mathlib.Data.Rat.Floor
import Mathlib.Tactic.FieldSimp
import Mathlib.Tactic.Linarith
import Mathlib.Tactic.Positivity
import Mathlib.Tactic.Ring
import SiblingQuery.Number.Double

/-!
# Rounding to doubles keeps the order of magnitudes

`Double.round` takes a quotient to a grid whose step depends on the binary order of the quotient,
and there to the nearest point, a tie going to the even one.  Two facts carry everything here: the
nearest point of one grid rises with the quotient (`IsNearest.le`), and where the grid gets coarser
the two grids meet in a power of two.

So `round_mono`: of two quotients the larger has the larger double, and if that one is no overflow
then neither is the other.  Bounds on rounded products follow without any estimate of an error: a
product is compared with a product of two doubles that are known.
-/

namespace SiblingQuery

/-- A natural number at the least distance from a rational one, and even if it is halfway. -/
structure IsNearest (q : ℚ) (n : ℕ) : Prop where
  dist_le : |q - n| ≤ 1 / 2
  even_of_tie : |q - n| = 1 / 2 → Even n

namespace IsNearest

variable {q r : ℚ} {m n : ℕ}

lemma le (hm : IsNearest q m) (hn : IsNearest r n) (h : q ≤ r) : m ≤ n := by
  by_contra hlt
  obtain ⟨hq, -⟩ := abs_le.1 hm.dist_le
  obtain ⟨-, hr⟩ := abs_le.1 hn.dist_le
  have hstep : (n : ℚ) + 1 ≤ m := by exact_mod_cast Nat.lt_of_not_le hlt
  -- the two points are neighbours, and both quotients are halfway between them
  have hhalf : q - m = -(1 / 2) ∧ r - n = 1 / 2 := ⟨by linarith, by linarith⟩
  have hm_even := hm.even_of_tie (by rw [hhalf.1]; norm_num)
  have hn_even := hn.even_of_tie (by rw [hhalf.2]; norm_num)
  have hnext : m = n + 1 := by
    have : (m : ℚ) = n + 1 := by linarith
    exact_mod_cast this
  exact (Nat.even_add_one.1 (hnext ▸ hm_even)) hn_even

lemma natCast (n : ℕ) : IsNearest n n := ⟨by simp, by simp⟩

/-- At less than half a step there is no tie. -/
lemma of_lt (h : |q - n| < 1 / 2) : IsNearest q n := ⟨h.le, fun htie => absurd htie h.ne⟩

lemma unique (hm : IsNearest q m) (hn : IsNearest q n) : m = n :=
  le_antisymm (hm.le hn le_rfl) (hn.le hm le_rfl)

end IsNearest

namespace Double

variable {num den num' den' : ℕ}

/-! ## The steps of rounding -/

lemma isNearest_roundHalfEven (num : ℕ) (hden : 0 < den) :
    IsNearest ((num : ℚ) / den) (roundHalfEven num den) := by
  have hpos : (0 : ℚ) < den := by exact_mod_cast hden
  have hsplit : (num : ℚ) / den = (num / den : ℕ) + (num % den : ℕ) / den := by
    rw [eq_comm, ← mul_right_inj' hpos.ne']
    field_simp
    exact_mod_cast Nat.div_add_mod num den
  have hrest : (num % den : ℕ) / (den : ℚ) < 1 := by
    rw [div_lt_one hpos]
    exact_mod_cast Nat.mod_lt num hden
  have hnonneg : (0 : ℚ) ≤ (num % den : ℕ) / (den : ℚ) := by positivity
  rw [hsplit]
  unfold roundHalfEven
  simp only
  -- the remainder is below, above or at half a step; only the last is a tie
  split_ifs with hlow hhigh
  · have hlt : (num % den : ℕ) / (den : ℚ) < 1 / 2 := by
      rw [div_lt_div_iff₀ hpos (by norm_num)]
      exact_mod_cast (by omega : num % den * 2 < 1 * den)
    refine .of_lt ?_
    rw [abs_lt]
    constructor <;> linarith
  · have hgt : 1 / 2 < (num % den : ℕ) / (den : ℚ) := by
      rw [div_lt_div_iff₀ (by norm_num) hpos]
      exact_mod_cast (by omega : 1 * den < num % den * 2)
    refine .of_lt ?_
    rw [abs_lt]
    push_cast
    constructor <;> linarith
  · have heq : (num % den : ℕ) / (den : ℚ) = 1 / 2 := by
      rw [div_eq_div_iff hpos.ne' (by norm_num)]
      exact_mod_cast (by omega : num % den * 2 = 1 * den)
    rw [heq]
    rcases Nat.mod_two_eq_zero_or_one (num / den) with heven | hodd
    · rw [heven, Nat.add_zero]
      exact ⟨by norm_num [abs_le], fun _ => Nat.even_iff.2 heven⟩
    · rw [hodd]
      have hnext : Even (num / den + 1) := by
        rw [Nat.even_add_one, Nat.not_even_iff]
        exact hodd
      refine ⟨?_, fun _ => hnext⟩
      push_cast
      rw [abs_le]
      constructor <;> linarith

/-- A power of two compared with a quotient, in natural numbers. -/
lemma reaches_iff (num : ℕ) (hden : 0 < den) (k : ℤ) :
    (if 0 ≤ k then decide (den * Nat.pow 2 k.toNat ≤ num)
      else decide (den ≤ num * Nat.pow 2 (-k).toNat)) = true ↔ (2 : ℚ) ^ k ≤ num / den := by
  have hpos : (0 : ℚ) < den := by exact_mod_cast hden
  rw [le_div_iff₀ hpos]
  split_ifs with hk
  · obtain ⟨n, rfl⟩ := Int.eq_ofNat_of_zero_le hk
    rw [decide_eq_true_iff, Int.toNat_natCast, zpow_natCast, mul_comm, Nat.pow_eq]
    norm_cast
  · obtain ⟨n, rfl⟩ : ∃ n : ℕ, k = -n := ⟨(-k).toNat, by omega⟩
    have hpower : (0 : ℚ) < 2 ^ n := by positivity
    rw [decide_eq_true_iff, neg_neg, Int.toNat_natCast, zpow_neg, zpow_natCast,
      inv_mul_le_iff₀ hpower, mul_comm, Nat.pow_eq]
    norm_cast

/-- The parts of a quotient lie in the binades of their own orders, so the order of the quotient is
their difference or one less. -/
lemma binaryOrder_eq_log (hnum : 0 < num) (hden : 0 < den) :
    binaryOrder num den = Int.log 2 ((num : ℚ) / den) := by
  have hn : (0 : ℚ) < num := by exact_mod_cast hnum
  have hd : (0 : ℚ) < den := by exact_mod_cast hden
  have hquotient : (0 : ℚ) < num / den := div_pos hn hd
  have hnlow : (2 : ℚ) ^ (num.log2 : ℤ) ≤ num := by exact_mod_cast Nat.log2_self_le hnum.ne'
  have hnhigh : (num : ℚ) < 2 ^ ((num.log2 : ℤ) + 1) := by exact_mod_cast Nat.lt_log2_self
  have hdlow : (2 : ℚ) ^ (den.log2 : ℤ) ≤ den := by exact_mod_cast Nat.log2_self_le hden.ne'
  have hdhigh : (den : ℚ) < 2 ^ ((den.log2 : ℤ) + 1) := by exact_mod_cast Nat.lt_log2_self
  have hlow : (num.log2 : ℤ) - den.log2 - 1 ≤ Int.log 2 ((num : ℚ) / den) := by
    rw [← Int.zpow_le_iff_le_log Nat.one_lt_two hquotient, le_div_iff₀ hd]
    calc (2 : ℚ) ^ ((num.log2 : ℤ) - den.log2 - 1) * den
        ≤ 2 ^ ((num.log2 : ℤ) - den.log2 - 1) * 2 ^ ((den.log2 : ℤ) + 1) := by gcongr
      _ = 2 ^ (num.log2 : ℤ) := by
          rw [← zpow_add₀ two_ne_zero]
          congr 1
          omega
      _ ≤ num := hnlow
  have hhigh : Int.log 2 ((num : ℚ) / den) < (num.log2 : ℤ) - den.log2 + 1 := by
    rw [← Int.lt_zpow_iff_log_lt Nat.one_lt_two hquotient, div_lt_iff₀ hd]
    calc (num : ℚ) < 2 ^ ((num.log2 : ℤ) + 1) := hnhigh
      _ = 2 ^ ((num.log2 : ℤ) - den.log2 + 1) * 2 ^ (den.log2 : ℤ) := by
          rw [← zpow_add₀ two_ne_zero]
          congr 1
          omega
      _ ≤ 2 ^ ((num.log2 : ℤ) - den.log2 + 1) * den := by gcongr
  -- which of the two candidates it is, is decided by one comparison
  have hreaches := (reaches_iff num hden ((num.log2 : ℤ) - den.log2)).trans
    (Int.zpow_le_iff_le_log (b := 2) Nat.one_lt_two hquotient)
  unfold binaryOrder
  simp only
  by_cases h : (num.log2 : ℤ) - den.log2 ≤ Int.log 2 ((num : ℚ) / den)
  · rw [if_pos (hreaches.2 h)]
    omega
  · rw [if_neg (mt hreaches.1 h)]
    omega

/-- The nearest point of the grid with a power of two as its step, counted in steps. -/
lemma isNearest_scaled (hden : 0 < den) (exponent : ℤ) :
    IsNearest ((num : ℚ) / den / 2 ^ exponent) (scaled num den exponent) := by
  unfold scaled
  split_ifs with h
  · obtain ⟨n, rfl⟩ := Int.eq_ofNat_of_zero_le h
    have hpos : 0 < den * Nat.pow 2 n := Nat.mul_pos hden (Nat.two_pow_pos n)
    have hnearest := isNearest_roundHalfEven num hpos
    rwa [Nat.pow_eq, Nat.cast_mul, Nat.cast_pow, Nat.cast_ofNat, ← div_div, ← zpow_natCast]
      at hnearest
  · obtain ⟨n, rfl⟩ : ∃ n : ℕ, exponent = -n := ⟨(-exponent).toNat, by omega⟩
    have hnearest := isNearest_roundHalfEven (num * Nat.pow 2 n) hden
    rw [neg_neg, Int.toNat_natCast]
    rwa [Nat.pow_eq, Nat.cast_mul, Nat.cast_pow, Nat.cast_ofNat, mul_div_right_comm,
      ← zpow_natCast, ← div_inv_eq_mul, ← zpow_neg, ← Nat.pow_eq] at hnearest

/-! ## Magnitudes -/

/-- The magnitude of a double as a rational number. -/
def magnitude (d : Double) : ℚ := d.mantissa * 2 ^ d.exponent

/-- The number that a double is. -/
def value (d : Double) : ℚ := if d.negative then -d.magnitude else d.magnitude

lemma magnitude_nonneg (d : Double) : 0 ≤ d.magnitude := by
  unfold magnitude
  positivity

lemma denominator_pos (d : Double) : 0 < d.denominator := Nat.two_pow_pos _

lemma magnitude_eq_div (d : Double) : d.magnitude = (d.numerator : ℚ) / d.denominator := by
  have hsplit : d.exponent = (d.exponent.toNat : ℤ) - (-d.exponent).toNat := by omega
  rw [magnitude, numerator, denominator, hsplit, zpow_sub₀ two_ne_zero, zpow_natCast, zpow_natCast,
    ← mul_div_assoc, ← hsplit]
  simp

/-- The step of the grid that a quotient is rounded on, as a power of two. -/
def grid (q : ℚ) : ℤ := max (Int.log 2 q - 52) (-1074)

lemma grid_mono {q r : ℚ} (hq : 0 < q) (h : q ≤ r) : grid q ≤ grid r := by
  have := Int.log_mono_right (b := 2) hq h
  unfold grid
  omega

/-- No quotient has more than `2 ^ 53` steps of its grid. -/
lemma steps_le {q : ℚ} {n : ℕ} (h : IsNearest (q / 2 ^ grid q) n) : n ≤ 2 ^ 53 := by
  refine h.le (IsNearest.natCast (2 ^ 53)) ?_
  rw [div_le_iff₀ (by positivity)]
  calc q ≤ 2 ^ (Int.log 2 q + 1) := (Int.lt_zpow_succ_log_self Nat.one_lt_two q).le
    _ ≤ 2 ^ (53 + grid q) := by
        apply zpow_le_zpow_right₀ one_le_two
        unfold grid
        omega
    _ = ((2 ^ 53 : ℕ) : ℚ) * 2 ^ grid q := by
        rw [zpow_add₀ two_ne_zero]
        norm_num

/-- Above the finest grid a quotient has at least `2 ^ 52` steps. -/
lemma le_steps {q : ℚ} (hq : 0 < q) (hgrid : -1074 < grid q) {n : ℕ}
    (h : IsNearest (q / 2 ^ grid q) n) : 2 ^ 52 ≤ n := by
  refine (IsNearest.natCast (2 ^ 52)).le h ?_
  rw [le_div_iff₀ (by positivity)]
  calc ((2 ^ 52 : ℕ) : ℚ) * 2 ^ grid q = 2 ^ (52 + grid q) := by
        rw [zpow_add₀ two_ne_zero]
        norm_num
    _ ≤ 2 ^ Int.log 2 q := by
        apply zpow_le_zpow_right₀ one_le_two
        unfold grid at hgrid ⊢
        omega
    _ ≤ q := Int.zpow_log_le_self Nat.one_lt_two hq

/-- A double with a number of steps on a grid as its magnitude, unless that is an overflow. -/
def onGrid (negative : Bool) (exponent : ℤ) (steps : ℕ) : Option Double :=
  let result : Double :=
    if steps = 2 ^ 53 then ⟨negative, 2 ^ 52, exponent + 1⟩ else ⟨negative, steps, exponent⟩
  if 971 < result.exponent then none else some result

lemma round_eq_onGrid (negative : Bool) (hnum : 0 < num) (hden : 0 < den) :
    ∃ steps, IsNearest ((num : ℚ) / den / 2 ^ grid ((num : ℚ) / den)) steps ∧
      round negative num den = onGrid negative (grid ((num : ℚ) / den)) steps := by
  refine ⟨_, isNearest_scaled hden _, ?_⟩
  rw [round, if_neg hnum.ne', binaryOrder_eq_log hnum hden]
  rfl

lemma magnitude_of_onGrid {negative : Bool} {exponent : ℤ} {steps : ℕ} {d : Double}
    (h : onGrid negative exponent steps = some d) :
    d.magnitude = steps * 2 ^ exponent ∧ d.negative = negative := by
  unfold onGrid at h
  simp only at h
  split_ifs at h with hfull hover
  · obtain rfl := Option.some.inj h
    refine ⟨?_, rfl⟩
    rw [magnitude, hfull, zpow_add_one₀ two_ne_zero]
    push_cast
    ring
  · obtain rfl := Option.some.inj h
    exact ⟨rfl, rfl⟩

lemma exists_onGrid_iff {negative : Bool} {exponent : ℤ} {steps : ℕ} :
    (∃ d, onGrid negative exponent steps = some d) ↔
      exponent ≤ 970 ∨ exponent = 971 ∧ steps ≠ 2 ^ 53 := by
  unfold onGrid
  simp only
  split_ifs with hfull hover hover
  · simp only [exists_false, false_iff] at hover ⊢
    omega
  · simp only [not_lt] at hover
    simp only [Option.some.injEq, exists_eq', true_iff]
    omega
  · simp only [exists_false, false_iff] at hover ⊢
    omega
  · simp only [not_lt] at hover
    simp only [Option.some.injEq, exists_eq', true_iff]
    omega

/-- Fewer steps on one grid, or a full count on a finer one, make a smaller double. -/
lemma onGrid_mono {negative negative' : Bool} {e e' : ℤ} {m n : ℕ} {y : Double} (hm : m ≤ 2 ^ 53)
    (hn : n ≤ 2 ^ 53) (horder : e = e' ∧ m ≤ n ∨ e < e' ∧ 2 ^ 52 ≤ n)
    (hy : onGrid negative' e' n = some y) :
    ∃ x, onGrid negative e m = some x ∧ x.magnitude ≤ y.magnitude := by
  have hroom := exists_onGrid_iff.1 ⟨y, hy⟩
  obtain ⟨x, hx⟩ : ∃ x, onGrid negative e m = some x := exists_onGrid_iff.2 (by omega)
  refine ⟨x, hx, ?_⟩
  rw [(magnitude_of_onGrid hx).1, (magnitude_of_onGrid hy).1]
  rcases horder with ⟨rfl, hle⟩ | ⟨hlt, hfull⟩
  · gcongr
  · calc (m : ℚ) * 2 ^ e ≤ (2 ^ 53 : ℕ) * 2 ^ e := by gcongr
      _ = (2 ^ 52 : ℕ) * 2 ^ (e + 1) := by
          rw [zpow_add_one₀ two_ne_zero]
          push_cast
          ring
      _ ≤ n * 2 ^ e' := by
          gcongr
          · exact one_le_two
          · omega

/-- The larger of two quotients has the larger double.  If that is no overflow, neither is the
other. -/
lemma round_mono (negative : Bool) (num : ℕ) {negative' : Bool} {y : Double} (hden : 0 < den)
    (hden' : 0 < den')
    (h : (num : ℚ) / den ≤ num' / den') (hy : round negative' num' den' = some y) :
    ∃ x, round negative num den = some x ∧ x.magnitude ≤ y.magnitude := by
  rcases Nat.eq_zero_or_pos num with rfl | hnum
  · refine ⟨zero negative, rfl, ?_⟩
    simpa [zero, magnitude] using y.magnitude_nonneg
  have hpos : (0 : ℚ) < num / den := by positivity
  have hnum' : 0 < num' := by
    rcases Nat.eq_zero_or_pos num' with rfl | hnum'
    · simp only [Nat.cast_zero, zero_div] at h
      exact absurd h (not_le.2 hpos)
    · exact hnum'
  obtain ⟨m, hm, hx⟩ := round_eq_onGrid negative hnum hden
  obtain ⟨n, hn, hround⟩ := round_eq_onGrid negative' hnum' hden'
  rw [hround] at hy
  rw [hx]
  have hgrid := grid_mono hpos h
  refine onGrid_mono (steps_le hm) (steps_le hn) ?_ hy
  rcases hgrid.eq_or_lt with heq | hlt
  · left
    refine ⟨heq, hm.le hn ?_⟩
    rw [heq]
    gcongr
  · right
    have hfinest : -1074 ≤ grid ((num : ℚ) / den) := le_max_right _ _
    exact ⟨hlt, le_steps (hpos.trans_le h) (hfinest.trans_lt hlt) hn⟩

/-- Rounding depends on the quotient alone. -/
lemma round_congr (negative : Bool) (hden : 0 < den) (hden' : 0 < den')
    (h : (num : ℚ) / den = num' / den') : round negative num den = round negative num' den' := by
  have hd : (den : ℚ) ≠ 0 := by exact_mod_cast hden.ne'
  have hd' : (den' : ℚ) ≠ 0 := by exact_mod_cast hden'.ne'
  have hzero : num = 0 ↔ num' = 0 := by
    rw [div_eq_div_iff hd hd'] at h
    constructor <;> rintro rfl <;> simpa [hd, hd'] using h
  rcases Nat.eq_zero_or_pos num with hnum | hnum
  · rw [round, round, if_pos hnum, if_pos (hzero.1 hnum)]
  · have hnum' := Nat.pos_of_ne_zero fun hnum' => hnum.ne' (hzero.2 hnum')
    obtain ⟨m, hm, hround⟩ := round_eq_onGrid negative hnum hden
    obtain ⟨n, hn, hround'⟩ := round_eq_onGrid negative hnum' hden'
    rw [← h] at hn hround'
    rw [hround, hround', hm.unique hn]

/-- Rounding does not look at the sign. -/
lemma round_true (num den : ℕ) : round true num den = (round false num den).map neg := by
  unfold round
  simp only
  split_ifs <;> rfl

/-! ## Results of rounding -/

/-- A number with few bits before its zeros is a double. -/
lemma exists_round_eq (negative : Bool) {n e : ℕ} (hn : n < 2 ^ 53) (he : e ≤ 970) :
    ∃ d, round negative (n * 2 ^ e) 1 = some d ∧ d.magnitude = n * 2 ^ e := by
  rcases Nat.eq_zero_or_pos n with rfl | hpos
  · exact ⟨zero negative, by rw [zero_mul]; rfl, by simp [magnitude, zero]⟩
  obtain ⟨steps, hsteps, hround⟩ :=
    round_eq_onGrid negative (Nat.mul_pos hpos (Nat.two_pow_pos e)) Nat.one_pos
  have hquotient : ((n * 2 ^ e : ℕ) : ℚ) / (1 : ℕ) = n * 2 ^ e := by simp
  rw [hquotient] at hsteps hround
  generalize hgrid : grid ((n : ℚ) * 2 ^ e) = g at hsteps hround
  -- the grid at this number is no coarser than its zeros, so the number lies on the grid
  have hle : g ≤ e := by
    have hlt : (n : ℚ) * 2 ^ e < ((2 : ℕ) : ℚ) ^ ((53 : ℤ) + e) := by
      rw [Nat.cast_ofNat, zpow_add₀ two_ne_zero, zpow_natCast]
      gcongr
      exact_mod_cast hn
    have hlog := (Int.lt_zpow_iff_log_lt Nat.one_lt_two (by positivity)).1 hlt
    rw [grid] at hgrid
    omega
  obtain ⟨j, hj⟩ := Int.le.dest hle
  have hwhole : (n : ℚ) * 2 ^ e / 2 ^ g = (n * 2 ^ j : ℕ) := by
    rw [← zpow_natCast, ← hj, zpow_add₀ two_ne_zero, zpow_natCast]
    push_cast
    field_simp
  rw [hwhole] at hsteps
  obtain rfl := hsteps.unique (IsNearest.natCast _)
  obtain ⟨d, hd⟩ := exists_onGrid_iff.2 (.inl (by omega : g ≤ 970))
  refine ⟨d, hround.trans hd, ?_⟩
  rw [(magnitude_of_onGrid hd).1, ← hwhole]
  field_simp

lemma negative_of_round {negative : Bool} {d : Double} (h : round negative num den = some d)
    (hden : 0 < den) : d.negative = negative := by
  rcases Nat.eq_zero_or_pos num with rfl | hnum
  · obtain rfl : zero negative = d := Option.some.inj h
    rfl
  · obtain ⟨steps, -, hround⟩ := round_eq_onGrid negative hnum hden
    exact (magnitude_of_onGrid (hround ▸ h)).2

/-- No mantissa reaches `2 ^ 53`. -/
lemma mantissa_lt_of_round {negative : Bool} {d : Double} (h : round negative num den = some d)
    (hden : 0 < den) : d.mantissa < 2 ^ 53 := by
  rcases Nat.eq_zero_or_pos num with rfl | hnum
  · obtain rfl : zero negative = d := Option.some.inj h
    exact Nat.two_pow_pos 53
  · obtain ⟨steps, hsteps, hround⟩ := round_eq_onGrid negative hnum hden
    have hle := steps_le hsteps
    rw [hround, onGrid] at h
    split_ifs at h
    · obtain rfl := Option.some.inj h
      show 2 ^ 52 < 2 ^ 53
      omega
    · obtain rfl := Option.some.inj h
      show steps < 2 ^ 53
      omega

/-- A double of such a size has no bits behind the point. -/
lemma whole?_of_le_magnitude {d : Double} (hmantissa : d.mantissa < 2 ^ 53)
    (h : 2 ^ 53 ≤ d.magnitude) : ∃ n : ℕ, d.whole? = some n ∧ (n : ℚ) = d.magnitude := by
  have hexponent : 0 ≤ d.exponent := by
    by_contra hneg
    have hpower : (2 : ℚ) ^ d.exponent ≤ 1 := zpow_le_one_of_nonpos₀ one_le_two (by omega)
    have hlt : (d.mantissa : ℚ) < 2 ^ 53 := by exact_mod_cast hmantissa
    have : d.magnitude ≤ d.mantissa := mul_le_of_le_one_right (by positivity) hpower
    linarith
  have hden : d.denominator = 1 := by
    have : (-d.exponent).toNat = 0 := by omega
    rw [denominator, this]
  refine ⟨d.numerator, ?_, ?_⟩
  · rw [whole?, hden, Nat.mod_one, if_pos rfl, Nat.div_one]
  · rw [magnitude_eq_div, hden, Nat.cast_one, div_one]

/-! ## Products and quotients -/

/-- A product is rounded once. -/
lemma mul_eq_round {a b : Double} (hden : 0 < den)
    (h : a.magnitude * b.magnitude = num / den) :
    a.mul b = round (a.negative ^^ b.negative) num den := by
  refine round_congr _ (Nat.mul_pos a.denominator_pos b.denominator_pos) hden ?_
  rw [← h, a.magnitude_eq_div, b.magnitude_eq_div]
  push_cast
  exact mul_div_mul_comm ..

/-- A quotient is rounded once. -/
lemma div_eq_round {a b : Double} (hden : 0 < den) (hb : b.magnitude ≠ 0)
    (h : a.magnitude / b.magnitude = num / den) :
    a.div b = round (a.negative ^^ b.negative) num den := by
  have hmantissa : b.mantissa ≠ 0 := by
    intro hzero
    exact hb (by rw [magnitude, hzero, Nat.cast_zero, zero_mul])
  have hnumerator : 0 < b.numerator :=
    Nat.mul_pos (Nat.pos_of_ne_zero hmantissa) (Nat.two_pow_pos _)
  rw [div, if_neg hmantissa]
  refine round_congr _ (Nat.mul_pos a.denominator_pos hnumerator) hden ?_
  rw [← h, a.magnitude_eq_div, b.magnitude_eq_div]
  push_cast
  exact (div_div_div_eq ..).symm

/-- Larger factors have a larger product.  If that is no overflow, neither is the other. -/
lemma mul_mono {a b c d y : Double} (hac : a.magnitude ≤ c.magnitude)
    (hbd : b.magnitude ≤ d.magnitude) (hy : c.mul d = some y) :
    ∃ x, a.mul b = some x ∧ x.magnitude ≤ y.magnitude := by
  refine round_mono _ _ (Nat.mul_pos a.denominator_pos b.denominator_pos)
    (Nat.mul_pos c.denominator_pos d.denominator_pos) ?_ hy
  push_cast
  rw [mul_div_mul_comm, mul_div_mul_comm, ← magnitude_eq_div, ← magnitude_eq_div,
    ← magnitude_eq_div, ← magnitude_eq_div]
  exact mul_le_mul hac hbd b.magnitude_nonneg c.magnitude_nonneg

end Double

end SiblingQuery
