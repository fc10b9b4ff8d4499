/-
**What the shortest decimal is.**

The search for the shortest decimal ends on the first grid that has a point to read back.  What it
finds there has the fewest digits of all decimals that read back, is nearest to the exact value
among those with so few digits, and is the even one of two that are equally near.  These properties
mention neither grids nor the search, and they hold of one number only.

A decimal with few digits that reads back could be on a grid that the search does not try only if it
were not in the decade of the exact value.  But then the power of ten between them reads back, too,
and is nearer.  The one case in which that is not enough is the power of ten above the exact value,
which has one digit, as a nine below it has: they are both read as the same magnitude only if that
is ten units at most, and then only if the power of ten is nearer.

Main definitions:

* `Calculator.Magnitude.IsShortest` — **a decimal is the shortest one of a magnitude**.

Main results:

* `Calculator.roundEven_competitor` — what rounding chooses is nearer than anything else, or even;
* `Calculator.Magnitude.onGrid?_competitor` — so is what is found on a grid;
* `Calculator.Magnitude.isShortest_shortest` — **the search finds the shortest decimal**;
* `Calculator.Magnitude.IsShortest.value_eq` — **there is only one**;
* `Calculator.Magnitude.IsShortest.length_le` — it has at most seventeen digits.
-/

import Calculator.Proofs.Double.Coarsest

set_option relaxedAutoImplicit false
set_option autoImplicit false

namespace Calculator

attribute [local instance (high)] instPowNat

/-! ### Nearness -/

/-- Of two numbers on one side the first one on the way is nearer. -/
theorem abs_sub_lt_of_le_of_lt {x y z : ℚ} (h : x ≤ y) (h' : y < z) : |x - y| < |x - z| := by
  rw [abs_sub_comm, abs_sub_comm x z, abs_of_nonneg (by linarith), abs_of_nonneg (by linarith)]
  linarith

theorem abs_sub_lt_of_lt_of_le {x y z : ℚ} (h : z < y) (h' : y ≤ x) : |x - y| < |x - z| := by
  rw [abs_of_nonneg (by linarith), abs_of_nonneg (by linarith)]
  linarith

/-! ### Rounding -/

/-- **Rounding is a choice of the nearest.**  Anything else is farther away, or as far if the choice
is even. -/
theorem roundEven_competitor {num den n : Nat} (hd : 0 < den) (hn : n ≠ roundEven num den) :
    |(num : ℚ) - roundEven num den * den| < |(num : ℚ) - n * den| ∨
      |(num : ℚ) - roundEven num den * den| = |(num : ℚ) - n * den| ∧
        roundEven num den % 2 = 0 := by
  have hd' : (0 : ℚ) < den := by exact_mod_cast hd
  obtain ⟨hup, hdown⟩ := roundEven_near num hd
  have hscale : ∀ k : Nat, |(num : ℚ) - k * den| = |(k : ℚ) - num / den| * den := by
    intro k
    rw [← abs_of_pos hd', ← abs_mul, abs_of_pos hd', sub_mul, div_mul_cancel₀ _ hd'.ne',
      abs_sub_comm]
  have hhalf : |(roundEven num den : ℚ) - num / den| ≤ 1 / 2 := by
    have hup' : 2 * ((roundEven num den : ℚ) * den) ≤ 2 * num + den := by exact_mod_cast hup
    have hdown' : 2 * (num : ℚ) ≤ 2 * (roundEven num den * den) + den := by exact_mod_cast hdown
    refine le_of_mul_le_mul_right ?_ hd'
    rw [← hscale, abs_le]
    constructor
    · linarith
    · linarith
  rw [hscale, hscale, mul_lt_mul_iff_left₀ hd', mul_left_inj' hd'.ne']
  refine (abs_sub_lt_or_eq_half hhalf hn).imp_right fun ⟨heq, hdist⟩ => ⟨heq, even_roundEven ?_⟩
  -- half way between two numbers the remainder is half of the divisor
  have htie : 2 * (roundEven num den * den) = 2 * num + den ∨
      2 * num = 2 * (roundEven num den * den) + den := by
    have habs := hscale (roundEven num den)
    rw [hdist] at habs
    rcases abs_cases ((num : ℚ) - roundEven num den * den) with ⟨hcase, -⟩ | ⟨hcase, -⟩
    · right
      have htwice : 2 * (num : ℚ) = 2 * (roundEven num den * den) + den := by linarith
      exact_mod_cast htwice
    · left
      have htwice : 2 * ((roundEven num den : ℚ) * den) = 2 * num + den := by linarith
      exact_mod_cast htwice
  have hq := Nat.div_add_mod' num den
  have hr := Nat.mod_lt num hd
  have hlow := le_roundEven num den
  rcases Nat.lt_or_eq_of_le (roundEven_le num den) with hlt | hnext
  · have hsame : roundEven num den = num / den := by omega
    rw [hsame] at htie
    omega
  · rw [hnext, Nat.add_mul, Nat.one_mul] at htie
    omega

namespace Magnitude

variable {m : Magnitude} {drop n c : Nat} {d e : Decimal}

/-! ### The specification -/

/-- One decimal is nearer to the exact value than another, or as near and even. -/
def Outdoes (m : Magnitude) (d e : Decimal) : Prop :=
  |m.value - d.value| < |m.value - e.value| ∨
    |m.value - d.value| = |m.value - e.value| ∧ d.coefficient % 2 = 0

/-- **The shortest decimal of a magnitude.**  Of the decimals that read back it has the fewest
digits, and outdoes all others with as many. -/
structure IsShortest (m : Magnitude) (d : Decimal) : Prop where
  readsBack : m.ReadsBack d
  fewest : ∀ e, m.ReadsBack e → d.digits.length ≤ e.digits.length
  nearest : ∀ e, m.ReadsBack e → e.digits.length = d.digits.length → e.value ≠ d.value →
    m.Outdoes d e

/-- What is outdone by a decimal that another one outdoes, or is, is outdone by that one. -/
theorem Outdoes.trans_lt {f : Decimal} (h : e.value = d.value ∨ m.Outdoes d e)
    (hlt : |m.value - e.value| < |m.value - f.value|) : m.Outdoes d f := by
  rcases h with heq | hless | ⟨heq, -⟩
  · rw [heq] at hlt
    exact .inl hlt
  · exact .inl (hless.trans hlt)
  · exact .inl (heq.trans_lt hlt)

/-! ### What is found on a grid -/

/-- The distance of a grid point, on the scale on which the exact coefficient is. -/
theorem abs_sub_gridPoint (m : Magnitude) (drop n : Nat) :
    |m.value - (m.gridPoint drop n).value| =
      |(m.exact.coefficient : ℚ) - n * (10 ^ drop : Nat)| / 10 ^ unitPlaces := by
  have hpos : (0 : ℚ) < 10 ^ unitPlaces := by positivity
  rw [value_gridPoint, value_eq_coefficient, ← sub_div, abs_div, abs_of_pos hpos, Nat.cast_mul]

theorem value_gridPoint_lt {k : Nat} (h : k < n) :
    (m.gridPoint drop k).value < (m.gridPoint drop n).value := by
  rw [value_gridPoint, value_gridPoint, div_lt_div_iff_of_pos_right (by positivity), Nat.cast_lt]
  exact Nat.mul_lt_mul_of_pos_right h (Nat.pow_pos (by omega))

/-- Of two candidates the second is found only if the first fails. -/
theorem eq_of_find?_pair {p : Decimal → Bool} {first second : Decimal}
    (h : [first, second].find? p = some d) : d = first ∨ p first = false ∧ d = second := by
  cases hfirst : p first with
  | true =>
      rw [List.find?_cons_of_pos hfirst] at h
      exact .inl (Option.some.inj h).symm
  | false =>
      rw [List.find?_cons_of_neg (by rw [hfirst]; exact Bool.false_ne_true)] at h
      exact .inr ⟨rfl, List.mem_singleton.1 (List.mem_of_find?_eq_some h)⟩

/-- The neighbour that is tried if the nearest point of a grid does not read back. -/
def otherNeighbour (m : Magnitude) (drop : Nat) : Nat :=
  if roundEven m.exact.coefficient (10 ^ drop) = m.exact.coefficient / 10 ^ drop then
    m.exact.coefficient / 10 ^ drop + 1
  else m.exact.coefficient / 10 ^ drop

theorem onGrid?_eq (m : Magnitude) (drop : Nat) :
    m.onGrid? drop = [m.gridPoint drop (roundEven m.exact.coefficient (10 ^ drop)),
      m.gridPoint drop (m.otherNeighbour drop)].find? fun x => decide (m.ReadsBack x) := by
  unfold onGrid? otherNeighbour gridPoint
  dsimp only
  rw [List.map_cons, List.map_cons, List.map_nil]

/-- On a grid the nearest point is found, or the other neighbour if the nearest one does not read
back. -/
theorem onGrid?_cases (h : m.onGrid? drop = some d) :
    d = m.gridPoint drop (roundEven m.exact.coefficient (10 ^ drop)) ∨
      ¬ m.ReadsBack (m.gridPoint drop (roundEven m.exact.coefficient (10 ^ drop))) ∧
        d = m.gridPoint drop (m.otherNeighbour drop) := by
  rw [onGrid?_eq] at h
  exact (eq_of_find?_pair h).imp_right fun hother => ⟨of_decide_eq_false hother.1, hother.2⟩

/-- **What is found on a grid** is nearer than any other point of the grid that reads back, or as
near and even.  If the nearest point does not read back, then no point on its side does. -/
theorem onGrid?_competitor (h : m.onGrid? drop = some d) (hn : m.ReadsBack (m.gridPoint drop n)) :
    (m.gridPoint drop n).value = d.value ∨ m.Outdoes d (m.gridPoint drop n) := by
  have hpos : 0 < 10 ^ drop := Nat.pow_pos (by omega)
  have hscale : (0 : ℚ) < 10 ^ unitPlaces := by positivity
  rcases onGrid?_cases h with rfl | ⟨hnot, rfl⟩
  · by_cases heq : n = roundEven m.exact.coefficient (10 ^ drop)
    · exact .inl (by rw [heq])
    · rw [Outdoes, abs_sub_gridPoint, abs_sub_gridPoint, div_lt_div_iff_of_pos_right hscale,
        div_left_inj' hscale.ne']
      exact .inr (roundEven_competitor hpos heq)
  · have hlow := le_roundEven m.exact.coefficient (10 ^ drop)
    have hhigh := roundEven_le m.exact.coefficient (10 ^ drop)
    have hfloor := Nat.div_mul_le_self m.exact.coefficient (10 ^ drop)
    have hceil := Nat.lt_mul_div_succ m.exact.coefficient hpos
    rw [Nat.mul_comm] at hceil
    unfold otherNeighbour
    generalize m.exact.coefficient / 10 ^ drop = below at *
    generalize roundEven m.exact.coefficient (10 ^ drop) = near at *
    by_cases hnear : near = below
    · -- the nearest point is the lower neighbour, so that what reads back is above it
      subst hnear
      rw [if_pos rfl]
      have hexact : near + 1 ≤ n := by
        refine Nat.lt_of_not_le fun hle => hnot (hn.of_between m.readsBack_exact ?_ ?_)
        · exact value_gridPoint_mono hle
        · rw [value_exact, value_gridPoint_le_iff]
          exact hfloor
      rcases Nat.lt_or_eq_of_le hexact with hlt | rfl
      · refine .inr (.inl (abs_sub_lt_of_le_of_lt (le_value_gridPoint_iff.2 hceil.le) ?_))
        exact value_gridPoint_lt hlt
      · exact .inl rfl
    · -- it is the upper one, and what reads back is below it
      have hnext : near = below + 1 := by omega
      subst hnext
      rw [if_neg hnear]
      have hexact : n ≤ below := by
        refine Nat.lt_succ_iff.1 (Nat.lt_of_not_le fun hle =>
          hnot (m.readsBack_exact.of_between hn ?_ ?_))
        · rw [value_exact, le_value_gridPoint_iff]
          exact hceil.le
        · exact value_gridPoint_mono hle
      rcases Nat.lt_or_eq_of_le hexact with hlt | rfl
      · refine .inr (.inl (abs_sub_lt_of_lt_of_le ?_ (value_gridPoint_le_iff.2 hfloor)))
        exact value_gridPoint_lt hlt
      · exact .inl rfl

/-! ### The first grid -/

/-- The search ends on the first grid that has a point to read back. -/
theorem exists_first_grid (h : m.units ≠ 0) :
    ∃ kept ≤ maxDigits, m.onGrid? (m.exact.digits.length - kept) = some m.shortest ∧
      ∀ fewer < kept, ∀ n, ¬ m.ReadsBack (m.gridPoint (m.exact.digits.length - fewer) n) := by
  classical
  have hex : ∃ kept, kept ≤ maxDigits ∧
      (m.onGrid? (m.exact.digits.length - kept)).isSome = true :=
    ⟨maxDigits, Nat.le_refl _, isSome_onGrid?_maxDigits h⟩
  obtain ⟨hle, hsome⟩ := Nat.find_spec hex
  obtain ⟨kept, hkept, hshortest⟩ := exists_onGrid?_of_isSome hle hsome
  refine ⟨kept, Nat.le_trans hkept hle, hshortest, fun fewer hfewer n hn => ?_⟩
  exact Nat.find_min hex (Nat.lt_of_lt_of_le hfewer hkept)
    ⟨Nat.le_trans (Nat.le_of_lt hfewer) (Nat.le_trans hkept hle), isSome_onGrid? hn⟩

/-! ### The decade of the exact value -/

/-- The power of ten at or below the exact value is a point of every grid that keeps a digit. -/
theorem value_gridPoint_low {kept : Nat} (hpos : 0 < kept)
    (hle : kept ≤ m.exact.digits.length) :
    (m.gridPoint (m.exact.digits.length - kept) (10 ^ (kept - 1))).value =
      (10 : ℚ) ^ m.exact.leadingExponent := by
  rw [gridPoint, Decimal.value_mk_pow, Decimal.leadingExponent]
  congr 1
  omega

/-- The next power of ten is a point of every grid. -/
theorem value_gridPoint_high {kept : Nat} (hle : kept ≤ m.exact.digits.length) :
    (m.gridPoint (m.exact.digits.length - kept) (10 ^ kept)).value =
      (10 : ℚ) ^ (m.exact.leadingExponent + 1) := by
  rw [gridPoint, Decimal.value_mk_pow, Decimal.leadingExponent]
  congr 1
  omega

theorem zpow_le_value (h : m.units ≠ 0) : (10 : ℚ) ^ m.exact.leadingExponent ≤ m.value := by
  have hle := Decimal.zpow_leadingExponent_le (exact_coefficient_ne_zero h)
  rwa [value_exact] at hle

theorem value_lt_zpow (m : Magnitude) : m.value < (10 : ℚ) ^ (m.exact.leadingExponent + 1) := by
  have hlt := m.exact.lt_zpow_leadingExponent
  rwa [value_exact] at hlt

/-- **In the decade of the exact value** every decimal is a point of the grid that keeps its
digits. -/
theorem eq_gridPoint_of_decade (hlen : e.digits.length ≤ m.exact.digits.length)
    (hlow : (10 : ℚ) ^ m.exact.leadingExponent ≤ e.value)
    (hhigh : e.value < (10 : ℚ) ^ (m.exact.leadingExponent + 1)) :
    e = m.gridPoint (m.exact.digits.length - e.digits.length) e.coefficient := by
  have hexp := Decimal.leadingExponent_eq hlow hhigh
  have hsame : e.exponent =
      m.exact.exponent + ((m.exact.digits.length - e.digits.length : Nat) : Int) := by
    unfold Decimal.leadingExponent at hexp
    omega
  rw [gridPoint, ← hsame]

/-- **The first grid keeps no more digits** than any decimal that reads back.  Outside the decade
the power of ten between it and the exact value is on the grids of one digit or none. -/
theorem kept_le_length {kept : Nat} (h : m.units ≠ 0) (hle : kept ≤ m.exact.digits.length)
    (hfirst : ∀ fewer < kept, ∀ n,
      ¬ m.ReadsBack (m.gridPoint (m.exact.digits.length - fewer) n))
    (he : m.ReadsBack e) : kept ≤ e.digits.length := by
  by_contra hlt
  have hpos := e.length_digits_pos
  rcases lt_or_ge e.value ((10 : ℚ) ^ m.exact.leadingExponent) with hbelow | hlow
  · have hone := value_gridPoint_low (m := m) Nat.one_pos (by omega)
    refine hfirst 1 (by omega) (10 ^ (1 - 1)) (he.of_between m.readsBack_exact ?_ ?_)
    · rw [hone]
      exact hbelow.le
    · rw [hone, value_exact]
      exact zpow_le_value h
  · rcases lt_or_ge e.value ((10 : ℚ) ^ (m.exact.leadingExponent + 1)) with hhigh | habove
    · refine hfirst e.digits.length (by omega) e.coefficient ?_
      rw [← eq_gridPoint_of_decade (by omega) hlow hhigh]
      exact he
    · have hnone := value_gridPoint_high (m := m) (Nat.zero_le _)
      refine hfirst 0 (by omega) (10 ^ 0) (m.readsBack_exact.of_between he ?_ ?_)
      · rw [hnone, value_exact]
        exact m.value_lt_zpow.le
      · rw [hnone]
        exact habove

/-- What is found on a grid is at most the power of ten above the exact value. -/
theorem coefficient_le_of_onGrid? {kept : Nat} (hle : kept ≤ m.exact.digits.length)
    (hd : m.onGrid? (m.exact.digits.length - kept) = some d) : d.coefficient ≤ 10 ^ kept := by
  have hbelow : m.exact.coefficient / 10 ^ (m.exact.digits.length - kept) < 10 ^ kept := by
    rw [Nat.div_lt_iff_lt_mul (Nat.pow_pos (by omega)), ← Nat.pow_add, Nat.add_sub_cancel' hle]
    exact m.exact.coefficient_lt
  rcases onGrid?_cases hd with rfl | ⟨-, rfl⟩
  · exact Nat.le_trans (roundEven_le _ _) hbelow
  · refine Nat.le_trans ?_ hbelow
    unfold gridPoint otherNeighbour
    dsimp only
    split
    · exact Nat.le_refl _
    · omega

/-- What is found on the first grid has no more digits than the grid keeps. -/
theorem length_le_kept {kept : Nat} (hle : kept ≤ m.exact.digits.length)
    (hfirst : ∀ fewer < kept, ∀ n,
      ¬ m.ReadsBack (m.gridPoint (m.exact.digits.length - fewer) n))
    (hd : m.onGrid? (m.exact.digits.length - kept) = some d) :
    d.digits.length ≤ max kept 1 := by
  have hback := readsBack_of_onGrid? hd
  rcases Nat.lt_or_eq_of_le (coefficient_le_of_onGrid? hle hd) with hlt | heq
  · exact (Nat.length_toDigits_le_iff (b := 10) (by omega) (by omega)).2
      (Nat.lt_of_lt_of_le hlt (Nat.pow_le_pow_right (by omega) (by omega)))
  · rcases Nat.eq_zero_or_pos kept with rfl | hpos
    · have hone : d.digits = ['1'] := by
        rw [Decimal.digits, heq]
        rfl
      rw [hone]
      exact Nat.le_refl _
    · -- the end of the grid is the power of ten, which is a point of the grid before all others
      obtain ⟨n, rfl⟩ := exists_gridPoint_of_onGrid? hd
      have hn : n = 10 ^ kept := heq
      rw [hn] at hback
      refine absurd (hback.of_value_eq ?_) (hfirst 0 hpos (10 ^ 0))
      rw [value_gridPoint_high hle, value_gridPoint_high (Nat.zero_le _)]

/-! ### The power of ten above the exact value -/

/-- Reading a decimal moves it by half the spacing at most. -/
theorem ReadsBack.abs_units_sub_le (h : m.ReadsBack d) :
    |(m.units : ℚ) - d.value * unitsPerOne| ≤ spacing ⌊d.value * unitsPerOne⌋₊ / 2 := by
  have hnear := nearestUnits_near (d.numerator * unitsPerOne) d.denominator_pos
  rw [← Decimal.value_mul_units, ← Decimal.floor_value_mul_units, h] at hnear
  exact hnear

/-- The spacing is one unit, or as small as the format allows. -/
theorem spacing_cases (n : Nat) : spacing n = 1 ∨ 2 ^ fractionBits * spacing n ≤ n := by
  unfold spacing
  rcases Nat.lt_or_ge n.log2 fractionBits with hlt | hge
  · left
    rw [Nat.sub_eq_zero_of_le (Nat.le_of_lt hlt), Nat.pow_zero]
  · right
    have hne : n ≠ 0 := by
      rintro rfl
      exact absurd hge (by decide)
    rw [← Nat.pow_add, Nat.add_sub_cancel' hge]
    exact Nat.log2_self_le hne

/-- A nine and the power of ten above it are read as the same magnitude only if that is small. -/
theorem units_le_ten {nine : Decimal} {t : Int} (h9 : m.ReadsBack nine) (hd : m.ReadsBack d)
    (hnine : nine.value = 9 * (10 : ℚ) ^ t) (hvalue : d.value = (10 : ℚ) ^ (t + 1)) :
    m.units ≤ 10 := by
  have hp : (0 : ℚ) < (10 : ℚ) ^ t * unitsPerOne := mul_pos (by positivity) unitsPerOne_pos'
  have hlow := h9.abs_units_sub_le
  have hhigh := hd.abs_units_sub_le
  have h9p : nine.value * unitsPerOne = 9 * ((10 : ℚ) ^ t * unitsPerOne) := by
    rw [hnine, mul_assoc]
  have h10p : d.value * unitsPerOne = 10 * ((10 : ℚ) ^ t * unitsPerOne) := by
    rw [hvalue, zpow_add_one₀ (by norm_num)]
    ring
  rw [h9p] at hlow
  rw [h10p] at hhigh
  generalize (10 : ℚ) ^ t * unitsPerOne = p at *
  have hmono : (spacing ⌊9 * p⌋₊ : ℚ) ≤ spacing ⌊10 * p⌋₊ := by
    have hfloor : ⌊9 * p⌋₊ ≤ ⌊10 * p⌋₊ := Nat.floor_le_floor (by linarith)
    exact_mod_cast Nat.le_of_dvd (spacing_pos _) (spacing_dvd_spacing hfloor)
  obtain ⟨-, hup⟩ := abs_le.1 hlow
  obtain ⟨hdown, hup'⟩ := abs_le.1 hhigh
  have hstep : p ≤ spacing ⌊10 * p⌋₊ := by linarith
  have hone : (spacing ⌊10 * p⌋₊ : ℚ) = 1 := by
    rcases spacing_cases ⌊10 * p⌋₊ with hone | hlarge
    · rw [hone, Nat.cast_one]
    · have hle : ((2 ^ fractionBits * spacing ⌊10 * p⌋₊ : Nat) : ℚ) ≤ 10 * p :=
        le_trans (by exact_mod_cast hlarge) (Nat.floor_le (by linarith))
      rw [fractionBits] at hle
      push_cast at hle
      linarith
  rw [hone] at hup' hstep
  have hlt : (m.units : ℚ) < (11 : Nat) := by
    push_cast
    linarith
  exact Nat.lt_succ_iff.1 (by exact_mod_cast hlt)

/-- Of these magnitudes only those close to the power of ten are read from it. -/
theorem close_of_small : ∀ units < 11, units ≠ 0 →
    let exact : Decimal := ⟨units * 5 ^ unitPlaces, -unitPlaces⟩
    Decimal.readUnits ⟨1, exact.leadingExponent + 1⟩ = units →
      19 * 10 ^ (exact.digits.length - 1) < 2 * exact.coefficient := by
  decide +kernel

/-- A decimal of one digit below a power of ten is a nine at most. -/
theorem le_nine_of_one_digit {t : Int} (hne : e.coefficient ≠ 0) (hlength : e.digits.length ≤ 1)
    (hlt : e.value < (10 : ℚ) ^ (t + 1)) : e.value ≤ 9 * (10 : ℚ) ^ t := by
  have hten : (1 : ℚ) < 10 := by norm_num
  have hcoef : e.coefficient ≤ 9 := by
    have hdigits := e.coefficient_lt
    have hpow := Nat.pow_le_pow_right (by omega : 0 < 10) hlength
    omega
  have hexp : e.exponent ≤ t := by
    have hpos := e.length_digits_pos
    have hlead := (zpow_lt_zpow_iff_right₀ hten).1
      ((Decimal.zpow_leadingExponent_le hne).trans_lt hlt)
    unfold Decimal.leadingExponent at hlead
    omega
  have hcoef' : (e.coefficient : ℚ) ≤ 9 := by exact_mod_cast hcoef
  exact mul_le_mul hcoef' (zpow_le_zpow_right₀ hten.le hexp) (by positivity) (by norm_num)

/-- A small exact value that is read from the power of ten above it is close to that. -/
theorem close_of_readsBack (h : m.units ≠ 0) (hsmall : m.units ≤ 10) (hd : m.ReadsBack d)
    (hvalue : d.value = (10 : ℚ) ^ (m.exact.leadingExponent + 1)) :
    19 * (10 : ℚ) ^ m.exact.leadingExponent < 2 * m.value := by
  have hread : Decimal.readUnits ⟨1, m.exact.leadingExponent + 1⟩ = m.units := by
    refine hd.of_value_eq ?_
    rw [hvalue, Decimal.value, Nat.cast_one, one_mul]
  have hcheck : 19 * 10 ^ (m.exact.digits.length - 1) < 2 * m.exact.coefficient :=
    close_of_small m.units (by omega) h hread
  have hcheck' : 19 * (10 : ℚ) ^ (m.exact.digits.length - 1) < 2 * m.exact.coefficient := by
    exact_mod_cast hcheck
  have hlow := value_gridPoint_low (m := m) Nat.one_pos m.exact.length_digits_pos
  rw [value_gridPoint] at hlow
  rw [← hlow, value_eq_coefficient, mul_div_assoc', mul_div_assoc',
    div_lt_div_iff_of_pos_right (by positivity)]
  push_cast
  rwa [one_mul]

/-- **The power of ten above the exact value** outdoes any other decimal of one digit. -/
theorem abs_sub_lt_of_one_digit (h : m.units ≠ 0) (hd : m.ReadsBack d)
    (hvalue : d.value = (10 : ℚ) ^ (m.exact.leadingExponent + 1)) (he : m.ReadsBack e)
    (hlength : e.digits.length ≤ 1) (hlt : e.value < (10 : ℚ) ^ (m.exact.leadingExponent + 1)) :
    |m.value - d.value| < |m.value - e.value| := by
  have hnine := le_nine_of_one_digit (he.coefficient_ne_zero h) hlength hlt
  have hsmall : m.units ≤ 10 := by
    have hvalue9 : Decimal.value ⟨9, m.exact.leadingExponent⟩ =
        9 * (10 : ℚ) ^ m.exact.leadingExponent := by
      rw [Decimal.value, Nat.cast_ofNat]
    refine units_le_ten (he.of_between hd ?_ ?_) hd hvalue9 hvalue
    · rw [hvalue9]
      exact hnine
    · rw [hvalue9, hvalue, zpow_add_one₀ (by norm_num)]
      have hp : (0 : ℚ) < (10 : ℚ) ^ m.exact.leadingExponent := by positivity
      linarith
  have hclose := close_of_readsBack h hsmall hd hvalue
  have hup := m.value_lt_zpow
  rw [hvalue, zpow_add_one₀ (by norm_num)] at *
  rw [abs_sub_comm, abs_of_nonneg (by linarith), abs_of_nonneg (by linarith)]
  linarith

/-- The grid that keeps no digit has no other point to be found. -/
theorem value_of_onGrid?_zero (h : m.units ≠ 0)
    (hd : m.onGrid? (m.exact.digits.length - 0) = some d) :
    d.value = (10 : ℚ) ^ (m.exact.leadingExponent + 1) := by
  have hle := coefficient_le_of_onGrid? (Nat.zero_le _) hd
  have hne := (readsBack_of_onGrid? hd).coefficient_ne_zero h
  obtain ⟨n, rfl⟩ := exists_gridPoint_of_onGrid? hd
  have hn : n = 10 ^ 0 := Nat.le_antisymm hle (Nat.pos_of_ne_zero hne)
  rw [hn, value_gridPoint_high (Nat.zero_le _)]

/-! ### The search -/

/-- What is found on a grid outdoes the other points of the grid, and what is farther away than one
of them. -/
theorem outdoes_of_gridPoint (hd : m.onGrid? drop = some d) (hn : m.ReadsBack (m.gridPoint drop n))
    (hne : e.value ≠ d.value)
    (hclose : e.value = (m.gridPoint drop n).value ∨
      |m.value - (m.gridPoint drop n).value| < |m.value - e.value|) : m.Outdoes d e := by
  rcases hclose with heq | hlt
  · rcases onGrid?_competitor hd hn with hsame | hless
    · exact absurd (heq.trans hsame) hne
    · rwa [Outdoes, ← heq] at hless
  · exact Outdoes.trans_lt (onGrid?_competitor hd hn) hlt

/-- The shortest decimal outdoes all others with as many digits. -/
theorem shortest_outdoes (h : m.units ≠ 0) (he : m.ReadsBack e)
    (hlength : e.digits.length = m.shortest.digits.length) (hne : e.value ≠ m.shortest.value) :
    m.Outdoes m.shortest e := by
  obtain ⟨kept, hmax, hgrid, hfirst⟩ := exists_first_grid h
  have hle : kept ≤ m.exact.digits.length := Nat.le_trans hmax (maxDigits_lt_length h).le
  have hlow := zpow_le_value h
  have hhigh := m.value_lt_zpow
  have hkept := kept_le_length h hle hfirst he
  have hshort := length_le_kept hle hfirst hgrid
  rcases lt_or_ge e.value ((10 : ℚ) ^ (m.exact.leadingExponent + 1)) with hbelow | habove
  · rcases Nat.eq_zero_or_pos kept with rfl | hpos
    · exact .inl (abs_sub_lt_of_one_digit h m.readsBack_shortest (value_of_onGrid?_zero h hgrid) he
        (by omega) hbelow)
    · rcases lt_or_ge e.value ((10 : ℚ) ^ m.exact.leadingExponent) with hunder | hin
      · -- below the decade: the power of ten at its beginning is nearer
        have hval := value_gridPoint_low hpos hle
        refine outdoes_of_gridPoint (n := 10 ^ (kept - 1)) hgrid
          (he.of_between m.readsBack_exact ?_ ?_) hne (.inr ?_)
        · rw [hval]
          exact hunder.le
        · rw [hval, value_exact]
          exact hlow
        · rw [hval]
          exact abs_sub_lt_of_lt_of_le hunder hlow
      · -- in the decade: a point of the same grid
        have hsame : e.digits.length = kept := by omega
        have hpoint := eq_gridPoint_of_decade (by omega) hin hbelow
        rw [hsame] at hpoint
        exact outdoes_of_gridPoint hgrid (hpoint ▸ he) hne (.inl (congrArg Decimal.value hpoint))
  · -- above the decade: the power of ten at its end is nearer, or is the decimal
    have hval := value_gridPoint_high hle
    refine outdoes_of_gridPoint (n := 10 ^ kept) hgrid
      (m.readsBack_exact.of_between he ?_ ?_) hne ?_
    · rw [hval, value_exact]
      exact hhigh.le
    · rw [hval]
      exact habove
    · rw [hval]
      rcases lt_or_eq_of_le habove with hlt | heq
      · exact .inr (abs_sub_lt_of_le_of_lt hhigh.le hlt)
      · exact .inl heq.symm

/-- **The search finds the shortest decimal.** -/
theorem isShortest_shortest (h : m.units ≠ 0) : m.IsShortest m.shortest where
  readsBack := m.readsBack_shortest
  fewest := by
    intro e he
    obtain ⟨kept, hmax, hgrid, hfirst⟩ := exists_first_grid h
    have hle : kept ≤ m.exact.digits.length := Nat.le_trans hmax (maxDigits_lt_length h).le
    have hkept := kept_le_length h hle hfirst he
    have hshort := length_le_kept hle hfirst hgrid
    have hpos := e.length_digits_pos
    omega
  nearest := fun _ he hlength hne => shortest_outdoes h he hlength hne

/-! ### There is only one -/

/-- Seventeen digits are the most that the shortest decimal has. -/
theorem length_digits_shortest_le (h : m.units ≠ 0) : m.shortest.digits.length ≤ maxDigits := by
  obtain ⟨kept, hmax, hgrid, hfirst⟩ := exists_first_grid h
  have hle : kept ≤ m.exact.digits.length := Nat.le_trans hmax (maxDigits_lt_length h).le
  have hshort := length_le_kept hle hfirst hgrid
  have hone : 1 ≤ maxDigits := by decide
  omega

theorem IsShortest.length_le (hd : m.IsShortest d) (h : m.units ≠ 0) :
    d.digits.length ≤ maxDigits :=
  Nat.le_trans (hd.fewest _ m.readsBack_shortest) (length_digits_shortest_le h)

theorem IsShortest.length_eq (hd : m.IsShortest d) (he : m.IsShortest e) :
    d.digits.length = e.digits.length :=
  Nat.le_antisymm (hd.fewest _ he.readsBack) (he.fewest _ hd.readsBack)

/-- Two shortest decimals would be even, and the exact value half way between them. -/
theorem IsShortest.tie (hd : m.IsShortest d) (he : m.IsShortest e) (hlt : d.value < e.value) :
    m.value - d.value = e.value - m.value ∧ d.coefficient % 2 = 0 ∧ e.coefficient % 2 = 0 := by
  have hlength := hd.length_eq he
  rcases hd.nearest e he.readsBack hlength.symm hlt.ne' with hless | ⟨heq, hdeven⟩
  · rcases he.nearest d hd.readsBack hlength hlt.ne with hless' | ⟨heq', -⟩
    · exact absurd hless hless'.not_gt
    · exact absurd heq'.symm hless.ne
  · rcases he.nearest d hd.readsBack hlength hlt.ne with hless' | ⟨-, heeven⟩
    · exact absurd heq hless'.ne'
    · refine ⟨?_, hdeven, heeven⟩
      rcases abs_eq_abs.1 heq with hsame | hopposite
      · exact absurd (by linarith) hlt.ne
      · linarith

/-- No decimal with as many digits would be between them, because it would be nearer. -/
theorem IsShortest.not_between (hd : m.IsShortest d) (he : m.IsShortest e) {f : Decimal}
    (hf : f.digits.length = d.digits.length) (hlow : d.value < f.value) : ¬ f.value < e.value := by
  intro hhigh
  obtain ⟨hmid, -, -⟩ := hd.tie he (hlow.trans hhigh)
  have hnear : |m.value - f.value| < |m.value - d.value| := by
    rw [abs_of_pos (show 0 < m.value - d.value by linarith), abs_lt]
    constructor
    · linarith
    · linarith
  rcases hd.nearest f (hd.readsBack.of_between he.readsBack hlow.le hhigh.le) hf hlow.ne'
    with hless | ⟨heq, -⟩
  · exact absurd hnear hless.not_gt
  · exact absurd heq hnear.ne'

/-- They would be on the same grid.  Otherwise the power of ten at the upper one is between them, or
is the upper one, which is not even then. -/
theorem IsShortest.exponent_eq (hd : m.IsShortest d) (he : m.IsShortest e)
    (hlt : d.value < e.value) (h : m.units ≠ 0) : d.exponent = e.exponent := by
  have hlength := hd.length_eq he
  have hpos := d.length_digits_pos
  have hten : (1 : ℚ) < 10 := by norm_num
  have hle : d.exponent ≤ e.exponent := by
    have hpow := (Decimal.zpow_leadingExponent_le (hd.readsBack.coefficient_ne_zero h)).trans_lt
      (hlt.trans e.lt_zpow_leadingExponent)
    have hlead := (zpow_lt_zpow_iff_right₀ hten).1 hpow
    unfold Decimal.leadingExponent at hlead
    omega
  refine le_antisymm hle (not_lt.1 fun hless => ?_)
  let power : Decimal := ⟨10 ^ (e.digits.length - 1), e.exponent⟩
  have hpower : power.value = (10 : ℚ) ^ e.leadingExponent := by
    rw [Decimal.value_mk_pow, Decimal.leadingExponent]
    congr 1
    omega
  have hlow : d.value < power.value := by
    rw [hpower]
    refine d.lt_zpow_leadingExponent.trans_le (zpow_le_zpow_right₀ hten.le ?_)
    unfold Decimal.leadingExponent
    omega
  have hcount : power.digits.length = d.digits.length := by
    refine Decimal.length_digits_eq hpos ?_ ?_
    · rw [hlength]
    · rw [hlength]
      exact Nat.pow_lt_pow_right (by omega) (by omega)
  have hupper := Decimal.zpow_leadingExponent_le (he.readsBack.coefficient_ne_zero h)
  rw [← hpower] at hupper
  have hsame : power.value = e.value :=
    le_antisymm hupper (not_lt.1 (hd.not_between he hcount hlow))
  have hone : e.digits.length = 1 := by
    have hdigit : (Decimal.digits ⟨1, e.leadingExponent⟩).length = 1 :=
      Decimal.length_digits_eq Nat.one_pos (Nat.le_refl 1) (show 1 < 10 ^ 1 by decide)
    have hfew := he.fewest ⟨1, e.leadingExponent⟩ (he.readsBack.of_value_eq (by
      rw [← hsame, hpower, Decimal.value, Nat.cast_one, one_mul]))
    omega
  have hcoef : e.coefficient = 1 := by
    have hcast : ((10 ^ (e.digits.length - 1) : Nat) : ℚ) = e.coefficient :=
      mul_right_cancel₀ (by positivity) hsame
    rw [hone] at hcast
    exact_mod_cast hcast.symm
  obtain ⟨-, -, heven⟩ := hd.tie he hlt
  omega

/-- Then the coefficient after the lower one would be between them. -/
theorem IsShortest.value_not_lt (hd : m.IsShortest d) (he : m.IsShortest e) (h : m.units ≠ 0) :
    ¬ d.value < e.value := by
  intro hlt
  obtain ⟨-, hdeven, heeven⟩ := hd.tie he hlt
  have heq := hd.exponent_eq he hlt h
  have hp : (0 : ℚ) < (10 : ℚ) ^ d.exponent := by positivity
  have hcoef : d.coefficient < e.coefficient := by
    unfold Decimal.value at hlt
    rw [← heq] at hlt
    exact_mod_cast lt_of_mul_lt_mul_right hlt hp.le
  have hlow : d.value < Decimal.value ⟨d.coefficient + 1, d.exponent⟩ := by
    refine mul_lt_mul_of_pos_right ?_ hp
    push_cast
    linarith
  refine hd.not_between he (Decimal.length_digits_eq d.length_digits_pos ?_ ?_) hlow ?_
  · exact Nat.le_succ_of_le (Decimal.le_coefficient (hd.readsBack.coefficient_ne_zero h))
  · have hhigh := e.coefficient_lt
    rw [← hd.length_eq he] at hhigh
    exact Nat.lt_of_le_of_lt hcoef hhigh
  · rw [Decimal.value, Decimal.value, ← heq]
    refine mul_lt_mul_of_pos_right ?_ hp
    have hgap : d.coefficient + 1 < e.coefficient := by omega
    exact_mod_cast hgap

/-- **There is only one shortest decimal**, as a number. -/
theorem IsShortest.value_eq (hd : m.IsShortest d) (he : m.IsShortest e) (h : m.units ≠ 0) :
    d.value = e.value :=
  le_antisymm (not_lt.1 (he.value_not_lt hd h)) (not_lt.1 (hd.value_not_lt he h))

end Magnitude

end Calculator
