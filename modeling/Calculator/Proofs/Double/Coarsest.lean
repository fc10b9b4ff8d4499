/-
**The coarsest grid that reads back.**

The search for the shortest decimal tries a grid by its two points around the exact value.  These
are enough: if any point of a grid reads back, one of the two does, because the decimals that read
back are an interval.  So the search ends on the coarsest grid that has a point to read back, and it
does end, because every grid with seventeen digits has one.

Main results:

* `Calculator.Magnitude.isSome_onGrid?` — **a grid is searched completely by two points**;
* `Calculator.Magnitude.isSome_onGrid?_maxDigits` — **seventeen digits suffice**;
* `Calculator.Magnitude.exists_onGrid?_shortest` — the shortest decimal is on a grid of at most
  seventeen digits, and on no finer one than is needed;
* `Calculator.Magnitude.hasPlaces_shortest` — if a decimal with so many places reads back, the
  shortest one has no more.
-/

import Calculator.Proofs.Double.Reading

set_option relaxedAutoImplicit false
set_option autoImplicit false

namespace Calculator.Magnitude

attribute [local instance (high)] instPowNat

variable {m : Magnitude} {drop n : Nat} {d : Decimal}

/-! ### Grids -/

/-- The grid points of one grid. -/
def gridPoint (m : Magnitude) (drop n : Nat) : Decimal := ⟨n, m.exact.exponent + drop⟩

/-- The value of a grid point, on the scale on which the exact coefficient is. -/
theorem value_gridPoint (m : Magnitude) (drop n : Nat) :
    (m.gridPoint drop n).value = ((n * 10 ^ drop : Nat) : ℚ) / 10 ^ unitPlaces := by
  have he : (m.gridPoint drop n).exponent = drop - (unitPlaces : Int) := by
    show -(unitPlaces : Int) + drop = _
    omega
  rw [Decimal.value, he, zpow_sub₀ (by norm_num), zpow_natCast, zpow_natCast, gridPoint]
  push_cast
  ring

/-- The exact value on the same scale. -/
theorem value_eq_coefficient (m : Magnitude) :
    m.value = (m.exact.coefficient : ℚ) / 10 ^ unitPlaces := by
  rw [← m.value_exact, exact, Decimal.value_mk_neg]

theorem value_gridPoint_le_iff :
    (m.gridPoint drop n).value ≤ m.value ↔ n * 10 ^ drop ≤ m.exact.coefficient := by
  rw [value_gridPoint, value_eq_coefficient, div_le_div_iff_of_pos_right (by positivity),
    Nat.cast_le]

theorem le_value_gridPoint_iff :
    m.value ≤ (m.gridPoint drop n).value ↔ m.exact.coefficient ≤ n * 10 ^ drop := by
  rw [value_gridPoint, value_eq_coefficient, div_le_div_iff_of_pos_right (by positivity),
    Nat.cast_le]

theorem value_gridPoint_mono {n' : Nat} (h : n ≤ n') :
    (m.gridPoint drop n).value ≤ (m.gridPoint drop n').value := by
  rw [value_gridPoint, value_gridPoint, div_le_div_iff_of_pos_right (by positivity), Nat.cast_le]
  exact Nat.mul_le_mul_right _ h

/-! ### The two neighbours -/

/-- What is found on a grid is one of its points. -/
theorem exists_gridPoint_of_onGrid? (h : m.onGrid? drop = some d) :
    ∃ n, d = m.gridPoint drop n := by
  have hmem := List.mem_of_find?_eq_some h
  simp only [List.map_cons, List.map_nil, List.mem_cons, List.not_mem_nil, or_false] at hmem
  rcases hmem with rfl | rfl
  · exact ⟨_, rfl⟩
  · exact ⟨_, rfl⟩

/-- A neighbour that reads back is found. -/
theorem isSome_onGrid?_of_neighbour
    (hn : n = m.exact.coefficient / 10 ^ drop ∨ n = m.exact.coefficient / 10 ^ drop + 1)
    (h : m.ReadsBack (m.gridPoint drop n)) : (m.onGrid? drop).isSome = true := by
  have hlow := le_roundEven m.exact.coefficient (10 ^ drop)
  have hhigh := roundEven_le m.exact.coefficient (10 ^ drop)
  unfold onGrid?
  dsimp only
  rw [List.find?_isSome]
  refine ⟨m.gridPoint drop n, List.mem_map.2 ⟨n, ?_, rfl⟩, decide_eq_true h⟩
  by_cases hnear : roundEven m.exact.coefficient (10 ^ drop) = m.exact.coefficient / 10 ^ drop
  · rw [if_pos hnear, hnear]
    rcases hn with rfl | rfl
    · simp
    · simp
  · have hnext : roundEven m.exact.coefficient (10 ^ drop) =
        m.exact.coefficient / 10 ^ drop + 1 := by omega
    rw [if_neg hnear, hnext]
    rcases hn with rfl | rfl
    · simp
    · simp

/-- **A grid is searched completely by two points.**  A point that reads back is on one side of the
exact value, and the neighbour on that side lies between them. -/
theorem isSome_onGrid? (h : m.ReadsBack (m.gridPoint drop n)) : (m.onGrid? drop).isSome = true := by
  have hpos : 0 < 10 ^ drop := Nat.pow_pos (by omega)
  rcases Nat.lt_or_ge (m.exact.coefficient / 10 ^ drop) n with hlt | hle
  · refine isSome_onGrid?_of_neighbour (.inr rfl) (m.readsBack_exact.of_between h ?_ ?_)
    · rw [value_exact, le_value_gridPoint_iff, Nat.mul_comm]
      exact (Nat.lt_mul_div_succ _ hpos).le
    · exact value_gridPoint_mono hlt
  · refine isSome_onGrid?_of_neighbour (.inl rfl) (h.of_between m.readsBack_exact ?_ ?_)
    · exact value_gridPoint_mono hle
    · rw [value_exact, value_gridPoint_le_iff]
      exact Nat.div_mul_le_self _ _

/-! ### Seventeen digits -/

theorem exact_coefficient_ne_zero (h : m.units ≠ 0) : m.exact.coefficient ≠ 0 :=
  Nat.mul_ne_zero h (Nat.pow_pos (by omega)).ne'

/-- The exact value has more digits than are ever needed. -/
theorem maxDigits_lt_length (h : m.units ≠ 0) : maxDigits < m.exact.digits.length := by
  have hc := m.exact.coefficient_lt
  have hle : 5 ^ unitPlaces ≤ m.exact.coefficient :=
    Nat.le_mul_of_pos_left _ (Nat.pos_of_ne_zero h)
  have hbig : 10 ^ maxDigits ≤ 5 ^ unitPlaces := by decide +kernel
  by_contra hlen
  have := Nat.pow_le_pow_right (by omega : 0 < 10) (Nat.not_lt.1 hlen)
  omega

/-- **Seventeen digits suffice.**  The nearest point of that grid is off by less than the last bit,
because `2 ^ 53` is less than `10 ^ 16`. -/
theorem isSome_onGrid?_maxDigits (h : m.units ≠ 0) :
    (m.onGrid? (m.exact.digits.length - maxDigits)).isSome = true := by
  have hlen := maxDigits_lt_length h
  have hc := Decimal.le_coefficient (exact_coefficient_ne_zero h)
  have hsplit : m.exact.digits.length - 1 = 16 + (m.exact.digits.length - maxDigits) := by
    unfold maxDigits at *
    omega
  rw [hsplit, Nat.pow_add] at hc
  generalize m.exact.digits.length - maxDigits = drop at *
  have hpos : 0 < 10 ^ drop := Nat.pow_pos (by omega)
  have hk : 10 ^ 16 ≤ roundEven m.exact.coefficient (10 ^ drop) := le_roundEven_of_le hpos hc
  obtain ⟨hup, hdown⟩ := roundEven_near m.exact.coefficient hpos
  refine isSome_onGrid? (n := roundEven m.exact.coefficient (10 ^ drop))
    (readsBack_of_close (t := 10 ^ drop / 2 / 10 ^ unitPlaces) ?_ ?_ ?_)
  · rw [value_eq_coefficient, mul_div_assoc', div_le_div_iff_of_pos_right (by positivity)]
    have hc' : (10 : ℚ) ^ 16 * 10 ^ drop ≤ m.exact.coefficient := by exact_mod_cast hc
    have hp : (0 : ℚ) < 10 ^ drop := by positivity
    linarith
  · rw [value_gridPoint, mul_div_assoc', div_le_div_iff_of_pos_right (by positivity)]
    have hk' : (10 : ℚ) ^ 16 ≤ roundEven m.exact.coefficient (10 ^ drop) := by exact_mod_cast hk
    have hp : (0 : ℚ) < 10 ^ drop := by positivity
    push_cast
    calc 2 ^ 54 * ((10 : ℚ) ^ drop / 2) = 2 ^ 53 * 10 ^ drop := by ring
      _ ≤ 10 ^ 16 * 10 ^ drop := mul_le_mul_of_nonneg_right (by norm_num) hp.le
      _ ≤ _ := mul_le_mul_of_nonneg_right hk' hp.le
  · have hup' : 2 * ((roundEven m.exact.coefficient (10 ^ drop) : ℚ) * 10 ^ drop) ≤
        2 * m.exact.coefficient + 10 ^ drop := by exact_mod_cast hup
    have hdown' : 2 * (m.exact.coefficient : ℚ) ≤
        2 * (roundEven m.exact.coefficient (10 ^ drop) * 10 ^ drop) + 10 ^ drop := by
      exact_mod_cast hdown
    have hU : (0 : ℚ) < 10 ^ unitPlaces := by positivity
    rw [value_gridPoint, value_eq_coefficient, ← sub_div, abs_div, abs_of_pos hU,
      div_le_div_iff_of_pos_right hU, abs_le]
    push_cast
    constructor
    · linarith
    · linarith

/-! ### The shortest decimal -/

/-- The shortest decimal is on the first grid that has a point to read back. -/
theorem exists_onGrid?_of_isSome {kept : Nat} (hk : kept ≤ maxDigits)
    (h : (m.onGrid? (m.exact.digits.length - kept)).isSome = true) :
    ∃ kept' ≤ kept, m.onGrid? (m.exact.digits.length - kept') = some m.shortest := by
  cases hfind : (List.range (maxDigits + 1)).findSome?
      fun kept => m.onGrid? (m.exact.digits.length - kept) with
  | none =>
      have hnone := List.findSome?_eq_none_iff.1 hfind kept (List.mem_range.2 (by omega))
      rw [hnone] at h
      exact absurd h (by simp)
  | some d =>
      have hd : m.shortest = d := by
        unfold shortest
        dsimp only
        rw [hfind]
        rfl
      obtain ⟨before, first, after, hrange, hfirst, hbefore⟩ := List.findSome?_eq_some_iff.1 hfind
      refine ⟨first, ?_, by rw [hd]; exact hfirst⟩
      -- The grids before the first one are those that keep fewer digits.
      by_contra hlt
      have hmem : kept ∈ before := by
        have hpair := List.pairwise_lt_range (n := maxDigits + 1)
        have hin : kept ∈ List.range (maxDigits + 1) := List.mem_range.2 (by omega)
        rw [hrange] at hpair hin
        rcases List.mem_append.1 hin with hb | hb
        · exact hb
        · rcases List.mem_cons.1 hb with rfl | ha
          · omega
          · have := List.rel_of_pairwise_cons (List.pairwise_append.1 hpair).2.1 ha
            omega
      rw [hbefore kept hmem] at h
      exact absurd h (by simp)

/-- The shortest decimal is on a grid of at most seventeen digits, and on no finer one than is
needed. -/
theorem exists_onGrid?_shortest (h : m.units ≠ 0) (hdrop : drop ≤ m.exact.digits.length)
    (hr : m.ReadsBack (m.gridPoint drop n)) :
    ∃ drop' ≥ drop, m.onGrid? drop' = some m.shortest := by
  have hlen := maxDigits_lt_length h
  rcases Nat.lt_or_ge maxDigits (m.exact.digits.length - drop) with hfine | hcoarse
  · obtain ⟨kept, hkept, hs⟩ := exists_onGrid?_of_isSome (Nat.le_refl _)
      (isSome_onGrid?_maxDigits h)
    exact ⟨_, by omega, hs⟩
  · have hsub : m.exact.digits.length - (m.exact.digits.length - drop) = drop := by omega
    obtain ⟨kept, hkept, hs⟩ := exists_onGrid?_of_isSome hcoarse
      (by rw [hsub]; exact isSome_onGrid? hr)
    exact ⟨_, by omega, hs⟩

/-- **No more places than needed.**  If some decimal with so many places reads back, the shortest
decimal has no more places.  The grid of the last place is tried if the exact value is a tenth of it
or more. -/
theorem hasPlaces_shortest_of_tenth {places : Nat} (hpl : places ≤ unitPlaces)
    (hv : 1 / 10 ^ (places + 1) ≤ m.value) (hr : m.ReadsBack ⟨n, -places⟩) :
    m.shortest.HasPlaces places := by
  have hpos : (0 : ℚ) < 10 ^ places := by positivity
  have hsplit : (10 : ℚ) ^ unitPlaces = 10 ^ (unitPlaces - places) * 10 ^ places := by
    rw [← pow_add, Nat.sub_add_cancel hpl]
  have h : m.units ≠ 0 := by
    intro h0
    have : m.value = 0 := by rw [value, h0, Nat.cast_zero, zero_div]
    rw [this] at hv
    exact absurd hv (not_le.2 (by positivity))
  have hdrop : unitPlaces - places ≤ m.exact.digits.length := by
    have hle : (10 : ℚ) ^ (unitPlaces - places) ≤ m.exact.coefficient * 10 := by
      rw [value_eq_coefficient, div_le_div_iff₀ (by positivity) (by positivity), one_mul, hsplit,
        pow_succ, ← mul_assoc, mul_right_comm] at hv
      exact le_of_mul_le_mul_right hv hpos
    have hlt : 10 ^ (unitPlaces - places) < 10 ^ (m.exact.digits.length + 1) := by
      rw [Nat.pow_succ]
      exact Nat.lt_of_le_of_lt (by exact_mod_cast hle)
        (Nat.mul_lt_mul_of_pos_right m.exact.coefficient_lt (by omega))
    exact Nat.lt_succ_iff.1 ((Nat.pow_lt_pow_iff_right (by omega)).1 hlt)
  -- The multiples of the last place are the grid that drops all digits behind it.
  have hgrid : ∀ c, (m.gridPoint (unitPlaces - places) c).value = c / 10 ^ places := by
    intro c
    rw [value_gridPoint, hsplit]
    push_cast
    rw [mul_comm ((10 : ℚ) ^ _), mul_div_mul_right _ _ (by positivity)]
  have hback : m.ReadsBack (m.gridPoint (unitPlaces - places) n) :=
    hr.of_value_eq (by rw [hgrid, Decimal.value_mk_neg])
  obtain ⟨drop, hge, hs⟩ := exists_onGrid?_shortest h hdrop hback
  obtain ⟨c, hc⟩ := exists_gridPoint_of_onGrid? hs
  refine ⟨c * 10 ^ (drop - (unitPlaces - places)), ?_⟩
  rw [hc, value_gridPoint, ← hgrid, value_gridPoint, Nat.mul_assoc, ← Nat.pow_add,
    Nat.sub_add_cancel hge]

theorem hasPlaces_shortest {places : Nat} (hpl : places ≤ unitPlaces)
    (hv : 1 / 10 ^ places ≤ m.value) (hr : m.ReadsBack ⟨n, -places⟩) :
    m.shortest.HasPlaces places := by
  refine hasPlaces_shortest_of_tenth hpl (le_trans ?_ hv) hr
  exact one_div_le_one_div_of_le (by positivity)
    (pow_le_pow_right₀ (by norm_num) (Nat.le_succ places))

/-- A whole number is not shortened, as long as there are doubles at a distance of one. -/
theorem value_shortest_of_isWhole (h : m.isWhole = true) (h0 : m.units ≠ 0)
    (hlt : m.value < 2 ^ (fractionBits + 1)) : m.shortest.value = m.value := by
  have hv := m.value_of_isWhole h
  generalize m.units / unitsPerOne = n at hv
  have hpos : 1 ≤ n := by
    refine Nat.pos_of_ne_zero fun hz => h0 ?_
    have hunits := m.value_mul_units
    rw [hv, hz, Nat.cast_zero, zero_mul] at hunits
    exact_mod_cast hunits.symm
  have hpos' : (1 : ℚ) ≤ n := by exact_mod_cast hpos
  obtain ⟨c, hc⟩ := hasPlaces_shortest (n := n) (Nat.zero_le unitPlaces)
    (by rw [hv, pow_zero, div_one]; exact hpos')
    (readsBack_of_value_eq (by rw [hv, Decimal.value_mk_neg, pow_zero, div_one]))
  rw [pow_zero, div_one] at hc
  have hback := m.readsBack_shortest
  have hshort : m.shortest.value < 2 ^ (fractionBits + 1) := by
    have := hback.lt_natCast (Nat.le_refl _) (by exact_mod_cast hlt)
    exact_mod_cast this
  have hnear := hback.near hshort.le
  rw [hv, hc] at hnear ⊢
  rw [eq_of_abs_sub_lt_one (lt_of_le_of_lt hnear (by norm_num [fractionBits]))]

end Calculator.Magnitude
