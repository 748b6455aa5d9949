import ScopedWhile.Number.Binary64

/-!
Rounding to binary64. The magnitudes of the format, continued beyond its largest one, grow with
their ranks; the rank that an operation takes for its exact result is nearest to it, of two nearest
ones the even one, and depends on the ratio only.
-/

namespace ScopedWhile.Binary64

theorem binade_eq
    : binade = 4503599627370496 :=
  rfl

-----------------------------------------------------------------------------------------
-- Magnitudes grow with their ranks
-----------------------------------------------------------------------------------------

/-- Magnitudes that are multiples of one power of two, the first one past their binade included. -/
theorem magnitude_shift {shift k : Nat} (upper : k ≤ 2 * binade) (lower : shift = 0 ∨ binade ≤ k)
    : magnitude (shift * binade + k) = k * Nat.pow 2 shift := by
  rw [binade_eq] at *
  by_cases small : k < 4503599627370496
  · obtain rfl : shift = 0 := by omega
    simp [magnitude, small]
  by_cases last : k = 2 * 4503599627370496
  · have quotient : (shift * 4503599627370496 + k) / 4503599627370496 = shift + 2 := by omega
    have remainder : (shift * 4503599627370496 + k) % 4503599627370496 = 0 := by omega
    have large : ¬ shift * 4503599627370496 + k < 4503599627370496 := by omega
    rw [magnitude, binade_eq, if_neg large, quotient, remainder]
    have double : Nat.pow 2 (shift + 1) = Nat.pow 2 shift * 2 := rfl
    show 4503599627370496 * Nat.pow 2 (shift + 1) = k * Nat.pow 2 shift
    rw [double, last]
    omega
  · have quotient : (shift * 4503599627370496 + k) / 4503599627370496 = shift + 1 := by omega
    have remainder : (shift * 4503599627370496 + k) % 4503599627370496
        = k - 4503599627370496 := by omega
    have large : ¬ shift * 4503599627370496 + k < 4503599627370496 := by omega
    have whole : 4503599627370496 + (k - 4503599627370496) = k := by omega
    rw [magnitude, binade_eq, if_neg large, quotient, remainder, whole]
    rfl

/-- Every rank lies in a binade, where the magnitudes are evenly spaced. -/
theorem exists_shift (rank : Nat)
    : ∃ shift k, rank = shift * binade + k ∧ k < 2 * binade ∧ (shift = 0 ∨ binade ≤ k) := by
  rw [binade_eq]
  by_cases small : rank < 4503599627370496
  · exact ⟨0, rank, by omega, by omega, Or.inl rfl⟩
  · exact ⟨rank / 4503599627370496 - 1, 4503599627370496 + rank % 4503599627370496, by omega,
      by omega, Or.inr (by omega)⟩

theorem pow_two_pos (n : Nat)
    : 0 < Nat.pow 2 n :=
  Nat.pow_pos (by decide)

/-- The next rank has a larger magnitude. -/
theorem magnitude_lt_succ (rank : Nat)
    : magnitude rank < magnitude (rank + 1) := by
  obtain ⟨shift, k, rfl, upper, lower⟩ := exists_shift rank
  rw [Nat.add_assoc, magnitude_shift (Nat.le_of_lt upper) lower,
    magnitude_shift (Nat.succ_le_of_lt upper) (lower.imp_right Nat.le_succ_of_le)]
  exact Nat.mul_lt_mul_of_pos_right (Nat.lt_succ_self k) (pow_two_pos shift)

/-- Magnitudes increase with the rank. -/
theorem magnitude_lt {rank other : Nat} (lt : rank < other)
    : magnitude rank < magnitude other := by
  induction lt with
  | refl => exact magnitude_lt_succ rank
  | step _ ih => exact Nat.lt_trans ih (magnitude_lt_succ _)

/-- Magnitudes do not decrease with the rank. -/
theorem magnitude_le {rank other : Nat} (le : rank ≤ other)
    : magnitude rank ≤ magnitude other := by
  rcases Nat.lt_or_eq_of_le le with lt | rfl
  · exact Nat.le_of_lt (magnitude_lt lt)
  · exact Nat.le_refl _

-----------------------------------------------------------------------------------------
-- The rounded quotient
-----------------------------------------------------------------------------------------

/-- The quotient or one more, whichever is not farther than half a unit, with ties to even. -/
theorem roundHalfEven_cases (num : Nat) {den : Nat} (pos : 0 < den)
    : (∃ excess, num = roundHalfEven num den * den + excess ∧ 2 * excess ≤ den
        ∧ (2 * excess = den → roundHalfEven num den % 2 = 0))
      ∨ ∃ lack, num + lack = roundHalfEven num den * den ∧ 2 * lack ≤ den
        ∧ (2 * lack = den → roundHalfEven num den % 2 = 0) := by
  have split : num / den * den + num % den = num := Nat.div_add_mod' num den
  have bound : num % den < den := Nat.mod_lt num pos
  simp only [roundHalfEven]
  split
  next down => exact Or.inl ⟨num % den, split.symm, by omega, by omega⟩
  next up =>
    refine Or.inr ⟨den - num % den, ?_, by omega, by omega⟩
    rw [Nat.succ_mul]
    omega

/-- Rounding gives the quotient or the next number. -/
theorem roundHalfEven_bounds (num den : Nat)
    : num / den ≤ roundHalfEven num den ∧ roundHalfEven num den ≤ num / den + 1 := by
  simp only [roundHalfEven]
  split <;> omega

-----------------------------------------------------------------------------------------
-- The nearest rank
-----------------------------------------------------------------------------------------

/-- How far the magnitude of a rank is from `num / den` units, counted in parts of `1 / den`. -/
def gap (num den rank : Nat) : Nat :=
  (num - magnitude rank * den) + (magnitude rank * den - num)

/-- No magnitude is closer to `num / den` units, and none but that of an even rank may be as close as
another one. -/
structure IsNearest (num den rank : Nat) : Prop where
  closest (other : Nat) : gap num den rank ≤ gap num den other
  even (other : Nat) : gap num den other = gap num den rank → other ≠ rank → rank % 2 = 0

/-- The binade in which a ratio is rounded: the rounded multiple does not pass the first magnitude
of the next binade, and, except in the lowest binade, the ratio reaches the first of this one. -/
theorem nearestRank_eq (num : Nat) {den : Nat} (pos : 0 < den)
    : ∃ shift,
        let unit := Nat.pow 2 shift * den
        nearestRank num den = shift * binade + roundHalfEven num unit
        ∧ roundHalfEven num unit ≤ 2 * binade
        ∧ (shift = 0 ∨ binade ≤ roundHalfEven num unit ∧ binade * unit ≤ num) := by
  let shift := (num / den).log2 - 52
  refine ⟨shift, ?_⟩
  intro unit
  have definition : nearestRank num den = shift * binade + roundHalfEven num unit := by
    simp only [nearestRank, unit, shift, Nat.mul_comm den]
  have quotient : num / unit = num / den / Nat.pow 2 shift := by
    rw [Nat.div_div_eq_div_mul, Nat.mul_comm den]
  have unitPos : 0 < unit := Nat.mul_pos (pow_two_pos shift) pos
  obtain ⟨least, most⟩ := roundHalfEven_bounds num unit
  by_cases low : (num / den).log2 ≤ 52
  · have none : shift = 0 := by omega
    have bound : num / den < Nat.pow 2 53 :=
      Nat.lt_of_lt_of_le Nat.lt_log2_self (Nat.pow_le_pow_right (by decide) (by omega))
    rw [none] at quotient
    have whole : num / den / Nat.pow 2 0 = num / den := Nat.div_one _
    refine ⟨definition, ?_, Or.inl none⟩
    rw [binade_eq]
    have value : Nat.pow 2 53 = 2 * 4503599627370496 := rfl
    omega
  · have exponent : (num / den).log2 = 52 + shift := by omega
    have nonzero : num / den ≠ 0 := by
      intro zero
      rw [zero] at low
      exact low (by decide)
    have first : Nat.pow 2 (52 + shift) = binade * Nat.pow 2 shift := Nat.pow_add 2 52 shift
    have next : Nat.pow 2 (52 + shift + 1) = Nat.pow 2 (52 + shift) * 2 := rfl
    have lower : binade * Nat.pow 2 shift ≤ num / den := by
      rw [← first, ← exponent]
      exact Nat.log2_self_le nonzero
    have upper : num / den < Nat.pow 2 shift * (2 * binade) := by
      have bound : num / den < Nat.pow 2 ((num / den).log2 + 1) := Nat.lt_log2_self
      rw [exponent, next, first] at bound
      rw [Nat.mul_comm (Nat.pow 2 shift), Nat.mul_assoc 2, Nat.mul_comm 2]
      exact bound
    have least' : binade ≤ num / unit := by
      rw [quotient]
      exact (Nat.le_div_iff_mul_le (pow_two_pos shift)).mpr lower
    have most' : num / unit < 2 * binade := by
      rw [quotient]
      exact Nat.div_lt_of_lt_mul upper
    refine ⟨definition, by omega, Or.inr ⟨by omega, ?_⟩⟩
    exact (Nat.le_div_iff_mul_le unitPos).mp least'

/-- Above a rank that is rounded to, magnitudes are farther away by the unit of its binade. -/
theorem magnitude_above {shift k other : Nat} (upper : k ≤ 2 * binade)
    (lower : shift = 0 ∨ binade ≤ k) (above : shift * binade + k < other)
    : (k + 1) * Nat.pow 2 shift ≤ magnitude other := by
  refine Nat.le_trans ?_ (magnitude_le above)
  by_cases last : k = 2 * binade
  · have regroup : shift * binade + k + 1 = (shift + 1) * binade + (binade + 1) := by
      rw [last, Nat.add_mul, Nat.one_mul]
      omega
    have double : Nat.pow 2 (shift + 1) = Nat.pow 2 shift * 2 := rfl
    have more : (2 * binade + 1) * Nat.pow 2 shift ≤ (2 * binade + 2) * Nat.pow 2 shift :=
      Nat.mul_le_mul_right _ (Nat.le_succ _)
    have same : (2 * binade + 2) * Nat.pow 2 shift = (binade + 1) * (Nat.pow 2 shift * 2) := by
      have twice (n : Nat) : 2 * n + 2 = (n + 1) * 2 := by omega
      rw [twice, Nat.mul_assoc, Nat.mul_comm 2]
    rw [Nat.succ_eq_add_one, regroup,
      magnitude_shift (by rw [binade_eq]; decide) (Or.inr (Nat.le_add_right binade 1)), double, last]
    omega
  · apply Nat.le_of_eq
    rw [Nat.succ_eq_add_one, Nat.add_assoc,
      magnitude_shift (by omega) (lower.imp_right Nat.le_succ_of_le)]

/-- Below it they are farther away by that unit, unless it is the first of its binade. -/
theorem magnitude_below {shift k other : Nat} (upper : k ≤ 2 * binade)
    (lower : shift = 0 ∨ binade < k) (below : other < shift * binade + k)
    : magnitude other + Nat.pow 2 shift ≤ k * Nat.pow 2 shift := by
  obtain ⟨k, rfl⟩ : ∃ n, k = n + 1 := by
    cases k with
    | zero =>
        rcases lower with rfl | impossible
        · omega
        · omega
    | succ n => exact ⟨n, rfl⟩
  have before : magnitude other ≤ magnitude (shift * binade + k) :=
    magnitude_le (by omega)
  rw [magnitude_shift (by omega) (lower.imp_right Nat.le_of_lt_succ)] at before
  rw [Nat.succ_mul]
  omega

/-- The rank computed in the binade of a ratio is nearest to it among all ranks. -/
theorem isNearest_nearestRank (num : Nat) {den : Nat} (pos : 0 < den)
    : IsNearest num den (nearestRank num den) := by
  obtain ⟨shift, rank, upper, lower⟩ := nearestRank_eq num pos
  have unitPos : 0 < Nat.pow 2 shift * den := Nat.mul_pos (pow_two_pos shift) pos
  have rounding := roundHalfEven_cases num unitPos
  generalize roundHalfEven num (Nat.pow 2 shift * den) = k at *
  have first : shift = 0 ∨ binade ≤ k := lower.imp_right And.left
  have here : magnitude (nearestRank num den) * den = k * (Nat.pow 2 shift * den) := by
    rw [rank, magnitude_shift upper first, Nat.mul_assoc]
  have parity : nearestRank num den % 2 = k % 2 := by
    rw [rank, binade_eq]
    omega
  have above (other : Nat) (lt : nearestRank num den < other)
      : k * (Nat.pow 2 shift * den) + Nat.pow 2 shift * den ≤ magnitude other * den := by
    have step := magnitude_above upper first (rank ▸ lt)
    have scaled := Nat.mul_le_mul_right den step
    rw [Nat.mul_assoc, Nat.add_mul, Nat.one_mul] at scaled
    exact scaled
  have below (other : Nat) (lt : other < nearestRank num den)
      : magnitude other * den + Nat.pow 2 shift * den ≤ k * (Nat.pow 2 shift * den)
        ∨ magnitude other * den < k * (Nat.pow 2 shift * den)
          ∧ k * (Nat.pow 2 shift * den) ≤ num := by
    by_cases inner : shift = 0 ∨ binade < k
    · have step := magnitude_below upper inner (rank ▸ lt)
      have scaled := Nat.mul_le_mul_right den step
      rw [Nat.add_mul, Nat.mul_assoc k] at scaled
      exact Or.inl scaled
    · -- The first magnitude of a binade is not above what is rounded to it.
      refine Or.inr ⟨?_, ?_⟩
      · rw [← here]
        exact Nat.mul_lt_mul_of_pos_right (magnitude_lt lt) pos
      · obtain ⟨reached, passed⟩ := lower.resolve_left fun zero => inner (Or.inl zero)
        have same : k = binade := by omega
        rw [same]
        exact passed
  generalize k * (Nat.pow 2 shift * den) = grid at *
  generalize Nat.pow 2 shift * den = unit at *
  constructor
  · intro other
    simp only [gap, here]
    rcases Nat.lt_trichotomy other (nearestRank num den) with lt | rfl | lt
    · have := below other lt
      rcases rounding with ⟨excess, _, _, _⟩ | ⟨lack, _, _, _⟩ <;> omega
    · simp [here]
    · have := above other lt
      rcases rounding with ⟨excess, _, _, _⟩ | ⟨lack, _, _, _⟩ <;> omega
  · intro other tie differs
    simp only [gap, here] at tie
    rw [parity]
    rcases Nat.lt_or_gt_of_ne differs with lt | lt
    · have := below other lt
      rcases rounding with ⟨excess, _, _, even⟩ | ⟨lack, _, _, even⟩
      · omega
      · exact even (by omega)
    · have := above other lt
      rcases rounding with ⟨excess, _, _, even⟩ | ⟨lack, _, _, even⟩
      · exact even (by omega)
      · omega

-----------------------------------------------------------------------------------------
-- There is one nearest rank
-----------------------------------------------------------------------------------------

namespace IsNearest

variable {num den rank other : Nat}

/-- What is nearest to a number is not beyond a magnitude above it. -/
theorem le_of_le_magnitude (nearest : IsNearest num den rank) (pos : 0 < den)
    (le : num ≤ magnitude other * den)
    : rank ≤ other := by
  apply Nat.le_of_not_lt
  intro lt
  have farther := Nat.mul_lt_mul_of_pos_right (magnitude_lt lt) pos
  have closest := nearest.closest other
  simp only [gap] at closest
  omega

/-- What is nearest to a number is not below a magnitude under it. -/
theorem ge_of_magnitude_le (nearest : IsNearest num den rank) (pos : 0 < den)
    (le : magnitude other * den ≤ num)
    : other ≤ rank := by
  apply Nat.le_of_not_lt
  intro lt
  have farther := Nat.mul_lt_mul_of_pos_right (magnitude_lt lt) pos
  have closest := nearest.closest other
  simp only [gap] at closest
  omega

/-- Two nearest ranks would both be even, and the one between them would be closer. -/
theorem not_lt (first : IsNearest num den rank) (second : IsNearest num den other) (pos : 0 < den)
    : ¬ rank < other := by
  intro lt
  have tie : gap num den other = gap num den rank :=
    Nat.le_antisymm (second.closest rank) (first.closest other)
  have evens : rank % 2 = 0 ∧ other % 2 = 0 :=
    ⟨first.even other tie (Nat.ne_of_gt lt), second.even rank tie.symm (Nat.ne_of_lt lt)⟩
  have lower := Nat.mul_lt_mul_of_pos_right (magnitude_lt_succ rank) pos
  have upper : magnitude (rank + 1) * den < magnitude other * den :=
    Nat.mul_lt_mul_of_pos_right (magnitude_lt (by omega)) pos
  have closest := first.closest (rank + 1)
  simp only [gap] at closest tie
  omega

/-- There is one nearest rank only. -/
theorem unique (first : IsNearest num den rank) (second : IsNearest num den other) (pos : 0 < den)
    : rank = other := by
  have := first.not_lt second pos
  have := second.not_lt first pos
  omega

/-- What is nearest to a ratio is nearest to it with expanded terms. -/
theorem scale {c : Nat} (pos : 0 < c) (nearest : IsNearest num den rank)
    : IsNearest (c * num) (c * den) rank := by
  have scaled (other : Nat) : gap (c * num) (c * den) other = c * gap num den other := by
    simp only [gap, Nat.mul_left_comm _ c, ← Nat.mul_sub, ← Nat.mul_add]
  constructor
  · intro other
    rw [scaled, scaled]
    exact Nat.mul_le_mul_left c (nearest.closest other)
  · intro other tie
    rw [scaled, scaled] at tie
    exact nearest.even other (Nat.eq_of_mul_eq_mul_left pos tie)

end IsNearest

/-- The nearest rank is the one that is computed. -/
theorem isNearest_iff {num den rank : Nat} (pos : 0 < den)
    : IsNearest num den rank ↔ nearestRank num den = rank :=
  ⟨fun nearest => (isNearest_nearestRank num pos).unique nearest pos,
    fun equal => equal ▸ isNearest_nearestRank num pos⟩

/-- The nearest rank of a ratio is that with expanded terms. -/
theorem nearestRank_scale {c den : Nat} (pos : 0 < c) (denPos : 0 < den) (num : Nat)
    : nearestRank (c * num) (c * den) = nearestRank num den :=
  (isNearest_iff (Nat.mul_pos pos denPos)).mp ((isNearest_nearestRank num denPos).scale pos)

/-- Only the ratio counts. -/
theorem nearestRank_congr {num den num' den' : Nat} (pos : 0 < den) (pos' : 0 < den')
    (same : num * den' = num' * den)
    : nearestRank num den = nearestRank num' den' := by
  rw [← nearestRank_scale pos' pos num, ← nearestRank_scale pos pos' num', Nat.mul_comm den' num,
    Nat.mul_comm den num', same, Nat.mul_comm den' den]

/-- A magnitude is nearest to itself. -/
theorem nearestRank_magnitude (rank : Nat)
    : nearestRank (magnitude rank) 1 = rank := by
  have nearest := isNearest_nearestRank (magnitude rank) Nat.one_pos
  apply Nat.le_antisymm
  · exact nearest.le_of_le_magnitude Nat.one_pos (by omega)
  · exact nearest.ge_of_magnitude_le Nat.one_pos (by omega)

/-- Less than half a unit is nearest to zero. -/
theorem nearestRank_small {num den : Nat} (small : 2 * num < den)
    : nearestRank num den = 0 := by
  have pos : 0 < den := Nat.lt_of_le_of_lt (Nat.zero_le _) small
  apply Nat.le_zero.mp
  apply Nat.le_of_not_lt
  intro lt
  have unit : 1 * den ≤ magnitude (nearestRank num den) * den :=
    Nat.mul_le_mul_right den (magnitude_lt lt)
  have closest := (isNearest_nearestRank num pos).closest 0
  have zero : magnitude 0 = 0 := rfl
  simp only [gap, zero, Nat.zero_mul] at closest
  omega

end ScopedWhile.Binary64
