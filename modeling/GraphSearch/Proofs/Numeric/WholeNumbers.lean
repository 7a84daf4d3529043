import GraphSearch.Numeric.Binary64
import Mathlib.Algebra.Order.Ring.Nat

/-!
# Whole numbers in double precision

Below `2 ^ 53` whole numbers are numbers of the format. Such a number is stored as it is
(`units_ofNat`), sums that stay there are exact (`ofNat_add_ofNat`), and two of them compare as they
do without the format (`ofNat_le_ofNat`). All three rest on one fact about rounding: a number with
at most 53 binary digits, shifted by any number of places, is its own nearest (`nearest_shifted`).
-/

namespace GraphSearch.Numeric

theorem roundQuotient_mul_right (n : Nat) {d : Nat} (hd : 0 < d) : roundQuotient (n * d) d = n := by
  have hq : n * d / d = n := Nat.mul_div_cancel n hd
  have hr : n * d % d = 0 := Nat.mul_mod_left n d
  unfold roundQuotient
  rw [hq, hr]
  simp [hd.ne]

namespace Binary64

/-- The digits of a shifted number beyond those that the format keeps are among the shifted
places. -/
theorem excess_shifted_le {m : Nat} (hm : m < 2 ^ 53) (j : Nat) : excess (m * 2 ^ j) ≤ j := by
  rcases Nat.eq_zero_or_pos m with rfl | hpos
  · simp [excess]
  · have hne : m * 2 ^ j ≠ 0 := (Nat.mul_pos hpos (Nat.two_pow_pos j)).ne'
    have hlt : m * 2 ^ j < 2 ^ (53 + j) := by
      rw [Nat.pow_add]
      exact Nat.mul_lt_mul_of_pos_right hm (Nat.two_pow_pos j)
    have := (Nat.log2_lt hne).2 hlt
    unfold excess
    omega

/-- **Rounding leaves what the format can hold as it is.** -/
theorem nearest_shifted {m : Nat} (hm : m < 2 ^ 53) (j : Nat) :
    nearest (m * 2 ^ j) 1 = ⟨m * 2 ^ j⟩ := by
  have he := excess_shifted_le hm j
  -- The places that are rounded away hold zeros only.
  have hsplit : m * 2 ^ j = m * 2 ^ (j - excess (m * 2 ^ j)) * 2 ^ excess (m * 2 ^ j) := by
    rw [Nat.mul_assoc, ← Nat.pow_add, Nat.sub_add_cancel he]
  have hnearest : nearest (m * 2 ^ j) 1 =
      ⟨roundQuotient (m * 2 ^ j) (2 ^ excess (m * 2 ^ j)) * 2 ^ excess (m * 2 ^ j)⟩ := by
    unfold nearest
    rw [Nat.div_one]
    dsimp only
    rw [Nat.one_mul]
    rfl
  rw [hnearest]
  generalize excess (m * 2 ^ j) = e at hsplit
  rw [hsplit, roundQuotient_mul_right _ (Nat.two_pow_pos e)]

theorem unitsPerOne_pos : 0 < unitsPerOne := by
  unfold unitsPerOne
  generalize 1074 = j
  exact Nat.two_pow_pos j

/-- A whole number below `2 ^ 53` is stored as it is. -/
theorem ofNat_eq {n : Nat} (hn : n < 2 ^ 53) : ofNat n = ⟨n * unitsPerOne⟩ := by
  show nearest (n * unitsPerOne) 1 = _
  unfold unitsPerOne
  generalize 1074 = j
  exact nearest_shifted hn j

theorem units_ofNat {n : Nat} (hn : n < 2 ^ 53) : (ofNat n).units = n * unitsPerOne := by
  rw [ofNat_eq hn]

/-- **Sums below `2 ^ 53` are exact.** -/
theorem ofNat_add_ofNat {m n : Nat} (h : m + n < 2 ^ 53) : ofNat m + ofNat n = ofNat (m + n) := by
  have hm : (ofNat m).units = m * unitsPerOne := units_ofNat (by omega)
  have hn : (ofNat n).units = n * unitsPerOne := units_ofNat (by omega)
  show nearest ((ofNat m).units + (ofNat n).units) 1 = nearest ((m + n) * unitsPerOne) 1
  rw [hm, hn, Nat.add_mul]

/-- **Whole numbers below `2 ^ 53` compare as they do without the format.** -/
theorem ofNat_le_ofNat {m n : Nat} (hm : m < 2 ^ 53) (hn : n < 2 ^ 53) :
    ofNat m ≤ ofNat n ↔ m ≤ n := by
  show (ofNat m).units ≤ (ofNat n).units ↔ m ≤ n
  rw [units_ofNat hm, units_ofNat hn]
  exact Nat.mul_le_mul_right_iff unitsPerOne_pos

instance : LT Binary64 where
  lt a b := a.units < b.units

theorem ofNat_lt_ofNat {m n : Nat} (hm : m < 2 ^ 53) (hn : n < 2 ^ 53) :
    ofNat m < ofNat n ↔ m < n := by
  show (ofNat m).units < (ofNat n).units ↔ m < n
  rw [units_ofNat hm, units_ofNat hn]
  exact Nat.mul_lt_mul_right unitsPerOne_pos

theorem ofNat_inj {m n : Nat} (hm : m < 2 ^ 53) (hn : n < 2 ^ 53) :
    ofNat m = ofNat n ↔ m = n := by
  refine ⟨fun h ↦ ?_, congrArg ofNat⟩
  have hunits := congrArg units h
  rw [units_ofNat hm, units_ofNat hn] at hunits
  exact Nat.eq_of_mul_eq_mul_right unitsPerOne_pos hunits

end Binary64

end GraphSearch.Numeric
