/-!
# Rounding to whole numbers

A quotient is rounded to the nearest whole number, and one that lies halfway between two of them to
the even one. A square root is rounded down.
-/

namespace GraphSearch.Numeric

/-- The whole number nearest to `n / d`, and of two that are equally near the even one. -/
def roundQuotient (n d : Nat) : Nat :=
  let q := n / d
  let twice := 2 * (n % d)
  if d < twice || (twice == d && q % 2 == 1) then q + 1 else q

/-- The largest number whose square is at most `n`. Its last binary digit is settled by a trial, the
others are those of the root of `n / 4`. -/
def floorSqrt (n : Nat) : Nat :=
  if n < 2 then n
  else
    let r := 2 * floorSqrt (n / 4)
    if (r + 1) * (r + 1) ≤ n then r + 1 else r

theorem floorSqrt_sq_le (n : Nat) : floorSqrt n * floorSqrt n ≤ n := by
  fun_induction floorSqrt n with
  | case1 n h =>
    match n, h with
    | 0, _ => decide
    | 1, _ => decide
  | case2 n h r hr => exact hr
  | case3 n h r hr ih =>
    calc r * r = 4 * (floorSqrt (n / 4) * floorSqrt (n / 4)) := by grind
      _ ≤ 4 * (n / 4) := Nat.mul_le_mul_left 4 ih
      _ ≤ n := Nat.mul_div_le n 4

theorem lt_floorSqrt_succ_sq (n : Nat) : n < (floorSqrt n + 1) * (floorSqrt n + 1) := by
  fun_induction floorSqrt n with
  | case1 n h =>
    match n, h with
    | 0, _ => decide
    | 1, _ => decide
  | case2 n h r hr ih =>
    have h4 : n < 4 * (n / 4) + 4 := by omega
    have : 4 * (n / 4) + 4 ≤ 4 * ((floorSqrt (n / 4) + 1) * (floorSqrt (n / 4) + 1)) := by omega
    calc n < 4 * ((floorSqrt (n / 4) + 1) * (floorSqrt (n / 4) + 1)) := by omega
      _ = (r + 1 + 1) * (r + 1 + 1) := by grind
  | case3 n h r hr => exact Nat.not_le.1 hr

example : (List.range 8).map (roundQuotient · 2) = [0, 0, 1, 2, 2, 2, 3, 4] := by decide

end GraphSearch.Numeric
