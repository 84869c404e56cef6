import RequestRunner.Decimal.Shortest

/-!
# The digits of a shortest decimal

A grid on which a number is found never has zero for it (`Binary.pick?_ne_zero`). Where seventeen
digits found nothing, the number is taken from the last grid as it is; that grid is far below the
number unless its cells are at most one wide. So a shortest decimal without digits has no positive
exponent (`Binary.exponent_shortest_nonpos`).
-/

set_option autoImplicit false

namespace RequestRunner.Decimal.Binary

/-- The number of bits in front of the point. -/
def bits (x : Binary) : Int := (Nat.log2 x.mantissa : Int) + x.exponent

/-- A significand that a floating-point number has. -/
structure Fits (x : Binary) : Prop where
  positive : 0 < x.mantissa
  bits_lt : x.bits < 1024

theorem fits_of_ofBits? {n : Nat} {x : Binary} (hn : n < Nat.pow 2 63) (h : ofBits? n = some x) :
    x.Fits := by
  rw [Nat.pow_eq] at hn
  have hfraction : n % 2 ^ 52 < 2 ^ 52 := Nat.mod_lt _ (by decide)
  have hfield : n / 2 ^ 52 < 2 ^ 11 := Nat.div_lt_of_lt_mul (by omega)
  have hlog {m k : Nat} (hm : m ≠ 0) (hlt : m < 2 ^ k) : Nat.log2 m < k := (Nat.log2_lt hm).2 hlt
  rw [ofBits?] at h
  simp only [Nat.pow_eq] at h
  split at h
  · cases h
  · split at h
    · split at h
      · cases h
      · next hne =>
        cases h
        have := hlog hne hfraction
        refine ⟨Nat.pos_of_ne_zero hne, ?_⟩
        change (Nat.log2 (n % 2 ^ 52) : Int) + -1074 < 1024
        omega
    · next hmax _ =>
      cases h
      have hm : 2 ^ 52 + n % 2 ^ 52 ≠ 0 := by omega
      have := hlog (k := 53) hm (by omega)
      refine ⟨Nat.pos_of_ne_zero hm, ?_⟩
      change (Nat.log2 (2 ^ 52 + n % 2 ^ 52) : Int) + (((n / 2 ^ 52 : Nat) : Int) - 1075) < 1024
      omega

theorem compareScaled_zero {a : Nat} (ha : 0 < a) (p k : Int) : compareScaled a p 0 k = .gt := by
  rw [compareScaled, Nat.compare_eq_gt, Nat.zero_mul, Nat.zero_mul]
  exact Nat.mul_pos (Nat.mul_pos ha (Nat.pow_pos (by decide))) (Nat.pow_pos (by decide))

/-- No positive number is read back from zero. -/
theorem readsBack_zero {x : Binary} (hx : 0 < x.mantissa) (k : Int) : x.readsBack 0 k = false := by
  have hlow : 0 < 4 * x.mantissa - (if x.narrow then 1 else 2) := by
    split <;> omega
  rw [readsBack]
  simp only [compareScaled_zero hlow]
  split <;> rfl

/-- **The number is never written as zero.** -/
theorem pick?_ne_zero {x : Binary} (hx : 0 < x.mantissa) {k : Int} {d : Nat}
    (h : x.pick? k = some d) : d ≠ 0 := by
  have hfloor (hreads : x.readsBack (x.floorAt k) k = true) : x.floorAt k ≠ 0 := by
    intro hzero
    rw [hzero, readsBack_zero hx] at hreads
    cases hreads
  unfold pick? at h
  dsimp only at h
  split at h
  · next hreads _ =>
    cases h
    exact hfloor hreads
  · cases h
    omega
  · cases h
  · next hreads _ =>
    have hne := hfloor hreads
    split at h
    · cases h
      exact hne
    · cases h
      omega
    · cases h
      split <;> omega

theorem digits_normalize_ne_zero (n : Nat) {d : Nat} (k : Int) (hd : d ≠ 0) :
    (normalize n d k).digits ≠ 0 := by
  induction n generalizing d k with
  | zero => exact hd
  | succ n ih =>
    rw [normalize]
    split
    · apply ih
      omega
    · exact hd

/-- A search that ends with zero has tried every grid, and the number is below the last one. -/
theorem search_eq_zero {x : Binary} (hx : 0 < x.mantissa) (top : Int) {n : Nat} {k : Int}
    (h : (x.search top n k).digits = 0) :
    (x.search top n k).exponent = k - n ∧ x.floorAt (k - n) = 0 := by
  induction n generalizing k with
  | zero =>
    rw [search] at h ⊢
    rw [Int.natCast_zero, Int.sub_zero]
    exact ⟨rfl, h⟩
  | succ n ih =>
    rw [search] at h ⊢
    split at h
    · next d hd => exact absurd h (digits_normalize_ne_zero 20 k (pick?_ne_zero hx hd))
    · obtain ⟨hexponent, hfloor⟩ := ih h
      have hk : k - 1 - (n : Int) = k - ((n + 1 : Nat) : Int) := by omega
      rw [hk] at hexponent hfloor
      exact ⟨hexponent, hfloor⟩

theorem down_le (x : Binary) (n : Nat) (k : Int) : scale.down x n k ≤ k := by
  induction n generalizing k with
  | zero => exact Int.le_refl k
  | succ n ih =>
    rw [scale.down]
    split
    · have := ih (k - 1)
      omega
    · exact Int.le_refl k

theorem up_le (x : Binary) (n : Nat) (k : Int) : scale.up x n k ≤ k + n := by
  induction n generalizing k with
  | zero => simp [scale.up]
  | succ n ih =>
    rw [scale.up]
    split
    · omega
    · have := ih (k + 1)
      omega

/-- The scale is not far above what the bits say. -/
theorem scale_le (x : Binary) : x.scale ≤ Int.fdiv (x.bits * 30103) 100000 + 5 := by
  -- the estimate is corrected by at most four steps each way
  have hdown := down_le x 4 (Int.fdiv (x.bits * 30103) 100000 + 1)
  have hup := up_le x 4 (scale.down x 4 (Int.fdiv (x.bits * 30103) 100000 + 1))
  rw [scale]
  change scale.up x 4 (scale.down x 4 (Int.fdiv (x.bits * 30103) 100000 + 1)) ≤ _
  omega

/-- Ten bits hold three digits. -/
theorem pow_ten_le {j b : Nat} (h : 10 * j ≤ 3 * b) : Nat.pow 10 j ≤ Nat.pow 2 b := by
  rw [Nat.pow_eq, Nat.pow_eq]
  have hthousand : (10 ^ 3) ^ (j / 3) ≤ (2 ^ 10) ^ (j / 3) := Nat.pow_le_pow_left (by decide) _
  -- what is left over of the digits, and of the bits
  have hrest : 10 ^ (j % 3) ≤ 2 ^ (b - 10 * (j / 3)) := by
    have hcases : j % 3 = 0 ∨ j % 3 = 1 ∨ j % 3 = 2 := by omega
    rcases hcases with hr | hr | hr
    · rw [hr]
      exact Nat.one_le_two_pow
    · rw [hr]
      exact Nat.le_trans (by decide : 10 ^ 1 ≤ 2 ^ 4) (Nat.pow_le_pow_right (by decide) (by omega))
    · rw [hr]
      exact Nat.le_trans (by decide : 10 ^ 2 ≤ 2 ^ 7) (Nat.pow_le_pow_right (by decide) (by omega))
  calc 10 ^ j = (10 ^ 3) ^ (j / 3) * 10 ^ (j % 3) := by
        rw [← Nat.pow_mul, ← Nat.pow_add, Nat.div_add_mod]
    _ ≤ (2 ^ 10) ^ (j / 3) * 2 ^ (b - 10 * (j / 3)) := Nat.mul_le_mul hthousand hrest
    _ = 2 ^ b := by
        rw [← Nat.pow_mul, ← Nat.pow_add]
        congr 1
        omega

/-- On a grid with wide cells that is well below the number, the number is not zero. -/
theorem floorAt_ne_zero {x : Binary} (hx : 0 < x.mantissa) {k : Int} (hk : 0 < k)
    (hbits : 10 * k ≤ 3 * x.bits) : x.floorAt k ≠ 0 := by
  have hlog : 2 ^ Nat.log2 x.mantissa ≤ x.mantissa := Nat.log2_self_le (Nat.pos_iff_ne_zero.1 hx)
  have hnonneg : 0 ≤ x.bits := by omega
  have hten : 10 ^ k.toNat ≤ 2 ^ x.bits.toNat := pow_ten_le (by omega)
  have hcell : 10 ^ k.toNat * 2 ^ (-x.exponent).toNat ≤ x.mantissa * 2 ^ x.exponent.toNat := by
    calc 10 ^ k.toNat * 2 ^ (-x.exponent).toNat
        ≤ 2 ^ x.bits.toNat * 2 ^ (-x.exponent).toNat := Nat.mul_le_mul_right _ hten
      _ = 2 ^ Nat.log2 x.mantissa * 2 ^ x.exponent.toNat := by
          rw [← Nat.pow_add, ← Nat.pow_add]
          congr 1
          rw [bits] at hnonneg ⊢
          omega
      _ ≤ x.mantissa * 2 ^ x.exponent.toNat := Nat.mul_le_mul_right _ hlog
  have hwide : (-k).toNat = 0 := by omega
  rw [floorAt]
  simp only [Nat.pow_eq, hwide, Nat.pow_zero, Nat.mul_one]
  have hpos : 0 < 10 ^ k.toNat * 2 ^ (-x.exponent).toNat :=
    Nat.mul_pos (Nat.pow_pos (by decide)) (Nat.pow_pos (by decide))
  exact Nat.pos_iff_ne_zero.1 (Nat.div_pos hcell hpos)

/-- **A shortest decimal without digits has no positive exponent.** -/
theorem exponent_shortest_nonpos {x : Binary} (hx : x.Fits) (h : x.shortest.digits = 0) :
    x.shortest.exponent ≤ 0 := by
  obtain ⟨hexponent, hfloor⟩ := search_eq_zero hx.positive x.scale h
  have hscale := scale_le x
  have hbits := hx.bits_lt
  have hfdiv : 100000 * Int.fdiv (x.bits * 30103) 100000 ≤ x.bits * 30103 := by
    rw [Int.fdiv_eq_ediv_of_nonneg _ (by decide)]
    exact Int.mul_ediv_self_le (by decide)
  rw [shortest, hexponent]
  -- seventeen grids below the scale, a positive exponent would be far below the number
  refine Int.not_lt.1 fun hpositive => ?_
  apply floorAt_ne_zero hx.positive hpositive _ hfloor
  omega

end RequestRunner.Decimal.Binary
