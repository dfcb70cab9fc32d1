import Mathlib
import WindowFold.Binary.Format

/-! The rounding of whole numbers to floats. A greater number never gets a lesser
float, and a number that a float can tell is kept as it is. -/
namespace WindowFold

section
variable {n m d : Nat}

theorem div_le_roundQuotient : n / d ≤ roundQuotient n d := by
  dsimp only [roundQuotient]
  split_ifs <;> omega

theorem roundQuotient_le : roundQuotient n d ≤ n / d + 1 := by
  dsimp only [roundQuotient]
  split_ifs <;> omega

theorem roundQuotient_of_dvd (positive : 0 < d) (divides : d ∣ n) :
    roundQuotient n d = n / d := by
  rw [roundQuotient, Nat.mod_eq_zero_of_dvd divides, if_pos (by simpa using positive)]

theorem roundQuotient_mono (below : n ≤ m) : roundQuotient n d ≤ roundQuotient m d := by
  rcases Nat.lt_or_ge (n / d) (m / d) with less | same
  · calc roundQuotient n d
      _ ≤ n / d + 1 := roundQuotient_le
      _ ≤ m / d := less
      _ ≤ roundQuotient m d := div_le_roundQuotient
  · -- of one quotient, the greater number leaves the greater remainder
    have quotients : m / d = n / d := Nat.le_antisymm same (Nat.div_le_div_right below)
    have remainders : n % d ≤ m % d := by
      have left := Nat.div_add_mod n d
      have right := Nat.div_add_mod m d
      rw [quotients] at right
      omega
    dsimp only [roundQuotient]
    rw [quotients]
    split_ifs <;> omega

end

namespace BinaryFormat
variable {f : BinaryFormat} {n m d : Nat}

/-- The power of two in whose multiples the significand of a quotient is counted. -/
def scale (f : BinaryFormat) (n d : Nat) : Nat := (n / d).log2 + 1 - f.precision

/-- The significand of a quotient with the exponent above it, however large. -/
def rounded (f : BinaryFormat) (n d : Nat) : Nat :=
  f.scale n d * f.binade + roundQuotient n (d * 2 ^ f.scale n d)

theorem nearest_eq : f.nearest n d = min f.infinity (f.rounded n d) := rfl

theorem two_binade (precise : 0 < f.precision) : 2 * f.binade = 2 ^ f.precision := by
  rw [binade, Nat.pow_eq, ← Nat.pow_succ', Nat.succ_eq_add_one, Nat.sub_add_cancel precise]

theorem binade_pos : 0 < f.binade := Nat.two_pow_pos _

theorem scale_mono (below : n ≤ m) : f.scale n d ≤ f.scale m d := by
  have logs : (n / d).log2 ≤ (m / d).log2 := by
    rw [Nat.log2_eq_log_two, Nat.log2_eq_log_two]
    exact Nat.log_mono_right (Nat.div_le_div_right below)
  unfold scale
  omega

/-- A significand takes up at most two binades. -/
theorem significand_lt (precise : 0 < f.precision) :
    n / (d * 2 ^ f.scale n d) < 2 * f.binade := by
  rw [← Nat.div_div_eq_div_mul, Nat.div_lt_iff_lt_mul (Nat.two_pow_pos _), two_binade precise,
    ← Nat.pow_add]
  calc n / d
    _ < 2 ^ ((n / d).log2 + 1) := Nat.lt_log2_self
    _ ≤ 2 ^ (f.precision + f.scale n d) := Nat.pow_le_pow_right (by omega) (by unfold scale; omega)

/-- Above the least exponent it takes up at least one. -/
theorem le_significand (precise : 0 < f.precision) (scaled : 0 < f.scale n d) :
    f.binade ≤ n / (d * 2 ^ f.scale n d) := by
  have some : n / d ≠ 0 := by
    intro none
    rw [scale, none] at scaled
    simp only [Nat.log2_zero] at scaled
    omega
  rw [← Nat.div_div_eq_div_mul, Nat.le_div_iff_mul_le (Nat.two_pow_pos _), binade, Nat.pow_eq,
    ← Nat.pow_add]
  calc 2 ^ (f.precision - 1 + f.scale n d)
    _ = 2 ^ (n / d).log2 := by congr 1; unfold scale at scaled ⊢; omega
    _ ≤ n / d := Nat.log2_self_le some

theorem rounded_le (precise : 0 < f.precision) :
    f.rounded n d ≤ (f.scale n d + 2) * f.binade := by
  have above := significand_lt precise (n := n) (d := d)
  have up := roundQuotient_le (n := n) (d := d * 2 ^ f.scale n d)
  rw [rounded, Nat.add_mul]
  omega

theorem le_rounded (precise : 0 < f.precision) (scaled : 0 < f.scale n d) :
    (f.scale n d + 1) * f.binade ≤ f.rounded n d := by
  have below := le_significand precise scaled
  have down := div_le_roundQuotient (n := n) (d := d * 2 ^ f.scale n d)
  rw [rounded, Nat.add_mul]
  omega

theorem rounded_mono (precise : 0 < f.precision) (below : n ≤ m) :
    f.rounded n d ≤ f.rounded m d := by
  rcases Nat.lt_or_ge (f.scale n d) (f.scale m d) with less | same
  · calc f.rounded n d
      _ ≤ (f.scale n d + 2) * f.binade := rounded_le precise
      _ ≤ (f.scale m d + 1) * f.binade := Nat.mul_le_mul_right _ (by omega)
      _ ≤ f.rounded m d := le_rounded precise (by omega)
  · have scales : f.scale m d = f.scale n d := Nat.le_antisymm same (scale_mono below)
    unfold rounded
    rw [scales]
    exact Nat.add_le_add_left (roundQuotient_mono below) _

theorem nearest_mono (precise : 0 < f.precision) (below : n ≤ m) :
    f.nearest n d ≤ f.nearest m d := by
  rw [nearest_eq, nearest_eq]
  exact min_le_min_left _ (rounded_mono precise below)

/-- A number of units that has no digit below its significand is kept. -/
theorem units_nearest (precise : 0 < f.precision) (whole : 2 ^ f.scale n 1 ∣ n)
    (finite : f.scale n 1 + 2 < 2 ^ f.exponentBits) : f.units (f.nearest n 1) = n := by
  have above := significand_lt precise (n := n) (d := 1)
  have below := le_significand precise (n := n) (d := 1)
  have kept := Nat.div_mul_cancel whole
  have room : (f.scale n 1 + 2) * f.binade ≤ f.infinity :=
    Nat.mul_le_mul_right _ (by rw [Nat.pow_eq]; omega)
  have code : f.nearest n 1 = f.scale n 1 * f.binade + n / 2 ^ f.scale n 1 := by
    rw [nearest_eq, Nat.min_eq_right ((rounded_le precise).trans room), rounded, Nat.one_mul,
      roundQuotient_of_dvd (Nat.two_pow_pos _) whole]
  rw [Nat.one_mul] at above below
  rw [code, units]
  generalize n / 2 ^ f.scale n 1 = significand at above below kept
  rcases Nat.lt_or_ge significand f.binade with small | large
  · -- only the least exponent has significands below a full binade
    have least : f.scale n 1 = 0 := by
      by_contra scaled
      exact absurd (below (Nat.pos_of_ne_zero scaled)) (Nat.not_le.2 small)
    rw [least, Nat.pow_zero, Nat.mul_one] at kept
    rw [least, Nat.zero_mul, Nat.zero_add]
    simp only [Nat.div_eq_of_lt small, Nat.mod_eq_of_lt small, if_true]
    exact kept
  · have split : f.scale n 1 * f.binade + significand =
        (significand - f.binade) + f.binade * (f.scale n 1 + 1) := by
      rw [Nat.mul_add, Nat.mul_comm f.binade]
      omega
    have fraction : significand - f.binade < f.binade := by omega
    rw [split, Nat.add_mul_div_left _ _ binade_pos, Nat.add_mul_mod_self_left,
      Nat.div_eq_of_lt fraction, Nat.mod_eq_of_lt fraction]
    simpa [Nat.add_sub_cancel' large] using kept

/-- Whole numbers up to the first that fills a significand and one digit more. -/
theorem units_nearest_whole (precise : 0 < f.precision)
    (wide : f.precision < 2 ^ (f.exponentBits - 1)) (small : n ≤ 2 ^ f.precision) :
    f.units (f.nearest (n * f.unitsPerOne) 1) = n * f.unitsPerOne := by
  obtain ⟨u, one⟩ : ∃ u, u = 2 ^ (f.exponentBits - 1) + f.precision - 3 := ⟨_, rfl⟩
  have unit : f.unitsPerOne = 2 ^ u := by rw [unitsPerOne, Nat.pow_eq, Nat.pow_eq, one]
  have bits : 2 ^ f.exponentBits = 2 * 2 ^ (f.exponentBits - 1) := by
    rw [← Nat.pow_succ', Nat.succ_eq_add_one, Nat.sub_add_cancel]
    by_contra none
    rw [show f.exponentBits - 1 = 0 by omega] at wide
    omega
  rw [unit]
  have size : n * 2 ^ u ≤ 2 ^ (f.precision + u) := by
    rw [Nat.pow_add]
    exact Nat.mul_le_mul_right _ small
  have scales : f.scale (n * 2 ^ u) 1 ≤ u + 1 := by
    have logs : (n * 2 ^ u).log2 ≤ (2 ^ (f.precision + u)).log2 := by
      rw [Nat.log2_eq_log_two, Nat.log2_eq_log_two]
      exact Nat.log_mono_right size
    rw [Nat.log2_two_pow] at logs
    rw [scale, Nat.div_one]
    omega
  apply units_nearest precise
  · rcases Nat.lt_or_ge u (f.scale (n * 2 ^ u) 1) with beyond | within
    · -- then the number is the first that fills the significand
      have some : n * 2 ^ u ≠ 0 := by
        intro none
        rw [none, scale, Nat.div_one, Nat.log2_zero] at beyond
        omega
      have full : 2 ^ (f.precision + u) ≤ n * 2 ^ u := by
        rw [scale, Nat.div_one] at beyond
        exact (Nat.le_log2 some).1 (by omega)
      exact (pow_dvd_pow 2 (by omega)).trans (dvd_of_eq (Nat.le_antisymm full size))
    · exact (pow_dvd_pow 2 within).mul_left n
  · omega

end BinaryFormat

namespace Binary
variable {f : BinaryFormat} {m n : Int}

@[simp] theorem isNaN_ofInt : (ofInt n : Binary f).isNaN = false := by
  have capped : (ofInt n : Binary f).magnitude ≤ f.infinity := Nat.min_le_left _ _
  simpa [isNaN] using capped

theorem magnitude_ofInt_mono (precise : 0 < f.precision) (below : m.natAbs ≤ n.natAbs) :
    (ofInt m : Binary f).magnitude ≤ (ofInt n : Binary f).magnitude :=
  BinaryFormat.nearest_mono precise (Nat.mul_le_mul_right _ below)

/-- As long as a float can tell the numbers, the greater one gets the greater float. -/
theorem magnitude_ofInt_lt (precise : 0 < f.precision)
    (wide : f.precision < 2 ^ (f.exponentBits - 1)) (small : n.natAbs ≤ 2 ^ f.precision)
    (below : m.natAbs < n.natAbs) :
    (ofInt m : Binary f).magnitude < (ofInt n : Binary f).magnitude := by
  apply Nat.lt_of_le_of_ne (magnitude_ofInt_mono precise below.le)
  intro same
  have left := BinaryFormat.units_nearest_whole precise wide (below.le.trans small)
  have right := BinaryFormat.units_nearest_whole precise wide small
  have unit : 0 < f.unitsPerOne := Nat.two_pow_pos _
  have equal : m.natAbs * f.unitsPerOne = n.natAbs * f.unitsPerOne :=
    left.symm.trans ((congrArg f.units same).trans right)
  exact below.ne (Nat.eq_of_mul_eq_mul_right unit equal)

end Binary
end WindowFold
