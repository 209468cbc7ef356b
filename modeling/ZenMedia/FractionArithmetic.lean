import ZenMedia.NearestFraction
import ZenMedia.Reduction

/-! Sums and products of fractions: the closest fraction of `int`s to the exact result. -/
namespace ZenMedia.Avutil

/-- `INT_MAX`, as the limit of a reduction. -/
def reduceMax : ℕ := 2147483647

def avMulQ (b c : AVRational) : AVRational :=
  (avReduce (int64 (b.num * c.num)) (int64 (b.den * c.den)) reduceMax).1

def avDivQ (b c : AVRational) : AVRational := avMulQ b ⟨c.den,c.num⟩

def avAddQ (b c : AVRational) : AVRational :=
  (avReduce (int64 (b.num * c.den + c.num * b.den)) (int64 (b.den * c.den)) reduceMax).1

def avSubQ (b c : AVRational) : AVRational := avAddQ b ⟨-c.num,c.den⟩

/-- In lowest terms, and no fraction of two `int`s is closer. -/
structure Closest (x : ℚ) (r : Ratio) : Prop where
  coprime : IsCoprime r.num r.den
  closest : ∀ s : Ratio, |x - r.value| ≤ |x - s.value|

/-- A fraction that needs no approximation is what is found. -/
lemma Closest.exact {x : ℚ} {r s : Ratio} (h : Closest x r) (hs : s.value = x) : r.value = x := by
  have hle := h.closest s
  rw [hs,sub_self,abs_zero] at hle
  have hzero := abs_nonpos_iff.mp hle
  linarith

lemma abs_sub_div {num den p q : ℚ} (hden : den ≠ 0) (hq : 0 < q) :
    |num / den - p / q| = |num * q - p * den| / (|den| * q) := by
  rw [div_sub_div _ _ hden hq.ne',abs_div,abs_mul den q,abs_of_pos hq,mul_comm den p]

lemma avReduce_ratio {num den : ℤ} (hnum : |num| ≤ int64Max) (hden : |den| ≤ int64Max)
    (hden0 : den ≠ 0) :
    ∃ r : Ratio, r.toAVRational = (avReduce num den reduceMax).1 ∧ Closest ((num : ℚ) / den) r := by
  obtain ⟨⟨hp,hq,hq'⟩,hcoprime,hclosest⟩ :=
    avReduce_best hnum hden hden0 (by decide : 1 ≤ reduceMax) (by decide)
  generalize (avReduce num den reduceMax).1 = found at *
  refine ⟨⟨found,hp,hq,hq'⟩,rfl,hcoprime,fun s => ?_⟩
  have hdenq : (den : ℚ) ≠ 0 := by exact_mod_cast hden0
  have hqq : (0 : ℚ) < found.den := by exact_mod_cast hq
  have hs := s.den_pos_rat
  have habs : 0 < |(den : ℚ)| := abs_pos.mpr hdenq
  rw [Ratio.value,Ratio.value,abs_sub_div hdenq hqq,abs_sub_div hdenq hs,
    div_le_div_iff₀ (mul_pos habs hqq) (mul_pos habs hs)]
  have hle : |(num : ℚ) * found.den - found.num * den| * s.den ≤
      |(num : ℚ) * s.den - s.num * den| * found.den := by
    exact_mod_cast hclosest s.num s.den s.num_le s.den_pos s.den_le
  have hscaled := mul_le_mul_of_nonneg_left hle habs.le
  linarith

/-! ### The operations -/

section operations
variable (b : Ratio) {c : AVRational} (hnum : |c.num| ≤ intMax) (hden : |c.den| ≤ intMax)

lemma product_fits {x y : ℤ} (hx : |x| ≤ intMax) (hy : |y| ≤ intMax) :
    |x * y| ≤ intMax * intMax ∧ int64 (x * y) = x * y := by
  have hle : |x * y| ≤ intMax * intMax := by
    rw [abs_mul]
    exact mul_le_mul hx hy (abs_nonneg y) (by decide)
  exact ⟨hle,int64_of_abs_le (hle.trans (by decide))⟩

lemma Ratio.den_abs_le : |b.den| ≤ intMax := by
  rw [abs_of_pos b.den_pos]
  exact b.den_le

include hnum hden

lemma avMulQ_closest (hden0 : c.den ≠ 0) :
    ∃ r : Ratio, r.toAVRational = avMulQ b.toAVRational c ∧
      Closest (b.value * (c.num / c.den)) r := by
  obtain ⟨hle,hint⟩ := product_fits b.num_le hnum
  obtain ⟨hle',hint'⟩ := product_fits b.den_abs_le hden
  obtain ⟨r,hr,hclosest⟩ := avReduce_ratio (hle.trans (by decide)) (hle'.trans (by decide))
    (mul_ne_zero b.den_pos.ne' hden0)
  refine ⟨r,?_,?_⟩
  · rw [avMulQ,hint,hint']
    exact hr
  · rw [Ratio.value,div_mul_div_comm]
    push_cast at hclosest
    exact hclosest

lemma avAddQ_closest (hden0 : c.den ≠ 0) :
    ∃ r : Ratio, r.toAVRational = avAddQ b.toAVRational c ∧
      Closest (b.value + c.num / c.den) r := by
  obtain ⟨hle,hint⟩ := product_fits b.den_abs_le hden
  have hfirst := abs_le.mp (product_fits b.num_le hden).1
  have hsecond := abs_le.mp (product_fits hnum b.den_abs_le).1
  have hsum : |b.num * c.den + c.num * b.den| ≤ int64Max := by
    simp only [intMax,int64Max] at *
    rw [abs_le]
    omega
  have hint' : int64 (b.num * c.den + c.num * b.den) = b.num * c.den + c.num * b.den :=
    int64_of_abs_le hsum
  obtain ⟨r,hr,hclosest⟩ := avReduce_ratio hsum (hle.trans (by decide))
    (mul_ne_zero b.den_pos.ne' hden0)
  refine ⟨r,?_,?_⟩
  · rw [avAddQ,hint,hint']
    exact hr
  · have hc : (c.den : ℚ) ≠ 0 := by exact_mod_cast hden0
    rw [Ratio.value,div_add_div _ _ b.den_pos_rat.ne' hc]
    push_cast at hclosest
    rw [mul_comm (b.den : ℚ) c.num]
    exact hclosest

end operations

lemma avSubQ_closest (b c : Ratio) :
    ∃ r : Ratio, r.toAVRational = avSubQ b.toAVRational c.toAVRational ∧
      Closest (b.value - c.value) r := by
  have hneg : |-c.num| ≤ intMax := by
    rw [abs_neg]
    exact c.num_le
  obtain ⟨r,hr,hclosest⟩ := avAddQ_closest b (c := ⟨-c.num,c.den⟩) hneg c.den_abs_le c.den_pos.ne'
  refine ⟨r,hr,?_⟩
  rw [sub_eq_add_neg]
  change Closest (b.value + -((c.num : ℚ) / c.den)) r
  rw [← neg_div]
  push_cast at hclosest
  exact hclosest

lemma avDivQ_closest (b : Ratio) {c : Ratio} (hnum : c.num ≠ 0) :
    ∃ r : Ratio, r.toAVRational = avDivQ b.toAVRational c.toAVRational ∧
      Closest (b.value / c.value) r := by
  obtain ⟨r,hr,hclosest⟩ := avMulQ_closest b (c := ⟨c.den,c.num⟩) c.den_abs_le c.num_le hnum
  refine ⟨r,hr,?_⟩
  rw [div_eq_mul_inv]
  change Closest (b.value * ((c.num : ℚ) / c.den)⁻¹) r
  rw [inv_div]
  exact hclosest

/-- Each operation gives the closest fraction to the exact result. -/
theorem avArithmetic_closest (b c : Ratio) (hnum : c.num ≠ 0) :
    (∃ r : Ratio, r.toAVRational = avMulQ b.toAVRational c.toAVRational ∧
      Closest (b.value * c.value) r) ∧
    (∃ r : Ratio, r.toAVRational = avDivQ b.toAVRational c.toAVRational ∧
      Closest (b.value / c.value) r) ∧
    (∃ r : Ratio, r.toAVRational = avAddQ b.toAVRational c.toAVRational ∧
      Closest (b.value + c.value) r) ∧
    ∃ r : Ratio, r.toAVRational = avSubQ b.toAVRational c.toAVRational ∧
      Closest (b.value - c.value) r :=
  ⟨avMulQ_closest b c.num_le c.den_abs_le c.den_pos.ne',avDivQ_closest b hnum,
    avAddQ_closest b c.num_le c.den_abs_le c.den_pos.ne',avSubQ_closest b c⟩

/-- A third by minus a sixth, which needs no approximation. -/
theorem avArithmetic_closest_sixth :
    ∃ r : Ratio, r.toAVRational = avDivQ ⟨1,3⟩ ⟨-1,6⟩ ∧ r.value = -2 := by
  let third : Ratio := ⟨⟨1,3⟩,by decide,by decide,by decide⟩
  let sixth : Ratio := ⟨⟨-1,6⟩,by decide,by decide,by decide⟩
  let two : Ratio := ⟨⟨-2,1⟩,by decide,by decide,by decide⟩
  obtain ⟨r,hr,hclosest⟩ := (avArithmetic_closest third sixth (by decide)).2.1
  have hquotient : third.value / sixth.value = -2 := by
    simp only [Ratio.value,third,sixth]
    norm_num
  rw [hquotient] at hclosest
  have htwo : two.value = -2 := by
    simp only [Ratio.value,two]
    norm_num
  exact ⟨r,hr,hclosest.exact htwo⟩

/-! ### There and back -/

/-- In lowest terms a value is written in one way. -/
lemma Ratio.eq_of_value {r s : Ratio} (hr : IsCoprime r.num r.den) (hs : IsCoprime s.num s.den)
    (h : r.value = s.value) : r.toAVRational = s.toAVRational := by
  have hcross : r.num * s.den = s.num * r.den := by
    rw [value,value,div_eq_div_iff r.den_pos_rat.ne' s.den_pos_rat.ne'] at h
    exact_mod_cast h
  have hdvd : r.den ∣ s.den := hr.symm.dvd_of_dvd_mul_left ⟨s.num,by rw [hcross,mul_comm]⟩
  have hdvd' : s.den ∣ r.den := hs.symm.dvd_of_dvd_mul_left ⟨r.num,by rw [← hcross,mul_comm]⟩
  have hden : r.den = s.den := Int.dvd_antisymm r.den_pos.le s.den_pos.le hdvd hdvd'
  rw [hden] at hcross
  have hnum : r.num = s.num := mul_right_cancel₀ s.den_pos.ne' hcross
  calc
    r.toAVRational = ⟨r.num,r.den⟩ := rfl
    _ = ⟨s.num,s.den⟩ := by rw [hnum,hden]

/-- Where the sum is a fraction of two `int`s, subtracting gives the first term back. -/
theorem avSubQ_back {b c t : Ratio} (hb : IsCoprime b.num b.den)
    (hfits : t.value = b.value + c.value) :
    avSubQ (avAddQ b.toAVRational c.toAVRational) c.toAVRational = b.toAVRational := by
  obtain ⟨s,hs,hsum⟩ := avAddQ_closest b c.num_le c.den_abs_le c.den_pos.ne'
  obtain ⟨r,hr,hdifference⟩ := avSubQ_closest s c
  have hvalue : s.value = b.value + c.value := hsum.exact hfits
  have hback : b.value = s.value - c.value := by linarith
  rw [← hs,← hr]
  exact Ratio.eq_of_value hdifference.coprime hb ((hdifference.exact hback).trans hback.symm)

theorem avSubQ_back_ntsc :
    avSubQ (avAddQ ⟨1001,30000⟩ ⟨1,25⟩) ⟨1,25⟩ = ⟨1001,30000⟩ := by
  let frame : Ratio := ⟨⟨1001,30000⟩,by decide,by decide,by decide⟩
  let pal : Ratio := ⟨⟨1,25⟩,by decide,by decide,by decide⟩
  let sum : Ratio := ⟨⟨2201,30000⟩,by decide,by decide,by decide⟩
  have hcoprime : IsCoprime frame.num frame.den := Int.isCoprime_iff_gcd_eq_one.mpr (by decide)
  have hsum : sum.value = frame.value + pal.value := by
    simp only [Ratio.value,frame,pal,sum]
    norm_num
  have hback := avSubQ_back hcoprime hsum
  exact hback

end ZenMedia.Avutil
