import Mathlib

/-! Fractions of bounded numbers, and which of them is the closest one. -/
namespace ZenMedia.Fractions

/-- A fraction in bounds that none in bounds is closer than. -/
structure Best (N D max p q : ℕ) : Prop where
  num_le : p ≤ max
  den_le : q ≤ max
  den_pos : 0 < q
  coprime : IsCoprime (p : ℤ) q
  closest : ∀ r s : ℕ, r ≤ max → 0 < s → s ≤ max →
    |(N : ℤ) * q - p * D| * s ≤ |(N : ℤ) * s - r * D| * q

/-- Two fractions in lowest terms with the same value are the same. -/
lemma eq_of_coprime {n d p q : ℕ} (hnd : n.Coprime d) (hpq : p.Coprime q) (h : n * q = p * d) :
    n = p ∧ d = q := by
  constructor
  · apply Nat.dvd_antisymm
    · exact hnd.dvd_of_dvd_mul_right ⟨q,h.symm⟩
    · exact hpq.dvd_of_dvd_mul_right ⟨d,h⟩
  · apply Nat.dvd_antisymm
    · exact hnd.symm.dvd_of_dvd_mul_left ⟨p,by rw [h,Nat.mul_comm]⟩
    · exact hpq.symm.dvd_of_dvd_mul_left ⟨n,by rw [← h,Nat.mul_comm]⟩

lemma isCoprime_of_det {p q r s : ℤ} (h : p * s - r * q = 1 ∨ p * s - r * q = -1) : IsCoprime p q := by
  rcases h with hdet | hdet
  · exact ⟨s,-r,by linear_combination hdet⟩
  · exact ⟨-s,r,by linear_combination -hdet⟩

/-- The largest multiple that stays in bounds. -/
lemma multiple_spec {max p₀ p : ℕ} (hp : 0 < p) (h : p₀ ≤ max) :
    (max - p₀) / p * p + p₀ ≤ max ∧ max < ((max - p₀) / p + 1) * p + p₀ ∧
      ∀ x, max < x * p + p₀ → (max - p₀) / p < x := by
  have hle := Nat.div_mul_le_self (max - p₀) p
  have hlt : max - p₀ < (max - p₀) / p * p + p := Nat.lt_div_mul_add hp
  refine ⟨by omega,?_,?_⟩
  · rw [Nat.add_mul]
    omega
  · intro x hx
    apply lt_of_mul_lt_mul_right _ (Nat.zero_le p)
    omega

/-! ### Between two neighbours -/

/-- Two fractions that are next to each other, and the one between them that they are to
approach. -/
structure Neighbours (p₁ q₁ p₂ q₂ d e : ℤ) : Prop where
  det : p₁ * q₂ - p₂ * q₁ = 1 ∨ p₁ * q₂ - p₂ * q₁ = -1
  nonneg : 0 ≤ p₁ ∧ 0 ≤ q₁ ∧ 0 ≤ p₂ ∧ 0 ≤ q₂ ∧ 0 ≤ d ∧ 0 ≤ e

/-- How far a fraction is from `(e * p₁ + d * p₂) / (e * q₁ + d * q₂)`, but for the denominators. -/
def gap (p₁ q₁ p₂ q₂ d e r s : ℤ) : ℤ := |(e * p₁ + d * p₂) * s - r * (e * q₁ + d * q₂)|

section neighbours
variable {p₁ q₁ p₂ q₂ d e : ℤ} (h : Neighbours p₁ q₁ p₂ q₂ d e)
include h

lemma Neighbours.gap_eq (u v : ℤ) :
    gap p₁ q₁ p₂ q₂ d e (u * p₁ + v * p₂) (u * q₁ + v * q₂) = |e * v - d * u| := by
  have hlinear : (e * p₁ + d * p₂) * (u * q₁ + v * q₂) - (u * p₁ + v * p₂) * (e * q₁ + d * q₂) =
      (e * v - d * u) * (p₁ * q₂ - p₂ * q₁) := by ring
  rw [gap,hlinear,abs_mul]
  rcases h.det with hdet | hdet <;> rw [hdet] <;> simp

/-- Every fraction combines the two. -/
lemma Neighbours.combines (r s : ℤ) : ∃ u v, r = u * p₁ + v * p₂ ∧ s = u * q₁ + v * q₂ := by
  rcases h.det with hdet | hdet
  · refine ⟨r * q₂ - s * p₂,s * p₁ - r * q₁,?_,?_⟩
    · linear_combination (-r) * hdet
    · linear_combination (-s) * hdet
  · refine ⟨s * p₂ - r * q₂,r * q₁ - s * p₁,?_,?_⟩
    · linear_combination r * hdet
    · linear_combination s * hdet

/-- A fraction of numbers below their sum is no closer than one of the two. -/
lemma Neighbours.no_closer {r s max : ℤ} (hout : max < p₁ + p₂ ∨ max < q₁ + q₂) (hr : r ≤ max)
    (hs : 0 < s) (hs' : s ≤ max) :
    (d * s ≤ gap p₁ q₁ p₂ q₂ d e r s * q₁ ∧ 0 < q₁) ∨
      (e * s ≤ gap p₁ q₁ p₂ q₂ d e r s * q₂ ∧ 0 < q₂) := by
  obtain ⟨u,v,rfl,rfl⟩ := h.combines r s
  obtain ⟨hp₁,hq₁,hp₂,hq₂,hd,he⟩ := h.nonneg
  rw [h.gap_eq]
  rcases le_or_gt u 0 with hu | hu <;> rcases le_or_gt v 0 with hv | hv
  · nlinarith
  · right
    have hq : u * q₁ ≤ 0 := mul_nonpos_of_nonpos_of_nonneg hu hq₁
    have hdu : d * u ≤ 0 := mul_nonpos_of_nonneg_of_nonpos hd hu
    have hgap : e * v ≤ |e * v - d * u| := by
      have := le_abs_self (e * v - d * u)
      linarith
    constructor
    · calc
        e * (u * q₁ + v * q₂) ≤ e * (v * q₂) := mul_le_mul_of_nonneg_left (by linarith) he
        _ = e * v * q₂ := by ring
        _ ≤ _ := mul_le_mul_of_nonneg_right hgap hq₂
    · by_contra hzero
      have hq₂0 : q₂ = 0 := by omega
      rw [hq₂0] at hs
      linarith
  · left
    have hq : v * q₂ ≤ 0 := mul_nonpos_of_nonpos_of_nonneg hv hq₂
    have hev : e * v ≤ 0 := mul_nonpos_of_nonneg_of_nonpos he hv
    have hgap : d * u ≤ |e * v - d * u| := by
      have := neg_le_abs (e * v - d * u)
      linarith
    constructor
    · calc
        d * (u * q₁ + v * q₂) ≤ d * (u * q₁) := mul_le_mul_of_nonneg_left (by linarith) hd
        _ = d * u * q₁ := by ring
        _ ≤ _ := mul_le_mul_of_nonneg_right hgap hq₁
    · by_contra hzero
      have hq₁0 : q₁ = 0 := by omega
      rw [hq₁0] at hs
      linarith
  · -- both at least once: already their sum is too large
    have hp₁' : p₁ ≤ u * p₁ := le_mul_of_one_le_left hp₁ hu
    have hp₂' : p₂ ≤ v * p₂ := le_mul_of_one_le_left hp₂ hv
    have hq₁' : q₁ ≤ u * q₁ := le_mul_of_one_le_left hq₁ hu
    have hq₂' : q₂ ≤ v * q₂ := le_mul_of_one_le_left hq₂ hv
    omega

/-- The first one is the closest unless the second one is closer. -/
lemma Neighbours.first_best (hnear : d * q₂ ≤ e * q₁) {r s max : ℤ}
    (hout : max < p₁ + p₂ ∨ max < q₁ + q₂) (hr : r ≤ max) (hs : 0 < s) (hs' : s ≤ max) :
    gap p₁ q₁ p₂ q₂ d e p₁ q₁ * s ≤ gap p₁ q₁ p₂ q₂ d e r s * q₁ := by
  have hself : gap p₁ q₁ p₂ q₂ d e p₁ q₁ = d := by
    have heq := h.gap_eq 1 0
    simp only [one_mul,zero_mul,add_zero,mul_zero,mul_one,zero_sub,abs_neg] at heq
    rw [heq,abs_of_nonneg h.nonneg.2.2.2.2.1]
  rw [hself]
  rcases h.no_closer hout hr hs hs' with ⟨hle,-⟩ | ⟨hle,hpos⟩
  · exact hle
  · have hq₁ := h.nonneg.2.1
    nlinarith [mul_le_mul_of_nonneg_right hnear hs.le,mul_le_mul_of_nonneg_right hle hq₁]

lemma Neighbours.second_best (hnear : e * q₁ ≤ d * q₂) {r s max : ℤ}
    (hout : max < p₁ + p₂ ∨ max < q₁ + q₂) (hr : r ≤ max) (hs : 0 < s) (hs' : s ≤ max) :
    gap p₁ q₁ p₂ q₂ d e p₂ q₂ * s ≤ gap p₁ q₁ p₂ q₂ d e r s * q₂ := by
  have hself : gap p₁ q₁ p₂ q₂ d e p₂ q₂ = e := by
    have heq := h.gap_eq 0 1
    simp only [one_mul,zero_mul,zero_add,mul_zero,mul_one,sub_zero] at heq
    rw [heq,abs_of_nonneg h.nonneg.2.2.2.2.2]
  rw [hself]
  rcases h.no_closer hout hr hs hs' with ⟨hle,hpos⟩ | ⟨hle,-⟩
  · have hq₂ := h.nonneg.2.2.2.1
    nlinarith [mul_le_mul_of_nonneg_right hnear hs.le,mul_le_mul_of_nonneg_right hle hq₂]
  · exact hle

end neighbours

/-! ### Signs and common factors -/

section scaled
variable {num den σ τ g n d : ℤ} (hnum : num = σ * (g * n)) (hden : den = τ * (g * d))
  (hσ : σ = 1 ∨ σ = -1) (hτ : τ = 1 ∨ τ = -1) (hg : 0 ≤ g)
include hnum hden hσ hτ hg

lemma scaled_gap (p q : ℤ) : |num * q - σ * τ * p * den| = g * |n * q - p * d| := by
  rw [hnum,hden,← abs_of_nonneg hg,← abs_mul,abs_of_nonneg hg]
  rcases hσ with rfl | rfl <;> rcases hτ with rfl | rfl
  · congr 1
    ring
  · congr 1
    ring
  · rw [← abs_neg]
    congr 1
    ring
  · rw [← abs_neg]
    congr 1
    ring

/-- A fraction of the other sign is further. -/
lemma scaled_gap_abs (hn : 0 ≤ n) (hd : 0 ≤ d) (r : ℤ) {s : ℤ} (hs : 0 < s) :
    g * |n * s - |r| * d| ≤ |num * s - r * den| := by
  have hsign : σ * τ * (σ * τ * r) = r := by
    rcases hσ with rfl | rfl <;> rcases hτ with rfl | rfl <;> ring
  have habs : |σ * τ * r| = |r| := by
    rcases hσ with rfl | rfl <;> rcases hτ with rfl | rfl <;> simp
  have hgap := scaled_gap hnum hden hσ hτ hg (σ * τ * r) s
  rw [hsign] at hgap
  rw [hgap,← habs]
  apply mul_le_mul_of_nonneg_left _ hg
  generalize σ * τ * r = t
  have hns := mul_nonneg hn hs.le
  rcases le_or_gt 0 t with ht | ht
  · rw [abs_of_nonneg ht]
  · have htd := mul_nonneg (neg_nonneg.mpr ht.le) hd
    rw [abs_of_neg ht]
    refine abs_le.mpr ⟨?_,?_⟩ <;>
    · have := le_abs_self (n * s - t * d)
      linarith

end scaled

end ZenMedia.Fractions
