import ZenMedia.Fractions
import ZenMedia.TimeStamps

/-! Fractions in `int`s: the closest one to a fraction in 64-bit words. -/
namespace ZenMedia.Avutil

open Fractions

def avGcd (a b : ℕ) : ℕ := if b = 0 then a else avGcd b (a % b)
  termination_by b
  decreasing_by exact Nat.mod_lt _ (Nat.pos_of_ne_zero ‹_›)

lemma avGcd_eq (a b : ℕ) : avGcd a b = Nat.gcd a b := by
  induction a, b using avGcd.induct with
  | case1 a => rw [avGcd,if_pos rfl,Nat.gcd_zero_right]
  | case2 a b hb ih => rw [avGcd,if_neg hb,ih,Nat.gcd_comm b,← Nat.gcd_rec,Nat.gcd_comm]

/-- A `uint64_t`. -/
def uint64 (n : ℕ) : ℕ := n % 2 ^ 64

/-- An `int`, of a value that is not negative. -/
def int32 (n : ℕ) : ℕ := n % 2 ^ 32

/-- The loop of `av_reduce`, for `n` turns at most: `a1`, and `den` where it stops. -/
def reduceLoop (max : ℕ) : ℕ → ℕ × ℕ → ℕ × ℕ → ℕ → ℕ → (ℕ × ℕ) × ℕ
  | 0, _, a1, _, den => (a1,den)
  | n + 1, a0, a1, num, den =>
    if den = 0 then (a1,den)
    else
      let x := num / den
      let next_den := num - den * x
      let a2n := uint64 (x * a1.1 + a0.1)
      let a2d := uint64 (x * a1.2 + a0.2)
      if max < a2n ∨ max < a2d then
        let x := if a1.1 ≠ 0 then (max - a0.1) / a1.1 else x
        let x := if a1.2 ≠ 0 then min x ((max - a0.2) / a1.2) else x
        if num * a1.2 < uint64 (den * (2 * x * a1.2 + a0.2)) then
          ((int32 (x * a1.1 + a0.1),int32 (x * a1.2 + a0.2)),den)
        else (a1,den)
      else reduceLoop max n a1 (int32 a2n,int32 a2d) den next_den

/-- The fraction, and whether it is exact. -/
def avReduce (num den : ℤ) (max : ℕ) : AVRational × Bool :=
  let negative := xor (decide (num < 0)) (decide (den < 0))
  let gcd := avGcd (ffabs num).toNat (ffabs den).toNat
  let n := if gcd ≠ 0 then (ffabs num).toNat / gcd else num.toNat
  let d := if gcd ≠ 0 then (ffabs den).toNat / gcd else den.toNat
  let found := if n ≤ max ∧ d ≤ max then ((int32 n,int32 d),0) else reduceLoop max d (0,1) (1,0) n d
  (⟨if negative then -(found.1.1 : ℤ) else found.1.1,found.1.2⟩,found.2 = 0)

/-! ### The loop -/

/-- What holds before each turn. -/
structure Expansion (N D max : ℕ) (a0 a1 : ℕ × ℕ) (num den : ℕ) : Prop where
  num_eq : N = num * a1.1 + den * a0.1
  den_eq : D = num * a1.2 + den * a0.2
  det : (a1.1 : ℤ) * a0.2 - a0.1 * a1.2 = 1 ∨ (a1.1 : ℤ) * a0.2 - a0.1 * a1.2 = -1
  before : a0.1 ≤ max ∧ a0.2 ≤ max
  last : a1.1 ≤ max ∧ a1.2 ≤ max

/-- The `x` that is left when the next fraction is out of bounds. -/
def cut (max : ℕ) (a0 a1 : ℕ × ℕ) (x : ℕ) : ℕ :=
  if a1.2 ≠ 0 then min (if a1.1 ≠ 0 then (max - a0.1) / a1.1 else x) ((max - a0.2) / a1.2)
  else if a1.1 ≠ 0 then (max - a0.1) / a1.1 else x

lemma cut_spec {max x : ℕ} {a0 a1 : ℕ × ℕ} (hbefore : a0.1 ≤ max ∧ a0.2 ≤ max)
    (hover : max < x * a1.1 + a0.1 ∨ max < x * a1.2 + a0.2) :
    cut max a0 a1 x ≤ x ∧ cut max a0 a1 x * a1.1 + a0.1 ≤ max ∧
      cut max a0 a1 x * a1.2 + a0.2 ≤ max ∧
      (max < (cut max a0 a1 x + 1) * a1.1 + a0.1 ∨ max < (cut max a0 a1 x + 1) * a1.2 + a0.2) := by
  obtain ⟨p₀,q₀⟩ := a0
  obtain ⟨p,q⟩ := a1
  simp only [cut] at *
  rcases Nat.eq_zero_or_pos p with rfl | hp <;> rcases Nat.eq_zero_or_pos q with rfl | hq
  · omega
  · obtain ⟨hle,hgt,hlt⟩ := multiple_spec hq hbefore.2
    have hless := hlt x (by omega)
    rw [if_pos hq.ne',if_neg (by simp),Nat.min_eq_right hless.le]
    exact ⟨hless.le,by omega,hle,.inr hgt⟩
  · obtain ⟨hle,hgt,hlt⟩ := multiple_spec hp hbefore.1
    have hless := hlt x (by omega)
    rw [if_neg (by simp),if_pos hp.ne']
    exact ⟨hless.le,hle,by omega,.inl hgt⟩
  · obtain ⟨hle,hgt,hlt⟩ := multiple_spec hp hbefore.1
    obtain ⟨hle',hgt',hlt'⟩ := multiple_spec hq hbefore.2
    have hless := hlt x
    have hless' := hlt' x
    rw [if_pos hq.ne',if_pos hp.ne']
    generalize (max - p₀) / p = y at *
    generalize (max - q₀) / q = z at *
    rcases Nat.le_total y z with hyz | hyz
    · rw [Nat.min_eq_left hyz]
      have hmul := Nat.mul_le_mul_right q hyz
      exact ⟨by omega,hle,by omega,.inl hgt⟩
    · rw [Nat.min_eq_right hyz]
      have hmul := Nat.mul_le_mul_right p hyz
      exact ⟨by omega,by omega,hle',.inr hgt'⟩

lemma reduceLoop_cut {max n num den : ℕ} {a0 a1 : ℕ × ℕ} (hden : 0 < den) :
    reduceLoop max (n + 1) a0 a1 num den =
      let a2n := uint64 (num / den * a1.1 + a0.1)
      let a2d := uint64 (num / den * a1.2 + a0.2)
      if max < a2n ∨ max < a2d then
        let x := cut max a0 a1 (num / den)
        if num * a1.2 < uint64 (den * (2 * x * a1.2 + a0.2)) then
          ((int32 (x * a1.1 + a0.1),int32 (x * a1.2 + a0.2)),den)
        else (a1,den)
      else reduceLoop max n a1 (int32 a2n,int32 a2d) den (num - den * (num / den)) := by
  rw [reduceLoop,if_neg hden.ne']
  rfl

section expansion
variable {N D max num den : ℕ} {a0 a1 : ℕ × ℕ} (h : Expansion N D max a0 a1 num den)
include h

/-- Where the next fraction is out of bounds, the turn stops at the closest one. -/
lemma Expansion.stop (hden : 0 < den)
    (hover : max < num / den * a1.1 + a0.1 ∨ max < num / den * a1.2 + a0.2) :
    let x := cut max a0 a1 (num / den)
    if num * a1.2 < den * (2 * x * a1.2 + a0.2) then
      Best N D max (x * a1.1 + a0.1) (x * a1.2 + a0.2)
    else Best N D max a1.1 a1.2 := by
  have hcut := cut_spec h.before hover
  simp only
  generalize cut max a0 a1 (num / den) = x at *
  obtain ⟨hx,hnum,hden',hout⟩ := hcut
  have hmul : den * x ≤ num := (Nat.mul_le_mul_left den hx).trans (Nat.mul_div_le num den)
  have hneighbours : Neighbours a1.1 a1.2 ((x * a1.1 + a0.1 : ℕ) : ℤ) ((x * a1.2 + a0.2 : ℕ) : ℤ) den
      (num - den * x) := by
    constructor
    · have hdet : (a1.1 : ℤ) * ((x * a1.2 + a0.2 : ℕ) : ℤ) - ((x * a1.1 + a0.1 : ℕ) : ℤ) * a1.2 =
          a1.1 * a0.2 - a0.1 * a1.2 := by
        push_cast
        ring
      rw [hdet]
      exact h.det
    · have hcast : ((den * x : ℕ) : ℤ) ≤ num := by exact_mod_cast hmul
      push_cast at hcast
      refine ⟨by positivity,by positivity,by positivity,by positivity,by positivity,by omega⟩
  have hN : ((num : ℤ) - den * x) * a1.1 + den * ((x * a1.1 + a0.1 : ℕ) : ℤ) = N := by
    rw [h.num_eq]
    push_cast
    ring
  have hD : ((num : ℤ) - den * x) * a1.2 + den * ((x * a1.2 + a0.2 : ℕ) : ℤ) = D := by
    rw [h.den_eq]
    push_cast
    ring
  have hsum : (max : ℤ) < a1.1 + ((x * a1.1 + a0.1 : ℕ) : ℤ) ∨
      (max : ℤ) < a1.2 + ((x * a1.2 + a0.2 : ℕ) : ℤ) := by
    refine hout.imp ?_ ?_ <;>
    · intro hlt
      rw [Nat.add_mul] at hlt
      omega
  have hgap (r s : ℤ) : gap a1.1 a1.2 ((x * a1.1 + a0.1 : ℕ) : ℤ) ((x * a1.2 + a0.2 : ℕ) : ℤ) den
      (num - den * x) r s = |(N : ℤ) * s - r * D| := by
    rw [gap,hN,hD]
  have hchoice : num * a1.2 < den * (2 * x * a1.2 + a0.2) ↔
      ((num : ℤ) - den * x) * a1.2 < den * ((x * a1.2 + a0.2 : ℕ) : ℤ) := by
    rw [← Int.ofNat_lt]
    push_cast
    constructor <;> intro hlt <;> linarith
  simp only [hchoice]
  split_ifs with hcloser
  · constructor
    · exact hnum
    · exact hden'
    · by_contra hzero
      have hzero' : x * a1.2 + a0.2 = 0 := by omega
      rw [hzero',Nat.cast_zero,mul_zero] at hcloser
      have hnonneg := mul_nonneg hneighbours.nonneg.2.2.2.2.2 hneighbours.nonneg.2.1
      omega
    · apply isCoprime_of_det (r := (a1.1 : ℤ)) (s := (a1.2 : ℤ))
      rcases hneighbours.det with hdet | hdet
      · exact .inr (by linear_combination -hdet)
      · exact .inl (by linear_combination -hdet)
    · intro r s hr hs hs'
      have hbest := hneighbours.second_best hcloser.le hsum (by exact_mod_cast hr : (r : ℤ) ≤ max)
        (by exact_mod_cast hs : (0 : ℤ) < s) (by exact_mod_cast hs')
      rw [hgap,hgap] at hbest
      exact hbest
  · have hle := not_lt.mp hcloser
    constructor
    · exact h.last.1
    · exact h.last.2
    · by_contra hzero
      have hzero' : a1.2 = 0 := by omega
      have hdet := h.det
      rw [hzero'] at hdet hle
      have hpos : 0 < a0.2 := by
        by_contra hnone
        have hnone' : a0.2 = 0 := by omega
        rw [hnone'] at hdet
        simp at hdet
      have hprod : (0 : ℤ) < den * (a0.2 : ℤ) := by positivity
      simp only [Nat.zero_add,Nat.cast_zero,mul_zero] at hle
      omega
    · exact isCoprime_of_det hneighbours.det
    · intro r s hr hs hs'
      have hbest := hneighbours.first_best hle hsum (by exact_mod_cast hr : (r : ℤ) ≤ max)
        (by exact_mod_cast hs : (0 : ℤ) < s) (by exact_mod_cast hs')
      rw [hgap,hgap] at hbest
      exact hbest

/-- The next fraction is at most the one that is looked for: nothing overflows. -/
lemma Expansion.next_le (hden : 0 < den) :
    num / den * a1.1 + a0.1 ≤ N ∧ num / den * a1.2 + a0.2 ≤ D := by
  have hmul := Nat.div_mul_le_self num den
  have hnext (p q : ℕ) : num / den * p + q ≤ num * p + den * q := by
    have hp : num / den * p ≤ num * p := Nat.mul_le_mul_right p (Nat.div_le_self num den)
    have hq : q ≤ den * q := Nat.le_mul_of_pos_left q hden
    omega
  rw [h.num_eq,h.den_eq]
  exact ⟨hnext _ _,hnext _ _⟩

/-- The sides of the comparison fit into 64 bits as well. -/
lemma Expansion.choice_le {x : ℕ} (hx : x ≤ num / den) :
    num * a1.2 ≤ D ∧ den * (2 * x * a1.2 + a0.2) ≤ 2 * D := by
  have hmul : den * x ≤ num := (Nat.mul_le_mul_left den hx).trans (Nat.mul_div_le num den)
  have hlast := Nat.mul_le_mul_right a1.2 hmul
  have hchoice : den * (2 * x * a1.2 + a0.2) = 2 * (den * x * a1.2) + den * a0.2 := by ring
  have hden := h.den_eq
  omega

lemma Expansion.next (hin : num / den * a1.1 + a0.1 ≤ max ∧ num / den * a1.2 + a0.2 ≤ max) :
    Expansion N D max a1 (num / den * a1.1 + a0.1,num / den * a1.2 + a0.2) den
      (num - den * (num / den)) := by
  have hmul := Nat.mul_div_le num den
  constructor
  · rw [h.num_eq]
    zify [hmul]
    ring
  · rw [h.den_eq]
    zify [hmul]
    ring
  · push_cast
    rcases h.det with hdet | hdet
    · exact .inr (by linear_combination -hdet)
    · exact .inl (by linear_combination -hdet)
  · exact h.last
  · exact hin

/-- A fraction in lowest terms that is out of bounds is not reached. -/
lemma Expansion.den_pos (hcoprime : N.Coprime D) (hlarge : max < N ∨ max < D) : 0 < den := by
  by_contra hstop
  obtain rfl : den = 0 := by omega
  have hN : N = num * a1.1 := by simpa using h.num_eq
  have hD : D = num * a1.2 := by simpa using h.den_eq
  have hone : num = 1 := Nat.eq_one_of_dvd_coprimes hcoprime ⟨_,hN⟩ ⟨_,hD⟩
  rw [hone,one_mul] at hN hD
  have := h.last
  omega

/-- In the source's words the turn computes what it would with numbers. -/
lemma Expansion.turn (n : ℕ) (hden : 0 < den) (hN : N < 2 ^ 63) (hD : D < 2 ^ 63)
    (hmax : max < 2 ^ 31) :
    reduceLoop max (n + 1) a0 a1 num den =
      let x := num / den
      if max < x * a1.1 + a0.1 ∨ max < x * a1.2 + a0.2 then
        let x := cut max a0 a1 x
        if num * a1.2 < den * (2 * x * a1.2 + a0.2) then
          ((x * a1.1 + a0.1,x * a1.2 + a0.2),den)
        else (a1,den)
      else reduceLoop max n a1 (x * a1.1 + a0.1,x * a1.2 + a0.2) den (num - den * x) := by
  have hnext := h.next_le hden
  have hn : uint64 (num / den * a1.1 + a0.1) = num / den * a1.1 + a0.1 :=
    Nat.mod_eq_of_lt (by omega)
  have hd : uint64 (num / den * a1.2 + a0.2) = num / den * a1.2 + a0.2 :=
    Nat.mod_eq_of_lt (by omega)
  rw [reduceLoop_cut hden,hn,hd]
  by_cases hover : max < num / den * a1.1 + a0.1 ∨ max < num / den * a1.2 + a0.2
  · obtain ⟨hx,hnum,hden',-⟩ := cut_spec h.before hover
    have hchoice := (h.choice_le hx).2
    simp only [if_pos hover]
    rw [uint64,Nat.mod_eq_of_lt (by omega),int32,int32,Nat.mod_eq_of_lt (by omega),
      Nat.mod_eq_of_lt (by omega)]
  · simp only [if_neg hover]
    rw [int32,int32,Nat.mod_eq_of_lt (by omega),Nat.mod_eq_of_lt (by omega)]

end expansion

lemma reduceLoop_best {N D max : ℕ} (hcoprime : N.Coprime D) (hlarge : max < N ∨ max < D)
    (hN : N < 2 ^ 63) (hD : D < 2 ^ 63) (hmax : max < 2 ^ 31) (n : ℕ) {a0 a1 : ℕ × ℕ} {num den : ℕ} (h : Expansion N D max a0 a1 num den) (hn : den ≤ n) :
    Best N D max (reduceLoop max n a0 a1 num den).1.1 (reduceLoop max n a0 a1 num den).1.2 ∧
      (reduceLoop max n a0 a1 num den).2 ≠ 0 := by
  induction n generalizing a0 a1 num den with
  | zero =>
    have := h.den_pos hcoprime hlarge
    omega
  | succ n ih =>
    have hden := h.den_pos hcoprime hlarge
    rw [h.turn n hden hN hD hmax]
    simp only
    split_ifs with hover hcloser
    · have hstop := h.stop hden hover
      simp only [if_pos hcloser] at hstop
      exact ⟨hstop,hden.ne'⟩
    · have hstop := h.stop hden hover
      simp only [if_neg hcloser] at hstop
      exact ⟨hstop,hden.ne'⟩
    · apply ih (h.next (by omega))
      have := Nat.mod_lt num hden
      have := Nat.mod_add_div num den
      omega

/-! ### The reduction -/

/-- What is found for a numerator and a denominator without a sign. -/
def reduced (max n d : ℕ) : (ℕ × ℕ) × ℕ :=
  if n ≤ max ∧ d ≤ max then ((int32 n,int32 d),0) else reduceLoop max d (0,1) (1,0) n d

lemma reduced_best {N D max : ℕ} (hcoprime : N.Coprime D) (hpos : 0 < D) (hN : N < 2 ^ 63)
    (hD : D < 2 ^ 63) (hmax : 1 ≤ max) (hmax' : max < 2 ^ 31) :
    Best N D max (reduced max N D).1.1 (reduced max N D).1.2 ∧
      ((reduced max N D).2 = 0 ↔ N * (reduced max N D).1.2 = (reduced max N D).1.1 * D) := by
  rw [reduced]
  split_ifs with hin
  · have hn : int32 N = N := Nat.mod_eq_of_lt (by omega)
    have hd : int32 D = D := Nat.mod_eq_of_lt (by omega)
    simp only [hn,hd]
    refine ⟨⟨hin.1,hin.2,hpos,Nat.isCoprime_iff_coprime.mpr hcoprime,?_⟩,by simp⟩
    intro r s hr hs hs'
    rw [sub_self,abs_zero,zero_mul]
    positivity
  · have hlarge : max < N ∨ max < D := by omega
    have hstart : Expansion N D max (0,1) (1,0) N D := by
      constructor <;> simp [hmax]
    obtain ⟨hbest,hinexact⟩ := reduceLoop_best hcoprime hlarge hN hD hmax' D hstart le_rfl
    refine ⟨hbest,fun hexact => absurd hexact hinexact,fun heq => ?_⟩
    have hsame := eq_of_coprime hcoprime (Nat.isCoprime_iff_coprime.mp hbest.coprime) heq
    have := hbest.num_le
    have := hbest.den_le
    omega

def negated (x : ℤ) : ℤ := if x < 0 then -1 else 1

lemma negated_cases (x : ℤ) : negated x = 1 ∨ negated x = -1 := by
  rw [negated]
  split_ifs <;> simp

lemma negated_mul (x : ℤ) : negated x * |x| = x := by
  rw [negated]
  split_ifs with h
  · rw [abs_of_neg h]
    ring
  · rw [abs_of_nonneg (not_lt.mp h),one_mul]

/-- An integer by its sign, a divisor and what is left. -/
lemma eq_scaled {x : ℤ} {g : ℕ} (h : g ∣ x.natAbs) : x = negated x * (g * (x.natAbs / g : ℕ)) := by
  rw [← Nat.cast_mul,Nat.mul_div_cancel' h,Int.natCast_natAbs,negated_mul]

lemma avReduce_eq {num den : ℤ} (max : ℕ) (hnum : |num| ≤ int64Max) (hden : |den| ≤ int64Max)
    (hden0 : den ≠ 0) :
    let found := reduced max (num.natAbs / num.gcd den) (den.natAbs / num.gcd den)
    avReduce num den max =
      (⟨negated num * negated den * found.1.1,found.1.2⟩,decide (found.2 = 0)) := by
  have hgcd0 : num.natAbs.gcd den.natAbs ≠ 0 :=
    (Int.gcd_pos_of_ne_zero_right num hden0).ne'
  have hnum' : (ffabs num).toNat = num.natAbs := by
    rw [ffabs_eq hnum,Int.abs_eq_natAbs,Int.toNat_natCast]
  have hden' : (ffabs den).toNat = den.natAbs := by
    rw [ffabs_eq hden,Int.abs_eq_natAbs,Int.toNat_natCast]
  intro found
  rw [avReduce]
  simp only [hnum',hden',avGcd_eq,if_pos hgcd0]
  change (AVRational.mk _ (found.1.2 : ℤ),decide (found.2 = 0)) = _
  congr 2
  change (if _ then -(found.1.1 : ℤ) else found.1.1) = _
  rw [negated,negated]
  by_cases hn : num < 0 <;> by_cases hd : den < 0 <;> simp [hn,hd]

section arguments
variable {num den : ℤ} {max : ℕ} (hnum : |num| ≤ int64Max) (hden : |den| ≤ int64Max) (hden0 : den ≠ 0)
  (hmax : 1 ≤ max) (hmax' : (max : ℤ) ≤ intMax)
include hnum hden hden0 hmax hmax'

/-- The arguments by their signs and in lowest terms, and what is found for those. -/
lemma avReduce_lowest : ∃ (σ τ g : ℤ) (N D p q : ℕ), (σ = 1 ∨ σ = -1) ∧ (τ = 1 ∨ τ = -1) ∧ 0 < g ∧
    num = σ * (g * N) ∧ den = τ * (g * D) ∧ Best N D max p q ∧
    (avReduce num den max).1 = ⟨σ * τ * p,q⟩ ∧ ((avReduce num den max).2 = true ↔ N * q = p * D) := by
  have hg : 0 < num.gcd den := Int.gcd_pos_of_ne_zero_right num hden0
  have hcoprime : (num.natAbs / num.gcd den).Coprime (den.natAbs / num.gcd den) :=
    Nat.coprime_div_gcd_div_gcd hg
  have hNle := Nat.div_le_self num.natAbs (num.gcd den)
  have hDle := Nat.div_le_self den.natAbs (num.gcd den)
  have hpos : 0 < den.natAbs / num.gcd den :=
    Nat.div_pos (Nat.le_of_dvd (Int.natAbs_pos.mpr hden0) (Int.gcd_dvd_natAbs_right num den)) hg
  rw [avReduce_eq max hnum hden hden0]
  simp only [int64Max,intMax,Int.abs_eq_natAbs] at hnum hden hmax'
  obtain ⟨hbest,hexact⟩ := reduced_best hcoprime hpos (by omega) (by omega) hmax (by omega)
  exact ⟨negated num,negated den,num.gcd den,_,_,_,_,negated_cases num,negated_cases den,
    by exact_mod_cast hg,eq_scaled (Int.gcd_dvd_natAbs_left num den),
    eq_scaled (Int.gcd_dvd_natAbs_right num den),hbest,rfl,by rw [decide_eq_true_iff,hexact]⟩

/-- No fraction in bounds is closer. -/
lemma avReduce_best :
    let found := (avReduce num den max).1
    (|found.num| ≤ max ∧ 0 < found.den ∧ found.den ≤ max) ∧ IsCoprime found.num found.den ∧
      ∀ r s : ℤ, |r| ≤ max → 0 < s → s ≤ max →
        |num * found.den - found.num * den| * s ≤ |num * s - r * den| * found.den := by
  obtain ⟨σ,τ,g,N,D,p,q,hσ,hτ,hg,hsn,hsd,hbest,hfound,-⟩ :=
    avReduce_lowest hnum hden hden0 hmax hmax'
  rw [hfound]
  simp only
  refine ⟨⟨?_,?_,?_⟩,?_,?_⟩
  · have hle : (p : ℤ) ≤ max := by exact_mod_cast hbest.num_le
    rcases hσ with rfl | rfl <;> rcases hτ with rfl | rfl <;> simpa using hle
  · exact_mod_cast hbest.den_pos
  · exact_mod_cast hbest.den_le
  · have hcoprime := hbest.coprime
    rcases hσ with rfl | rfl <;> rcases hτ with rfl | rfl <;>
      simpa only [one_mul,neg_mul,neg_neg,IsCoprime.neg_left_iff] using hcoprime
  · intro r s hr hs hs'
    have hr' := abs_le.mp hr
    have hclosest := hbest.closest r.natAbs s.toNat (by omega) (by omega) (by omega)
    rw [Int.toNat_of_nonneg hs.le,Int.natCast_natAbs] at hclosest
    have hgap := scaled_gap hsn hsd hσ hτ hg.le p q
    have hfar := scaled_gap_abs hsn hsd hσ hτ hg.le (by positivity) (by positivity) r hs
    calc
      |num * q - σ * τ * p * den| * s = g * (|(N : ℤ) * q - p * D| * s) := by rw [hgap,mul_assoc]
      _ ≤ g * (|(N : ℤ) * s - |r| * D| * q) := mul_le_mul_of_nonneg_left hclosest hg.le
      _ = g * |(N : ℤ) * s - |r| * D| * q := by rw [mul_assoc]
      _ ≤ |num * s - r * den| * q := mul_le_mul_of_nonneg_right hfar (by positivity)

lemma avReduce_exact_iff :
    let found := avReduce num den max
    found.2 = true ↔ num * found.1.den = found.1.num * den := by
  obtain ⟨σ,τ,g,N,D,p,q,hσ,hτ,hg,hsn,hsd,-,hfound,hexact⟩ :=
    avReduce_lowest hnum hden hden0 hmax hmax'
  have hgap := scaled_gap hsn hsd hσ hτ hg.le p q
  simp only [hfound,hexact]
  rw [← sub_eq_zero (a := num * q),← abs_eq_zero,hgap,mul_eq_zero,or_iff_right hg.ne',abs_eq_zero,
    sub_eq_zero]
  exact_mod_cast Iff.rfl

end arguments

/-- The fraction is in lowest terms, in bounds, exact when it says so, and no fraction in bounds
is closer. -/
theorem avReduce_closest (num den : ℤ) (max : ℕ) (hnum : |num| ≤ int64Max) (hden : |den| ≤ int64Max)
    (hden0 : den ≠ 0) (hmax : 1 ≤ max) (hmax' : (max : ℤ) ≤ intMax) :
    let found := avReduce num den max
    (|found.1.num| ≤ max ∧ 0 < found.1.den ∧ found.1.den ≤ max) ∧
      IsCoprime found.1.num found.1.den ∧
      (found.2 = true ↔ num * found.1.den = found.1.num * den) ∧
      ∀ r s : ℤ, |r| ≤ max → 0 < s → s ≤ max →
        |num * found.1.den - found.1.num * den| * s ≤ |num * s - r * den| * found.1.den := by
  obtain ⟨hbounds,hcoprime,hclosest⟩ := avReduce_best hnum hden hden0 hmax hmax'
  exact ⟨hbounds,hcoprime,avReduce_exact_iff hnum hden hden0 hmax hmax',hclosest⟩

theorem avReduce_closest_pi :
    avReduce 314159265358979 100000000000000 1000 = (⟨355,113⟩,false) ∧
      ∀ r s : ℤ, |r| ≤ 1000 → 0 < s → s ≤ 1000 →
        |314159265358979 * 113 - 355 * 100000000000000| * s ≤
          |314159265358979 * s - r * 100000000000000| * 113 := by
  have hfound : avReduce 314159265358979 100000000000000 1000 = (⟨355,113⟩,false) := by
    rw [avReduce_eq 1000 (by decide) (by decide) (by decide)]
    decide +kernel
  have hclosest := avReduce_closest 314159265358979 100000000000000 1000 (by decide) (by decide)
    (by decide) (by decide) (by decide)
  rw [hfound] at hclosest
  exact ⟨hfound,hclosest.2.2.2⟩

end ZenMedia.Avutil
