import ZenMedia.Rescaling

/-! Time stamps in rational units: rescaled there and back, and compared across units. -/
namespace ZenMedia.Avutil
open Rounding

structure AVRational where
  num : ℤ
  den : ℤ
  deriving DecidableEq, Repr

/-- A unit of time, in two positive `int`s. -/
structure TimeBase extends AVRational where
  num_pos : 0 < num
  num_le : num ≤ intMax
  den_pos : 0 < den
  den_le : den ≤ intMax

def TimeBase.value (tb : TimeBase) : ℚ := tb.num / tb.den

def avRescaleQRnd (a : ℤ) (bq cq : AVRational) (rnd : UInt32) : ℤ :=
  avRescaleRnd a (int64 (bq.num * cq.den)) (int64 (cq.num * bq.den)) rnd

def avRescaleQ (a : ℤ) (bq cq : AVRational) : ℤ := avRescaleQRnd a bq cq (avRound .nearInf)

/-- `FFABS` on an `int64_t`. -/
def ffabs (x : ℤ) : ℤ := if 0 ≤ x then x else int64 (-x)

def avCompareTs (ts_a : ℤ) (tb_a : AVRational) (ts_b : ℤ) (tb_b : AVRational) : ℤ :=
  let a := int64 (tb_a.num * tb_b.den)
  let b := int64 (tb_b.num * tb_a.den)
  if (((ffabs ts_a).lor a).lor (ffabs ts_b)).lor b ≤ intMax then
    (if int64 (ts_b * b) < int64 (ts_a * a) then 1 else 0) -
      (if int64 (ts_a * a) < int64 (ts_b * b) then 1 else 0)
  else if avRescaleRnd ts_a a b (avRound .down) < ts_b then -1
  else if avRescaleRnd ts_b b a (avRound .down) < ts_a then 1
  else 0

/-! ### What a time stamp becomes -/

/-- A result that may not fit. -/
def fitting (q : ℤ) : ℤ := if |q| ≤ int64Max then q else int64Min

lemma fitting_eq {q : ℤ} (h : |q| ≤ int64Max) : fitting q = q := if_pos h

lemma avRescaleRnd_mode (mode : Mode) {a b c : ℤ} (ha : |a| ≤ int64Max) (hb : 0 ≤ b)
    (hb' : b ≤ int64Max) (hc : 0 < c) (hc' : c ≤ int64Max) :
    avRescaleRnd a b c (avRound mode) = fitting (mode.round ((a : ℚ) * b / c)) := by
  have hmode : modeOf (avRound mode) = some mode := by cases mode <;> decide
  have hflag : ¬(avRound mode &&& avRoundPassMinmax ≠ 0 ∧ (a = int64Min ∨ a = int64Max)) := by
    rintro ⟨hset,-⟩
    cases mode <;> exact hset (by decide)
  rw [abs_le] at ha
  rw [avRescaleRnd_some hmode ha.2 hb' hc',if_neg (by omega),if_neg hflag,max_eq_left ha.1]
  rfl

namespace TimeBase

lemma value_pos (tb : TimeBase) : 0 < tb.value := by
  have hnum : (0 : ℚ) < tb.num := by exact_mod_cast tb.num_pos
  have hden : (0 : ℚ) < tb.den := by exact_mod_cast tb.den_pos
  exact div_pos hnum hden

lemma product_pos (bq cq : TimeBase) : 0 < bq.num * cq.den := mul_pos bq.num_pos cq.den_pos

lemma product_le (bq cq : TimeBase) : bq.num * cq.den ≤ int64Max := by
  have hle := mul_le_mul bq.num_le cq.den_le cq.den_pos.le (by decide)
  exact hle.trans (by decide)

lemma int64_product (bq cq : TimeBase) : int64 (bq.num * cq.den) = bq.num * cq.den := by
  have hpos := bq.product_pos cq
  apply int64_eq _ (bq.product_le cq)
  simp only [int64Min]
  omega

lemma ratio (bq cq : TimeBase) (a : ℚ) :
    a * (bq.num * cq.den : ℤ) / (cq.num * bq.den : ℤ) = a * bq.value / cq.value := by
  have hb : (bq.den : ℚ) ≠ 0 := by exact_mod_cast bq.den_pos.ne'
  have hc : (cq.num : ℚ) ≠ 0 := by exact_mod_cast cq.num_pos.ne'
  have hd : (cq.den : ℚ) ≠ 0 := by exact_mod_cast cq.den_pos.ne'
  simp only [value]
  push_cast
  field_simp

end TimeBase

/-- Rescaling rounds the number of ticks of the other unit. -/
lemma avRescaleQRnd_eq (mode : Mode) {a : ℤ} (ha : |a| ≤ int64Max) (bq cq : TimeBase) :
    avRescaleQRnd a bq.toAVRational cq.toAVRational (avRound mode) =
      fitting (mode.round (a * bq.value / cq.value)) := by
  rw [avRescaleQRnd,bq.int64_product cq,cq.int64_product bq,avRescaleRnd_mode mode ha
    (bq.product_pos cq).le (bq.product_le cq) (cq.product_pos bq) (cq.product_le bq),bq.ratio cq]

/-- A time stamp that goes to a unit that is no coarser, and fits there, comes back the same. -/
theorem avRescaleQ_back {a : ℤ} (ha : |a| ≤ int64Max) (bq cq : TimeBase)
    (hle : cq.value ≤ bq.value)
    (hfits : |Mode.nearInf.round (a * bq.value / cq.value)| ≤ int64Max) :
    avRescaleQ (avRescaleQ a bq.toAVRational cq.toAVRational) cq.toAVRational bq.toAVRational = a := by
  have hb := bq.value_pos
  have hc := cq.value_pos
  rw [avRescaleQ,avRescaleQ,avRescaleQRnd_eq .nearInf ha,fitting_eq hfits,
    avRescaleQRnd_eq .nearInf hfits]
  have hback : Mode.nearInf.round
      ((Mode.nearInf.round (a * bq.value / cq.value) : ℚ) * cq.value / bq.value) = a := by
    rcases hle.eq_or_lt with heq | hlt
    · rw [heq,mul_div_cancel_right₀ _ hb.ne',Mode.round_intCast,mul_div_cancel_right₀ _ hb.ne',
        Mode.round_intCast]
    · have herror := nearInf_sub_le ((a : ℚ) * bq.value / cq.value)
      generalize (Mode.nearInf.round ((a : ℚ) * bq.value / cq.value) : ℚ) = n at herror ⊢
      have hscaled : n * cq.value / bq.value - a =
          (n - a * bq.value / cq.value) * (cq.value / bq.value) := by
        field_simp
      have hratio : cq.value / bq.value < 1 := (div_lt_one hb).mpr hlt
      have hratio' : 0 < cq.value / bq.value := div_pos hc hb
      apply nearInf_eq
      rw [hscaled,abs_mul,abs_of_pos hratio']
      calc
        _ ≤ 1 / 2 * (cq.value / bq.value) := mul_le_mul_of_nonneg_right herror hratio'.le
        _ < 1 / 2 := by linarith
  rw [hback,fitting_eq ha]

/-- Milliseconds in the ticks of 90 kHz and back. -/
theorem avRescaleQ_back_millis :
    avRescaleQ (avRescaleQ 123457 ⟨1,1000⟩ ⟨1,90000⟩) ⟨1,90000⟩ ⟨1,1000⟩ = 123457 := by
  let millis : TimeBase := ⟨⟨1,1000⟩,by decide,by decide,by decide,by decide⟩
  let ticks : TimeBase := ⟨⟨1,90000⟩,by decide,by decide,by decide,by decide⟩
  have hvalue : ((123457 : ℤ) : ℚ) * millis.value / ticks.value = ((11111130 : ℤ) : ℚ) := by
    simp only [TimeBase.value,millis,ticks]
    norm_num
  have hle : ticks.value ≤ millis.value := by
    simp only [TimeBase.value,millis,ticks]
    norm_num
  exact avRescaleQ_back (by decide) millis ticks hle
    (by rw [hvalue,Mode.round_intCast]; decide)

/-! ### Comparing -/

/-- The order of two instants, as a number. -/
def compared (x y : ℚ) : ℤ := if x < y then -1 else if y < x then 1 else 0

lemma le_lor {x y : ℤ} (hx : 0 ≤ x) (hy : 0 ≤ y) : x ≤ x.lor y ∧ y ≤ x.lor y := by
  lift x to ℕ using hx
  lift y to ℕ using hy
  have hor : (x : ℤ).lor y = ((x ||| y : ℕ) : ℤ) := rfl
  rw [hor]
  exact ⟨by exact_mod_cast Nat.left_le_or,by exact_mod_cast Nat.right_le_or⟩

lemma ffabs_eq {x : ℤ} (hx : |x| ≤ int64Max) : ffabs x = |x| := by
  rw [ffabs]
  split_ifs with hsign
  · exact (abs_of_nonneg hsign).symm
  · have hneg : |x| = -x := abs_of_neg (by omega)
    rw [hneg] at hx ⊢
    exact int64_of_abs_le (by rwa [abs_neg,hneg])

/-- All four operands of the quick comparison are `int`s. -/
lemma operands_le {x a y b : ℤ} (hx : |x| ≤ int64Max) (ha : 0 ≤ a) (hy : |y| ≤ int64Max) (hb : 0 ≤ b)
    (h : (((ffabs x).lor a).lor (ffabs y)).lor b ≤ intMax) :
    |x| ≤ intMax ∧ a ≤ intMax ∧ |y| ≤ intMax ∧ b ≤ intMax := by
  rw [ffabs_eq hx,ffabs_eq hy] at h
  have hone := le_lor (abs_nonneg x) ha
  have htwo := le_lor (ha.trans hone.2) (abs_nonneg y)
  have hthree := le_lor ((abs_nonneg y).trans htwo.2) hb
  omega

/-- A product of two `int`s that the quick comparison forms. -/
lemma int64_mul {x a : ℤ} (hx : |x| ≤ intMax) (ha : 0 ≤ a) (ha' : a ≤ intMax) :
    int64 (x * a) = x * a := by
  have hmul : |x * a| ≤ intMax * intMax := by
    rw [abs_mul,abs_of_nonneg ha]
    exact mul_le_mul hx ha' ha (by decide)
  exact int64_of_abs_le (hmul.trans (by decide))

lemma fitting_of_lt {q : ℤ} (h : int64Max < q) : fitting q = int64Min := by
  have hle := le_abs_self q
  exact if_neg (by omega)

/-- A quotient that is rounded down compares as it is, unless it is too large to fit. -/
lemma fitting_floor_lt {x : ℚ} {t : ℤ} (hx : ⌊x⌋ ≤ int64Max) (ht : |t| ≤ int64Max) :
    fitting ⌊x⌋ < t ↔ x < t := by
  rw [abs_le] at ht
  rw [← Int.floor_lt,fitting]
  split_ifs with hfits
  · rfl
  · have hlow : ⌊x⌋ < -int64Max := by
      by_contra hge
      exact hfits (abs_le.mpr ⟨by omega,hx⟩)
    constructor
    · intro
      omega
    · intro
      simp only [int64Min,int64Max] at *
      omega

lemma floor_le_int64Max {x : ℚ} : ⌊x⌋ ≤ int64Max ↔ x < 2 ^ 63 := by
  have hfloor : ⌊x⌋ < (2 ^ 63 : ℤ) ↔ x < ((2 ^ 63 : ℤ) : ℚ) := Int.floor_lt
  rw [Int.cast_pow,Int.cast_ofNat] at hfloor
  rw [← hfloor,int64Max]
  omega

section comparing
variable {ts_a ts_b : ℤ} (ha : |ts_a| ≤ int64Max) (hb : |ts_b| ≤ int64Max) (tb_a tb_b : TimeBase)

/-- The products compare as the instants do. -/
lemma products_lt : ts_a * (tb_a.num * tb_b.den) < ts_b * (tb_b.num * tb_a.den) ↔
    ts_a * tb_a.value < ts_b * tb_b.value := by
  have hproduct : (0 : ℚ) < (tb_b.num * tb_a.den : ℤ) := by exact_mod_cast tb_b.product_pos tb_a
  have hratio := tb_a.ratio tb_b ts_a
  rw [← div_lt_iff₀ tb_b.value_pos,← hratio,div_lt_iff₀ hproduct]
  exact_mod_cast Iff.rfl

include ha hb

lemma quick_operands (h : (((ffabs ts_a).lor (tb_a.num * tb_b.den)).lor (ffabs ts_b)).lor
    (tb_b.num * tb_a.den) ≤ intMax) :
    int64 (ts_a * (tb_a.num * tb_b.den)) = ts_a * (tb_a.num * tb_b.den) ∧
      int64 (ts_b * (tb_b.num * tb_a.den)) = ts_b * (tb_b.num * tb_a.den) ∧
      (ts_a : ℚ) * tb_a.value / tb_b.value < 2 ^ 63 := by
  have hapos := tb_a.product_pos tb_b
  have hbpos := tb_b.product_pos tb_a
  obtain ⟨hxle,hale,hyle,hble⟩ := operands_le ha hapos.le hb hbpos.le h
  have hproduct : (0 : ℚ) < (tb_b.num * tb_a.den : ℤ) := by exact_mod_cast hbpos
  refine ⟨int64_mul hxle hapos.le hale,int64_mul hyle hbpos.le hble,?_⟩
  rw [← tb_a.ratio tb_b,div_lt_iff₀ hproduct]
  have hmul : ts_a * (tb_a.num * tb_b.den) ≤ intMax * intMax :=
    mul_le_mul ((le_abs_self _).trans hxle) hale hapos.le (by decide)
  have hlt : ts_a * (tb_a.num * tb_b.den) < 2 ^ 63 * (tb_b.num * tb_a.den) := by
    simp only [intMax] at hmul
    omega
  exact_mod_cast hlt

lemma avCompareTs_of_lt (h : (ts_a : ℚ) * tb_a.value / tb_b.value < 2 ^ 63) :
    avCompareTs ts_a tb_a.toAVRational ts_b tb_b.toAVRational =
      compared (ts_a * tb_a.value) (ts_b * tb_b.value) := by
  have hapos := tb_a.product_pos tb_b
  have hbpos := tb_b.product_pos tb_a
  have hale := tb_a.product_le tb_b
  have hble := tb_b.product_le tb_a
  have hfirst : avRescaleRnd ts_a (tb_a.num * tb_b.den) (tb_b.num * tb_a.den) (avRound .down) <
      ts_b ↔ ts_a * tb_a.value < ts_b * tb_b.value := by
    rw [avRescaleRnd_mode .down ha hapos.le hale hbpos hble,tb_a.ratio tb_b,Mode.round,
      fitting_floor_lt (floor_le_int64Max.mpr h) hb,div_lt_iff₀ tb_b.value_pos]
  simp only [avCompareTs,tb_a.int64_product tb_b,tb_b.int64_product tb_a,hfirst]
  by_cases hquick : (((ffabs ts_a).lor (tb_a.num * tb_b.den)).lor (ffabs ts_b)).lor
      (tb_b.num * tb_a.den) ≤ intMax
  · obtain ⟨hx,hy,-⟩ := quick_operands ha hb tb_a tb_b hquick
    rw [if_pos hquick,hx,hy]
    simp only [products_lt,compared]
    split_ifs <;> first | rfl | linarith
  rw [if_neg hquick,compared]
  by_cases hless : (ts_a : ℚ) * tb_a.value < ts_b * tb_b.value
  · rw [if_pos hless,if_pos hless]
  -- The second time stamp is not later than the first, so its count is not too large.
  have hback : (ts_b : ℚ) * tb_b.value / tb_a.value < 2 ^ 63 := by
    rw [div_lt_iff₀ tb_a.value_pos]
    have htop : (ts_a : ℚ) < 2 ^ 63 := by
      rw [abs_le,int64Max] at ha
      exact_mod_cast (by omega : ts_a < 2 ^ 63)
    have hscaled := mul_lt_mul_of_pos_right htop tb_a.value_pos
    linarith
  rw [if_neg hless,if_neg hless,avRescaleRnd_mode .down hb hbpos.le hble hapos hale,
    tb_b.ratio tb_a,Mode.round]
  simp only [fitting_floor_lt (floor_le_int64Max.mpr hback) ha,div_lt_iff₀ tb_a.value_pos]

lemma avCompareTs_of_le (h : (2 : ℚ) ^ 63 ≤ ts_a * tb_a.value / tb_b.value) :
    avCompareTs ts_a tb_a.toAVRational ts_b tb_b.toAVRational = -1 := by
  have hfloor : int64Max < ⌊(ts_a : ℚ) * tb_a.value / tb_b.value⌋ := by
    by_contra hle
    exact absurd (floor_le_int64Max.mp (not_lt.mp hle)) (not_lt.mpr h)
  have hless : fitting ⌊(ts_a : ℚ) * tb_a.value / tb_b.value⌋ < ts_b := by
    rw [fitting_of_lt hfloor]
    rw [abs_le] at hb
    simp only [int64Max,int64Min] at *
    omega
  simp only [avCompareTs,tb_a.int64_product tb_b,tb_b.int64_product tb_a]
  rw [if_neg,avRescaleRnd_mode .down ha (tb_a.product_pos tb_b).le (tb_a.product_le tb_b)
    (tb_b.product_pos tb_a) (tb_b.product_le tb_a),tb_a.ratio tb_b,Mode.round,if_pos hless]
  intro hquick
  have hlt := (quick_operands ha hb tb_a tb_b hquick).2.2
  linarith

/-- The answer is the order of the two instants exactly when the first time stamp is not too
late for a 64-bit count of the other unit; it is -1 when it is. -/
theorem avCompareTs_eq_iff :
    (avCompareTs ts_a tb_a.toAVRational ts_b tb_b.toAVRational =
        compared (ts_a * tb_a.value) (ts_b * tb_b.value) ↔
      (ts_a : ℚ) * tb_a.value / tb_b.value < 2 ^ 63) ∧
    ((2 : ℚ) ^ 63 ≤ ts_a * tb_a.value / tb_b.value →
      avCompareTs ts_a tb_a.toAVRational ts_b tb_b.toAVRational = -1) := by
  refine ⟨⟨fun heq => ?_,avCompareTs_of_lt ha hb tb_a tb_b⟩,avCompareTs_of_le ha hb tb_a tb_b⟩
  by_contra hge
  -- The second time stamp is below the first one's count, so the first instant is later.
  have hlater : ts_b * tb_b.value < ts_a * tb_a.value := by
    have htop : (ts_b : ℚ) < 2 ^ 63 := by
      rw [abs_le,int64Max] at hb
      exact_mod_cast (by omega : ts_b < 2 ^ 63)
    rw [← lt_div_iff₀ tb_b.value_pos]
    linarith
  rw [avCompareTs_of_le ha hb tb_a tb_b (not_lt.mp hge),compared,if_neg hlater.not_gt,
    if_pos hlater] at heq
  exact absurd heq (by decide)

end comparing

/-- A tick of 90 kHz behind a second, and two instants that are too far apart. -/
theorem avCompareTs_far :
    avCompareTs 90001 ⟨1,90000⟩ 1000 ⟨1,1000⟩ = 1 ∧
      avCompareTs 4611686018427387904 ⟨2,1⟩ 0 ⟨1,1⟩ = -1 := by
  let ticks : TimeBase := ⟨⟨1,90000⟩,by decide,by decide,by decide,by decide⟩
  let millis : TimeBase := ⟨⟨1,1000⟩,by decide,by decide,by decide,by decide⟩
  let long : TimeBase := ⟨⟨2,1⟩,by decide,by decide,by decide,by decide⟩
  let unit : TimeBase := ⟨⟨1,1⟩,by decide,by decide,by decide,by decide⟩
  constructor
  · have hiff := (avCompareTs_eq_iff (by decide : |(90001 : ℤ)| ≤ int64Max)
      (by decide : |(1000 : ℤ)| ≤ int64Max) ticks millis).1
    rw [hiff.mpr (by simp only [TimeBase.value,ticks,millis]; norm_num)]
    simp only [compared,TimeBase.value,ticks,millis]
    norm_num
  · exact (avCompareTs_eq_iff (by decide : |(4611686018427387904 : ℤ)| ≤ int64Max)
      (by decide : |(0 : ℤ)| ≤ int64Max) long unit).2 (by simp only [TimeBase.value,long,unit]; norm_num)

end ZenMedia.Avutil
