import ZenMedia.Rounding

/-! Rescaling a time stamp in 64-bit words, and the rational number that its result rounds. -/
namespace ZenMedia.Avutil
open Rounding

def intMax : ℤ := 2 ^ 31 - 1
def int64Max : ℤ := 2 ^ 63 - 1
def int64Min : ℤ := -2 ^ 63

/-- What an `int64_t` keeps of an integer. -/
def int64 (x : ℤ) : ℤ := x.bmod (2 ^ 64)

lemma int64_eq {x : ℤ} (hlow : int64Min ≤ x) (hhigh : x ≤ int64Max) : int64 x = x := by
  simp only [int64Min,int64Max] at hlow hhigh
  apply Int.bmod_eq_of_le <;> omega

lemma int64_of_abs_le {x : ℤ} (h : |x| ≤ int64Max) : int64 x = x := by
  obtain ⟨hlow,hhigh⟩ := abs_le.mp h
  apply int64_eq _ hhigh
  simp only [int64Min,int64Max] at *
  omega

def avRoundPassMinmax : UInt32 := 8192

/-- The five values of `enum AVRounding`. -/
def avRound : Mode → UInt32
  | .zero => 0
  | .inf => 1
  | .down => 2
  | .up => 3
  | .nearInf => 5

/-- The test on `rnd` without its flag: at most five, and not four. -/
def validRounding (rnd : UInt32) : Bool :=
  rnd &&& ~~~avRoundPassMinmax ≤ 5 && rnd &&& ~~~avRoundPassMinmax != 4

/-- The 128-bit product and the words left over from it. -/
structure Words where
  a1 : ℕ
  a0 : ℕ
  t1 : ℕ
  deriving DecidableEq

/-- `a * b + r` in the words `a1` and `a0`; `t1` still holds the middle products. -/
def multiplyWords (a b r : ℕ) : Words :=
  let a0 := a &&& 0xFFFFFFFF
  let a1 := a >>> 32
  let b0 := b &&& 0xFFFFFFFF
  let b1 := b >>> 32
  let t1 := (a0 * b1 + a1 * b0) % 2 ^ 64
  let t1a := (t1 <<< 32) % 2 ^ 64
  let low := (a0 * b0 + t1a) % 2 ^ 64
  let high := (a1 * b1 + (t1 >>> 32) + if low < t1a then 1 else 0) % 2 ^ 64
  let lowr := (low + r) % 2 ^ 64
  ⟨(high + if lowr < r then 1 else 0) % 2 ^ 64,lowr,t1⟩

/-- The loop over the bits of `a0` below bit `i`, from the highest down: `a1`, then `t1`. -/
def divideBits (c a0 : ℕ) : ℕ → ℕ → ℕ → ℕ × ℕ
  | 0, a1, t1 => (a1,t1)
  | i + 1, a1, t1 =>
    let a1' := (a1 + (a1 + ((a0 >>> i) &&& 1))) % 2 ^ 64
    let t1' := (t1 + t1) % 2 ^ 64
    if c ≤ a1' then divideBits c a0 i (a1' - c) ((t1' + 1) % 2 ^ 64)
    else divideBits c a0 i a1' t1'

/-- The branch for operands of more than 31 bits. -/
def rescaleWide (a b c r : ℕ) : ℤ :=
  let words := multiplyWords a b r
  let t1 := (divideBits c words.a0 64 words.a1 words.t1).2
  if int64Max < t1 then int64Min else t1

/-- The branches for a multiplier and a divisor that fit an `int`. -/
def rescaleNarrow (a b c r : ℤ) : ℤ :=
  if a ≤ intMax then (int64 (int64 (a * b) + r)).tdiv c
  else
    let ad := a.tdiv c
    let a2 := (int64 (int64 (a.tmod c * b) + r)).tdiv c
    if intMax ≤ ad ∧ b ≠ 0 ∧ (int64Max - a2).tdiv b < ad then int64Min
    else int64 (int64 (ad * b) + a2)

/-- `av_rescale_rnd` from where its value is known not to be negative. -/
def rescaleMagnitude (a b c : ℤ) (rnd : UInt32) : ℤ :=
  let r := if rnd = avRound .nearInf then c.tdiv 2 else if rnd &&& 1 ≠ 0 then c - 1 else 0
  if b ≤ intMax ∧ c ≤ intMax then rescaleNarrow a b c r
  else rescaleWide a.toNat b.toNat c.toNat r.toNat

def avRescaleRnd (a b c : ℤ) (rnd : UInt32) : ℤ :=
  if c ≤ 0 ∨ b < 0 ∨ ¬validRounding rnd then int64Min
  else if rnd &&& avRoundPassMinmax ≠ 0 ∧ (a = int64Min ∨ a = int64Max) then a
  else
    let rnd := if rnd &&& avRoundPassMinmax ≠ 0 then rnd - avRoundPassMinmax else rnd
    -- The call for a negative value: its own tests hold again, and its value is positive.
    if a < 0 then
      int64 (-rescaleMagnitude (-max a (-int64Max)) b c (rnd ^^^ ((rnd >>> 1) &&& 1)))
    else rescaleMagnitude a b c rnd

/-! ### The two words -/

lemma multiplyWords_eq {a b r : ℕ} (ha : a < 2 ^ 63) (hb : b < 2 ^ 63) (hr : r < 2 ^ 63) :
    (multiplyWords a b r).a1 * 2 ^ 64 + (multiplyWords a b r).a0 = a * b + r ∧
      (multiplyWords a b r).a0 < 2 ^ 64 ∧ (multiplyWords a b r).a1 < 2 ^ 63 := by
  have hmask : ∀ x : ℕ, x &&& 0xFFFFFFFF = x % 2 ^ 32 := fun x => Nat.and_two_pow_sub_one_eq_mod x 32
  simp only [multiplyWords,hmask,Nat.shiftRight_eq_div_pow,Nat.shiftLeft_eq]
  obtain ⟨a0,ha0⟩ : ∃ a0, a % 2 ^ 32 = a0 := ⟨_,rfl⟩
  obtain ⟨a1,ha1⟩ : ∃ a1, a / 2 ^ 32 = a1 := ⟨_,rfl⟩
  obtain ⟨b0,hb0⟩ : ∃ b0, b % 2 ^ 32 = b0 := ⟨_,rfl⟩
  obtain ⟨b1,hb1⟩ : ∃ b1, b / 2 ^ 32 = b1 := ⟨_,rfl⟩
  rw [ha0,ha1,hb0,hb1]
  have ha0lt : a0 ≤ 2 ^ 32 - 1 := by omega
  have ha1lt : a1 ≤ 2 ^ 31 - 1 := by omega
  have hb0lt : b0 ≤ 2 ^ 32 - 1 := by omega
  have hb1lt : b1 ≤ 2 ^ 31 - 1 := by omega
  have hproduct : a * b = a1 * b1 * 2 ^ 64 + (a0 * b1 + a1 * b0) * 2 ^ 32 + a0 * b0 := by
    have hasplit : a = a1 * 2 ^ 32 + a0 := by omega
    have hbsplit : b = b1 * 2 ^ 32 + b0 := by omega
    rw [hasplit,hbsplit]
    ring
  have hlow := Nat.mul_le_mul ha0lt hb0lt
  have hleft := Nat.mul_le_mul ha0lt hb1lt
  have hright := Nat.mul_le_mul ha1lt hb0lt
  have hhigh := Nat.mul_le_mul ha1lt hb1lt
  rw [hproduct]
  generalize a0 * b0 = low at *
  generalize a0 * b1 = left at *
  generalize a1 * b0 = right at *
  generalize a1 * b1 = high at *
  clear hproduct ha0 ha1 hb0 hb1 ha hb hmask ha0lt ha1lt hb0lt hb1lt
  have hmiddle : (left + right) % 2 ^ 64 = left + right := Nat.mod_eq_of_lt (by omega)
  rw [hmiddle]
  split_ifs <;> refine ⟨?_,?_,?_⟩ <;> omega

/-! ### The loop divides -/

lemma bit_of_pow (a0 i : ℕ) : a0 % 2 ^ (i + 1) = ((a0 >>> i) &&& 1) * 2 ^ i + a0 % 2 ^ i := by
  rw [Nat.and_one_is_mod,Nat.shiftRight_eq_div_pow,pow_succ,Nat.mod_mul,add_comm,mul_comm]

lemma divideBits_succ (c a0 i a1 t1 : ℕ) : divideBits c a0 (i + 1) a1 t1 =
    if c ≤ (a1 + (a1 + ((a0 >>> i) &&& 1))) % 2 ^ 64 then
      divideBits c a0 i ((a1 + (a1 + ((a0 >>> i) &&& 1))) % 2 ^ 64 - c)
        (((t1 + t1) % 2 ^ 64 + 1) % 2 ^ 64)
    else divideBits c a0 i ((a1 + (a1 + ((a0 >>> i) &&& 1))) % 2 ^ 64) ((t1 + t1) % 2 ^ 64) := rfl

/-- As long as the remainder starts below the divisor, each turn shifts one bit of the quotient
into `t1`. -/
lemma divideBits_eq {c a0 : ℕ} (hc : c ≤ 2 ^ 63) {i a1 t1 : ℕ} (ha1 : a1 < c) (ht1 : t1 < 2 ^ 64) :
    divideBits c a0 i a1 t1 = ((a1 * 2 ^ i + a0 % 2 ^ i) % c,
      (t1 * 2 ^ i + (a1 * 2 ^ i + a0 % 2 ^ i) / c) % 2 ^ 64) := by
  induction i generalizing a1 t1 with
  | zero =>
    rw [divideBits,pow_zero,Nat.mod_one,Nat.mul_one,Nat.add_zero,Nat.mul_one,Nat.mod_eq_of_lt ha1,
      Nat.div_eq_of_lt ha1,Nat.add_zero,Nat.mod_eq_of_lt ht1]
  | succ i ih =>
    have hbit : (a0 >>> i) &&& 1 ≤ 1 := Nat.and_le_right
    have htotal : a1 * 2 ^ (i + 1) + a0 % 2 ^ (i + 1) =
        (a1 + (a1 + ((a0 >>> i) &&& 1))) * 2 ^ i + a0 % 2 ^ i := by
      rw [bit_of_pow,pow_succ]
      ring
    have hword : (a1 + (a1 + ((a0 >>> i) &&& 1))) % 2 ^ 64 = a1 + (a1 + ((a0 >>> i) &&& 1)) :=
      Nat.mod_eq_of_lt (by omega)
    have hnext : a1 + (a1 + ((a0 >>> i) &&& 1)) < 2 * c := by omega
    rw [divideBits_succ,hword,htotal]
    generalize a1 + (a1 + ((a0 >>> i) &&& 1)) = next at *
    have htwice := Nat.mod_modEq (t1 + t1) (2 ^ 64)
    have hpow : t1 * 2 ^ (i + 1) = (t1 + t1) * 2 ^ i := by ring
    split_ifs with hle
    · have hrest : next * 2 ^ i + a0 % 2 ^ i = ((next - c) * 2 ^ i + a0 % 2 ^ i) + c * 2 ^ i := by
        obtain ⟨d,rfl⟩ := Nat.exists_eq_add_of_le hle
        rw [Nat.add_sub_cancel_left]
        ring
      have hodd := ((Nat.mod_modEq ((t1 + t1) % 2 ^ 64 + 1) (2 ^ 64)).trans
        (htwice.add_right 1)).mul_right (2 ^ i)
      rw [ih (by omega) (Nat.mod_lt _ (by positivity)),hrest,Nat.add_mul_mod_self_left,
        Nat.add_mul_div_left _ _ (by omega)]
      congr 1
      calc
        _ = ((t1 + t1 + 1) * 2 ^ i + ((next - c) * 2 ^ i + a0 % 2 ^ i) / c) % 2 ^ 64 :=
          hodd.add_right _
        _ = _ := by congr 1; ring
    · rw [ih (by omega) (Nat.mod_lt _ (by positivity)),hpow]
      congr 1
      exact (htwice.mul_right (2 ^ i)).add_right _

/-- Whatever the remainder is, what `t1` holds moves up by one place a turn. -/
lemma divideBits_shift (c a0 i a1 t1 : ℕ) (ht1 : t1 < 2 ^ 64) :
    ∃ q < 2 ^ i, (divideBits c a0 i a1 t1).2 = (t1 * 2 ^ i + q) % 2 ^ 64 := by
  induction i generalizing a1 t1 with
  | zero =>
    exists 0
    rw [divideBits,pow_zero,Nat.mul_one,Nat.add_zero,Nat.mod_eq_of_lt ht1]
    exact ⟨Nat.one_pos,rfl⟩
  | succ i ih =>
    have htwice := Nat.mod_modEq (t1 + t1) (2 ^ 64)
    rw [divideBits_succ]
    split_ifs
    · obtain ⟨q,hq,heq⟩ := ih ((a1 + (a1 + ((a0 >>> i) &&& 1))) % 2 ^ 64 - c)
        (((t1 + t1) % 2 ^ 64 + 1) % 2 ^ 64) (Nat.mod_lt _ (by positivity))
      have hodd := ((Nat.mod_modEq ((t1 + t1) % 2 ^ 64 + 1) (2 ^ 64)).trans
        (htwice.add_right 1)).mul_right (2 ^ i)
      exists 2 ^ i + q
      constructor
      · rw [pow_succ]
        omega
      rw [heq]
      calc
        _ = ((t1 + t1 + 1) * 2 ^ i + q) % 2 ^ 64 := hodd.add_right _
        _ = _ := by congr 1; ring
    · obtain ⟨q,hq,heq⟩ := ih ((a1 + (a1 + ((a0 >>> i) &&& 1))) % 2 ^ 64)
        ((t1 + t1) % 2 ^ 64) (Nat.mod_lt _ (by positivity))
      exists q
      constructor
      · rw [pow_succ]
        omega
      rw [heq]
      calc
        _ = ((t1 + t1) * 2 ^ i + q) % 2 ^ 64 := (htwice.mul_right (2 ^ i)).add_right _
        _ = _ := by congr 1; ring

/-- The quotient if it fits in 63 bits. -/
def quotient (n c : ℕ) : ℤ := if (n / c : ℕ) ≤ int64Max then (n / c : ℕ) else int64Min

lemma rescaleWide_eq {a b c r : ℕ} (ha : a < 2 ^ 63) (hb : b < 2 ^ 63) (hr : r < 2 ^ 63)
    (hc : 0 < c) (hc' : c < 2 ^ 63) : rescaleWide a b c r = quotient (a * b + r) c := by
  obtain ⟨hproduct,ha0,ha1⟩ := multiplyWords_eq ha hb hr
  have ht1 : (multiplyWords a b r).t1 < 2 ^ 64 := Nat.mod_lt _ (by positivity)
  simp only [rescaleWide,quotient]
  generalize multiplyWords a b r = words at *
  rw [← hproduct]
  by_cases hsmall : words.a1 < c
  · have hq : (words.a1 * 2 ^ 64 + words.a0) / c < 2 ^ 64 := by
      rw [Nat.div_lt_iff_lt_mul hc]
      nlinarith
    rw [divideBits_eq hc'.le hsmall ht1,Nat.mod_eq_of_lt ha0,Nat.mul_add_mod_self_right,
      Nat.mod_eq_of_lt hq]
    split_ifs <;> omega
  · -- The first turn then takes `c` away, and its bit ends as the sign bit of `t1`.
    have hfirst : (words.a1 + (words.a1 + ((words.a0 >>> 63) &&& 1))) % 2 ^ 64 =
        words.a1 + (words.a1 + ((words.a0 >>> 63) &&& 1)) := by
      have hbit : (words.a0 >>> 63) &&& 1 ≤ 1 := Nat.and_le_right
      exact Nat.mod_eq_of_lt (by omega)
    obtain ⟨q,hq,heq⟩ := divideBits_shift c words.a0 63
      (words.a1 + (words.a1 + ((words.a0 >>> 63) &&& 1)) - c)
      (((words.t1 + words.t1) % 2 ^ 64 + 1) % 2 ^ 64) (Nat.mod_lt _ (by positivity))
    have hbig : 2 ^ 64 ≤ (words.a1 * 2 ^ 64 + words.a0) / c := by
      rw [Nat.le_div_iff_mul_le hc]
      nlinarith
    have hsign : (divideBits c words.a0 64 words.a1 words.t1).2 =
        (((words.t1 + words.t1) % 2 ^ 64 + 1) % 2 ^ 64 * 2 ^ 63 + q) % 2 ^ 64 := by
      rw [divideBits_succ c words.a0 63,hfirst,if_pos (by omega)]
      exact heq
    obtain ⟨k,hk⟩ : ∃ k, ((words.t1 + words.t1) % 2 ^ 64 + 1) % 2 ^ 64 = 2 * k + 1 :=
      ⟨(words.t1 + words.t1) % 2 ^ 64 / 2,by omega⟩
    have hword : ((2 * k + 1) * 2 ^ 63 + q) % 2 ^ 64 = 2 ^ 63 + q := by
      rw [show (2 * k + 1) * 2 ^ 63 + q = (2 ^ 63 + q) + 2 ^ 64 * k by ring,
        Nat.add_mul_mod_self_left,Nat.mod_eq_of_lt (by omega)]
    have hover : int64Max < ((2 ^ 63 + q : ℕ) : ℤ) := by
      simp only [int64Max]
      omega
    have hfail : ¬((words.a1 * 2 ^ 64 + words.a0) / c : ℕ) ≤ int64Max := by
      simp only [int64Max]
      omega
    rw [hsign,hk,hword,if_pos hover,if_neg hfail]

/-! ### The operands of 31 bits -/

lemma quotient_of_lt {n c : ℕ} (h : n / c < 2 ^ 63) : quotient n c = (n / c : ℕ) := by
  apply if_pos
  simp only [int64Max]
  omega

lemma int64_natCast {n : ℕ} (h : n < 2 ^ 63) : int64 n = n := by
  apply int64_eq <;> simp only [int64Min,int64Max] <;> omega

lemma int64_muladd {x b r : ℕ} (h : x * b + r < 2 ^ 63) :
    int64 (int64 ((x : ℤ) * b) + r) = (x * b + r : ℕ) := by
  rw [← Nat.cast_mul,int64_natCast (by omega),← Nat.cast_add,int64_natCast h]

lemma rescaleNarrow_eq {a b c r : ℕ} (ha : a < 2 ^ 63) (hb : b < 2 ^ 31) (hc : c < 2 ^ 31)
    (hr : r < c) : rescaleNarrow a b c r = quotient (a * b + r) c := by
  by_cases hshort : (a : ℤ) ≤ intMax
  · have hle : a ≤ 2 ^ 31 - 1 := by
      simp only [intMax] at hshort
      omega
    have hproduct := Nat.mul_le_mul hle (Nat.le_pred_of_lt hb)
    have hsum : a * b + r < 2 ^ 63 := by
      simp only [Nat.pred_eq_sub_one] at hproduct
      omega
    have hquotient := Nat.div_le_self (a * b + r) c
    rw [rescaleNarrow,if_pos hshort,int64_muladd hsum,← Int.ofNat_tdiv,
      quotient_of_lt (by omega)]
  · have hmod : a % c < c := Nat.mod_lt _ (by omega)
    have hpart : a % c * b + r < c * (b + 1) := by nlinarith
    have hpart' : a % c * b + r < 2 ^ 63 := by nlinarith
    have hrest : (a % c * b + r) / c ≤ b := Nat.lt_succ_iff.mp (Nat.div_lt_of_lt_mul hpart)
    have htotal : (a * b + r) / c = a / c * b + (a % c * b + r) / c := by
      have hsplit : a * b + r = (a % c * b + r) + c * (a / c * b) := by
        conv_lhs => rw [← Nat.mod_add_div a c]
        ring
      rw [hsplit,Nat.add_mul_div_left _ _ (by omega),Nat.add_comm]
    have hratio : a / c ≤ a := Nat.div_le_self a c
    simp only [rescaleNarrow,if_neg hshort]
    rw [← Int.ofNat_tdiv,← Int.ofNat_tmod,int64_muladd hpart',← Int.ofNat_tdiv]
    rw [quotient,htotal]
    generalize (a % c * b + r) / c = rest at *
    generalize a / c = ratio at *
    by_cases hover : ratio * b + rest < 2 ^ 63
    · have hfits : ((ratio * b + rest : ℕ) : ℤ) ≤ int64Max := by
        simp only [int64Max]
        omega
      have hguard : ¬(intMax ≤ (ratio : ℤ) ∧ (b : ℤ) ≠ 0 ∧
          (int64Max - (rest : ℤ)).tdiv b < ratio) := by
        rintro ⟨-,hb0,hlt⟩
        have hnonneg : 0 ≤ int64Max - (rest : ℤ) := by
          push_cast at hfits
          have := Int.natCast_nonneg (ratio * b)
          push_cast at this
          omega
        rw [Int.tdiv_eq_ediv_of_nonneg hnonneg,Int.ediv_lt_iff_lt_mul (by omega)] at hlt
        push_cast at hfits
        omega
      rw [if_pos hfits,if_neg hguard,int64_muladd hover]
    · have hfails : ¬((ratio * b + rest : ℕ) : ℤ) ≤ int64Max := by
        simp only [int64Max]
        omega
      have hlarge : intMax ≤ (ratio : ℤ) := by
        by_contra hsmall
        have hsmall' : ratio ≤ 2 ^ 31 - 2 := by
          simp only [intMax] at hsmall
          omega
        have hproduct := Nat.mul_le_mul hsmall' (Nat.le_pred_of_lt hb)
        simp only [Nat.pred_eq_sub_one] at hproduct
        omega
      have hb0 : b ≠ 0 := by
        rintro rfl
        simp only [Nat.mul_zero] at hover
        omega
      have hlt : (int64Max - (rest : ℤ)).tdiv b < ratio := by
        have hnonneg : 0 ≤ int64Max - (rest : ℤ) := by
          simp only [int64Max]
          omega
        rw [Int.tdiv_eq_ediv_of_nonneg hnonneg,Int.ediv_lt_iff_lt_mul (by omega)]
        push_cast at hfails
        omega
      rw [if_neg hfails,if_pos ⟨hlarge,by exact_mod_cast hb0,hlt⟩]

/-! ### Every rounding -/

lemma slack_lt (mode : Mode) {c : ℕ} (hc : 0 < c) : mode.slack c < c := by
  cases mode <;> simp only [Mode.slack] <;> omega

/-- The source's `r` is the slack of the rounding. -/
lemma remainder_eq (mode : Mode) {c : ℕ} (hc : 0 < c) :
    (if avRound mode = avRound .nearInf then (c : ℤ).tdiv 2
      else if avRound mode &&& 1 ≠ 0 then (c : ℤ) - 1 else 0) = mode.slack c := by
  have hpred : ((c - 1 : ℕ) : ℤ) = c - 1 := by omega
  cases mode with
  | zero => rw [if_neg (by decide),if_neg (by decide)]; rfl
  | inf => rw [if_neg (by decide),if_pos (by decide),Mode.slack,hpred]
  | down => rw [if_neg (by decide),if_neg (by decide)]; rfl
  | up => rw [if_neg (by decide),if_pos (by decide),Mode.slack,hpred]
  | nearInf => rw [if_pos rfl,Mode.slack]; rfl

lemma rescaleMagnitude_eq (mode : Mode) {a b c : ℕ} (ha : a < 2 ^ 63) (hb : b < 2 ^ 63)
    (hc : 0 < c) (hc' : c < 2 ^ 63) :
    rescaleMagnitude a b c (avRound mode) = quotient (a * b + mode.slack c) c := by
  have hslack := slack_lt mode hc
  simp only [rescaleMagnitude,remainder_eq mode hc]
  by_cases hnarrow : (b : ℤ) ≤ intMax ∧ (c : ℤ) ≤ intMax
  · have hbounds : b < 2 ^ 31 ∧ c < 2 ^ 31 := by
      simp only [intMax] at hnarrow
      omega
    rw [if_pos hnarrow,rescaleNarrow_eq ha hbounds.1 hbounds.2 hslack]
  · rw [if_neg hnarrow]
    simp only [Int.toNat_natCast]
    exact rescaleWide_eq ha hb (by omega) hc hc'

/-- What the result stands for: the rational `a * b / c` rounded, where that fits. -/
def rescaled (mode : Mode) (a b c : ℤ) : ℤ :=
  if |mode.round ((a : ℚ) * b / c)| ≤ int64Max then mode.round ((a : ℚ) * b / c) else int64Min

lemma rescaled_natCast (mode : Mode) (a b : ℕ) {c : ℕ} (hc : 0 < c) :
    rescaled mode a b c = quotient (a * b + mode.slack c) c := by
  have hround : mode.round (((a : ℤ) : ℚ) * (b : ℤ) / (c : ℤ)) =
      ((a * b + mode.slack c) / c : ℕ) := by
    have hround : mode.round (((a * b : ℕ) : ℚ) / c) = ((a * b + mode.slack c) / c : ℕ) :=
      mode.round_natCast_div (a * b) hc
    rw [Nat.cast_mul] at hround
    simpa only [Int.cast_natCast] using hround
  rw [rescaled,hround,quotient,Nat.abs_cast]

lemma rescaled_neg (mode : Mode) {a b c : ℤ} (ha : a ≤ 0) (hb : 0 ≤ b) (hc : 0 < c) :
    rescaled mode a b c = int64 (-rescaled mode.mirror (-a) b c) := by
  have hnonneg : (0 : ℚ) ≤ ((-a : ℤ) : ℚ) * b / c := by
    have ha' : (0 : ℚ) ≤ ((-a : ℤ) : ℚ) := by exact_mod_cast (by omega : 0 ≤ -a)
    have hb' : (0 : ℚ) ≤ b := by exact_mod_cast hb
    have hc' : (0 : ℚ) < c := by exact_mod_cast hc
    positivity
  have hround : mode.round ((a : ℚ) * b / c) = -mode.mirror.round (((-a : ℤ) : ℚ) * b / c) := by
    rw [← mode.round_neg hnonneg]
    congr 1
    push_cast
    ring
  simp only [rescaled,hround,abs_neg]
  split_ifs with hfits
  · rw [abs_le] at hfits
    rw [int64_eq] <;> simp only [int64Max,int64Min] at hfits ⊢ <;> omega
  · decide

/-- The rounding that a value of `rnd` asks for, if it asks for one. -/
def modeOf (rnd : UInt32) : Option Mode :=
  [.zero,.inf,.down,.up,.nearInf].find? fun mode => avRound mode == rnd &&& ~~~avRoundPassMinmax

lemma modeOf_none {rnd : UInt32} (h : modeOf rnd = none) : validRounding rnd = false := by
  simp only [modeOf,List.find?_eq_none,List.mem_cons,List.not_mem_nil,or_false,beq_iff_eq] at h
  simp only [validRounding]
  generalize rnd &&& ~~~avRoundPassMinmax = masked at h ⊢
  by_contra hvalid
  simp only [Bool.not_eq_false,Bool.and_eq_true,decide_eq_true_eq,bne_iff_ne,ne_eq] at hvalid
  have hle : masked.toNat ≤ 5 := hvalid.1
  have hmode : ∀ mode, masked.toNat ≠ (avRound mode).toNat := by
    intro mode heq
    have := h mode (by cases mode <;> simp)
    exact this (UInt32.toNat_inj.mp heq.symm)
  have hfour : masked.toNat ≠ 4 := fun heq => hvalid.2 (UInt32.toNat_inj.mp heq)
  have hzero := hmode .zero
  have hinf := hmode .inf
  have hdown := hmode .down
  have hup := hmode .up
  have hnear := hmode .nearInf
  simp only [avRound,UInt32.reduceToNat] at hzero hinf hdown hup hnear
  omega

lemma modeOf_some {rnd : UInt32} {mode : Mode} (h : modeOf rnd = some mode) :
    rnd &&& ~~~avRoundPassMinmax = avRound mode ∧ validRounding rnd = true := by
  have heq := List.find?_some h
  rw [beq_iff_eq] at heq
  rw [validRounding,← heq]
  exact ⟨rfl,by cases mode <;> decide⟩

lemma flag_split (x : BitVec 32) : (x &&& 8192#32 = 0#32 ∨ x &&& 8192#32 = 8192#32) ∧
    (x &&& 8192#32) + (x &&& ~~~8192#32) = x := by
  constructor
  · have h := BitVec.and_twoPow x 13
    rw [show BitVec.twoPow 32 13 = 8192#32 from rfl] at h
    rw [h]
    split_ifs <;> simp
  · rw [BitVec.add_eq_or_of_and_eq_zero]
    · ext i
      simp only [BitVec.getElem_or,BitVec.getElem_and,BitVec.getElem_not]
      cases x[i] <;> simp
    · ext i
      simp only [BitVec.getElem_and,BitVec.getElem_not,BitVec.getElem_zero]
      cases x[i] <;> simp

lemma rounding_without_flag (rnd : UInt32) :
    (if rnd &&& avRoundPassMinmax ≠ 0 then rnd - avRoundPassMinmax else rnd) =
      rnd &&& ~~~avRoundPassMinmax := by
  rcases rnd with ⟨x⟩
  obtain ⟨h | h,hsum⟩ := flag_split x
  · rw [h,BitVec.zero_add] at hsum
    have hflag : UInt32.ofBitVec x &&& avRoundPassMinmax = 0 := congrArg UInt32.ofBitVec h
    rw [if_neg (not_not.mpr hflag)]
    exact (congrArg UInt32.ofBitVec hsum).symm
  · rw [h,BitVec.add_comm,← BitVec.eq_sub_iff_add_eq] at hsum
    have hflag : UInt32.ofBitVec x &&& avRoundPassMinmax = avRoundPassMinmax :=
      congrArg UInt32.ofBitVec h
    rw [if_pos (by rw [hflag]; decide)]
    exact (congrArg UInt32.ofBitVec hsum).symm

lemma avRound_mirror (mode : Mode) :
    avRound mode ^^^ ((avRound mode >>> 1) &&& 1) = avRound mode.mirror := by
  cases mode <;> decide

lemma rescaleMagnitude_rescaled (mode : Mode) {a b c : ℤ} (ha : 0 ≤ a) (ha' : a ≤ int64Max)
    (hb : 0 ≤ b) (hb' : b ≤ int64Max) (hc : 0 < c) (hc' : c ≤ int64Max) :
    rescaleMagnitude a b c (avRound mode) = rescaled mode a b c := by
  lift a to ℕ using ha
  lift b to ℕ using hb
  lift c to ℕ using hc.le
  simp only [int64Max] at ha' hb' hc'
  rw [rescaled_natCast mode a b (by omega)]
  exact rescaleMagnitude_eq mode (by omega) (by omega) (by omega) (by omega)

/-- The result for a rounding word that asks for `mode`. -/
lemma avRescaleRnd_some {a b c : ℤ} {rnd : UInt32} {mode : Mode} (hmode : modeOf rnd = some mode)
    (ha : a ≤ int64Max) (hb : b ≤ int64Max) (hc : c ≤ int64Max) :
    avRescaleRnd a b c rnd =
      if c ≤ 0 ∨ b < 0 then int64Min
      else if rnd &&& avRoundPassMinmax ≠ 0 ∧ (a = int64Min ∨ a = int64Max) then a
      else rescaled mode (max a (-int64Max)) b c := by
  obtain ⟨hmask,hvalid⟩ := modeOf_some hmode
  simp only [avRescaleRnd,rounding_without_flag,hmask,hvalid,not_true,or_false,avRound_mirror]
  split_ifs with hbad hpass hneg
  · rfl
  · rfl
  · push Not at hbad
    have hclamp : max a (-int64Max) ≤ 0 := by simp only [int64Max]; omega
    have hclamp' : -max a (-int64Max) ≤ int64Max := by simp only [int64Max]; omega
    rw [rescaled_neg mode hclamp (by omega) hbad.1,rescaleMagnitude_rescaled mode.mirror (by omega)
      hclamp' (by omega) hb hbad.1 hc]
  · push Not at hbad
    have hmax : max a (-int64Max) = a := by simp only [int64Max]; omega
    rw [hmax,rescaleMagnitude_rescaled mode (by omega) ha (by omega) hb hbad.1 hc]

/-- On any 64-bit operands and any rounding word, the result is the exact rational rounded as the
word says, and `INT64_MIN` when that does not fit or the call makes no sense. -/
theorem avRescaleRnd_eq {a b c : ℤ} (rnd : UInt32) (ha : a ≤ int64Max)
    (hb : b ≤ int64Max) (hc : c ≤ int64Max) :
    avRescaleRnd a b c rnd = (modeOf rnd).elim int64Min fun mode =>
      if c ≤ 0 ∨ b < 0 then int64Min
      else if rnd &&& avRoundPassMinmax ≠ 0 ∧ (a = int64Min ∨ a = int64Max) then a
      else rescaled mode (max a (-int64Max)) b c := by
  rcases hmode : modeOf rnd with _ | mode
  · rw [avRescaleRnd,if_pos (Or.inr (Or.inr (by rw [modeOf_none hmode]; decide)))]
    rfl
  · rw [avRescaleRnd_some hmode ha hb hc]
    rfl

theorem avRescaleRnd_wide : avRescaleRnd (-5000000000000001) 3000000000 7000000001 5 =
    -2142857142551021 := by
  have hmode : modeOf 5 = some .nearInf := by decide
  have hclamp : max (-5000000000000001) (-int64Max) = -5000000000000001 := by decide
  have hmagnitude : rescaled .nearInf 5000000000000001 3000000000 7000000001 = 2142857142551021 :=
    (rescaled_natCast .nearInf 5000000000000001 3000000000 (by decide)).trans (by decide)
  have hrescaled : rescaled .nearInf (-5000000000000001) 3000000000 7000000001 =
      -2142857142551021 := by
    rw [rescaled_neg .nearInf (by decide) (by decide) (by decide)]
    exact (congrArg (fun x => int64 (-x)) hmagnitude).trans (by decide)
  rw [avRescaleRnd_eq 5 (by decide) (by decide) (by decide),hmode,Option.elim_some,
    if_neg (by decide),if_neg (by decide),hclamp,hrescaled]

end ZenMedia.Avutil
