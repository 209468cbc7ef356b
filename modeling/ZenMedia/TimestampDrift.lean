import ZenMedia.TimeStamps

/-! The packets of a stream whose durations are known in samples while their time stamps are
rounded to a coarser unit: how the rescaled time stamps keep to the samples. -/
namespace ZenMedia.Avutil
open Rounding

def avNoptsValue : ℤ := int64Min

def avClip64 (a amin amax : ℤ) : ℤ := if a < amin then amin else if amax < a then amax else a

/-- The result and the new `*last`; nothing where an assertion fails. -/
def avRescaleDelta (in_tb : AVRational) (in_ts : ℤ) (fs_tb : AVRational) (duration last : ℤ)
    (out_tb : AVRational) : Option (ℤ × ℤ) :=
  if in_ts = avNoptsValue ∨ duration < 0 then none
  else
    let simple_round :=
      (avRescaleQ in_ts in_tb out_tb,int64 (avRescaleQ in_ts in_tb fs_tb + duration))
    if last = avNoptsValue ∨ duration = 0 ∨
        int64 (in_tb.num * out_tb.den) ≤ int64 (out_tb.num * in_tb.den) then some simple_round
    else
      let a := avRescaleQRnd (int64 (int64 (2 * in_ts) - 1)) in_tb fs_tb (avRound .down) >>> (1 : ℕ)
      let b :=
        int64 (avRescaleQRnd (int64 (int64 (2 * in_ts) + 1)) in_tb fs_tb (avRound .up) + 1) >>> (1 : ℕ)
      if last < int64 (int64 (2 * a) - b) ∨ int64 (int64 (2 * b) - a) < last then some simple_round
      else
        let this := avClip64 last a b
        some (avRescaleQ this fs_tb out_tb,int64 (this + duration))

/-- One stream's packets, each a time stamp and a duration, with `*last` kept between them. -/
def rescaleDeltas (in_tb fs_tb out_tb : AVRational) : ℤ → List (ℤ × ℤ) → Option (List ℤ)
  | _, [] => some []
  | last, (in_ts,duration) :: packets => do
    let (ts,last) ← avRescaleDelta in_tb in_ts fs_tb duration last out_tb
    let rest ← rescaleDeltas in_tb fs_tb out_tb last packets
    pure (ts :: rest)

/-! ### The window of a time stamp -/

section window
variable (in_tb fs_tb : TimeBase)

/-- The samples in a tick. -/
def ratio : ℚ := in_tb.value / fs_tb.value

/-- Far enough from the ends of 64 bits. -/
structure Ample (ts : ℤ) : Prop where
  stamp : |ts| ≤ 2 ^ 61
  samples : (2 * |(ts : ℚ)| + 1) * ratio in_tb fs_tb ≤ 2 ^ 61

/-- The first and the last sample that may have the time stamp. -/
def lowest (ts : ℤ) : ℤ := ⌊((ts : ℚ) - 1 / 2) * ratio in_tb fs_tb⌋
def highest (ts : ℤ) : ℤ := ⌈((ts : ℚ) + 1 / 2) * ratio in_tb fs_tb⌉

lemma ratio_pos : 0 < ratio in_tb fs_tb := div_pos in_tb.value_pos fs_tb.value_pos

variable {in_tb fs_tb} {ts : ℤ} (h : Ample in_tb fs_tb ts)
include h

/-- What is rescaled for either end fits. -/
lemma Ample.end_le {n : ℤ} (hn : |n - 2 * ts| ≤ 1) :
    |(n : ℚ) * in_tb.value / fs_tb.value| ≤ ((2 ^ 61 : ℤ) : ℚ) := by
  have hcast : |(n : ℚ) - 2 * ts| ≤ 1 := by exact_mod_cast hn
  have habs : |(n : ℚ)| ≤ 2 * |(ts : ℚ)| + 1 := by
    have hsum : (n : ℚ) = 2 * ts + (n - 2 * ts) := by ring
    calc
      |(n : ℚ)| = |2 * (ts : ℚ) + (n - 2 * ts)| := congrArg _ hsum
      _ ≤ |2 * (ts : ℚ)| + |(n : ℚ) - 2 * ts| := abs_add_le _ _
      _ ≤ 2 * |(ts : ℚ)| + 1 := by rw [abs_mul,abs_two]; linarith
  have hratio := ratio_pos in_tb fs_tb
  have hsamples := h.samples
  rw [mul_div_assoc,abs_mul,abs_of_pos (show 0 < in_tb.value / fs_tb.value from hratio)]
  calc
    _ ≤ (2 * |(ts : ℚ)| + 1) * ratio in_tb fs_tb := mul_le_mul_of_nonneg_right habs hratio.le
    _ ≤ _ := by exact_mod_cast hsamples

lemma Ample.rescaled {n : ℤ} (hn : |n - 2 * ts| ≤ 1) (mode : Mode) :
    avRescaleQRnd n in_tb.toAVRational fs_tb.toAVRational (avRound mode) =
        mode.round ((n : ℚ) * ratio in_tb fs_tb) ∧
      |mode.round ((n : ℚ) * ratio in_tb fs_tb)| ≤ 2 ^ 61 := by
  have hround := mode.abs_round_le (h.end_le hn)
  have hstamp := h.stamp
  rw [abs_le] at hn hstamp
  have hfits : |n| ≤ int64Max := by
    rw [abs_le]
    simp only [int64Max]
    omega
  rw [mul_div_assoc] at hround
  rw [avRescaleQRnd_eq mode hfits,mul_div_assoc]
  exact ⟨fitting_eq (hround.trans (by decide)),hround⟩

lemma Ample.int64_end {d : ℤ} (hd : |d| ≤ 1) : int64 (int64 (2 * ts) + d) = 2 * ts + d := by
  have hstamp := h.stamp
  rw [abs_le] at hstamp hd
  have hdouble : int64 (2 * ts) = 2 * ts := by
    apply int64_eq <;> simp only [int64Min,int64Max] <;> omega
  rw [hdouble]
  apply int64_eq <;> simp only [int64Min,int64Max] <;> omega

lemma Ample.lowest_eq :
    avRescaleQRnd (int64 (int64 (2 * ts) - 1)) in_tb.toAVRational fs_tb.toAVRational
      (avRound .down) >>> (1 : ℕ) = lowest in_tb fs_tb ts ∧ |lowest in_tb fs_tb ts| ≤ 2 ^ 60 := by
  obtain ⟨hrescaled,hle⟩ := h.rescaled (n := 2 * ts + -1) (by norm_num) .down
  have hhalf : lowest in_tb fs_tb ts =
      ⌊((2 * ts + -1 : ℤ) : ℚ) * ratio in_tb fs_tb⌋ / ((2 : ℕ) : ℤ) := by
    rw [← Int.floor_div_natCast,lowest]
    congr 1
    push_cast
    ring
  rw [sub_eq_add_neg,h.int64_end (by norm_num),hrescaled,Int.shiftRight_eq_div_pow,hhalf]
  rw [Mode.round,abs_le] at *
  constructor
  · rfl
  · omega

lemma Ample.highest_eq :
    int64 (avRescaleQRnd (int64 (int64 (2 * ts) + 1)) in_tb.toAVRational fs_tb.toAVRational
      (avRound .up) + 1) >>> (1 : ℕ) = highest in_tb fs_tb ts ∧ |highest in_tb fs_tb ts| ≤ 2 ^ 60 := by
  obtain ⟨hrescaled,hle⟩ := h.rescaled (n := 2 * ts + 1) (by norm_num) .up
  have hhalf : highest in_tb fs_tb ts =
      (⌈((2 * ts + 1 : ℤ) : ℚ) * ratio in_tb fs_tb⌉ + 1) / 2 := by
    have hfloor := Int.floor_div_natCast (-(((2 * ts + 1 : ℤ) : ℚ) * ratio in_tb fs_tb)) 2
    rw [Int.floor_neg] at hfloor
    have hceil : highest in_tb fs_tb ts =
        -⌊-(((2 * ts + 1 : ℤ) : ℚ) * ratio in_tb fs_tb) / (2 : ℕ)⌋ := by
      rw [highest,← Int.ceil_neg]
      congr 1
      push_cast
      ring
    rw [hceil,hfloor]
    omega
  rw [h.int64_end (by norm_num),hrescaled,Int.shiftRight_eq_div_pow,hhalf]
  rw [Mode.round,abs_le] at *
  rw [int64_eq (by simp only [int64Min]; omega) (by simp only [int64Max]; omega)]
  constructor
  · rfl
  · omega

end window

/-! ### One packet -/

/-- The sample is one that the time stamp is rounded from. -/
def Stamped (in_tb fs_tb : TimeBase) (p ts : ℤ) : Prop :=
  |(p : ℚ) - ts * ratio in_tb fs_tb| ≤ ratio in_tb fs_tb / 2

/-- An error that has moved towards zero, if at all. -/
def Shrinks (e e' : ℤ) : Prop := 0 ≤ e' ∧ e' ≤ e ∨ e ≤ e' ∧ e' ≤ 0

lemma Shrinks.trans {e e' e'' : ℤ} (h : Shrinks e e') (h' : Shrinks e' e'') : Shrinks e e'' := by
  simp only [Shrinks] at *
  omega

lemma Shrinks.abs_le {e e' : ℤ} (h : Shrinks e e') : |e'| ≤ |e| := by
  rcases h with ⟨hnonneg,hle⟩ | ⟨hle,hnonpos⟩
  · rwa [abs_of_nonneg hnonneg,abs_of_nonneg (hnonneg.trans hle)]
  · rw [abs_of_nonpos hnonpos,abs_of_nonpos (hle.trans hnonpos)]
    omega

/-- Clipping to a window moves towards what lies in it. -/
lemma avClip64_shrinks {a b p : ℤ} (ha : a ≤ p) (hb : p ≤ b) (e : ℤ) :
    Shrinks e (avClip64 (p + e) a b - p) ∧ a ≤ avClip64 (p + e) a b ∧ avClip64 (p + e) a b ≤ b := by
  simp only [avClip64,Shrinks]
  split_ifs <;> omega

section packet
variable {in_tb fs_tb : TimeBase} {p ts : ℤ}

lemma Stamped.window (h : Stamped in_tb fs_tb p ts) :
    lowest in_tb fs_tb ts ≤ p ∧ p ≤ highest in_tb fs_tb ts := by
  rw [Stamped,abs_le] at h
  have hfloor := Int.floor_le (((ts : ℚ) - 1 / 2) * ratio in_tb fs_tb)
  have hceil := Int.le_ceil (((ts : ℚ) + 1 / 2) * ratio in_tb fs_tb)
  constructor
  · have hle : (lowest in_tb fs_tb ts : ℚ) ≤ p := by
      rw [lowest]
      linarith
    exact_mod_cast hle
  · have hle : (p : ℚ) ≤ highest in_tb fs_tb ts := by
      rw [highest]
      linarith
    exact_mod_cast hle

/-- The window is as wide as a tick, and at least one sample wide. -/
lemma window_width {e : ℤ} (he : |(e : ℚ)| ≤ (ratio in_tb fs_tb + 1) / 2) (ts : ℤ) :
    |e| ≤ highest in_tb fs_tb ts - lowest in_tb fs_tb ts := by
  have hpos := ratio_pos in_tb fs_tb
  have hfloor := Int.floor_le (((ts : ℚ) - 1 / 2) * ratio in_tb fs_tb)
  have hceil := Int.le_ceil (((ts : ℚ) + 1 / 2) * ratio in_tb fs_tb)
  have hwide : ratio in_tb fs_tb ≤ (highest in_tb fs_tb ts - lowest in_tb fs_tb ts : ℤ) := by
    rw [highest,lowest]
    push_cast
    linarith
  have hone : (1 : ℚ) ≤ (highest in_tb fs_tb ts - lowest in_tb fs_tb ts : ℤ) := by
    have hlt : (0 : ℚ) < (highest in_tb fs_tb ts - lowest in_tb fs_tb ts : ℤ) := by linarith
    have hlt' : 0 < highest in_tb fs_tb ts - lowest in_tb fs_tb ts := by exact_mod_cast hlt
    exact_mod_cast hlt'
  have hle : ((|e| : ℤ) : ℚ) ≤ (highest in_tb fs_tb ts - lowest in_tb fs_tb ts : ℤ) := by
    rw [Int.cast_abs]
    linarith
  exact_mod_cast hle

lemma TimeBase.product_lt {out_tb in_tb : TimeBase} (h : out_tb.value < in_tb.value) :
    out_tb.num * in_tb.den < in_tb.num * out_tb.den := by
  have hout : (0 : ℚ) < out_tb.den := by exact_mod_cast out_tb.den_pos
  have hin : (0 : ℚ) < in_tb.den := by exact_mod_cast in_tb.den_pos
  rw [TimeBase.value,TimeBase.value,div_lt_div_iff₀ hout hin] at h
  exact_mod_cast h

/-- A packet whose `*last` is off by no more than the first rounding can be. -/
lemma avRescaleDelta_clip {out_tb : TimeBase} (hcoarse : out_tb.value < in_tb.value)
    (hample : Ample in_tb fs_tb ts) (hp : Stamped in_tb fs_tb p ts) {d : ℤ} (hd : 0 < d)
    (hd' : d ≤ intMax) {e : ℤ} (he : |(e : ℚ)| ≤ (ratio in_tb fs_tb + 1) / 2) :
    ∃ e', Shrinks e e' ∧ avRescaleDelta in_tb.toAVRational ts fs_tb.toAVRational d (p + e)
      out_tb.toAVRational =
        some (avRescaleQ (p + e') fs_tb.toAVRational out_tb.toAVRational,p + d + e') := by
  obtain ⟨hlow,hlow'⟩ := hample.lowest_eq
  obtain ⟨hhigh,hhigh'⟩ := hample.highest_eq
  obtain ⟨hge,hle⟩ := hp.window
  have hwidth := window_width he ts
  have hproduct := TimeBase.product_lt hcoarse
  have hstamp := hample.stamp
  obtain ⟨hshrinks,hclip,hclip'⟩ := avClip64_shrinks hge hle e
  simp only [avRescaleDelta,hlow,hhigh,in_tb.int64_product out_tb,out_tb.int64_product in_tb]
  generalize lowest in_tb fs_tb ts = a at *
  generalize highest in_tb fs_tb ts = b at *
  rw [abs_le] at hlow' hhigh' hwidth hstamp
  have hends : int64 (int64 (2 * a) - b) = 2 * a - b ∧ int64 (int64 (2 * b) - a) = 2 * b - a := by
    have hdouble : int64 (2 * a) = 2 * a ∧ int64 (2 * b) = 2 * b := by
      constructor <;> apply int64_eq <;> simp only [int64Min,int64Max] <;> omega
    rw [hdouble.1,hdouble.2]
    constructor <;> apply int64_eq <;> simp only [int64Min,int64Max] <;> omega
  have hnext : int64 (avClip64 (p + e) a b + d) = avClip64 (p + e) a b + d := by
    simp only [intMax] at hd'
    apply int64_eq <;> simp only [int64Min,int64Max] <;> omega
  refine ⟨avClip64 (p + e) a b - p,hshrinks,?_⟩
  have hvalid : ¬(ts = avNoptsValue ∨ d < 0) := by
    simp only [avNoptsValue,int64Min]
    omega
  have hsmooth : ¬(p + e = avNoptsValue ∨ d = 0 ∨
      in_tb.num * out_tb.den ≤ out_tb.num * in_tb.den) := by
    simp only [avNoptsValue,int64Min]
    omega
  rw [if_neg hvalid,if_neg hsmooth,hends.1,hends.2,if_neg (by omega),hnext,add_sub_cancel]
  congr 2
  omega

/-- The first packet starts `*last` off from its time stamp alone. -/
lemma avRescaleDelta_first (out_tb : TimeBase) (hample : Ample in_tb fs_tb ts)
    (hp : Stamped in_tb fs_tb p ts) {d : ℤ} (hd : 0 ≤ d) (hd' : d ≤ intMax) :
    |((Mode.nearInf.round (ts * ratio in_tb fs_tb) - p : ℤ) : ℚ)| ≤ (ratio in_tb fs_tb + 1) / 2 ∧
    avRescaleDelta in_tb.toAVRational ts fs_tb.toAVRational d avNoptsValue out_tb.toAVRational =
      some (avRescaleQ ts in_tb.toAVRational out_tb.toAVRational,
        p + d + (Mode.nearInf.round (ts * ratio in_tb fs_tb) - p)) := by
  have hround := nearInf_sub_le ((ts : ℚ) * ratio in_tb fs_tb)
  have hstamp := hample.stamp
  obtain ⟨hlow,hlow'⟩ := hp.window
  have hlowest := hample.lowest_eq.2
  have hhighest := hample.highest_eq.2
  have herror : |((Mode.nearInf.round (ts * ratio in_tb fs_tb) - p : ℤ) : ℚ)| ≤
      (ratio in_tb fs_tb + 1) / 2 := by
    rw [Stamped,abs_le] at hp
    rw [abs_le] at hround ⊢
    push_cast
    constructor <;> linarith
  have hwidth := window_width herror ts
  have hfits : |ts| ≤ int64Max := hstamp.trans (by decide)
  rw [abs_le] at hstamp hlowest hhighest hwidth
  have hvalid : ¬(ts = avNoptsValue ∨ d < 0) := by
    simp only [avNoptsValue,int64Min]
    omega
  have hsamples : avRescaleQ ts in_tb.toAVRational fs_tb.toAVRational =
      Mode.nearInf.round (ts * ratio in_tb fs_tb) := by
    have hle : |Mode.nearInf.round (ts * ratio in_tb fs_tb)| ≤ int64Max := by
      rw [abs_le]
      simp only [int64Max]
      omega
    rw [avRescaleQ,avRescaleQRnd_eq .nearInf hfits,mul_div_assoc]
    exact fitting_eq hle
  refine ⟨herror,?_⟩
  simp only [avRescaleDelta]
  rw [if_neg hvalid,if_pos (Or.inl trivial),hsamples]
  congr 2
  simp only [intMax] at hd'
  rw [int64_eq (by simp only [int64Min]; omega) (by simp only [int64Max]; omega)]
  omega

end packet

/-! ### A whole stream -/

/-- Packets that follow each other without a gap, the first of them at sample `p`, each with a
time stamp that its first sample is rounded to. -/
def Sampled (in_tb fs_tb : TimeBase) : ℤ → List (ℤ × ℤ) → Prop
  | _, [] => True
  | p, (ts,d) :: packets =>
    (Ample in_tb fs_tb ts ∧ Stamped in_tb fs_tb p ts ∧ 0 < d ∧ d ≤ intMax) ∧
      Sampled in_tb fs_tb (p + d) packets

/-- The first samples of the packets. -/
def positions : ℤ → List (ℤ × ℤ) → List ℤ
  | _, [] => []
  | p, (_,d) :: packets => p :: positions (p + d) packets

section stream
variable {in_tb fs_tb out_tb : TimeBase} (hcoarse : out_tb.value < in_tb.value)
include hcoarse

lemma rescaleDeltas_clip {packets : List (ℤ × ℤ)} {p e : ℤ} (h : Sampled in_tb fs_tb p packets)
    (he : |(e : ℚ)| ≤ (ratio in_tb fs_tb + 1) / 2) :
    ∃ errors : List ℤ, errors.length = packets.length ∧ (e :: errors).Pairwise Shrinks ∧
      rescaleDeltas in_tb.toAVRational fs_tb.toAVRational out_tb.toAVRational (p + e) packets =
        some (List.zipWith (fun p e => avRescaleQ (p + e) fs_tb.toAVRational out_tb.toAVRational)
          (positions p packets) errors) := by
  induction packets generalizing p e with
  | nil => exact ⟨[],rfl,List.pairwise_singleton _ _,rfl⟩
  | cons packet packets ih =>
    obtain ⟨ts,d⟩ := packet
    obtain ⟨⟨hample,hp,hd,hd'⟩,hrest⟩ := h
    obtain ⟨e',hshrinks,hdelta⟩ := avRescaleDelta_clip hcoarse hample hp hd hd' he
    have he' : |(e' : ℚ)| ≤ (ratio in_tb fs_tb + 1) / 2 := by
      have hle : ((|e'| : ℤ) : ℚ) ≤ ((|e| : ℤ) : ℚ) := by exact_mod_cast hshrinks.abs_le
      rw [Int.cast_abs,Int.cast_abs] at hle
      exact hle.trans he
    obtain ⟨errors,hlength,hpairwise,hdeltas⟩ := ih hrest he'
    refine ⟨e' :: errors,congrArg (· + 1) hlength,?_,?_⟩
    · rw [List.pairwise_cons]
      constructor
      · intro e'' hmem
        rcases List.mem_cons.mp hmem with rfl | hlater
        · exact hshrinks
        · exact hshrinks.trans (List.rel_of_pairwise_cons hpairwise hlater)
      · exact hpairwise
    · simp [rescaleDeltas,hdelta,hdeltas,positions]

end stream

end ZenMedia.Avutil
