import ZenMedia.PictureSize

/-! The sanity check of `changePlayerLayout` and the divisions behind it. The
computation is repeated with a record of its divisors; without the record it is the
one of `VideoLayout`. -/
namespace ZenMedia

/-- A computation that records each divisor. -/
abbrev Dividing := StateM (List Double)

namespace Dividing

def divide (a b : Double) : Dividing Double := do
  modify fun divisors => divisors ++ [b]
  pure (a.div b)

def aspectRatio (v : VideoLayout) : Dividing (Double × Double) :=
  if v.sarDen = v.sarNum then do
    let ar ← divide (.ofInt v.videoVisibleWidth) (.ofInt v.videoVisibleHeight)
    pure (.ofInt v.videoVisibleWidth,ar)
  else do
    let vw ← divide ((Double.ofInt v.videoVisibleWidth).mul (.ofInt v.sarNum)) (.ofInt v.sarDen)
    let ar ← divide vw (.ofInt v.videoVisibleHeight)
    pure (vw,ar)

def fitInside (dw dh dar ar : Double) : Dividing (Double × Double) :=
  if dar.lt ar then do pure (dw,← divide dw ar) else pure (dh.mul ar,dh)

/-- Everything behind the check, `dar` included, which only the fitting modes use. -/
def chosenSize (v : VideoLayout) (currentSize : ℤ) (dw dh : Double) : Dividing (Double × Double) := do
  let (vw,ar) ← aspectRatio v
  let dar ← divide dw dh
  if currentSize = PLAYER_BEST_FIT then fitInside dw dh dar ar
  else if currentSize = PLAYER_FIT_HORIZONTAL then do pure (dw,← divide dw ar)
  else if currentSize = PLAYER_FIT_VERTICAL then pure (dh.mul ar,dh)
  else if currentSize = PLAYER_FILL then pure (dw,dh)
  else if currentSize = PLAYER_16_9 then do fitInside dw dh dar (← divide (.ofInt 16) (.ofInt 9))
  else if currentSize = PLAYER_4_3 then do fitInside dw dh dar (← divide (.ofInt 4) (.ofInt 3))
  else if currentSize = PLAYER_ORIGINAL then pure (vw,.ofInt v.videoVisibleHeight)
  else pure (dw,dh)

def viewSize (v : VideoLayout) (display : Double × Double) : Dividing (ℤ × ℤ) := do
  let width ← divide (display.1.mul (.ofInt v.videoWidth)) (.ofInt v.videoVisibleWidth)
  let height ← divide (display.2.mul (.ofInt v.mVideoHeight)) (.ofInt v.videoVisibleHeight)
  pure (width.ceil,height.ceil)

/-- The size given to the view, `none` when the sanity check fails. -/
def layOut (v : VideoLayout) (currentSize sw sh : ℤ) (isPortrait : Bool) :
    Dividing (Option (ℤ × ℤ)) :=
  let dw := Double.ofInt (workingWidth sw sh isPortrait)
  let dh := Double.ofInt (workingHeight sw sh isPortrait)
  if dw.mul dh = .num 0 || wrap32 (v.videoWidth*v.mVideoHeight) = 0 then pure none
  else do
    let display ← chosenSize v currentSize dw dh
    let size ← viewSize v display
    pure (some size)

/-! ### The record changes nothing -/

section runs
variable {α β : Type} (v : VideoLayout) (divisors : List Double)

lemma run_pure (a : α) : (pure a : Dividing α).run divisors = (a,divisors) := rfl

lemma run_bind (m : Dividing α) (f : α → Dividing β) :
    (m >>= f).run divisors = (f (m.run divisors).1).run (m.run divisors).2 := rfl

lemma run_divide (a b : Double) : (divide a b).run divisors = (a.div b,divisors ++ [b]) := rfl

lemma run_aspectRatio : (aspectRatio v).run divisors =
    (v.aspectRatio,divisors ++ (if v.sarDen = v.sarNum then [] else [.ofInt v.sarDen]) ++
      [.ofInt v.videoVisibleHeight]) := by
  unfold aspectRatio VideoLayout.aspectRatio
  by_cases hsar : v.sarDen = v.sarNum
  · rw [if_pos hsar,if_pos hsar,if_pos hsar,List.append_nil]
    rfl
  · rw [if_neg hsar,if_neg hsar,if_neg hsar]
    rfl

def fitDivisors (dw dh ar : Double) : List Double := if (dw.div dh).lt ar then [ar] else []

lemma run_fitInside (dw dh ar : Double) : (fitInside dw dh (dw.div dh) ar).run divisors =
    (VideoLayout.fitInside dw dh ar,divisors ++ fitDivisors dw dh ar) := by
  unfold fitInside VideoLayout.fitInside fitDivisors
  cases (dw.div dh).lt ar with
  | true => rfl
  | false => exact congrArg (Prod.mk _) (List.append_nil divisors).symm

lemma run_viewSize (display : Double × Double) : (viewSize v display).run divisors =
    (v.viewSize display,
      divisors ++ [.ofInt v.videoVisibleWidth,.ofInt v.videoVisibleHeight]) := by
  simp only [viewSize,run_bind,run_divide,run_pure,List.append_assoc]
  rfl

/-- The divisors of the `switch`. -/
def modeDivisors (currentSize : ℤ) (dw dh ar : Double) : List Double :=
  if currentSize = PLAYER_BEST_FIT then fitDivisors dw dh ar
  else if currentSize = PLAYER_FIT_HORIZONTAL then [ar]
  else if currentSize = PLAYER_FIT_VERTICAL then []
  else if currentSize = PLAYER_FILL then []
  else if currentSize = PLAYER_16_9 then
    .num 9 :: fitDivisors dw dh ((Double.ofInt 16).div (.ofInt 9))
  else if currentSize = PLAYER_4_3 then
    .num 3 :: fitDivisors dw dh ((Double.ofInt 4).div (.ofInt 3))
  else []

lemma run_chosenSize (currentSize : ℤ) (dw dh : Double) :
    (chosenSize v currentSize dw dh).run divisors = (v.chosenSize currentSize dw dh,
      divisors ++ (if v.sarDen = v.sarNum then [] else [.ofInt v.sarDen]) ++
        [.ofInt v.videoVisibleHeight] ++ [dh] ++
        modeDivisors currentSize dw dh v.aspectRatio.2) := by
  unfold chosenSize VideoLayout.chosenSize modeDivisors
  rw [run_bind,run_aspectRatio]
  -- the divisors of the aspect ratio are the same for every mode
  generalize divisors ++ (if v.sarDen = v.sarNum then [] else [Double.ofInt v.sarDen]) ++
    [.ofInt v.videoVisibleHeight] = first
  simp only [run_bind,run_divide]
  split_ifs <;> simp only [run_bind,run_fitInside,run_divide,run_pure,List.append_assoc,
    List.append_nil,List.cons_append,List.nil_append,Double.ofInt_eq,Int.cast_ofNat]

lemma run_layOut_fst (currentSize sw sh : ℤ) (isPortrait : Bool) :
    ((layOut v currentSize sw sh isPortrait).run divisors).1 =
      (v.displaySize currentSize sw sh isPortrait).map v.viewSize := by
  rw [VideoLayout.displaySize_def,layOut]
  split
  · rfl
  · simp only [run_bind,run_chosenSize,run_viewSize,run_pure,Option.map_some]

end runs

end Dividing

/-! ### What the check establishes -/

lemma wrap32_eq_zero_iff (n : ℤ) : wrap32 n = 0 ↔ 2^32 ∣ n := by
  unfold wrap32
  omega

lemma working_product (sw sh : ℤ) (isPortrait : Bool) :
    workingWidth sw sh isPortrait*workingHeight sw sh isPortrait = sw*sh := by
  unfold workingWidth workingHeight
  split
  · exact mul_comm sh sw
  · rfl

/-- The condition under which `changePlayerLayout` returns early. -/
def VideoLayout.rejected (v : VideoLayout) (sw sh : ℤ) : Prop :=
  sw = 0 ∨ sh = 0 ∨ 2^32 ∣ v.videoWidth*v.mVideoHeight

lemma rejected_iff (v : VideoLayout) (sw sh : ℤ) (isPortrait : Bool) :
    ((Double.ofInt (workingWidth sw sh isPortrait)).mul
        (.ofInt (workingHeight sw sh isPortrait)) = .num 0 ||
      wrap32 (v.videoWidth*v.mVideoHeight) = 0) = true ↔ v.rejected sw sh := by
  have hproduct : ((workingWidth sw sh isPortrait : ℚ)*workingHeight sw sh isPortrait = 0) ↔
      sw = 0 ∨ sh = 0 := by
    rw [← Int.cast_mul,working_product,Int.cast_eq_zero,mul_eq_zero]
  unfold VideoLayout.rejected
  rw [Bool.or_eq_true,decide_eq_true_eq,decide_eq_true_eq,wrap32_eq_zero_iff,Double.ofInt_eq,
    Double.ofInt_eq,Double.num_mul_num,Double.num.injEq,hproduct,or_assoc]

/-- The divisors that `changePlayerLayout` evaluates. -/
def divisors (v : VideoLayout) (currentSize sw sh : ℤ) (isPortrait : Bool) : List Double :=
  ((Dividing.layOut v currentSize sw sh isPortrait).run []).2

lemma divisors_eq {v : VideoLayout} {sw sh : ℤ} (h : ¬v.rejected sw sh) (currentSize : ℤ)
    (isPortrait : Bool) :
    divisors v currentSize sw sh isPortrait =
      (if v.sarDen = v.sarNum then [] else [.ofInt v.sarDen]) ++ [.ofInt v.videoVisibleHeight] ++
        [.ofInt (workingHeight sw sh isPortrait)] ++
        Dividing.modeDivisors currentSize (.ofInt (workingWidth sw sh isPortrait))
          (.ofInt (workingHeight sw sh isPortrait)) v.aspectRatio.2 ++
        [.ofInt v.videoVisibleWidth,.ofInt v.videoVisibleHeight] := by
  unfold divisors Dividing.layOut
  rw [if_neg (mt (rejected_iff v sw sh isPortrait).mp h)]
  simp only [Dividing.run_bind,Dividing.run_chosenSize,Dividing.run_viewSize,Dividing.run_pure,
    List.nil_append]

/-- The aspect ratio is a number, and zero only through `sarNum`. -/
lemma aspectRatio_num {v : VideoLayout} (hvh : v.videoVisibleHeight ≠ 0)
    (hvw : v.videoVisibleWidth ≠ 0) (hsar : v.sarDen ≠ v.sarNum → v.sarDen ≠ 0) :
    ∃ ar : ℚ, v.aspectRatio.2 = .num ar ∧ (ar = 0 ↔ v.sarDen ≠ v.sarNum ∧ v.sarNum = 0) := by
  have hvh' : (v.videoVisibleHeight : ℚ) ≠ 0 := by exact_mod_cast hvh
  have hvw' : (v.videoVisibleWidth : ℚ) ≠ 0 := by exact_mod_cast hvw
  unfold VideoLayout.aspectRatio
  by_cases heq : v.sarDen = v.sarNum
  · rw [if_pos heq]
    simp only [Double.ofInt_eq]
    refine ⟨_,Double.num_div_num _ hvh',?_⟩
    simp [heq,hvh,hvw]
  · have hden : (v.sarDen : ℚ) ≠ 0 := by exact_mod_cast hsar heq
    rw [if_neg heq]
    simp only [Double.ofInt_eq,Double.num_mul_num]
    rw [Double.num_div_num _ hden,Double.num_div_num _ hvh']
    refine ⟨_,rfl,?_⟩
    simp [heq,hvh,hvw,hsar heq]

/-- The divisors of a fitting mode, whose box is not flat. -/
lemma fitDivisors_ne_zero {dw dh ar : ℚ} (hdh : dh ≠ 0) :
    (∀ d ∈ Dividing.fitDivisors (.num dw) (.num dh) (.num ar), d ≠ .num 0) ↔
      (ar = 0 → 0 ≤ dw*dh) := by
  have hsign : 0 ≤ dw/dh ↔ 0 ≤ dw*dh := by
    rw [div_nonneg_iff,mul_nonneg_iff]
  unfold Dividing.fitDivisors
  rw [Double.num_div_num _ hdh,Double.num_lt_num,← hsign]
  by_cases hlt : dw/dh < ar
  · rw [if_pos (decide_eq_true hlt),List.forall_mem_singleton,ne_eq,Double.num.injEq]
    constructor
    · intro hne hzero
      exact absurd hzero hne
    · rintro h rfl
      exact absurd (h rfl) (not_le.mpr hlt)
  · rw [if_neg (by simpa using hlt)]
    simp only [List.not_mem_nil,false_implies,implies_true,true_iff]
    rintro rfl
    exact not_lt.mp hlt

/-- The divisors of the `switch`, for a finite aspect ratio. -/
lemma modeDivisors_ne_zero (currentSize : ℤ) {dw dh ar : ℚ} (hdh : dh ≠ 0) :
    (∀ d ∈ Dividing.modeDivisors currentSize (.num dw) (.num dh) (.num ar), d ≠ .num 0) ↔
      (ar = 0 → currentSize ≠ PLAYER_FIT_HORIZONTAL ∧
        (currentSize = PLAYER_BEST_FIT → 0 ≤ dw*dh)) := by
  have hwide : (Double.ofInt 16).div (.ofInt 9) = .num (16/9) := Double.num_div_num _ (by norm_num)
  have hnarrow : (Double.ofInt 4).div (.ofInt 3) = .num (4/3) := Double.num_div_num _ (by norm_num)
  unfold Dividing.modeDivisors
  rw [hwide,hnarrow]
  split_ifs with hbest hhorizontal hvertical hfill h169 h43
  · subst hbest
    rw [fitDivisors_ne_zero hdh]
    simp [PLAYER_BEST_FIT,PLAYER_FIT_HORIZONTAL]
  · simp [hhorizontal]
  · simp [hhorizontal,hbest]
  · simp [hhorizontal,hbest]
  · rw [List.forall_mem_cons,fitDivisors_ne_zero hdh]
    simp [hhorizontal,hbest]
  · rw [List.forall_mem_cons,fitDivisors_ne_zero hdh]
    simp [hhorizontal,hbest]
  · simp [hhorizontal,hbest]

/-- The divisors of an accepted event. -/
lemma divisors_ne_zero {v : VideoLayout} {sw sh : ℤ} (h : ¬v.rejected sw sh) (currentSize : ℤ)
    (isPortrait : Bool) :
    (∀ d ∈ divisors v currentSize sw sh isPortrait, d ≠ .num 0) ↔
      v.videoVisibleWidth ≠ 0 ∧ v.videoVisibleHeight ≠ 0 ∧ (v.sarDen ≠ v.sarNum → v.sarDen ≠ 0) ∧
        (v.sarDen ≠ v.sarNum ∧ v.sarNum = 0 → currentSize ≠ PLAYER_FIT_HORIZONTAL ∧
          (currentSize = PLAYER_BEST_FIT → 0 ≤ sw*sh)) := by
  have hflat : sw*sh ≠ 0 := by
    rw [mul_ne_zero_iff]
    exact ⟨fun hw => h (.inl hw),fun hh => h (.inr (.inl hh))⟩
  have hdh : (workingHeight sw sh isPortrait : ℚ) ≠ 0 := by
    rw [← working_product sw sh isPortrait] at hflat
    exact_mod_cast right_ne_zero_of_mul hflat
  have hfirst : (∀ d ∈ if v.sarDen = v.sarNum then [] else [Double.ofInt v.sarDen], d ≠ .num 0) ↔
      (v.sarDen ≠ v.sarNum → v.sarDen ≠ 0) := by
    split_ifs with heq <;> simp [heq]
  have hsplit : (∀ d ∈ divisors v currentSize sw sh isPortrait, d ≠ .num 0) ↔
      v.videoVisibleWidth ≠ 0 ∧ v.videoVisibleHeight ≠ 0 ∧ (v.sarDen ≠ v.sarNum → v.sarDen ≠ 0) ∧
        ∀ d ∈ Dividing.modeDivisors currentSize (.num (workingWidth sw sh isPortrait))
          (.num (workingHeight sw sh isPortrait)) v.aspectRatio.2, d ≠ .num 0 := by
    rw [divisors_eq h]
    simp only [List.forall_mem_append,List.forall_mem_cons,Double.ofInt_eq,
      Double.num.injEq,Int.cast_eq_zero,Int.cast_ne_zero.mp hdh,ne_eq]
    tauto
  rw [hsplit]
  refine and_congr_right fun hvw => and_congr_right fun hvh => and_congr_right fun hsar => ?_
  obtain ⟨ar,har,hzero⟩ := aspectRatio_num hvh hvw hsar
  rw [har,modeDivisors_ne_zero currentSize hdh,hzero]
  have hproduct : 0 ≤ (workingWidth sw sh isPortrait : ℚ)*workingHeight sw sh isPortrait ↔
      0 ≤ sw*sh := by
    rw [← Int.cast_mul,working_product,Int.cast_nonneg_iff]
  rw [hproduct]

theorem sanity_check_exact_iff (v : VideoLayout) (currentSize sw sh : ℤ) (isPortrait : Bool) :
    ((v.displaySize currentSize sw sh isPortrait ≠ none →
        ∀ d ∈ divisors v currentSize sw sh isPortrait, d ≠ .num 0) ∧
      (v.displaySize currentSize sw sh isPortrait = none →
        sw = 0 ∨ sh = 0 ∨ v.videoWidth = 0 ∨ v.mVideoHeight = 0)) ↔
    (sw = 0 ∨ sh = 0 ∨ v.videoWidth = 0 ∨ v.mVideoHeight = 0) ∨
      ¬2^32 ∣ v.videoWidth*v.mVideoHeight ∧ v.videoVisibleWidth ≠ 0 ∧ v.videoVisibleHeight ≠ 0 ∧
        (v.sarDen ≠ v.sarNum → v.sarDen ≠ 0) ∧
        (v.sarDen ≠ v.sarNum ∧ v.sarNum = 0 → currentSize ≠ PLAYER_FIT_HORIZONTAL ∧
          (currentSize = PLAYER_BEST_FIT → 0 ≤ sw*sh)) := by
  have hnone : v.displaySize currentSize sw sh isPortrait = none ↔ v.rejected sw sh := by
    rw [VideoLayout.displaySize_def]
    rw [← rejected_iff v sw sh isPortrait]
    split <;> simp_all
  by_cases hflat : sw = 0 ∨ sh = 0 ∨ v.videoWidth = 0 ∨ v.mVideoHeight = 0
  · -- a flat event is rejected, and rightly
    have hrejected : v.rejected sw sh := by
      unfold VideoLayout.rejected
      rcases hflat with h | h | h | h <;> simp [h]
    simp [hnone,hrejected,hflat]
  by_cases hwrap : 2^32 ∣ v.videoWidth*v.mVideoHeight
  · -- the product wraps to zero although nothing is flat
    have hrejected : v.rejected sw sh := .inr (.inr hwrap)
    simp only [hnone,hrejected,hflat,hwrap]
    simp
  · have haccepted : ¬v.rejected sw sh := by
      unfold VideoLayout.rejected
      tauto
    simp only [ne_eq,hnone,haccepted,hflat,hwrap,not_false_eq_true,true_implies,false_implies,
      and_true,false_or,true_and]
    exact divisors_ne_zero haccepted currentSize isPortrait

/-- A coded size of 65536 by 65536 wraps to zero; a visible height of zero is let through. -/
theorem sanity_check_inexact :
    VideoLayout.displaySize ⟨65536,65536,65536,65536,1,1⟩ PLAYER_BEST_FIT 1080 1920 true = none ∧
    VideoLayout.displaySize ⟨1920,1080,1920,0,1,1⟩ PLAYER_FILL 1080 1920 true ≠ none ∧
    Double.num 0 ∈ divisors ⟨1920,1080,1920,0,1,1⟩ PLAYER_FILL 1080 1920 true := by
  decide +kernel

end ZenMedia
