import ZenMedia.DisplayMode
import ZenMedia.PictureSize

/-! The view sizes of the two player generations compared. The first takes the
visible size and the sample aspect ratio into account and rounds up, the second
takes the coded size alone and truncates. -/
namespace ZenMedia

/-- The view is handed the coded size; it is left alone when it is none of ours. -/
def ZMediaPlayer2.changePlayerLayout (layout : VideoLayout) (playerView : Option PlayerTextureView) :
    Option PlayerTextureView :=
  playerView.map fun view => view.setVideoSize layout.videoWidth layout.mVideoHeight

/-- The constant of the first generation for a mode of the second. -/
def ZDisplayMode.currentSize : ZDisplayMode → ℤ
  | BEST_FIT => ZenMedia.PLAYER_BEST_FIT
  | PLAYER_FIT_HORIZONTAL => ZenMedia.PLAYER_FIT_HORIZONTAL
  | PLAYER_FIT_VERTICAL => ZenMedia.PLAYER_FIT_VERTICAL
  | PLAYER_FILL => ZenMedia.PLAYER_FILL

/-! ### Rounding up against truncating -/

/-- A side of `size/parts` pixels is truncated by one generation, while the other stretches it
by `coded/visible` first and rounds up. The stretch adds no more than what is missing to the
next whole pixel, or takes away less than two pixels and the part that is truncated; sides at
the largest `int` are cut alike. -/
structure StretchFits (size parts coded visible : ℤ) : Prop where
  grown : size*(coded-visible) ≤ (parts-size%parts)*visible ∨ 2147483646*parts ≤ size
  shrunk : size*(visible-coded) < (2*parts+size%parts)*visible ∨
    2147483645*(parts*visible) < size*coded

lemma ceil_of_nonneg {x : ℚ} (hx : 0 ≤ x) : (Double.num x).ceil = min 2147483647 ⌈x⌉ := by
  have hceil : 0 ≤ ⌈x⌉ := Int.ceil_nonneg hx
  change max (-2147483648) (min 2147483647 ⌈x⌉) = _
  omega

lemma stretchFits_iff {size parts coded visible : ℤ} (hsize : 0 ≤ size) (hparts : 0 < parts)
    (hcoded : 0 < coded) (hvisible : 0 < visible) {x y : ℚ} (hx : x = size*coded/(parts*visible))
    (hy : y = size/parts) :
    |(Double.num x).ceil - toInt y| ≤ 1 ↔ StretchFits size parts coded visible := by
  have hpv : (0 : ℚ) < parts*visible := by exact_mod_cast mul_pos hparts hvisible
  have hparts' : (0 : ℚ) < parts := by exact_mod_cast hparts
  have hx0 : 0 ≤ x := by
    rw [hx]
    have : (0 : ℚ) ≤ size*coded := by exact_mod_cast mul_nonneg hsize hcoded.le
    positivity
  have hy0 : 0 ≤ y := by
    rw [hy]
    have : (0 : ℚ) ≤ size := by exact_mod_cast hsize
    positivity
  have hfloor : ⌊y⌋ = size/parts := by
    rw [hy,Int.floor_div_cast_of_nonneg hparts.le,Int.floor_intCast]
  have hwhole : parts*⌊y⌋ = size-size%parts := by
    rw [hfloor]
    linarith [Int.mul_ediv_add_emod size parts]
  have hgrown : ⌈x⌉ ≤ ⌊y⌋+1 ↔ size*(coded-visible) ≤ (parts-size%parts)*visible := by
    have hmul : (⌊y⌋+1)*(parts*visible) = (size-size%parts+parts)*visible := by
      rw [← hwhole]
      ring
    rw [Int.ceil_le,hx,div_le_iff₀ hpv]
    have hcast : ((size*coded : ℤ) : ℚ) ≤ (((⌊y⌋+1)*(parts*visible) : ℤ) : ℚ) ↔ _ := Int.cast_le
    push_cast at hcast ⊢
    rw [hcast,hmul]
    constructor <;> intro h <;> linarith
  have hshrunk : ⌊y⌋-2 < ⌈x⌉ ↔ size*(visible-coded) < (2*parts+size%parts)*visible := by
    have hmul : (⌊y⌋-2)*(parts*visible) = (size-size%parts-2*parts)*visible := by
      rw [← hwhole]
      ring
    rw [Int.lt_ceil,hx,lt_div_iff₀ hpv]
    have hcast : (((⌊y⌋-2)*(parts*visible) : ℤ) : ℚ) < ((size*coded : ℤ) : ℚ) ↔ _ := Int.cast_lt
    push_cast at hcast ⊢
    rw [hcast,hmul]
    constructor <;> intro h <;> linarith
  have hytop : 2147483646 ≤ ⌊y⌋ ↔ 2147483646*parts ≤ size := by
    rw [Int.le_floor,hy,le_div_iff₀ hparts']
    exact_mod_cast Iff.rfl
  have hxtop : 2147483645 < ⌈x⌉ ↔ 2147483645*(parts*visible) < size*coded := by
    rw [Int.lt_ceil,hx,lt_div_iff₀ hpv]
    exact_mod_cast Iff.rfl
  have hcut : |min 2147483647 ⌈x⌉-min 2147483647 ⌊y⌋| ≤ 1 ↔
      (⌈x⌉ ≤ ⌊y⌋+1 ∨ 2147483646 ≤ ⌊y⌋) ∧ (⌊y⌋-2 < ⌈x⌉ ∨ 2147483645 < ⌈x⌉) := by
    rw [abs_le]
    omega
  rw [ceil_of_nonneg hx0,toInt_of_nonneg hy0,hcut,hgrown,hshrunk,hytop,hxtop]
  exact ⟨fun h => ⟨h.1,h.2⟩,fun h => ⟨h.1,h.2⟩⟩

lemma StretchFits.of_eq {size parts visible : ℤ} (hparts : 0 < parts) (hvisible : 0 < visible) : StretchFits size parts visible visible := by
  have hlow : 0 ≤ size%parts := Int.emod_nonneg size hparts.ne'
  have hhigh : size%parts < parts := Int.emod_lt_of_pos size hparts
  constructor
  · refine .inl ?_
    rw [sub_self,mul_zero]
    exact mul_nonneg (by omega) hvisible.le
  · refine .inl ?_
    rw [sub_self,mul_zero]
    exact mul_pos (by omega) hvisible

namespace VideoLayout
variable (v : VideoLayout) (sw sh : ℤ)

/-- Both pictures get the width of the container. -/
def AlikeByWidth : Prop :=
  StretchFits sw 1 v.videoWidth v.videoVisibleWidth ∧
    StretchFits (sw*v.mVideoHeight) v.videoWidth (v.videoWidth*v.sarDen) (v.videoVisibleWidth*v.sarNum)

/-- Both pictures get its height. -/
def AlikeByHeight : Prop :=
  StretchFits (sh*v.videoWidth) v.mVideoHeight (v.mVideoHeight*v.sarNum)
      (v.videoVisibleHeight*v.sarDen) ∧
    StretchFits sh 1 v.mVideoHeight v.videoVisibleHeight

/-- The visible picture gets the width, the coded one the height. -/
def AlikeWidthByHeight : Prop :=
  StretchFits (sh*v.videoWidth) v.mVideoHeight (sw*v.mVideoHeight) (sh*v.videoVisibleWidth) ∧
    StretchFits sh 1 (sw*(v.mVideoHeight*v.sarDen)) (sh*(v.videoVisibleWidth*v.sarNum))

/-- The visible picture gets the height, the coded one the width. -/
def AlikeHeightByWidth : Prop :=
  StretchFits sw 1 (sh*(v.videoWidth*v.sarNum)) (sw*(v.videoVisibleHeight*v.sarDen)) ∧
    StretchFits (sw*v.mVideoHeight) v.videoWidth (sh*v.videoWidth) (sw*v.videoVisibleHeight)

/-- Cropping and the sample aspect ratio are too small to show in a container of `sw` by `sh`. -/
def Alike : ZDisplayMode → Prop
  | .BEST_FIT =>
    if sw*(v.videoVisibleHeight*v.sarDen) < sh*(v.videoVisibleWidth*v.sarNum) then
      if sw*v.mVideoHeight < sh*v.videoWidth then v.AlikeByWidth sw else v.AlikeWidthByHeight sw sh
    else
      if sw*v.mVideoHeight < sh*v.videoWidth then v.AlikeHeightByWidth sw sh else v.AlikeByHeight sh
  | .PLAYER_FIT_HORIZONTAL => v.AlikeByWidth sw
  | .PLAYER_FIT_VERTICAL => v.AlikeByHeight sh
  | .PLAYER_FILL =>
    StretchFits sw 1 v.videoWidth v.videoVisibleWidth ∧
      StretchFits sh 1 v.mVideoHeight v.videoVisibleHeight

end VideoLayout

/-! ### The sizes before rounding -/

namespace ZDisplayMode

/-- The view of the first generation: the width or the height of the container, and the
other side by the shape of the visible picture. -/
def scaledVisible (mode : ZDisplayMode) (v : VideoLayout) (sw sh : ℚ) : ℚ × ℚ :=
  let horizontal := (sw*v.videoWidth/v.videoVisibleWidth,
    sw*v.mVideoHeight*v.sarDen/(v.videoVisibleWidth*v.sarNum))
  let vertical := (sh*v.videoWidth*v.sarNum/(v.videoVisibleHeight*v.sarDen),
    sh*v.mVideoHeight/v.videoVisibleHeight)
  match mode with
  | BEST_FIT =>
    if sw*(v.videoVisibleHeight*v.sarDen) < sh*(v.videoVisibleWidth*v.sarNum) then horizontal
    else vertical
  | PLAYER_FIT_HORIZONTAL => horizontal
  | PLAYER_FIT_VERTICAL => vertical
  | PLAYER_FILL => (sw*v.videoWidth/v.videoVisibleWidth,sh*v.mVideoHeight/v.videoVisibleHeight)

/-- The view of the second generation: the same by the shape of the coded picture. -/
def scaledCoded (mode : ZDisplayMode) (v : VideoLayout) (sw sh : ℚ) : ℚ × ℚ :=
  let horizontal := (sw,sw*v.mVideoHeight/v.videoWidth)
  let vertical := (sh*v.videoWidth/v.mVideoHeight,sh)
  match mode with
  | BEST_FIT => if sw*v.mVideoHeight < sh*v.videoWidth then horizontal else vertical
  | PLAYER_FIT_HORIZONTAL => horizontal
  | PLAYER_FIT_VERTICAL => vertical
  | PLAYER_FILL => (sw,sh)

end ZDisplayMode

namespace VideoLayout.Positive
variable {v : VideoLayout} (hv : v.Positive)
include hv

lemma codedWidth_pos : (0 : ℚ) < v.videoWidth := by exact_mod_cast hv.videoWidth

lemma codedHeight_pos : (0 : ℚ) < v.mVideoHeight := by exact_mod_cast hv.mVideoHeight

lemma viewSize_num (dw dh : ℚ) : v.viewSize (.num dw,.num dh) =
    ((Double.num (dw*v.videoWidth/v.videoVisibleWidth)).ceil,
      (Double.num (dh*v.mVideoHeight/v.videoVisibleHeight)).ceil) := by
  unfold viewSize
  simp only [Double.ofInt_eq,Double.num_mul_num]
  rw [Double.num_div_num _ hv.visibleWidth_pos.ne',Double.num_div_num _ hv.visibleHeight_pos.ne']

/-- The width of the container, and the height by the shape of the picture. -/
lemma horizontal_scaled (sw : ℚ) :
    (sw*v.videoWidth/v.videoVisibleWidth,sw/v.ratio*v.mVideoHeight/v.videoVisibleHeight) =
      (sw*v.videoWidth/v.videoVisibleWidth,
        sw*v.mVideoHeight*v.sarDen/(v.videoVisibleWidth*v.sarNum)) := by
  have := hv.visibleWidth_pos
  have := hv.visibleHeight_pos
  have := hv.sarNum_pos
  have := hv.sarDen_pos
  unfold ratio
  rw [Prod.mk.injEq]
  exact ⟨rfl,by field_simp⟩

lemma vertical_scaled (sh : ℚ) :
    (sh*v.ratio*v.videoWidth/v.videoVisibleWidth,sh*v.mVideoHeight/v.videoVisibleHeight) =
      (sh*v.videoWidth*v.sarNum/(v.videoVisibleHeight*v.sarDen),
        sh*v.mVideoHeight/v.videoVisibleHeight) := by
  have := hv.visibleWidth_pos
  have := hv.visibleHeight_pos
  have := hv.sarNum_pos
  have := hv.sarDen_pos
  unfold ratio
  rw [Prod.mk.injEq]
  exact ⟨by field_simp,rfl⟩

lemma fitted_iff {sw sh : ℚ} (hh : 0 < sh) : sw/sh < v.ratio ↔
    sw*(v.videoVisibleHeight*v.sarDen) < sh*(v.videoVisibleWidth*v.sarNum) := by
  have := hv.visibleHeight_pos
  have := hv.sarDen_pos
  unfold ratio
  rw [div_lt_div_iff₀ hh (by positivity),mul_comm sh]

/-- The picture of a shared mode, blown up to the coded size. -/
lemma picture_scaled (mode : ZDisplayMode) (sw : ℚ) {sh : ℚ} (hh : 0 < sh) :
    ((v.picture mode.currentSize sw sh).1*v.videoWidth/v.videoVisibleWidth,
      (v.picture mode.currentSize sw sh).2*v.mVideoHeight/v.videoVisibleHeight) =
      mode.scaledVisible v sw sh := by
  cases mode with
  | BEST_FIT =>
    change ((fitted v.ratio sw sh).1*v.videoWidth/v.videoVisibleWidth,
      (fitted v.ratio sw sh).2*v.mVideoHeight/v.videoVisibleHeight) = _
    unfold fitted ZDisplayMode.scaledVisible
    by_cases hlt : sw/sh < v.ratio
    · simp only [if_pos hlt,if_pos ((hv.fitted_iff hh).mp hlt)]
      exact hv.horizontal_scaled sw
    · simp only [if_neg hlt,if_neg (mt (hv.fitted_iff hh).mpr hlt)]
      exact hv.vertical_scaled sh
  | PLAYER_FIT_HORIZONTAL => exact hv.horizontal_scaled sw
  | PLAYER_FIT_VERTICAL => exact hv.vertical_scaled sh
  | PLAYER_FILL => rfl

/-- What the first generation assigns to `lp.width` and `lp.height`. -/
lemma assigned_eq (mode : ZDisplayMode) {sw sh : ℤ} (hw : 0 < sw) (hh : 0 < sh) {isPortrait : Bool}
    (hswap : swapped sw sh isPortrait = false) :
    (v.displaySize mode.currentSize sw sh isPortrait).map v.viewSize =
      some ((Double.num (mode.scaledVisible v sw sh).1).ceil,
        (Double.num (mode.scaledVisible v sw sh).2).ceil) := by
  have hh' : (0 : ℚ) < sh := by exact_mod_cast hh
  have hwidth : workingWidth sw sh isPortrait = sw := by simp [workingWidth,hswap]
  have hheight : workingHeight sw sh isPortrait = sh := by simp [workingHeight,hswap]
  rw [hv.displaySize_eq mode.currentSize hw hh isPortrait,hwidth,hheight,Option.map_some,
    hv.viewSize_num,← hv.picture_scaled mode sw hh']

/-- What the second generation measures. -/
lemma measured_eq (mode : ZDisplayMode) (widthMeasureSpec heightMeasureSpec : MeasureSpec) :
    mode.measure widthMeasureSpec heightMeasureSpec v.videoWidth v.mVideoHeight =
      (toInt (mode.scaledCoded v widthMeasureSpec.size heightMeasureSpec.size).1,
        toInt (mode.scaledCoded v widthMeasureSpec.size heightMeasureSpec.size).2) := by
  have hwhole : ∀ spec : MeasureSpec, toInt (spec.size : ℚ) = spec.size := by
    intro spec
    have hsize : (0 : ℚ) ≤ spec.size := by exact_mod_cast spec.nonneg
    have hmax := spec.lt
    rw [toInt_of_nonneg hsize,Int.floor_intCast]
    omega
  have hheight : ∀ a : ℚ, a/v.videoWidth*v.mVideoHeight = a*v.mVideoHeight/v.videoWidth :=
    fun a => div_mul_eq_mul_div a _ _
  have hwidth : ∀ b : ℚ, b/v.mVideoHeight*v.videoWidth = b*v.videoWidth/v.mVideoHeight :=
    fun b => div_mul_eq_mul_div b _ _
  have hvw := hv.videoWidth
  have hvh := hv.mVideoHeight
  rw [ZDisplayMode.measure,if_neg (by omega)]
  cases mode with
  | BEST_FIT =>
    unfold ZDisplayMode.measureVideo ZDisplayMode.scaledCoded
    simp only [div_lt_div_iff₀ hv.codedWidth_pos hv.codedHeight_pos,hheight,hwidth]
    split <;> simp only [hwhole]
  | PLAYER_FIT_HORIZONTAL => simp only [ZDisplayMode.measureVideo,ZDisplayMode.scaledCoded,hheight,hwhole]
  | PLAYER_FIT_VERTICAL => simp only [ZDisplayMode.measureVideo,ZDisplayMode.scaledCoded,hwidth,hwhole]
  | PLAYER_FILL => simp only [ZDisplayMode.measureVideo,ZDisplayMode.scaledCoded,hwhole]

/-- Without cropping and with square pixels nothing shows, in whatever container. -/
lemma alike_of_uncropped (hwidth : v.videoVisibleWidth = v.videoWidth)
    (hheight : v.videoVisibleHeight = v.mVideoHeight) (hsquare : v.sarNum = v.sarDen)
    (mode : ZDisplayMode) (sw sh : ℤ) : v.Alike sw sh mode := by
  have hvw := hv.videoWidth
  have hvh := hv.mVideoHeight
  have hden := hv.sarDen
  have hbyWidth : v.AlikeByWidth sw := by
    unfold VideoLayout.AlikeByWidth
    rw [hwidth,hsquare]
    exact ⟨.of_eq one_pos hvw,.of_eq hvw (mul_pos hvw hden)⟩
  have hbyHeight : v.AlikeByHeight sh := by
    unfold VideoLayout.AlikeByHeight
    rw [hheight,hsquare]
    exact ⟨.of_eq hvh (mul_pos hvh hden),.of_eq one_pos hvh⟩
  cases mode with
  | BEST_FIT =>
    have hless : sw*(v.videoVisibleHeight*v.sarDen) < sh*(v.videoVisibleWidth*v.sarNum) ↔
        sw*v.mVideoHeight < sh*v.videoWidth := by
      rw [hwidth,hheight,hsquare,← mul_assoc,← mul_assoc,mul_lt_mul_iff_left₀ hden]
    unfold VideoLayout.Alike
    by_cases hlt : sw*v.mVideoHeight < sh*v.videoWidth
    · simp only [if_pos hlt,if_pos (hless.mpr hlt)]
      exact hbyWidth
    · simp only [if_neg hlt,if_neg (mt hless.mp hlt)]
      exact hbyHeight
  | PLAYER_FIT_HORIZONTAL => exact hbyWidth
  | PLAYER_FIT_VERTICAL => exact hbyHeight
  | PLAYER_FILL =>
    change StretchFits sw 1 v.videoWidth v.videoVisibleWidth ∧
      StretchFits sh 1 v.mVideoHeight v.videoVisibleHeight
    rw [hwidth,hheight]
    exact ⟨.of_eq one_pos hvw,.of_eq one_pos hvh⟩

/-- The two sizes of a side, rounded, differ by at most a pixel. -/
lemma fullWidth_iff {sw : ℤ} (hw : 0 < sw) :
    |(Double.num (sw*v.videoWidth/v.videoVisibleWidth)).ceil - toInt sw| ≤ 1 ↔
      StretchFits sw 1 v.videoWidth v.videoVisibleWidth := by
  refine stretchFits_iff hw.le one_pos hv.videoWidth hv.videoVisibleWidth ?_ ?_
  · push_cast
    rw [one_mul]
  · push_cast
    rw [div_one]

lemma fullHeight_iff {sh : ℤ} (hh : 0 < sh) :
    |(Double.num (sh*v.mVideoHeight/v.videoVisibleHeight)).ceil - toInt sh| ≤ 1 ↔
      StretchFits sh 1 v.mVideoHeight v.videoVisibleHeight := by
  refine stretchFits_iff hh.le one_pos hv.mVideoHeight hv.videoVisibleHeight ?_ ?_
  · push_cast
    rw [one_mul]
  · push_cast
    rw [div_one]

/-- Rounded, the sizes differ by at most a pixel just when cropping and the sample aspect ratio
do not show. -/
lemma scaled_alike_iff (mode : ZDisplayMode) {sw sh : ℤ} (hw : 0 < sw) (hh : 0 < sh) :
    |(Double.num (mode.scaledVisible v sw sh).1).ceil - toInt (mode.scaledCoded v sw sh).1| ≤ 1 ∧
      |(Double.num (mode.scaledVisible v sw sh).2).ceil - toInt (mode.scaledCoded v sw sh).2| ≤ 1 ↔
    v.Alike sw sh mode := by
  have hvw := hv.videoWidth
  have hvh := hv.mVideoHeight
  have hcw := hv.videoVisibleWidth
  have hch := hv.videoVisibleHeight
  have hnum := hv.sarNum
  have hden := hv.sarDen
  have hvw' := hv.codedWidth_pos
  have hvh' := hv.codedHeight_pos
  have hcw' := hv.visibleWidth_pos
  have hch' := hv.visibleHeight_pos
  have hnum' := hv.sarNum_pos
  have hden' := hv.sarDen_pos
  have hw' : (0 : ℚ) < sw := by exact_mod_cast hw
  have hh' : (0 : ℚ) < sh := by exact_mod_cast hh
  have hbyWidth : _ ↔ v.AlikeByWidth sw := and_congr (hv.fullWidth_iff hw)
    (stretchFits_iff (x := sw*v.mVideoHeight*v.sarDen/(v.videoVisibleWidth*v.sarNum))
      (y := sw*v.mVideoHeight/v.videoWidth) (by positivity) hvw (by positivity) (by positivity)
      (by push_cast; field_simp) (by push_cast; rfl))
  have hbyHeight : _ ↔ v.AlikeByHeight sh := and_congr
    (stretchFits_iff (x := sh*v.videoWidth*v.sarNum/(v.videoVisibleHeight*v.sarDen))
      (y := sh*v.videoWidth/v.mVideoHeight) (by positivity) hvh (by positivity) (by positivity)
      (by push_cast; field_simp) (by push_cast; rfl)) (hv.fullHeight_iff hh)
  cases mode with
  | BEST_FIT =>
    unfold VideoLayout.Alike ZDisplayMode.scaledVisible ZDisplayMode.scaledCoded
    have hvisible : (sw*(v.videoVisibleHeight*v.sarDen) : ℚ) < sh*(v.videoVisibleWidth*v.sarNum) ↔
        sw*(v.videoVisibleHeight*v.sarDen) < sh*(v.videoVisibleWidth*v.sarNum) := by exact_mod_cast Iff.rfl
    have hcoded : (sw*v.mVideoHeight : ℚ) < sh*v.videoWidth ↔ sw*v.mVideoHeight < sh*v.videoWidth := by
      exact_mod_cast Iff.rfl
    simp only [hvisible,hcoded]
    split
    · split
      · exact hbyWidth
      · refine and_congr (stretchFits_iff (by positivity) hvh (by positivity) (by positivity) ?_ ?_)
          (stretchFits_iff hh.le one_pos (by positivity) (by positivity) ?_ ?_)
        all_goals push_cast; field_simp
    · split
      · refine and_congr (stretchFits_iff hw.le one_pos (by positivity) (by positivity) ?_ ?_)
          (stretchFits_iff (by positivity) hvw (by positivity) (by positivity) ?_ ?_)
        all_goals push_cast; field_simp
      · exact hbyHeight
  | PLAYER_FIT_HORIZONTAL => exact hbyWidth
  | PLAYER_FIT_VERTICAL => exact hbyHeight
  | PLAYER_FILL => exact and_congr (hv.fullWidth_iff hw) (hv.fullHeight_iff hh)

end VideoLayout.Positive

theorem layouts_agree_iff (v : VideoLayout) (mode : ZDisplayMode)
    (widthMeasureSpec heightMeasureSpec : MeasureSpec) (isPortrait : Bool) (hv : v.Positive)
    (hw : 0 < widthMeasureSpec.size) (hh : 0 < heightMeasureSpec.size)
    (hswap : swapped widthMeasureSpec.size heightMeasureSpec.size isPortrait = false) :
    ∃ assigned measured : ℤ × ℤ,
      (v.displaySize mode.currentSize widthMeasureSpec.size heightMeasureSpec.size isPortrait).map
        v.viewSize = some assigned ∧
      (ZMediaPlayer2.changePlayerLayout v (some { displayMode := mode })).map
        (fun view => view.onMeasure widthMeasureSpec heightMeasureSpec) = some measured ∧
      (|assigned.1 - measured.1| ≤ 1 ∧ |assigned.2 - measured.2| ≤ 1 ↔
        v.Alike widthMeasureSpec.size heightMeasureSpec.size mode) :=
  ⟨_,_,hv.assigned_eq mode hw hh hswap,
    congrArg some (hv.measured_eq mode widthMeasureSpec heightMeasureSpec),
    hv.scaled_alike_iff mode hw hh⟩

/-- A film with eight cropped lines on a screen of its visible size: 1920 by 1088 against 1905
by 1080. -/
theorem layouts_differ :
    (VideoLayout.displaySize ⟨1920,1088,1920,1080,1,1⟩ PLAYER_BEST_FIT 1920 1080 false).map
        (VideoLayout.viewSize ⟨1920,1088,1920,1080,1,1⟩) = some (1920,1088) ∧
      (ZMediaPlayer2.changePlayerLayout ⟨1920,1088,1920,1080,1,1⟩ (some {})).map
        (fun view => view.onMeasure ⟨.exactly,1920,by norm_num,by norm_num⟩
          ⟨.exactly,1080,by norm_num,by norm_num⟩) = some (1905,1080) ∧
      ¬|(1920 : ℤ) - 1905| ≤ 1 := by
  refine ⟨by decide +kernel,by decide +kernel,by decide⟩

/-- An uncropped film with square pixels. -/
theorem layouts_agree_uncropped :
    let film : VideoLayout := ⟨1920,1080,1920,1080,1,1⟩
    ∃ assigned measured : ℤ × ℤ,
      (film.displaySize PLAYER_BEST_FIT 1000 1000 false).map film.viewSize = some assigned ∧
      (ZMediaPlayer2.changePlayerLayout film (some {})).map
        (fun view => view.onMeasure ⟨.exactly,1000,by norm_num,by norm_num⟩
          ⟨.exactly,1000,by norm_num,by norm_num⟩) = some measured ∧
      |assigned.1 - measured.1| ≤ 1 ∧ |assigned.2 - measured.2| ≤ 1 := by
  have hfilm : VideoLayout.Positive ⟨1920,1080,1920,1080,1,1⟩ :=
    ⟨by decide,by decide,by decide,by decide,by decide,by decide,by decide⟩
  obtain ⟨assigned,measured,hassigned,hmeasured,hiff⟩ := layouts_agree_iff
    ⟨1920,1080,1920,1080,1,1⟩ .BEST_FIT ⟨.exactly,1000,by norm_num,by norm_num⟩
    ⟨.exactly,1000,by norm_num,by norm_num⟩ false hfilm (by decide) (by decide) (by decide)
  refine ⟨assigned,measured,hassigned,hmeasured,hiff.mpr ?_⟩
  exact hfilm.alike_of_uncropped rfl rfl rfl .BEST_FIT 1000 1000

end ZenMedia
