import Mathlib

/-! `ZDisplayMode` and `PlayerTextureView`: how the view of a second generation player
is measured. Java floats are read as exact rationals, the cast to `int` saturates. -/
namespace ZenMedia

/-- `(int) x` -/
def toInt (x : ℚ) : ℤ := max (-2147483648) (min 2147483647 (if 0 ≤ x then ⌊x⌋ else ⌈x⌉))

/-- `getMode` of a measure spec. -/
inductive SpecMode
  | unspecified
  | exactly
  | atMost
  deriving DecidableEq, Repr

/-- A measure spec: two bits of mode and thirty of size. -/
structure MeasureSpec where
  mode : SpecMode
  size : ℤ
  nonneg : 0 ≤ size
  lt : size < 2^30

inductive ZDisplayMode
  | BEST_FIT
  | PLAYER_FIT_HORIZONTAL
  | PLAYER_FIT_VERTICAL
  | PLAYER_FILL
  deriving DecidableEq, Repr

namespace ZDisplayMode

def measureDefault (widthMeasureSpec heightMeasureSpec : MeasureSpec) : ℤ × ℤ :=
  (if widthMeasureSpec.mode = .atMost ∨ widthMeasureSpec.mode = .exactly then
      widthMeasureSpec.size else 0,
    if heightMeasureSpec.mode = .atMost ∨ heightMeasureSpec.mode = .exactly then
      heightMeasureSpec.size else 0)

/-- What the four constants do behind their common check of the video size. -/
def measureVideo (mode : ZDisplayMode) (width height videoWidth videoHeight : ℤ) : ℤ × ℤ :=
  let scaleWidth : ℚ := width/videoWidth
  let scaleHeight : ℚ := height/videoHeight
  match mode with
  | BEST_FIT =>
    if scaleWidth < scaleHeight then (width,toInt (scaleWidth*videoHeight))
    else (toInt (scaleHeight*videoWidth),height)
  | PLAYER_FIT_HORIZONTAL => (width,toInt (scaleWidth*videoHeight))
  | PLAYER_FIT_VERTICAL => (toInt (scaleHeight*videoWidth),height)
  | PLAYER_FILL => (width,height)

def measure (mode : ZDisplayMode) (widthMeasureSpec heightMeasureSpec : MeasureSpec)
    (videoWidth videoHeight : ℤ) : ℤ × ℤ :=
  if videoWidth < 1 ∨ videoHeight < 1 then measureDefault widthMeasureSpec heightMeasureSpec
  else mode.measureVideo widthMeasureSpec.size heightMeasureSpec.size videoWidth videoHeight

end ZDisplayMode

/-- The fields of the view; the video size is unknown at first. -/
structure PlayerTextureView where
  displayMode : ZDisplayMode := .BEST_FIT
  videoWith : ℤ := -1
  videoHeight : ℤ := -1
  deriving DecidableEq, Repr

namespace PlayerTextureView

def setDisplayMode (view : PlayerTextureView) (displayMode : ZDisplayMode) : PlayerTextureView :=
  { view with displayMode := displayMode }

def setVideoSize (view : PlayerTextureView) (width height : ℤ) : PlayerTextureView :=
  { view with videoWith := width, videoHeight := height }

/-- The dimensions handed to `setMeasuredDimension`. -/
def onMeasure (view : PlayerTextureView) (widthMeasureSpec heightMeasureSpec : MeasureSpec) : ℤ × ℤ :=
  view.displayMode.measure widthMeasureSpec heightMeasureSpec view.videoWith view.videoHeight

end PlayerTextureView

/-! ### The best fit among the other modes -/

lemma toInt_of_nonneg {x : ℚ} (hx : 0 ≤ x) : toInt x = min 2147483647 ⌊x⌋ := by
  have hfloor : 0 ≤ ⌊x⌋ := Int.floor_nonneg.mpr hx
  rw [toInt,if_pos hx]
  omega

/-- Below a bound of the type the cast is the floor. -/
lemma toInt_eq_floor {x : ℚ} {n : ℤ} (hx : 0 ≤ x) (hn : x ≤ n) (hmax : n < 2^30) :
    toInt x = ⌊x⌋ := by
  have hfloor : ⌊x⌋ ≤ n := by exact_mod_cast (Int.floor_le x).trans hn
  rw [toInt_of_nonneg hx]
  omega

lemma le_toInt {x : ℚ} {n : ℤ} (hx : 0 ≤ x) (hn : n ≤ x) (hmax : n < 2^30) : n ≤ toInt x := by
  have hfloor : n ≤ ⌊x⌋ := Int.le_floor.mpr hn
  rw [toInt_of_nonneg hx]
  omega

/-- A box of `width` by `height` for a video of `videoWidth` by `videoHeight`. -/
structure Box (width height videoWidth videoHeight : ℤ) : Prop where
  width_nonneg : 0 ≤ width
  width_lt : width < 2^30
  height_nonneg : 0 ≤ height
  height_lt : height < 2^30
  videoWidth_pos : 1 ≤ videoWidth
  videoHeight_pos : 1 ≤ videoHeight

namespace Box
variable {width height videoWidth videoHeight : ℤ} (h : Box width height videoWidth videoHeight)
include h

lemma videoWidth_pos' : (0 : ℚ) < videoWidth := by
  have := h.videoWidth_pos
  exact_mod_cast this

lemma videoHeight_pos' : (0 : ℚ) < videoHeight := by
  have := h.videoHeight_pos
  exact_mod_cast this

lemma scaledHeight_nonneg : (0 : ℚ) ≤ (width/videoWidth : ℚ)*videoHeight := by
  have hw : (0 : ℚ) ≤ width := by exact_mod_cast h.width_nonneg
  have := h.videoWidth_pos'
  have := h.videoHeight_pos'
  positivity

lemma scaledWidth_nonneg : (0 : ℚ) ≤ (height/videoHeight : ℚ)*videoWidth := by
  have hh : (0 : ℚ) ≤ height := by exact_mod_cast h.height_nonneg
  have := h.videoWidth_pos'
  have := h.videoHeight_pos'
  positivity

/-- The picture as wide as the box is lower than the box when the width has the smaller scale. -/
lemma scale_lt_iff : (width/videoWidth : ℚ) < height/videoHeight ↔
    (width/videoWidth : ℚ)*videoHeight < height := by
  rw [lt_div_iff₀ h.videoHeight_pos']

lemma scale_lt_iff' : (width/videoWidth : ℚ) < height/videoHeight ↔
    width < (height/videoHeight : ℚ)*videoWidth := by
  rw [div_lt_iff₀ h.videoWidth_pos']

/-- The best fit is as wide as the box, or else as high. -/
lemma bestFit_cases :
    (ZDisplayMode.measureVideo .BEST_FIT width height videoWidth videoHeight =
        (width,⌊(width/videoWidth : ℚ)*videoHeight⌋) ∧
      (width/videoWidth : ℚ)*videoHeight < height ∧ width < (height/videoHeight : ℚ)*videoWidth) ∨
    (ZDisplayMode.measureVideo .BEST_FIT width height videoWidth videoHeight =
        (⌊(height/videoHeight : ℚ)*videoWidth⌋,height) ∧
      height ≤ (width/videoWidth : ℚ)*videoHeight ∧ (height/videoHeight : ℚ)*videoWidth ≤ width) := by
  by_cases hlt : (width/videoWidth : ℚ) < height/videoHeight
  · have hheight := h.scale_lt_iff.mp hlt
    refine .inl ⟨?_,hheight,h.scale_lt_iff'.mp hlt⟩
    simp only [ZDisplayMode.measureVideo,if_pos hlt]
    rw [toInt_eq_floor h.scaledHeight_nonneg hheight.le h.height_lt]
  · have hwidth := not_lt.mp (mt h.scale_lt_iff'.mpr hlt)
    refine .inr ⟨?_,not_lt.mp (mt h.scale_lt_iff.mpr hlt),hwidth⟩
    simp only [ZDisplayMode.measureVideo,if_neg hlt]
    rw [toInt_eq_floor h.scaledWidth_nonneg hwidth h.width_lt]

lemma bestFit_eq_min :
    ZDisplayMode.measureVideo .BEST_FIT width height videoWidth videoHeight =
      (min (ZDisplayMode.measureVideo .PLAYER_FIT_HORIZONTAL width height videoWidth videoHeight).1
        (ZDisplayMode.measureVideo .PLAYER_FIT_VERTICAL width height videoWidth videoHeight).1,
      min (ZDisplayMode.measureVideo .PLAYER_FIT_HORIZONTAL width height videoWidth videoHeight).2
        (ZDisplayMode.measureVideo .PLAYER_FIT_VERTICAL width height videoWidth videoHeight).2) := by
  rcases h.bestFit_cases with ⟨hbest,hheight,hwidth⟩ | ⟨hbest,hheight,hwidth⟩
  · have hfloor := toInt_eq_floor h.scaledHeight_nonneg hheight.le h.height_lt
    have hle : ⌊(width/videoWidth : ℚ)*videoHeight⌋ ≤ height := by
      exact_mod_cast (Int.floor_le _).trans hheight.le
    have hge := le_toInt h.scaledWidth_nonneg hwidth.le h.width_lt
    rw [hbest]
    simp only [ZDisplayMode.measureVideo,hfloor,min_eq_left hle,min_eq_left hge]
  · have hfloor := toInt_eq_floor h.scaledWidth_nonneg hwidth h.width_lt
    have hle : ⌊(height/videoHeight : ℚ)*videoWidth⌋ ≤ width := by
      exact_mod_cast (Int.floor_le _).trans hwidth
    have hge := le_toInt h.scaledHeight_nonneg hheight h.height_lt
    rw [hbest]
    simp only [ZDisplayMode.measureVideo,hfloor,min_eq_right hle,min_eq_right hge]

/-- The best fit is inside the box and touches it. -/
lemma bestFit_inside :
    let best := ZDisplayMode.measureVideo .BEST_FIT width height videoWidth videoHeight
    best.1 ≤ width ∧ best.2 ≤ height ∧ (best.1 = width ∨ best.2 = height) := by
  rcases h.bestFit_cases with ⟨hbest,hheight,-⟩ | ⟨hbest,-,hwidth⟩
  · rw [hbest]
    exact ⟨le_rfl,by exact_mod_cast (Int.floor_le _).trans hheight.le,.inl rfl⟩
  · rw [hbest]
    exact ⟨by exact_mod_cast (Int.floor_le _).trans hwidth,le_rfl,.inr rfl⟩

/-- One side is the box's, the other its proportion in whole pixels. -/
lemma bestFit_undistorted :
    let best := ZDisplayMode.measureVideo .BEST_FIT width height videoWidth videoHeight
    (best.1 = width ∧ best.2*videoWidth ≤ width*videoHeight ∧
        width*videoHeight < (best.2+1)*videoWidth) ∨
      (best.2 = height ∧ best.1*videoHeight ≤ height*videoWidth ∧
        height*videoWidth < (best.1+1)*videoHeight) := by
  have hvw := h.videoWidth_pos'
  have hvh := h.videoHeight_pos'
  rcases h.bestFit_cases with ⟨hbest,-,-⟩ | ⟨hbest,-,-⟩
  · rw [hbest,div_mul_eq_mul_div]
    have hle := Int.floor_le ((width : ℚ)*videoHeight/videoWidth)
    have hlt := Int.lt_floor_add_one ((width : ℚ)*videoHeight/videoWidth)
    rw [le_div_iff₀ hvw] at hle
    rw [div_lt_iff₀ hvw] at hlt
    exact .inl ⟨rfl,by exact_mod_cast hle,by exact_mod_cast hlt⟩
  · rw [hbest,div_mul_eq_mul_div]
    have hle := Int.floor_le ((height : ℚ)*videoWidth/videoHeight)
    have hlt := Int.lt_floor_add_one ((height : ℚ)*videoWidth/videoHeight)
    rw [le_div_iff₀ hvh] at hle
    rw [div_lt_iff₀ hvh] at hlt
    exact .inr ⟨rfl,by exact_mod_cast hle,by exact_mod_cast hlt⟩

/-- No rectangle of whole pixels with the shape of the video is larger. -/
lemma bestFit_largest {a b : ℤ} (ha : a ≤ width) (hb : b ≤ height)
    (hshape : a*videoHeight = b*videoWidth) :
    let best := ZDisplayMode.measureVideo .BEST_FIT width height videoWidth videoHeight
    a ≤ best.1 ∧ b ≤ best.2 := by
  have hvw := h.videoWidth_pos'
  have hvh := h.videoHeight_pos'
  have ha' : (a : ℚ) ≤ width := by exact_mod_cast ha
  have hb' : (b : ℚ) ≤ height := by exact_mod_cast hb
  have hshape' : (a : ℚ)*videoHeight = b*videoWidth := by exact_mod_cast hshape
  rcases h.bestFit_cases with ⟨hbest,-,-⟩ | ⟨hbest,-,-⟩
  · rw [hbest]
    refine ⟨ha,Int.le_floor.mpr ?_⟩
    calc (b : ℚ) = a*videoHeight/videoWidth := by rw [hshape',mul_div_cancel_right₀ _ hvw.ne']
      _ ≤ width*videoHeight/videoWidth := by gcongr
      _ = width/videoWidth*videoHeight := by ring
  · rw [hbest]
    refine ⟨Int.le_floor.mpr ?_,hb⟩
    calc (a : ℚ) = b*videoWidth/videoHeight := by rw [← hshape',mul_div_cancel_right₀ _ hvh.ne']
      _ ≤ height*videoWidth/videoHeight := by gcongr
      _ = height/videoHeight*videoWidth := by ring

end Box

theorem bestFit_coherent (widthMeasureSpec heightMeasureSpec : MeasureSpec)
    (videoWidth videoHeight : ℤ) (hvw : 1 ≤ videoWidth) (hvh : 1 ≤ videoHeight) :
    let measured := fun mode : ZDisplayMode =>
      mode.measure widthMeasureSpec heightMeasureSpec videoWidth videoHeight
    measured .BEST_FIT =
      (min (measured .PLAYER_FIT_HORIZONTAL).1 (measured .PLAYER_FIT_VERTICAL).1,
        min (measured .PLAYER_FIT_HORIZONTAL).2 (measured .PLAYER_FIT_VERTICAL).2) ∧
    measured .PLAYER_FILL = (widthMeasureSpec.size,heightMeasureSpec.size) ∧
    ((measured .BEST_FIT).1 ≤ (measured .PLAYER_FILL).1 ∧
      (measured .BEST_FIT).2 ≤ (measured .PLAYER_FILL).2 ∧
      ((measured .BEST_FIT).1 = (measured .PLAYER_FILL).1 ∨
        (measured .BEST_FIT).2 = (measured .PLAYER_FILL).2)) ∧
    (((measured .BEST_FIT).1 = widthMeasureSpec.size ∧
        (measured .BEST_FIT).2*videoWidth ≤ widthMeasureSpec.size*videoHeight ∧
        widthMeasureSpec.size*videoHeight < ((measured .BEST_FIT).2+1)*videoWidth) ∨
      ((measured .BEST_FIT).2 = heightMeasureSpec.size ∧
        (measured .BEST_FIT).1*videoHeight ≤ heightMeasureSpec.size*videoWidth ∧
        heightMeasureSpec.size*videoWidth < ((measured .BEST_FIT).1+1)*videoHeight)) ∧
    ∀ a b : ℤ, a ≤ widthMeasureSpec.size → b ≤ heightMeasureSpec.size →
      a*videoHeight = b*videoWidth → a ≤ (measured .BEST_FIT).1 ∧ b ≤ (measured .BEST_FIT).2 := by
  have hbox : Box widthMeasureSpec.size heightMeasureSpec.size videoWidth videoHeight :=
    ⟨widthMeasureSpec.nonneg,widthMeasureSpec.lt,heightMeasureSpec.nonneg,heightMeasureSpec.lt,hvw,hvh⟩
  have hmeasure : ∀ mode : ZDisplayMode,
      mode.measure widthMeasureSpec heightMeasureSpec videoWidth videoHeight =
        mode.measureVideo widthMeasureSpec.size heightMeasureSpec.size videoWidth videoHeight := by
    intro mode
    rw [ZDisplayMode.measure,if_neg (by omega)]
  simp only [hmeasure]
  refine ⟨hbox.bestFit_eq_min,rfl,hbox.bestFit_inside,hbox.bestFit_undistorted,?_⟩
  intro a b ha hb hshape
  exact hbox.bestFit_largest ha hb hshape

/-- A 4:3 video in a wide box, against a smaller picture of its shape. -/
theorem bestFit_coherent_wide :
    1280 ≤ (ZDisplayMode.measure .BEST_FIT ⟨.exactly,1920,by norm_num,by norm_num⟩
      ⟨.exactly,1080,by norm_num,by norm_num⟩ 640 480).1 ∧
    960 ≤ (ZDisplayMode.measure .BEST_FIT ⟨.exactly,1920,by norm_num,by norm_num⟩
      ⟨.exactly,1080,by norm_num,by norm_num⟩ 640 480).2 :=
  (bestFit_coherent ⟨.exactly,1920,by norm_num,by norm_num⟩ ⟨.exactly,1080,by norm_num,by norm_num⟩
    640 480 (by norm_num) (by norm_num)).2.2.2.2 1280 960 (by norm_num) (by norm_num) (by norm_num)

end ZenMedia
