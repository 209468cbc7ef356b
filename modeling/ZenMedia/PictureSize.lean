import ZenMedia.PlayerLayout

/-! The picture that `changePlayerLayout` lays out for a video of positive geometry,
against the picture that the display mode asks for. The working dimensions are
swapped when the container and the device are turned differently. -/
namespace ZenMedia

namespace Double

@[simp] lemma ofInt_eq (n : ℤ) : ofInt n = .num n := rfl

@[simp] lemma num_mul_num (a b : ℚ) : (num a).mul (num b) = num (a*b) := rfl

lemma num_div_num (a : ℚ) {b : ℚ} (hb : b ≠ 0) : (num a).div (num b) = num (a/b) := if_neg hb

@[simp] lemma num_lt_num (a b : ℚ) : (num a).lt (num b) = decide (a < b) := rfl

end Double

/-- A video whose coded size, visible size and sample aspect ratio are positive. -/
structure VideoLayout.Positive (v : VideoLayout) : Prop where
  videoWidth : 0 < v.videoWidth
  mVideoHeight : 0 < v.mVideoHeight
  product : v.videoWidth*v.mVideoHeight < 2^31
  videoVisibleWidth : 0 < v.videoVisibleWidth
  videoVisibleHeight : 0 < v.videoVisibleHeight
  sarNum : 0 < v.sarNum
  sarDen : 0 < v.sarDen

/-- The aspect ratio of the visible picture. -/
def VideoLayout.ratio (v : VideoLayout) : ℚ :=
  v.videoVisibleWidth*v.sarNum/(v.videoVisibleHeight*v.sarDen)

/-- A picture of `dw` by `dh` with aspect ratio `ar` that fills a box in one direction. -/
structure Fits (ar width height dw dh : ℚ) : Prop where
  width_le : dw ≤ width
  height_le : dh ≤ height
  ratio : dw/dh = ar
  touches : dw = width ∨ dh = height

/-- What the mode asks of the picture in a container of `sw` by `sh`. -/
structure Honours (v : VideoLayout) (currentSize sw sh : ℤ) (dw dh : ℚ) : Prop where
  bestFit : currentSize = PLAYER_BEST_FIT → Fits v.ratio sw sh dw dh
  wide : currentSize = PLAYER_16_9 → Fits (16/9) sw sh dw dh
  narrow : currentSize = PLAYER_4_3 → Fits (4/3) sw sh dw dh
  horizontal : currentSize = PLAYER_FIT_HORIZONTAL → dw = sw ∧ dw/dh = v.ratio
  vertical : currentSize = PLAYER_FIT_VERTICAL → dh = sh ∧ dw/dh = v.ratio
  fill : currentSize = PLAYER_FILL → dw = sw ∧ dh = sh

/-- `sw > sh && isPortrait || sw < sh && !isPortrait` -/
def swapped (sw sh : ℤ) (isPortrait : Bool) : Bool :=
  (sh < sw && isPortrait) || (sw < sh && !isPortrait)

/-- `dw` before the `switch`. -/
def workingWidth (sw sh : ℤ) (isPortrait : Bool) : ℤ := if swapped sw sh isPortrait then sh else sw

/-- `dh` before the `switch`. -/
def workingHeight (sw sh : ℤ) (isPortrait : Bool) : ℤ := if swapped sw sh isPortrait then sw else sh

/-- `sh`: the height given to the constructor, or else the height of the container. -/
def Player.boxHeight (p : Player) (env : Env) : ℤ :=
  if 0 < p.videoHeight then p.videoHeight else env.containerHeight

/-- What `changePlayerLayout` does in a world where none of its calls throws. -/
lemma run_changePlayerLayout (w : World) (hquiet : ∀ c, w.env.throws c = false) :
    ZMediaPlayer.changePlayerLayout.run w = .ok ()
      (if w.player.playerContainer && w.player.playerView then
        let sized := (w.called .getVLCVout).called
          (.setWindowSize w.env.containerWidth (w.player.boxHeight w.env))
        match w.player.layout.displaySize w.player.currentSize w.env.containerWidth
            (w.player.boxHeight w.env) w.env.isPortrait with
        | some display =>
          sized.called (.setLayoutParams (w.player.layout.viewSize display).1
            (w.player.layout.viewSize display).2
            (if w.env.relativeLayout then
              some ((wrap32 (w.env.containerWidth - (w.player.layout.viewSize display).1)).tdiv 2)
            else none))
        | none => sized
      else w) := by
  have hcall : ∀ (v : World) (c : Call), v.env = w.env → (call c).run v = .ok () (v.called c) := by
    intro v c hv
    rw [run_call,hv,hquiet]
    rfl
  unfold ZMediaPlayer.changePlayerLayout Player.boxHeight
  simp only [EStateM.run_bind,run_player,EStateM.run_get]
  cases hgiven : w.player.playerContainer && w.player.playerView with
  | false => rfl
  | true =>
    simp only [if_true,EStateM.run_bind,hcall w _ rfl,hcall (w.called _) _ rfl]
    cases w.player.layout.displaySize w.player.currentSize w.env.containerWidth _
        w.env.isPortrait with
    | none => rfl
    | some display => exact hcall _ _ rfl

/-! ### The branch of the three fitting modes -/

/-- `fitInside` on finite numbers. -/
def fitted (ar width height : ℚ) : ℚ × ℚ :=
  if width/height < ar then (width,width/ar) else (height*ar,height)

lemma fitInside_num {ar width height : ℚ} (har : 0 < ar) (hh : 0 < height) :
    VideoLayout.fitInside (.num width) (.num height) (.num ar) =
      (.num (fitted ar width height).1,.num (fitted ar width height).2) := by
  unfold VideoLayout.fitInside fitted
  rw [Double.num_div_num width hh.ne',Double.num_lt_num]
  by_cases hlt : width/height < ar
  · rw [if_pos (decide_eq_true hlt),if_pos hlt,Double.num_div_num width har.ne']
  · rw [if_neg (by simpa using hlt),if_neg hlt,Double.num_mul_num]

lemma fitted_fits {ar width height : ℚ} (har : 0 < ar) (hw : 0 < width) (hh : 0 < height) :
    Fits ar width height (fitted ar width height).1 (fitted ar width height).2 := by
  unfold fitted
  by_cases hlt : width/height < ar
  · rw [if_pos hlt]
    have hlow : width/ar ≤ height := by
      rw [div_le_iff₀ har,mul_comm]
      exact ((div_lt_iff₀ hh).mp hlt).le
    exact ⟨le_rfl,hlow,by field_simp,.inl rfl⟩
  · rw [if_neg hlt]
    have hnarrow : height*ar ≤ width := by
      rw [mul_comm]
      exact (le_div_iff₀ hh).mp (not_lt.mp hlt)
    exact ⟨hnarrow,le_rfl,by field_simp,.inr rfl⟩

/-- A picture that fits a box fits the box turned round exactly when it is a square. -/
lemma Fits.turned_iff {ar width height dw dh : ℚ} (h : Fits ar width height dw dh)
    (hne : width ≠ height) (hw : 0 < width) (hh : 0 < height) :
    Fits ar height width dw dh ↔ ar = 1 := by
  constructor
  · intro k
    rcases h.touches with hdw | hdh <;> rcases k.touches with kdw | kdh
    · exact absurd (hdw.symm.trans kdw) hne
    · rw [← h.ratio,hdw,kdh,div_self hw.ne']
    · rw [← h.ratio,kdw,hdh,div_self hh.ne']
    · exact absurd (kdh.symm.trans hdh) hne
  · intro hone
    have hratio := h.ratio
    have hdh : dh ≠ 0 := by
      intro hzero
      rw [hzero,div_zero,hone] at hratio
      exact zero_ne_one hratio
    have hsquare : dw = dh := by rwa [hone,div_eq_one_iff_eq hdh] at hratio
    subst hsquare
    exact ⟨h.height_le,h.width_le,h.ratio,h.touches.symm⟩

namespace VideoLayout
variable {v : VideoLayout}

namespace Positive
variable (hv : v.Positive)
include hv

lemma visibleWidth_pos : (0 : ℚ) < v.videoVisibleWidth := by exact_mod_cast hv.videoVisibleWidth

lemma visibleHeight_pos : (0 : ℚ) < v.videoVisibleHeight := by exact_mod_cast hv.videoVisibleHeight

lemma sarNum_pos : (0 : ℚ) < v.sarNum := by exact_mod_cast hv.sarNum

lemma sarDen_pos : (0 : ℚ) < v.sarDen := by exact_mod_cast hv.sarDen

lemma ratio_pos : 0 < v.ratio := by
  have := hv.visibleWidth_pos
  have := hv.visibleHeight_pos
  have := hv.sarNum_pos
  have := hv.sarDen_pos
  unfold ratio
  positivity

lemma ratio_eq_one_iff :
    v.ratio = 1 ↔ v.videoVisibleWidth*v.sarNum = v.videoVisibleHeight*v.sarDen := by
  have := hv.visibleHeight_pos
  have := hv.sarDen_pos
  rw [ratio,div_eq_one_iff_eq (by positivity)]
  norm_cast

/-- The product of the sanity check does not wrap. -/
lemma product_ne_zero : wrap32 (v.videoWidth*v.mVideoHeight) ≠ 0 := by
  have hpos := Int.mul_pos hv.videoWidth hv.mVideoHeight
  have hlt := hv.product
  unfold wrap32
  omega

lemma aspectRatio_eq : v.aspectRatio =
    (.num (v.videoVisibleWidth*v.sarNum/v.sarDen),.num v.ratio) := by
  have hheight := hv.visibleHeight_pos.ne'
  have hnum := hv.sarNum_pos.ne'
  have hden := hv.sarDen_pos.ne'
  unfold aspectRatio ratio
  by_cases hsar : v.sarDen = v.sarNum
  · rw [if_pos hsar,hsar]
    simp only [Double.ofInt_eq]
    rw [Double.num_div_num _ hheight,mul_div_cancel_right₀ _ hnum,mul_div_mul_right _ _ hnum]
  · rw [if_neg hsar]
    simp only [Double.ofInt_eq,Double.num_mul_num]
    rw [Double.num_div_num _ hden,Double.num_div_num _ hheight,div_div,mul_comm (v.sarDen : ℚ)]

end Positive

/-- The `switch` over `currentSize`. -/
def chosenSize (v : VideoLayout) (currentSize : ℤ) (dw dh : Double) : Double × Double :=
  if currentSize = PLAYER_BEST_FIT then fitInside dw dh v.aspectRatio.2
  else if currentSize = PLAYER_FIT_HORIZONTAL then (dw,dw.div v.aspectRatio.2)
  else if currentSize = PLAYER_FIT_VERTICAL then (dh.mul v.aspectRatio.2,dh)
  else if currentSize = PLAYER_FILL then (dw,dh)
  else if currentSize = PLAYER_16_9 then fitInside dw dh ((Double.ofInt 16).div (.ofInt 9))
  else if currentSize = PLAYER_4_3 then fitInside dw dh ((Double.ofInt 4).div (.ofInt 3))
  else if currentSize = PLAYER_ORIGINAL then (v.aspectRatio.1,.ofInt v.videoVisibleHeight)
  else (dw,dh)

lemma displaySize_def (v : VideoLayout) (currentSize sw sh : ℤ) (isPortrait : Bool) :
    v.displaySize currentSize sw sh isPortrait =
      if (Double.ofInt (workingWidth sw sh isPortrait)).mul
          (.ofInt (workingHeight sw sh isPortrait)) = .num 0 ||
        wrap32 (v.videoWidth*v.mVideoHeight) = 0 then none
      else some (v.chosenSize currentSize (.ofInt (workingWidth sw sh isPortrait))
        (.ofInt (workingHeight sw sh isPortrait))) := rfl

/-- The picture for finite working dimensions. -/
def picture (v : VideoLayout) (currentSize : ℤ) (width height : ℚ) : ℚ × ℚ :=
  if currentSize = PLAYER_BEST_FIT then fitted v.ratio width height
  else if currentSize = PLAYER_FIT_HORIZONTAL then (width,width/v.ratio)
  else if currentSize = PLAYER_FIT_VERTICAL then (height*v.ratio,height)
  else if currentSize = PLAYER_FILL then (width,height)
  else if currentSize = PLAYER_16_9 then fitted (16/9) width height
  else if currentSize = PLAYER_4_3 then fitted (4/3) width height
  else if currentSize = PLAYER_ORIGINAL then
    (v.videoVisibleWidth*v.sarNum/v.sarDen,v.videoVisibleHeight)
  else (width,height)

lemma Positive.chosenSize_num (hv : v.Positive) (currentSize : ℤ) (width : ℚ) {height : ℚ}
    (hh : 0 < height) :
    v.chosenSize currentSize (.num width) (.num height) =
      (.num (v.picture currentSize width height).1,.num (v.picture currentSize width height).2) := by
  have hwide : (Double.ofInt 16).div (.ofInt 9) = .num (16/9) := Double.num_div_num _ (by norm_num)
  have hnarrow : (Double.ofInt 4).div (.ofInt 3) = .num (4/3) := Double.num_div_num _ (by norm_num)
  unfold chosenSize picture
  rw [hv.aspectRatio_eq,hwide,hnarrow,fitInside_num hv.ratio_pos hh,
    fitInside_num (by norm_num) hh,fitInside_num (by norm_num) hh,
    Double.num_div_num width hv.ratio_pos.ne',Double.num_mul_num,Double.ofInt_eq]
  split_ifs <;> rfl

lemma Positive.displaySize_eq (hv : v.Positive) (currentSize : ℤ) {sw sh : ℤ} (hw : 0 < sw)
    (hh : 0 < sh) (isPortrait : Bool) :
    v.displaySize currentSize sw sh isPortrait =
      some (.num (v.picture currentSize (workingWidth sw sh isPortrait)
          (workingHeight sw sh isPortrait)).1,
        .num (v.picture currentSize (workingWidth sw sh isPortrait)
          (workingHeight sw sh isPortrait)).2) := by
  have hwidth : (0 : ℚ) < workingWidth sw sh isPortrait := by
    unfold workingWidth
    split <;> exact_mod_cast by assumption
  have hheight : (0 : ℚ) < workingHeight sw sh isPortrait := by
    unfold workingHeight
    split <;> exact_mod_cast by assumption
  have hcheck : ((Double.ofInt (workingWidth sw sh isPortrait)).mul
      (.ofInt (workingHeight sw sh isPortrait)) = .num 0 ||
      wrap32 (v.videoWidth*v.mVideoHeight) = 0) = false := by
    simp [(mul_pos hwidth hheight).ne',hv.product_ne_zero]
  rw [displaySize_def,hcheck]
  exact congrArg some (hv.chosenSize_num currentSize _ hheight)

/-- The picture honours its mode in a box of the working dimensions. -/
lemma Positive.picture_honours (hv : v.Positive) (currentSize : ℤ) {width height : ℤ}
    (hw : 0 < width) (hh : 0 < height) :
    Honours v currentSize width height (v.picture currentSize width height).1
      (v.picture currentSize width height).2 := by
  have hw' : (0 : ℚ) < width := by exact_mod_cast hw
  have hh' : (0 : ℚ) < height := by exact_mod_cast hh
  have hratio := hv.ratio_pos
  constructor
  · rintro rfl
    exact fitted_fits hratio hw' hh'
  · rintro rfl
    exact fitted_fits (by norm_num) hw' hh'
  · rintro rfl
    exact fitted_fits (by norm_num) hw' hh'
  · rintro rfl
    have hpicture : v.picture PLAYER_FIT_HORIZONTAL width height =
        ((width : ℚ),(width : ℚ)/v.ratio) := rfl
    rw [hpicture]
    exact ⟨rfl,by field_simp⟩
  · rintro rfl
    have hpicture : v.picture PLAYER_FIT_VERTICAL width height =
        ((height : ℚ)*v.ratio,(height : ℚ)) := rfl
    rw [hpicture]
    exact ⟨rfl,by field_simp⟩
  · rintro rfl
    exact ⟨rfl,rfl⟩

end VideoLayout

/-- In a container turned round only a square video honours a mode, and only the best fit. -/
lemma Honours.turned_iff {v : VideoLayout} {currentSize width height : ℤ} {dw dh : ℚ}
    (h : Honours v currentSize width height dw dh) (hne : width ≠ height) (hw : 0 < width)
    (hh : 0 < height) (hmin : PLAYER_BEST_FIT ≤ currentSize) (hmax : currentSize ≤ PLAYER_4_3) :
    Honours v currentSize height width dw dh ↔
      currentSize = PLAYER_BEST_FIT ∧ v.ratio = 1 := by
  have hne' : (width : ℚ) ≠ height := by exact_mod_cast hne
  have hw' : (0 : ℚ) < width := by exact_mod_cast hw
  have hh' : (0 : ℚ) < height := by exact_mod_cast hh
  constructor
  · intro k
    unfold PLAYER_BEST_FIT PLAYER_4_3 at *
    obtain rfl | rfl | rfl | rfl | rfl | rfl : currentSize = 0 ∨ currentSize = 1 ∨ currentSize = 2 ∨
        currentSize = 3 ∨ currentSize = 4 ∨ currentSize = 5 := by omega
    · exact ⟨rfl,((h.bestFit rfl).turned_iff hne' hw' hh').mp (k.bestFit rfl)⟩
    · exact absurd ((h.horizontal rfl).1.symm.trans (k.horizontal rfl).1) hne'
    · exact absurd ((k.vertical rfl).1.symm.trans (h.vertical rfl).1) hne'
    · exact absurd ((h.fill rfl).1.symm.trans (k.fill rfl).1) hne'
    · exact absurd (((h.wide rfl).turned_iff hne' hw' hh').mp (k.wide rfl)) (by norm_num)
    · exact absurd (((h.narrow rfl).turned_iff hne' hw' hh').mp (k.narrow rfl)) (by norm_num)
  · rintro ⟨rfl,hsquare⟩
    constructor
    · intro _
      exact ((h.bestFit rfl).turned_iff hne' hw' hh').mpr hsquare
    all_goals exact fun habsurd => absurd habsurd (by decide)

lemma swapped_ne {sw sh : ℤ} {isPortrait : Bool} (h : swapped sw sh isPortrait = true) : sh ≠ sw := by
  unfold swapped at h
  simp only [Bool.or_eq_true,Bool.and_eq_true,decide_eq_true_eq] at h
  omega

theorem honours_iff (p : Player) (env : Env) (hw : 0 < env.containerWidth)
    (hh : 0 < p.boxHeight env) (hv : p.layout.Positive)
    (hmin : PLAYER_BEST_FIT ≤ p.currentSize) (hmax : p.currentSize ≤ PLAYER_4_3) :
    ∃ dw dh : ℚ, p.layout.displaySize p.currentSize env.containerWidth (p.boxHeight env)
        env.isPortrait = some (.num dw,.num dh) ∧
      (Honours p.layout p.currentSize env.containerWidth (p.boxHeight env) dw dh ↔
        swapped env.containerWidth (p.boxHeight env) env.isPortrait = false ∨
        p.currentSize = PLAYER_BEST_FIT ∧
          p.layout.videoVisibleWidth*p.layout.sarNum = p.layout.videoVisibleHeight*p.layout.sarDen) := by
  generalize env.containerWidth = sw at hw ⊢
  generalize p.boxHeight env = sh at hh ⊢
  have hdisplay := hv.displaySize_eq p.currentSize hw hh env.isPortrait
  cases hswap : swapped sw sh env.isPortrait with
  | false =>
    have hwidth : workingWidth sw sh env.isPortrait = sw := by simp [workingWidth,hswap]
    have hheight : workingHeight sw sh env.isPortrait = sh := by simp [workingHeight,hswap]
    rw [hwidth,hheight] at hdisplay
    have hhonours := hv.picture_honours p.currentSize hw hh
    exact ⟨_,_,hdisplay,fun _ => .inl rfl,fun _ => hhonours⟩
  | true =>
    have hwidth : workingWidth sw sh env.isPortrait = sh := by simp [workingWidth,hswap]
    have hheight : workingHeight sw sh env.isPortrait = sw := by simp [workingHeight,hswap]
    rw [hwidth,hheight] at hdisplay
    have hturned := (hv.picture_honours p.currentSize hh hw).turned_iff (swapped_ne hswap) hh hw
      hmin hmax
    rw [hv.ratio_eq_one_iff] at hturned
    refine ⟨_,_,hdisplay,hturned.trans ?_⟩
    simp

/-- A film of 1920 by 1080 in a container wider than high on an upright screen. -/
theorem honours_turned :
    let film : VideoLayout := ⟨1920,1080,1920,1080,1,1⟩
    film.Positive ∧
      film.displaySize PLAYER_BEST_FIT 1080 400 true = some (.num 400,.num 225) ∧
      ¬Honours film PLAYER_BEST_FIT (1080 : ℤ) (400 : ℤ) 400 225 := by
  refine ⟨⟨by decide,by decide,by decide,by decide,by decide,by decide,by decide⟩,
    by decide +kernel,?_⟩
  intro h
  rcases (h.bestFit rfl).touches with hwidth | hheight
  · norm_num at hwidth
  · norm_num at hheight

/-- The same film in a container higher than wide. -/
theorem honours_upright :
    Honours ⟨1920,1080,1920,1080,1,1⟩ PLAYER_BEST_FIT (400 : ℤ) (1080 : ℤ) 400 225 := by
  obtain ⟨dw,dh,hdisplay,hiff⟩ := honours_iff { layout := ⟨1920,1080,1920,1080,1,1⟩ }
    { containerWidth := 400, containerHeight := 1080 } (by decide) (by decide)
    ⟨by decide,by decide,by decide,by decide,by decide,by decide,by decide⟩ (by decide) (by decide)
  have hvalue : VideoLayout.displaySize ⟨1920,1080,1920,1080,1,1⟩ 0 400 1080 true =
      some (.num 400,.num 225) := by decide +kernel
  obtain ⟨rfl,rfl⟩ : dw = 400 ∧ dh = 225 := by
    have hsame := hdisplay.symm.trans hvalue
    simpa using hsame
  exact hiff.mpr (.inl rfl)

end ZenMedia
