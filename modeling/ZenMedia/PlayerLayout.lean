import ZenMedia.HookedMediaPlayer

/-! `changePlayerLayout`: the display size that a video geometry, a container and a
display mode give. Java doubles are read as exact rationals with the two infinities
and NaN that a division by zero produces. -/
namespace ZenMedia
open Reentrant

inductive Double
  | num (q : ℚ)
  | posInf
  | negInf
  | nan
  deriving DecidableEq, Repr

namespace Double

def ofInt (n : ℤ) : Double := .num n

def signed (q : ℚ) : Double := if 0 < q then .posInf else if q < 0 then .negInf else .nan

def mul : Double → Double → Double
  | .num a, .num b => .num (a*b)
  | .num a, .posInf => signed a
  | .num a, .negInf => signed (-a)
  | .posInf, .num b => signed b
  | .negInf, .num b => signed (-b)
  | .posInf, .posInf => .posInf
  | .negInf, .negInf => .posInf
  | .posInf, .negInf => .negInf
  | .negInf, .posInf => .negInf
  | .nan, _ => .nan
  | _, .nan => .nan

def div : Double → Double → Double
  | .num a, .num b => if b = 0 then signed a else .num (a/b)
  | .num _, .posInf => .num 0
  | .num _, .negInf => .num 0
  | .posInf, .num b => if b < 0 then .negInf else .posInf
  | .negInf, .num b => if b < 0 then .posInf else .negInf
  | _, _ => .nan

/-- `a < b`; false when either is NaN. -/
def lt : Double → Double → Bool
  | .num a, .num b => a < b
  | .num _, .posInf => true
  | .negInf, .num _ => true
  | .negInf, .posInf => true
  | _, _ => false

/-- `(int) Math.ceil(x)`, saturating as Java's narrowing does. -/
def ceil : Double → ℤ
  | .num q => max (-2147483648) (min 2147483647 ⌈q⌉)
  | .posInf => 2147483647
  | .negInf => -2147483648
  | .nan => 0

end Double

/-- The value of an `int` expression. -/
def wrap32 (n : ℤ) : ℤ := (n + 2147483648) % 4294967296 - 2147483648

def PLAYER_BEST_FIT : ℤ := 0
def PLAYER_FIT_HORIZONTAL : ℤ := 1
def PLAYER_FIT_VERTICAL : ℤ := 2
def PLAYER_FILL : ℤ := 3
def PLAYER_16_9 : ℤ := 4
def PLAYER_4_3 : ℤ := 5
def PLAYER_ORIGINAL : ℤ := 6

namespace VideoLayout

/-- `vw` and `ar`, from the visible size and the sample aspect ratio. -/
def aspectRatio (v : VideoLayout) : Double × Double :=
  if v.sarDen = v.sarNum then
    (.ofInt v.videoVisibleWidth,
      (Double.ofInt v.videoVisibleWidth).div (.ofInt v.videoVisibleHeight))
  else
    let vw := ((Double.ofInt v.videoVisibleWidth).mul (.ofInt v.sarNum)).div (.ofInt v.sarDen)
    (vw,vw.div (.ofInt v.videoVisibleHeight))

/-- The branch shared by `PLAYER_BEST_FIT`, `PLAYER_16_9` and `PLAYER_4_3`. -/
def fitInside (dw dh ar : Double) : Double × Double :=
  if (dw.div dh).lt ar then (dw,dw.div ar) else (dh.mul ar,dh)

/-- `dw` and `dh` after the `switch`; `none` when the sanity check fails. -/
def displaySize (v : VideoLayout) (currentSize sw sh : ℤ) (isPortrait : Bool) :
    Option (Double × Double) :=
  let swap := (sh < sw && isPortrait) || (sw < sh && !isPortrait)
  let dw := Double.ofInt (if swap then sh else sw)
  let dh := Double.ofInt (if swap then sw else sh)
  if dw.mul dh = .num 0 || wrap32 (v.videoWidth * v.mVideoHeight) = 0 then none
  else
    let (vw,ar) := v.aspectRatio
    some (if currentSize = PLAYER_BEST_FIT then fitInside dw dh ar
      else if currentSize = PLAYER_FIT_HORIZONTAL then (dw,dw.div ar)
      else if currentSize = PLAYER_FIT_VERTICAL then (dh.mul ar,dh)
      else if currentSize = PLAYER_FILL then (dw,dh)
      else if currentSize = PLAYER_16_9 then fitInside dw dh ((Double.ofInt 16).div (.ofInt 9))
      else if currentSize = PLAYER_4_3 then fitInside dw dh ((Double.ofInt 4).div (.ofInt 3))
      else if currentSize = PLAYER_ORIGINAL then (vw,.ofInt v.videoVisibleHeight)
      else (dw,dh))

/-- `lp.width` and `lp.height`: the coded size scaled as the visible one. -/
def viewSize (v : VideoLayout) (display : Double × Double) : ℤ × ℤ :=
  (((display.1.mul (.ofInt v.videoWidth)).div (.ofInt v.videoVisibleWidth)).ceil,
    ((display.2.mul (.ofInt v.mVideoHeight)).div (.ofInt v.videoVisibleHeight)).ceil)

end VideoLayout

namespace ZMediaPlayer

def changePlayerLayout : M Unit := do
  let p ← player
  let env := (← get).env
  if p.playerContainer && p.playerView then
    let sw := env.containerWidth
    let sh := if 0 < p.videoHeight then p.videoHeight else env.containerHeight
    call .getVLCVout
    call (.setWindowSize sw sh)
    if let some display := p.layout.displaySize p.currentSize sw sh env.isPortrait then
      let (width,height) := p.layout.viewSize display
      let marginLeft := (wrap32 (sw - width)).tdiv 2
      call (.setLayoutParams width height (if env.relativeLayout then some marginLeft else none))

def onNewLayout (layout : VideoLayout) : M Unit := do
  update fun p => { p with layout := layout }
  changePlayerLayout

end ZMediaPlayer

end ZenMedia
