import ZenMedia.PlayerLayout

/-! Construction, the commands and the teardown of `ZMediaPlayer`, and what
`ZMediaPlayer2` does otherwise. The two classes are copies of each other but for
`pause`, `resume` and one branch of the event handler. -/
namespace ZenMedia
open Reentrant

namespace EventHandler

def addHandler : M Unit := do
  call .addHandler
  updateHandler fun h => { h with registered := true }

def removeHandler : M Unit := do
  call .removeHandler
  updateHandler fun h => { h with registered := false }

end EventHandler

namespace ZMediaPlayer

def createVLC : M Unit := do
  call .hasCompatibleCPU
  let env := (← get).env
  if env.compatibleCPU then
    call .newLibVLC
    update fun p => { p with libVLCRefCount := 1 }
  else
    throw (.illegalState ("LibVLC initialisation failed: " ++ env.errorMsg))

def init (setVideoView : M Unit) : M Unit := do
  call .getVLCVout
  call .setCallback
  EventHandler.addHandler
  setVideoView

/-- The constructors; `container` and `view` say whether these are given. -/
def construct (container view callback : Bool) (playerSizeMode videoHeight : ℤ)
    (setVideoView : M Unit) : M Unit := do
  update fun p => { p with playerContainer := container }
  createVLC
  call .newVLCMediaPlayer
  updateMediaPlayer fun p => { p with mNativeRefCount := 1 }
  update fun p => { p with playerView := view, callBack := callback }
  updateHandler fun h => { h with mOwner := callback }
  update fun p =>
    { p with currentSize := if 0 ≤ playerSizeMode then playerSizeMode else p.currentSize }
  init setVideoView
  update fun p => { p with videoHeight := videoHeight }

def attachView : M Unit := do
  call .getVLCVout
  if ← AWindow.areViewsAttached then pure () else AWindow.attachViews

def newMedia : M Media := do
  call .newMedia
  let serial := (← player).created
  update fun p => { p with created := serial + 1, refs := Function.update p.refs serial 1 }
  pure ⟨serial,[]⟩

/-- The media of `play(hasVideo)`, up to its options. -/
def openMedia (hasVideo : Bool) : M Media := do
  let media ← newMedia
  call .parse
  if hasVideo then
    pure media
  else
    call (.addOption ":no-video")
    pure { media with options := media.options ++ [":no-video"] }

def play (hasVideo : Bool) : M Unit := do
  observe (.start hasVideo)
  let media ← openMedia hasVideo
  MediaPlayer.setMedia (some media)
  media.release
  MediaPlayer.setVideoTitleDisplay
  MediaPlayer.play

def isStopped : M Bool := do pure (← player).stopped

/-- `if (playerView != null) playerView.setKeepScreenOn(false)` -/
def releaseScreen : M Unit := do
  if (← player).playerView then call .setKeepScreenOn

/-- The teardown behind the `stopped` guard of `stop`. -/
def tearDown : M Unit := do
  update fun p => { p with stopped := true }
  EventHandler.removeHandler
  call .removeCallbacksAndMessages
  update fun p => { p with callBack := false }
  releaseScreen
  MediaPlayer.stop
  call .getVLCVout
  AWindow.detachViews
  call .setCallback
  MediaPlayer.release

def stop : M Unit := do
  if ← isStopped then pure () else tearDown

def release : M Unit := stop

def pause : M Unit := do
  call .pause
  let position ← MediaPlayer.getPosition
  update fun p => { p with position := position }

/-- `if (position > 0) mediaPlayer.setPosition(position)` -/
def restorePosition : M Unit := do
  let position := (← player).position
  if 0 < position then MediaPlayer.setPosition position

def resume : M Unit := do
  restorePosition
  MediaPlayer.play

def simplePause : M Unit := call .pause

def seekTo (position : ℚ) : M Unit := MediaPlayer.setPosition position

def isPlaying : M Unit := call .isPlaying

def getDuration : M ℤ := MediaPlayer.getLength

end ZMediaPlayer

namespace ZMediaPlayer2

def stop : M Unit := ZMediaPlayer.stop

def pause : M Unit := call .pause

def resume : M Unit := MediaPlayer.play

end ZMediaPlayer2

end ZenMedia
