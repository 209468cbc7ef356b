import ZenMedia.PlayerState

/-! The `MediaPlayer` that this repository puts in the place of libvlc's own, with
the parts of `VLCObject` and `AWindow` it works with. A play request that finds the
surfaces waiting is kept in `mPlayRequested` until `onSurfacesCreated`. -/
namespace ZenMedia
open Reentrant

namespace Media

/-- `VLCObject.isReleased`, `retain` and `release` count the references of a media. -/
def isReleased (m : Media) : M Bool := do pure ((← player).refs m.serial = 0)

def retain (m : Media) : M Unit := do
  call (.retainMedia m)
  update fun p =>
    if 0 < p.refs m.serial then
      { p with refs := Function.update p.refs m.serial (p.refs m.serial + 1) }
    else p

def release (m : Media) : M Unit := do
  call (.releaseMedia m)
  update fun p => { p with refs := Function.update p.refs m.serial (p.refs m.serial - 1) }

end Media

namespace MediaPlayer

/-- `new MediaPlayer(media)`; the native object is made by the same call as `new
MediaPlayer(libVLC)` makes it. -/
def fromMedia (media : Option Media) : M Unit := do
  match media with
  | some media =>
    if ← media.isReleased then
      throw (.illegalArgument "Media is null or released")
    else
      updateMediaPlayer fun _ => { mMedia := some media }
      media.retain
      call .newVLCMediaPlayer
      updateMediaPlayer fun p => { p with mNativeRefCount := 1 }
  | none => throw (.illegalArgument "Media is null or released")

/-- `if (mMedia != null) mMedia.release()` -/
def releaseMedia : M Unit := do
  match (← player).mediaPlayer.mMedia with
  | some media => media.release
  | none => pure ()

/-- The branch of `setMedia` for a media that is not null. -/
def acquire (media : Media) : M Unit := do
  if ← media.isReleased then
    throw (.illegalArgument "Media is released")
  else
    media.retain
    call .setDefaultMediaPlayerOptions

def setMedia (media : Option Media) : M Unit := do
  call .setMedia
  releaseMedia
  media.forM acquire
  updateMediaPlayer fun p => { p with mMedia := media }
  call (.nativeSetMedia media)
  updateMediaPlayer fun p => { p with position := 0 }

def getMedia : M (Option Media) := do
  match (← player).mediaPlayer.mMedia with
  | some media => media.retain
  | none => pure ()
  pure (← player).mediaPlayer.mMedia

/-- The last two lines of `play`. -/
def startNative : M Unit := do
  updateMediaPlayer fun p => { p with mPlaying := true }
  call .nativePlay

def areSurfacesWaiting : M Bool := do pure ((← player).mediaPlayer.mWindow = .attached)

def play : M Unit := do
  call .play
  if (← player).mediaPlayer.mPlaying then
    startNative
  else
    updateMediaPlayer fun p => { p with mPlayRequested := true }
    if ← areSurfacesWaiting then pure () else startNative

def stop : M Unit := do
  call .stop
  updateMediaPlayer fun p => { p with mPlayRequested := false }
  updateMediaPlayer fun p => { p with mPlaying := false }
  call .nativeStop

def onSurfacesCreated : M Unit := do
  if !(← player).mediaPlayer.mPlaying && (← player).mediaPlayer.mPlayRequested then
    play

def onSurfacesDestroyed : M Unit := do
  if (← player).mediaPlayer.mPlaying then
    call .setVideoTrackEnabled

def setVideoTitleDisplay : M Unit := do
  call .setVideoTitleDisplay
  call .nativeSetVideoTitleDisplay

def setPosition (position : ℚ) : M Unit := do
  call (.setPosition position)
  updateMediaPlayer fun p => { p with position := position }

def getPosition : M ℚ := do
  call .getPosition
  pure (← player).mediaPlayer.position

def getLength : M ℤ := do
  call .getLength
  pure (← get).env.length

def onReleaseNative : M Unit := do
  releaseMedia
  call .nativeRelease

/-- `VLCObject.release`. -/
def release : M Unit := do
  call .release
  if (← player).mediaPlayer.isReleased then
    pure ()
  else
    updateMediaPlayer fun p => { p with mNativeRefCount := p.mNativeRefCount - 1 }
    if (← player).mediaPlayer.isReleased then
      onReleaseNative

end MediaPlayer

namespace AWindow

def areViewsAttached : M Bool := do
  call .areViewsAttached
  pure ((← player).mediaPlayer.mWindow ≠ .init)

/-- A surface that is there already is reported from inside `attachViews`. -/
def attachViews : M Unit := do
  call .attachViews
  updateMediaPlayer fun p => { p with mWindow := .attached }
  if (← get).env.surfaceReady then
    updateMediaPlayer fun p => { p with mWindow := .ready }
    MediaPlayer.onSurfacesCreated

def detachViews : M Unit := do
  call .detachViews
  if (← player).mediaPlayer.mWindow = .init then
    pure ()
  else
    updateMediaPlayer fun p => { p with mWindow := .init }
    MediaPlayer.onSurfacesDestroyed

end AWindow

end ZenMedia
