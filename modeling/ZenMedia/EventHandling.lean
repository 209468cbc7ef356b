import ZenMedia.PlayerCommands

/-! `VideoPlayerEventHandler.handleMessage` of both players. The field `callBack`
is read anew at every statement, so a `stop()` inside a callback shows in the rest
of the same message. -/
namespace ZenMedia
open Reentrant

def callBackSet : M Bool := do pure (← player).callBack

def onPlayCallbackSet : M Bool := do pure (← player).eventHandler.isOnPlayCallback

/-- Invoke a method of the client callback. -/
def invoke (c : Callback) : P Unit := do
  observe (.callback c)
  Prog.yield c

/-- `if (callBack != null) callBack.c(...)`, the argument being computed inside. -/
def notifyIfSet (argument : M Callback) : P Unit := do
  if ← callBackSet then
    let c ← argument
    invoke c

/-- `callBack.c(...)` without a null test: the receiver is read first and tested
after the argument. -/
def notify (argument : M Callback) : P Unit := do
  let receiver ← callBackSet
  let c ← argument
  if receiver then invoke c else Prog.raise .nullPointer

def updateMediaDuration : M Unit := do
  let length ← MediaPlayer.getLength
  update fun p => { p with mediaDuration := length }

def onPlay : M Callback := do pure (.onPlay (← player).mediaDuration)

def mediaPlayerIsReleased : M Bool := do
  call .isReleased
  pure (← player).mediaPlayer.isReleased

namespace VideoPlayerEventHandler

def getOwner : M Bool := do pure (← player).eventHandler.mOwner

/-- The common body; the players differ in the `MediaPlayerEndReached` case. -/
def handleMessage (endReached : P Unit) (event : Event) : P Unit := do
  if ← getOwner then
    match event with
    | .mediaPlayerPaused =>
      notifyIfSet (do pure (.onPaused (← MediaPlayer.getPosition)))
    | .mediaPlayerStopped =>
      if ← mediaPlayerIsReleased then pure () else notifyIfSet (pure .onStopped)
      updateHandler fun h => { h with isOnPlayCallback := false }
    | .mediaPlayerEndReached => endReached
    | .mediaPlayerPositionChanged =>
      updateMediaDuration
      if ← onPlayCallbackSet then
        pure ()
      else
        notifyIfSet onPlay
        updateHandler fun h => { h with isOnPlayCallback := true }
      notify (do pure (.onPostPosition (← MediaPlayer.getPosition)))
    | .mediaPlayerEncounteredError =>
      notify (pure (.onError (.unknownException "ZMediaPlayer")))
    | .hardwareAccelerationError => notify (pure .onHardwareAccelerationError)
    | .mediaParsedChanged => pure ()
    | .mediaPlayerPlaying => pure ()
    | .mediaPlayerVout => pure ()
    | .mediaPlayerTimeChanged => pure ()
    | .mediaPlayerESAdded => pure ()
    | .mediaPlayerESDeleted => pure ()
    | .other _ => pure ()

end VideoPlayerEventHandler

namespace ZMediaPlayer

def endReached : P Unit := do
  if ← onPlayCallbackSet then
    pure ()
  else
    updateMediaDuration
    notifyIfSet onPlay
  notifyIfSet (pure .onComplete)

def handleMessage (event : Event) : P Unit :=
  VideoPlayerEventHandler.handleMessage endReached event

end ZMediaPlayer

namespace ZMediaPlayer2

def endReached : P Unit := notifyIfSet (pure .onComplete)

def handleMessage (event : Event) : P Unit :=
  VideoPlayerEventHandler.handleMessage endReached event

end ZMediaPlayer2

/-! ### How the pieces run -/

section runs
variable (react : Callback → World → World) (w : World)

@[simp] lemma run_callBackSet : callBackSet.run w = .ok w.player.callBack w := rfl

@[simp] lemma run_onPlayCallbackSet :
    onPlayCallbackSet.run w = .ok w.player.eventHandler.isOnPlayCallback w := rfl

@[simp] lemma run_getOwner :
    VideoPlayerEventHandler.getOwner.run w = .ok w.player.eventHandler.mOwner w := rfl

@[simp] lemma run_onPlay : onPlay.run w = .ok (.onPlay w.player.mediaDuration) w := rfl

lemma run_getPosition :
    MediaPlayer.getPosition.run w =
      if w.env.throws .getPosition then .error (.thrownBy .getPosition) (w.called .getPosition)
      else .ok w.player.mediaPlayer.position (w.called .getPosition) := by
  cases h : w.env.throws .getPosition <;> simp [MediaPlayer.getPosition,run_call,h]

lemma run_mediaPlayerIsReleased :
    mediaPlayerIsReleased.run w =
      if w.env.throws .isReleased then .error (.thrownBy .isReleased) (w.called .isReleased)
      else .ok w.player.mediaPlayer.isReleased (w.called .isReleased) := by
  cases h : w.env.throws .isReleased <;> simp [mediaPlayerIsReleased,run_call,h]

lemma run_updateMediaDuration :
    updateMediaDuration.run w =
      if w.env.throws .getLength then .error (.thrownBy .getLength) (w.called .getLength)
      else .ok () ((w.called .getLength).update fun p =>
        { p with mediaDuration := w.env.length }) := by
  cases h : w.env.throws .getLength <;>
    simp [updateMediaDuration,MediaPlayer.getLength,run_call,h]

lemma run_notifyIfSet (argument : M Callback) :
    ((notifyIfSet argument).exec react).run w =
      if w.player.callBack then
        match argument.run w with
        | .ok c v => .ok () (react c (v.observe (.callback c)))
        | .error e v => .error e v
      else .ok () w := by
  cases h : w.player.callBack <;> cases ha : argument.run w <;> simp [notifyIfSet,invoke,h,ha]

lemma run_notify (argument : M Callback) :
    ((notify argument).exec react).run w =
      match argument.run w with
      | .ok c v =>
        if w.player.callBack then .ok () (react c (v.observe (.callback c)))
        else .error .nullPointer v
      | .error e v => .error e v := by
  cases h : w.player.callBack <;> cases ha : argument.run w <;> simp [notify,invoke,h,ha]

end runs

end ZenMedia
