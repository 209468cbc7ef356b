import ZenMedia.Reentrant

/-! The data of one player: the hooked libvlc `MediaPlayer`, the fields that
`ZMediaPlayer` and `BaseViewPlayer` add to it, and the world around it. The world
decides what each external call does; the log records what the code did. -/
namespace ZenMedia
open Reentrant

/-- The cases of the `switch` over `msg.getData().getInt("event")`; `other` is
any number without a case of its own. -/
inductive Event
  | mediaParsedChanged
  | mediaPlayerPlaying
  | mediaPlayerPaused
  | mediaPlayerStopped
  | mediaPlayerEndReached
  | mediaPlayerVout
  | mediaPlayerPositionChanged
  | mediaPlayerEncounteredError
  | hardwareAccelerationError
  | mediaPlayerTimeChanged
  | mediaPlayerESAdded
  | mediaPlayerESDeleted
  | other (event : ℤ)
  deriving DecidableEq, Repr

/-- A libvlc `Media`; `serial` is its identity. -/
structure Media where
  serial : ℕ
  options : List String
  deriving DecidableEq, Repr

/-- The option list of a media built by `play(hasVideo)`. -/
def Media.hasVideo (m : Media) : Bool := !m.options.contains ":no-video"

/-- `mSurfacesState` of `AWindow`. -/
inductive SurfacesState
  | init
  | attached
  | ready
  deriving DecidableEq, Repr

/-- The methods of other objects that the code calls; each may throw. -/
inductive Call
  -- LibVLC, VLCMediaPlayer and IVLCVout
  | hasCompatibleCPU
  | newLibVLC
  | newVLCMediaPlayer
  | getVLCVout
  | setMedia
  | play
  | stop
  | pause
  | setPosition (position : ℚ)
  | getPosition
  | isPlaying
  | getLength
  | setVideoTitleDisplay
  | isReleased
  | release
  | setCallback
  | setVideoView
  | areViewsAttached
  | attachViews
  | detachViews
  | setWindowSize (width height : ℤ)
  -- the native methods under the hooked MediaPlayer
  | nativeSetMedia (media : Option Media)
  | nativePlay
  | nativeStop
  | nativeSetVideoTitleDisplay
  | setVideoTrackEnabled
  | nativeRelease
  -- Media
  | newMedia
  | parse
  | addOption (option : String)
  | retainMedia (media : Media)
  | setDefaultMediaPlayerOptions
  | releaseMedia (media : Media)
  -- EventHandler, Handler and the views
  | addHandler
  | removeHandler
  | removeCallbacksAndMessages
  | setKeepScreenOn
  | isAvailable
  | addAttachListener
  | setLayoutParams (width height : ℤ) (marginLeft : Option ℤ)
  deriving DecidableEq, Repr

inductive Throwable
  | nullPointer
  | illegalArgument (message : String)
  | illegalState (message : String)
  | unknownException (detailMessage : String)
  | thrownBy (c : Call)
  deriving DecidableEq, Repr

/-- The methods of `ZMediaPlayerCallback`. The argument of `onComplete` is always
the player itself and is left out. -/
inductive Callback
  | onPlay (duration : ℤ)
  | onPaused (position : ℚ)
  | onStopped
  | onComplete
  | onPostPosition (position : ℚ)
  | onError (e : Throwable)
  | onHardwareAccelerationError
  deriving DecidableEq, Repr

/-- The six numbers of an `onNewLayout` event. -/
structure VideoLayout where
  videoWidth : ℤ := 0
  mVideoHeight : ℤ := 0
  videoVisibleWidth : ℤ := 0
  videoVisibleHeight : ℤ := 0
  sarNum : ℤ := 0
  sarDen : ℤ := 0
  deriving DecidableEq, Repr

/-- Everything that enters a player from outside: the client's calls, the view's
and libvlc's notifications, and the messages of the event handler. -/
inductive Op
  | requestPlay (hasVideo : Bool)
  | handleSurfaceAvailable
  | pause
  | simplePause
  | resume
  | seekTo (position : ℚ)
  | isPlaying
  | getDuration
  | stop
  | release
  | handleMessage (event : Event)
  | onSurfacesCreated
  | onSurfacesDestroyed
  | onNewLayout (layout : VideoLayout)
  deriving DecidableEq, Repr

inductive Obs
  /-- an operation is entered -/
  | entered (op : Op)
  /-- `ZMediaPlayer.play(hasVideo)` is entered -/
  | start (hasVideo : Bool)
  /-- an external method is called, with the release status of the media player then -/
  | call (c : Call) (released : Bool)
  /-- a method of the client callback is invoked -/
  | callback (c : Callback)
  deriving DecidableEq, Repr

/-- What the world does while one operation runs. `window` and `progress` are
changes libvlc has made on its own since the operation before. -/
structure Env where
  throws : Call → Bool := fun _ => false
  window : Option SurfacesState := none
  progress : Option ℚ := none
  length : ℤ := 0
  /-- whether `attachViews` finds the surface there and reports it at once -/
  surfaceReady : Bool := false
  /-- whether the weak reference of the handler has been cleared -/
  ownerCollected : Bool := false
  surfaceAvailable : Bool := false
  compatibleCPU : Bool := true
  errorMsg : String := ""
  containerWidth : ℤ := 0
  containerHeight : ℤ := 0
  isPortrait : Bool := true
  relativeLayout : Bool := true

/-- The hooked `MediaPlayer`, with the position of the native player under it. -/
structure MediaPlayer where
  mMedia : Option Media := none
  mPlaying : Bool := false
  mPlayRequested : Bool := false
  mWindow : SurfacesState := .init
  mNativeRefCount : ℕ := 0
  position : ℚ := 0
  deriving DecidableEq, Repr

def MediaPlayer.isReleased (p : MediaPlayer) : Bool := p.mNativeRefCount = 0

/-- `VideoPlayerEventHandler`; `mOwner` says whether the weak reference still
holds the callback and `registered` whether `EventHandler` has the handler. -/
structure VideoPlayerEventHandler where
  isOnPlayCallback : Bool := false
  mOwner : Bool := false
  registered : Bool := false
  deriving DecidableEq, Repr

/-- The fields of `ZMediaPlayer` and `BaseViewPlayer`. References are modelled by
whether they are set; `mediaPlayer` is assigned once in the constructor and never
again, so its null tests always pass. -/
structure Player where
  mediaPlayer : MediaPlayer := {}
  eventHandler : VideoPlayerEventHandler := {}
  libVLCRefCount : ℕ := 0
  playerContainer : Bool := false
  playerView : Bool := false
  callBack : Bool := false
  stopped : Bool := false
  position : ℚ := 0
  mediaDuration : ℤ := 0
  currentSize : ℤ := 0
  videoHeight : ℤ := 0
  layout : VideoLayout := {}
  attached : Bool := false
  requestPlay : Bool := false
  hasVideo : Bool := false
  /-- how many `Media` objects exist, and the reference count of each -/
  created : ℕ := 0
  refs : ℕ → ℕ := fun _ => 0

structure World where
  player : Player := {}
  env : Env := {}
  log : List Obs := []

/-- Code that runs no client callback. -/
abbrev M := EStateM Throwable World

/-- Code that may. -/
abbrev P := Prog World Throwable Callback

namespace World

def observe (w : World) (o : Obs) : World := { w with log := w.log ++ [o] }

def called (w : World) (c : Call) : World :=
  w.observe (.call c w.player.mediaPlayer.isReleased)

def update (w : World) (f : Player → Player) : World := { w with player := f w.player }

/-- The world after libvlc and the collector have made the changes of `env`. -/
def arrive (w : World) (env : Env) : World where
  player := { w.player with
    mediaPlayer := { w.player.mediaPlayer with
      mWindow := env.window.getD w.player.mediaPlayer.mWindow
      position := env.progress.getD w.player.mediaPlayer.position }
    eventHandler := { w.player.eventHandler with
      mOwner := w.player.eventHandler.mOwner && (w.player.callBack || !env.ownerCollected) } }
  env := env
  log := w.log

end World

def observe (o : Obs) : M Unit := modify (fun w => w.observe o)

def update (f : Player → Player) : M Unit := modify (fun w => w.update f)

def updateMediaPlayer (f : MediaPlayer → MediaPlayer) : M Unit :=
  update (fun p => { p with mediaPlayer := f p.mediaPlayer })

def updateHandler (f : VideoPlayerEventHandler → VideoPlayerEventHandler) : M Unit :=
  update (fun p => { p with eventHandler := f p.eventHandler })

def player : M Player := do pure (← get).player

def call (c : Call) : M Unit := do
  modify (fun w => w.called c)
  if (← get).env.throws c then throw (.thrownBy c)

/-! ### How the primitives act on a world -/

namespace World
variable (w : World)

@[simp] lemma observe_player (o : Obs) : (w.observe o).player = w.player := rfl
@[simp] lemma observe_env (o : Obs) : (w.observe o).env = w.env := rfl
@[simp] lemma observe_log (o : Obs) : (w.observe o).log = w.log ++ [o] := rfl
@[simp] lemma called_player (c : Call) : (w.called c).player = w.player := rfl
@[simp] lemma called_env (c : Call) : (w.called c).env = w.env := rfl
@[simp] lemma called_log (c : Call) :
    (w.called c).log = w.log ++ [.call c w.player.mediaPlayer.isReleased] := rfl
@[simp] lemma update_player (f : Player → Player) : (w.update f).player = f w.player := rfl
@[simp] lemma update_env (f : Player → Player) : (w.update f).env = w.env := rfl
@[simp] lemma update_log (f : Player → Player) : (w.update f).log = w.log := rfl
@[simp] lemma arrive_callBack (env : Env) : (w.arrive env).player.callBack = w.player.callBack := rfl
@[simp] lemma arrive_stopped (env : Env) : (w.arrive env).player.stopped = w.player.stopped := rfl
@[simp] lemma arrive_flag (env : Env) : (w.arrive env).player.eventHandler.isOnPlayCallback =
    w.player.eventHandler.isOnPlayCallback := rfl
@[simp] lemma arrive_registered (env : Env) : (w.arrive env).player.eventHandler.registered =
    w.player.eventHandler.registered := rfl
@[simp] lemma arrive_owner (env : Env) : (w.arrive env).player.eventHandler.mOwner =
    (w.player.eventHandler.mOwner && (w.player.callBack || !env.ownerCollected)) := rfl
@[simp] lemma arrive_position (env : Env) : (w.arrive env).player.mediaPlayer.position =
    env.progress.getD w.player.mediaPlayer.position := rfl
@[simp] lemma arrive_isReleased (env : Env) :
    (w.arrive env).player.mediaPlayer.isReleased = w.player.mediaPlayer.isReleased := rfl
@[simp] lemma arrive_env (env : Env) : (w.arrive env).env = env := rfl
@[simp] lemma arrive_log (env : Env) : (w.arrive env).log = w.log := rfl

end World

section runs
variable (w : World)

@[simp] lemma run_observe (o : Obs) : (observe o).run w = .ok () (w.observe o) := rfl
@[simp] lemma run_update (f : Player → Player) : (update f).run w = .ok () (w.update f) := rfl
@[simp] lemma run_player : player.run w = .ok w.player w := rfl

@[simp] lemma run_updateMediaPlayer (f : MediaPlayer → MediaPlayer) :
    (updateMediaPlayer f).run w =
      .ok () (w.update fun p => { p with mediaPlayer := f p.mediaPlayer }) := rfl

@[simp] lemma run_updateHandler (f : VideoPlayerEventHandler → VideoPlayerEventHandler) :
    (updateHandler f).run w =
      .ok () (w.update fun p => { p with eventHandler := f p.eventHandler }) := rfl

lemma run_call (c : Call) :
    (call c).run w =
      if w.env.throws c then .error (.thrownBy c) (w.called c) else .ok () (w.called c) := by
  by_cases h : w.env.throws c = true
  · simp [call,h]
  · simp [call,h]

lemma call_eq_ok {c : Call} {u : Unit} {v : World} :
    (call c).run w = .ok u v ↔ w.env.throws c = false ∧ v = w.called c := by
  rw [run_call]
  cases h : w.env.throws c <;> simp [eq_comm]

@[simp] lemma final_run_call (c : Call) : final ((call c).run w) = w.called c := by
  rw [run_call]
  split <;> rfl

end runs

end ZenMedia
