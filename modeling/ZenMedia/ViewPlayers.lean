import ZenMedia.EventHandling

/-! `BaseViewPlayer`, its copy `BaseViewPlayer2` and the concrete players, and the
operations through which the outside reaches a player of either generation. -/
namespace ZenMedia
open Reentrant

namespace BaseViewPlayer

def isAttached : M Bool := do pure (← player).attached

def setAttached (attached : Bool) : M Unit := update fun p => { p with attached := attached }

def isRequestPlay : M Bool := do pure (← player).requestPlay

/-- The body of the `catch` blocks. -/
def reportError (e : Throwable) : P Unit := notifyIfSet (pure (.onError e))

def requestPlay (hasVideo : Bool) : P Bool :=
  Prog.attempt (do
    update fun p => { p with hasVideo := hasVideo }
    update fun p => { p with requestPlay := true }
    if ← isAttached then
      ZMediaPlayer.play hasVideo
    isAttached)
  fun e => do
    reportError e
    pure false

/-- The `try` block of `handleSurfaceAvailable`. -/
def attachAndPlay : M Unit := do
  setAttached true
  ZMediaPlayer.attachView
  if ← isRequestPlay then
    ZMediaPlayer.play (← player).hasVideo

def handleSurfaceAvailable : P Unit := do
  if ← ZMediaPlayer.isStopped then pure () else Prog.attempt attachAndPlay reportError

end BaseViewPlayer

/-- The two families of players, rooted at `ZMediaPlayer` and at `ZMediaPlayer2`. -/
inductive Generation
  | zMediaPlayer
  | zMediaPlayer2
  deriving DecidableEq, Repr

namespace Generation

def pause : Generation → M Unit
  | zMediaPlayer => ZMediaPlayer.pause
  | zMediaPlayer2 => ZMediaPlayer2.pause

def resume : Generation → M Unit
  | zMediaPlayer => ZMediaPlayer.resume
  | zMediaPlayer2 => ZMediaPlayer2.resume

def stop : Generation → M Unit
  | zMediaPlayer => ZMediaPlayer.stop
  | zMediaPlayer2 => ZMediaPlayer2.stop

def endReached : Generation → P Unit
  | zMediaPlayer => ZMediaPlayer.endReached
  | zMediaPlayer2 => ZMediaPlayer2.endReached

def handleMessage : Generation → Event → P Unit
  | zMediaPlayer => ZMediaPlayer.handleMessage
  | zMediaPlayer2 => ZMediaPlayer2.handleMessage

lemma stop_eq (g : Generation) : g.stop = ZMediaPlayer.stop := by cases g <;> rfl

lemma handleMessage_eq (g : Generation) (e : Event) :
    g.handleMessage e = VideoPlayerEventHandler.handleMessage g.endReached e := by
  cases g <;> rfl

end Generation

/-- The concrete players. -/
inductive ViewClass
  | audioPlayer
  | surfaceViewPlayer
  | textureViewPlayer
  | textureViewPlayer2
  deriving DecidableEq, Repr

namespace ViewClass

def generation : ViewClass → Generation
  | textureViewPlayer2 => .zMediaPlayer2
  | _ => .zMediaPlayer

def setVideoView : ViewClass → M Unit
  | audioPlayer => pure ()
  | _ => call .setVideoView

def handleAttach : M Unit := do
  call .isAvailable
  BaseViewPlayer.setAttached (← get).env.surfaceAvailable
  if ← BaseViewPlayer.isAttached then
    ZMediaPlayer.attachView
  else
    call .addAttachListener

/-- The constructors; an audio player has no view, a player of the second
generation no container, display mode or height of its own. -/
def construct (c : ViewClass) (callback : Bool) (playerSizeMode videoHeight : ℤ) : M Unit :=
  match c with
  | audioPlayer => do
    ZMediaPlayer.construct false false callback (-1) 0 c.setVideoView
    BaseViewPlayer.setAttached true
  | textureViewPlayer2 => do
    ZMediaPlayer.construct false true callback (-1) 0 c.setVideoView
    handleAttach
  | _ => do
    ZMediaPlayer.construct true true callback playerSizeMode videoHeight c.setVideoView
    handleAttach

end ViewClass

def Op.prog (g : Generation) : Op → P Unit
  | requestPlay hasVideo => do let _ ← BaseViewPlayer.requestPlay hasVideo
  | handleSurfaceAvailable => BaseViewPlayer.handleSurfaceAvailable
  | pause => g.pause
  | simplePause => ZMediaPlayer.simplePause
  | resume => g.resume
  | seekTo position => ZMediaPlayer.seekTo position
  | isPlaying => ZMediaPlayer.isPlaying
  | getDuration => do let _ ← ZMediaPlayer.getDuration
  | stop => g.stop
  | release => g.stop
  | handleMessage event => g.handleMessage event
  | onSurfacesCreated => MediaPlayer.onSurfacesCreated
  | onSurfacesDestroyed => MediaPlayer.onSurfacesDestroyed
  | onNewLayout layout => ZMediaPlayer.onNewLayout layout

/-- One operation in the environment it meets. -/
structure Step where
  op : Op
  env : Env := {}

def Step.enter (s : Step) : M Unit := do
  modify fun w => w.arrive s.env
  observe (.entered s.op)

def Step.prog (g : Generation) (s : Step) : P Unit := do
  s.enter
  s.op.prog g

/-- The world after one step against a client that answers callbacks by `react`. -/
def World.step (g : Generation) (react : Callback → World → World) (w : World) (s : Step) :
    World := final (((s.prog g).exec react).run w)

def World.run (g : Generation) (react : Callback → World → World) (w : World)
    (steps : List Step) : World := steps.foldl (World.step g react) w

/-- A client that only records what it is told. -/
def recording : Callback → World → World := fun _ w => w

/-- A player of generation `g` whose constructor has returned. -/
def Constructed (g : Generation) (callback : Bool) (w : World) : Prop :=
  ∃ (c : ViewClass) (playerSizeMode videoHeight : ℤ) (env : Env), c.generation = g ∧
    (c.construct callback playerSizeMode videoHeight).run { env := env } = .ok () w

end ZenMedia
