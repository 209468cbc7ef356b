import ZenMedia.PlayerFrames
import ZenMedia.TraceLaws

/-! The event handler of a player that nobody stops, told by a client that only
records: every message appends the callbacks `deliveries` and moves the session
flag by `flagAfter`. -/
namespace ZenMedia
open Reentrant TraceLaws

/-- A message as the handler meets it: the event, and what `getLength` and
`getPosition` answer while it is handled. -/
structure Message where
  event : Event
  length : ℤ
  position : ℚ
  ownerCollected : Bool := false
  deriving DecidableEq

def Message.step (m : Message) : Step where
  op := .handleMessage m.event
  env := { length := m.length, progress := some m.position, ownerCollected := m.ownerCollected }

/-- The handler has a client. -/
structure Listening (w : World) : Prop where
  callBack : w.player.callBack = true
  mOwner : w.player.eventHandler.mOwner = true

lemma listening_iff {w : World} : Listening w ↔
    w.player.callBack = true ∧ w.player.eventHandler.mOwner = true :=
  ⟨fun h => ⟨h.1,h.2⟩,fun h => ⟨h.1,h.2⟩⟩

namespace Generation

def deliveries (g : Generation) (flag released : Bool) (m : Message) : List Callback :=
  match m.event with
  | .mediaPlayerPaused => [.onPaused m.position]
  | .mediaPlayerStopped => if released then [] else [.onStopped]
  | .mediaPlayerEndReached =>
    if g = zMediaPlayer ∧ flag = false then [.onPlay m.length,.onComplete] else [.onComplete]
  | .mediaPlayerPositionChanged =>
    if flag then [.onPostPosition m.position]
    else [.onPlay m.length,.onPostPosition m.position]
  | .mediaPlayerEncounteredError => [.onError (.unknownException "ZMediaPlayer")]
  | .hardwareAccelerationError => [.onHardwareAccelerationError]
  | _ => []

end Generation

def flagAfter (flag : Bool) : Event → Bool
  | .mediaPlayerStopped => false
  | .mediaPlayerPositionChanged => true
  | _ => flag

/-- One message: the client stays, and hears `deliveries`. -/
theorem step_listening (g : Generation) (m : Message) {w : World} (hw : Listening w) :
    Listening (w.step g recording m.step) ∧
      (w.step g recording m.step).player.eventHandler.isOnPlayCallback =
        flagAfter w.player.eventHandler.isOnPlayCallback m.event ∧
      (w.step g recording m.step).player.mediaPlayer.isReleased =
        w.player.mediaPlayer.isReleased ∧
      (w.step g recording m.step).player.eventHandler.registered =
        w.player.eventHandler.registered ∧
      (w.step g recording m.step).record = w.record ++ .entered (.handleMessage m.event) ::
        (g.deliveries w.player.eventHandler.isOnPlayCallback
          w.player.mediaPlayer.isReleased m).map .callback := by
  obtain ⟨hc,ho⟩ := hw
  obtain ⟨e,len,pos,col⟩ := m
  simp only [World.step,run_exec_prog,Message.step,Op.prog,Generation.handleMessage_eq,
    listening_iff]
  cases e with
  | mediaPlayerStopped =>
    cases hrel : w.player.mediaPlayer.isReleased <;>
      simp [VideoPlayerEventHandler.handleMessage,run_mediaPlayerIsReleased,run_notifyIfSet,
        recording,flagAfter,Generation.deliveries,hc,ho,hrel]
  | mediaPlayerEndReached =>
    cases g <;> cases hflag : w.player.eventHandler.isOnPlayCallback <;>
      simp [VideoPlayerEventHandler.handleMessage,Generation.endReached,ZMediaPlayer.endReached,
        ZMediaPlayer2.endReached,run_updateMediaDuration,run_notifyIfSet,
        recording,flagAfter,Generation.deliveries,hc,ho,hflag]
  | mediaPlayerPositionChanged =>
    cases hflag : w.player.eventHandler.isOnPlayCallback <;>
      simp [VideoPlayerEventHandler.handleMessage,run_updateMediaDuration,run_getPosition,
        run_notifyIfSet,run_notify,recording,flagAfter,Generation.deliveries,hc,ho,hflag]
  | _ =>
    simp [VideoPlayerEventHandler.handleMessage,run_getPosition,run_notifyIfSet,run_notify,
      recording,flagAfter,Generation.deliveries,hc,ho]

lemma callbacks_step (g : Generation) (m : Message) {w : World} (hw : Listening w) :
    (w.step g recording m.step).callbacks = w.callbacks ++
      g.deliveries w.player.eventHandler.isOnPlayCallback w.player.mediaPlayer.isReleased m := by
  obtain ⟨-,-,-,-,hrec⟩ := step_listening g m hw
  have hmap : ∀ cs : List Callback, (cs.map Obs.callback).filterMap Obs.asCallback = cs := by
    intro cs
    simp [List.filterMap_map,Function.comp_def,Obs.asCallback]
  rw [World.callbacks,hrec,List.filterMap_append,List.filterMap_cons_none (by rfl),hmap]
  rfl

end ZenMedia
