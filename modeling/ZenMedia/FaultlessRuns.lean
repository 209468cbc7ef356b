import ZenMedia.PlayerFrames

/-! Runs in which no external call throws. The commands then return, whatever the
state of the player; only a released media can still make `setMedia` throw. -/
namespace ZenMedia
open Reentrant

lemma returns_player (I : World → Prop) : Returns I player := fun w hw => ⟨w.player,w,rfl,hw⟩

/-- No external call throws. -/
def Faultless (w : World) : Prop := ∀ c, w.env.throws c = false

namespace Faultless

lemma call (c : Call) : Returns Faultless (call c) :=
  fun w hw => ⟨(),w.called c,(call_eq_ok w).mpr ⟨hw c,rfl⟩,hw⟩

lemma update (f : Player → Player) : Returns Faultless (update f) := .modify fun _ hw => hw

lemma updateMediaPlayer (f : MediaPlayer → MediaPlayer) : Returns Faultless (updateMediaPlayer f) :=
  update _

lemma player : Returns Faultless player := returns_player _

lemma startNative : Returns Faultless MediaPlayer.startNative :=
  .bind (updateMediaPlayer _) fun _ => call _

lemma mediaPlayer_play : Returns Faultless MediaPlayer.play :=
  (Returns.sequential _).mediaPlayer_play (call _) (updateMediaPlayer _) startNative

lemma onSurfacesCreated : Returns Faultless MediaPlayer.onSurfacesCreated :=
  (Returns.sequential _).onSurfacesCreated mediaPlayer_play

lemma attachView : Returns Faultless ZMediaPlayer.attachView :=
  (Returns.sequential _).attachView (call _) (call _) (call _) (fun _ => updateMediaPlayer _)
    onSurfacesCreated

lemma openMedia (hasVideo : Bool) : Returns Faultless (ZMediaPlayer.openMedia hasVideo) := by
  refine (Returns.sequential _).openMedia ?_ (call _) (fun _ => call _) hasVideo
  exact .bind (call _) fun _ => player.bind fun _ => .bind (update _) fun _ => .pure _

lemma mediaRelease (m : Media) : Returns Faultless m.release := .bind (call _) fun _ => update _

lemma setVideoTitleDisplay : Returns Faultless MediaPlayer.setVideoTitleDisplay :=
  .bind (call _) fun _ => call _

end Faultless

end ZenMedia
