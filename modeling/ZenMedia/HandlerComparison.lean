import ZenMedia.HandlerSessions

/-! The handlers of the two generations side by side. Their flags move together;
what they deliver differs at an `EndReached` that meets the flag unset. -/
namespace ZenMedia
open Reentrant TraceLaws

lemma deliveries_same {flag : Bool} (released : Bool) {m : Message}
    (h : m.event = .mediaPlayerEndReached → flag = true) :
    Generation.zMediaPlayer.deliveries flag released m =
      Generation.zMediaPlayer2.deliveries flag released m := by
  unfold Generation.deliveries
  cases he : m.event with
  | mediaPlayerEndReached => simp [h he]
  | _ => rfl

lemma deliveries_early_end (released : Bool) {m : Message}
    (h : m.event = .mediaPlayerEndReached) :
    Generation.zMediaPlayer.deliveries false released m =
      .onPlay m.length :: Generation.zMediaPlayer2.deliveries false released m := by
  simp [Generation.deliveries,h]

/-- Every `EndReached` comes after a `PositionChanged` of its session. -/
def ProgressBeforeEnd (ms : List Message) : Prop :=
  Guarded (fun m => m.event = .mediaPlayerEndReached) (Saw .mediaPlayerPositionChanged) ms

section
variable {w₁ w₂ : World} (h₁ : Fresh w₁) (h₂ : Fresh w₂)
include h₁ h₂

lemma flags_agree (ms : List Message) :
    (w₁.handle .zMediaPlayer ms).player.eventHandler.isOnPlayCallback =
      (w₂.handle .zMediaPlayer2 ms).player.eventHandler.isOnPlayCallback :=
  Bool.eq_iff_iff.mpr ((handled _ h₁ ms).tracks.flag_iff.trans (handled _ h₂ ms).tracks.flag_iff.symm)

/-- After the first early end the first generation has told more, and stays ahead. -/
lemma callbacks_compare
    (hreleased : w₁.player.mediaPlayer.isReleased = w₂.player.mediaPlayer.isReleased)
    (ms : List Message) :
    (ProgressBeforeEnd ms →
      (w₁.handle .zMediaPlayer ms).callbacks = (w₂.handle .zMediaPlayer2 ms).callbacks) ∧
    (¬ProgressBeforeEnd ms → (w₂.handle .zMediaPlayer2 ms).callbacks.length <
      (w₁.handle .zMediaPlayer ms).callbacks.length) := by
  induction ms using List.reverseRecOn with
  | nil => simp [ProgressBeforeEnd,handle_nil,World.callbacks,h₁.untold,h₂.untold]
  | append_singleton ms m ih =>
    have t₁ := handled .zMediaPlayer h₁ ms
    have t₂ := handled .zMediaPlayer2 h₂ ms
    have hflag := flags_agree h₁ h₂ ms
    have hsaw := t₁.tracks.flag_iff
    have hr := t₁.isReleased.trans (hreleased.trans t₂.isReleased.symm)
    have hmore : ProgressBeforeEnd (ms ++ [m]) ↔ ProgressBeforeEnd ms ∧
        (m.event = .mediaPlayerEndReached → Saw .mediaPlayerPositionChanged ms) :=
      guarded_concat ms m
    rw [handle_concat,handle_concat,callbacks_step _ m t₁.listening,
      callbacks_step _ m t₂.listening,hmore,← hflag,← hr]
    by_cases hm : m.event = .mediaPlayerEndReached → Saw .mediaPlayerPositionChanged ms
    · have hd := deliveries_same (w₁.handle .zMediaPlayer ms).player.mediaPlayer.isReleased
        (fun he => hsaw.mpr (hm he))
      rw [hd]
      refine ⟨fun h => by rw [ih.1 h.1],fun h => ?_⟩
      have hlt := ih.2 (fun hp => h ⟨hp,hm⟩)
      simp only [List.length_append]
      omega
    · obtain ⟨he,hno⟩ := Classical.not_imp.mp hm
      have hoff := t₁.tracks.off hno
      rw [hoff,deliveries_early_end _ he]
      refine ⟨fun h => absurd h.2 hm,fun _ => ?_⟩
      have hle : (w₂.handle .zMediaPlayer2 ms).callbacks.length ≤
          (w₁.handle .zMediaPlayer ms).callbacks.length := by
        by_cases hp : ProgressBeforeEnd ms
        · rw [ih.1 hp]
        · exact (ih.2 hp).le
      simp only [List.length_append,List.length_cons]
      omega

end

theorem handlers_agree_iff (w₁ w₂ : World) (h₁ : Fresh w₁) (h₂ : Fresh w₂)
    (hreleased : w₁.player.mediaPlayer.isReleased = w₂.player.mediaPlayer.isReleased)
    (ms : List Message) :
    (∀ pre, pre <+: ms → (w₁.handle .zMediaPlayer pre).player.eventHandler.isOnPlayCallback =
      (w₂.handle .zMediaPlayer2 pre).player.eventHandler.isOnPlayCallback) ∧
    ((w₁.handle .zMediaPlayer ms).callbacks = (w₂.handle .zMediaPlayer2 ms).callbacks ↔
      ProgressBeforeEnd ms) := by
  refine ⟨fun pre _ => flags_agree h₁ h₂ pre,?_⟩
  obtain ⟨hsame,hmore⟩ := callbacks_compare h₁ h₂ hreleased ms
  constructor
  · intro heq
    by_contra hp
    exact absurd (hmore hp) (by simp [heq])
  · exact hsame

theorem handlers_agree_built :
    (ViewClass.textureViewPlayer.built.handle .zMediaPlayer
      [⟨.mediaPlayerPositionChanged,7,1/2,false⟩,⟨.mediaPlayerEndReached,7,1,false⟩]).callbacks =
    (ViewClass.textureViewPlayer2.built.handle .zMediaPlayer2
      [⟨.mediaPlayerPositionChanged,7,1/2,false⟩,⟨.mediaPlayerEndReached,7,1,false⟩]).callbacks := by
  refine (handlers_agree_iff _ _ (built_fresh _) (built_fresh _) (by decide) _).2.mpr ?_
  simp [ProgressBeforeEnd,Saw,sessionOf,session,Event.endsSession,List.rtakeWhile]

end ZenMedia
