import ZenMedia.Construction

/-! Where `resume()` leaves the native position. The position that `pause()` writes
down is written by nothing else and never cleared. -/
namespace ZenMedia
open Reentrant

/-! ### The recorded position -/

/-- The frame of the field `position`. -/
abbrev recorded : Frame World := fixes Player.position

namespace Recorded

lemma medialess : Medialess Player.position where
  mMedia _ _ := rfl
  position _ _ := rfl
  created _ _ _ := rfl

lemma mediaPlayer_play : Maintains recorded MediaPlayer.play :=
  Fixes.mediaPlayer_play (fun _ _ => rfl) (fun _ _ => rfl)

lemma play (hasVideo : Bool) : Maintains recorded (ZMediaPlayer.play hasVideo) := by
  refine (Fixes.observe _).bind fun _ => (Fixes.openMedia medialess hasVideo).bind fun media => ?_
  refine (Fixes.setMedia medialess media).bind fun _ => (Fixes.mediaRelease medialess media).bind fun _ => ?_
  exact .bind ((Fixes.call _).bind fun _ => Fixes.call _) fun _ => mediaPlayer_play

lemma setPosition (position : ℚ) : Maintains recorded (MediaPlayer.setPosition position) :=
  (Fixes.call _).bind fun _ => Fixes.update fun _ => rfl

lemma resume (g : Generation) : Maintains recorded g.resume := by
  cases g with
  | zMediaPlayer =>
    refine Maintains.bind ?_ fun _ => mediaPlayer_play
    exact Fixes.player.bind fun _ => .ite (setPosition _) (.pure _)
  | zMediaPlayer2 => exact mediaPlayer_play

lemma requestPlay (hasVideo : Bool) : Prog.Keeps recorded (BaseViewPlayer.requestPlay hasVideo) := by
  have hattached : Maintains recorded BaseViewPlayer.isAttached := Fixes.player.bind fun _ => .pure _
  refine .attempt ?_ fun e => .bind ?_ fun _ => .pure _
  · refine .bind (Fixes.update fun _ => rfl) fun _ => .bind (Fixes.update fun _ => rfl) fun _ => ?_
    exact hattached.bind fun b => .ite ((play hasVideo).bind fun _ => hattached) hattached
  · refine .bind (.lift (Fixes.player.bind fun _ => .pure _)) fun b => .ite ?_ (.pure _)
    exact .bind (.lift (.pure _)) fun c => .bind (.lift (Fixes.observe _)) fun _ => .yield c

lemma attachView : Maintains recorded ZMediaPlayer.attachView :=
  Fixes.attachView (fun _ _ => rfl) mediaPlayer_play

/-- A constructor records no position. -/
lemma construct (c : ViewClass) (callback : Bool) (playerSizeMode videoHeight : ℤ) :
    Maintains recorded (c.construct callback playerSizeMode videoHeight) := by
  have hbuilding : Building recorded :=
    ⟨fun c _ => Fixes.call c,fun _ hf => Fixes.update fun p => (hf p).position⟩
  exact hbuilding.construct attachView c callback playerSizeMode videoHeight

end Recorded

/-! ### Runs of the five operations that move or record the position -/

def Op.isPlayback : Op → Bool
  | requestPlay _ | pause | simplePause | resume | seekTo _ => true
  | _ => false

/-- The native position when a step begins, progress before it included. -/
def World.positionAt (w : World) (s : Step) : ℚ := s.env.progress.getD w.player.mediaPlayer.position

/-- The step is a `pause()` that returns. -/
def Step.pauses (s : Step) : Bool :=
  s.op = .pause && !s.env.throws .pause && !s.env.throws .getPosition

/-- The native position at the last `pause()` that returned, 0 before the first. -/
def pausedAt (g : Generation) (w : World) (steps : List Step) : ℚ :=
  (steps.foldl (fun (state : World × ℚ) s =>
    (state.1.step g recording s,if s.pauses then state.1.positionAt s else state.2)) (w,0)).2

lemma pausedAt_concat (g : Generation) (w : World) (before : List Step) (s : Step) :
    pausedAt g w (before ++ [s]) =
      if s.pauses then (w.run g recording before).positionAt s else pausedAt g w before := by
  have hworld : ∀ (steps : List Step) (v : World) (position : ℚ),
      (steps.foldl (fun (state : World × ℚ) s =>
        (state.1.step g recording s,if s.pauses then state.1.positionAt s else state.2))
        (v,position)).1 = v.run g recording steps := by
    intro steps
    induction steps with
    | nil => exact fun v position => rfl
    | cons s steps ih => exact fun v position => ih (v.step g recording s) _
  unfold pausedAt
  rw [List.foldl_append,List.foldl_cons,List.foldl_nil,hworld]

lemma run_pause (w : World) : ZMediaPlayer.pause.run w =
    if w.env.throws .pause then .error (.thrownBy .pause) (w.called .pause)
    else if w.env.throws .getPosition then
      .error (.thrownBy .getPosition) ((w.called .pause).called .getPosition)
    else .ok () (((w.called .pause).called .getPosition).update fun p =>
      { p with position := w.player.mediaPlayer.position }) := by
  cases hpause : w.env.throws .pause <;> cases hget : w.env.throws .getPosition <;>
    simp [ZMediaPlayer.pause,run_call,run_getPosition,hpause,hget]

lemma pause_position (w : World) : (final (ZMediaPlayer.pause.run w)).player.position =
    if !w.env.throws .pause && !w.env.throws .getPosition then w.player.mediaPlayer.position
    else w.player.position := by
  rw [run_pause]
  by_cases hpause : w.env.throws .pause = true
  · simp [hpause]
  · by_cases hget : w.env.throws .getPosition = true <;> simp [hpause,hget]

/-- What `pause()` of the first generation writes down. -/
lemma step_pause (w : World) {s : Step} (hs : s.op = .pause) :
    (w.step .zMediaPlayer recording s).player.position =
      if s.pauses then w.positionAt s else w.player.position := by
  have hpauses : s.pauses = (!s.env.throws .pause && !s.env.throws .getPosition) := by
    simp [Step.pauses,hs]
  rw [World.step,run_exec_prog,hs,hpauses]
  simp only [Op.prog,Prog.exec_monadLift,Generation.pause]
  exact pause_position _

/-- No other of the five writes a position down. -/
lemma step_recorded (g : Generation) (w : World) {s : Step} (hop : s.op.isPlayback = true)
    (hs : s.op ≠ .pause) : (w.step g recording s).player.position = w.player.position := by
  have hkeeps : Prog.Keeps recorded (s.op.prog g) := by
    obtain ⟨op,env⟩ := s
    cases op with
    | requestPlay hasVideo => exact (Recorded.requestPlay hasVideo).bind fun _ => .pure _
    | simplePause => exact .lift (Fixes.call _)
    | resume => exact .lift (Recorded.resume g)
    | seekTo position => exact .lift (Recorded.setPosition position)
    | pause => exact absurd rfl hs
    | _ => simp [Op.isPlayback] at hop
  rw [World.step,run_exec_prog]
  exact hkeeps.exec (fun _ v => recorded.refl v) _

/-- The field `position` is the native position at the last `pause()`. -/
lemma run_recorded {w : World} (hw : w.player.position = 0) (steps : List Step)
    (hsteps : ∀ s ∈ steps, s.op.isPlayback = true) :
    (w.run .zMediaPlayer recording steps).player.position = pausedAt .zMediaPlayer w steps := by
  induction steps using List.reverseRecOn with
  | nil => exact hw
  | append_singleton steps s ih =>
    have hrest := ih fun t ht => hsteps t (by simp [ht])
    rw [run_concat,pausedAt_concat]
    by_cases hs : s.op = .pause
    · rw [step_pause _ hs,hrest]
    · have hpauses : s.pauses = false := by simp [Step.pauses,hs]
      rw [step_recorded _ _ (hsteps s (by simp)) hs,hpauses,hrest]
      rfl

/-! ### What `resume()` does to the native position -/

lemma run_restorePosition (w : World) : ZMediaPlayer.restorePosition.run w =
    if 0 < w.player.position then (MediaPlayer.setPosition w.player.position).run w
    else .ok () w := by
  by_cases hpositive : 0 < w.player.position <;> simp [ZMediaPlayer.restorePosition,hpositive]

lemma run_setPosition (position : ℚ) (w : World) : (MediaPlayer.setPosition position).run w =
    if w.env.throws (.setPosition position) then
      .error (.thrownBy (.setPosition position)) (w.called (.setPosition position))
    else .ok () ((w.called (.setPosition position)).update fun p =>
      { p with mediaPlayer := { p.mediaPlayer with position := position } }) := by
  cases h : w.env.throws (.setPosition position) <;> simp [MediaPlayer.setPosition,run_call,h]

lemma play_position (w : World) :
    (final (MediaPlayer.play.run w)).player.mediaPlayer.position = w.player.mediaPlayer.position :=
  Fixes.mediaPlayer_play (f := fun p => p.mediaPlayer.position) (fun _ _ => rfl) (fun _ _ => rfl) w

lemma resume_position (w : World) :
    (final (ZMediaPlayer.resume.run w)).player.mediaPlayer.position =
      if 0 < w.player.position ∧ w.env.throws (.setPosition w.player.position) = false then
        w.player.position
      else w.player.mediaPlayer.position := by
  unfold ZMediaPlayer.resume
  rw [EStateM.run_bind,run_restorePosition,run_setPosition]
  by_cases hpositive : 0 < w.player.position
  · by_cases hthrows : w.env.throws (.setPosition w.player.position) = true
    · simp [hpositive,hthrows]
    · rw [if_pos hpositive,if_neg hthrows,if_pos ⟨hpositive,Bool.eq_false_of_not_eq_true hthrows⟩]
      exact play_position _
  · simp only [hpositive,if_false,false_and]
    exact play_position w

/-- `resume()` keeps the native position exactly when it restores none, or the same. -/
lemma step_resume (g : Generation) (w : World) {s : Step} (hs : s.op = .resume) :
    (w.step g recording s).player.mediaPlayer.position = w.positionAt s ↔
      g = .zMediaPlayer2 ∨ w.player.position ≤ 0 ∨ w.player.position = w.positionAt s ∨
        s.env.throws (.setPosition w.player.position) = true := by
  rw [World.step,run_exec_prog,hs]
  simp only [Op.prog,Prog.exec_monadLift]
  cases g with
  | zMediaPlayer2 =>
    have hplay := play_position ((w.arrive s.env).observe (.entered .resume))
    exact iff_of_true hplay (.inl rfl)
  | zMediaPlayer =>
    have hposition : (final (ZMediaPlayer.resume.run
        ((w.arrive s.env).observe (.entered .resume)))).player.mediaPlayer.position =
        if 0 < w.player.position ∧ s.env.throws (.setPosition w.player.position) = false then
          w.player.position
        else w.positionAt s := resume_position _
    simp only [Generation.resume,hposition,reduceCtorEq,false_or]
    by_cases hpositive : 0 < w.player.position
    · by_cases hthrows : s.env.throws (.setPosition w.player.position) = true
      · simp [hthrows]
      · rw [if_pos ⟨hpositive,Bool.eq_false_of_not_eq_true hthrows⟩]
        simp [hthrows,not_le.mpr hpositive]
    · simp [hpositive,not_lt.mp hpositive]

/-- A fresh player has no position written down. -/
lemma Constructed.position {g : Generation} {callback : Bool} {w : World}
    (hw : Constructed g callback w) : w.player.position = 0 := by
  obtain ⟨c,playerSizeMode,videoHeight,env,-,hrun⟩ := hw
  have hsame := Recorded.construct c callback playerSizeMode videoHeight { env := env }
  rwa [hrun] at hsame

theorem resume_keeps_iff (g : Generation) (callback : Bool) (w : World) (steps : List Step)
    (hw : Constructed g callback w) (hsteps : ∀ s ∈ steps, s.op.isPlayback = true) :
    (∀ before s after, steps = before ++ s :: after → s.op = .resume →
      (w.run g recording (before ++ [s])).player.mediaPlayer.position =
        (w.run g recording before).positionAt s) ↔
    ∀ before s after, steps = before ++ s :: after → s.op = .resume →
      g = .zMediaPlayer2 ∨ pausedAt g w before ≤ 0 ∨
        pausedAt g w before = (w.run g recording before).positionAt s ∨
        s.env.throws (.setPosition (pausedAt g w before)) = true := by
  have hresume : ∀ before s after, steps = before ++ s :: after → s.op = .resume →
      ((w.run g recording (before ++ [s])).player.mediaPlayer.position =
        (w.run g recording before).positionAt s ↔
      g = .zMediaPlayer2 ∨ pausedAt g w before ≤ 0 ∨
        pausedAt g w before = (w.run g recording before).positionAt s ∨
        s.env.throws (.setPosition (pausedAt g w before)) = true) := by
    rintro before s after rfl hs
    rw [run_concat,step_resume g _ hs]
    cases g with
    | zMediaPlayer2 => simp
    | zMediaPlayer =>
      rw [run_recorded hw.position before fun t ht => hsteps t (by simp [ht])]
  constructor
  · intro h before s after hsplit hs
    exact (hresume before s after hsplit hs).mp (h before s after hsplit hs)
  · intro h before s after hsplit hs
    exact (hresume before s after hsplit hs).mpr (h before s after hsplit hs)

/-- A seek to the middle between `pause()` and `resume()` is undone. -/
theorem resume_undoes_seek :
    let before : List Step := [⟨.requestPlay true,{}⟩,⟨.pause,{ progress := some (1/10) }⟩,
      ⟨.seekTo (1/2),{}⟩]
    (ViewClass.audioPlayer.built.run .zMediaPlayer recording before).positionAt ⟨.resume,{}⟩ = 1/2 ∧
      (ViewClass.audioPlayer.built.run .zMediaPlayer recording
        (before ++ [⟨.resume,{}⟩])).player.mediaPlayer.position = 1/10 := by
  decide +kernel

/-- Nothing moves between `pause()` and `resume()`. -/
theorem resume_keeps_built :
    (ViewClass.audioPlayer.built.run .zMediaPlayer recording
      [⟨.pause,{ progress := some (1/10) }⟩,⟨.resume,{}⟩]).player.mediaPlayer.position = 1/10 := by
  have hkept := (resume_keeps_iff .zMediaPlayer true ViewClass.audioPlayer.built
    [⟨.pause,{ progress := some (1/10) }⟩,⟨.resume,{}⟩] (built_constructed .audioPlayer)
    (by simp [Op.isPlayback])).mpr ?_ [⟨.pause,{ progress := some (1/10) }⟩] ⟨.resume,{}⟩ [] rfl rfl
  · exact hkept.trans (by decide +kernel)
  · intro before s after hsplit hs
    -- the only resume is the second step
    rcases before with _ | ⟨first,_ | ⟨second,rest⟩⟩
    · obtain ⟨rfl,-⟩ := List.cons.inj hsplit
      cases hs
    · obtain ⟨rfl,hrest⟩ := List.cons.inj hsplit
      obtain ⟨rfl,-⟩ := List.cons.inj hrest
      exact .inr (.inr (.inl (by decide +kernel)))
    · simp at hsplit

end ZenMedia
