import ZenMedia.SurfaceRestart

/-! The flag `attached` against the surface of the view. The surface comes and goes on
its own; the player hears of it when a listener was registered, and then only of its
coming. -/
namespace ZenMedia
open Reentrant

/-- Whether `attachView` returns in a surface notification. -/
def Step.attachViewReturns (s : Step) (w : World) : Bool :=
  match ZMediaPlayer.attachView.run (s.attaching w) with
  | .ok _ _ => true
  | .error _ _ => false

/-- A view player with its surface. While `available`, `attachedSince` says whether
`attachView` has returned since the surface came. -/
structure Viewed where
  world : World
  available : Bool
  attachedSince : Bool
  /-- whether the constructor registered a listener -/
  listening : Bool

/-- What happens to the surface, and the requests of the client. -/
inductive SurfaceStep
  | surfaceAvailable (env : Env)
  | surfaceDestroyed
  | requestPlay (hasVideo : Bool) (env : Env)

namespace Viewed

/-- A player that its constructor has just left: it is listening unless it has attached
the views at once. -/
def fresh (w : World) (env : Env) (available : Bool) : Viewed where
  world := w
  available := available
  attachedSince := env.surfaceAvailable
  listening := !env.surfaceAvailable

/-- The listeners do nothing when the surface is destroyed. -/
def step (g : Generation) (v : Viewed) : SurfaceStep → Viewed
  | .surfaceAvailable env =>
    let s : Step := ⟨.handleSurfaceAvailable,env⟩
    if v.listening then
      { v with
        world := v.world.step g recording s
        available := true
        attachedSince := (v.available && v.attachedSince) || s.attachViewReturns v.world }
    else { v with available := true, attachedSince := v.available && v.attachedSince }
  | .surfaceDestroyed => { v with available := false }
  | .requestPlay hasVideo env =>
    { v with world := v.world.step g recording ⟨.requestPlay hasVideo,env⟩ }

def run (g : Generation) (v : Viewed) (steps : List SurfaceStep) : Viewed := steps.foldl (step g) v

def Truthful (v : Viewed) : Prop := v.world.player.attached = (v.available && v.attachedSince)

/-- The step is neither an `attachView` that throws on a player not attached nor the end of
the surface of an attached one. -/
def Harmless (v : Viewed) : SurfaceStep → Prop
  | .surfaceAvailable env => v.listening = true → v.world.player.attached = false →
    Step.attachViewReturns ⟨.handleSurfaceAvailable,env⟩ v.world = true
  | .surfaceDestroyed => v.world.player.attached = false
  | .requestPlay _ _ => True

lemma run_concat (g : Generation) (v : Viewed) (before : List SurfaceStep) (s : SurfaceStep) :
    v.run g (before ++ [s]) = (v.run g before).step g s := by
  simp [run]

/-- The fields of the view player across a step. -/
lemma step_player (g : Generation) (v : Viewed) (s : SurfaceStep)
    (hrunning : v.world.player.stopped = false) :
    (v.step g s).world.player.stopped = false ∧
      (v.step g s).world.player.attached =
        match s with
        | .surfaceAvailable _ => v.world.player.attached || v.listening
        | _ => v.world.player.attached := by
  cases s with
  | surfaceAvailable env =>
    have hsame := (handleSurfaceAvailable_records g v.world env).2.2
    cases hlistening : v.listening with
    | false => simp [step,hlistening,hrunning]
    | true =>
      simp only [step,hlistening,if_true]
      refine ⟨hsame.stopped.trans hrunning,?_⟩
      have hattached := hsame.attached
      rw [hrunning] at hattached
      exact hattached
  | surfaceDestroyed => exact ⟨hrunning,rfl⟩
  | requestPlay hasVideo env =>
    have hsame := (requestPlay_records g v.world env hasVideo).2
    exact ⟨hsame.stopped.trans hrunning,hsame.attached⟩

/-- A truthful player stays truthful in the harmless steps only. -/
lemma step_truthful (g : Generation) {v : Viewed} (s : SurfaceStep) (h : v.Truthful)
    (hrunning : v.world.player.stopped = false) :
    (v.step g s).Truthful ↔ v.Harmless s := by
  have hattached := (step_player g v s hrunning).2
  unfold Truthful at h ⊢
  rw [hattached]
  cases s with
  | surfaceAvailable env =>
    unfold step Harmless
    rw [h]
    cases v.listening <;> cases v.available && v.attachedSince <;> simp
  | surfaceDestroyed =>
    unfold step Harmless
    simp
  | requestPlay hasVideo env =>
    unfold step Harmless
    simp [h]

/-- The law over a run: the flag is truthful in every state; a request on a surface gone or
not attached only notes itself down and returns false; a failed `attachView` changes nothing. -/
structure TellsTruth (g : Generation) (v : Viewed) (steps : List SurfaceStep) : Prop where
  flag : ∀ before after, steps = before ++ after → (v.run g before).Truthful
  request : ∀ before hasVideo env after, steps = before ++ .requestPlay hasVideo env :: after →
    let u := v.run g before
    let x := (u.world.arrive env).observe (.entered (.requestPlay hasVideo))
    ¬(u.available = true ∧ u.attachedSince = true) →
      ((BaseViewPlayer.requestPlay hasVideo).exec recording).run x = .ok false (x.asked hasVideo)
  failure : ∀ before env after, steps = before ++ .surfaceAvailable env :: after →
    let u := v.run g before
    Step.attachViewReturns ⟨.handleSurfaceAvailable,env⟩ u.world = false →
      (u.step g (.surfaceAvailable env)).world.player.attached = u.world.player.attached ∧
      (u.step g (.surfaceAvailable env)).world.player.requestPlay = u.world.player.requestPlay

lemma run_running (g : Generation) {v : Viewed} (hrunning : v.world.player.stopped = false)
    (steps : List SurfaceStep) : (v.run g steps).world.player.stopped = false := by
  induction steps using List.reverseRecOn with
  | nil => exact hrunning
  | append_singleton steps s ih =>
    rw [run_concat]
    exact (step_player g _ s ih).1

/-- Truthful at first and harmless steps only: truthful throughout. -/
lemma run_truthful (g : Generation) {v : Viewed} (hrunning : v.world.player.stopped = false)
    (h : v.Truthful) (steps : List SurfaceStep)
    (hsteps : ∀ before s after, steps = before ++ s :: after → (v.run g before).Harmless s) :
    (v.run g steps).Truthful := by
  induction steps using List.reverseRecOn with
  | nil => exact h
  | append_singleton steps s ih =>
    have hbefore := ih fun before t after hsplit =>
      hsteps before t (after ++ [s]) (by simp [hsplit])
    rw [run_concat]
    exact (step_truthful g s hbefore (run_running g hrunning steps)).mpr (hsteps steps s [] rfl)

/-- A request on a view that is not attached. -/
lemma requestPlay_unattached {w : World} (h : w.player.attached = false) (hasVideo : Bool) :
    ((BaseViewPlayer.requestPlay hasVideo).exec recording).run w = .ok false (w.asked hasVideo) := by
  have hasked : (w.update fun p => { p with hasVideo := hasVideo }).update
      (fun p => { p with requestPlay := true }) = w.asked hasVideo := rfl
  have hsame : (w.asked hasVideo).player.attached = false := h
  simp [BaseViewPlayer.requestPlay,Prog.run_exec_attempt,BaseViewPlayer.isAttached,hasked,hsame]

/-- A notification never touches the request. -/
lemma step_requestPlay (g : Generation) (v : Viewed) (env : Env) :
    (v.step g (.surfaceAvailable env)).world.player.requestPlay = v.world.player.requestPlay := by
  have hsame := (handleSurfaceAvailable_records g v.world env).2.2
  unfold step
  cases v.listening with
  | false => rfl
  | true => exact hsame.requestPlay

lemma tellsTruth_iff (g : Generation) {v : Viewed} (hrunning : v.world.player.stopped = false)
    (steps : List SurfaceStep) :
    v.TellsTruth g steps ↔ v.Truthful ∧
      ∀ before s after, steps = before ++ s :: after → (v.run g before).Harmless s := by
  constructor
  · intro h
    refine ⟨h.flag [] steps rfl,fun before s after hsplit => ?_⟩
    have hbefore := h.flag before (s :: after) hsplit
    have hafter := h.flag (before ++ [s]) after (by simp [hsplit])
    rw [run_concat] at hafter
    exact (step_truthful g s hbefore (run_running g hrunning before)).mp hafter
  · rintro ⟨hfirst,hsteps⟩
    have htruthful : ∀ before after, steps = before ++ after → (v.run g before).Truthful := by
      intro before after hsplit
      refine run_truthful g hrunning hfirst before fun before' s after' hsplit' => ?_
      exact hsteps before' s (after' ++ after) (by simp [hsplit,hsplit'])
    refine ⟨htruthful,?_,?_⟩
    · intro before hasVideo env after hsplit u x hgone
      have hflag : u.Truthful := htruthful before _ hsplit
      have hgone' : (u.available && u.attachedSince) = false := by simpa using hgone
      have hunattached : x.player.attached = false := hflag.trans hgone'
      exact requestPlay_unattached hunattached hasVideo
    · intro before env after hsplit u hfails
      have hharmless : u.listening = true → u.world.player.attached = false →
          Step.attachViewReturns ⟨.handleSurfaceAvailable,env⟩ u.world = true :=
        hsteps before _ after hsplit
      have hattached : (u.step g (.surfaceAvailable env)).world.player.attached =
          (u.world.player.attached || u.listening) :=
        (step_player g u _ (run_running g hrunning before)).2
      refine ⟨?_,step_requestPlay g u env⟩
      rw [hfails] at hharmless
      rw [hattached]
      cases hlistening : u.listening <;> cases hflag : u.world.player.attached <;>
        simp_all

end Viewed

/-! ### What the constructors leave -/

/-- The frame of the environment. -/
def sameEnv : Frame World where
  rel w v := v.env = w.env
  refl _ := rfl
  trans h k := k.trans h

lemma sameEnv_call (c : Call) : Maintains sameEnv (call c) := by
  intro w
  rw [final_run_call]
  rfl

lemma sameEnv_ok {α : Type} {m : M α} {a : α} {w v : World} (hm : Maintains sameEnv m)
    (h : m.run w = .ok a v) : v.env = w.env := by
  have hsame := hm w
  rwa [h] at hsame

lemma sameEnv_building : Building sameEnv := ⟨fun c _ => sameEnv_call c,fun _ _ _ => rfl⟩

/-- `handleAttach` believes what the view answers. -/
lemma handleAttach_attached {w v : World} (h : ViewClass.handleAttach.run w = .ok () v) :
    v.player.attached = w.env.surfaceAvailable := by
  unfold ViewClass.handleAttach at h
  obtain ⟨_,w1,hcall,h⟩ := bind_eq_ok.mp h
  obtain ⟨-,rfl⟩ := (call_eq_ok w).mp hcall
  obtain ⟨_,_,hget,h⟩ := bind_eq_ok.mp h
  obtain ⟨rfl,rfl⟩ := EStateM.Result.ok.inj hget
  obtain ⟨_,_,hset,h⟩ := bind_eq_ok.mp h
  obtain ⟨rfl,rfl⟩ := EStateM.Result.ok.inj hset
  obtain ⟨b,_,hget,h⟩ := bind_eq_ok.mp h
  obtain ⟨rfl,rfl⟩ := EStateM.Result.ok.inj hget
  have hrest : Maintains untouched
      (if w.env.surfaceAvailable then ZMediaPlayer.attachView else call .addAttachListener) :=
    .ite Untouched.commands.attachView (Untouched.call rfl)
  have hcontrol := (hrest ((w.called .isAvailable).update fun p =>
    { p with attached := w.env.surfaceAvailable })).1
  have hfinal := congrArg final h
  rw [final_ok] at hfinal
  have hattached := congrArg Control.attached hcontrol
  rw [← hfinal]
  exact hattached

lemma construct_attached {c : ViewClass} (hc : c ≠ .audioPlayer) {callback : Bool}
    {playerSizeMode videoHeight : ℤ} {env : Env} {w : World}
    (h : (c.construct callback playerSizeMode videoHeight).run { env := env } = .ok () w) :
    w.player.attached = env.surfaceAvailable := by
  cases c with
  | audioPlayer => exact absurd rfl hc
  | _ =>
    obtain ⟨_,v,hv,hattach⟩ := bind_eq_ok.mp h
    have henv := sameEnv_ok (sameEnv_building.zMediaPlayer _ _ _ _ _ _) hv
    rw [handleAttach_attached hattach]
    exact congrArg Env.surfaceAvailable henv

theorem attached_truthful_iff (c : ViewClass) (callback : Bool) (playerSizeMode videoHeight : ℤ)
    (env : Env) (w : World) (available : Bool) (steps : List SurfaceStep)
    (hc : c ≠ .audioPlayer)
    (hw : (c.construct callback playerSizeMode videoHeight).run { env := env } = .ok () w) :
    (Viewed.fresh w env available).TellsTruth c.generation steps ↔
      (env.surfaceAvailable = true → available = true) ∧
      ∀ before s after, steps = before ++ s :: after →
        ((Viewed.fresh w env available).run c.generation before).Harmless s := by
  have hborn : Constructed c.generation callback w :=
    ⟨c,playerSizeMode,videoHeight,env,rfl,hw⟩
  have hrunning : (Viewed.fresh w env available).world.player.stopped = false := hborn.born.stopped
  have hfirst : (Viewed.fresh w env available).Truthful ↔
      (env.surfaceAvailable = true → available = true) := by
    unfold Viewed.Truthful Viewed.fresh
    rw [construct_attached hc hw]
    cases env.surfaceAvailable <;> cases available <;> simp
  rw [Viewed.tellsTruth_iff c.generation hrunning,hfirst]

/-- An `attachView` that throws leaves the flag set, and the next request is started. -/
theorem attached_after_failure :
    let failing : Env := { throws := fun c => decide (c = .attachViews) }
    let v := (Viewed.fresh ViewClass.textureViewPlayer.built {} false).run .zMediaPlayer
      [.surfaceAvailable failing]
    v.attachedSince = false ∧ v.world.player.attached = true ∧
      .start true ∈ (v.step .zMediaPlayer (.requestPlay true {})).world.log := by
  decide +kernel

/-- A request, then its surface. -/
theorem attached_truthful_built :
    (Viewed.fresh ViewClass.textureViewPlayer.built {} false).TellsTruth .zMediaPlayer
      [.requestPlay true {},.surfaceAvailable {}] := by
  refine (attached_truthful_iff .textureViewPlayer true 0 0 {} ViewClass.textureViewPlayer.built
    false _ (by decide) rfl).mpr ⟨by decide,?_⟩
  intro before s after hsplit
  rcases before with _ | ⟨first,_ | ⟨second,rest⟩⟩
  · obtain ⟨rfl,-⟩ := List.cons.inj hsplit
    trivial
  · obtain ⟨rfl,hrest⟩ := List.cons.inj hsplit
    obtain ⟨rfl,-⟩ := List.cons.inj hrest
    intro _ _
    decide +kernel
  · simp at hsplit

end ZenMedia
