import ZenMedia.Construction
import ZenMedia.RequestOrder

/-! A play request passes two latches: `attached` and `requestPlay` of the view
player, then `mPlaying` and `mPlayRequested` of the media player. Without a fault
and without `stop` it is neither lost nor replaced by an older one. -/
namespace ZenMedia
open Reentrant

/-- The operations by which a request, the view and the surfaces interleave. -/
def Op.isDelivery : Op → Bool
  | requestPlay _ | handleSurfaceAvailable | pause | simplePause | seekTo _ | resume
  | onSurfacesCreated | onSurfacesDestroyed => true
  | _ => false

/-- One of these operations in any environment in which no call throws. -/
def Smooth (s : Step) : Prop := s.op.isDelivery = true ∧ ∀ c, s.env.throws c = false

/-- The argument of the most recent `requestPlay`. -/
def nextRequest (last : Option Bool) (s : Step) : Option Bool :=
  match s.op with
  | .requestPlay hasVideo => some hasVideo
  | _ => last

def lastRequest (steps : List Step) : Option Bool := steps.foldl nextRequest none

/-- The player keeps the request until it is attached and has it loaded from then on. -/
structure Delivers (request : Option Bool) (w : World) : Prop where
  stocked : Stocked w
  running : w.player.stopped = false
  requestPlay : w.player.requestPlay = request.isSome
  hasVideo : ∀ hasVideo, request = some hasVideo → w.player.hasVideo = hasVideo
  loaded : ∀ hasVideo, request = some hasVideo → w.player.attached = true → Loaded hasVideo w

namespace Delivers
variable {request : Option Bool} {w v : World}

lemma keeps (h : Delivers request w) (hs : Stocked v) (hk : keepsRequest.rel w v)
    (hc : v.player.control = w.player.control) : Delivers request v := by
  simp only [Player.control,Control.mk.injEq] at hc
  obtain ⟨-,-,-,-,hstopped,hattached,hrequest,hvideo⟩ := hc
  refine ⟨hs,hstopped.trans h.running,hrequest.trans h.requestPlay,?_,?_⟩
  · exact fun b hb => hvideo.trans (h.hasVideo b hb)
  · exact fun b hb hatt => (h.loaded b hb (hattached ▸ hatt)).keeps hk

lemma command (h : Delivers request w) {m : M Unit} (hm : ∀ F, Commands F → Maintains F m) :
    Delivers request (final (m.run w)) :=
  h.keeps (hm _ Stocked.commands w h.stocked) (hm _ KeepsRequest.commands w)
    (hm _ Untouched.commands w).1

lemma enter (h : Delivers request w) (s : Step) :
    Delivers request ((w.arrive s.env).observe (.entered s.op)) where
  stocked := h.stocked
  running := h.running
  requestPlay := h.requestPlay
  hasVideo := h.hasVideo
  loaded b hb hatt := (h.loaded b hb hatt).keeps
    ⟨[.entered s.op],rfl,by simp [Obs.setsMedia],.inr fun hd => ⟨hd.1,hd.2⟩⟩

variable (react : Callback → World → World)

lemma requestPlay_step (h : Delivers request w) (hf : Faultless w) (hasVideo : Bool) :
    Delivers (some hasVideo)
      (final (((BaseViewPlayer.requestPlay hasVideo).exec react).run w)) := by
  rw [final_requestPlay]
  cases hatt : w.player.attached with
  | false =>
    rw [if_neg (by simp)]
    refine ⟨h.stocked,h.running,rfl,fun b hb => Option.some.inj hb,fun b _ hb => ?_⟩
    have hb' : w.player.attached = true := hb
    rw [hatt] at hb'
    contradiction
  | true =>
    have hfa : Faultless (w.asked hasVideo) := hf
    obtain ⟨v,hv,hloaded,hstocked⟩ := play_loads hfa h.stocked hasVideo
    have hc := (play_untouched hasVideo (w.asked hasVideo)).1
    rw [hv,final_ok] at hc
    rw [if_pos rfl,hv]
    simp only [Player.control,Control.mk.injEq] at hc
    obtain ⟨-,-,-,-,hstopped,-,hrequest,hvideo⟩ := hc
    refine ⟨hstocked,hstopped.trans h.running,hrequest,?_,?_⟩
    · exact fun b hb => hvideo.trans (Option.some.inj hb)
    · exact fun b hb _ => Option.some.inj hb ▸ hloaded

lemma handleSurfaceAvailable_step (h : Delivers request w) (hf : Faultless w) :
    Delivers request (final ((BaseViewPlayer.handleSurfaceAvailable.exec react).run w)) := by
  obtain ⟨_,u,hu,hfu⟩ := Faultless.attachView w.marked hf
  have hsu := Stocked.commands.attachView w.marked h.stocked
  have hcu := (Untouched.commands.attachView w.marked).1
  rw [hu,final_ok] at hsu hcu
  simp only [Player.control,Control.mk.injEq] at hcu
  obtain ⟨-,-,-,-,hstopped,-,hrequest,hvideo⟩ := hcu
  rw [final_handleSurfaceAvailable,if_neg (by simp [h.running]),run_attachAndPlay,hu]
  cases hreq : w.player.requestPlay with
  | false =>
    have hnone : request = none := by simpa [hreq] using h.requestPlay.symm
    subst hnone
    simp only [hrequest.trans hreq]
    exact ⟨hsu,hstopped.trans h.running,hrequest.trans h.requestPlay,by simp,by simp⟩
  | true =>
    obtain ⟨v,hv,hloaded,hstocked⟩ := play_loads hfu hsu u.player.hasVideo
    have hcv := (play_untouched u.player.hasVideo u).1
    rw [hv,final_ok] at hcv
    simp only [Player.control,Control.mk.injEq] at hcv
    obtain ⟨-,-,-,-,hstopped',-,hrequest',hvideo'⟩ := hcv
    simp only [hrequest.trans hreq,if_true,hv]
    have hsame : ∀ b, request = some b → u.player.hasVideo = b :=
      fun b hb => hvideo.trans (h.hasVideo b hb)
    refine ⟨hstocked,hstopped'.trans (hstopped.trans h.running),
      hrequest'.trans (hrequest.trans h.requestPlay),?_,?_⟩
    · exact fun b hb => hvideo'.trans (hsame b hb)
    · exact fun b hb _ => hsame b hb ▸ hloaded

theorem step (h : Delivers request w) (g : Generation) {s : Step} (hs : Smooth s) :
    Delivers (nextRequest request s) (w.step g react s) := by
  obtain ⟨hop,hthrow⟩ := hs
  have he := h.enter s
  have hf : Faultless ((w.arrive s.env).observe (.entered s.op)) := hthrow
  simp only [World.step,run_exec_prog]
  generalize (w.arrive s.env).observe (.entered s.op) = v at he hf ⊢
  obtain ⟨op,env⟩ := s
  cases op with
  | requestPlay hasVideo =>
    have hstep := he.requestPlay_step react hf hasVideo
    simp only [Op.prog,Prog.exec_bind,Prog.exec_pure,final_run_bind_pure]
    exact hstep
  | handleSurfaceAvailable => exact he.handleSurfaceAvailable_step react hf
  | pause =>
    simp only [Op.prog,Prog.exec_monadLift]
    exact he.command fun _ hF => hF.pause g
  | simplePause =>
    simp only [Op.prog,Prog.exec_monadLift]
    exact he.command fun _ hF => hF.call _ rfl
  | resume =>
    simp only [Op.prog,Prog.exec_monadLift]
    exact he.command fun _ hF => hF.resume g
  | seekTo position =>
    simp only [Op.prog,Prog.exec_monadLift]
    exact he.command fun _ hF => hF.setPosition position
  | onSurfacesCreated =>
    simp only [Op.prog,Prog.exec_monadLift]
    exact he.command fun _ hF => hF.onSurfacesCreated
  | onSurfacesDestroyed =>
    simp only [Op.prog,Prog.exec_monadLift]
    exact he.command fun _ hF => hF.onSurfacesDestroyed
  | _ => simp [Op.isDelivery] at hop

end Delivers

lemma Born.delivers {callback : Bool} {w : World} (h : Born callback w) : Delivers none w where
  stocked media hm := by simp [h.idle.mMedia] at hm
  running := h.stopped
  requestPlay := h.requestPlay
  hasVideo := by simp
  loaded := by simp

theorem run_delivers (g : Generation) (react : Callback → World → World) {w : World}
    (hw : Delivers none w) {steps : List Step} (hs : ∀ s ∈ steps, Smooth s) :
    Delivers (lastRequest steps) (w.run g react steps) := by
  induction steps using List.reverseRecOn with
  | nil => exact hw
  | append_singleton steps s ih =>
    have hlast : lastRequest (steps ++ [s]) = nextRequest (lastRequest steps) s := by
      simp [lastRequest]
    rw [run_concat,hlast]
    exact (ih fun x hx => hs x (by simp [hx])).step react g (hs s (by simp))

/-- A deferred request is played by the next `onSurfacesCreated` that finds the
surfaces not waiting. -/
lemma Deferred.plays {v : World} (h : Deferred v) (g : Generation)
    (react : Callback → World → World) {env : Env} (hthrow : ∀ c, env.throws c = false)
    (hready : env.window.getD v.player.mediaPlayer.mWindow ≠ .attached) :
    ∃ new, (v.step g react ⟨.onSurfacesCreated,env⟩).log = v.log ++ new ∧ ∃ o ∈ new, o.plays := by
  let x := (v.arrive env).observe (.entered .onSurfacesCreated)
  have hfx : Faultless x := hthrow
  have hp : x.player.mediaPlayer.mPlaying = false := h.mPlaying
  have hr : x.player.mediaPlayer.mPlayRequested = true := h.mPlayRequested
  have hw : x.player.mediaPlayer.mWindow ≠ .attached := hready
  have hstep : v.step g react ⟨.onSurfacesCreated,env⟩ =
      final (MediaPlayer.startNative.run x.requested) := by
    have hplay := run_play hfx
    rw [hp,if_neg (by simp),if_neg hw] at hplay
    simp only [World.step,run_exec_prog,Op.prog,Prog.exec_monadLift]
    change final (MediaPlayer.onSurfacesCreated.run x) = _
    rw [← hplay]
    simp [MediaPlayer.onSurfacesCreated,hp,hr]
  rw [hstep,KeepsRequest.startNative_log]
  refine ⟨[.entered .onSurfacesCreated,.call .play x.player.mediaPlayer.isReleased,
    .call .nativePlay x.requested.player.mediaPlayer.isReleased],?_,
    .call .nativePlay x.requested.player.mediaPlayer.isReleased,by simp,rfl⟩
  simp [World.requested,x]

theorem requests_delivered (g : Generation) (callback : Bool) (w : World)
    (hw : Constructed g callback w) (react : Callback → World → World) (steps : List Step)
    (hs : ∀ s ∈ steps, Smooth s) :
    (∀ hasVideo, lastRequest steps = some hasVideo →
      (w.run g react steps).player.attached = true →
        Loaded hasVideo (w.run g react steps)) ∧
    (Deferred (w.run g react steps) → ∀ env : Env, (∀ c, env.throws c = false) →
      env.window.getD (w.run g react steps).player.mediaPlayer.mWindow ≠ .attached →
        ∃ new, ((w.run g react steps).step g react ⟨.onSurfacesCreated,env⟩).log =
          (w.run g react steps).log ++ new ∧ ∃ o ∈ new, o.plays) ∧
    (lastRequest steps = none → (w.run g react steps).player.attached = false →
      ∀ hasVideo e₁ e₂, Still e₁ → Still e₂ →
        ((w.run g react steps).run g react
          [⟨.requestPlay hasVideo,e₁⟩,⟨.handleSurfaceAvailable,e₂⟩]).player =
        ((w.run g react steps).run g react
          [⟨.handleSurfaceAvailable,e₂⟩,⟨.requestPlay hasVideo,e₁⟩]).player) := by
  have hd := run_delivers g react hw.born.delivers hs
  refine ⟨hd.loaded,fun hdef env hthrow hready => hdef.plays g react hthrow hready,?_⟩
  intro hnone hatt hasVideo e₁ e₂ h₁ h₂
  have hreq := hd.requestPlay
  rw [hnone] at hreq
  exact order_irrelevant g react hd.stocked hd.running hatt hreq h₁ h₂

/-- A request made before the surface exists, met by surfaces that are still waiting. -/
theorem requests_delivered_built :
    Loaded false (ViewClass.textureViewPlayer.built.run .zMediaPlayer recording
      [⟨.requestPlay true,{}⟩,⟨.requestPlay false,{}⟩,⟨.handleSurfaceAvailable,{}⟩,⟨.pause,{}⟩]) := by
  refine (requests_delivered .zMediaPlayer true ViewClass.textureViewPlayer.built
    (built_constructed .textureViewPlayer) recording _ ?_).1 false rfl (by decide)
  simp [Smooth,Op.isDelivery]

end ZenMedia
