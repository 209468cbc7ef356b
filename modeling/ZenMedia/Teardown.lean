import ZenMedia.FaultlessRuns

/-! What `stop` does to a player: the calls of a teardown that completes and the
state it leaves, and what no teardown touches, however far it gets. -/
namespace ZenMedia
open Reentrant

/-- The calls of `MediaPlayer.onReleaseNative`. -/
def MediaPlayer.releaseCalls (p : MediaPlayer) : List Obs :=
  p.mMedia.toList.map (fun media => .call (.releaseMedia media) true) ++ [.call .nativeRelease true]

namespace Player

/-- What `tearDown` calls before `mediaPlayer.release()`. -/
def stopCalls (p : Player) : List Call :=
  [.removeHandler,.removeCallbacksAndMessages] ++
    (if p.playerView then [.setKeepScreenOn] else []) ++
    [.stop,.nativeStop,.getVLCVout,.detachViews,.setCallback]

/-- The calls of `tearDown`, when none throws. -/
def tearDownCalls (p : Player) : List Obs :=
  let released := p.mediaPlayer.isReleased
  p.stopCalls.map (fun c => .call c released) ++ .call .release released ::
    if p.mediaPlayer.mNativeRefCount = 1 then p.mediaPlayer.releaseCalls else []

/-- The player before `mediaPlayer.release()`. -/
def detached (p : Player) : Player :=
  { p with
    mediaPlayer := { p.mediaPlayer with mPlayRequested := false, mPlaying := false, mWindow := .init }
    eventHandler := { p.eventHandler with registered := false }
    callBack := false
    stopped := true }

end Player

namespace ZMediaPlayer

/-- `tearDown` up to `mediaPlayer.release()`. -/
def beforeRelease : M Unit := do
  update fun p => { p with stopped := true }
  EventHandler.removeHandler
  call .removeCallbacksAndMessages
  update fun p => { p with callBack := false }
  releaseScreen
  MediaPlayer.stop
  call .getVLCVout
  AWindow.detachViews
  call .setCallback

lemma tearDown_eq : tearDown = beforeRelease >>= fun _ => MediaPlayer.release := by
  simp only [tearDown,beforeRelease,bind_assoc]

end ZMediaPlayer

/-! ### Laws of a teardown -/

/-- The calls of `beforeRelease`, the one to the view apart. -/
def Call.dismantles : Call → Bool
  | removeHandler | removeCallbacksAndMessages | stop | nativeStop | getVLCVout | detachViews => true
  | setVideoTrackEnabled | setCallback => true
  | _ => false

/-- Nothing differs that `beforeRelease` leaves alone; `stopped` is only set and `callBack`
only cleared. -/
structure SameHoldings (p q : Player) : Prop where
  mOwner : q.eventHandler.mOwner = p.eventHandler.mOwner
  playerView : q.playerView = p.playerView
  attached : q.attached = p.attached
  requestPlay : q.requestPlay = p.requestPlay
  hasVideo : q.hasVideo = p.hasVideo
  mNativeRefCount : q.mediaPlayer.mNativeRefCount = p.mediaPlayer.mNativeRefCount
  mMedia : q.mediaPlayer.mMedia = p.mediaPlayer.mMedia
  libVLCRefCount : q.libVLCRefCount = p.libVLCRefCount
  created : q.created = p.created
  refs : q.refs = p.refs
  stopped : p.stopped = true → q.stopped = true
  callBack : p.callBack = false → q.callBack = false

/-- A law of code that holds of the steps of `beforeRelease`. -/
structure Dismantling (Q : ∀ α : Type, M α → Prop) : Prop extends Sequential Q where
  call : ∀ c, c.dismantles = true → Q Unit (call c)
  screen : Q Unit ZMediaPlayer.releaseScreen
  update : ∀ f, (∀ p, SameHoldings p (f p)) → Q Unit (update f)

namespace Dismantling
variable {Q : ∀ α : Type, M α → Prop} (h : Dismantling Q)
include h

lemma mediaPlayer_stop : Q Unit MediaPlayer.stop := by
  refine h.bind (h.call _ rfl) fun _ => h.bind (h.update _ ?_) fun _ => ?_
  · exact fun _ => ⟨rfl,rfl,rfl,rfl,rfl,rfl,rfl,rfl,rfl,rfl,id,id⟩
  · refine h.bind (h.update _ ?_) fun _ => h.call _ rfl
    exact fun _ => ⟨rfl,rfl,rfl,rfl,rfl,rfl,rfl,rfl,rfl,rfl,id,id⟩

lemma detachViews : Q Unit AWindow.detachViews := by
  refine h.bind (h.call _ rfl) fun _ => h.bind h.player fun _ => h.ite (h.pure _) ?_
  refine h.bind (h.update _ ?_) fun _ => h.bind h.player fun _ => h.ite (h.call _ rfl) (h.pure _)
  exact fun _ => ⟨rfl,rfl,rfl,rfl,rfl,rfl,rfl,rfl,rfl,rfl,id,id⟩

lemma beforeRelease : Q Unit ZMediaPlayer.beforeRelease := by
  have hhandler : Q Unit EventHandler.removeHandler := by
    refine h.bind (h.call _ rfl) fun _ => h.update _ ?_
    exact fun _ => ⟨rfl,rfl,rfl,rfl,rfl,rfl,rfl,rfl,rfl,rfl,id,id⟩
  refine h.bind (h.update _ ?_) fun _ => h.bind hhandler fun _ => ?_
  · exact fun _ => ⟨rfl,rfl,rfl,rfl,rfl,rfl,rfl,rfl,rfl,rfl,fun _ => rfl,id⟩
  refine h.bind (h.call _ rfl) fun _ => h.bind (h.update _ ?_) fun _ => h.bind h.screen fun _ => ?_
  · exact fun _ => ⟨rfl,rfl,rfl,rfl,rfl,rfl,rfl,rfl,rfl,rfl,id,fun _ => rfl⟩
  refine h.bind h.mediaPlayer_stop fun _ => h.bind (h.call _ rfl) fun _ => ?_
  exact h.bind h.detachViews fun _ => h.call _ rfl

/-- The whole teardown, for a law that the release of the media player keeps as well. -/
lemma tearDown (hcall : Q Unit (ZenMedia.call .release))
    (hcount : Q Unit (updateMediaPlayer fun p => { p with mNativeRefCount := p.mNativeRefCount - 1 }))
    (hnative : Q Unit MediaPlayer.onReleaseNative) : Q Unit ZMediaPlayer.tearDown := by
  rw [ZMediaPlayer.tearDown_eq]
  refine h.bind h.beforeRelease fun _ => h.bind hcall fun _ => ?_
  refine h.bind h.player fun _ => h.ite (h.pure _) ?_
  exact h.bind hcount fun _ => h.bind h.player fun _ => h.ite hnative (h.pure _)

end Dismantling

/-- In the states of `I` no call throws, but possibly the one to the view. -/
structure Reliable (I : World → Prop) : Prop where
  call : ∀ c, c ≠ .setKeepScreenOn → Returns I (call c)
  update : ∀ f, (∀ p, (f p).playerView = p.playerView) → Returns I (update f)

namespace Reliable
variable {I : World → Prop} (h : Reliable I)
include h

lemma releaseMedia : Returns I MediaPlayer.releaseMedia :=
  (Returns.sequential I).releaseMedia fun _ =>
    .bind (h.call _ (by simp)) fun _ => h.update _ fun _ => rfl

lemma tearDown (hscreen : Returns I ZMediaPlayer.releaseScreen) :
    Returns I ZMediaPlayer.tearDown := by
  have hdismantling : Dismantling fun _ m => Returns I m := by
    refine ⟨Returns.sequential I,fun c hc => h.call c ?_,hscreen,fun f hf => h.update f fun p => ?_⟩
    · rintro rfl
      cases hc
    · exact (hf p).playerView
  refine hdismantling.tearDown (h.call _ (by simp)) (h.update _ fun _ => rfl) ?_
  exact h.releaseMedia.bind fun _ => h.call _ (by simp)

end Reliable

/-- A teardown in which nothing throws comes to its end. -/
lemma Faultless.tearDown : Returns Faultless ZMediaPlayer.tearDown := by
  have hreliable : Reliable Faultless := ⟨fun c _ => Faultless.call c,fun f _ => Faultless.update f⟩
  exact hreliable.tearDown (Faultless.player.bind fun _ => .ite (Faultless.call _) (.pure _))

/-! ### A teardown that completes -/

/-- The player behind a completed teardown. -/
structure TornDown (p q : Player) : Prop where
  control : q.control = { p.control with
    eventHandler := { p.eventHandler with registered := false }
    mNativeRefCount := p.mediaPlayer.mNativeRefCount - 1
    callBack := false
    stopped := true }
  mPlaying : q.mediaPlayer.mPlaying = false
  mPlayRequested : q.mediaPlayer.mPlayRequested = false
  mWindow : q.mediaPlayer.mWindow = .init

section completed
variable {w v : World} {u : Unit}

lemma releaseScreen_ok (h : ZMediaPlayer.releaseScreen.run w = .ok u v) :
    v.player = w.player ∧ v.env = w.env ∧ v.log = w.log ++
      if w.player.playerView then [.call .setKeepScreenOn w.player.mediaPlayer.isReleased] else [] := by
  simp only [ZMediaPlayer.releaseScreen,bind_eq_ok,run_player,EStateM.Result.ok.injEq] at h
  obtain ⟨_,_,⟨rfl,rfl⟩,h⟩ := h
  cases hview : w.player.playerView with
  | false =>
    rw [hview] at h
    obtain ⟨-,rfl⟩ := EStateM.Result.ok.inj h
    simp
  | true =>
    rw [hview] at h
    obtain ⟨-,rfl⟩ := (call_eq_ok _).mp h
    simp

lemma mediaPlayer_stop_ok (h : MediaPlayer.stop.run w = .ok u v) :
    v.player = { w.player with
      mediaPlayer := { w.player.mediaPlayer with mPlayRequested := false, mPlaying := false } } ∧
    v.env = w.env ∧ v.log = w.log ++ [.call .stop w.player.mediaPlayer.isReleased,
      .call .nativeStop w.player.mediaPlayer.isReleased] := by
  simp only [MediaPlayer.stop,bind_eq_ok,call_eq_ok,run_updateMediaPlayer,
    EStateM.Result.ok.injEq] at h
  obtain ⟨-,_,⟨-,rfl⟩,-,_,⟨-,rfl⟩,-,_,⟨-,rfl⟩,-,rfl⟩ := h
  exact ⟨rfl,rfl,List.append_assoc _ [_] [_]⟩

lemma detachViews_ok (hplaying : w.player.mediaPlayer.mPlaying = false)
    (h : AWindow.detachViews.run w = .ok u v) :
    v.player = { w.player with
      mediaPlayer := { w.player.mediaPlayer with mWindow := .init } } ∧
    v.env = w.env ∧ v.log = w.log ++ [.call .detachViews w.player.mediaPlayer.isReleased] := by
  simp only [AWindow.detachViews,bind_eq_ok,call_eq_ok,run_player,EStateM.Result.ok.injEq] at h
  obtain ⟨-,_,⟨-,rfl⟩,_,_,⟨rfl,rfl⟩,h⟩ := h
  by_cases hinit : w.player.mediaPlayer.mWindow = .init
  · simp only [World.called_player,hinit,if_true] at h
    obtain ⟨-,rfl⟩ := EStateM.Result.ok.inj h
    refine ⟨?_,rfl,rfl⟩
    rw [← hinit]
    rfl
  · simp [hinit,MediaPlayer.onSurfacesDestroyed,hplaying] at h
    subst h
    exact ⟨rfl,rfl,rfl⟩

lemma releaseMedia_ok (h : MediaPlayer.releaseMedia.run w = .ok u v) :
    (∃ refs, v.player = { w.player with refs := refs }) ∧ v.env = w.env ∧
      v.log = w.log ++ w.player.mediaPlayer.mMedia.toList.map fun media =>
        .call (.releaseMedia media) w.player.mediaPlayer.isReleased := by
  simp only [MediaPlayer.releaseMedia,bind_eq_ok,run_player,EStateM.Result.ok.injEq] at h
  obtain ⟨_,_,⟨rfl,rfl⟩,h⟩ := h
  cases hm : w.player.mediaPlayer.mMedia with
  | none =>
    rw [hm] at h
    obtain ⟨-,rfl⟩ := EStateM.Result.ok.inj h
    exact ⟨⟨_,rfl⟩,rfl,by simp⟩
  | some media =>
    rw [hm] at h
    simp only [Media.release,bind_eq_ok,call_eq_ok,run_update,EStateM.Result.ok.injEq] at h
    obtain ⟨-,_,⟨-,rfl⟩,-,rfl⟩ := h
    exact ⟨⟨_,rfl⟩,rfl,by simp⟩

lemma release_ok (h : MediaPlayer.release.run w = .ok u v) :
    (∃ refs, v.player = { w.player with
      mediaPlayer := { w.player.mediaPlayer with
        mNativeRefCount := w.player.mediaPlayer.mNativeRefCount - 1 }
      refs := refs }) ∧
    v.env = w.env ∧ v.log = w.log ++ ([.call .release w.player.mediaPlayer.isReleased] ++
      if w.player.mediaPlayer.mNativeRefCount = 1 then w.player.mediaPlayer.releaseCalls else []) := by
  simp only [MediaPlayer.release,bind_eq_ok,call_eq_ok,run_player,EStateM.Result.ok.injEq] at h
  obtain ⟨-,_,⟨-,rfl⟩,_,_,⟨rfl,rfl⟩,h⟩ := h
  rcases hcount : w.player.mediaPlayer.mNativeRefCount with _ | n
  · simp [MediaPlayer.isReleased,hcount] at h
    subst h
    refine ⟨⟨w.player.refs,?_⟩,rfl,by simp⟩
    have : 0 - 1 = w.player.mediaPlayer.mNativeRefCount := by omega
    rw [this]
    rfl
  · rw [if_neg (by simp [MediaPlayer.isReleased,hcount])] at h
    simp only [bind_eq_ok,run_updateMediaPlayer,run_player,EStateM.Result.ok.injEq] at h
    obtain ⟨-,_,⟨-,rfl⟩,_,_,⟨rfl,rfl⟩,h⟩ := h
    cases n with
    | zero =>
      rw [if_pos (by simp [MediaPlayer.isReleased,hcount])] at h
      simp only [MediaPlayer.onReleaseNative,bind_eq_ok,call_eq_ok] at h
      obtain ⟨_,x,hmedia,-,rfl⟩ := h
      obtain ⟨⟨refs,hp⟩,he,hl⟩ := releaseMedia_ok hmedia
      refine ⟨⟨refs,hp.trans (by simp [hcount])⟩,he,?_⟩
      simp [hl,hp,hcount,MediaPlayer.releaseCalls,MediaPlayer.isReleased]
    | succ n =>
      rw [if_neg (by simp [MediaPlayer.isReleased,hcount])] at h
      obtain ⟨-,rfl⟩ := EStateM.Result.ok.inj h
      exact ⟨⟨w.player.refs,by simp [hcount]⟩,rfl,by simp⟩

lemma beforeRelease_ok (h : ZMediaPlayer.beforeRelease.run w = .ok u v) :
    v.player = w.player.detached ∧ v.env = w.env ∧
      v.log = w.log ++ w.player.stopCalls.map fun c => .call c w.player.mediaPlayer.isReleased := by
  simp only [ZMediaPlayer.beforeRelease,EventHandler.removeHandler,bind_eq_ok,call_eq_ok,run_update,
    run_updateHandler,EStateM.Result.ok.injEq,exists_const,true_and,exists_eq_left'] at h
  obtain ⟨_,⟨_,⟨-,rfl⟩,rfl⟩,_,⟨-,rfl⟩,_,w1,hscreen,_,w2,hstop,_,⟨-,rfl⟩,_,w3,hviews,-,rfl⟩ := h
  obtain ⟨hp1,he1,hl1⟩ := releaseScreen_ok hscreen
  obtain ⟨hp2,he2,hl2⟩ := mediaPlayer_stop_ok hstop
  obtain ⟨hp3,he3,hl3⟩ := detachViews_ok (by simp [hp2]) hviews
  simp only [World.called_player,World.update_player,World.called_env,World.update_env,
    World.called_log,World.update_log] at hp1 he1 hl1 hp2 he2 hl2 hp3 he3 hl3
  refine ⟨?_,by simp [he3,he2,he1],?_⟩
  · simp [hp3,hp2,hp1,Player.detached]
  · by_cases hview : w.player.playerView = true <;>
      simp [hp3,hl3,hp2,hl2,hp1,hl1,hview,Player.stopCalls,MediaPlayer.isReleased]

/-- The whole teardown. -/
theorem tearDown_ok (h : ZMediaPlayer.tearDown.run w = .ok u v) :
    TornDown w.player v.player ∧ v.env = w.env ∧ v.log = w.log ++ w.player.tearDownCalls := by
  rw [ZMediaPlayer.tearDown_eq] at h
  obtain ⟨_,w1,hbefore,hrelease⟩ := bind_eq_ok.mp h
  obtain ⟨hp,he,hl⟩ := beforeRelease_ok hbefore
  obtain ⟨⟨refs,hp'⟩,he',hl'⟩ := release_ok hrelease
  refine ⟨?_,he'.trans he,?_⟩
  · rw [hp',hp]
    exact ⟨rfl,rfl,rfl,rfl⟩
  · rw [hl',hl,hp,List.append_assoc]
    rfl

lemma run_stop (w : World) : ZMediaPlayer.stop.run w =
    if w.player.stopped then .ok () w else ZMediaPlayer.tearDown.run w := by
  cases h : w.player.stopped <;> simp [ZMediaPlayer.stop,ZMediaPlayer.isStopped,h]

lemma tearDownCalls_record (p : Player) : p.tearDownCalls.filter Obs.isRecord = [] := by
  have hrelease : p.mediaPlayer.releaseCalls.filter Obs.isRecord = [] := by
    cases hm : p.mediaPlayer.mMedia <;> simp [MediaPlayer.releaseCalls,hm,Obs.isRecord]
  by_cases hcount : p.mediaPlayer.mNativeRefCount = 1 <;>
    simp [Player.tearDownCalls,List.filter_map,Function.comp_def,hcount,hrelease,Obs.isRecord]

end completed

/-! ### What no teardown touches, even if it throws -/

/-- The record, the environment, the owner and the fields of the view player stay; a stopped
player stays stopped and a cleared callback cleared. -/
structure Standing (w v : World) : Prop where
  record : v.record = w.record
  env : v.env = w.env
  mOwner : v.player.eventHandler.mOwner = w.player.eventHandler.mOwner
  attached : v.player.attached = w.player.attached
  requestPlay : v.player.requestPlay = w.player.requestPlay
  hasVideo : v.player.hasVideo = w.player.hasVideo
  stopped : w.player.stopped = true → v.player.stopped = true
  callBack : w.player.callBack = false → v.player.callBack = false

def standing : Frame World where
  rel := Standing
  refl _ := ⟨rfl,rfl,rfl,rfl,rfl,rfl,id,id⟩
  trans h k := ⟨k.record.trans h.record,k.env.trans h.env,k.mOwner.trans h.mOwner,
    k.attached.trans h.attached,k.requestPlay.trans h.requestPlay,k.hasVideo.trans h.hasVideo,
    k.stopped ∘ h.stopped,k.callBack ∘ h.callBack⟩

namespace Standing

lemma call (c : Call) : Maintains standing (call c) := by
  intro w
  rw [final_run_call]
  exact ⟨by simp,rfl,rfl,rfl,rfl,rfl,id,id⟩

lemma update {f : Player → Player} (h : ∀ w : World, Standing w (w.update f)) :
    Maintains standing (update f) := h

/-- A teardown, however far it gets. -/
lemma tearDown : Maintains standing ZMediaPlayer.tearDown := by
  have hdismantling : Dismantling fun _ m => Maintains standing m := by
    refine ⟨Maintains.sequential _,fun c _ => call c,?_,fun f hf => update fun w => ?_⟩
    · exact (maintains_player _).bind fun _ => .ite (call _) (.pure _)
    · have hsame := hf w.player
      exact ⟨rfl,rfl,hsame.mOwner,hsame.attached,hsame.requestPlay,hsame.hasVideo,hsame.stopped,
        hsame.callBack⟩
  have hmedia : Maintains standing MediaPlayer.releaseMedia :=
    (Maintains.sequential _).releaseMedia fun _ =>
      .bind (call _) fun _ => update fun _ => ⟨rfl,rfl,rfl,rfl,rfl,rfl,id,id⟩
  refine hdismantling.tearDown (call _) (update fun _ => ⟨rfl,rfl,rfl,rfl,rfl,rfl,id,id⟩) ?_
  exact hmedia.bind fun _ => call _

end Standing

/-- A stop, completed or not, marks the player as stopped. -/
lemma stop_standing (w : World) :
    standing.rel (w.update fun p => { p with stopped := true }) (final (ZMediaPlayer.stop.run w)) := by
  cases hs : w.player.stopped with
  | true =>
    rw [run_stop,hs,if_pos rfl,final_ok]
    exact ⟨rfl,rfl,rfl,rfl,rfl,rfl,fun _ => hs,id⟩
  | false =>
    rw [run_stop,hs,if_neg (by simp)]
    exact Standing.tearDown (w.update fun p => { p with stopped := true })

/-! ### A teardown that is cut short -/

def Obs.releases : Obs → Bool
  | call .release _ => true
  | _ => false

/-- The media player keeps its reference and is not told to release. -/
def unreleased : Frame World where
  rel w v := v.player.mediaPlayer.mNativeRefCount = w.player.mediaPlayer.mNativeRefCount ∧
    Appends (fun o => o.releases = false) w v
  refl w := ⟨rfl,.refl w⟩
  trans h k := ⟨k.1.trans h.1,h.2.trans k.2⟩

namespace Unreleased

lemma call {c : Call} (hc : c ≠ .release) : Maintains unreleased (call c) := by
  intro w
  rw [final_run_call]
  refine ⟨rfl,.one rfl ?_⟩
  cases c <;> simp_all [Obs.releases]

lemma update {f : Player → Player}
    (h : ∀ p, (f p).mediaPlayer.mNativeRefCount = p.mediaPlayer.mNativeRefCount) :
    Maintains unreleased (update f) := fun w => ⟨h w.player,.refl _⟩

lemma beforeRelease : Maintains unreleased ZMediaPlayer.beforeRelease := by
  have hdismantling : Dismantling fun _ m => Maintains unreleased m := by
    refine ⟨Maintains.sequential _,fun c hc => call ?_,?_,fun f hf => update fun p => ?_⟩
    · rintro rfl
      cases hc
    · exact (maintains_player _).bind fun _ => .ite (call (by simp)) (.pure _)
    · exact (hf p).mNativeRefCount
  exact hdismantling.beforeRelease

end Unreleased

section quiet
variable {w v : World} {u : Unit}

lemma releaseScreen_quiet (h : ZMediaPlayer.releaseScreen.run w = .ok u v)
    (hview : w.player.playerView = true) : w.env.throws .setKeepScreenOn = false := by
  simp only [ZMediaPlayer.releaseScreen,bind_eq_ok,run_player,EStateM.Result.ok.injEq] at h
  obtain ⟨_,_,⟨rfl,rfl⟩,h⟩ := h
  rw [hview] at h
  exact ((call_eq_ok _).mp h).1

lemma mediaPlayer_stop_quiet (h : MediaPlayer.stop.run w = .ok u v) :
    w.env.throws .stop = false ∧ w.env.throws .nativeStop = false := by
  simp only [MediaPlayer.stop,bind_eq_ok,call_eq_ok,run_updateMediaPlayer,
    EStateM.Result.ok.injEq] at h
  obtain ⟨_,_,⟨hstop,rfl⟩,_,_,⟨-,rfl⟩,_,_,⟨-,rfl⟩,hnative,-⟩ := h
  exact ⟨hstop,hnative⟩

lemma detachViews_quiet (h : AWindow.detachViews.run w = .ok u v) :
    w.env.throws .detachViews = false := by
  obtain ⟨_,_,hcall,-⟩ := bind_eq_ok.mp h
  exact ((call_eq_ok _).mp hcall).1

/-- When the release is reached, nothing called before it has thrown. -/
lemma beforeRelease_quiet (h : ZMediaPlayer.beforeRelease.run w = .ok u v) :
    ∀ c ∈ w.player.stopCalls, w.env.throws c = false := by
  simp only [ZMediaPlayer.beforeRelease,EventHandler.removeHandler,bind_eq_ok,call_eq_ok,run_update,
    run_updateHandler,EStateM.Result.ok.injEq,exists_const,true_and,exists_eq_left'] at h
  obtain ⟨_,⟨_,⟨hhandler,rfl⟩,rfl⟩,_,⟨hcallbacks,rfl⟩,_,w1,hscreen,_,w2,hstop,_,⟨hout,rfl⟩,
    _,w3,hviews,hset,-⟩ := h
  obtain ⟨-,he1,-⟩ := releaseScreen_ok hscreen
  obtain ⟨hp2,he2,-⟩ := mediaPlayer_stop_ok hstop
  obtain ⟨-,he3,-⟩ := detachViews_ok (by simp [hp2]) hviews
  have hview := releaseScreen_quiet hscreen
  have hstops := mediaPlayer_stop_quiet hstop
  have hdetach := detachViews_quiet hviews
  simp only [World.called_env,World.update_env,World.called_player,World.update_player]
    at he1 he2 he3 hhandler hcallbacks hout hset hview hdetach
  rw [he1] at hstops
  rw [he2,he1] at hout hdetach
  rw [he3,he2,he1] at hset
  intro c hc
  simp only [Player.stopCalls,List.mem_append,List.mem_cons,List.not_mem_nil,or_false] at hc
  rcases hc with ((rfl | rfl) | hc) | rfl | rfl | rfl | rfl | rfl
  · exact hhandler
  · exact hcallbacks
  · by_cases hpv : w.player.playerView = true
    · rw [if_pos hpv] at hc
      rw [List.mem_singleton.mp hc]
      exact hview hpv
    · simp [hpv] at hc
  · exact hstops.1
  · exact hstops.2
  · exact hout
  · exact hdetach
  · exact hset

end quiet

/-- How a teardown ends: it is released, or it has thrown before it got there. -/
lemma run_tearDown (w : World) : ZMediaPlayer.tearDown.run w =
    match ZMediaPlayer.beforeRelease.run w with
    | .ok _ v => MediaPlayer.release.run v
    | .error e v => .error e v := by
  rw [ZMediaPlayer.tearDown_eq,EStateM.run_bind]
  cases ZMediaPlayer.beforeRelease.run w <;> rfl

/-- The world in which a media player has given back its last reference. -/
def World.dropped (w : World) : World := (w.called .release).update fun p =>
  { p with mediaPlayer := { p.mediaPlayer with mNativeRefCount := p.mediaPlayer.mNativeRefCount - 1 } }

lemma run_release {w : World} (hcount : w.player.mediaPlayer.mNativeRefCount = 1) :
    MediaPlayer.release.run w =
      if w.env.throws .release then .error (.thrownBy .release) (w.called .release)
      else MediaPlayer.onReleaseNative.run w.dropped := by
  have hheld : (w.called .release).player.mediaPlayer.isReleased = false := by
    simp [MediaPlayer.isReleased,hcount]
  have hreleased : w.dropped.player.mediaPlayer.isReleased = true := by
    simp [World.dropped,MediaPlayer.isReleased,hcount]
  have hrest : (do
      if (← player).mediaPlayer.isReleased then
        pure ()
      else
        updateMediaPlayer fun p => { p with mNativeRefCount := p.mNativeRefCount - 1 }
        if (← player).mediaPlayer.isReleased then
          MediaPlayer.onReleaseNative : M Unit).run (w.called .release) =
      MediaPlayer.onReleaseNative.run w.dropped := by
    rw [EStateM.run_bind,run_player]
    dsimp only
    rw [hheld,if_neg Bool.false_ne_true,EStateM.run_bind,run_updateMediaPlayer]
    dsimp only
    rw [EStateM.run_bind,run_player]
    exact congrArg (EStateM.run · w.dropped) (if_pos hreleased)
  rw [MediaPlayer.release,EStateM.run_bind,run_call]
  cases w.env.throws .release with
  | true => rfl
  | false => exact hrest

end ZenMedia
