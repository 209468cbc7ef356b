import ZenMedia.PlayerFrames

/-! Players as their constructors leave them. -/
namespace ZenMedia
open Reentrant

/-- Nothing is playing, asked for or loaded in the media player. -/
structure Idle (w : World) : Prop where
  mMedia : w.player.mediaPlayer.mMedia = none
  mPlaying : w.player.mediaPlayer.mPlaying = false
  mPlayRequested : w.player.mediaPlayer.mPlayRequested = false

namespace Idle

lemma call (c : Call) : Maintains (.ofInvariant Idle) (call c) := by
  intro w hw
  rw [final_run_call]
  exact ⟨hw.mMedia,hw.mPlaying,hw.mPlayRequested⟩

lemma updateMediaPlayer_window (s : SurfacesState) :
    Maintains (.ofInvariant Idle) (updateMediaPlayer fun p => { p with mWindow := s }) :=
  fun _ hw => ⟨hw.mMedia,hw.mPlaying,hw.mPlayRequested⟩

lemma onSurfacesCreated : Maintains (.ofInvariant Idle) MediaPlayer.onSurfacesCreated := by
  intro w hw
  simpa [MediaPlayer.onSurfacesCreated,hw.mPlayRequested] using hw

lemma attachView : Maintains (.ofInvariant Idle) ZMediaPlayer.attachView :=
  (Maintains.sequential _).attachView (call _) (call _) (call _) updateMediaPlayer_window
    onSurfacesCreated

end Idle

/-- The calls that a constructor makes, `attachView` apart. -/
def Call.builds : Call → Bool
  | hasCompatibleCPU | newLibVLC | newVLCMediaPlayer | getVLCVout | setCallback | addHandler => true
  | setVideoView | isAvailable | addAttachListener => true
  | _ => false

/-- No field that a constructor leaves alone differs. -/
structure SameCourse (p q : Player) : Prop where
  mMedia : q.mediaPlayer.mMedia = p.mediaPlayer.mMedia
  position : q.position = p.position
  created : q.created = p.created
  refs : q.refs = p.refs

/-- A frame kept by the steps that a constructor consists of. -/
structure Building (F : Frame World) : Prop where
  call : ∀ c, c.builds = true → Maintains F (call c)
  update : ∀ f, (∀ p, SameCourse p (f p)) → Maintains F (update f)

namespace Building
variable {F : Frame World} (h : Building F)
include h

lemma setVideoView (c : ViewClass) : Maintains F c.setVideoView := by
  cases c with
  | audioPlayer => exact .pure _
  | _ => exact h.call _ rfl

lemma createVLC : Maintains F ZMediaPlayer.createVLC := by
  refine .bind (h.call _ rfl) fun _ => Maintains.get.bind fun _ => .ite ?_ (.throw _)
  exact .bind (h.call _ rfl) fun _ => h.update _ fun _ => ⟨rfl,rfl,rfl,rfl⟩

lemma init (c : ViewClass) : Maintains F (ZMediaPlayer.init c.setVideoView) := by
  refine .bind (h.call _ rfl) fun _ => .bind (h.call _ rfl) fun _ => ?_
  refine .bind (.bind (h.call _ rfl) fun _ => ?_) fun _ => h.setVideoView c
  exact h.update _ fun _ => ⟨rfl,rfl,rfl,rfl⟩

/-- The constructor of `ZMediaPlayer`. -/
lemma zMediaPlayer (c : ViewClass) (container view callback : Bool) (playerSizeMode videoHeight : ℤ) :
    Maintains F (ZMediaPlayer.construct container view callback playerSizeMode videoHeight
      c.setVideoView) := by
  have hupdate : ∀ f, (∀ p, SameCourse p (f p)) → Maintains F (ZenMedia.update f) := h.update
  refine .bind (hupdate _ fun _ => ⟨rfl,rfl,rfl,rfl⟩) fun _ => h.createVLC.bind fun _ => ?_
  refine .bind (h.call _ rfl) fun _ => .bind (hupdate _ fun _ => ⟨rfl,rfl,rfl,rfl⟩) fun _ => ?_
  refine .bind (hupdate _ fun _ => ⟨rfl,rfl,rfl,rfl⟩) fun _ => ?_
  refine .bind (hupdate _ fun _ => ⟨rfl,rfl,rfl,rfl⟩) fun _ => ?_
  refine .bind (hupdate _ fun _ => ⟨rfl,rfl,rfl,rfl⟩) fun _ => (h.init c).bind fun _ => ?_
  exact hupdate _ fun _ => ⟨rfl,rfl,rfl,rfl⟩

/-- The constructors of the concrete players, which may attach a view. -/
lemma construct (hattach : Maintains F ZMediaPlayer.attachView) (c : ViewClass) (callback : Bool)
    (playerSizeMode videoHeight : ℤ) : Maintains F (c.construct callback playerSizeMode videoHeight) := by
  have hview : Maintains F ViewClass.handleAttach := by
    refine .bind (h.call _ rfl) fun _ => Maintains.get.bind fun _ => ?_
    refine .bind (h.update _ fun _ => ⟨rfl,rfl,rfl,rfl⟩) fun _ => ?_
    refine ((maintains_player F).bind fun _ => .pure _).bind fun _ => ?_
    exact .ite hattach (h.call _ rfl)
  cases c with
  | audioPlayer =>
    refine (h.zMediaPlayer .audioPlayer _ _ _ _ _).bind fun _ => ?_
    exact h.update _ fun _ => ⟨rfl,rfl,rfl,rfl⟩
  | surfaceViewPlayer => exact (h.zMediaPlayer .surfaceViewPlayer _ _ _ _ _).bind fun _ => hview
  | textureViewPlayer => exact (h.zMediaPlayer .textureViewPlayer _ _ _ _ _).bind fun _ => hview
  | textureViewPlayer2 => exact (h.zMediaPlayer .textureViewPlayer2 _ _ _ _ _).bind fun _ => hview

end Building

/-- What a constructor establishes. -/
structure Born (callback : Bool) (w : World) : Prop where
  idle : Idle w
  log : ∀ o ∈ w.log, o.isOrdinaryCall
  eventHandler : w.player.eventHandler = ⟨false,callback,true⟩
  mNativeRefCount : w.player.mediaPlayer.mNativeRefCount = 1
  callBack : w.player.callBack = callback
  stopped : w.player.stopped = false
  requestPlay : w.player.requestPlay = false

namespace Born
variable {callback : Bool}

lemma step {m : M Unit} {w v : World} (hw : Born callback w) (hidle : Maintains (.ofInvariant Idle) m)
    (huntouched : Maintains untouched m) (h : m.run w = .ok () v) : Born callback v := by
  have hi := hidle w hw.idle
  obtain ⟨hc,-,new,hlog,hnew⟩ := huntouched w
  rw [h,final_ok] at hi hc hlog
  simp only [Player.control,Control.mk.injEq] at hc
  obtain ⟨h1,h2,-,h4,h5,-,h7,-⟩ := hc
  refine ⟨hi,?_,h1.trans hw.eventHandler,h2.trans hw.mNativeRefCount,h4.trans hw.callBack,
    h5.trans hw.stopped,h7.trans hw.requestPlay⟩
  intro o ho
  rw [hlog] at ho
  rcases List.mem_append.mp ho with ho | ho
  · exact hw.log o ho
  · exact hnew o ho

/-- A fresh player has been asked for nothing and has told nothing. -/
lemma untold {w : World} (hw : Born callback w) : w.record = [] := by
  rw [World.record,List.filter_eq_nil_iff]
  intro o ho
  have hcall := hw.log o ho
  cases o <;> simp_all [Obs.isOrdinaryCall,Obs.isRecord]

lemma setAttached {w : World} (hw : Born callback w) (attached : Bool) :
    Born callback (w.update fun p => { p with attached := attached }) :=
  ⟨⟨hw.idle.1,hw.idle.2,hw.idle.3⟩,hw.log,hw.eventHandler,hw.mNativeRefCount,hw.callBack,
    hw.stopped,hw.requestPlay⟩

end Born

namespace Idle

lemma createVLC : Maintains (.ofInvariant Idle) ZMediaPlayer.createVLC :=
  .bind (call _) fun _ => Maintains.get.bind fun _ =>
    .ite (.bind (call _) fun _ => fun _ h => ⟨h.1,h.2,h.3⟩) (.throw _)

lemma setVideoView (c : ViewClass) : Maintains (.ofInvariant Idle) c.setVideoView := by
  cases c with
  | audioPlayer => exact .pure _
  | _ => exact call _

end Idle

namespace Untouched

lemma createVLC : Maintains untouched ZMediaPlayer.createVLC :=
  .bind (call rfl) fun _ => Maintains.get.bind fun _ =>
    .ite (.bind (call rfl) fun _ => update fun _ => rfl) (.throw _)

lemma setVideoView (c : ViewClass) : Maintains untouched c.setVideoView := by
  cases c with
  | audioPlayer => exact .pure _
  | _ => exact call rfl

end Untouched

/-- The constructor of `ZMediaPlayer`, when it returns. -/
lemma construct_born (c : ViewClass) {container view callback : Bool}
    {playerSizeMode videoHeight : ℤ} {env : Env} {w : World}
    (h : (ZMediaPlayer.construct container view callback playerSizeMode videoHeight
      c.setVideoView).run { env := env } = .ok () w) : Born callback w := by
  simp only [ZMediaPlayer.construct,ZMediaPlayer.init,EventHandler.addHandler,bind_eq_ok,
    call_eq_ok,run_update,run_updateMediaPlayer,run_updateHandler,EStateM.Result.ok.injEq,
    exists_const,true_and] at h
  obtain ⟨_,rfl,_,u,hvlc,_,⟨-,rfl⟩,_,rfl,_,rfl,_,rfl,_,rfl,_,v,
    ⟨_,⟨-,rfl⟩,_,⟨-,rfl⟩,_,⟨_,⟨-,rfl⟩,rfl⟩,hview⟩,rfl⟩ := h
  let start : World := { player := { playerContainer := container }, env := env }
  have hidle := Idle.createVLC start ⟨rfl,rfl,rfl⟩
  obtain ⟨hc,-,new,hlog,hnew⟩ := Untouched.createVLC start
  have hvlc' : ZMediaPlayer.createVLC.run start = .ok () u := hvlc
  rw [hvlc',final_ok] at hidle hc hlog
  simp only [Player.control,Control.mk.injEq] at hc
  obtain ⟨hhandler,-,-,-,hstopped,-,hrequest,-⟩ := hc
  have hv : Born callback v := by
    refine Born.step ?_ (Idle.setVideoView c) (Untouched.setVideoView c) hview
    refine ⟨⟨hidle.1,hidle.2,hidle.3⟩,?_,?_,rfl,rfl,hstopped,hrequest⟩
    · intro o ho
      simp only [World.called_log,World.update_log,List.mem_append,List.mem_singleton,hlog] at ho
      rcases ho with ((((ho | ho) | rfl) | rfl) | rfl) | rfl
      · simp [start] at ho
      · exact hnew o ho
      all_goals rfl
    · simp [hhandler,start]
  exact ⟨⟨hv.idle.1,hv.idle.2,hv.idle.3⟩,hv.log,hv.eventHandler,hv.mNativeRefCount,hv.callBack,
    hv.stopped,hv.requestPlay⟩

lemma handleAttach_born {callback : Bool} {w v : World} (hw : Born callback w)
    (h : ViewClass.handleAttach.run w = .ok () v) : Born callback v := by
  unfold ViewClass.handleAttach at h
  obtain ⟨_,w1,hcall,h⟩ := bind_eq_ok.mp h
  have h1 := hw.step (Idle.call _) (Untouched.call rfl) hcall
  obtain ⟨_,_,hget,h⟩ := bind_eq_ok.mp h
  obtain ⟨rfl,rfl⟩ := EStateM.Result.ok.inj hget
  obtain ⟨_,_,hset,h⟩ := bind_eq_ok.mp h
  obtain ⟨rfl,rfl⟩ := EStateM.Result.ok.inj hset
  obtain ⟨b,_,hget,h⟩ := bind_eq_ok.mp h
  obtain ⟨rfl,rfl⟩ := EStateM.Result.ok.inj hget
  exact (h1.setAttached _).step (.ite Idle.attachView (Idle.call _))
    (.ite Untouched.commands.attachView (Untouched.call rfl)) h

/-- Every constructor that returns leaves a fresh player. -/
theorem Constructed.born {g : Generation} {callback : Bool} {w : World}
    (h : Constructed g callback w) : Born callback w := by
  obtain ⟨c,playerSizeMode,videoHeight,env,-,h⟩ := h
  cases c with
  | audioPlayer =>
    obtain ⟨_,v,hv,hset⟩ := bind_eq_ok.mp h
    obtain ⟨-,rfl⟩ := EStateM.Result.ok.inj hset
    exact (construct_born .audioPlayer hv).setAttached true
  | _ =>
    obtain ⟨_,v,hv,hattach⟩ := bind_eq_ok.mp h
    exact handleAttach_born (construct_born _ hv) hattach

/-- A player of class `c` built for a client where nothing goes wrong. -/
def ViewClass.built (c : ViewClass) : World := final ((c.construct true 0 0).run {})

lemma built_constructed (c : ViewClass) : Constructed c.generation true c.built := by
  refine ⟨c,0,0,{},rfl,?_⟩
  cases c <;> rfl

end ZenMedia
