import ZenMedia.ViewPlayers

/-! What the commands of a player leave alone. All of them work on the media
player under it and call other objects; the control fields and the record of
operations, starts and callbacks are changed in few places only. -/
namespace ZenMedia
open Reentrant

/-- The calls that take the native player down. -/
def Call.tearsDown : Call → Bool
  | stop | detachViews | release => true
  | _ => false

/-- These and the native calls under them. -/
def Call.ends : Call → Bool
  | nativeStop | nativeRelease => true
  | c => c.tearsDown

/-- The fields that decide how a player reacts. -/
structure Control where
  eventHandler : VideoPlayerEventHandler
  mNativeRefCount : ℕ
  playerView : Bool
  callBack : Bool
  stopped : Bool
  attached : Bool
  requestPlay : Bool
  hasVideo : Bool
  deriving DecidableEq

def Player.control (p : Player) : Control where
  eventHandler := p.eventHandler
  mNativeRefCount := p.mediaPlayer.mNativeRefCount
  playerView := p.playerView
  callBack := p.callBack
  stopped := p.stopped
  attached := p.attached
  requestPlay := p.requestPlay
  hasVideo := p.hasVideo

def Obs.isOrdinaryCall : Obs → Bool
  | call c _ => !c.ends
  | _ => false

/-- Everything logged between `w` and `v` is of kind `p`. -/
def Appends (p : Obs → Prop) (w v : World) : Prop :=
  ∃ new, v.log = w.log ++ new ∧ ∀ o ∈ new, p o

namespace Appends
variable {p : Obs → Prop} {w v u : World}

lemma refl (w : World) : Appends p w w := ⟨[],by simp,by simp⟩

lemma one {o : Obs} (hlog : v.log = w.log ++ [o]) (ho : p o) : Appends p w v :=
  ⟨[o],hlog,by simp [ho]⟩

lemma trans (h : Appends p w v) (k : Appends p v u) : Appends p w u := by
  obtain ⟨xs,hx,hxs⟩ := h
  obtain ⟨ys,hy,hys⟩ := k
  refine ⟨xs ++ ys,by simp [hy,hx],fun o ho => ?_⟩
  rcases List.mem_append.mp ho with ho | ho
  · exact hxs o ho
  · exact hys o ho

lemma mono {q : Obs → Prop} (h : Appends p w v) (hpq : ∀ o, p o → q o) : Appends q w v := by
  obtain ⟨new,hlog,hnew⟩ := h
  exact ⟨new,hlog,fun o ho => hpq o (hnew o ho)⟩

/-- A stretch of the log is of kind `p` when its two parts are. -/
lemma split {q : Obs → Prop} (h : Appends q w v) (k : Appends q v u) :
    Appends p w u ↔ Appends p w v ∧ Appends p v u := by
  refine ⟨fun hp => ?_,fun hp => hp.1.trans hp.2⟩
  obtain ⟨xs,hx,-⟩ := h
  obtain ⟨ys,hy,-⟩ := k
  obtain ⟨new,hlog,hnew⟩ := hp
  have hnew' : new = xs ++ ys := by
    refine List.append_cancel_left (hlog.symm.trans ?_)
    rw [hy,hx,List.append_assoc]
  subst hnew'
  exact ⟨⟨xs,hx,fun o ho => hnew o (by simp [ho])⟩,⟨ys,hy,fun o ho => hnew o (by simp [ho])⟩⟩

end Appends

def appending (p : Obs → Prop) : Frame World where
  rel := Appends p
  refl := .refl
  trans := .trans

/-- Neither the control fields nor the environment change, and only ordinary
calls are logged. -/
def untouched : Frame World where
  rel w v := v.player.control = w.player.control ∧ v.env = w.env ∧
    Appends (fun o => o.isOrdinaryCall) w v
  refl w := ⟨rfl,rfl,.refl w⟩
  trans h k := ⟨k.1.trans h.1,k.2.1.trans h.2.1,h.2.2.trans k.2.2⟩

/-- The calls that neither take the native player down nor load or start it. -/
def Call.isPlain : Call → Bool
  | nativeSetMedia _ | nativePlay => false
  | c => !c.ends

/-- Nothing that decides about playing or about media differs. -/
structure SameState (p q : Player) : Prop where
  control : q.control = p.control
  mMedia : q.mediaPlayer.mMedia = p.mediaPlayer.mMedia
  mPlaying : q.mediaPlayer.mPlaying = p.mediaPlayer.mPlaying
  mPlayRequested : q.mediaPlayer.mPlayRequested = p.mediaPlayer.mPlayRequested
  created : q.created = p.created

/-- A frame kept by the steps that the commands of a loaded player consist of. -/
structure Commands (F : Frame World) : Prop where
  call : ∀ c, c.isPlain = true → Maintains F (call c)
  update : ∀ f, (∀ p, SameState p (f p)) → Maintains F (update f)
  request : Maintains F (updateMediaPlayer fun p => { p with mPlayRequested := true })
  startNative : Maintains F MediaPlayer.startNative

lemma maintains_player (F : Frame World) : Maintains F player := fun w => F.refl w

/-! ### How a law passes through the code -/

namespace Reentrant.Sequential
variable {Q : ∀ α : Type, M α → Prop} (h : Sequential Q)
include h

lemma player : Q Player player := h.bind h.get fun _ => h.pure _

lemma releaseMedia (hrelease : ∀ m : Media, Q Unit m.release) : Q Unit MediaPlayer.releaseMedia := by
  refine h.bind h.player fun p => ?_
  split
  · exact hrelease _
  · exact h.pure _

lemma mediaPlayer_play (hcall : Q Unit (call .play))
    (hrequest : Q Unit (updateMediaPlayer fun p => { p with mPlayRequested := true }))
    (hstart : Q Unit MediaPlayer.startNative) : Q Unit MediaPlayer.play := by
  refine h.bind hcall fun _ => h.bind h.player fun _ => h.ite hstart ?_
  refine h.bind hrequest fun _ => h.bind (h.bind h.player fun _ => h.pure _) fun _ => ?_
  exact h.ite (h.pure _) hstart

lemma onSurfacesCreated (hplay : Q Unit MediaPlayer.play) : Q Unit MediaPlayer.onSurfacesCreated :=
  h.bind h.player fun _ => h.bind h.player fun _ => h.ite hplay (h.pure _)

lemma attachView (hvout : Q Unit (call .getVLCVout)) (hviews : Q Unit (call .areViewsAttached))
    (hattach : Q Unit (call .attachViews))
    (hwindow : ∀ s, Q Unit (updateMediaPlayer fun p => { p with mWindow := s }))
    (hcreated : Q Unit MediaPlayer.onSurfacesCreated) : Q Unit ZMediaPlayer.attachView := by
  have hattached : Q Bool AWindow.areViewsAttached :=
    h.bind hviews fun _ => h.bind h.player fun _ => h.pure _
  refine h.bind hvout fun _ => h.bind hattached fun _ => h.ite (h.pure _) ?_
  refine h.bind hattach fun _ => h.bind (hwindow _) fun _ => h.bind h.get fun w => ?_
  exact h.ite (h.bind (hwindow _) fun _ => hcreated) (h.pure _)

lemma openMedia (hnew : Q Media ZMediaPlayer.newMedia) (hparse : Q Unit (call .parse))
    (hoption : ∀ o, Q Unit (call (.addOption o))) (hasVideo : Bool) :
    Q Media (ZMediaPlayer.openMedia hasVideo) := by
  refine h.bind hnew fun _ => h.bind hparse fun _ => h.ite (h.pure _) ?_
  exact h.bind (hoption _) fun _ => h.pure _

end Reentrant.Sequential

namespace Appending
variable {p : Obs → Prop}

lemma call {c : Call} (h : ∀ released, p (.call c released)) : Maintains (appending p) (call c) := by
  intro w
  rw [final_run_call]
  exact .one rfl (h _)

lemma update (f : Player → Player) : Maintains (appending p) (update f) := fun _ => .refl _

end Appending

namespace Commands
variable {F : Frame World} (h : Commands F)
include h

lemma release (m : Media) : Maintains F m.release :=
  .bind (h.call _ rfl) fun _ => h.update _ fun _ => ⟨rfl,rfl,rfl,rfl,rfl⟩

lemma releaseMedia : Maintains F MediaPlayer.releaseMedia :=
  (Maintains.sequential F).releaseMedia h.release

lemma acquire (m : Media) : Maintains F (MediaPlayer.acquire m) := by
  have hretain : Maintains F m.retain := by
    refine .bind (h.call _ rfl) fun _ => h.update _ fun p => ?_
    split <;> exact ⟨rfl,rfl,rfl,rfl,rfl⟩
  refine ((maintains_player F).bind fun _ => .pure _).bind fun b => .ite (.throw _) ?_
  exact hretain.bind fun _ => h.call _ rfl

lemma play : Maintains F MediaPlayer.play :=
  (Maintains.sequential F).mediaPlayer_play (h.call _ rfl) h.request h.startNative

lemma onSurfacesCreated : Maintains F MediaPlayer.onSurfacesCreated :=
  (Maintains.sequential F).onSurfacesCreated h.play

lemma onSurfacesDestroyed : Maintains F MediaPlayer.onSurfacesDestroyed :=
  (maintains_player F).bind fun _ => .ite (h.call _ rfl) (.pure _)

lemma setVideoTitleDisplay : Maintains F MediaPlayer.setVideoTitleDisplay :=
  .bind (h.call _ rfl) fun _ => h.call _ rfl

lemma setPosition (position : ℚ) : Maintains F (MediaPlayer.setPosition position) :=
  .bind (h.call _ rfl) fun _ => h.update _ fun _ => ⟨rfl,rfl,rfl,rfl,rfl⟩

lemma getPosition : Maintains F MediaPlayer.getPosition :=
  .bind (h.call _ rfl) fun _ => (maintains_player F).bind fun _ => .pure _

lemma getLength : Maintains F MediaPlayer.getLength :=
  .bind (h.call _ rfl) fun _ => Maintains.get.bind fun _ => .pure _

lemma attachView : Maintains F ZMediaPlayer.attachView := by
  refine (Maintains.sequential F).attachView (h.call _ rfl) (h.call _ rfl) (h.call _ rfl) ?_
    h.onSurfacesCreated
  exact fun s => h.update _ fun _ => ⟨rfl,rfl,rfl,rfl,rfl⟩

lemma pause (g : Generation) : Maintains F g.pause := by
  cases g with
  | zMediaPlayer =>
    exact .bind (h.call _ rfl) fun _ => h.getPosition.bind fun _ =>
      h.update _ fun _ => ⟨rfl,rfl,rfl,rfl,rfl⟩
  | zMediaPlayer2 => exact h.call _ rfl

lemma resume (g : Generation) : Maintains F g.resume := by
  cases g with
  | zMediaPlayer =>
    refine Maintains.bind ?_ fun _ => h.play
    exact (maintains_player F).bind fun _ => .ite (h.setPosition _) (.pure _)
  | zMediaPlayer2 => exact h.play

lemma changePlayerLayout : Maintains F ZMediaPlayer.changePlayerLayout := by
  refine (maintains_player F).bind fun p => Maintains.get.bind fun w => .ite ?_ (.pure _)
  refine .bind (h.call _ rfl) fun _ => .bind (h.call _ rfl) fun _ => ?_
  split
  · exact h.call _ rfl
  · exact .pure _

lemma onNewLayout (layout : VideoLayout) : Maintains F (ZMediaPlayer.onNewLayout layout) :=
  .bind (h.update _ fun _ => ⟨rfl,rfl,rfl,rfl,rfl⟩) fun _ => h.changePlayerLayout

end Commands

/-- `play(hasVideo)` behind its media. -/
def ZMediaPlayer.playMedia (media : Media) : M Unit := do
  MediaPlayer.setMedia (some media)
  media.release
  MediaPlayer.setVideoTitleDisplay
  MediaPlayer.play

namespace Untouched

lemma call {c : Call} (hc : c.ends = false) : Maintains untouched (call c) := by
  intro w
  rw [final_run_call]
  exact ⟨rfl,rfl,.one rfl (by simp [Obs.isOrdinaryCall,hc])⟩

lemma update {f : Player → Player} (h : ∀ p, (f p).control = p.control) :
    Maintains untouched (update f) :=
  fun w => ⟨h w.player,rfl,.refl _⟩

lemma commands : Commands untouched where
  call c hc := call (by cases c <;> first | rfl | exact absurd hc (by simp [Call.isPlain,Call.ends,Call.tearsDown]))
  update _ hf := update fun p => (hf p).control
  request := update fun _ => rfl
  startNative := .bind (update fun _ => rfl) fun _ => call rfl

lemma openMedia (hasVideo : Bool) : Maintains untouched (ZMediaPlayer.openMedia hasVideo) := by
  refine (Maintains.sequential _).openMedia ?_ (call rfl) (fun _ => call rfl) hasVideo
  exact .bind (call rfl) fun _ => (maintains_player _).bind fun _ =>
    .bind (update fun _ => rfl) fun _ => .pure _

lemma setMedia (media : Media) : Maintains untouched (MediaPlayer.setMedia (some media)) :=
  .bind (call rfl) fun _ => commands.releaseMedia.bind fun _ => (commands.acquire media).bind fun _ =>
    .bind (update fun _ => rfl) fun _ => .bind (call rfl) fun _ => update fun _ => rfl

/-- What `play(hasVideo)` does with its media. -/
lemma playMedia (media : Media) : Maintains untouched (ZMediaPlayer.playMedia media) :=
  (setMedia media).bind fun _ => (commands.release _).bind fun _ =>
    commands.setVideoTitleDisplay.bind fun _ => commands.play

end Untouched

lemma run_playMedia (hasVideo : Bool) (w : World) : (ZMediaPlayer.play hasVideo).run w =
    (ZMediaPlayer.openMedia hasVideo >>= ZMediaPlayer.playMedia).run (w.observe (.start hasVideo)) := rfl

/-- `play(hasVideo)` behind its entry. -/
lemma play_untouched (hasVideo : Bool) (w : World) :
    untouched.rel (w.observe (.start hasVideo)) (final ((ZMediaPlayer.play hasVideo).run w)) :=
  (Untouched.openMedia hasVideo).bind Untouched.playMedia (w.observe (.start hasVideo))

/-! ### What is fixed -/

/-- The value of `f` stays. -/
def fixes {α : Type} (f : Player → α) : Frame World where
  rel w v := f v.player = f w.player
  refl _ := rfl
  trans h k := k.trans h

namespace Fixes
variable {α β : Type} {f : Player → α}

lemma call (c : Call) : Maintains (fixes f) (call c) := by
  intro w
  rw [final_run_call]
  rfl

lemma update {u : Player → Player} (h : ∀ p, f (u p) = f p) : Maintains (fixes f) (update u) :=
  fun w => h w.player

lemma player : Maintains (fixes f) player := maintains_player _

lemma observe (o : Obs) : Maintains (fixes f) (observe o) := fun _ => rfl

/-- The native player is started without a look at anything but its two flags. -/
lemma mediaPlayer_play
    (hplaying : ∀ p b, f { p with mediaPlayer := { p.mediaPlayer with mPlaying := b } } = f p)
    (hrequested : ∀ p b, f { p with mediaPlayer := { p.mediaPlayer with mPlayRequested := b } } = f p) :
    Maintains (fixes f) MediaPlayer.play := by
  have hstart : Maintains (fixes f) MediaPlayer.startNative :=
    .bind (update fun p => hplaying p true) fun _ => call _
  exact (Maintains.sequential _).mediaPlayer_play (call _) (update fun p => hrequested p true) hstart

/-- A view is attached without a look at anything but the state of the window. -/
lemma attachView
    (hwindow : ∀ p s, f { p with mediaPlayer := { p.mediaPlayer with mWindow := s } } = f p)
    (hplay : Maintains (fixes f) MediaPlayer.play) : Maintains (fixes f) ZMediaPlayer.attachView := by
  refine (Maintains.sequential _).attachView (call _) (call _) (call _) ?_ ?_
  · exact fun s => update fun p => hwindow p s
  · exact (Maintains.sequential _).onSurfacesCreated hplay

end Fixes

/-- `f` looks neither at the media nor at the place in it. -/
structure Medialess {α : Type} (f : Player → α) : Prop where
  mMedia : ∀ p m, f { p with mediaPlayer := { p.mediaPlayer with mMedia := m } } = f p
  position : ∀ p q, f { p with mediaPlayer := { p.mediaPlayer with position := q } } = f p
  created : ∀ p n refs, f { p with created := n, refs := refs } = f p

namespace Fixes
variable {α : Type} {f : Player → α} (h : Medialess f)
include h

lemma refs (g : Player → ℕ → ℕ) : Maintains (fixes f) (ZenMedia.update fun p => { p with refs := g p }) :=
  update fun p => h.created p p.created (g p)

lemma mediaRelease (m : Media) : Maintains (fixes f) m.release :=
  (call _).bind fun _ => refs h _

lemma releaseMedia : Maintains (fixes f) MediaPlayer.releaseMedia :=
  (Maintains.sequential _).releaseMedia (mediaRelease h)

lemma acquire (m : Media) : Maintains (fixes f) (MediaPlayer.acquire m) := by
  have hretain : Maintains (fixes f) m.retain := by
    refine (call _).bind fun _ => update fun p => ?_
    split
    · exact h.created p p.created _
    · rfl
  refine (player.bind fun _ => .pure _).bind fun b => .ite (.throw _) ?_
  exact hretain.bind fun _ => call _

lemma setMedia (m : Media) : Maintains (fixes f) (MediaPlayer.setMedia (some m)) := by
  refine (call _).bind fun _ => (releaseMedia h).bind fun _ => (acquire h m).bind fun _ => ?_
  refine .bind (update fun p => h.mMedia p (some m)) fun _ => (call _).bind fun _ => ?_
  exact update fun p => h.position p 0

lemma openMedia (hasVideo : Bool) : Maintains (fixes f) (ZMediaPlayer.openMedia hasVideo) := by
  refine (Maintains.sequential _).openMedia ?_ (call _) (fun _ => call _) hasVideo
  exact (call _).bind fun _ => player.bind fun p =>
    .bind (update fun q => h.created q (p.created + 1) _) fun _ => .pure _

end Fixes

/-! ### The record of a run -/

/-- Everything in the log but the external calls. -/
def Obs.isRecord : Obs → Bool
  | call _ _ => false
  | _ => true

def Obs.asCallback : Obs → Option Callback
  | callback c => some c
  | _ => none

namespace World

/-- The operations, starts and callbacks, in order. -/
def record (w : World) : List Obs := w.log.filter Obs.isRecord

/-- What the client has been told. -/
def callbacks (w : World) : List Callback := w.record.filterMap Obs.asCallback

variable (w : World)

@[simp] lemma record_called (c : Call) : (w.called c).record = w.record := by
  simp [record,Obs.isRecord]

@[simp] lemma record_update (f : Player → Player) : (w.update f).record = w.record := rfl

@[simp] lemma record_arrive (env : Env) : (w.arrive env).record = w.record := rfl

@[simp] lemma record_observe_entered (op : Op) :
    (w.observe (.entered op)).record = w.record ++ [.entered op] := by
  simp [record,Obs.isRecord]

@[simp] lemma record_observe_start (hasVideo : Bool) :
    (w.observe (.start hasVideo)).record = w.record ++ [.start hasVideo] := by
  simp [record,Obs.isRecord]

@[simp] lemma record_observe_callback (c : Callback) :
    (w.observe (.callback c)).record = w.record ++ [.callback c] := by
  simp [record,Obs.isRecord]

end World

lemma untouched_record {w v : World} (h : untouched.rel w v) : v.record = w.record := by
  obtain ⟨-,-,new,hlog,hnew⟩ := h
  have : new.filter Obs.isRecord = [] := by
    rw [List.filter_eq_nil_iff]
    intro o ho
    have := hnew o ho
    cases o <;> simp_all [Obs.isOrdinaryCall,Obs.isRecord]
  simp [World.record,hlog,this]

/-- What a step runs, behind its entry. -/
lemma run_exec_prog (g : Generation) (react : Callback → World → World) (s : Step) (w : World) :
    ((s.prog g).exec react).run w =
      ((s.op.prog g).exec react).run ((w.arrive s.env).observe (.entered s.op)) := by
  simp only [Step.prog,Prog.exec_bind,EStateM.run_bind,Step.enter]
  rfl

lemma run_concat (g : Generation) (react : Callback → World → World) (w : World)
    (before : List Step) (s : Step) :
    w.run g react (before ++ [s]) = (w.run g react before).step g react s := by
  simp [World.run]

/-! ### How the operations of the view players run -/

/-- What `requestPlay(hasVideo)` writes down. -/
def World.asked (hasVideo : Bool) (w : World) : World :=
  w.update fun p => { p with hasVideo := hasVideo, requestPlay := true }

/-- What `handleSurfaceAvailable` writes down. -/
def World.marked (w : World) : World := w.update fun p => { p with attached := true }

/-- The world behind a `try` block: an exception is reported to the client. -/
def reported (react : Callback → World → World) : EStateM.Result Throwable World Unit → World
  | .ok _ v => v
  | .error e v => final (((BaseViewPlayer.reportError e).exec react).run v)

section runs
variable (react : Callback → World → World) (w : World)

lemma final_requestPlay (hasVideo : Bool) :
    final (((BaseViewPlayer.requestPlay hasVideo).exec react).run w) =
      if w.player.attached then reported react ((ZMediaPlayer.play hasVideo).run (w.asked hasVideo))
      else w.asked hasVideo := by
  have hasked : (w.update fun p => { p with hasVideo := hasVideo }).update
      (fun p => { p with requestPlay := true }) = w.asked hasVideo := rfl
  have hsame : (w.asked hasVideo).player.attached = w.player.attached := rfl
  cases hatt : w.player.attached with
  | false =>
    rw [hatt] at hsame
    simp [BaseViewPlayer.requestPlay,Prog.run_exec_attempt,BaseViewPlayer.isAttached,hasked,hsame]
  | true =>
    rw [hatt] at hsame
    cases hplay : (ZMediaPlayer.play hasVideo).run (w.asked hasVideo) with
    | ok a v =>
      simp [BaseViewPlayer.requestPlay,Prog.run_exec_attempt,BaseViewPlayer.isAttached,hasked,hsame,
        hplay,reported]
    | error e v =>
      cases hr : ((BaseViewPlayer.reportError e).exec react).run v <;>
        simp [BaseViewPlayer.requestPlay,Prog.run_exec_attempt,BaseViewPlayer.isAttached,hasked,
          hsame,hplay,hr,reported]

lemma run_attachAndPlay : BaseViewPlayer.attachAndPlay.run w =
    match ZMediaPlayer.attachView.run w.marked with
    | .ok _ u => if u.player.requestPlay then (ZMediaPlayer.play u.player.hasVideo).run u else .ok () u
    | .error e u => .error e u := by
  have hmarked : (BaseViewPlayer.setAttached true).run w = .ok () w.marked := rfl
  cases hview : ZMediaPlayer.attachView.run w.marked with
  | ok a u =>
    cases hreq : u.player.requestPlay <;>
      simp [BaseViewPlayer.attachAndPlay,BaseViewPlayer.isRequestPlay,hmarked,hview,hreq]
  | error e u => simp [BaseViewPlayer.attachAndPlay,hmarked,hview]

lemma final_handleSurfaceAvailable :
    final ((BaseViewPlayer.handleSurfaceAvailable.exec react).run w) =
      if w.player.stopped then w else reported react (BaseViewPlayer.attachAndPlay.run w) := by
  cases hs : w.player.stopped <;>
    cases ha : BaseViewPlayer.attachAndPlay.run w <;>
    simp [BaseViewPlayer.handleSurfaceAvailable,ZMediaPlayer.isStopped,Prog.run_exec_attempt,hs,ha,
      reported]

/-- The two steps that may start a media. -/
lemma step_requestPlay (g : Generation) (hasVideo : Bool) (env : Env) :
    w.step g react ⟨.requestPlay hasVideo,env⟩ =
      let x := ((w.arrive env).observe (.entered (.requestPlay hasVideo))).asked hasVideo
      if w.player.attached then reported react ((ZMediaPlayer.play hasVideo).run x) else x := by
  rw [World.step,run_exec_prog]
  simp only [Op.prog,Prog.exec_bind,Prog.exec_pure,final_run_bind_pure]
  exact final_requestPlay react _ hasVideo

lemma step_handleSurfaceAvailable (g : Generation) (env : Env) :
    w.step g react ⟨.handleSurfaceAvailable,env⟩ =
      let x := (w.arrive env).observe (.entered .handleSurfaceAvailable)
      if w.player.stopped then x else reported react (BaseViewPlayer.attachAndPlay.run x) := by
  rw [World.step,run_exec_prog]
  exact final_handleSurfaceAvailable react _

end runs

end ZenMedia
