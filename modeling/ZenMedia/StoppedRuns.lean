import ZenMedia.Teardown
import ZenMedia.ReentrantClients

/-! Players that have been stopped. Nothing makes a player run again, and nothing
takes a stopped one down any further: what its one teardown has not reached is
never made up for. -/
namespace ZenMedia
open Reentrant

def Op.isStop : Op → Bool
  | stop | release => true
  | _ => false

def Obs.ends : Obs → Bool
  | call c _ => c.ends
  | _ => false

/-- The player is neither stopped nor taken down, its callback is not cleared, and while it has
one its owner is there. -/
structure Steady (w v : World) : Prop where
  stopped : v.player.stopped = w.player.stopped
  mNativeRefCount : v.player.mediaPlayer.mNativeRefCount = w.player.mediaPlayer.mNativeRefCount
  log : Appends (fun o => o.ends = false) w v
  callBack : v.player.callBack = w.player.callBack
  mOwner : w.player.callBack = true → v.player.eventHandler.mOwner = w.player.eventHandler.mOwner

def steady : Frame World where
  rel := Steady
  refl w := ⟨rfl,rfl,.refl w,rfl,fun _ => rfl⟩
  trans h k := ⟨k.stopped.trans h.stopped,k.mNativeRefCount.trans h.mNativeRefCount,h.log.trans k.log,
    k.callBack.trans h.callBack,fun hc => (k.mOwner (h.callBack.trans hc)).trans (h.mOwner hc)⟩

lemma untouched_steady (w v : World) (h : untouched.rel w v) : steady.rel w v := by
  obtain ⟨hc,-,new,hlog,hnew⟩ := h
  refine ⟨congrArg Control.stopped hc,congrArg Control.mNativeRefCount hc,⟨new,hlog,fun o ho => ?_⟩,
    congrArg Control.callBack hc,fun _ => congrArg (·.eventHandler.mOwner) hc⟩
  have := hnew o ho
  cases o <;> simp_all [Obs.isOrdinaryCall,Obs.ends]

lemma steady_observe (w : World) (o : Obs) (ho : o.ends = false) : steady.rel w (w.observe o) :=
  ⟨rfl,rfl,.one rfl ho,rfl,fun _ => rfl⟩

/-- What is entered by a step is as steady as the step before it left it. -/
lemma steady_enter (w : World) (s : Step) :
    steady.rel w ((w.arrive s.env).observe (.entered s.op)) :=
  ⟨rfl,rfl,.one rfl rfl,rfl,fun hc => by simp [hc]⟩

namespace Steady
variable {F : Frame World} (hF : ∀ w v, steady.rel w v → F.rel w v)
include hF

lemma call {c : Call} (hc : c.ends = false) : Maintains F (call c) :=
  ((Untouched.call hc).weaken untouched_steady).weaken hF

lemma untouched {α : Type} {m : M α} (hm : Maintains untouched m) : Maintains F m :=
  (hm.weaken untouched_steady).weaken hF

lemma update {f : Player → Player} (h : ∀ p, (f p).stopped = p.stopped ∧
    (f p).mediaPlayer.mNativeRefCount = p.mediaPlayer.mNativeRefCount ∧ (f p).callBack = p.callBack ∧
    (f p).eventHandler.mOwner = p.eventHandler.mOwner) : Maintains F (update f) := by
  intro w
  obtain ⟨hstopped,hcount,hcallBack,howner⟩ := h w.player
  exact hF _ _ ⟨hstopped,hcount,.refl _,hcallBack,fun _ => howner⟩

lemma invoke (c : Callback) : Prog.Keeps F (invoke c) :=
  .bind (.lift fun w => hF _ _ (steady_observe w _ rfl)) fun _ => .yield c

lemma notifyIfSet {argument : M Callback} (h : Maintains F argument) :
    Prog.Keeps F (notifyIfSet argument) := by
  refine .bind (.lift ((maintains_player F).bind fun _ => .pure _)) fun b => .ite ?_ (.pure _)
  exact .bind (.lift h) fun c => invoke hF c

lemma notify {argument : M Callback} (h : Maintains F argument) :
    Prog.Keeps F (notify argument) := by
  refine .bind (.lift ((maintains_player F).bind fun _ => .pure _)) fun b => .bind (.lift h) fun c => ?_
  exact .ite (invoke hF c) (.raise _)

lemma getPosition : Maintains F MediaPlayer.getPosition := untouched hF Untouched.commands.getPosition

lemma updateMediaDuration : Maintains F updateMediaDuration :=
  (untouched hF Untouched.commands.getLength).bind fun _ => update hF fun _ => ⟨rfl,rfl,rfl,rfl⟩

lemma endReached (g : Generation) : Prog.Keeps F g.endReached := by
  have hcomplete : Prog.Keeps F (ZenMedia.notifyIfSet (pure .onComplete)) := notifyIfSet hF (.pure _)
  cases g with
  | zMediaPlayer =>
    refine .bind (.lift ((maintains_player F).bind fun _ => .pure _)) fun b => .ite hcomplete ?_
    refine .bind (.lift (updateMediaDuration hF)) fun _ => .bind ?_ fun _ => hcomplete
    exact notifyIfSet hF ((maintains_player F).bind fun _ => .pure _)
  | zMediaPlayer2 => exact hcomplete

lemma setFlag (flag : Bool) : Maintains F (updateHandler fun h => { h with isOnPlayCallback := flag }) :=
  update hF fun _ => ⟨rfl,rfl,rfl,rfl⟩

lemma handleMessage (g : Generation) (e : Event) : Prog.Keeps F (g.handleMessage e) := by
  rw [Generation.handleMessage_eq]
  refine .bind (.lift ((maintains_player F).bind fun _ => .pure _)) fun owner => .ite ?_ (.pure _)
  cases e with
  | mediaPlayerPaused => exact notifyIfSet hF ((getPosition hF).bind fun _ => .pure _)
  | mediaPlayerStopped =>
    refine .bind (.lift (.bind (call hF rfl) fun _ => ?_)) fun b => .ite (.lift (setFlag hF false)) ?_
    · exact (maintains_player F).bind fun _ => .pure _
    · exact .bind (notifyIfSet hF (.pure _)) fun _ => .lift (setFlag hF false)
  | mediaPlayerEndReached => exact endReached hF g
  | mediaPlayerPositionChanged =>
    have hpost : Prog.Keeps F (ZenMedia.notify (do pure (.onPostPosition (← MediaPlayer.getPosition)))) :=
      notify hF ((getPosition hF).bind fun _ => .pure _)
    refine .bind (.lift (updateMediaDuration hF)) fun _ => .bind (.lift ?_) fun b => .ite hpost ?_
    · exact (maintains_player F).bind fun _ => .pure _
    · refine .bind (notifyIfSet hF ((maintains_player F).bind fun _ => .pure _)) fun _ => ?_
      exact .bind (.lift (setFlag hF true)) fun _ => hpost
  | mediaPlayerEncounteredError => exact notify hF (.pure _)
  | hardwareAccelerationError => exact notify hF (.pure _)
  | _ => exact .pure _

/-- `play(hasVideo)`, its entry included. -/
lemma play (hasVideo : Bool) : Maintains F (ZMediaPlayer.play hasVideo) := by
  intro w
  refine F.trans (hF _ _ (steady_observe w (.start hasVideo) rfl)) (hF _ _ ?_)
  exact untouched_steady _ _ (play_untouched hasVideo w)

lemma reportError (e : Throwable) : Prog.Keeps F (BaseViewPlayer.reportError e) :=
  notifyIfSet hF (.pure _)

lemma requestPlay (hasVideo : Bool) : Prog.Keeps F (BaseViewPlayer.requestPlay hasVideo) := by
  refine .attempt ?_ fun e => .bind (reportError hF e) fun _ => .pure _
  have hattached : Maintains F BaseViewPlayer.isAttached := (maintains_player F).bind fun _ => .pure _
  refine .bind (update hF fun _ => ⟨rfl,rfl,rfl,rfl⟩) fun _ => .bind (update hF fun _ => ⟨rfl,rfl,rfl,rfl⟩) fun _ => ?_
  exact hattached.bind fun b => .ite ((play hF hasVideo).bind fun _ => hattached) hattached

lemma handleSurfaceAvailable : Prog.Keeps F BaseViewPlayer.handleSurfaceAvailable := by
  refine .bind (.lift ((maintains_player F).bind fun _ => .pure _)) fun stopped => .ite (.pure _) ?_
  refine .attempt (.bind (update hF fun _ => ⟨rfl,rfl,rfl,rfl⟩) fun _ => ?_) (reportError hF)
  refine .bind (untouched hF Untouched.commands.attachView) fun _ => ?_
  refine .bind ((maintains_player F).bind fun _ => .pure _) fun b => .ite ?_ (.pure _)
  exact (maintains_player F).bind fun _ => play hF _

/-- Every operation but a stop. -/
theorem op (g : Generation) {op : Op} (hop : op.isStop = false) : Prog.Keeps F (op.prog g) := by
  cases op with
  | requestPlay hasVideo => exact .bind (requestPlay hF hasVideo) fun _ => .pure _
  | handleSurfaceAvailable => exact handleSurfaceAvailable hF
  | pause => exact .lift (untouched hF (Untouched.commands.pause g))
  | simplePause => exact .lift (call hF rfl)
  | resume => exact .lift (untouched hF (Untouched.commands.resume g))
  | seekTo position => exact .lift (untouched hF (Untouched.commands.setPosition position))
  | isPlaying => exact .lift (call hF rfl)
  | getDuration => exact .bind (.lift (untouched hF Untouched.commands.getLength)) fun _ => .pure _
  | handleMessage event => exact handleMessage hF g event
  | onSurfacesCreated => exact .lift (untouched hF Untouched.commands.onSurfacesCreated)
  | onSurfacesDestroyed => exact .lift (untouched hF Untouched.commands.onSurfacesDestroyed)
  | onNewLayout layout => exact .lift (untouched hF (Untouched.commands.onNewLayout layout))
  | stop => simp [Op.isStop] at hop
  | release => simp [Op.isStop] at hop

end Steady

lemma step_stop (g : Generation) (react : Callback → World → World) (w : World) {s : Step}
    (hs : s.op.isStop = true) : ((s.prog g).exec react).run w =
      ZMediaPlayer.stop.run ((w.arrive s.env).observe (.entered s.op)) := by
  rw [run_exec_prog]
  obtain ⟨op,env⟩ := s
  cases op <;> simp [Op.isStop] at hs <;> simp only [Op.prog,Prog.exec_monadLift,Generation.stop_eq]

/-- A step that is not a stop, against a client that only records. -/
lemma step_steady (g : Generation) (w : World) {s : Step} (hs : s.op.isStop = false) :
    steady.rel w (w.step g recording s) := by
  have hkeeps : Prog.Keeps steady (s.op.prog g) := Steady.op (fun _ _ h => h) g hs
  rw [World.step,run_exec_prog]
  exact steady.trans (steady_enter w s) (hkeeps.exec (fun _ v => steady.refl v) _)

/-- Any step of a stopped player, whatever the client answers. -/
theorem step_stopped (g : Generation) (client : Client) {w : World} (hw : w.player.stopped = true)
    (s : Step) : steady.rel w (w.step g client.react s) := by
  let F := Frame.under (fun v : World => v.player.stopped = true) steady
  have hF : ∀ u v, steady.rel u v → F.rel u v := fun u v h hu => ⟨h.stopped.trans hu,h⟩
  have hreact : ∀ c v, F.rel v (client.react c v) := by
    intro c v hv
    have hact : ∀ r : Reaction, r.act v = v := by
      intro r
      cases r <;> simp [Reaction.act,ZMediaPlayer.release,run_stop,hv]
    rw [Client.react,hact]
    exact ⟨hv,steady.refl v⟩
  have henter := steady_enter w s
  have hentered : ((w.arrive s.env).observe (.entered s.op)).player.stopped = true := hw
  by_cases hs : s.op.isStop = true
  · rw [World.step,step_stop g client.react w hs,run_stop,if_pos hentered]
    exact henter
  · rw [World.step,run_exec_prog]
    have hkeeps := Steady.op hF g (Bool.eq_false_of_not_eq_true hs)
    exact steady.trans henter (hkeeps.exec hreact _ hentered).2

theorem run_stopped (g : Generation) (client : Client) {w : World} (hw : w.player.stopped = true)
    (steps : List Step) : steady.rel w (w.run g client.react steps) := by
  induction steps using List.reverseRecOn with
  | nil => exact steady.refl w
  | append_singleton steps s ih =>
    rw [run_concat]
    exact steady.trans ih (step_stopped g client (ih.stopped.trans hw) s)

end ZenMedia
