import ZenMedia.AttachedFlag
import ZenMedia.FinalStop
import ZenMedia.ResumePosition

/-! What the players of a process leave behind. A constructor creates a LibVLC and a
media player and registers a handler, and may throw after that; `stop` gives back the
handler and the media player. -/
namespace ZenMedia
open Reentrant TraceLaws

/-! ### The stages of a constructor -/

/-- The constructor of `ZMediaPlayer` behind `createVLC`. -/
def ZMediaPlayer.afterCreateVLC (view callback : Bool) (playerSizeMode videoHeight : ℤ)
    (setVideoView : M Unit) : M Unit := do
  call .newVLCMediaPlayer
  updateMediaPlayer fun p => { p with mNativeRefCount := 1 }
  update fun p => { p with playerView := view, callBack := callback }
  updateHandler fun h => { h with mOwner := callback }
  update fun p =>
    { p with currentSize := if 0 ≤ playerSizeMode then playerSizeMode else p.currentSize }
  init setVideoView
  update fun p => { p with videoHeight := videoHeight }

namespace ViewClass

/-- What the constructor of the class adds to that of `ZMediaPlayer`. -/
def hookUp : ViewClass → M Unit
  | audioPlayer => BaseViewPlayer.setAttached true
  | _ => handleAttach

/-- The calls that `hookUp` makes of a view. -/
def hookUpCalls (c : ViewClass) (env : Env) : List Call :=
  match c with
  | audioPlayer => []
  | _ => .isAvailable :: if env.surfaceAvailable then [.getVLCVout,.areViewsAttached,.attachViews]
      else [.addAttachListener]

/-- The calls that `setVideoView` makes. -/
def viewCalls (c : ViewClass) : List Call := if c = audioPlayer then [] else [.setVideoView]

/-- The calls that a constructor makes once it has its LibVLC. -/
def constructCalls (c : ViewClass) (env : Env) : List Call :=
  [.newVLCMediaPlayer,.getVLCVout,.setCallback,.addHandler] ++ c.viewCalls ++ c.hookUpCalls env

end ViewClass

/-- The constructor gets its LibVLC. -/
def Env.createsLibVLC (env : Env) : Bool :=
  !env.throws .hasCompatibleCPU && env.compatibleCPU && !env.throws .newLibVLC

lemma construct_eq (c : ViewClass) (callback : Bool) (playerSizeMode videoHeight : ℤ) :
    ∃ (container view : Bool) (mode height : ℤ),
      c.construct callback playerSizeMode videoHeight = (do
        update fun p => { p with playerContainer := container }
        ZMediaPlayer.createVLC
        ZMediaPlayer.afterCreateVLC view callback mode height c.setVideoView
        c.hookUp) := by
  cases c with
  | audioPlayer =>
    refine ⟨false,false,-1,0,?_⟩
    simp only [ViewClass.construct,ZMediaPlayer.construct,ZMediaPlayer.afterCreateVLC,bind_assoc]
    rfl
  | textureViewPlayer2 =>
    refine ⟨false,true,-1,0,?_⟩
    simp only [ViewClass.construct,ZMediaPlayer.construct,ZMediaPlayer.afterCreateVLC,bind_assoc]
    rfl
  | _ =>
    refine ⟨true,true,playerSizeMode,videoHeight,?_⟩
    simp only [ViewClass.construct,ZMediaPlayer.construct,ZMediaPlayer.afterCreateVLC,bind_assoc]
    rfl

lemma run_createVLC (w : World) :
    (w.env.createsLibVLC = true → ∃ v, ZMediaPlayer.createVLC.run w = .ok () v ∧
      v.player = { w.player with libVLCRefCount := 1 } ∧ v.env = w.env) ∧
    (w.env.createsLibVLC = false →
      ∃ e v, ZMediaPlayer.createVLC.run w = .error e v ∧ v.player = w.player) := by
  cases hcpu : w.env.throws .hasCompatibleCPU <;> cases hcompatible : w.env.compatibleCPU <;>
    cases hnew : w.env.throws .newLibVLC <;>
    simp [Env.createsLibVLC,ZMediaPlayer.createVLC,run_call,hcpu,hcompatible,hnew]

/-- The code makes the calls `ks` and returns unless one of them throws. -/
structure Performs {α : Type} (ks : List Call) (m : M α) : Prop where
  returns_iff : ∀ w, (∃ a v, m.run w = .ok a v) ↔ ∀ k ∈ ks, w.env.throws k = false
  maintains : Maintains sameEnv m

namespace Performs
variable {α β : Type} {ks ls : List Call}

lemma call (c : Call) : Performs [c] (call c) := by
  refine ⟨fun w => ?_,sameEnv_call c⟩
  simp [call_eq_ok]

lemma update (f : Player → Player) : Performs [] (update f) :=
  ⟨fun w => by simp,fun _ => rfl⟩

lemma bind {m : M α} {f : α → M β} (hm : Performs ks m) (hf : ∀ a, Performs ls (f a)) :
    Performs (ks ++ ls) (m >>= f) := by
  refine ⟨fun w => ?_,hm.maintains.bind fun a => (hf a).maintains⟩
  simp only [bind_eq_ok,List.mem_append,or_imp,forall_and]
  constructor
  · rintro ⟨b,v,a,u,hmu,hfv⟩
    have henv := sameEnv_ok hm.maintains hmu
    refine ⟨(hm.returns_iff w).mp ⟨a,u,hmu⟩,?_⟩
    rw [← henv]
    exact ((hf a).returns_iff u).mp ⟨b,v,hfv⟩
  · rintro ⟨hks,hls⟩
    obtain ⟨a,u,hmu⟩ := (hm.returns_iff w).mpr hks
    have henv := sameEnv_ok hm.maintains hmu
    rw [← henv] at hls
    obtain ⟨b,v,hfv⟩ := ((hf a).returns_iff u).mpr hls
    exact ⟨b,v,a,u,hmu,hfv⟩

end Performs

lemma setVideoView_performs (c : ViewClass) : Performs c.viewCalls c.setVideoView := by
  cases c with
  | audioPlayer => exact ⟨fun w => by simp [ViewClass.viewCalls,ViewClass.setVideoView],.pure _⟩
  | _ => exact .call _

lemma afterCreateVLC_performs (c : ViewClass) (view callback : Bool) (mode height : ℤ) :
    Performs ([.newVLCMediaPlayer,.getVLCVout,.setCallback,.addHandler] ++ c.viewCalls)
      (ZMediaPlayer.afterCreateVLC view callback mode height c.setVideoView) := by
  have hinit : Performs _ (ZMediaPlayer.init c.setVideoView) :=
    .bind (.call _) fun _ => .bind (.call _) fun _ =>
      .bind (.bind (.call _) fun _ => .update _) fun _ => setVideoView_performs c
  have hall : Performs _
      (ZMediaPlayer.afterCreateVLC view callback mode height c.setVideoView) :=
    .bind (.call _) fun _ => .bind (.update _) fun _ => .bind (.update _) fun _ =>
      .bind (.update _) fun _ => .bind (.update _) fun _ => .bind hinit fun _ => .update _
  simpa using hall

/-! ### What stays the same -/

/-- The LibVLC of a player, the state of its window and its play request. -/
abbrev hooked : Frame World :=
  fixes fun p => (p.libVLCRefCount,p.mediaPlayer.mWindow,p.mediaPlayer.mPlayRequested)

/-- The LibVLC alone. -/
abbrev keepsLibVLC : Frame World := fixes Player.libVLCRefCount

lemma hooked_afterCreateVLC (c : ViewClass) (view callback : Bool) (mode height : ℤ) :
    Maintains hooked (ZMediaPlayer.afterCreateVLC view callback mode height c.setVideoView) := by
  have hview : Maintains hooked c.setVideoView := by
    cases c with
    | audioPlayer => exact .pure _
    | _ => exact Fixes.call _
  refine (Fixes.call _).bind fun _ => .bind (Fixes.update fun _ => rfl) fun _ => ?_
  refine .bind (Fixes.update fun _ => rfl) fun _ => .bind (Fixes.update fun _ => rfl) fun _ => ?_
  refine .bind (Fixes.update fun _ => rfl) fun _ => Maintains.bind ?_ fun _ => Fixes.update fun _ => rfl
  refine (Fixes.call _).bind fun _ => (Fixes.call _).bind fun _ => Maintains.bind ?_ fun _ => hview
  exact (Fixes.call _).bind fun _ => Fixes.update fun _ => rfl

namespace KeepsLibVLC

lemma mediaPlayer_play : Maintains keepsLibVLC MediaPlayer.play :=
  Fixes.mediaPlayer_play (fun _ _ => rfl) (fun _ _ => rfl)

lemma attachView : Maintains keepsLibVLC ZMediaPlayer.attachView :=
  Fixes.attachView (fun _ _ => rfl) mediaPlayer_play

lemma hookUp (c : ViewClass) : Maintains keepsLibVLC c.hookUp := by
  cases c with
  | audioPlayer => exact Fixes.update fun _ => rfl
  | _ =>
    refine (Fixes.call _).bind fun _ => Maintains.get.bind fun _ => ?_
    refine .bind (Fixes.update fun _ => rfl) fun _ => (Fixes.player.bind fun _ => .pure _).bind fun _ => ?_
    exact .ite attachView (Fixes.call _)

/-- A stop leaves the LibVLC as it is, whatever it gets to. -/
lemma stop : Maintains keepsLibVLC ZMediaPlayer.stop := by
  have hdismantling : Dismantling fun _ m => Maintains keepsLibVLC m := by
    refine ⟨Maintains.sequential _,fun c _ => Fixes.call c,?_,fun f hf => Fixes.update fun p => ?_⟩
    · exact Fixes.player.bind fun _ => .ite (Fixes.call _) (.pure _)
    · exact (hf p).libVLCRefCount
  have hmedia : Maintains keepsLibVLC MediaPlayer.releaseMedia :=
    Fixes.releaseMedia ⟨fun _ _ => rfl,fun _ _ => rfl,fun _ _ _ => rfl⟩
  have htearDown : Maintains keepsLibVLC ZMediaPlayer.tearDown := by
    refine hdismantling.tearDown (Fixes.call _) (Fixes.update fun _ => rfl) ?_
    exact hmedia.bind fun _ => Fixes.call _
  exact (Fixes.player.bind fun _ => .pure _).bind fun _ => .ite (.pure _) htearDown

end KeepsLibVLC

/-- A view is attached to a player that was asked for nothing. -/
lemma attachView_returns_iff {w : World} (hwindow : w.player.mediaPlayer.mWindow = .init)
    (hrequested : w.player.mediaPlayer.mPlayRequested = false) :
    (∃ v, ZMediaPlayer.attachView.run w = .ok () v) ↔
      ∀ k ∈ [Call.getVLCVout,.areViewsAttached,.attachViews], w.env.throws k = false := by
  cases hvout : w.env.throws .getVLCVout <;> cases hviews : w.env.throws .areViewsAttached <;>
    cases hattach : w.env.throws .attachViews <;> cases hsurface : w.env.surfaceReady <;>
    simp [ZMediaPlayer.attachView,AWindow.areViewsAttached,AWindow.attachViews,
      MediaPlayer.onSurfacesCreated,run_call,hvout,hviews,hattach,hsurface,hwindow,hrequested]

/-- Whether a player can be hooked up to its view. -/
lemma hookUp_returns_iff (c : ViewClass) {w : World}
    (hwindow : w.player.mediaPlayer.mWindow = .init)
    (hrequested : w.player.mediaPlayer.mPlayRequested = false) :
    (∃ v, c.hookUp.run w = .ok () v) ↔ ∀ k ∈ c.hookUpCalls w.env, w.env.throws k = false := by
  let u := (w.called .isAvailable).update fun p => { p with attached := w.env.surfaceAvailable }
  have hattach := attachView_returns_iff (w := u) hwindow hrequested
  have hview : (∃ v, ViewClass.handleAttach.run w = .ok () v) ↔
      w.env.throws .isAvailable = false ∧ if w.env.surfaceAvailable then
        ∃ v, ZMediaPlayer.attachView.run u = .ok () v else w.env.throws .addAttachListener = false := by
    cases havailable : w.env.throws .isAvailable <;> cases hsurface : w.env.surfaceAvailable <;>
      cases hlistener : w.env.throws .addAttachListener <;>
      simp [ViewClass.handleAttach,BaseViewPlayer.setAttached,BaseViewPlayer.isAttached,run_call,u,
        havailable,hsurface,hlistener]
  cases c with
  | audioPlayer => simp [ViewClass.hookUp,ViewClass.hookUpCalls,BaseViewPlayer.setAttached]
  | _ =>
    refine hview.trans ?_
    rw [hattach]
    cases hsurface : w.env.surfaceAvailable <;> simp [ViewClass.hookUpCalls,hsurface,u]

/-! ### How a constructor ends -/

/-- Nothing is created and nothing registered. -/
structure Bare (p : Player) : Prop where
  libVLC : p.libVLCRefCount = 0
  mediaPlayer : p.mediaPlayer.mNativeRefCount = 0
  registered : p.eventHandler.registered = false

section constructors
variable (c : ViewClass) (callback : Bool) (playerSizeMode videoHeight : ℤ) (env : Env)

/-- Without a LibVLC nothing is created. -/
lemma construct_bare (henv : env.createsLibVLC = false) :
    ∃ e v, (c.construct callback playerSizeMode videoHeight).run { env := env } = .error e v ∧
      Bare v.player := by
  obtain ⟨container,view,mode,height,heq⟩ := construct_eq c callback playerSizeMode videoHeight
  let x : World := { player := { playerContainer := container }, env := env }
  obtain ⟨e,v,hrun,hplayer⟩ := (run_createVLC x).2 henv
  have hupdate : (update fun p => { p with playerContainer := container }).run { env := env } =
      .ok () x := rfl
  refine ⟨e,v,?_,?_⟩
  · simp [heq,hupdate,hrun]
  · rw [hplayer]
    exact ⟨rfl,rfl,rfl⟩

/-- With one, it is kept, and the constructor returns if nothing else throws. -/
lemma construct_created (henv : env.createsLibVLC = true) :
    let r := (c.construct callback playerSizeMode videoHeight).run { env := env }
    (final r).player.libVLCRefCount = 1 ∧
      ((∃ v, r = .ok () v) ↔ ∀ k ∈ c.constructCalls env, env.throws k = false) := by
  intro r
  obtain ⟨container,view,mode,height,heq⟩ := construct_eq c callback playerSizeMode videoHeight
  let x : World := { player := { playerContainer := container }, env := env }
  obtain ⟨u,hrun,hplayer,huenv⟩ := (run_createVLC x).1 henv
  have hupdate : (update fun p => { p with playerContainer := container }).run { env := env } =
      .ok () x := rfl
  let rest := ZMediaPlayer.afterCreateVLC view callback mode height c.setVideoView
  have hr : r = (rest >>= fun _ => c.hookUp).run u := by
    simp only [r,heq,EStateM.run_bind,hupdate,hrun,rest]
  have hperforms := afterCreateVLC_performs c view callback mode height
  have hcalls : (∀ k ∈ c.constructCalls env, env.throws k = false) ↔
      (∃ a v, rest.run u = .ok a v) ∧ ∀ k ∈ c.hookUpCalls env, env.throws k = false := by
    have hreturns := hperforms.returns_iff u
    rw [huenv] at hreturns
    rw [hreturns,← List.forall_mem_append]
    rfl
  have hkept := hooked_afterCreateVLC c view callback mode height u
  simp only [hooked,fixes,hplayer,Prod.mk.injEq] at hkept
  rw [hr,EStateM.run_bind,hcalls]
  cases hrest : rest.run u with
  | error e v =>
    rw [hrest,final_error] at hkept
    exact ⟨hkept.1,by simp⟩
  | ok a v =>
    rw [hrest,final_ok] at hkept
    obtain ⟨hcount,hwindow,hrequested⟩ := hkept
    have hvenv : v.env = env := (sameEnv_ok hperforms.maintains hrest).trans huenv
    have hhook := hookUp_returns_iff c hwindow hrequested
    rw [hvenv] at hhook
    constructor
    · exact (KeepsLibVLC.hookUp c v).trans hcount
    · rw [hhook]
      simp

end constructors

/-! ### Many players -/

/-- A player of the process; `returned` says whether its constructor gave it to the client. -/
structure Member where
  generation : Generation
  world : World
  returned : Bool

namespace Member

def build (c : ViewClass) (callback : Bool) (playerSizeMode videoHeight : ℤ) (env : Env) : Member :=
  match (c.construct callback playerSizeMode videoHeight).run { env := env } with
  | .ok _ w => ⟨c.generation,w,true⟩
  | .error _ w => ⟨c.generation,w,false⟩

/-- Nobody can stop a player that was never returned. -/
def stop (m : Member) (env : Env) : Member :=
  if m.returned then { m with world := m.world.step m.generation recording ⟨.stop,env⟩ } else m

/-- Its constructor has returned and it has not been stopped. -/
def live (m : Member) : Bool := m.returned && !m.world.player.stopped

/-- The handler is registered as long as the player lives, and nothing created for it is
left after that. -/
structure Settled (m : Member) : Prop where
  registered : m.world.player.eventHandler.registered = m.live
  libVLC : m.live = false → m.world.player.libVLCRefCount = 0
  mediaPlayer : m.live = false → m.world.player.mediaPlayer.mNativeRefCount = 0

end Member

inductive Deed
  | construct (c : ViewClass) (callback : Bool) (playerSizeMode videoHeight : ℤ) (env : Env)
  | stop (i : ℕ) (env : Env)

namespace Deed

def act (fleet : List Member) : Deed → List Member
  | construct c callback playerSizeMode videoHeight env =>
    fleet ++ [.build c callback playerSizeMode videoHeight env]
  | stop i env => fleet.modify i fun m => m.stop env

/-- The constructor returns unless it has no LibVLC yet, and no player is stopped. -/
def Harmless (fleet : List Member) : Deed → Prop
  | construct c _ _ _ env =>
    env.createsLibVLC = true → ∀ k ∈ c.constructCalls env, env.throws k = false
  | stop i _ => ∀ m, fleet[i]? = some m → m.returned = false

end Deed

/-- The players after `deeds`, in the order of their construction. -/
def reach (deeds : List Deed) : List Member := deeds.foldl Deed.act []

lemma reach_concat (deeds : List Deed) (d : Deed) : reach (deeds ++ [d]) = d.act (reach deeds) := by
  simp [reach]

/-- Every player the client has been given has a LibVLC. -/
def Equipped (fleet : List Member) : Prop :=
  ∀ m ∈ fleet, m.returned = true → m.world.player.libVLCRefCount = 1

section members
variable (c : ViewClass) (callback : Bool) (playerSizeMode videoHeight : ℤ) (env : Env)

/-- The member is what the constructor leaves. -/
lemma build_eq : ∃ returned : Bool,
    Member.build c callback playerSizeMode videoHeight env = ⟨c.generation,
      final ((c.construct callback playerSizeMode videoHeight).run { env := env }),returned⟩ ∧
    (returned = true ↔ ∃ w, (c.construct callback playerSizeMode videoHeight).run { env := env } =
      .ok () w) := by
  unfold Member.build
  cases (c.construct callback playerSizeMode videoHeight).run { env := env } with
  | ok a w => exact ⟨true,rfl,by simp⟩
  | error e w => exact ⟨false,rfl,by simp⟩

lemma build_settled_iff : (Member.build c callback playerSizeMode videoHeight env).Settled ↔
    (env.createsLibVLC = true → ∀ k ∈ c.constructCalls env, env.throws k = false) := by
  obtain ⟨returned,hbuild,hreturned⟩ := build_eq c callback playerSizeMode videoHeight env
  rw [hbuild]
  cases henv : env.createsLibVLC with
  | false =>
    obtain ⟨e,v,hrun,hbare⟩ := construct_bare c callback playerSizeMode videoHeight env henv
    rw [hrun] at hreturned ⊢
    have hnot : returned = false := by
      simpa using hreturned
    constructor
    · intro _ h
      exact absurd h Bool.false_ne_true
    · intro _
      constructor
      · simp [Member.live,hnot,hbare.registered]
      · intro _
        exact hbare.libVLC
      · intro _
        exact hbare.mediaPlayer
  | true =>
    obtain ⟨hcount,hcalls⟩ := construct_created c callback playerSizeMode videoHeight env henv
    rw [← hcalls,← hreturned]
    constructor
    · intro hsettled _
      by_contra hnot
      have hzero := hsettled.libVLC (by simp [Member.live,hnot])
      rw [hcount] at hzero
      exact absurd hzero one_ne_zero
    · intro h
      obtain ⟨w,hw⟩ := hreturned.mp (h rfl)
      have hborn : Constructed c.generation callback w :=
        ⟨c,playerSizeMode,videoHeight,env,rfl,hw⟩
      have hlive : Member.live ⟨c.generation,w,returned⟩ = true := by
        simp [Member.live,h rfl,hborn.born.stopped]
      rw [hw,final_ok]
      constructor
      · rw [hlive,hborn.born.eventHandler]
      · intro hdead
        exact absurd (hlive.symm.trans hdead) Bool.noConfusion
      · intro hdead
        exact absurd (hlive.symm.trans hdead) Bool.noConfusion

lemma build_equipped : (Member.build c callback playerSizeMode videoHeight env).returned = true →
    (Member.build c callback playerSizeMode videoHeight env).world.player.libVLCRefCount = 1 := by
  obtain ⟨returned,hbuild,hreturned⟩ := build_eq c callback playerSizeMode videoHeight env
  rw [hbuild]
  intro h
  obtain ⟨w,hw⟩ := hreturned.mp h
  cases henv : env.createsLibVLC with
  | false =>
    obtain ⟨e,v,hrun,-⟩ := construct_bare c callback playerSizeMode videoHeight env henv
    rw [hrun] at hw
    exact absurd hw (by simp)
  | true => exact (construct_created c callback playerSizeMode videoHeight env henv).1

lemma stop_step (w : World) (g : Generation) : w.step g recording ⟨.stop,env⟩ =
    final (ZMediaPlayer.stop.run ((w.arrive env).observe (.entered .stop))) := by
  rw [World.step,step_stop g recording w rfl]

/-- A stop leaves the player with its LibVLC. -/
lemma stop_equipped {m : Member} (hm : m.returned = true)
    (hcount : m.world.player.libVLCRefCount = 1) :
    (m.stop env).returned = true ∧ (m.stop env).world.player.libVLCRefCount = 1 ∧
      (m.stop env).world.player.stopped = true := by
  unfold Member.stop
  rw [if_pos hm]
  refine ⟨hm,?_,?_⟩
  · dsimp only
    rw [stop_step]
    exact (KeepsLibVLC.stop _).trans hcount
  · dsimp only
    rw [stop_step]
    exact stop_marks _

lemma stop_unsettled {m : Member} (hm : m.returned = true)
    (hcount : m.world.player.libVLCRefCount = 1) : ¬(m.stop env).Settled := by
  obtain ⟨-,hkept,hstopped⟩ := stop_equipped env hm hcount
  intro h
  have hzero := h.libVLC (by simp [Member.live,hstopped])
  exact absurd (hkept.symm.trans hzero) one_ne_zero

end members

section fleets
variable {fleet : List Member}

lemma mem_stop {i : ℕ} {env : Env} {m : Member} (h : m ∈ Deed.act fleet (.stop i env)) :
    m ∈ fleet ∨ ∃ n, fleet[i]? = some n ∧ n.stop env = m := by
  obtain ⟨j,hj⟩ := List.mem_iff_getElem?.mp h
  rw [Deed.act,List.getElem?_modify] at hj
  obtain ⟨n,hn,hm⟩ := Option.map_eq_some_iff.mp hj
  by_cases hij : i = j
  · rw [if_pos hij] at hm
    exact .inr ⟨n,hij ▸ hn,hm⟩
  · rw [if_neg hij] at hm
    exact .inl (hm ▸ List.mem_of_getElem? hn)

lemma stop_mem {i : ℕ} {env : Env} {n : Member} (h : fleet[i]? = some n) :
    n.stop env ∈ Deed.act fleet (.stop i env) := by
  apply List.mem_of_getElem? (i := i)
  rw [Deed.act,List.getElem?_modify,h]
  simp

lemma Equipped.act (h : Equipped fleet) (d : Deed) : Equipped (d.act fleet) := by
  intro m hm hreturned
  cases d with
  | construct c callback playerSizeMode videoHeight env =>
    obtain hold | hnew := List.mem_append.mp hm
    · exact h m hold hreturned
    · rw [List.mem_singleton] at hnew
      rw [hnew] at hreturned ⊢
      exact build_equipped c callback playerSizeMode videoHeight env hreturned
  | stop i env =>
    obtain hold | ⟨n,hn,rfl⟩ := mem_stop hm
    · exact h m hold hreturned
    · have hmem := List.mem_of_getElem? hn
      cases hr : n.returned with
      | true => exact (stop_equipped env hr (h n hmem hr)).2.1
      | false => simp [Member.stop,hr] at hreturned

lemma equipped_reach (deeds : List Deed) : Equipped (reach deeds) := by
  induction deeds using List.reverseRecOn with
  | nil => simp [Equipped,reach]
  | append_singleton deeds d ih =>
    rw [reach_concat]
    exact ih.act d

/-- A deed on a settled fleet. -/
lemma act_settled_iff (hs : ∀ m ∈ fleet, m.Settled) (he : Equipped fleet) (d : Deed) :
    (∀ m ∈ d.act fleet, m.Settled) ↔ d.Harmless fleet := by
  cases d with
  | construct c callback playerSizeMode videoHeight env =>
    have hbuild := build_settled_iff c callback playerSizeMode videoHeight env
    refine Iff.trans ?_ hbuild
    constructor
    · intro h
      exact h _ (List.mem_append_right _ (List.mem_singleton_self _))
    · intro h m hm
      obtain hold | hnew := List.mem_append.mp hm
      · exact hs m hold
      · rw [List.mem_singleton.mp hnew]
        exact h
  | stop i env =>
    constructor
    · intro h m hm
      cases hr : m.returned with
      | false => rfl
      | true =>
        have hcount := he m (List.mem_of_getElem? hm) hr
        exact absurd (h _ (stop_mem hm)) (stop_unsettled env hr hcount)
    · intro h m hm
      obtain hold | ⟨n,hn,rfl⟩ := mem_stop hm
      · exact hs m hold
      · have hnot := h n hn
        rw [Member.stop,if_neg (by simp [hnot])]
        exact hs n (List.mem_of_getElem? hn)

end fleets

theorem fleet_settled_iff (deeds : List Deed) :
    (∀ before, before <+: deeds → ∀ m ∈ reach before, m.Settled) ↔
      ∀ before d after, deeds = before ++ d :: after → d.Harmless (reach before) := by
  change _ ↔ Throughout (fun before d => d.Harmless (reach before)) deeds
  induction deeds using List.reverseRecOn with
  | nil =>
    refine iff_of_true (fun before hpre => ?_) throughout_nil
    rw [List.prefix_nil.mp hpre]
    simp [reach]
  | append_singleton deeds d ih =>
    rw [throughout_concat,← ih]
    constructor
    · intro h
      have hbefore : ∀ before, before <+: deeds → ∀ m ∈ reach before, m.Settled :=
        fun before hpre => h before (hpre.trans (List.prefix_append _ _))
      have hlast := h (deeds ++ [d]) (List.prefix_refl _)
      rw [reach_concat] at hlast
      exact ⟨hbefore,(act_settled_iff (hbefore deeds (List.prefix_refl _)) (equipped_reach _) d).mp hlast⟩
    · rintro ⟨hbefore,hd⟩ before hpre
      obtain rfl | hpre := List.prefix_concat_iff.mp hpre
      · rw [reach_concat]
        exact (act_settled_iff (hbefore deeds (List.prefix_refl _)) (equipped_reach _) d).mpr hd
      · exact hbefore before hpre

/-- Stopping a player leaves its LibVLC, and a view that throws leaves all three. -/
theorem fleet_unsettled :
    (¬∀ before, before <+: [Deed.construct .audioPlayer true 0 0 {},.stop 0 {}] →
      ∀ m ∈ reach before, m.Settled) ∧
    ¬∀ before, before <+: [Deed.construct .textureViewPlayer true 0 0
        { throws := fun c => c = .setVideoView }] → ∀ m ∈ reach before, m.Settled := by
  constructor
  · intro h
    have hstopped := h _ (List.prefix_refl _) _ (List.mem_of_getElem? (i := 0) rfl)
    exact absurd (hstopped.libVLC (by decide)) (by decide)
  · intro h
    have hfailed := h _ (List.prefix_refl _) _ (List.mem_of_getElem? (i := 0) rfl)
    exact absurd hfailed.registered (by decide)

/-! ### What is given back -/

/-- The handler and the media player last as long as the player lives. -/
structure Member.Handled (m : Member) : Prop where
  registered : m.world.player.eventHandler.registered = m.live
  mediaPlayer : m.world.player.mediaPlayer.mNativeRefCount = if m.live then 1 else 0

/-- A constructor that gets its LibVLC returns, and so does a stop. -/
def Deed.Returns (fleet : List Member) : Deed → Prop
  | construct c _ _ _ env =>
    env.createsLibVLC = true → ∀ k ∈ c.constructCalls env, env.throws k = false
  | stop i env => ∀ m, fleet[i]? = some m → m.returned = true →
    ∃ v, ZMediaPlayer.stop.run ((m.world.arrive env).observe (.entered .stop)) = .ok () v

/-- A player that lives no longer and has given both back. -/
lemma handled_of_dead {m : Member} (hlive : m.live = false)
    (hregistered : m.world.player.eventHandler.registered = false)
    (hcount : m.world.player.mediaPlayer.mNativeRefCount = 0) : m.Handled := by
  constructor
  · rw [hlive,hregistered]
  · rw [hlive,hcount]
    rfl

lemma stop_handled {m : Member} (h : m.Handled) {env : Env} (hreturns : m.returned = true →
    ∃ v, ZMediaPlayer.stop.run ((m.world.arrive env).observe (.entered .stop)) = .ok () v) :
    (m.stop env).Handled := by
  unfold Member.stop
  by_cases hr : m.returned = true
  · obtain ⟨v,hv⟩ := hreturns hr
    have hworld : m.world.step m.generation recording ⟨.stop,env⟩ = v := by
      rw [stop_step,hv,final_ok]
    rw [if_pos hr,hworld]
    rw [run_stop] at hv
    by_cases hstopped : m.world.player.stopped = true
    · have hlive : m.live = false := by simp [Member.live,hstopped]
      obtain ⟨hregistered,hcount⟩ := h
      rw [hlive] at hregistered hcount
      obtain ⟨-,rfl⟩ := EStateM.Result.ok.inj ((if_pos hstopped).symm.trans hv)
      exact handled_of_dead hlive hregistered hcount
    · have hlive : m.live = true := by simp [Member.live,hr,hstopped]
      have hcount := h.mediaPlayer
      rw [hlive,if_pos rfl] at hcount
      have hcontrol := (tearDown_ok ((if_neg hstopped).symm.trans hv)).1.control
      have hmarked : v.player.stopped = true := congrArg Control.stopped hcontrol
      apply handled_of_dead
      · simp [Member.live,hmarked]
      · exact congrArg (fun c => c.eventHandler.registered) hcontrol
      · refine (congrArg Control.mNativeRefCount hcontrol).trans ?_
        change m.world.player.mediaPlayer.mNativeRefCount - 1 = 0
        omega
  · rw [if_neg hr]
    exact h

lemma build_handled (c : ViewClass) (callback : Bool) (playerSizeMode videoHeight : ℤ) {env : Env}
    (h : env.createsLibVLC = true → ∀ k ∈ c.constructCalls env, env.throws k = false) :
    (Member.build c callback playerSizeMode videoHeight env).Handled := by
  have hsettled := (build_settled_iff c callback playerSizeMode videoHeight env).mpr h
  obtain ⟨returned,hbuild,hreturned⟩ := build_eq c callback playerSizeMode videoHeight env
  rw [hbuild] at hsettled ⊢
  refine ⟨hsettled.registered,?_⟩
  by_cases hr : returned = true
  · obtain ⟨w,hw⟩ := hreturned.mp hr
    have hconstructed : Constructed c.generation callback w :=
      ⟨c,playerSizeMode,videoHeight,env,rfl,hw⟩
    have hborn := hconstructed.born
    have hlive : Member.live ⟨c.generation,w,returned⟩ = true := by
      simp [Member.live,hr,hborn.stopped]
    rw [hw,final_ok,hlive,if_pos rfl]
    exact hborn.mNativeRefCount
  · have hdead : Member.live ⟨c.generation,final ((c.construct callback playerSizeMode
        videoHeight).run { env := env }),returned⟩ = false := by simp [Member.live,hr]
    rw [hdead]
    exact hsettled.mediaPlayer hdead

/-- What is left of the balance where stops are allowed: the handlers and the media players. -/
theorem fleet_handled (deeds : List Deed)
    (h : ∀ before d after, deeds = before ++ d :: after → d.Returns (reach before)) :
    ∀ m ∈ reach deeds, m.Handled := by
  change Throughout (fun before d => d.Returns (reach before)) deeds at h
  induction deeds using List.reverseRecOn with
  | nil => simp [reach]
  | append_singleton deeds d ih =>
    obtain ⟨hbefore,hd⟩ := (throughout_concat deeds d).mp h
    have hhandled := ih hbefore
    rw [reach_concat]
    intro m hm
    cases d with
    | construct c callback playerSizeMode videoHeight env =>
      obtain hold | hnew := List.mem_append.mp hm
      · exact hhandled m hold
      · rw [List.mem_singleton.mp hnew]
        exact build_handled c callback playerSizeMode videoHeight hd
    | stop i env =>
      obtain hold | ⟨n,hn,rfl⟩ := mem_stop hm
      · exact hhandled m hold
      · exact stop_handled (hhandled n (List.mem_of_getElem? hn)) (hd n hn)

end ZenMedia
