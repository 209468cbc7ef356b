import ZenMedia.Construction
import ZenMedia.StoppedRuns
import ZenMedia.TraceLaws

/-! What a player still does behind a `stop` that has returned. The guards
`mediaPlayer == null` of the commands never apply, because `stop` keeps the reference
to the media player it releases. -/
namespace ZenMedia
open Reentrant TraceLaws

/-- The calls of the client and the surface notifications. -/
def Op.isClient : Op → Bool
  | handleMessage _ | onSurfacesCreated | onSurfacesDestroyed | onNewLayout _ => false
  | _ => true

/-- The playing, seeking, media-setting and querying methods of `VLCMediaPlayer`. -/
def Call.uses : Call → Bool
  | setMedia | play | pause | setPosition _ | getPosition | isPlaying | getLength => true
  | _ => false

namespace Obs

def uses : Obs → Bool
  | call c _ => c.uses
  | _ => false

def calls (c : Call) : Obs → Bool
  | call d _ => d = c
  | _ => false

end Obs

/-- A step calls `nativeRelease`, and returns. -/
def ReleasesNative (g : Generation) (w : World) (s : Step) : Prop :=
  ∃ v new, ((s.prog g).exec recording).run w = .ok () v ∧ v.log = w.log ++ new ∧
    ∃ released, .call .nativeRelease released ∈ new

/-- The native player is released by one of the steps, and each step of the teardown, native
ones included, has been made once. -/
structure Finished (g : Generation) (w : World) (steps : List Step) : Prop where
  released : ∃ before s after, steps = before ++ s :: after ∧
    ReleasesNative g (w.run g recording before) s
  once : ∀ c : Call, c.ends = true → (w.run g recording steps).log.countP (Obs.calls c) = 1

/-- What a stop of a player that is not stopped calls. -/
def Player.endCalls (p : Player) : List Call :=
  p.stopCalls ++ .release :: (p.mediaPlayer.mMedia.toList.map .releaseMedia ++ [.nativeRelease])

/-- No stop that finds the player not stopped meets an exception in a call it makes. -/
def Unhindered (g : Generation) (w : World) (steps : List Step) : Prop :=
  Throughout (fun before s => s.op.isStop = true → (w.run g recording before).player.stopped = false →
    ∀ c ∈ (w.run g recording before).player.endCalls, s.env.throws c = false) steps

/-! ### The teardown is made once -/

lemma countP_calls {w v : World} (h : Appends (fun o => o.ends = false) w v) {c : Call}
    (hc : c.ends = true) : v.log.countP (Obs.calls c) = w.log.countP (Obs.calls c) := by
  obtain ⟨new,hlog,hnew⟩ := h
  have hnone : new.countP (Obs.calls c) = 0 := by
    refine List.countP_eq_zero.mpr fun o ho => ?_
    have := hnew o ho
    cases o with
    | call d released =>
      rintro hd
      have hdc : d = c := by simpa [Obs.calls] using hd
      simp [Obs.ends,hdc,hc] at this
    | _ => simp [Obs.calls]
  rw [hlog,List.countP_append,hnone,Nat.add_zero]

lemma countP_stopCalls (p : Player) (released : Bool) {c : Call} (hc : c.ends = true) :
    (p.stopCalls.map fun d => Obs.call d released).countP (Obs.calls c) =
      if c = .release ∨ c = .nativeRelease then 0 else 1 := by
  cases hview : p.playerView <;> cases c <;> simp_all [Call.ends,Call.tearsDown] <;>
    simp [Player.stopCalls,hview,Obs.calls]

lemma countP_releaseCalls (p : MediaPlayer) {c : Call} (hc : c.ends = true) :
    p.releaseCalls.countP (Obs.calls c) = if c = .nativeRelease then 1 else 0 := by
  cases hm : p.mMedia <;> cases c <;> simp_all [Call.ends,Call.tearsDown] <;>
    simp [MediaPlayer.releaseCalls,hm,Obs.calls]

/-- A teardown that comes to its end makes each of its steps once. -/
lemma countP_tearDownCalls {p : Player} (hone : p.mediaPlayer.mNativeRefCount = 1) {c : Call}
    (hc : c.ends = true) : p.tearDownCalls.countP (Obs.calls c) = 1 := by
  simp only [Player.tearDownCalls,if_pos hone,List.countP_append,List.countP_cons]
  rw [countP_stopCalls _ _ hc,countP_releaseCalls _ hc]
  cases c <;> simp_all [Call.ends,Call.tearsDown,Obs.calls]

lemma nativeRelease_mem {p : Player} (hone : p.mediaPlayer.mNativeRefCount = 1) :
    Obs.call .nativeRelease true ∈ p.tearDownCalls := by
  simp [Player.tearDownCalls,MediaPlayer.releaseCalls,hone]

section teardown
variable {w : World}

lemma beforeRelease_returns (h : ∀ c ∈ w.player.stopCalls, w.env.throws c = false) :
    ∃ v, ZMediaPlayer.beforeRelease.run w = .ok () v := by
  simp only [Player.stopCalls,List.mem_append,List.mem_cons,List.not_mem_nil,or_false] at h
  cases hpv : w.player.playerView <;> by_cases hinit : w.player.mediaPlayer.mWindow = .init <;>
    simp [ZMediaPlayer.beforeRelease,EventHandler.removeHandler,ZMediaPlayer.releaseScreen,
      MediaPlayer.stop,AWindow.detachViews,MediaPlayer.onSurfacesDestroyed,run_call,hpv,hinit,h]

lemma onReleaseNative_returns_iff : (∃ v, MediaPlayer.onReleaseNative.run w = .ok () v) ↔
    ∀ c ∈ w.player.mediaPlayer.mMedia.toList.map Call.releaseMedia ++ [.nativeRelease],
      w.env.throws c = false := by
  cases hm : w.player.mediaPlayer.mMedia with
  | none =>
    cases hnative : w.env.throws .nativeRelease <;>
      simp [MediaPlayer.onReleaseNative,MediaPlayer.releaseMedia,run_call,hm,hnative]
  | some media =>
    cases hnative : w.env.throws .nativeRelease <;>
      cases hmedia : w.env.throws (.releaseMedia media) <;>
      simp [MediaPlayer.onReleaseNative,MediaPlayer.releaseMedia,Media.release,run_call,hm,hnative,hmedia]

/-- A teardown comes to its end unless a call that it makes throws. -/
lemma tearDown_returns_iff (hone : w.player.mediaPlayer.mNativeRefCount = 1) :
    (∃ v, ZMediaPlayer.tearDown.run w = .ok () v) ↔
      ∀ c ∈ w.player.endCalls, w.env.throws c = false := by
  have hsplit : (∀ c ∈ w.player.endCalls, w.env.throws c = false) ↔
      (∀ c ∈ w.player.stopCalls, w.env.throws c = false) ∧ w.env.throws .release = false ∧
        ∀ c ∈ w.player.mediaPlayer.mMedia.toList.map Call.releaseMedia ++ [.nativeRelease],
          w.env.throws c = false := by
    simp only [Player.endCalls,List.forall_mem_append,List.forall_mem_cons]
  have hrelease : ∀ v, ZMediaPlayer.beforeRelease.run w = .ok () v →
      ((∃ x, MediaPlayer.release.run v = .ok () x) ↔ w.env.throws .release = false ∧
        ∀ c ∈ w.player.mediaPlayer.mMedia.toList.map Call.releaseMedia ++ [.nativeRelease],
          w.env.throws c = false) := by
    intro v hv
    obtain ⟨hp,he,-⟩ := beforeRelease_ok hv
    have hcount : v.player.mediaPlayer.mNativeRefCount = 1 := by
      rw [hp]
      exact hone
    have hnative := onReleaseNative_returns_iff (w := v.dropped)
    have hmedia : v.dropped.player.mediaPlayer.mMedia = w.player.mediaPlayer.mMedia := by
      simp [World.dropped,hp,Player.detached]
    have henv : v.dropped.env = w.env := he
    rw [hmedia,henv] at hnative
    rw [run_release hcount,he]
    cases w.env.throws .release with
    | true => simp
    | false => simpa using hnative
  rw [run_tearDown,hsplit]
  constructor
  · rintro ⟨x,hx⟩
    cases hbefore : ZMediaPlayer.beforeRelease.run w with
    | ok u v =>
      rw [hbefore] at hx
      exact ⟨beforeRelease_quiet hbefore,(hrelease v hbefore).mp ⟨x,hx⟩⟩
    | error e v =>
      rw [hbefore] at hx
      cases hx
  · rintro ⟨hstop,hrest⟩
    obtain ⟨v,hv⟩ := beforeRelease_returns hstop
    rw [hv]
    exact (hrelease v hv).mpr hrest

end teardown

/-! ### Runs of a player that is stopped once -/

lemma stop_marks (w : World) : (final (ZMediaPlayer.stop.run w)).player.stopped = true :=
  (stop_standing w).stopped rfl

section account
variable {g : Generation} {w : World} {steps : List Step} {s : Step}

lemma run_split (before : List Step) :
    w.run g recording (before ++ steps) = (w.run g recording before).run g recording steps :=
  List.foldl_append

lemma not_releasesNative (h : Appends (fun o => o.ends = false) w (w.step g recording s)) :
    ¬ReleasesNative g w s := by
  rintro ⟨v,new,hv,hlog,released,hmem⟩
  obtain ⟨new',hlog',hnew⟩ := h
  rw [World.step,hv,final_ok] at hlog'
  have hsame : new = new' := List.append_cancel_left (hlog.symm.trans hlog')
  have := hnew _ (hsame ▸ hmem)
  simp [Obs.ends,Call.ends] at this

lemma released_concat : (∃ before t after, steps ++ [s] = before ++ t :: after ∧
      ReleasesNative g (w.run g recording before) t) ↔
    (∃ before t after, steps = before ++ t :: after ∧
      ReleasesNative g (w.run g recording before) t) ∨
      ReleasesNative g (w.run g recording steps) s := by
  constructor
  · rintro ⟨before,t,after,heq,ht⟩
    rcases List.eq_nil_or_concat after with rfl | ⟨after,last,rfl⟩
    · obtain ⟨rfl,hst⟩ := List.append_inj' heq rfl
      obtain rfl := List.singleton_inj.mp hst
      exact .inr ht
    · rw [List.concat_eq_append,← List.cons_append,← List.append_assoc] at heq
      exact .inl ⟨before,t,after,List.append_inj_left' heq rfl,ht⟩
  · rintro (⟨before,t,after,rfl,ht⟩ | h)
    · exact ⟨before,t,after ++ [s],by simp,ht⟩
    · exact ⟨steps,s,[],rfl,h⟩

/-- A step that makes no part of the teardown changes nothing about it. -/
lemma finished_concat (h : Appends (fun o => o.ends = false) (w.run g recording steps)
      ((w.run g recording steps).step g recording s)) :
    Finished g w (steps ++ [s]) ↔ Finished g w steps := by
  have hcount : ∀ c : Call, c.ends = true → (w.run g recording (steps ++ [s])).log.countP
      (Obs.calls c) = (w.run g recording steps).log.countP (Obs.calls c) := by
    intro c hc
    rw [run_concat]
    exact countP_calls h hc
  constructor
  · rintro ⟨hreleased,honce⟩
    refine ⟨(released_concat.mp hreleased).resolve_right (not_releasesNative h),fun c hc => ?_⟩
    exact (hcount c hc).symm.trans (honce c hc)
  · rintro ⟨hreleased,honce⟩
    exact ⟨released_concat.mpr (.inl hreleased),fun c hc => (hcount c hc).trans (honce c hc)⟩

/-- Before a stop nothing of the teardown is made; from the first one on, all of it is made just
when nothing has thrown in that stop. -/
structure Accounted (g : Generation) (w : World) (steps : List Step) : Prop where
  running : (w.run g recording steps).player.stopped = false →
    (w.run g recording steps).player.mediaPlayer.mNativeRefCount = 1 ∧
      (∀ c : Call, c.ends = true → (w.run g recording steps).log.countP (Obs.calls c) = 0) ∧
      ∀ s ∈ steps, s.op.isStop = false
  stopped : (w.run g recording steps).player.stopped = true →
    (Finished g w steps ↔ Unhindered g w steps)

lemma Born.accounted {callback : Bool} (h : Born callback w) : Accounted g w [] where
  running _ := by
    refine ⟨h.mNativeRefCount,fun c hc => List.countP_eq_zero.mpr fun o ho => ?_,by simp⟩
    have := h.log o ho
    cases o with
    | call d released =>
      rintro hd
      have hdc : d = c := by simpa [Obs.calls] using hd
      simp [Obs.isOrdinaryCall,hdc,hc] at this
    | _ => simp [Obs.calls]
  stopped hs := by
    have := h.stopped
    simp_all [World.run]

/-- A step that is no stop, or comes too late to be one. -/
lemma Accounted.steady (h : Accounted g w steps)
    (hs : steady.rel (w.run g recording steps) ((w.run g recording steps).step g recording s))
    (hstop : s.op.isStop = true → (w.run g recording steps).player.stopped = true) :
    Accounted g w (steps ++ [s]) := by
  obtain ⟨hstopped,hcount,happends,-,-⟩ := hs
  constructor
  · rw [run_concat]
    intro hv
    obtain ⟨hone,hnone,hall⟩ := h.running (hstopped.symm.trans hv)
    refine ⟨hcount.trans hone,fun c hc => (countP_calls happends hc).trans (hnone c hc),?_⟩
    intro t ht
    rcases List.mem_append.mp ht with ht | ht
    · exact hall t ht
    · obtain rfl := List.mem_singleton.mp ht
      by_contra hop
      have := hstop (Bool.eq_true_of_not_eq_false hop)
      rw [hstopped,this] at hv
      cases hv
  · rw [run_concat]
    intro hv
    rw [finished_concat happends,h.stopped (hstopped.symm.trans hv),Unhindered,Unhindered,
      throughout_concat]
    refine (and_iff_left fun hop hrunning => ?_).symm
    rw [hstop hop] at hrunning
    cases hrunning

/-- The stop that finds the player not stopped. -/
lemma Accounted.stop (h : Accounted g w steps) (hs : s.op.isStop = true)
    (hrunning : (w.run g recording steps).player.stopped = false) :
    Accounted g w (steps ++ [s]) := by
  obtain ⟨hone,hnone,hall⟩ := h.running hrunning
  generalize hy : w.run g recording steps = y at hone hnone hrunning
  let x := (y.arrive s.env).observe (.entered s.op)
  have hstop : ((s.prog g).exec recording).run y = ZMediaPlayer.tearDown.run x := by
    rw [step_stop g recording y hs,run_stop,if_neg]
    rw [World.observe_player,World.arrive_stopped,hrunning]
    exact Bool.false_ne_true
  have hmarked : (y.step g recording s).player.stopped = true := by
    rw [World.step,step_stop g recording y hs]
    exact stop_marks _
  have hreturns := tearDown_returns_iff (w := x) hone
  have hunhindered : Unhindered g w (steps ++ [s]) ↔ ∃ v, ZMediaPlayer.tearDown.run x = .ok () v := by
    have hbefore : Unhindered g w steps := by
      intro before t after heq ht
      have := hall t (by simp [heq])
      rw [this] at ht
      cases ht
    rw [Unhindered,throughout_concat,hy,hreturns]
    exact ⟨fun hq => hq.2 hs hrunning,fun hq => ⟨hbefore,fun _ _ => hq⟩⟩
  constructor
  · rw [run_concat,hy,hmarked]
    intro hv
    cases hv
  · intro _
    rw [hunhindered]
    constructor
    · rintro ⟨hreleased,-⟩
      rcases released_concat.mp hreleased with ⟨before,t,after,heq,ht⟩ | ht
      · have hsteady := step_steady g (w.run g recording before) (hall t (by simp [heq]))
        exact absurd ht (not_releasesNative hsteady.log)
      · obtain ⟨v,new,hv,-⟩ := ht
        rw [hy,hstop] at hv
        exact ⟨v,hv⟩
    · rintro ⟨v,hv⟩
      obtain ⟨-,-,hlog⟩ := tearDown_ok hv
      have hrun : w.run g recording (steps ++ [s]) = v := by
        rw [run_concat,hy,World.step,hstop,hv,final_ok]
      have hcalls : ∀ c : Call, c.ends = true → x.player.tearDownCalls.countP (Obs.calls c) = 1 :=
        fun c hc => countP_tearDownCalls hone hc
      refine ⟨released_concat.mpr (.inr ?_),fun c hc => ?_⟩
      · rw [hy]
        refine ⟨v,.entered s.op :: x.player.tearDownCalls,hstop.trans hv,?_,true,?_⟩
        · rw [hlog]
          exact List.append_assoc _ _ _
        · exact List.mem_cons_of_mem _ (nativeRelease_mem hone)
      · have hentered : x.log.countP (Obs.calls c) = 0 := by
          simp only [x,World.observe_log,World.arrive_log,List.countP_append,hnone c hc]
          rfl
        rw [hrun,hlog,List.countP_append,hentered,hcalls c hc]

end account

/-- Whatever the steps are. -/
theorem run_accounted (g : Generation) {w : World} (hw : Accounted g w []) (steps : List Step) :
    Accounted g w steps := by
  induction steps using List.reverseRecOn with
  | nil => exact hw
  | append_singleton steps s ih =>
    by_cases hs : s.op.isStop = true
    · cases hstopped : (w.run g recording steps).player.stopped with
      | false => exact ih.stop hs hstopped
      | true =>
        refine ih.steady ?_ fun _ => hstopped
        have hentered : (((w.run g recording steps).arrive s.env).observe
            (.entered s.op)).player.stopped = true := hstopped
        rw [World.step,step_stop g recording _ hs,run_stop,if_pos hentered]
        exact steady_enter _ s
    · exact ih.steady (step_steady g _ (Bool.eq_false_of_not_eq_true hs)) fun hop => absurd hop hs

/-! ### What a step uses -/

/-- Nothing logged between `w` and `v` uses the media player. -/
def Unused (w v : World) : Prop := Appends (fun o => o.uses = false) w v

/-- Something logged between `w` and `v` does. -/
def Uses (w v : World) : Prop := ∃ new, v.log = w.log ++ new ∧ ∃ o ∈ new, o.uses = true

def grows : Frame World := appending fun _ => True

lemma untouched_grows (w v : World) (h : untouched.rel w v) : grows.rel w v := by
  exact h.2.2.mono fun _ _ => trivial

namespace Uses
variable {w v u : World}

lemma not_unused (h : Uses w v) : ¬Unused w v := by
  obtain ⟨new,hlog,o,ho,huses⟩ := h
  rintro ⟨new',hlog',hall⟩
  have hsame : new = new' := List.append_cancel_left (hlog.symm.trans hlog')
  simp [hall o (hsame ▸ ho)] at huses

lemma after (h : Uses v u) (hw : grows.rel w v) : Uses w u := by
  obtain ⟨new,hlog,o,ho,huses⟩ := h
  obtain ⟨new',hlog',-⟩ := hw
  exact ⟨new' ++ new,by simp [hlog,hlog'],o,by simp [ho],huses⟩

lemma before (h : Uses w v) (hv : grows.rel v u) : Uses w u := by
  obtain ⟨new,hlog,o,ho,huses⟩ := h
  obtain ⟨new',hlog',-⟩ := hv
  exact ⟨new ++ new',by simp [hlog,hlog'],o,by simp [ho],huses⟩

lemma call {c : Call} (hc : c.uses = true) (w : World) :
    Uses w (final ((ZenMedia.call c).run w)) := by
  rw [final_run_call]
  exact ⟨[_],rfl,_,List.mem_singleton_self _,hc⟩

lemma bind {α β : Type} {m : M α} {f : α → M β} (h : Uses w (final (m.run w)))
    (hf : ∀ a, Maintains untouched (f a)) : Uses w (final ((m >>= f).run w)) := by
  rw [EStateM.run_bind]
  cases hm : m.run w with
  | ok a v =>
    rw [hm,final_ok] at h
    exact h.before (untouched_grows _ _ (hf a v))
  | error e v =>
    rw [hm,final_error] at h
    exact h

end Uses

/-- Whether `play(hasVideo)` gets its media. -/
def MediaMade (hasVideo : Bool) (env : Env) : Prop :=
  env.throws .newMedia = false ∧ env.throws .parse = false ∧
    (hasVideo = false → env.throws (.addOption ":no-video") = false)

lemma openMedia_returns_iff (hasVideo : Bool) (w : World) :
    (∃ media v, (ZMediaPlayer.openMedia hasVideo).run w = .ok media v) ↔ MediaMade hasVideo w.env := by
  cases hnew : w.env.throws .newMedia <;> cases hparse : w.env.throws .parse <;>
    cases hasVideo <;> cases hoption : w.env.throws (.addOption ":no-video") <;>
    simp [ZMediaPlayer.openMedia,ZMediaPlayer.newMedia,run_call,MediaMade,hnew,hparse,hoption]

lemma openMedia_unused (hasVideo : Bool) :
    Maintains (appending fun o => o.uses = false) (ZMediaPlayer.openMedia hasVideo) := by
  have hcall : ∀ c : Call, c.uses = false → Maintains (appending fun o => o.uses = false) (call c) :=
    fun c hc => Appending.call fun _ => hc
  refine (Maintains.sequential _).openMedia ?_ (hcall _ rfl) (fun _ => hcall _ rfl) hasVideo
  exact .bind (hcall _ rfl) fun _ => (maintains_player _).bind fun _ =>
    .bind (Appending.update _) fun _ => .pure _

lemma setMedia_uses (media : Media) (w : World) :
    Uses w (final ((MediaPlayer.setMedia (some media)).run w)) :=
  (Uses.call rfl w).bind fun _ => Untouched.commands.releaseMedia.bind fun _ =>
    (Untouched.commands.acquire media).bind fun _ => .bind (Untouched.update fun _ => rfl) fun _ =>
      .bind (Untouched.call rfl) fun _ => Untouched.update fun _ => rfl

/-- `play(hasVideo)` uses the media player once it has its media. -/
lemma play_uses {hasVideo : Bool} {w : World} (h : MediaMade hasVideo w.env) :
    Uses w (final ((ZMediaPlayer.play hasVideo).run w)) := by
  let x := w.observe (.start hasVideo)
  obtain ⟨media,v,hopen⟩ := (openMedia_returns_iff hasVideo x).mpr h
  have hgrows := untouched_grows _ _ (Untouched.openMedia hasVideo x)
  rw [hopen,final_ok] at hgrows
  have hmedia : Uses v (final ((ZMediaPlayer.playMedia media).run v)) :=
    (setMedia_uses media v).bind fun _ => (Untouched.commands.release _).bind fun _ =>
      Untouched.commands.setVideoTitleDisplay.bind fun _ => Untouched.commands.play
  rw [run_playMedia,EStateM.run_bind,hopen]
  exact hmedia.after (grows.trans (.one rfl trivial) hgrows)

/-- Without its media it does not get to the media player. -/
lemma play_unused {hasVideo : Bool} {w : World} (h : ¬MediaMade hasVideo w.env) :
    ∃ e v, (ZMediaPlayer.play hasVideo).run w = .error e v ∧ Unused w v := by
  let x := w.observe (.start hasVideo)
  have hunused := openMedia_unused hasVideo x
  have hrun := run_playMedia hasVideo w
  cases hopen : (ZMediaPlayer.openMedia hasVideo).run x with
  | ok media v => exact absurd ((openMedia_returns_iff hasVideo x).mp ⟨media,v,hopen⟩) h
  | error e v =>
    rw [hopen,final_error] at hunused
    rw [EStateM.run_bind,hopen] at hrun
    exact ⟨e,v,hrun,Appends.trans (.one rfl rfl) hunused⟩

/-- A report to the client leaves the media player alone. -/
lemma reported_appends {p : Obs → Prop} (hp : ∀ c, p (.callback c))
    (r : EStateM.Result Throwable World Unit) : Appends p (final r) (reported recording r) := by
  cases r with
  | ok a v => exact .refl v
  | error e v =>
    have hrun := run_notifyIfSet recording v (pure (.onError e))
    rw [reported,BaseViewPlayer.reportError,hrun]
    cases v.player.callBack with
    | false => exact .refl v
    | true => exact .one rfl (hp _)

/-- The steps of a stopped player that leave its media player alone. -/
def Harmless (w : World) (s : Step) : Prop :=
  match s.op with
  | .stop | .release | .handleSurfaceAvailable => True
  | .requestPlay hasVideo => w.player.attached = true → ¬MediaMade hasVideo s.env
  | _ => False

section steps
variable (g : Generation) {w : World} {s : Step}

lemma requestPlay_unused_iff (hasVideo : Bool) (env : Env) :
    Unused w (w.step g recording ⟨.requestPlay hasVideo,env⟩) ↔
      (w.player.attached = true → ¬MediaMade hasVideo env) := by
  let x := (w.arrive env).observe (.entered (.requestPlay hasVideo))
  have hx : Unused w x := .one rfl rfl
  rw [step_requestPlay]
  by_cases hattached : w.player.attached = true
  · rw [if_pos hattached]
    by_cases hmade : MediaMade hasVideo env
    · have huses : Uses (x.asked hasVideo) _ := play_uses hmade
      have hreport := reported_appends (p := fun _ => True) (fun _ => trivial)
        ((ZMediaPlayer.play hasVideo).run (x.asked hasVideo))
      refine iff_of_false ?_ (by simp [hattached,hmade])
      exact ((huses.before hreport).after (.one rfl trivial)).not_unused
    · obtain ⟨e,v,hplay,hunused⟩ := play_unused (w := x.asked hasVideo) hmade
      have hreport := reported_appends (p := fun o => o.uses = false) (fun _ => rfl) (.error e v)
      rw [hplay]
      refine iff_of_true ?_ fun _ => hmade
      exact hx.trans (hunused.trans hreport)
  · rw [if_neg hattached]
    exact iff_of_true hx (by simp [hattached])

/-- A command that starts with a use of the media player. -/
lemma command_uses {m : M Unit} (hop : (s.op.prog g).exec recording = m)
    (hm : ∀ x, Uses x (final (m.run x))) : ¬Unused w (w.step g recording s) := by
  rw [World.step,run_exec_prog,hop]
  exact ((hm _).after (.one rfl trivial)).not_unused

lemma mediaPlayer_play_uses (w : World) : Uses w (final (MediaPlayer.play.run w)) := by
  refine (Uses.call rfl w).bind fun _ => (maintains_player _).bind fun _ => .ite ?_ ?_
  · exact Untouched.commands.startNative
  · refine Untouched.commands.request.bind fun _ => ((maintains_player _).bind fun _ => .pure _).bind
      fun _ => .ite (.pure _) Untouched.commands.startNative

lemma setPosition_uses (position : ℚ) (w : World) :
    Uses w (final ((MediaPlayer.setPosition position).run w)) :=
  (Uses.call rfl w).bind fun _ => Untouched.update fun _ => rfl

lemma resume_uses (w : World) : Uses w (final (g.resume.run w)) := by
  cases g with
  | zMediaPlayer =>
    by_cases hposition : 0 < w.player.position
    · have hrun : ZMediaPlayer.restorePosition.run w =
          (MediaPlayer.setPosition w.player.position).run w := by
        simp [ZMediaPlayer.restorePosition,hposition]
      have hfirst : Uses w (final (ZMediaPlayer.restorePosition.run w)) := by
        rw [hrun]
        exact setPosition_uses _ w
      exact hfirst.bind fun _ => Untouched.commands.play
    · have hrun : (Generation.zMediaPlayer.resume).run w = MediaPlayer.play.run w := by
        simp [Generation.resume,ZMediaPlayer.resume,ZMediaPlayer.restorePosition,hposition]
      rw [hrun]
      exact mediaPlayer_play_uses w
  | zMediaPlayer2 => exact mediaPlayer_play_uses w

lemma pause_uses (w : World) : Uses w (final (g.pause.run w)) := by
  cases g with
  | zMediaPlayer =>
    exact (Uses.call rfl w).bind fun _ => Untouched.commands.getPosition.bind fun _ =>
      Untouched.update fun _ => rfl
  | zMediaPlayer2 => exact Uses.call rfl w

theorem unused_iff (hw : w.player.stopped = true) (hs : s.op.isClient = true) :
    Unused w (w.step g recording s) ↔ Harmless w s := by
  have hentered : Unused w ((w.arrive s.env).observe (.entered s.op)) := .one rfl rfl
  have hstopped : ((w.arrive s.env).observe (.entered s.op)).player.stopped = true := hw
  have hstop : s.op.isStop = true → Unused w (w.step g recording s) := by
    intro hop
    rw [World.step,step_stop g recording w hop,run_stop,if_pos hstopped]
    exact hentered
  obtain ⟨op,env⟩ := s
  cases op with
  | requestPlay hasVideo => exact requestPlay_unused_iff g hasVideo env
  | handleSurfaceAvailable =>
    refine iff_of_true ?_ trivial
    rw [step_handleSurfaceAvailable,if_pos hw]
    exact hentered
  | stop => exact iff_of_true (hstop rfl) trivial
  | release => exact iff_of_true (hstop rfl) trivial
  | pause => exact iff_of_false (command_uses g (Prog.exec_monadLift _ _) (pause_uses g)) id
  | simplePause => exact iff_of_false (command_uses g (Prog.exec_monadLift _ _) (Uses.call rfl)) id
  | resume => exact iff_of_false (command_uses g (Prog.exec_monadLift _ _) (resume_uses g)) id
  | seekTo position =>
    exact iff_of_false (command_uses g (Prog.exec_monadLift _ _) (setPosition_uses position)) id
  | isPlaying => exact iff_of_false (command_uses g (Prog.exec_monadLift _ _) (Uses.call rfl)) id
  | getDuration =>
    have hlength : ∀ x, Uses x (final (MediaPlayer.getLength.run x)) := fun x =>
      (Uses.call rfl x).bind fun _ => Maintains.get.bind fun _ => .pure _
    refine iff_of_false (command_uses g rfl fun x => ?_) id
    simp only [Op.prog,Prog.exec_bind,Prog.exec_pure,Prog.exec_monadLift,final_run_bind_pure]
    exact hlength x
  | _ => simp [Op.isClient] at hs

end steps

/-! ### Runs -/

lemma run_recording_stopped (g : Generation) {w : World} (hw : w.player.stopped = true)
    (steps : List Step) : steady.rel w (w.run g recording steps) :=
  run_stopped g (fun _ => .proceed) hw steps

theorem run_unused_iff (g : Generation) {w : World} (hw : w.player.stopped = true) {steps : List Step}
    (hs : ∀ s ∈ steps, s.op.isClient = true) :
    Unused w (w.run g recording steps) ↔
      Throughout (fun before s => Harmless (w.run g recording before) s) steps := by
  induction steps using List.reverseRecOn with
  | nil => exact iff_of_true (.refl w) throughout_nil
  | append_singleton steps s ih =>
    have hrun := run_recording_stopped g hw steps
    have hstopped : (w.run g recording steps).player.stopped = true := hrun.stopped.trans hw
    have hstep := run_recording_stopped g hstopped [s]
    rw [run_concat,throughout_concat]
    refine (hrun.log.split hstep.log).trans (and_congr ?_ ?_)
    · exact ih fun t ht => hs t (List.mem_append_left _ ht)
    · exact unused_iff g hstopped (hs s (by simp))

/-- After a stop the steps `after` do not use the media player, which has been released and taken
down once. -/
structure Terminal (g : Generation) (w : World) (before after : List Step) : Prop where
  unused : Unused (w.run g recording before) (w.run g recording (before ++ after))
  finished : Finished g w (before ++ after)

/-- A stop that returns is hindered by nothing, for once it has begun to stop the player. -/
lemma unhindered_concat {g : Generation} {w : World} {before : List Step} {s : Step}
    (h : Accounted g w before) (hs : s.op.isStop = true)
    (hreturns : ∃ v, ((s.prog g).exec recording).run (w.run g recording before) = .ok () v) :
    Unhindered g w (before ++ [s]) ↔ Unhindered g w before := by
  rw [Unhindered,throughout_concat]
  refine and_iff_left fun _ hrunning => ?_
  let x := ((w.run g recording before).arrive s.env).observe (.entered s.op)
  obtain ⟨v,hv⟩ := hreturns
  rw [step_stop g recording _ hs,run_stop,if_neg] at hv
  · exact (tearDown_returns_iff (w := x) (h.running hrunning).1).mp ⟨v,hv⟩
  · rw [World.observe_player,World.arrive_stopped,hrunning]
    exact Bool.false_ne_true

/-- Once the player is stopped no further stop can be hindered. -/
lemma unhindered_append {g : Generation} {w : World} {before after : List Step}
    (hstopped : (w.run g recording before).player.stopped = true) :
    Unhindered g w (before ++ after) ↔ Unhindered g w before := by
  induction after using List.reverseRecOn with
  | nil => rw [List.append_nil]
  | append_singleton after t ih =>
    have hafter : (w.run g recording (before ++ after)).player.stopped = true := by
      rw [run_split]
      exact (run_recording_stopped g hstopped after).stopped.trans hstopped
    rw [← List.append_assoc,Unhindered,throughout_concat,← Unhindered,ih]
    refine and_iff_left fun _ hrunning => ?_
    rw [hafter] at hrunning
    cases hrunning

theorem terminal_iff (g : Generation) (callback : Bool) (w : World) (hw : Constructed g callback w)
    (before after : List Step) (hafter : ∀ t ∈ after, t.op.isClient = true) (s : Step)
    (hs : s.op.isStop = true)
    (hreturns : ∃ v, ((s.prog g).exec recording).run (w.run g recording before) = .ok () v) :
    Terminal g w (before ++ [s]) after ↔ Unhindered g w before ∧
      ∀ between t rest, after = between ++ t :: rest →
        Harmless (w.run g recording (before ++ s :: between)) t := by
  have haccounted := run_accounted g hw.born.accounted
  have hstopped : (w.run g recording (before ++ [s])).player.stopped = true := by
    rw [run_concat,World.step,step_stop g recording _ hs]
    exact stop_marks _
  have hlast : (w.run g recording (before ++ [s] ++ after)).player.stopped = true := by
    rw [run_split]
    exact (run_recording_stopped g hstopped after).stopped.trans hstopped
  have hfinished : Finished g w (before ++ [s] ++ after) ↔ Unhindered g w before := by
    rw [(haccounted _).stopped hlast,unhindered_append hstopped,
      unhindered_concat (haccounted before) hs hreturns]
  have hunused : Unused (w.run g recording (before ++ [s]))
      (w.run g recording (before ++ [s] ++ after)) ↔
        ∀ between t rest, after = between ++ t :: rest →
          Harmless (w.run g recording (before ++ s :: between)) t := by
    rw [run_split (before ++ [s]),run_unused_iff g hstopped hafter]
    have hrun : ∀ between, (w.run g recording (before ++ [s])).run g recording between =
        w.run g recording (before ++ s :: between) := by
      intro between
      rw [← run_split,List.append_assoc,List.singleton_append]
    simp only [Throughout,hrun]
  constructor
  · rintro ⟨h,k⟩
    exact ⟨hfinished.mp k,hunused.mp h⟩
  · rintro ⟨h,k⟩
    exact ⟨hunused.mpr k,hfinished.mpr h⟩

/-- A request after the stop loads and starts the released media player. -/
theorem play_after_stop :
    ¬Terminal .zMediaPlayer ViewClass.audioPlayer.built [⟨.stop,{}⟩] [⟨.requestPlay true,{}⟩] := by
  rintro ⟨⟨new,hlog,hnew⟩,-⟩
  have hdrop : new = (ViewClass.audioPlayer.built.run .zMediaPlayer recording
      [⟨.stop,{}⟩,⟨.requestPlay true,{}⟩]).log.drop
        (ViewClass.audioPlayer.built.run .zMediaPlayer recording [⟨.stop,{}⟩]).log.length := by
    rw [List.singleton_append] at hlog
    rw [hlog,List.drop_left]
  have huses : ∃ o ∈ new, o.uses = true := by
    rw [hdrop]
    decide
  obtain ⟨o,ho,huses⟩ := huses
  simp [hnew o ho] at huses

/-- A request that no surface has met yet, a stop, and what may still come. -/
theorem terminal_built :
    Terminal .zMediaPlayer ViewClass.textureViewPlayer.built [⟨.requestPlay true,{}⟩,⟨.stop,{}⟩]
      [⟨.handleSurfaceAvailable,{}⟩,⟨.requestPlay false,{}⟩,⟨.release,{}⟩] := by
  refine (terminal_iff .zMediaPlayer true ViewClass.textureViewPlayer.built
    (built_constructed .textureViewPlayer) [⟨.requestPlay true,{}⟩]
    [⟨.handleSurfaceAvailable,{}⟩,⟨.requestPlay false,{}⟩,⟨.release,{}⟩] (by simp [Op.isClient])
    ⟨.stop,{}⟩ rfl ⟨_,rfl⟩).mpr ⟨?_,?_⟩
  · simp [Unhindered,throughout_cons,throughout_nil,Op.isStop]
  · change Throughout (fun between t => Harmless _ t) _
    simp only [throughout_cons,throughout_nil,and_true]
    exact ⟨trivial,fun hattached => absurd hattached (by decide),trivial⟩

end ZenMedia
