import ZenMedia.MediaLoading

/-! The first request and the first surface, in either order: `attachView` does not
look at the request, and `play` does not look at what has happened before. -/
namespace ZenMedia
open Reentrant

/-- Without faults: the second player is `f` of the first, and both find the surface
there or not as `ready` says. -/
structure Beside (f : Player → Player) (ready : Option Bool) (w v : World) : Prop where
  second : v.player = f w.player
  left : Faultless w
  right : Faultless v
  readyLeft : ∀ b, ready = some b → w.env.surfaceReady = b
  readyRight : ∀ b, ready = some b → v.env.surfaceReady = b

/-- A change of a player that the media player neither sees nor undoes. -/
structure Aside (f : Player → Player) : Prop where
  sees : ∀ p, (f p).mediaPlayer = p.mediaPlayer
  undoes : ∀ p q, { f p with mediaPlayer := q } = f { p with mediaPlayer := q }

namespace Beside
variable {f : Player → Player} {ready : Option Bool}

lemma call (c : Call) : Parallel (Beside f ready) (call c) (call c) := by
  intro w v h
  rw [run_call,run_call,h.left,h.right,if_neg (by simp),if_neg (by simp)]
  exact ⟨rfl,h.second,h.left,h.right,h.readyLeft,h.readyRight⟩

lemma update {k : Player → Player} (hk : ∀ p, k (f p) = f (k p)) :
    Parallel (Beside f ready) (update k) (update k) := by
  intro w v h
  refine ⟨rfl,?_,h.left,h.right,h.readyLeft,h.readyRight⟩
  change k v.player = f (k w.player)
  rw [h.second,hk]

lemma updateMediaPlayer (hf : Aside f) (k : MediaPlayer → MediaPlayer) :
    Parallel (Beside f ready) (updateMediaPlayer k) (updateMediaPlayer k) :=
  update fun p => by rw [hf.undoes,hf.sees]

lemma reads {α : Type} {k : Player → M α} (hk : ∀ p, Parallel (Beside f ready) (k p) (k (f p))) :
    Parallel (Beside f ready) (player >>= k) (player >>= k) := by
  intro w v h
  have hp := hk w.player w v h
  rw [← h.second] at hp
  exact hp

lemma readsReady {b : Bool} {m : M Unit} (hm : Parallel (Beside f (some b)) m m) :
    Parallel (Beside f (some b)) (do if (← get).env.surfaceReady then m)
      (do if (← get).env.surfaceReady then m) := by
  intro w v h
  have hw := h.readyLeft b rfl
  have hv := h.readyRight b rfl
  cases b with
  | true => simpa [hw,hv] using hm w v h
  | false => simpa [hw,hv,Res.Matches] using h

section media
variable (hf : Aside f)
include hf

lemma startNative : Parallel (Beside f ready) MediaPlayer.startNative MediaPlayer.startNative :=
  .bind (updateMediaPlayer hf _) fun _ => call _

lemma areSurfacesWaiting :
    Parallel (Beside f ready) MediaPlayer.areSurfacesWaiting MediaPlayer.areSurfacesWaiting :=
  reads fun p => by rw [hf.sees]; exact .pure _

lemma play : Parallel (Beside f ready) MediaPlayer.play MediaPlayer.play := by
  refine .bind (call _) fun _ => reads fun p => ?_
  rw [hf.sees]
  refine .ite (startNative hf) (.bind (updateMediaPlayer hf _) fun _ => ?_)
  exact (areSurfacesWaiting hf).bind fun _ => .ite (.pure _) (startNative hf)

lemma onSurfacesCreated :
    Parallel (Beside f ready) MediaPlayer.onSurfacesCreated MediaPlayer.onSurfacesCreated := by
  refine reads fun p => ?_
  rw [hf.sees]
  refine reads fun q => ?_
  rw [hf.sees]
  exact .ite (play hf) (.pure _)

lemma attachView {b : Bool} :
    Parallel (Beside f (some b)) ZMediaPlayer.attachView ZMediaPlayer.attachView := by
  refine .bind (call _) fun _ => Parallel.bind ?_ fun _ => .ite (.pure _) ?_
  · refine .bind (call _) fun _ => reads fun p => ?_
    rw [hf.sees]
    exact .pure _
  · refine .bind (call _) fun _ => .bind (updateMediaPlayer hf _) fun _ => readsReady ?_
    exact .bind (updateMediaPlayer hf _) fun _ => onSurfacesCreated hf

end media

/-! `play(hasVideo)` reads more of the player, so nothing of it may differ. -/

lemma aside_id : Aside id := ⟨fun _ => rfl,fun _ _ => rfl⟩

lemma release (m : Media) : Parallel (Beside id ready) m.release m.release :=
  .bind (call _) fun _ => update fun _ => rfl

lemma openMedia (hasVideo : Bool) : Parallel (Beside id ready) (ZMediaPlayer.openMedia hasVideo)
    (ZMediaPlayer.openMedia hasVideo) := by
  refine Parallel.bind ?_ fun media => .bind (call _) fun _ => .ite (.pure _) ?_
  · exact .bind (call _) fun _ => reads fun p => .bind (update fun _ => rfl) fun _ => .pure _
  · exact .bind (call _) fun _ => .pure _

lemma releaseMedia :
    Parallel (Beside id ready) MediaPlayer.releaseMedia MediaPlayer.releaseMedia := by
  refine reads fun p => ?_
  dsimp only [id_eq]
  split
  · exact release _
  · exact .pure _

lemma acquire (media : Media) :
    Parallel (Beside id ready) (MediaPlayer.acquire media) (MediaPlayer.acquire media) := by
  refine .bind (reads fun p => .pure _) fun b => .ite (.throw _) ?_
  exact .bind (.bind (call _) fun _ => update fun _ => rfl) fun _ => call _

lemma setMedia (media : Media) : Parallel (Beside id ready) (MediaPlayer.setMedia (some media))
    (MediaPlayer.setMedia (some media)) :=
  .bind (call _) fun _ => releaseMedia.bind fun _ => (acquire media).bind fun _ =>
    .bind (update fun _ => rfl) fun _ => .bind (call _) fun _ => update fun _ => rfl

lemma playMedia (hasVideo : Bool) : Parallel (Beside id ready) (ZMediaPlayer.play hasVideo)
    (ZMediaPlayer.play hasVideo) := by
  have hobserve : Parallel (Beside id ready) (observe (.start hasVideo))
      (observe (.start hasVideo)) :=
    .modify fun _ _ h => ⟨h.second,h.left,h.right,h.readyLeft,h.readyRight⟩
  refine hobserve.bind fun _ => (openMedia hasVideo).bind fun media => (setMedia media).bind fun _ => ?_
  exact (release media).bind fun _ => .bind (.bind (call _) fun _ => call _) fun _ => play aside_id

end Beside

/-- Nothing throws, and libvlc makes no change of its own. -/
structure Still (env : Env) : Prop where
  throws : ∀ c, env.throws c = false
  window : env.window = none
  progress : env.progress = none

/-- What a still environment can do to a player: let the collector clear the weak
reference of the handler. -/
def Player.collected (ownerCollected : Bool) (p : Player) : Player :=
  { p with eventHandler := { p.eventHandler with
    mOwner := p.eventHandler.mOwner && (p.callBack || !ownerCollected) } }

lemma arrive_still {env : Env} (h : Still env) (w : World) :
    (w.arrive env).player = w.player.collected env.ownerCollected := by
  simp [World.arrive,Player.collected,h.window,h.progress]

/-- What `requestPlay(hasVideo)` does to an unattached player in such an environment. -/
def Player.asked (hasVideo ownerCollected : Bool) (p : Player) : Player :=
  { p.collected ownerCollected with hasVideo := hasVideo, requestPlay := true }

lemma aside_asked (hasVideo ownerCollected : Bool) : Aside (Player.asked hasVideo ownerCollected) :=
  ⟨fun _ => rfl,fun _ _ => rfl⟩

section order
variable (g : Generation) (react : Callback → World → World) {w : World} {hasVideo : Bool}
  {e₁ e₂ : Env}

lemma requestPlay_first (h : Still e₁) (hatt : w.player.attached = false) :
    (w.step g react ⟨.requestPlay hasVideo,e₁⟩).player =
      w.player.asked hasVideo e₁.ownerCollected := by
  rw [step_requestPlay,hatt]
  simp [World.asked,arrive_still h,Player.asked]

/-- The world in which `handleSurfaceAvailable` calls `attachView`. -/
def World.attaching (w : World) (env : Env) : World :=
  ((w.arrive env).observe (.entered .handleSurfaceAvailable)).marked

lemma attaching_beside (h₂ : Still e₂) {v : World}
    (hv : v.player = w.player.asked hasVideo e₁.ownerCollected) :
    Beside (Player.asked hasVideo e₁.ownerCollected) (some e₂.surfaceReady) (w.attaching e₂)
      (v.attaching e₂) := by
  refine ⟨?_,h₂.throws,h₂.throws,fun b hb => Option.some.inj hb,fun b hb => Option.some.inj hb⟩
  simp [World.attaching,World.marked,arrive_still h₂,hv,Player.asked,Player.collected,
    Bool.and_right_comm]

lemma handleSurfaceAvailable_run (hs : w.player.stopped = false) (h₂ : Still e₂) :
    ∃ u, ZMediaPlayer.attachView.run (w.attaching e₂) = .ok () u ∧ Faultless u ∧
      u.player.control = (w.attaching e₂).player.control ∧
      (w.player.requestPlay = false →
        w.step g react ⟨.handleSurfaceAvailable,e₂⟩ = u) ∧
      (w.player.requestPlay = true → ∀ v,
        (ZMediaPlayer.play w.player.hasVideo).run u = .ok () v →
        w.step g react ⟨.handleSurfaceAvailable,e₂⟩ = v) := by
  obtain ⟨_,u,hu,hfu⟩ := Faultless.attachView (w.attaching e₂) h₂.throws
  have hc := (Untouched.commands.attachView (w.attaching e₂)).1
  rw [hu,final_ok] at hc
  let x := (w.arrive e₂).observe (.entered .handleSurfaceAvailable)
  have hstep : w.step g react ⟨.handleSurfaceAvailable,e₂⟩ =
      reported react (BaseViewPlayer.attachAndPlay.run x) :=
    (step_handleSurfaceAvailable react w g e₂).trans (if_neg (by simp [hs]))
  have hattach := run_attachAndPlay x
  rw [show x.marked = w.attaching e₂ from rfl,hu] at hattach
  have hrequest : u.player.requestPlay = w.player.requestPlay := congrArg Control.requestPlay hc
  have hvideo : u.player.hasVideo = w.player.hasVideo := congrArg Control.hasVideo hc
  refine ⟨u,hu,hfu,hc,?_,?_⟩
  · intro hreq
    simp only [hrequest,hreq] at hattach
    rw [hstep,hattach]
    rfl
  · intro hreq v hv
    simp only [hrequest,hreq,hvideo,if_true,hv] at hattach
    rw [hstep,hattach]
    rfl

/-- The first request and the first surface: whichever comes first, the player ends up
the same. -/
theorem order_irrelevant (hstock : Stocked w) (hs : w.player.stopped = false)
    (hatt : w.player.attached = false) (hreq : w.player.requestPlay = false)
    (h₁ : Still e₁) (h₂ : Still e₂) :
    (w.run g react [⟨.requestPlay hasVideo,e₁⟩,⟨.handleSurfaceAvailable,e₂⟩]).player =
      (w.run g react [⟨.handleSurfaceAvailable,e₂⟩,⟨.requestPlay hasVideo,e₁⟩]).player := by
  let x := w.step g react ⟨.requestPlay hasVideo,e₁⟩
  have hx : x.player = w.player.asked hasVideo e₁.ownerCollected := requestPlay_first g react h₁ hatt
  have hxs : x.player.stopped = false := by rw [hx]; exact hs
  have hxreq : x.player.requestPlay = true := by rw [hx]; rfl
  have hxvideo : x.player.hasVideo = hasVideo := by rw [hx]; rfl
  have hxstock : Stocked x := by
    intro media hm
    rw [hx] at hm ⊢
    exact hstock media hm
  obtain ⟨u,hu,hfu,hcu,hfirst,-⟩ := handleSurfaceAvailable_run g react hs h₂
  obtain ⟨u',hu',hfu',-,-,hsecond⟩ := handleSurfaceAvailable_run g react hxs h₂
  have hviews := Beside.attachView (aside_asked hasVideo e₁.ownerCollected) _ _
    (attaching_beside h₂ hx)
  rw [hu,hu'] at hviews
  have hu'player : u'.player = u.player.asked hasVideo e₁.ownerCollected := hviews.2.second
  have hu'stock : Stocked u' := by
    have h := Stocked.commands.attachView (x.attaching e₂) hxstock
    rw [hu'] at h
    exact h
  -- the two worlds in which the media is built
  let z := ((u.arrive e₁).observe (.entered (.requestPlay hasVideo))).asked hasVideo
  have hz : z.player = u.player.asked hasVideo e₁.ownerCollected := by
    simp [z,World.asked,arrive_still h₁,Player.asked]
  have hbeside : Beside id none u' z :=
    ⟨hz.trans hu'player.symm,hfu',h₁.throws,by simp,by simp⟩
  obtain ⟨v',hv',-,-⟩ := play_loads hfu' hu'stock hasVideo
  have hplays := Beside.playMedia hasVideo _ _ hbeside
  rw [hv'] at hplays
  cases hv : (ZMediaPlayer.play hasVideo).run z with
  | error e v =>
    rw [hv] at hplays
    exact hplays.elim
  | ok a v =>
    rw [hv] at hplays
    have hleft : w.run g react [⟨.requestPlay hasVideo,e₁⟩,⟨.handleSurfaceAvailable,e₂⟩] = v' :=
      hsecond hxreq v' (by rw [hxvideo]; exact hv')
    have hatt' : u.player.attached = true := congrArg Control.attached hcu
    have hright : w.run g react [⟨.handleSurfaceAvailable,e₂⟩,⟨.requestPlay hasVideo,e₁⟩] = v := by
      change (w.step g react ⟨.handleSurfaceAvailable,e₂⟩).step g react _ = v
      rw [hfirst hreq,step_requestPlay,hatt']
      change reported react ((ZMediaPlayer.play hasVideo).run z) = v
      rw [hv]
      rfl
    rw [hleft,hright]
    exact hplays.2.second.symm

end order

end ZenMedia
