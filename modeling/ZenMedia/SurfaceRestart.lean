import ZenMedia.Construction
import ZenMedia.Teardown
import ZenMedia.TraceLaws

/-! Which requests a surface notification may start. `requestPlay` is never reset, so a
surface starts the last request, paused or not, and another one starts it once more. -/
namespace ZenMedia
open Reentrant TraceLaws

namespace Obs

def isRequest : Obs → Bool
  | entered (.requestPlay _) => true
  | _ => false

def isStart : Obs → Bool
  | start _ => true
  | _ => false

/-- What a request does not outlive: its start, a pause and a stop. -/
def settles : Obs → Bool
  | start _ => true
  | entered .pause => true
  | entered .simplePause => true
  | entered .stop => true
  | _ => false

end Obs

/-- Some request has neither been started nor paused or stopped since. -/
def Pending (record : List Obs) : Prop := ∃ o ∈ session Obs.settles record, o.isRequest

lemma pending_concat (record : List Obs) (o : Obs) :
    Pending (record ++ [o]) ↔ o.settles = false ∧ (Pending record ∨ o.isRequest) := by
  unfold Pending
  rw [session_concat]
  cases ho : o.settles <;> simp [or_and_right,exists_or]

lemma pending_append_callbacks (record : List Obs) (cs : List Callback) :
    Pending (record ++ cs.map .callback) ↔ Pending record := by
  induction cs using List.reverseRecOn with
  | nil => simp
  | append_singleton cs c ih =>
    rw [List.map_append,← List.append_assoc,List.map_singleton,pending_concat,ih]
    simp [Obs.settles,Obs.isRequest]

lemma not_pending_start (record : List Obs) (o : Obs) (hasVideo : Bool) :
    ¬Pending (record ++ [o,.start hasVideo]) := by
  rw [List.append_cons,pending_concat]
  simp [Obs.settles]

/-- Every start finds a request pending. -/
def StartsPending (record : List Obs) : Prop := Guarded (fun o => o.isStart) Pending record

/-- Each start takes a request of its own. -/
lemma StartsPending.count {record : List Obs} (h : StartsPending record) :
    record.countP Obs.isStart ≤ record.countP Obs.isRequest ∧
      (Pending record → record.countP Obs.isStart < record.countP Obs.isRequest) := by
  induction record using List.reverseRecOn with
  | nil => simp [Pending]
  | append_singleton record o ih =>
    obtain ⟨hrec,ho⟩ := (guarded_concat record o).mp h
    obtain ⟨hle,hlt⟩ := ih hrec
    rw [List.countP_append,List.countP_append,List.countP_singleton,List.countP_singleton,
      pending_concat]
    cases hst : o.isStart with
    | true =>
      have hreq : o.isRequest = false ∧ o.settles = true := by 
        cases o <;> simp_all [Obs.isStart,Obs.isRequest,Obs.settles]
      have := hlt (ho hst)
      simp only [hreq.1,hreq.2,if_true,Bool.false_eq_true,if_false]
      exact ⟨by omega,fun hp => absurd hp.1 (by simp)⟩
    | false =>
      cases hreq : o.isRequest with
      | true =>
        simp only [if_true,Bool.false_eq_true,if_false]
        exact ⟨by omega,fun _ => by omega⟩
      | false =>
        simp only [Bool.false_eq_true,if_false,or_false,Nat.add_zero]
        exact ⟨hle,fun hp => hlt hp.2⟩

/-! ### What the operations record -/

/-- The operations of the client and the view. -/
def Op.isView : Op → Bool
  | requestPlay _ | pause | simplePause | resume | stop | handleSurfaceAvailable => true
  | _ => false

/-- `w'` has the record of `w`, then `new`, then callbacks. -/
def Records (new : List Obs) (w v : World) : Prop :=
  ∃ cs : List Callback, v.record = w.record ++ new ++ cs.map .callback

/-- Nothing that the view player decides by differs. -/
structure SameView (p q : Player) : Prop where
  attached : q.attached = p.attached
  requestPlay : q.requestPlay = p.requestPlay
  stopped : q.stopped = p.stopped

lemma reported_records (r : EStateM.Result Throwable World Unit) :
    Records [] (final r) (reported recording r) ∧ (reported recording r).player = (final r).player := by
  cases r with
  | ok a v => exact ⟨⟨[],by simp [reported]⟩,rfl⟩
  | error e v =>
    have hrun := run_notifyIfSet recording v (pure (.onError e))
    rw [reported,BaseViewPlayer.reportError,hrun]
    cases v.player.callBack with
    | false => exact ⟨⟨[],by simp⟩,rfl⟩
    | true => exact ⟨⟨[.onError e],by simp [recording]⟩,rfl⟩

/-- A start, and its exception if it throws, reported. -/
lemma start_reported (hasVideo : Bool) (w : World) :
    Records [.start hasVideo] w (reported recording ((ZMediaPlayer.play hasVideo).run w)) ∧
      SameView w.player (reported recording ((ZMediaPlayer.play hasVideo).run w)).player := by
  have h := play_untouched hasVideo w
  have hrec := untouched_record h
  obtain ⟨⟨cs,hcs⟩,hp⟩ := reported_records ((ZMediaPlayer.play hasVideo).run w)
  refine ⟨⟨cs,by simp [hcs,hrec]⟩,?_⟩
  rw [hp]
  exact ⟨congrArg Control.attached h.1,congrArg Control.requestPlay h.1,congrArg Control.stopped h.1⟩

/-- The world in which `handleSurfaceAvailable` calls `attachView`. -/
def Step.attaching (s : Step) (w : World) : World :=
  ((w.arrive s.env).observe (.entered s.op)).marked

/-- A surface notification that gets through to `play(...)`. -/
structure GetsThrough (w : World) (s : Step) : Prop where
  op : s.op = .handleSurfaceAvailable
  running : w.player.stopped = false
  requested : w.player.requestPlay = true
  attaches : ∃ v, ZMediaPlayer.attachView.run (s.attaching w) = .ok () v

section steps
variable (g : Generation) (w : World) (env : Env)

lemma requestPlay_records (hasVideo : Bool) :
    let v := w.step g recording ⟨.requestPlay hasVideo,env⟩
    Records (if w.player.attached then [.entered (.requestPlay hasVideo),.start hasVideo]
      else [.entered (.requestPlay hasVideo)]) w v ∧
    SameView { w.player with requestPlay := true } v.player := by
  let x := (w.arrive env).observe (.entered (.requestPlay hasVideo))
  have hx : x.record = w.record ++ [.entered (.requestPlay hasVideo)] := by simp [x]
  rw [step_requestPlay]
  cases w.player.attached with
  | false => exact ⟨⟨[],hx.trans (by simp)⟩,rfl,rfl,rfl⟩
  | true =>
    obtain ⟨⟨cs,hcs⟩,hsame⟩ := start_reported hasVideo (x.asked hasVideo)
    have hasked : (x.asked hasVideo).record = x.record := rfl
    exact ⟨⟨cs,hcs.trans (by simp [hasked,hx])⟩,hsame.1,hsame.2,hsame.3⟩

lemma handleSurfaceAvailable_records :
    let s : Step := ⟨.handleSurfaceAvailable,env⟩
    let v := w.step g recording s
    (GetsThrough w s → Records [.entered .handleSurfaceAvailable,.start w.player.hasVideo] w v) ∧
    (¬GetsThrough w s → Records [.entered .handleSurfaceAvailable] w v) ∧
    SameView { w.player with attached := w.player.attached || !w.player.stopped } v.player := by
  intro s v
  let x := (w.arrive env).observe (.entered .handleSurfaceAvailable)
  have hx : x.record = w.record ++ [.entered .handleSurfaceAvailable] := by simp [x]
  have hxattached : x.player.attached = w.player.attached := rfl
  have hstep : v = _ := step_handleSurfaceAvailable recording w g env
  rw [hstep]
  change let v := if w.player.stopped then x else reported recording (BaseViewPlayer.attachAndPlay.run x)
    (GetsThrough w s → Records _ w v) ∧ (¬GetsThrough w s → Records _ w v) ∧ SameView _ v.player
  by_cases hs : w.player.stopped = true
  · have hno : ¬GetsThrough w s := fun h => by simp [h.running] at hs
    rw [if_pos hs]
    exact ⟨fun h => absurd h hno,fun _ => ⟨[],hx.trans (by simp)⟩,by simp [hxattached,hs],rfl,rfl⟩
  · have hviews := Untouched.commands.attachView (s.attaching w)
    have hrec : (final (ZMediaPlayer.attachView.run (s.attaching w))).record = x.record :=
      (untouched_record hviews).trans rfl
    have hc := hviews.1
    have hattach := run_attachAndPlay x
    rw [show x.marked = s.attaching w from rfl] at hattach
    rw [if_neg hs,hattach]
    cases hview : ZMediaPlayer.attachView.run (s.attaching w) with
    | error e u =>
      have hno : ¬GetsThrough w s := by
        rintro ⟨-,-,-,v,hv⟩
        simp [hview] at hv
      rw [hview,final_error] at hrec hc
      obtain ⟨⟨cs,hcs⟩,hp⟩ := reported_records (.error e u)
      have hattached : u.player.attached = true := congrArg Control.attached hc
      refine ⟨fun h => absurd h hno,fun _ => ⟨cs,hcs.trans (by simp [hrec,hx])⟩,?_⟩
      rw [hp]
      exact ⟨by simp [hattached,hs],congrArg Control.requestPlay hc,congrArg Control.stopped hc⟩
    | ok a u =>
      rw [hview,final_ok] at hrec hc
      have hattached : u.player.attached = true := congrArg Control.attached hc
      have hreq : u.player.requestPlay = w.player.requestPlay := congrArg Control.requestPlay hc
      have hvideo : u.player.hasVideo = w.player.hasVideo := congrArg Control.hasVideo hc
      have hstopped : u.player.stopped = w.player.stopped := congrArg Control.stopped hc
      by_cases hrequest : w.player.requestPlay = true
      · have hyes : GetsThrough w s := ⟨rfl,by simpa using hs,hrequest,u,hview⟩
        obtain ⟨⟨cs,hcs⟩,hsame⟩ := start_reported u.player.hasVideo u
        simp only [hreq.trans hrequest,if_true]
        refine ⟨fun _ => ⟨cs,hcs.trans (by simp [hrec,hx,hvideo])⟩,fun h => absurd hyes h,?_⟩
        exact ⟨by simp [hsame.attached,hattached,hs],hsame.requestPlay.trans hreq,
          hsame.stopped.trans hstopped⟩
      · have hno : ¬GetsThrough w s := fun h => hrequest h.requested
        have hureq : ¬u.player.requestPlay = true := by rwa [hreq]
        simp only [if_neg hureq]
        refine ⟨fun h => absurd h hno,fun _ => ⟨[],hrec.trans (by simp [hx])⟩,?_⟩
        exact ⟨by simp [hattached,hs,reported],hreq,hstopped⟩

/-- A command that neither asks for playing nor stops. -/
lemma command_records (op : Op) {m : M Unit} (hop : (op.prog g).exec recording = m)
    (hm : Maintains untouched m) :
    Records [.entered op] w (w.step g recording ⟨op,env⟩) ∧
      SameView w.player (w.step g recording ⟨op,env⟩).player := by
  have hstep : w.step g recording ⟨op,env⟩ =
      final (m.run ((w.arrive env).observe (.entered op))) := by
    simp only [World.step,run_exec_prog,hop]
  have h := hm ((w.arrive env).observe (.entered op))
  have hrec := untouched_record h
  rw [hstep]
  refine ⟨⟨[],by simp [hrec]⟩,?_,?_,?_⟩
  · exact congrArg Control.attached h.1
  · exact congrArg Control.requestPlay h.1
  · exact congrArg Control.stopped h.1

lemma stop_records : Records [.entered .stop] w (w.step g recording ⟨.stop,env⟩) ∧
    (w.step g recording ⟨.stop,env⟩).player.stopped = true := by
  have hstep : w.step g recording ⟨.stop,env⟩ =
      final (ZMediaPlayer.stop.run ((w.arrive env).observe (.entered .stop))) := by
    simp only [World.step,run_exec_prog,Op.prog,Prog.exec_monadLift,Generation.stop_eq]
  have h := stop_standing ((w.arrive env).observe (.entered .stop))
  rw [hstep]
  exact ⟨⟨[],by simp [h.record]⟩,h.stopped rfl⟩

end steps

/-! ### Runs -/

lemma Records.pending {new : List Obs} {w v : World} (h : Records new w v) :
    Pending v.record ↔ Pending (w.record ++ new) := by
  obtain ⟨cs,hcs⟩ := h
  rw [hcs,pending_append_callbacks]

lemma Records.startsPending {new : List Obs} {w v : World} (h : Records new w v) :
    StartsPending v.record ↔ StartsPending (w.record ++ new) := by
  obtain ⟨cs,hcs⟩ := h
  rw [hcs,StartsPending,guarded_append]
  refine and_iff_left (guarded_of_none fun o ho => ?_)
  obtain ⟨c,-,rfl⟩ := List.mem_map.mp ho
  simp [Obs.isStart]

/-- The steps that leave a request for a surface to start: it was made of a player not
attached by its constructor, before any surface came, and since then there was neither a
pause nor a surface notification that got through. -/
inductive Waiting (g : Generation) (w : World) : List Step → Prop
  | asked {before : List Step} (hasVideo : Bool) (env : Env) : w.player.attached = false →
      (∀ s ∈ before, s.op ≠ .handleSurfaceAvailable) →
      Waiting g w (before ++ [⟨.requestPlay hasVideo,env⟩])
  | resumed {before : List Step} (env : Env) : Waiting g w before →
      Waiting g w (before ++ [⟨.resume,env⟩])
  | failed {before : List Step} (env : Env) : Waiting g w before →
      ¬GetsThrough (w.run g recording before) ⟨.handleSurfaceAvailable,env⟩ →
      Waiting g w (before ++ [⟨.handleSurfaceAvailable,env⟩])

section runs
variable {g : Generation} {w : World} {before : List Step}

lemma not_waiting_nil : ¬Waiting g w [] := by
  intro h
  generalize hl : ([] : List Step) = l at h
  cases h <;> simp at hl

lemma waiting_concat (s : Step) : Waiting g w (before ++ [s]) ↔
    ((∃ hasVideo, s.op = .requestPlay hasVideo) ∧ w.player.attached = false ∧
      ∀ t ∈ before, t.op ≠ .handleSurfaceAvailable) ∨
    (s.op = .resume ∧ Waiting g w before) ∨
    (s.op = .handleSurfaceAvailable ∧ Waiting g w before ∧
      ¬GetsThrough (w.run g recording before) s) := by
  constructor
  · intro h
    generalize hl : before ++ [s] = l at h
    cases h with
    | asked hasVideo env hatt hnone =>
      obtain ⟨rfl,rfl⟩ := List.append_singleton_inj.mp hl
      exact .inl ⟨⟨hasVideo,rfl⟩,hatt,hnone⟩
    | resumed env hw =>
      obtain ⟨rfl,rfl⟩ := List.append_singleton_inj.mp hl
      exact .inr (.inl ⟨rfl,hw⟩)
    | failed env hw hno =>
      obtain ⟨rfl,rfl⟩ := List.append_singleton_inj.mp hl
      exact .inr (.inr ⟨rfl,hw,hno⟩)
  · obtain ⟨op,env⟩ := s
    rintro (⟨⟨hasVideo,rfl⟩,hatt,hnone⟩ | ⟨rfl,hw⟩ | ⟨rfl,hw,hno⟩)
    · exact .asked hasVideo env hatt hnone
    · exact .resumed env hw
    · exact .failed env hw hno

/-- While the player runs, its record and its fields follow the steps taken. -/
structure Follows (g : Generation) (w : World) (before : List Step) (v : World) : Prop where
  pending : v.player.stopped = false → (Pending v.record ↔ Waiting g w before)
  attached : v.player.stopped = false → (v.player.attached = true ↔
    w.player.attached = true ∨ ∃ s ∈ before, s.op = .handleSurfaceAvailable)

lemma Follows.next {v u : World} {s : Step} {new : List Obs} (h : Follows g w before v)
    (hrec : Records new v u) (hstopped : u.player.stopped = v.player.stopped)
    (hattached : v.player.stopped = false →
      (u.player.attached = true ↔ v.player.attached = true ∨ s.op = .handleSurfaceAvailable))
    (hpending : v.player.stopped = false →
      (Pending (v.record ++ new) ↔ Waiting g w (before ++ [s]))) :
    Follows g w (before ++ [s]) u := by
  refine ⟨fun hs => hrec.pending.trans (hpending (hstopped.symm.trans hs)),fun hs => ?_⟩
  rw [hattached (hstopped.symm.trans hs),h.attached (hstopped.symm.trans hs)]
  simp [or_and_right,exists_or,or_assoc]

/-- A command that asks for nothing. -/
lemma Follows.command {v u : World} {s : Step} (h : Follows g w before v)
    (hrec : Records [.entered s.op] v u) (hsame : SameView v.player u.player)
    (hnone : s.op ≠ .handleSurfaceAvailable)
    (hpending : Pending (v.record ++ [.entered s.op]) ↔ Pending v.record ∧ s.op = .resume)
    (hwaiting : Waiting g w (before ++ [s]) ↔ Waiting g w before ∧ s.op = .resume) :
    Follows g w (before ++ [s]) u := by
  refine h.next hrec hsame.stopped (fun _ => by simp [hsame.attached,hnone]) fun hs => ?_
  rw [hpending,hwaiting,h.pending hs]

theorem Follows.step {s : Step} (h : Follows g w before (w.run g recording before))
    (hop : s.op.isView = true) :
    Follows g w (before ++ [s]) ((w.run g recording before).step g recording s) := by
  have hwaiting : Waiting g w (before ++ [s]) ↔ _ := waiting_concat s
  generalize hv : w.run g recording before = v at h hwaiting ⊢
  obtain ⟨op,env⟩ := s
  cases op with
  | requestPlay hasVideo =>
    obtain ⟨hrec,hsame⟩ := requestPlay_records g v env hasVideo
    refine h.next hrec hsame.stopped (fun _ => ?_) fun hs => ?_
    · rw [hsame.attached]
      simp
    · have hatt := h.attached hs
      by_cases hattached : v.player.attached = true
      · rw [if_pos hattached,hwaiting]
        refine iff_of_false (not_pending_start _ _ _) ?_
        rcases hatt.mp hattached with hw | ⟨t,ht,htop⟩
        · simp [hw]
        · simpa using fun _ => ⟨t,ht,htop⟩
      · rw [if_neg hattached,hwaiting,pending_concat]
        obtain ⟨hw,hnone⟩ := not_or.mp (mt hatt.mpr hattached)
        refine iff_of_true ⟨rfl,.inr rfl⟩ (.inl ⟨⟨hasVideo,rfl⟩,by simpa using hw,?_⟩)
        exact fun t ht htop => hnone ⟨t,ht,htop⟩
  | handleSurfaceAvailable =>
    obtain ⟨hthrough,hfailed,hsame⟩ := handleSurfaceAvailable_records g v env
    have hattached : v.player.stopped = false →
        (v.step g recording ⟨.handleSurfaceAvailable,env⟩).player.attached = true :=
      fun hs => by simp [hsame.attached,hs]
    by_cases hget : GetsThrough v ⟨.handleSurfaceAvailable,env⟩
    · refine h.next (hthrough hget) hsame.stopped (fun hs => by simp [hattached hs]) fun hs => ?_
      rw [hwaiting]
      exact iff_of_false (not_pending_start _ _ _) (by simp [hget])
    · refine h.next (hfailed hget) hsame.stopped (fun hs => by simp [hattached hs]) fun hs => ?_
      rw [hwaiting,pending_concat,h.pending hs]
      simp [Obs.settles,Obs.isRequest,hget]
  | stop =>
    obtain ⟨hrec,hstopped⟩ := stop_records g v env
    exact ⟨fun hs => by simp [hstopped] at hs,fun hs => by simp [hstopped] at hs⟩
  | pause =>
    obtain ⟨hrec,hsame⟩ := command_records g v env .pause (Prog.exec_monadLift _ _)
      (Untouched.commands.pause g)
    exact h.command hrec hsame (by simp) (by simp [pending_concat,Obs.settles]) (by simp [hwaiting])
  | simplePause =>
    obtain ⟨hrec,hsame⟩ := command_records g v env .simplePause (Prog.exec_monadLift _ _)
      (Untouched.call rfl)
    exact h.command hrec hsame (by simp) (by simp [pending_concat,Obs.settles]) (by simp [hwaiting])
  | resume =>
    obtain ⟨hrec,hsame⟩ := command_records g v env .resume (Prog.exec_monadLift _ _)
      (Untouched.commands.resume g)
    exact h.command hrec hsame (by simp) (by simp [pending_concat,Obs.settles,Obs.isRequest])
      (by simp [hwaiting])
  | _ => simp [Op.isView] at hop

/-- Only a surface notification that gets through can start what is not pending. -/
lemma startsPending_step (v : World) {s : Step} (hop : s.op.isView = true) :
    StartsPending (v.step g recording s).record ↔
      StartsPending v.record ∧ (GetsThrough v s → Pending v.record) := by
  have hentered : ∀ op, StartsPending (v.record ++ [.entered op]) ↔ StartsPending v.record := by
    intro op
    simp [StartsPending,guarded_concat,Obs.isStart]
  have hquiet : ∀ {u : World}, ¬GetsThrough v s → Records [.entered s.op] v u →
      (StartsPending u.record ↔ StartsPending v.record ∧ (GetsThrough v s → Pending v.record)) := by
    intro u hno hrec
    rw [hrec.startsPending,hentered]
    simp [hno]
  have hother : s.op ≠ .handleSurfaceAvailable → ¬GetsThrough v s := fun hne h => hne h.op
  obtain ⟨op,env⟩ := s
  cases op with
  | requestPlay hasVideo =>
    obtain ⟨hrec,-⟩ := requestPlay_records g v env hasVideo
    by_cases hattached : v.player.attached = true
    · rw [if_pos hattached] at hrec
      rw [hrec.startsPending,List.append_cons,StartsPending,guarded_concat]
      have hpending : Pending (v.record ++ [.entered (.requestPlay hasVideo)]) :=
        (pending_concat _ _).mpr ⟨rfl,.inr rfl⟩
      simp only [hpending,implies_true,and_true]
      exact (hentered _).trans (by simp [hother])
    · rw [if_neg hattached] at hrec
      exact hquiet (hother (by simp)) hrec
  | handleSurfaceAvailable =>
    obtain ⟨hthrough,hfailed,-⟩ := handleSurfaceAvailable_records g v env
    by_cases hget : GetsThrough v ⟨.handleSurfaceAvailable,env⟩
    · rw [(hthrough hget).startsPending,List.append_cons,StartsPending,guarded_concat,pending_concat]
      refine and_congr (hentered _) ?_
      simp [hget,Obs.isStart,Obs.settles,Obs.isRequest]
    · exact hquiet hget (hfailed hget)
  | stop => exact hquiet (hother (by simp)) (stop_records g v env).1
  | pause =>
    exact hquiet (hother (by simp)) (command_records g v env .pause (Prog.exec_monadLift _ _)
      (Untouched.commands.pause g)).1
  | simplePause =>
    exact hquiet (hother (by simp)) (command_records g v env .simplePause
      (Prog.exec_monadLift _ _) (Untouched.call rfl)).1
  | resume =>
    exact hquiet (hother (by simp)) (command_records g v env .resume
      (Prog.exec_monadLift _ _) (Untouched.commands.resume g)).1
  | _ => simp [Op.isView] at hop

end runs

theorem run_follows (g : Generation) {w : World} (hw : w.record = []) {steps : List Step}
    (hs : ∀ s ∈ steps, s.op.isView = true) : Follows g w steps (w.run g recording steps) := by
  induction steps using List.reverseRecOn with
  | nil =>
    refine ⟨fun _ => ?_,fun _ => ?_⟩
    · exact iff_of_false (by simp [World.run,hw,Pending]) not_waiting_nil
    · simp [World.run]
  | append_singleton steps s ih =>
    rw [run_concat]
    exact (ih fun t ht => hs t (by simp [ht])).step (hs s (by simp))

theorem starts_pending_iff (g : Generation) (callback : Bool) (w : World)
    (hw : Constructed g callback w) (steps : List Step) (hs : ∀ s ∈ steps, s.op.isView = true) :
    (StartsPending (w.run g recording steps).record ∧
      (w.run g recording steps).record.countP Obs.isStart ≤
        (w.run g recording steps).record.countP Obs.isRequest) ↔
    ∀ before s after, steps = before ++ s :: after →
      GetsThrough (w.run g recording before) s → Waiting g w before := by
  rw [and_iff_left_of_imp fun h => h.count.1]
  change _ ↔ Throughout (fun before s => GetsThrough (w.run g recording before) s → Waiting g w before) steps
  have hrecord := hw.born.untold
  induction steps using List.reverseRecOn with
  | nil => simp [World.run,hrecord,StartsPending]
  | append_singleton steps s ih =>
    have hbefore : ∀ t ∈ steps, t.op.isView = true := fun t ht => hs t (List.mem_append_left _ ht)
    have hfollows := run_follows g hrecord hbefore
    rw [run_concat,startsPending_step _ (hs s (by simp)),throughout_concat]
    refine and_congr (ih hbefore) (forall_congr' fun hget => ?_)
    exact hfollows.pending hget.running

/-- A surface that comes after the pause un-pauses the player. -/
theorem restart_unpauses :
    ¬(StartsPending (ViewClass.textureViewPlayer.built.run .zMediaPlayer recording
        [⟨.requestPlay true,{}⟩,⟨.pause,{}⟩,⟨.handleSurfaceAvailable,{}⟩]).record ∧
      (ViewClass.textureViewPlayer.built.run .zMediaPlayer recording
        [⟨.requestPlay true,{}⟩,⟨.pause,{}⟩,⟨.handleSurfaceAvailable,{}⟩]).record.countP Obs.isStart ≤
        (ViewClass.textureViewPlayer.built.run .zMediaPlayer recording
          [⟨.requestPlay true,{}⟩,⟨.pause,{}⟩,⟨.handleSurfaceAvailable,{}⟩]).record.countP
            Obs.isRequest) := by
  have hrecord : (ViewClass.textureViewPlayer.built.run .zMediaPlayer recording
      [⟨.requestPlay true,{}⟩,⟨.pause,{}⟩,⟨.handleSurfaceAvailable,{}⟩]).record =
        [.entered (.requestPlay true),.entered .pause,.entered .handleSurfaceAvailable] ++
          [.start true] := by
    decide
  rintro ⟨hstarts,-⟩
  rw [hrecord,StartsPending,guarded_concat] at hstarts
  obtain ⟨-,hpaused | hasked⟩ := (pending_concat [.entered (.requestPlay true),.entered .pause] _).mp
    (hstarts.2 rfl)
  · have hsettled := ((pending_concat [.entered (.requestPlay true)] _).mp hpaused).1
    cases hsettled
  · cases hasked

theorem starts_pending_built :
    StartsPending (ViewClass.textureViewPlayer.built.run .zMediaPlayer recording
      [⟨.requestPlay true,{}⟩,⟨.handleSurfaceAvailable,{}⟩,⟨.pause,{}⟩]).record := by
  refine ((starts_pending_iff .zMediaPlayer true ViewClass.textureViewPlayer.built
    (built_constructed .textureViewPlayer) _ (by simp [Op.isView])).mpr ?_).1
  change Throughout (fun before s => GetsThrough _ s → Waiting _ _ before) _
  simp only [throughout_cons,throughout_nil,and_true]
  refine ⟨fun h => absurd h.op (by simp),fun _ => ?_,fun h => absurd h.op (by simp)⟩
  have hasked : Waiting .zMediaPlayer ViewClass.textureViewPlayer.built
      ([] ++ [⟨.requestPlay true,{}⟩]) := .asked true {} (by decide) (by simp)
  exact hasked

end ZenMedia
