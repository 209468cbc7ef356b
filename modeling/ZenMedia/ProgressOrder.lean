import ZenMedia.ReentrantClients

/-! `onPlay` comes before positions and completion in every session: always with
the first generation, with the second one unless a media ends before its first
position. -/
namespace ZenMedia
open Reentrant TraceLaws

def Callback.isProgress : Callback → Bool
  | onPostPosition _ => true
  | onComplete => true
  | _ => false

def Obs.isProgress : Obs → Bool
  | callback c => c.isProgress
  | _ => false

@[simp] lemma isProgress_entered (op : Op) : (Obs.entered op).isProgress = false := rfl
@[simp] lemma isProgress_callback (c : Callback) : (Obs.callback c).isProgress = c.isProgress := rfl

/-- Every position and every completion comes after an `onPlay` of its session. -/
def PlayedFirst (record : List Obs) : Prop := Guarded (fun o => o.isProgress) Played record

/-- After its first element a list of callbacks makes progress only if it began
with `onPlay`. -/
def Ordered (cs : List Callback) : Prop :=
  (∃ c ∈ cs.tail, c.isProgress) → ∃ c ∈ cs.head?, c.isOnPlay

lemma deliveries_ordered (g : Generation) (flag released : Bool) (m : Message) :
    Ordered (g.deliveries flag released m) := by
  unfold Generation.deliveries
  cases he : m.event with
  | mediaPlayerStopped => cases released <;> simp [Ordered]
  | mediaPlayerEndReached => cases g <;> cases flag <;> simp [Ordered,Callback.isOnPlay]
  | mediaPlayerPositionChanged => cases flag <;> simp [Ordered,Callback.isOnPlay]
  | _ => simp [Ordered]

lemma Ordered.opens {cs ds : List Callback} (hds : Ordered ds) (h : Opens cs ds) : Ordered cs := by
  rintro ⟨c,hc,hp⟩
  obtain ⟨⟨rest,rfl⟩,hhead⟩ := h
  cases cs with
  | nil => simp at hc
  | cons d cs => exact hds ⟨c,by simpa using .inl hc,hp⟩

lemma deliveries_progress (g : Generation) (flag released : Bool) (m : Message) :
    (∃ c ∈ (g.deliveries flag released m).head?, c.isProgress) ↔
      m.event = .mediaPlayerPositionChanged ∧ flag = true ∨
      m.event = .mediaPlayerEndReached ∧ (g = .zMediaPlayer2 ∨ flag = true) := by
  unfold Generation.deliveries
  cases he : m.event with
  | mediaPlayerStopped => cases released <;> simp [Callback.isProgress]
  | mediaPlayerEndReached => cases g <;> cases flag <;> simp [Callback.isProgress]
  | mediaPlayerPositionChanged => cases flag <;> simp [Callback.isProgress]
  | _ => simp [Callback.isProgress]

lemma playedFirst_message (record : List Obs) (e : Event) {cs : List Callback} (hcs : Ordered cs) :
    PlayedFirst (record ++ .entered (.handleMessage e) :: cs.map .callback) ↔
      PlayedFirst record ∧
        ((∃ c ∈ cs.head?, c.isProgress) → e ≠ .mediaPlayerStopped ∧ Played record) := by
  have hentered : PlayedFirst (record ++ [.entered (.handleMessage e)]) ↔ PlayedFirst record := by
    simp [PlayedFirst,guarded_concat]
  cases cs with
  | nil => simpa using hentered
  | cons c cs =>
    have hsplit : record ++ .entered (.handleMessage e) :: (c :: cs).map .callback =
        (record ++ [.entered (.handleMessage e)] ++ [.callback c]) ++ cs.map .callback := by simp
    have hplayed : Played (record ++ [.entered (.handleMessage e)]) ↔
        e ≠ .mediaPlayerStopped ∧ Played record := by
      simpa using played_message record e []
    have hrest : Guarded (fun o : Obs => o.isProgress = true)
        (fun pre => Played (record ++ [.entered (.handleMessage e)] ++ [.callback c] ++ pre))
        (cs.map .callback) := by
      intro pre o post he ho
      obtain ⟨told,later,rfl,rfl,hlater⟩ := List.map_eq_append_iff.mp he
      obtain ⟨d,later,rfl,rfl,-⟩ := List.map_eq_cons_iff.mp hlater
      obtain ⟨c',hc',hon⟩ := hcs ⟨d,by simp,ho⟩
      have hc : c' = c := by simpa using hc'.symm
      have hlist : record ++ [.entered (.handleMessage e)] ++ [.callback c] ++ told.map .callback =
          record ++ .entered (.handleMessage e) :: (c :: told).map .callback := by simp
      rw [hlist,played_message]
      exact .inr ⟨c,by simp,hc ▸ hon⟩
    rw [hsplit,PlayedFirst,guarded_append,guarded_concat,and_iff_left hrest]
    refine and_congr hentered ?_
    simp [hplayed]

def World.attend (g : Generation) (client : Client) (w : World) (ms : List Message) : World :=
  w.run g client.react (ms.map Message.step)

lemma attend_concat (g : Generation) (client : Client) (w : World) (ms : List Message)
    (m : Message) :
    w.attend g client (ms ++ [m]) = (w.attend g client ms).step g client.react m.step := by
  simp [World.attend,World.run]

/-- A message nobody listens to any more. -/
lemma step_silent (g : Generation) (react : Callback → World → World) (m : Message) {w : World}
    (hw : w.player.callBack = false) :
    (w.step g react m.step).player.callBack = false ∧
      (w.step g react m.step).record = w.record ++ [.entered (.handleMessage m.event)] := by
  have hrec : ((w.arrive m.step.env).observe (.entered m.step.op)).record =
      w.record ++ [.entered (.handleMessage m.event)] := by simp [Message.step]
  have hcb : ((w.arrive m.step.env).observe (.entered m.step.op)).player.callBack = false := hw
  have hf : Faultless ((w.arrive m.step.env).observe (.entered m.step.op)) := fun _ => rfl
  simp only [World.step,run_exec_prog]
  rw [← hrec]
  generalize (w.arrive m.step.env).observe (.entered m.step.op) = v at hcb hf ⊢
  simp only [Message.step,Op.prog,Generation.handleMessage_eq]
  cases ho : v.player.eventHandler.mOwner with
  | false => simp [VideoPlayerEventHandler.handleMessage,ho,hcb]
  | true =>
    cases m.event with
    | mediaPlayerEndReached =>
      cases g <;> cases hflag : v.player.eventHandler.isOnPlayCallback <;>
        simp [VideoPlayerEventHandler.handleMessage,Generation.endReached,ZMediaPlayer.endReached,
          ZMediaPlayer2.endReached,run_updateMediaDuration,run_notifyIfSet,ho,hcb,hflag,hf _]
    | mediaPlayerPositionChanged =>
      cases hflag : v.player.eventHandler.isOnPlayCallback <;>
        simp [VideoPlayerEventHandler.handleMessage,run_updateMediaDuration,run_getPosition,
          run_notifyIfSet,run_notify,ho,hcb,hflag,hf _]
    | mediaPlayerStopped =>
      cases hrel : v.player.mediaPlayer.isReleased <;>
        simp [VideoPlayerEventHandler.handleMessage,run_mediaPlayerIsReleased,run_notifyIfSet,ho,
          hcb,hrel,hf _]
    | _ => simp [VideoPlayerEventHandler.handleMessage,run_notifyIfSet,run_notify,ho,hcb]

/-- As long as the client has not stopped the player, flag and record track the messages. -/
structure Minds (g : Generation) (ms : List Message) (w : World) : Prop where
  attended : w.player.callBack = true → Attended w
  tracks : w.player.callBack = true →
    Tracks g w.player.eventHandler.isOnPlayCallback w.record ms

theorem minds (g : Generation) (client : Client) {w : World} (hw : Fresh w) (ms : List Message) :
    Minds g ms (w.attend g client ms) := by
  induction ms using List.reverseRecOn with
  | nil =>
    refine ⟨fun _ => ⟨hw.listening,hw.running⟩,fun _ => ?_⟩
    change Tracks g w.player.eventHandler.isOnPlayCallback w.record []
    rw [hw.quiet,hw.untold]
    exact tracks_nil g
  | append_singleton ms m ih =>
    rw [attend_concat]
    cases hcb : (w.attend g client ms).player.callBack with
    | false =>
      have hoff := (step_silent g client.react m hcb).1
      exact ⟨fun h => by simp [hoff] at h,fun h => by simp [hoff] at h⟩
    | true =>
      obtain ⟨cs,-,hrec,⟨rfl,hat,-,hflag⟩ | ⟨hoff,-⟩⟩ := step_heard g client m (ih.attended hcb)
      · refine ⟨fun _ => hat,fun _ => ?_⟩
        rw [hflag,hrec]
        exact (ih.tracks hcb).step _ m
      · exact ⟨fun h => by simp [hoff] at h,fun h => by simp [hoff] at h⟩

/-- Every `EndReached` handled before the client has stopped the player comes after
a `PositionChanged` of its session. -/
def ProgressWhileAttended (g : Generation) (client : Client) (w : World) (ms : List Message) :
    Prop :=
  Guarded (fun m => m.event = .mediaPlayerEndReached) (fun pre =>
    (w.attend g client pre).player.callBack = true → Saw .mediaPlayerPositionChanged pre) ms

theorem onPlay_first_iff (g : Generation) (client : Client) (w : World) (hw : Fresh w)
    (ms : List Message) :
    PlayedFirst (w.attend g client ms).record ↔
      g = .zMediaPlayer ∨ ProgressWhileAttended g client w ms := by
  induction ms using List.reverseRecOn with
  | nil =>
    have hrec : (w.attend g client []).record = [] := hw.untold
    simp [ProgressWhileAttended,PlayedFirst,hrec]
  | append_singleton ms m ih =>
    have hm := minds g client hw ms
    rw [attend_concat,ProgressWhileAttended,guarded_concat]
    cases hcb : (w.attend g client ms).player.callBack with
    | false =>
      obtain ⟨-,hrec⟩ := step_silent g client.react m hcb
      have hnone : Ordered [] := by simp [Ordered]
      have hmore := playedFirst_message (w.attend g client ms).record m.event hnone
      rw [hrec]
      simpa [hcb,ih,ProgressWhileAttended] using hmore
    | true =>
      obtain ⟨cs,hopens,hrec,-⟩ := step_heard g client m (hm.attended hcb)
      have ht := hm.tracks hcb
      rw [hrec,playedFirst_message _ _ ((deliveries_ordered g _ _ m).opens hopens),ih,hopens.2,
        deliveries_progress,ProgressWhileAttended]
      by_cases hsaw : Saw .mediaPlayerPositionChanged ms
      · have hplayed := ht.progressed (ht.flag_iff.mpr hsaw)
        have hst : m.event = .mediaPlayerPositionChanged ∨ m.event = .mediaPlayerEndReached →
            m.event ≠ .mediaPlayerStopped := by
          rintro (he | he) <;> simp [he]
        grind
      · have hplayed := ht.played hsaw
        simp only [ht.off hsaw,hplayed,hsaw]
        cases g with
        | zMediaPlayer => simp
        | zMediaPlayer2 => simp

/-- A media of the second generation that ends before its first position. -/
theorem complete_without_onPlay :
    ¬PlayedFirst (ViewClass.textureViewPlayer2.built.attend .zMediaPlayer2 (fun _ => .proceed)
      [⟨.mediaPlayerEndReached,0,0,false⟩]).record := by
  intro h
  have hplayed := h [.entered (.handleMessage .mediaPlayerEndReached)] (.callback .onComplete) []
    (by decide) rfl
  revert hplayed
  simp [Played,session,Obs.endsSession,List.rtakeWhile]

theorem onPlay_first_built :
    PlayedFirst (ViewClass.textureViewPlayer2.built.attend .zMediaPlayer2
      (fun told => if told.length = 2 then .stop else .proceed)
      [⟨.mediaPlayerPositionChanged,7,1/2,false⟩,⟨.mediaPlayerEndReached,7,1,false⟩,
        ⟨.mediaPlayerStopped,7,1,false⟩,⟨.mediaPlayerEndReached,7,1,false⟩]).record := by
  refine (onPlay_first_iff _ _ _ (built_fresh _) _).mpr (.inr ?_)
  simp [ProgressWhileAttended,Saw,sessionOf,session,Event.endsSession,List.rtakeWhile]
  decide

end ZenMedia
