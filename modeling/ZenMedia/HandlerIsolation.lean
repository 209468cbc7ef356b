import ZenMedia.Construction
import ZenMedia.HandlerSessions

/-! Several players in one process. `EventHandler.getInstance()` sends every native
event to every registered handler, and nothing in the message says which player
raised it. -/
namespace ZenMedia
open Reentrant TraceLaws

/-- The events that `handleMessage` has an empty case or no case for. -/
def Event.isQuiet : Event → Bool
  | mediaParsedChanged | mediaPlayerPlaying | mediaPlayerVout | mediaPlayerTimeChanged
  | mediaPlayerESAdded | mediaPlayerESDeleted | other _ => true
  | _ => false

/-- A native event: the player that raised it, and what the getters of each player
answer while its handler works on the message. -/
structure Raised (ι : Type) where
  source : ι
  event : Event
  length : ι → ℤ
  position : ι → ℚ

variable {ι : Type}

def Raised.message (r : Raised ι) (b : ι) : Message :=
  { event := r.event, length := r.length b, position := r.position b }

def broadcast (gens : ι → Generation) (players : ι → World) (r : Raised ι) : ι → World := fun b =>
  if (players b).player.eventHandler.registered then
    (players b).step (gens b) recording (r.message b).step
  else players b

def broadcastAll (gens : ι → Generation) (players : ι → World) (rs : List (Raised ι)) :
    ι → World := rs.foldl (broadcast gens) players

/-- A player with a client, registered and not released. -/
structure Subscribed (w : World) : Prop where
  listening : Listening w
  registered : w.player.eventHandler.registered = true
  inUse : w.player.mediaPlayer.isReleased = false

lemma Subscribed.step {w : World} (h : Subscribed w) (g : Generation) (m : Message) :
    Subscribed (w.step g recording m.step) := by
  obtain ⟨hl,-,hrel,hreg,-⟩ := step_listening g m h.listening
  exact ⟨hl,hreg.trans h.registered,hrel.trans h.inUse⟩

lemma Subscribed.handle {w : World} (h : Subscribed w) (g : Generation) (ms : List Message) :
    Subscribed (w.handle g ms) := by
  induction ms using List.reverseRecOn with
  | nil => exact h
  | append_singleton ms m ih =>
    rw [handle_concat]
    exact ih.step g m

/-- A subscribed player handles all the events of the process. -/
lemma broadcastAll_apply (gens : ι → Generation) (players : ι → World) (b : ι)
    (hb : Subscribed (players b)) (rs : List (Raised ι)) :
    broadcastAll gens players rs b =
      (players b).handle (gens b) (rs.map fun r => r.message b) := by
  induction rs using List.reverseRecOn with
  | nil => rfl
  | append_singleton rs r ih =>
    have hreg := (hb.handle (gens b) (rs.map fun r => r.message b)).registered
    rw [← ih] at hreg
    rw [List.map_append,List.map_singleton,handle_concat,← ih]
    simp only [broadcastAll,List.foldl_append,List.foldl_cons,List.foldl_nil]
    exact if_pos hreg

/-- Each message that is not quiet tells the client exactly one thing besides `onPlay`. -/
lemma deliveries_count (g : Generation) (flag : Bool) (m : Message) :
    (g.deliveries flag false m).countP (fun c => !c.isOnPlay) = if m.event.isQuiet then 0 else 1 := by
  unfold Generation.deliveries
  cases he : m.event with
  | mediaPlayerEndReached => cases g <;> cases flag <;> simp [Event.isQuiet,Callback.isOnPlay]
  | mediaPlayerPositionChanged => cases flag <;> simp [Event.isQuiet,Callback.isOnPlay]
  | _ => simp [Event.isQuiet,Callback.isOnPlay]

lemma callbacks_count (g : Generation) {w : World} (hw : Subscribed w) (ms : List Message) :
    (w.handle g ms).callbacks.countP (fun c => !c.isOnPlay) =
      w.callbacks.countP (fun c => !c.isOnPlay) + ms.countP (fun m => !m.event.isQuiet) := by
  induction ms using List.reverseRecOn with
  | nil => simp [handle_nil]
  | append_singleton ms m ih =>
    have hs := hw.handle g ms
    rw [handle_concat,callbacks_step g m hs.listening,List.countP_append,ih,hs.inUse,
      deliveries_count,List.countP_append,List.countP_singleton]
    cases m.event.isQuiet <;> simp [Nat.add_assoc]

/-- Two players that have told the same and will tell the same. -/
structure Alike (w v : World) : Prop where
  left : Subscribed w
  right : Subscribed v
  flag : w.player.eventHandler.isOnPlayCallback = v.player.eventHandler.isOnPlayCallback
  callbacks : w.callbacks = v.callbacks

lemma Alike.step {w v : World} (h : Alike w v) (g : Generation) (m : Message) :
    Alike (w.step g recording m.step) (v.step g recording m.step) := by
  obtain ⟨-,hfw,-,-,-⟩ := step_listening g m h.left.listening
  obtain ⟨-,hfv,-,-,-⟩ := step_listening g m h.right.listening
  refine ⟨h.left.step g m,h.right.step g m,by rw [hfw,hfv,h.flag],?_⟩
  rw [callbacks_step g m h.left.listening,callbacks_step g m h.right.listening,h.callbacks,h.flag,
    h.left.inUse,h.right.inUse]

lemma Alike.quiet {w v : World} (h : Alike w v) (g : Generation) {m : Message}
    (hm : m.event.isQuiet = true) : Alike (w.step g recording m.step) v := by
  have hnone : g.deliveries w.player.eventHandler.isOnPlayCallback
      w.player.mediaPlayer.isReleased m = [] := by
    unfold Generation.deliveries
    cases he : m.event <;> simp_all [Event.isQuiet]
  have hflag : flagAfter w.player.eventHandler.isOnPlayCallback m.event =
      w.player.eventHandler.isOnPlayCallback := by
    cases he : m.event <;> simp_all [Event.isQuiet,flagAfter]
  obtain ⟨-,hfw,-,-,-⟩ := step_listening g m h.left.listening
  refine ⟨h.left.step g m,h.right,by rw [hfw,hflag,h.flag],?_⟩
  rw [callbacks_step g m h.left.listening,hnone,List.append_nil,h.callbacks]

section
variable [DecidableEq ι]

/-- The events that `b` itself raises. -/
def own (b : ι) (rs : List (Raised ι)) : List (Raised ι) := rs.filter fun r => r.source = b

lemma alike_own (g : Generation) {w : World} (hw : Subscribed w) (b : ι) {rs : List (Raised ι)}
    (h : ∀ r ∈ rs, r.source ≠ b → r.event.isQuiet = true) :
    Alike (w.handle g (rs.map fun r => r.message b))
      (w.handle g ((own b rs).map fun r => r.message b)) := by
  induction rs using List.reverseRecOn with
  | nil => exact ⟨hw,hw,rfl,rfl⟩
  | append_singleton rs r ih =>
    have hrs := ih (fun x hx => h x (by simp [hx]))
    rw [List.map_append,List.map_singleton,handle_concat]
    by_cases hr : r.source = b
    · have hown : own b (rs ++ [r]) = own b rs ++ [r] := by simp [own,hr]
      rw [hown,List.map_append,List.map_singleton,handle_concat]
      exact hrs.step g _
    · have hown : own b (rs ++ [r]) = own b rs := by simp [own,hr]
      rw [hown]
      exact hrs.quiet g (h r (by simp) hr)

lemma loud_own (b : ι) {rs : List (Raised ι)}
    (h : rs.countP ((fun m => !m.event.isQuiet) ∘ fun r => r.message b) =
      (own b rs).countP ((fun m => !m.event.isQuiet) ∘ fun r => r.message b)) :
    ∀ r ∈ rs, r.event.isQuiet = false → r.source = b := by
  rw [List.countP_eq_length_filter,List.countP_eq_length_filter,own,List.filter_comm] at h
  have heq := List.filter_sublist.eq_of_length h.symm
  intro r hr hloud
  have hmem : r ∈ rs.filter ((fun m => !m.event.isQuiet) ∘ fun r => r.message b) := by
    rw [List.mem_filter]
    exact ⟨hr,by simp [Raised.message,hloud]⟩
  simpa using List.filter_eq_self.mp heq r hmem

/-- The events of the other players change nothing for `b` exactly when
`handleMessage` ignores them all. -/
theorem isolation_iff (gens : ι → Generation) (players : ι → World) (b : ι)
    (hb : Subscribed (players b)) (rs : List (Raised ι)) :
    ((broadcastAll gens players rs b).callbacks =
        (broadcastAll gens players (own b rs) b).callbacks ∧
      (broadcastAll gens players rs b).player.eventHandler.isOnPlayCallback =
        (broadcastAll gens players (own b rs) b).player.eventHandler.isOnPlayCallback) ↔
    ∀ r ∈ rs, r.source ≠ b → r.event.isQuiet = true := by
  rw [broadcastAll_apply gens players b hb,broadcastAll_apply gens players b hb]
  constructor
  · rintro ⟨hcallbacks,-⟩ r hr hsource
    have hcount := congrArg (List.countP fun c => !c.isOnPlay) hcallbacks
    rw [callbacks_count _ hb,callbacks_count _ hb,List.countP_map,List.countP_map,
      Nat.add_left_cancel_iff] at hcount
    have hall := loud_own b hcount
    by_contra hloud
    exact hsource (hall r hr (by simpa using hloud))
  · intro h
    have halike := alike_own (gens b) hb b h
    exact ⟨halike.callbacks,halike.flag⟩

end

lemma Born.subscribed {w : World} (h : Born true w) : Subscribed w where
  listening := h.fresh.listening
  registered := by rw [h.eventHandler]
  inUse := by simp [MediaPlayer.isReleased,h.mNativeRefCount]

/-- The other player's clip ends, and this one tells its client that it is complete. -/
theorem foreign_end_completes :
    (broadcastAll (fun _ : Bool => .zMediaPlayer) (fun _ => ViewClass.audioPlayer.built)
      [⟨true,.mediaPlayerEndReached,fun _ => 0,fun _ => 0⟩] false).callbacks ≠
    (broadcastAll (fun _ : Bool => .zMediaPlayer) (fun _ => ViewClass.audioPlayer.built)
      (own false [⟨true,.mediaPlayerEndReached,fun _ => 0,fun _ => 0⟩]) false).callbacks := by
  decide

theorem isolation_built :
    (broadcastAll (fun _ : Bool => .zMediaPlayer) (fun _ => ViewClass.audioPlayer.built)
      [⟨true,.mediaPlayerPlaying,fun _ => 0,fun _ => 0⟩,
        ⟨false,.mediaPlayerPositionChanged,fun _ => 7,fun _ => 1/2⟩] false).callbacks =
    (broadcastAll (fun _ : Bool => .zMediaPlayer) (fun _ => ViewClass.audioPlayer.built)
      (own false [⟨true,.mediaPlayerPlaying,fun _ => 0,fun _ => 0⟩,
        ⟨false,.mediaPlayerPositionChanged,fun _ => 7,fun _ => 1/2⟩]) false).callbacks := by
  refine ((isolation_iff _ _ false (built_constructed _).born.subscribed _).mpr ?_).1
  simp [Event.isQuiet]

end ZenMedia
