import Mathlib

/-! Programs that hand control to a client in the middle of their work. A
program is a state transformer with exceptions whose run may stop at a callback;
the client then does what it likes to the state, re-enters other programs
included, before the rest is resumed. The atomic parts, which run no callback,
are ordinary `EStateM` actions. -/
namespace ZenMedia.Reentrant

/-- How far a program gets: to its end, to an exception, or to a callback `c`
with the continuation `k` still to run on the state the client leaves behind. -/
inductive Res (σ ε κ α : Type)
  | ret (a : α) (s : σ)
  | throw (e : ε) (s : σ)
  | yield (c : κ) (s : σ) (k : σ → Res σ ε κ α)

variable {σ ε κ α β : Type}

def Res.bind : Res σ ε κ α → (α → σ → Res σ ε κ β) → Res σ ε κ β
  | .ret a s, f => f a s
  | .throw e s, _ => .throw e s
  | .yield c s k, f => .yield c s (fun t => (k t).bind f)

def Prog (σ ε κ α : Type) := σ → Res σ ε κ α

namespace Prog

instance : Monad (Prog σ ε κ) where
  pure a := fun s => .ret a s
  bind p f := fun s => (p s).bind (fun a t => f a t)

/-- Atomic code as a program. -/
def lift (m : EStateM ε σ α) : Prog σ ε κ α := fun s =>
  match m.run s with
  | .ok a t => .ret a t
  | .error e t => .throw e t

instance : MonadLift (EStateM ε σ) (Prog σ ε κ) := ⟨lift⟩

def raise (e : ε) : Prog σ ε κ α := fun s => .throw e s

/-- Call the client. -/
def yield (c : κ) : Prog σ ε κ Unit := fun s => .yield c s (fun t => .ret () t)

/-- `try { m } catch (e) { h e }` around atomic code; the changes made before
the exception stay. -/
def attempt (m : EStateM ε σ α) (h : ε → Prog σ ε κ α) : Prog σ ε κ α := fun s =>
  match m.run s with
  | .ok a t => .ret a t
  | .error e t => h e t

lemma bind_apply (p : Prog σ ε κ α) (f : α → Prog σ ε κ β) (s : σ) :
    (p >>= f) s = (p s).bind (fun a t => f a t) := rfl

lemma monadLift_apply (m : EStateM ε σ α) (s : σ) :
    (monadLift m : Prog σ ε κ α) s = lift m s := rfl

end Prog

/-! ### Runs against a client that reacts at once -/

/-- The whole run when each callback `c` is answered by the state change `react c`. -/
def Res.exec (react : κ → σ → σ) : Res σ ε κ α → EStateM.Result ε σ α
  | .ret a s => .ok a s
  | .throw e s => .error e s
  | .yield c s k => (k (react c s)).exec react

def Prog.exec (react : κ → σ → σ) (p : Prog σ ε κ α) : EStateM ε σ α :=
  fun s => (p s).exec react

lemma Res.exec_bind (react : κ → σ → σ) (r : Res σ ε κ α) (f : α → σ → Res σ ε κ β) :
    (r.bind f).exec react =
      match r.exec react with
      | .ok a s => (f a s).exec react
      | .error e s => .error e s := by
  induction r with
  | ret a s => rfl
  | throw e s => rfl
  | yield c s k ih => exact ih (react c s)

namespace Prog
variable (react : κ → σ → σ)

@[simp] lemma exec_pure (a : α) : (pure a : Prog σ ε κ α).exec react = pure a := rfl

@[simp] lemma exec_bind (p : Prog σ ε κ α) (f : α → Prog σ ε κ β) :
    (p >>= f).exec react = p.exec react >>= fun a => (f a).exec react := by
  funext s
  have h := Res.exec_bind react (p s) (fun a t => f a t)
  change ((p s).bind _).exec react = EStateM.bind (p.exec react) _ s
  rw [h]
  simp only [EStateM.bind,exec]
  cases (p s).exec react <;> rfl

@[simp] lemma exec_lift (m : EStateM ε σ α) : (lift m : Prog σ ε κ α).exec react = m := by
  funext s
  simp only [exec, lift, EStateM.run]
  cases m s <;> rfl

@[simp] lemma exec_monadLift (m : EStateM ε σ α) :
    (monadLift m : Prog σ ε κ α).exec react = m := exec_lift react m

@[simp] lemma run_exec_raise (e : ε) (s : σ) :
    ((raise e : Prog σ ε κ α).exec react).run s = .error e s := rfl

@[simp] lemma exec_yield (c : κ) :
    (yield c : Prog σ ε κ Unit).exec react = modify (react c) := rfl

@[simp] lemma exec_ite (b : Prop) [Decidable b] (p q : Prog σ ε κ α) :
    (if b then p else q).exec react = if b then p.exec react else q.exec react := by
  split <;> rfl

lemma run_exec_attempt (m : EStateM ε σ α) (h : ε → Prog σ ε κ α) (s : σ) :
    ((attempt m h).exec react).run s =
      match m.run s with
      | .ok a t => .ok a t
      | .error e t => ((h e).exec react).run t := by
  simp only [exec, attempt, EStateM.run]
  cases m s <;> rfl

end Prog

/-! ### Clients that re-enter: a stack of suspended programs -/

/-- The state and the programs suspended at a callback, innermost first. -/
structure Machine (σ ε κ : Type) where
  state : σ
  frames : List (σ → Res σ ε κ Unit)

def Res.settle (frames : List (σ → Res σ ε κ Unit)) : Res σ ε κ Unit → Machine σ ε κ
  | .ret _ s => ⟨s,frames⟩
  | .throw _ s => ⟨s,frames⟩
  | .yield _ s k => ⟨s,k :: frames⟩

/-- What may happen next: a program is entered, at the top or from inside the
running callback; the running callback returns; or it throws and takes the
program that called it down with it. -/
inductive Move (L : Type)
  | enter (l : L)
  | back
  | abort
  deriving DecidableEq, Repr

variable {L : Type}

def Machine.step (prog : L → Prog σ ε κ Unit) (m : Machine σ ε κ) : Move L → Machine σ ε κ
  | .enter l => (prog l m.state).settle m.frames
  | .back =>
    match m.frames with
    | [] => m
    | k :: ks => (k m.state).settle ks
  | .abort => ⟨m.state,m.frames.tail⟩

def Machine.run (prog : L → Prog σ ε κ Unit) (m : Machine σ ε κ) (moves : List (Move L)) :
    Machine σ ε κ := moves.foldl (Machine.step prog) m

@[simp] lemma Machine.run_nil (prog : L → Prog σ ε κ Unit) (m : Machine σ ε κ) :
    m.run prog [] = m := rfl

@[simp] lemma Machine.run_cons (prog : L → Prog σ ε κ Unit) (m : Machine σ ε κ)
    (v : Move L) (moves : List (Move L)) :
    m.run prog (v :: moves) = (m.step prog v).run prog moves := rfl

lemma Machine.run_append (prog : L → Prog σ ε κ Unit) (m : Machine σ ε κ)
    (xs ys : List (Move L)) : m.run prog (xs ++ ys) = (m.run prog xs).run prog ys :=
  List.foldl_append ..

/-! ### Relations kept by atomic code -/

lemma bind_eq_ok {m : EStateM ε σ α} {f : α → EStateM ε σ β} {s t : σ} {b : β} :
    (m >>= f).run s = .ok b t ↔ ∃ a u, m.run s = .ok a u ∧ (f a).run u = .ok b t := by
  rw [EStateM.run_bind]
  cases m.run s <;> simp

/-- The state an atomic run ends in, normally or not. -/
def final : EStateM.Result ε σ α → σ
  | .ok _ s => s
  | .error _ s => s

@[simp] lemma final_ok (a : α) (s : σ) : final (.ok a s : EStateM.Result ε σ α) = s := rfl
@[simp] lemma final_error (e : ε) (s : σ) : final (.error e s : EStateM.Result ε σ α) = s := rfl

/-- Dropping the result of a run. -/
@[simp] lemma final_run_bind_pure (m : EStateM ε σ α) (b : β) (s : σ) :
    final ((m >>= fun _ => pure b).run s) = final (m.run s) := by
  rw [EStateM.run_bind]
  cases m.run s <;> rfl

/-- A reflexive and transitive relation between the states before and after. -/
structure Frame (σ : Type) where
  rel : σ → σ → Prop
  refl : ∀ s, rel s s
  trans : ∀ {s t u}, rel s t → rel t u → rel s u

/-- `F` for the states of `I`, which stay in `I`. -/
def Frame.under (I : σ → Prop) (F : Frame σ) : Frame σ where
  rel s t := I s → I t ∧ F.rel s t
  refl s h := ⟨h,F.refl s⟩
  trans hst htu h := ⟨(htu (hst h).1).1,F.trans (hst h).2 (htu (hst h).1).2⟩

/-- The frame of an invariant. -/
def Frame.ofInvariant (I : σ → Prop) : Frame σ where
  rel s t := I s → I t
  refl _ h := h
  trans hst htu h := htu (hst h)

/-- Every run of `m`, a throwing one included, stays within the frame. -/
def Maintains (F : Frame σ) (m : EStateM ε σ α) : Prop := ∀ s, F.rel s (final (m.run s))

namespace Maintains
variable {F : Frame σ}

lemma pure (a : α) : Maintains F (pure a : EStateM ε σ α) := fun s => F.refl s

lemma get : Maintains F (get : EStateM ε σ σ) := fun s => F.refl s

lemma throw (e : ε) : Maintains F (throw e : EStateM ε σ α) := fun s => F.refl s

lemma bind {m : EStateM ε σ α} {f : α → EStateM ε σ β} (hm : Maintains F m)
    (hf : ∀ a, Maintains F (f a)) : Maintains F (m >>= f) := by
  intro s
  have h := hm s
  rw [EStateM.run_bind]
  cases he : m.run s with
  | ok a t => rw [he] at h; exact F.trans h (hf a t)
  | error e t => rw [he] at h; exact h

lemma ite {b : Prop} [Decidable b] {m n : EStateM ε σ α} (hm : Maintains F m)
    (hn : Maintains F n) : Maintains F (if b then m else n) := by
  split
  · exact hm
  · exact hn

lemma weaken {G : Frame σ} {m : EStateM ε σ α} (hm : Maintains F m)
    (h : ∀ s t, F.rel s t → G.rel s t) : Maintains G m := fun s => h _ _ (hm s)

end Maintains

/-! ### Relations kept by programs, whatever the client does in between -/

/-- Every stretch of a program started in `s`, from its entry or a callback to the next
callback or its end, stays within the frame. -/
def Res.Keeps (F : Frame σ) (s : σ) : Res σ ε κ α → Prop
  | .ret _ t => F.rel s t
  | .throw _ t => F.rel s t
  | .yield _ t k => F.rel s t ∧ ∀ u, (k u).Keeps F u

/-- Every stretch but the first does. -/
def Res.Rests (F : Frame σ) : Res σ ε κ α → Prop
  | .ret _ _ => True
  | .throw _ _ => True
  | .yield _ _ k => ∀ u, (k u).Keeps F u

namespace Res
variable {F G : Frame σ} {s t : σ}

lemma Keeps.rests {r : Res σ ε κ α} (h : r.Keeps F s) : r.Rests F := by
  cases r with
  | ret a t => trivial
  | throw e t => trivial
  | yield c t k => exact h.2

/-- A first stretch that is within the frame wherever it ends. -/
lemma Rests.keeps {r : Res σ ε κ α} (h : r.Rests F) (hs : ∀ t, F.rel s t) : r.Keeps F s := by
  cases r with
  | ret a t => exact hs t
  | throw e t => exact hs t
  | yield c t k => exact ⟨hs t,h⟩

lemma Keeps.after {r : Res σ ε κ α} (hst : F.rel s t) (h : r.Keeps F t) : r.Keeps F s := by
  cases r with
  | ret a u => exact F.trans hst h
  | throw e u => exact F.trans hst h
  | yield c u k => exact ⟨F.trans hst h.1,h.2⟩

lemma Keeps.bind {r : Res σ ε κ α} {f : α → σ → Res σ ε κ β} (hr : r.Keeps F s)
    (hf : ∀ a t, (f a t).Keeps F t) : (r.bind f).Keeps F s := by
  induction r generalizing s with
  | ret a t => exact .after hr (hf a t)
  | throw e t => exact hr
  | yield c t k ih => exact ⟨hr.1,fun u => ih u (hr.2 u)⟩

lemma Rests.bind {r : Res σ ε κ α} {f : α → σ → Res σ ε κ β} (hr : r.Rests F)
    (hf : ∀ a t, (f a t).Keeps F t) : (r.bind f).Rests F := by
  cases r with
  | ret a t => exact (hf a t).rests
  | throw e t => trivial
  | yield c t k => exact fun u => (hr u).bind hf

/-- The run against a client that reacts at once. -/
lemma Keeps.exec {r : Res σ ε κ α} (h : r.Keeps F s) {react : κ → σ → σ}
    (hreact : ∀ c s, F.rel s (react c s)) : F.rel s (final (r.exec react)) := by
  induction r generalizing s with
  | ret a t => exact h
  | throw e t => exact h
  | yield c t k ih => exact F.trans h.1 (F.trans (hreact c t) (ih _ (h.2 _)))

end Res

/-- `p` stays within the frame between callbacks. -/
def Prog.Keeps (F : Frame σ) (p : Prog σ ε κ α) : Prop := ∀ s, (p s).Keeps F s

/-- `p` does so once it has been called back. -/
def Prog.Rests (F : Frame σ) (p : Prog σ ε κ α) : Prop := ∀ s, (p s).Rests F

namespace Prog.Keeps
variable {F : Frame σ}

/-- If the client stays within the frame as well, so does the whole run. -/
lemma exec {p : Prog σ ε κ α} (h : Keeps F p) {react : κ → σ → σ}
    (hreact : ∀ c s, F.rel s (react c s)) : Maintains F (p.exec react) :=
  fun s => (h s).exec hreact

lemma rests {p : Prog σ ε κ α} (h : Keeps F p) : Rests F p := fun s => (h s).rests

lemma pure (a : α) : Keeps F (pure a : Prog σ ε κ α) := fun s => F.refl s

lemma lift {m : EStateM ε σ α} (hm : Maintains F m) : Keeps F (monadLift m : Prog σ ε κ α) := by
  intro s
  have hs := hm s
  rw [monadLift_apply,Prog.lift]
  cases hrun : m.run s with
  | ok a t => rwa [hrun] at hs
  | error e t => rwa [hrun] at hs

lemma bind {p : Prog σ ε κ α} {f : α → Prog σ ε κ β} (hp : Keeps F p) (hf : ∀ a, Keeps F (f a)) :
    Keeps F (p >>= f) := fun s => (hp s).bind fun a t => hf a t

lemma raise (e : ε) : Keeps F (raise e : Prog σ ε κ α) := fun s => F.refl s

lemma yield (c : κ) : Keeps F (yield c : Prog σ ε κ Unit) := fun s => ⟨F.refl s,fun u => F.refl u⟩

lemma ite {b : Prop} [Decidable b] {p q : Prog σ ε κ α} (hp : Keeps F p) (hq : Keeps F q) :
    Keeps F (if b then p else q) := by
  split
  · exact hp
  · exact hq

lemma attempt {m : EStateM ε σ α} {h : ε → Prog σ ε κ α} (hm : Maintains F m)
    (hh : ∀ e, Keeps F (h e)) : Keeps F (attempt m h) := by
  intro s
  have hs := hm s
  rw [Prog.attempt]
  cases hrun : m.run s with
  | ok a t => rwa [hrun] at hs
  | error e t =>
    rw [hrun] at hs
    exact .after hs (hh e t)

end Prog.Keeps

namespace Prog.Rests
variable {F : Frame σ}

lemma pure (a : α) : Rests F (pure a : Prog σ ε κ α) := fun _ => trivial

lemma lift (m : EStateM ε σ α) : Rests F (monadLift m : Prog σ ε κ α) := by
  intro s
  rw [monadLift_apply,Prog.lift]
  cases m.run s <;> trivial

lemma bind {p : Prog σ ε κ α} {f : α → Prog σ ε κ β} (hp : Rests F p) (hf : ∀ a, Keeps F (f a)) :
    Rests F (p >>= f) := fun s => (hp s).bind fun a t => hf a t

/-- Atomic code has no rest of its own. -/
lemma bind_lift {m : EStateM ε σ α} {f : α → Prog σ ε κ β} (hf : ∀ a, Rests F (f a)) :
    Rests F (monadLift m >>= f) := by
  intro s
  rw [bind_apply,monadLift_apply,Prog.lift]
  cases m.run s with
  | ok a t => exact hf a t
  | error e t => trivial

lemma ite {b : Prop} [Decidable b] {p q : Prog σ ε κ α} (hp : Rests F p) (hq : Rests F q) :
    Rests F (if b then p else q) := by
  split
  · exact hp
  · exact hq

lemma attempt {m : EStateM ε σ α} {h : ε → Prog σ ε κ α} (hh : ∀ e, Rests F (h e)) :
    Rests F (attempt m h) := by
  intro s
  rw [Prog.attempt]
  cases m.run s with
  | ok a t => trivial
  | error e t => exact hh e t

end Prog.Rests

namespace Machine
variable {prog : L → Prog σ ε κ Unit} {F : Frame σ}

private lemma settle_keeps {frames : List (σ → Res σ ε κ Unit)} {s : σ} {r : Res σ ε κ Unit}
    (hr : r.Keeps F s) : F.rel s (r.settle frames).state := by
  cases r with
  | ret a t => exact hr
  | throw e t => exact hr
  | yield c t k => exact hr.1

private lemma settle_rests {frames : List (σ → Res σ ε κ Unit)} {r : Res σ ε κ Unit}
    (hr : r.Rests F) (hf : ∀ k ∈ frames, ∀ u, (k u).Keeps F u) :
    ∀ k ∈ (r.settle frames).frames, ∀ u, (k u).Keeps F u := by
  cases r with
  | ret a t => exact hf
  | throw e t => exact hf
  | yield c t k =>
    intro k' hk'
    obtain rfl | hk' := List.mem_cons.mp hk'
    · exact hr
    · exact hf k' hk'

/-- What is suspended in a run stays within the frame if the rests of what is entered do. -/
theorem run_rests (hprog : ∀ l, (prog l).Rests F) (moves : List (Move L)) (m : Machine σ ε κ)
    (hf : ∀ k ∈ m.frames, ∀ u, (k u).Keeps F u) :
    ∀ k ∈ (m.run prog moves).frames, ∀ u, (k u).Keeps F u := by
  induction moves generalizing m with
  | nil => exact hf
  | cons v moves ih =>
    rw [run_cons]
    apply ih
    cases v with
    | enter l => exact settle_rests (hprog l m.state) hf
    | back =>
      unfold step
      cases hk : m.frames with
      | nil => exact hf
      | cons k ks =>
        rw [hk] at hf
        have hrest : (k m.state).Rests F := (hf k (by simp) m.state).rests
        exact settle_rests hrest fun k' hk' => hf k' (List.mem_cons_of_mem k hk')
    | abort => exact fun k hk => hf k (List.mem_of_mem_tail hk)

/-- A run stays within the frame if all that is entered and all that is suspended does. -/
theorem run_keeps (moves : List (Move L)) (m : Machine σ ε κ)
    (hprog : ∀ l, .enter l ∈ moves → (prog l).Keeps F)
    (hf : ∀ k ∈ m.frames, ∀ u, (k u).Keeps F u) : F.rel m.state (m.run prog moves).state := by
  induction moves generalizing m with
  | nil => exact F.refl m.state
  | cons v moves ih =>
    have hrest : ∀ l, .enter l ∈ moves → (prog l).Keeps F :=
      fun l hl => hprog l (List.mem_cons_of_mem v hl)
    rw [run_cons]
    cases v with
    | enter l =>
      have hl := hprog l (by simp) m.state
      exact F.trans (settle_keeps hl) (ih _ hrest (settle_rests hl.rests hf))
    | back =>
      cases hk : m.frames with
      | nil =>
        have he : m.step prog .back = m := by simp [step,hk]
        rw [he]
        exact ih m hrest hf
      | cons k ks =>
        have he : m.step prog .back = (k m.state).settle ks := by simp [step,hk]
        rw [hk] at hf
        have hrun := hf k (by simp) m.state
        have hks := settle_rests hrun.rests fun k' hk' => hf k' (List.mem_cons_of_mem k hk')
        rw [he]
        exact F.trans (settle_keeps hrun) (ih _ hrest hks)
    | abort =>
      exact ih ⟨m.state,m.frames.tail⟩ hrest fun k hk => hf k (List.mem_of_mem_tail hk)

end Machine

/-- Every run of `m` from a state of `I` returns, in a state of `I`. -/
def Returns (I : σ → Prop) (m : EStateM ε σ α) : Prop := ∀ s, I s → ∃ a t, m.run s = .ok a t ∧ I t

namespace Returns
variable {I : σ → Prop}

lemma pure (a : α) : Returns I (pure a : EStateM ε σ α) := fun s hs => ⟨a,s,rfl,hs⟩

lemma get : Returns I (get : EStateM ε σ σ) := fun s hs => ⟨s,s,rfl,hs⟩

lemma modify {f : σ → σ} (h : ∀ s, I s → I (f s)) : Returns I (modify f : EStateM ε σ PUnit) :=
  fun s hs => ⟨⟨⟩,f s,rfl,h s hs⟩

lemma bind {m : EStateM ε σ α} {f : α → EStateM ε σ β} (hm : Returns I m)
    (hf : ∀ a, Returns I (f a)) : Returns I (m >>= f) := by
  intro s hs
  obtain ⟨a,t,ha,ht⟩ := hm s hs
  obtain ⟨b,u,hb,hu⟩ := hf a t ht
  exact ⟨b,u,bind_eq_ok.mpr ⟨a,t,ha,hb⟩,hu⟩

lemma ite {b : Prop} [Decidable b] {m n : EStateM ε σ α} (hm : Returns I m) (hn : Returns I n) :
    Returns I (if b then m else n) := by
  split
  · exact hm
  · exact hn

end Returns

/-! ### Laws of atomic code -/

/-- A law that sequencing keeps. -/
structure Sequential (Q : ∀ α : Type, EStateM ε σ α → Prop) : Prop where
  pure : ∀ {α : Type} (a : α), Q α (pure a)
  get : Q σ get
  bind : ∀ {α β : Type} {m : EStateM ε σ α} {f : α → EStateM ε σ β}, Q α m → (∀ a, Q β (f a)) →
    Q β (m >>= f)

lemma Maintains.sequential (F : Frame σ) :
    Sequential fun α (m : EStateM ε σ α) => Maintains F m := ⟨.pure,.get,.bind⟩

lemma Returns.sequential (I : σ → Prop) :
    Sequential fun α (m : EStateM ε σ α) => Returns I m := ⟨.pure,.get,.bind⟩

lemma Sequential.ite {Q : ∀ α : Type, EStateM ε σ α → Prop} (_ : Sequential Q) {b : Prop}
    [Decidable b] {m n : EStateM ε σ α} (hm : Q α m) (hn : Q α n) : Q α (if b then m else n) := by
  split
  · exact hm
  · exact hn

/-! ### Two runs side by side -/

/-- The runs end alike, and in states related by `R`. -/
def Res.Matches (R : σ → σ → Prop) : EStateM.Result ε σ α → EStateM.Result ε σ α → Prop
  | .ok a s, .ok b t => a = b ∧ R s t
  | .error e s, .error f t => e = f ∧ R s t
  | _, _ => False

/-- `m` and `n` started in states related by `R` end alike, and in related states. -/
def Parallel (R : σ → σ → Prop) (m n : EStateM ε σ α) : Prop :=
  ∀ s t, R s t → Res.Matches R (m.run s) (n.run t)

namespace Parallel
variable {R : σ → σ → Prop}

lemma pure (a : α) : Parallel R (pure a : EStateM ε σ α) (pure a) := fun _ _ h => ⟨rfl,h⟩

lemma throw (e : ε) : Parallel R (throw e : EStateM ε σ α) (throw e) := fun _ _ h => ⟨rfl,h⟩

lemma modify {f : σ → σ} (h : ∀ s t, R s t → R (f s) (f t)) :
    Parallel R (modify f : EStateM ε σ PUnit) (modify f) := fun s t hs => ⟨rfl,h s t hs⟩

lemma bind {m n : EStateM ε σ α} {f g : α → EStateM ε σ β} (hm : Parallel R m n)
    (hf : ∀ a, Parallel R (f a) (g a)) : Parallel R (m >>= f) (n >>= g) := by
  intro s t hs
  have h := hm s t hs
  rw [EStateM.run_bind,EStateM.run_bind]
  cases he : m.run s <;> cases hn : n.run t <;> rw [he,hn] at h
  · obtain ⟨rfl,hr⟩ := h
    exact hf _ _ _ hr
  · exact h.elim
  · exact h.elim
  · exact h

lemma ite {b : Prop} [Decidable b] {m n m' n' : EStateM ε σ α} (hm : Parallel R m n)
    (hn : Parallel R m' n') : Parallel R (if b then m else m') (if b then n else n') := by
  split
  · exact hm
  · exact hn

end Parallel

end ZenMedia.Reentrant
