import Mathlib

/-! Laws about traces that are cut into sessions, each law saying what must
stand before the elements of one kind. Everything is proved by appending one
element at a time, the way a run produces its trace. -/
namespace ZenMedia.TraceLaws
variable {α : Type*}

/-- The part of a trace after its last cut. -/
def session (cut : α → Bool) (xs : List α) : List α := xs.rtakeWhile (fun x => !cut x)

@[simp] lemma session_nil (cut : α → Bool) : session cut ([] : List α) = [] := List.rtakeWhile_nil _

@[simp] lemma session_concat (cut : α → Bool) (xs : List α) (x : α) :
    session cut (xs ++ [x]) = if cut x then [] else session cut xs ++ [x] := by
  unfold session
  rw [List.rtakeWhile_concat]
  cases cut x <;> simp

lemma session_append {cut : α → Bool} (xs : List α) {ys : List α} (h : ∀ y ∈ ys, cut y = false) :
    session cut (xs ++ ys) = session cut xs ++ ys := by
  induction ys using List.reverseRecOn with
  | nil => simp
  | append_singleton ys y ih =>
    have hy : cut y = false := h y (by simp)
    rw [← List.append_assoc,session_concat,ih (fun z hz => h z (by simp [hz]))]
    simp [hy]

/-- The trace before the current session ends in a cut, unless it is empty. -/
lemma session_split (cut : α → Bool) (xs : List α) :
    ∃ before, xs = before ++ session cut xs ∧ ∀ x ∈ session cut xs, cut x = false := by
  refine ⟨xs.rdropWhile (fun x => !cut x),List.rdropWhile_append_rtakeWhile.symm,?_⟩
  intro x hx
  simpa using List.mem_rtakeWhile_imp hx

/-- `P` holds of every element and the trace before it. -/
def Throughout (P : List α → α → Prop) (xs : List α) : Prop :=
  ∀ pre x post, xs = pre ++ x :: post → P pre x

section throughout
variable {P : List α → α → Prop}

@[simp] lemma throughout_nil : Throughout P [] := by
  intro pre x post h
  simp at h

@[simp] lemma throughout_cons (x : α) (xs : List α) :
    Throughout P (x :: xs) ↔ P [] x ∧ Throughout (fun pre => P (x :: pre)) xs := by
  constructor
  · intro h
    exact ⟨h [] x xs rfl,fun pre y post he => h (x :: pre) y post (by simp [he])⟩
  · rintro ⟨hx,h⟩ pre y post he
    cases pre with
    | nil =>
      obtain ⟨he,-⟩ := List.cons_eq_cons.mp he
      exact he ▸ hx
    | cons z pre =>
      obtain ⟨rfl,he'⟩ := List.cons_eq_cons.mp he
      exact h pre y post he'

lemma throughout_append (xs ys : List α) :
    Throughout P (xs ++ ys) ↔ Throughout P xs ∧ Throughout (fun pre => P (xs ++ pre)) ys := by
  induction xs generalizing P with
  | nil => simp
  | cons x xs ih => simp [ih,and_assoc]

lemma throughout_concat (xs : List α) (x : α) :
    Throughout P (xs ++ [x]) ↔ Throughout P xs ∧ P xs x := by
  simp [throughout_append]

lemma Throughout.prefix {xs ys : List α} (h : Throughout P (xs ++ ys)) : Throughout P xs :=
  ((throughout_append xs ys).mp h).1

end throughout

/-- Where each element that breaks `P` shows at once, what shows says that none does. -/
theorem visible_iff (P : List α → α → Prop) (sound visible : List α → Prop) (xs : List α)
    (hnil : sound []) (hvisible : ∀ pre, sound pre → visible pre)
    (hkeep : ∀ pre, ∀ x ∈ xs, sound pre → P pre x → sound (pre ++ [x]))
    (hbreak : ∀ pre, ∀ x ∈ xs, sound pre → ¬P pre x → ¬visible (pre ++ [x])) :
    ((∀ pre, pre <+: xs → visible pre) ↔ Throughout P xs) ∧ (Throughout P xs → sound xs) := by
  induction xs using List.reverseRecOn with
  | nil =>
    refine ⟨⟨fun _ => throughout_nil,fun _ pre hpre => ?_⟩,fun _ => hnil⟩
    rw [List.prefix_nil.mp hpre]
    exact hvisible [] hnil
  | append_singleton xs x ih =>
    have hmem : x ∈ xs ++ [x] := by simp
    obtain ⟨hiff,hsound⟩ := ih (fun pre y hy => hkeep pre y (List.mem_append_left _ hy))
      fun pre y hy => hbreak pre y (List.mem_append_left _ hy)
    have hlast : Throughout P xs → P xs x → sound (xs ++ [x]) := by
      intro h hx
      exact hkeep xs x hmem (hsound h) hx
    rw [throughout_concat]
    refine ⟨⟨fun h => ?_,fun h pre hpre => ?_⟩,fun h => hlast h.1 h.2⟩
    · have hbefore := hiff.mp fun pre hpre => h pre (hpre.trans (List.prefix_append _ _))
      refine ⟨hbefore,?_⟩
      by_contra hx
      exact hbreak xs x hmem (hsound hbefore) hx (h _ (List.prefix_refl _))
    · rcases List.prefix_concat_iff.mp hpre with rfl | hpre
      · exact hvisible _ (hlast h.1 h.2)
      · exact hiff.mpr h.1 pre hpre

/-- Every element of kind `p` finds `Q` true of the trace before it. -/
def Guarded (p : α → Prop) (Q : List α → Prop) (xs : List α) : Prop :=
  Throughout (fun pre x => p x → Q pre) xs

variable {p : α → Prop} {Q : List α → Prop}

@[simp] lemma guarded_nil : Guarded p Q [] := throughout_nil

@[simp] lemma guarded_cons (x : α) (xs : List α) :
    Guarded p Q (x :: xs) ↔ (p x → Q []) ∧ Guarded p (fun pre => Q (x :: pre)) xs :=
  throughout_cons x xs

lemma guarded_of_none {xs : List α} (h : ∀ x ∈ xs, ¬p x) : Guarded p Q xs := by
  intro pre x post he hx
  exact absurd hx (h x (by simp [he]))

lemma guarded_append (xs ys : List α) :
    Guarded p Q (xs ++ ys) ↔ Guarded p Q xs ∧ Guarded p (fun pre => Q (xs ++ pre)) ys :=
  throughout_append xs ys

lemma guarded_concat (xs : List α) (x : α) :
    Guarded p Q (xs ++ [x]) ↔ Guarded p Q xs ∧ (p x → Q xs) :=
  throughout_concat xs x

/-- At most one element of kind `p` in every stretch without a cut. -/
def OncePerSession (cut : α → Bool) (p : α → Prop) [DecidablePred p] (xs : List α) : Prop :=
  ∀ pre mid post, xs = pre ++ mid ++ post → (∀ x ∈ mid, cut x = false) →
    (mid.filter (fun x => decide (p x))).length ≤ 1

/-- Equivalently, no element of kind `p` finds another one in its session. -/
theorem oncePerSession_iff (cut : α → Bool) (p : α → Prop) [DecidablePred p]
    (hp : ∀ x, p x → cut x = false) (xs : List α) :
    OncePerSession cut p xs ↔ Guarded p (fun pre => ∀ x ∈ session cut pre, ¬p x) xs := by
  constructor
  · intro h pre x post he hx y hy hpy
    obtain ⟨before,hpre,hcut⟩ := session_split cut pre
    have hlen := h before (session cut pre ++ [x]) post (by
      conv_lhs => rw [he,hpre]
      simp) (by
      intro z hz
      rcases List.mem_append.mp hz with hz | hz
      · exact hcut z hz
      · rw [List.mem_singleton.mp hz]; exact hp x hx)
    have hpos : 0 < ((session cut pre).filter (fun x => decide (p x))).length :=
      List.length_pos_of_mem (List.mem_filter.mpr ⟨hy,by simpa using hpy⟩)
    have hone : [x].filter (fun x => decide (p x)) = [x] := by simp [hx]
    rw [List.filter_append,List.length_append,hone,List.length_singleton] at hlen
    omega
  · intro h pre mid post he hcut
    subst he
    have hg : Guarded p (fun pre => ∀ x ∈ session cut pre, ¬p x) (pre ++ mid) := h.prefix
    clear h
    induction mid using List.reverseRecOn with
    | nil => simp
    | append_singleton mid x ih =>
      rw [← List.append_assoc,guarded_concat] at hg
      have hmid : ∀ y ∈ mid, cut y = false := fun y hy => hcut y (by simp [hy])
      by_cases hx : p x
      · have hnone := hg.2 hx
        rw [session_append pre hmid] at hnone
        have : mid.filter (fun x => decide (p x)) = [] := by
          rw [List.filter_eq_nil_iff]
          intro y hy
          simpa using hnone y (by simp [hy])
        simp [List.filter_append,this,hx]
      · simpa [List.filter_append,hx] using ih hmid hg.1

end ZenMedia.TraceLaws
