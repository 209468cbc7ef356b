import Mathlib

/-! Objects that are shared by counting references. An object is created with one
reference; further ones are retained and given back one by one. -/
namespace ZenMedia.ReferenceCount

variable {ι : Type} [DecidableEq ι]

/-- The references an object has, and how many it was ever given and has given back. -/
structure Ledger (ι : Type) where
  count : ι → ℕ
  acquired : ι → ℕ
  released : ι → ℕ

namespace Ledger
variable (l : Ledger ι)

def create (i : ι) : Ledger ι where
  count := Function.update l.count i 1
  acquired := Function.update l.acquired i (l.acquired i + 1)
  released := l.released

def retain (i : ι) : Ledger ι where
  count := Function.update l.count i (if 0 < l.count i then l.count i + 1 else l.count i)
  acquired := Function.update l.acquired i (l.acquired i + 1)
  released := l.released

/-- Giving back what is not there changes no count. -/
def release (i : ι) : Ledger ι where
  count := Function.update l.count i (l.count i - 1)
  acquired := l.acquired
  released := Function.update l.released i (l.released i + 1)

/-- The owner lets go of its object, if it has one. -/
def letGo : Option ι → Ledger ι
  | some i => l.release i
  | none => l

lemma create_count (i j : ι) : (l.create i).count j = if j = i then 1 else l.count j :=
  Function.update_apply ..

lemma retain_count (i j : ι) : (l.retain i).count j =
    if j = i then (if 0 < l.count i then l.count i + 1 else l.count i) else l.count j :=
  Function.update_apply ..

lemma release_count (i j : ι) :
    (l.release i).count j = if j = i then l.count i - 1 else l.count j :=
  Function.update_apply ..

/-- Every reference that was acquired is still there or was released, none twice. -/
def Balanced : Prop := ∀ i, l.count i + l.released i = l.acquired i

/-- The object of `owner` has one reference, every other none. -/
def OwnedBy (owner : Option ι) : Prop := ∀ i, l.count i = if owner = some i then 1 else 0

variable {l}

namespace Balanced

lemma create (h : l.Balanced) {i : ι} (hi : l.count i = 0) : (l.create i).Balanced := by
  intro j
  have hj := h j
  unfold Ledger.create
  by_cases hji : j = i
  · subst hji
    simp only [Function.update_self]
    omega
  · simpa only [Function.update_of_ne hji] using hj

lemma retain (h : l.Balanced) {i : ι} (hi : 0 < l.count i) : (l.retain i).Balanced := by
  intro j
  have hj := h j
  unfold Ledger.retain
  by_cases hji : j = i
  · subst hji
    simp only [Function.update_self,if_pos hi]
    omega
  · simpa only [Function.update_of_ne hji] using hj

lemma release (h : l.Balanced) {i : ι} (hi : 0 < l.count i) : (l.release i).Balanced := by
  intro j
  have hj := h j
  unfold Ledger.release
  by_cases hji : j = i
  · subst hji
    simp only [Function.update_self]
    omega
  · simpa only [Function.update_of_ne hji] using hj

lemma letGo (h : l.Balanced) {owner : Option ι} (hi : ∀ i, owner = some i → 0 < l.count i) :
    (l.letGo owner).Balanced := by
  cases owner with
  | none => exact h
  | some i => exact h.release (hi i rfl)

omit [DecidableEq ι] in
lemma released_le (h : l.Balanced) (i : ι) : l.released i ≤ l.acquired i := by
  have hi := h i
  omega

end Balanced

namespace OwnedBy
variable {owner : Option ι}

lemma count_owned {i : ι} (h : l.OwnedBy (some i)) : l.count i = 1 := by
  rw [h i,if_pos rfl]

lemma count_other {i : ι} (h : l.OwnedBy owner) (hi : owner ≠ some i) : l.count i = 0 := by
  rw [h i,if_neg hi]

lemma letGo (h : l.OwnedBy owner) : (l.letGo owner).OwnedBy none := by
  intro i
  rw [if_neg (by simp)]
  cases owner with
  | none => exact h.count_other (by simp)
  | some j =>
    rw [Ledger.letGo,release_count]
    by_cases hij : i = j
    · rw [if_pos hij,h.count_owned]
    · rw [if_neg hij]
      exact h.count_other fun hj => hij (Option.some.inj hj).symm

lemma count_le_one (h : l.OwnedBy owner) (i : ι) : l.count i ≤ 1 := by
  rw [h i]
  split
  · exact le_refl 1
  · exact Nat.zero_le 1

/-- A new object does not disturb the old owner, who still lets go of its own. -/
lemma create_letGo (h : l.OwnedBy owner) {i : ι} (hi : owner ≠ some i) :
    ((l.create i).letGo owner).OwnedBy (some i) := by
  intro j
  cases owner with
  | none =>
    rw [Ledger.letGo,create_count,h.count_other (by simp)]
    by_cases hji : j = i
    · rw [if_pos hji,if_pos (congrArg some hji.symm)]
    · rw [if_neg hji,if_neg fun hij => hji (Option.some.inj hij).symm]
  | some k =>
    have hki : k ≠ i := fun hki => hi (congrArg some hki)
    rw [Ledger.letGo,release_count,create_count,create_count,if_neg hki,h.count_owned]
    by_cases hji : j = i
    · subst hji
      rw [if_neg hki.symm,if_pos rfl,if_pos rfl]
    · rw [if_neg hji,if_neg fun hij => hji (Option.some.inj hij).symm]
      by_cases hjk : j = k
      · rw [if_pos hjk]
      · rw [if_neg hjk]
        exact h.count_other fun hkj => hjk (Option.some.inj hkj).symm

/-- A second reference on the way, given back by whoever created the object. -/
lemma retain_release {i : ι} (h : l.OwnedBy (some i)) : ((l.retain i).release i).OwnedBy (some i) := by
  intro j
  rw [release_count,retain_count,retain_count,if_pos rfl,h.count_owned]
  by_cases hji : j = i
  · rw [if_pos hji,if_pos (congrArg some hji.symm)]
    rfl
  · rw [if_neg hji,if_neg hji]
    exact h j

end OwnedBy

/-! ### One owner beside the holders of other references -/

/-- An object has the references that are `held` of it, and one more if it is the owner's. -/
def SharedBy (l : Ledger ι) (held : ι → ℕ) (owner : Option ι) : Prop :=
  ∀ i, l.count i = held i + if owner = some i then 1 else 0

namespace SharedBy
variable {held : ι → ℕ} {owner : Option ι}

lemma count_pos_iff (h : l.SharedBy held owner) (i : ι) :
    0 < l.count i ↔ 0 < held i ∨ owner = some i := by
  rw [h i]
  by_cases hi : owner = some i
  · simp [hi]
  · simp [hi]

/-- The counts tell who the owner is. -/
lemma iff_owner (h : l.SharedBy held owner) {other : Option ι} :
    l.SharedBy held other ↔ owner = other := by
  constructor
  · intro k
    have hsame : ∀ i, owner = some i ↔ other = some i := by
      intro i
      have hi := (h i).symm.trans (k i)
      by_cases ho : owner = some i <;> by_cases hk : other = some i <;> simp [ho,hk] at hi ⊢
    exact Option.ext hsame
  · rintro rfl
    exact h

lemma create (h : l.SharedBy held owner) {i : ι} (hi : held i = 0) (hne : owner ≠ some i) :
    (l.create i).SharedBy (Function.update held i (held i + 1)) owner := by
  intro j
  rw [create_count,Function.update_apply]
  by_cases hji : j = i
  · rw [if_pos hji,if_pos hji,hi,hji,if_neg hne]
  · rw [if_neg hji,if_neg hji]
    exact h j

/-- A reference is not retained of an object that has none. -/
lemma retain_iff (h : l.SharedBy held owner) (i : ι) :
    (l.retain i).SharedBy (Function.update held i (held i + 1)) owner ↔
      0 < held i ∨ owner = some i := by
  rw [← h.count_pos_iff i]
  constructor
  · intro k
    by_contra hzero
    have hi := k i
    rw [retain_count,if_pos rfl,if_neg hzero,Function.update_self] at hi
    omega
  · intro hpos j
    rw [retain_count,Function.update_apply]
    by_cases hji : j = i
    · have hi := h i
      rw [if_pos hji,if_pos hji,if_pos hpos,hji]
      omega
    · rw [if_neg hji,if_neg hji]
      exact h j

/-- Giving back what one does not hold takes it from the owner. -/
lemma release_iff (h : l.SharedBy held owner) (i : ι) :
    (l.release i).SharedBy (Function.update held i (held i - 1)) owner ↔
      (held i = 0 → owner ≠ some i) := by
  have hi := h i
  constructor
  · intro k hzero howner
    have hk := k i
    rw [release_count,if_pos rfl,Function.update_self,if_pos howner] at hk
    rw [if_pos howner] at hi
    omega
  · intro hsafe j
    rw [release_count,Function.update_apply]
    by_cases hji : j = i
    · rw [if_pos hji,if_pos hji,hji]
      by_cases howner : owner = some i
      · have hpos : held i ≠ 0 := fun hzero => hsafe hzero howner
        rw [if_pos howner] at hi ⊢
        omega
      · rw [if_neg howner] at hi ⊢
        omega
    · rw [if_neg hji,if_neg hji]
      exact h j

lemma letGo (h : l.SharedBy held owner) : (l.letGo owner).SharedBy held none := by
  intro j
  have hj := h j
  cases owner with
  | none => exact hj
  | some i =>
    have hnone : ¬(none : Option ι) = some j := by simp
    rw [if_neg hnone,Ledger.letGo,release_count]
    by_cases hji : j = i
    · rw [if_pos hji,← hji]
      rw [if_pos (congrArg some hji.symm)] at hj
      omega
    · rw [if_neg hji,hj,if_neg fun hij => hji (Option.some.inj hij).symm]

/-- An object that somebody holds is taken over. -/
lemma handOver (h : l.SharedBy held none) {i : ι} (hi : 0 < held i) :
    (l.retain i).SharedBy held (some i) := by
  intro j
  have hpos : 0 < l.count i := (h.count_pos_iff i).mpr (.inl hi)
  rw [retain_count]
  by_cases hji : j = i
  · rw [if_pos hji,if_pos hpos,hji,if_pos rfl,h i,if_neg (by simp)]
  · rw [if_neg hji,h j,if_neg (by simp),if_neg fun hij => hji (Option.some.inj hij).symm]

end SharedBy

end Ledger

end ZenMedia.ReferenceCount
