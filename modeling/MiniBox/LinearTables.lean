import Mathlib.Tactic
import Mathlib.Data.List.Basic
import Mathlib.Data.List.Perm.Basic

namespace MiniBox.LinearTables

section Search

variable {α β κ : Type} [DecidableEq κ] (key : α → κ) (k : κ)

def lookup (l : List α) : Option α := l.find? fun x => decide (key x = k)

def adjust (f : α → α) : List α → List α
  | [] => []
  | x :: l => if key x = k then f x :: l else x :: adjust f l

def discard (l : List α) : List α := l.eraseP fun x => decide (key x = k)

variable {key k}

@[simp] theorem lookup_nil : lookup key k [] = none := rfl

theorem lookup_cons (x : α) (l : List α) :
    lookup key k (x :: l) = if key x = k then some x else lookup key k l := by
  by_cases h : key x = k <;> simp [lookup, h]

theorem lookup_append (l l' : List α) :
    lookup key k (l ++ l') = (lookup key k l).or (lookup key k l') := List.find?_append

theorem lookup_key {x : α} {l : List α} (h : lookup key k l = some x) : key x = k := by
  simpa using List.find?_some h

theorem lookup_mem {x : α} {l : List α} (h : lookup key k l = some x) : x ∈ l :=
  List.mem_of_find?_eq_some h

theorem lookup_eq_none {l : List α} : lookup key k l = none ↔ k ∉ l.map key := by
  simp only [lookup, List.find?_eq_none, decide_eq_true_eq, List.mem_map, not_exists, not_and]

theorem lookup_eq_getElem? (l : List α) : lookup key k l = l[(l.map key).idxOf k]? := by
  induction l with
  | nil => rfl
  | cons x l ih =>
    rw [lookup_cons, ih, List.map_cons, List.idxOf_cons]
    by_cases h : key x = k
    · simp [h]
    · simp [h, beq_eq_false_iff_ne.mpr h]

theorem isSome_lookup {l : List α} : (lookup key k l).isSome ↔ k ∈ l.map key := by
  rw [← not_iff_not, Bool.not_eq_true, Option.isSome_eq_false_iff, Option.isNone_iff_eq_none, lookup_eq_none]

theorem lookup_of_mem {x : α} {l : List α} (hn : (l.map key).Nodup) (h : x ∈ l) :
    lookup key (key x) l = some x := by
  induction l with
  | nil => simp at h
  | cons y l ih =>
    rw [List.map_cons, List.nodup_cons] at hn
    rw [lookup_cons]
    rcases List.mem_cons.mp h with rfl | h
    · rw [if_pos rfl]
    · have hne : key y ≠ key x := by
        intro he
        apply hn.1
        rw [he]
        exact List.mem_map_of_mem h
      rw [if_neg hne, ih hn.2 h]

section Adjust

variable {f : α → α}

theorem map_adjust {g : α → β} (hf : ∀ x, g (f x) = g x) (l : List α) :
    (adjust key k f l).map g = l.map g := by
  induction l with
  | nil => rfl
  | cons x l ih =>
    by_cases h : key x = k <;> simp [adjust, h, hf, ih]

@[simp] theorem length_adjust (l : List α) : (adjust key k f l).length = l.length := by
  induction l with
  | nil => rfl
  | cons x l ih =>
    by_cases h : key x = k <;> simp [adjust, h, ih]

theorem adjust_append {l : List α} (h : lookup key k l = none) (l' : List α) :
    adjust key k f (l ++ l') = l ++ adjust key k f l' := by
  induction l with
  | nil => rfl
  | cons x l ih =>
    rw [lookup_cons] at h
    by_cases hx : key x = k
    · simp [hx] at h
    · rw [if_neg hx] at h
      rw [List.cons_append, adjust, if_neg hx, ih h, List.cons_append]

theorem lookup_adjust (hf : ∀ x, key (f x) = key x) (j : κ) (l : List α) :
    lookup key j (adjust key k f l) = if j = k then (lookup key k l).map f else lookup key j l := by
  induction l with
  | nil => simp [adjust]
  | cons x l ih =>
    by_cases hx : key x = k
    · subst hx
      simp only [adjust, ↓reduceIte, lookup_cons, hf]
      by_cases hj : j = key x
      · simp [hj]
      · simp [hj, Ne.symm hj]
    · simp only [adjust, hx, ↓reduceIte, lookup_cons, ih]
      by_cases hj : j = k
      · subst hj
        simp [hx]
      · simp [hj]

theorem adjust_adjust {g : α → α} (hg : ∀ x, key (g x) = key x) (l : List α) :
    adjust key k f (adjust key k g l) = adjust key k (f ∘ g) l := by
  induction l with
  | nil => rfl
  | cons x l ih =>
    by_cases hx : key x = k
    · simp [adjust, hx, hg]
    · simp [adjust, hx, ih]

theorem adjust_comm {g : α → α} {j : κ} (hf : ∀ x, key (f x) = key x) (hg : ∀ x, key (g x) = key x)
    (hfg : ∀ x, f (g x) = g (f x)) (l : List α) :
    adjust key k f (adjust key j g l) = adjust key j g (adjust key k f l) := by
  induction l with
  | nil => rfl
  | cons x l ih =>
    by_cases hk : key x = k
    · subst hk
      by_cases hj : key x = j
      · simp [adjust, hj, hf, hg, hfg]
      · simp [adjust, hj, hf]
    · by_cases hj : key x = j
      · subst hj
        simp [adjust, hk, hg]
      · simp [adjust, hk, hj, ih]

theorem find?_adjust {p : α → Bool} {g : α → β} (hp : ∀ x, p (f x) = p x) (hg : ∀ x, g (f x) = g x) (l : List α) :
    ((adjust key k f l).find? p).map g = (l.find? p).map g := by
  induction l with
  | nil => rfl
  | cons x l ih =>
    by_cases hx : key x = k
    · cases hpx : p x <;> simp [adjust, hx, hp, hpx, hg]
    · cases hpx : p x <;> simp [adjust, hx, hpx, ih]

theorem adjust_eq_map {l : List α} (hn : (l.map key).Nodup) :
    adjust key k f l = l.map fun x => if key x = k then f x else x := by
  induction l with
  | nil => rfl
  | cons x l ih =>
    rw [List.map_cons, List.nodup_cons] at hn
    by_cases hx : key x = k
    · have hrest : (l.map fun y => if key y = k then f y else y) = l := by
        refine (List.map_congr_left ?_).trans (List.map_id l)
        intro y hy
        apply if_neg
        rintro rfl
        exact hn.1 (hx ▸ List.mem_map_of_mem hy)
      simp [adjust, hx, hrest]
    · simp [adjust, hx, ih hn.2]

theorem adjust_self {x : α} {l : List α} (h : lookup key k l = some x) (hf : f x = x) : adjust key k f l = l := by
  induction l with
  | nil => rfl
  | cons y l ih =>
    rw [lookup_cons] at h
    by_cases hy : key y = k
    · rw [if_pos hy] at h
      cases h
      simp [adjust, hy, hf]
    · rw [if_neg hy] at h
      simp [adjust, hy, ih h]

theorem adjust_other {ι : Type} [DecidableEq ι] {key' : α → ι} {x : α} {l : List α} (hn : (l.map key').Nodup)
    (h : lookup key k l = some x) : adjust key k f l = adjust key' (key' x) f l := by
  induction l with
  | nil => rfl
  | cons y l ih =>
    rw [List.map_cons, List.nodup_cons] at hn
    rw [lookup_cons] at h
    by_cases hy : key y = k
    · rw [if_pos hy] at h
      cases h
      simp [adjust, hy]
    · rw [if_neg hy] at h
      have hne : key' y ≠ key' x := by
        intro he
        exact hn.1 (he ▸ List.mem_map_of_mem (lookup_mem h))
      simp [adjust, hy, hne, ih hn.2 h]

theorem mem_adjust_iff {x y : α} {l : List α} (hn : (l.map key).Nodup) (hx : x ∈ l) (hk : key x = k) :
    y ∈ adjust key k f l ↔ y = f x ∨ y ∈ l ∧ key y ≠ k := by
  rw [adjust_eq_map hn, List.mem_map]
  constructor
  · rintro ⟨z, hz, rfl⟩
    by_cases hzk : key z = k
    · obtain rfl : z = x := List.inj_on_of_nodup_map hn hz hx (hzk.trans hk.symm)
      simp [hzk]
    · simp [hzk, hz]
  · rintro (rfl | ⟨hy, hne⟩)
    · exact ⟨x, hx, by simp [hk]⟩
    · exact ⟨y, hy, by simp [hne]⟩

theorem adjust_congr {g : α → α} {x : α} {l : List α} (h : lookup key k l = some x) (hfg : f x = g x) :
    adjust key k f l = adjust key k g l := by
  induction l with
  | nil => rfl
  | cons y l ih =>
    rw [lookup_cons] at h
    unfold adjust
    split_ifs at h ⊢ with hy
    · cases h
      rw [hfg]
    · rw [ih h]

theorem adjust_id (l : List α) : adjust key k (fun x => x) l = l := by
  induction l with
  | nil => rfl
  | cons y l ih =>
    unfold adjust
    split_ifs
    · rfl
    · rw [ih]

theorem mem_adjust_or {y : α} {l : List α} (h : y ∈ l) : y ∈ adjust key k f l ∨ f y ∈ adjust key k f l := by
  induction l with
  | nil => cases h
  | cons x l ih =>
    unfold adjust
    split_ifs
    · rcases List.mem_cons.mp h with rfl | h
      · exact Or.inr List.mem_cons_self
      · exact Or.inl (List.mem_cons_of_mem _ h)
    · rcases List.mem_cons.mp h with rfl | h
      · exact Or.inl List.mem_cons_self
      · rcases ih h with h | h
        · exact Or.inl (List.mem_cons_of_mem _ h)
        · exact Or.inr (List.mem_cons_of_mem _ h)

theorem mem_adjust_self {x : α} {l : List α} (h : lookup key k l = some x) : f x ∈ adjust key k f l := by
  induction l with
  | nil => simp at h
  | cons y l ih =>
    rw [lookup_cons] at h
    by_cases hy : key y = k
    · rw [if_pos hy] at h
      cases h
      simp [adjust, hy]
    · rw [if_neg hy] at h
      simp [adjust, hy, ih h]

theorem filter_adjust {p : α → Bool} {x : α} {l : List α} (h : lookup key k l = some x) (hx : p x = false)
    (hfx : p (f x) = false) : (adjust key k f l).filter p = l.filter p := by
  induction l with
  | nil => rfl
  | cons y l ih =>
    rw [lookup_cons] at h
    by_cases hy : key y = k
    · rw [if_pos hy] at h
      cases h
      simp [adjust, hy, hx, hfx]
    · rw [if_neg hy] at h
      simp [adjust, hy, List.filter_cons, ih h]

theorem mem_adjust {y : α} {l : List α} (h : y ∈ adjust key k f l) :
    y ∈ l ∨ ∃ x, lookup key k l = some x ∧ y = f x := by
  induction l with
  | nil => simp [adjust] at h
  | cons x l ih =>
    rw [lookup_cons]
    by_cases hx : key x = k
    · rw [adjust, if_pos hx, List.mem_cons] at h
      rw [if_pos hx]
      rcases h with rfl | h
      · exact .inr ⟨x, rfl, rfl⟩
      · exact .inl (List.mem_cons_of_mem _ h)
    · rw [adjust, if_neg hx, List.mem_cons] at h
      rw [if_neg hx]
      rcases h with rfl | h
      · exact .inl List.mem_cons_self
      · exact (ih h).imp_left (List.mem_cons_of_mem _)

theorem perm_adjust {x : α} {l : List α} (h : lookup key k l = some x) (g : α → List β) :
    (g x ++ (adjust key k f l).flatMap g).Perm (g (f x) ++ l.flatMap g) := by
  induction l with
  | nil => simp at h
  | cons y l ih =>
    rw [lookup_cons] at h
    by_cases hy : key y = k
    · rw [if_pos hy] at h
      cases h
      simp only [adjust, hy, ↓reduceIte, List.flatMap_cons]
      exact List.perm_append_comm_assoc _ _ _
    · rw [if_neg hy] at h
      simp only [adjust, hy, ↓reduceIte, List.flatMap_cons]
      calc
        List.Perm (g x ++ (g y ++ (adjust key k f l).flatMap g))
            (g y ++ (g x ++ (adjust key k f l).flatMap g)) := List.perm_append_comm_assoc _ _ _
        List.Perm _ (g y ++ (g (f x) ++ l.flatMap g)) := (ih h).append_left _
        List.Perm _ (g (f x) ++ (g y ++ l.flatMap g)) := List.perm_append_comm_assoc _ _ _

end Adjust

section Discard

variable {l : List α}

theorem discard_sublist : (discard key k l).Sublist l := List.eraseP_sublist

theorem discard_adjust {f : α → α} (hf : ∀ x, key (f x) = key x) :
    discard key k (adjust key k f l) = discard key k l := by
  induction l with
  | nil => rfl
  | cons x l ih =>
    by_cases hx : key x = k
    · simp [discard, adjust, hx, hf]
    · simpa [discard, adjust, hx] using ih

theorem discard_adjust_of_ne {f : α → α} {j : κ} (hf : ∀ x, key (f x) = key x) (hjk : j ≠ k) :
    discard key j (adjust key k f l) = adjust key k f (discard key j l) := by
  induction l with
  | nil => rfl
  | cons x l ih =>
    by_cases hx : key x = k
    · simp [discard, adjust, hx, hf, hjk.symm]
    · by_cases hj : key x = j
      · simp [discard, adjust, hj, hjk]
      · simpa [discard, adjust, hx, hj] using ih

theorem filter_discard {p : α → Bool} (hp : ∀ x, key x = k → p x = false) :
    (discard key k l).filter p = l.filter p := by
  induction l with
  | nil => rfl
  | cons x l ih =>
    by_cases hx : key x = k
    · simp [discard, hx, hp x hx]
    · have hd : discard key k (x :: l) = x :: discard key k l := by simp [discard, hx]
      rw [hd, List.filter_cons, List.filter_cons, ih]

theorem mem_discard_of_ne {j : κ} (hjk : j ≠ k) (h : j ∈ l.map key) : j ∈ (discard key k l).map key := by
  obtain ⟨x, hx, rfl⟩ := List.mem_map.mp h
  exact List.mem_map_of_mem ((List.mem_eraseP_of_neg (by simpa using hjk)).mpr hx)

theorem lookup_discard (hn : (l.map key).Nodup) (j : κ) :
    lookup key j (discard key k l) = if j = k then none else lookup key j l := by
  induction l with
  | nil => simp [discard]
  | cons x l ih =>
    rw [List.map_cons, List.nodup_cons] at hn
    by_cases hx : key x = k
    · subst hx
      have hd : discard key (key x) (x :: l) = l := by simp [discard]
      rw [hd, lookup_cons]
      by_cases hj : j = key x
      · rw [if_pos hj, hj]
        exact lookup_eq_none.mpr hn.1
      · rw [if_neg hj, if_neg (Ne.symm hj)]
    · have hd : discard key k (x :: l) = x :: discard key k l := by simp [discard, hx]
      rw [hd, lookup_cons, lookup_cons, ih hn.2]
      by_cases hj : j = k
      · subst hj
        simp [hx]
      · simp [hj]

theorem perm_discard {x : α} (h : lookup key k l = some x) (g : α → List β) :
    (g x ++ (discard key k l).flatMap g).Perm (l.flatMap g) := by
  induction l with
  | nil => simp at h
  | cons y l ih =>
    rw [lookup_cons] at h
    by_cases hy : key y = k
    · rw [if_pos hy] at h
      cases h
      simp [discard, hy]
    · rw [if_neg hy] at h
      have hd : discard key k (y :: l) = y :: discard key k l := by simp [discard, hy]
      rw [hd, List.flatMap_cons, List.flatMap_cons]
      exact (List.perm_append_comm_assoc _ _ _).trans ((ih h).append_left _)

end Discard

section Related

variable {ι : Type} [DecidableEq ι] {key' : β → ι} {k' : ι} {R : α → β → Prop} {l : List α} {l' : List β}

theorem lookup_related (h : List.Forall₂ R l l') (hkey : ∀ a b, R a b → (key a = k ↔ key' b = k')) :
    lookup key k l = none ∧ lookup key' k' l' = none ∨
      ∃ a b, lookup key k l = some a ∧ lookup key' k' l' = some b ∧ R a b := by
  induction h with
  | nil => exact .inl ⟨rfl, rfl⟩
  | @cons a b l l' hab _ ih =>
    rw [lookup_cons, lookup_cons]
    by_cases ha : key a = k
    · rw [if_pos ha, if_pos ((hkey a b hab).mp ha)]
      exact .inr ⟨a, b, rfl, rfl, hab⟩
    · rw [if_neg ha, if_neg (mt (hkey a b hab).mpr ha)]
      exact ih

theorem adjust_related {f : α → α} {g : β → β} (h : List.Forall₂ R l l')
    (hkey : ∀ a b, R a b → (key a = k ↔ key' b = k')) {a : α} {b : β} (ha : lookup key k l = some a)
    (hb : lookup key' k' l' = some b) (hfg : R (f a) (g b)) :
    List.Forall₂ R (adjust key k f l) (adjust key' k' g l') := by
  induction h with
  | nil => exact .nil
  | @cons x y l l' hxy hrest ih =>
    rw [lookup_cons] at ha hb
    by_cases hx : key x = k
    · have hy := (hkey x y hxy).mp hx
      rw [if_pos hx] at ha
      rw [if_pos hy] at hb
      cases ha
      cases hb
      rw [adjust, adjust, if_pos hx, if_pos hy]
      exact .cons hfg hrest
    · have hy := mt (hkey x y hxy).mpr hx
      rw [if_neg hx] at ha
      rw [if_neg hy] at hb
      rw [adjust, adjust, if_neg hx, if_neg hy]
      exact .cons hxy (ih ha hb)

theorem adjust_related_self {R : α → α → Prop} {f : α → α} {x : α} {l : List α} (hrefl : ∀ a, R a a)
    (hx : lookup key k l = some x) (hf : R x (f x)) : List.Forall₂ R l (adjust key k f l) := by
  induction l with
  | nil => exact .nil
  | cons y l ih =>
    rw [lookup_cons] at hx
    by_cases hy : key y = k
    · rw [if_pos hy] at hx
      cases hx
      rw [adjust, if_pos hy]
      exact .cons hf (List.forall₂_same.mpr fun a _ => hrefl a)
    · rw [if_neg hy] at hx
      rw [adjust, if_neg hy]
      exact .cons (hrefl y) (ih hx)

theorem discard_related (h : List.Forall₂ R l l') (hkey : ∀ a b, R a b → (key a = k ↔ key' b = k')) :
    List.Forall₂ R (discard key k l) (discard key' k' l') := by
  induction h with
  | nil => exact .nil
  | @cons x y l l' hxy hrest ih =>
    by_cases hx : key x = k
    · have hy := (hkey x y hxy).mp hx
      simpa [discard, hx, hy] using hrest
    · have hy := mt (hkey x y hxy).mpr hx
      simpa [discard, hx, hy] using ⟨hxy, ih⟩

theorem map_related {γ : Type} {g : α → γ} {g' : β → γ} (h : List.Forall₂ R l l') (hg : ∀ a b, R a b → g a = g' b) :
    l.map g = l'.map g' := by
  induction h with
  | nil => rfl
  | cons hab _ ih => rw [List.map_cons, List.map_cons, hg _ _ hab, ih]

theorem mem_related (h : List.Forall₂ R l l') {a : α} (ha : a ∈ l) : ∃ b ∈ l', R a b := by
  induction h with
  | nil => simp at ha
  | @cons x y l l' hxy _ ih =>
    rcases List.mem_cons.mp ha with rfl | ha
    · exact ⟨y, List.mem_cons_self, hxy⟩
    · obtain ⟨b, hb, hab⟩ := ih ha
      exact ⟨b, List.mem_cons_of_mem _ hb, hab⟩

end Related

end Search

section Place

variable {α κ : Type} [LT κ] [DecidableLT κ] {key : α → κ}

def place (key : α → κ) (x : α) : List α → List α
  | [] => [x]
  | y :: l => if (y :: l).all fun z => decide (key x < key z) then x :: y :: l else y :: place key x l

variable {x : α} {l : List α}

theorem place_last (h : ∀ y ∈ l, ¬ key x < key y) : place key x l = l ++ [x] := by
  induction l with
  | nil => rfl
  | cons y l ih =>
    have hy : ¬ ((y :: l).all fun z => decide (key x < key z)) = true := by
      simp [h y List.mem_cons_self]
    rw [place, if_neg hy, ih fun z hz => h z (List.mem_cons_of_mem _ hz), List.cons_append]

theorem perm_place : (place key x l).Perm (x :: l) := by
  induction l with
  | nil => exact .refl _
  | cons y l ih =>
    unfold place
    split_ifs
    · exact .refl _
    · exact (ih.cons y).trans (List.Perm.swap x y l)

theorem ordered_place [LE κ] [Std.IsLinearOrder κ] [Std.LawfulOrderLT κ] (h : (l.map key).Pairwise (· ≤ ·)) :
    ((place key x l).map key).Pairwise (· ≤ ·) := by
  induction l with
  | nil => simp [place]
  | cons y l ih =>
    rw [List.map_cons, List.pairwise_cons] at h
    unfold place
    split_ifs with hall
    · rw [List.map_cons, List.pairwise_cons]
      refine ⟨?_, by simpa using h⟩
      intro a ha
      obtain ⟨z, hz, rfl⟩ := List.mem_map.mp ha
      simp only [List.all_eq_true, decide_eq_true_eq] at hall
      exact Std.le_of_lt (hall z hz)
    · rw [List.map_cons, List.pairwise_cons]
      refine ⟨?_, ih h.2⟩
      intro a ha
      obtain ⟨z, hz, rfl⟩ := List.mem_map.mp ha
      rcases List.mem_cons.mp (perm_place.mem_iff.mp hz) with rfl | hz
      · -- some entry from `y` on is not greater than the new one, and `y` is not greater than it
        simp only [List.all_eq_true, decide_eq_true_eq, not_forall] at hall
        obtain ⟨w, hw, hlt⟩ := hall
        rw [Std.not_lt] at hlt
        rcases List.mem_cons.mp hw with rfl | hw
        · exact hlt
        · exact Std.le_trans (h.1 _ (List.mem_map_of_mem hw)) hlt
      · exact h.1 _ (List.mem_map_of_mem hz)

theorem place_adjust [DecidableEq κ] [LE κ] [Std.IsLinearOrder κ] [Std.LawfulOrderLT κ] {k : κ} {f : α → α}
    (hf : ∀ y, key (f y) = key y) (hk : k ∈ l.map key) :
    place key x (adjust key k f l) = adjust key k f (place key x l) := by
  induction l with
  | nil => simp at hk
  | cons y l ih =>
    have hall : ((adjust key k f (y :: l)).all fun z => decide (key x < key z)) =
        ((y :: l).all fun z => decide (key x < key z)) := by
      have hm : (adjust key k f (y :: l)).map key = (y :: l).map key := map_adjust hf (y :: l)
      have hcomp : (fun z => decide (key x < key z)) = (fun a => decide (key x < a)) ∘ key := rfl
      rw [hcomp, ← List.all_map, ← List.all_map, hm]
    by_cases hy : key y = k
    · subst hy
      have hadj : adjust key (key y) f (y :: l) = f y :: l := by simp [adjust]
      rw [hadj] at hall ⊢
      unfold place
      rw [hall]
      split_ifs with ha
      · simp only [List.all_eq_true, decide_eq_true_eq] at ha
        have hne : key x ≠ key y := by
          intro he
          have := ha y List.mem_cons_self
          rw [he] at this
          exact Std.lt_irrefl this
        simp [adjust, hne]
      · simp [adjust]
    · have hadj : adjust key k f (y :: l) = y :: adjust key k f l := by simp [adjust, hy]
      have hmem : k ∈ l.map key := by
        rcases List.mem_cons.mp hk with he | hm
        · exact absurd he.symm hy
        · exact hm
      rw [hadj] at hall ⊢
      unfold place
      rw [hall]
      split_ifs with ha
      · simp only [List.all_eq_true, decide_eq_true_eq] at ha
        have hne : key x ≠ k := by
          obtain ⟨z, hz, rfl⟩ := List.mem_map.mp hmem
          intro he
          have := ha z (List.mem_cons_of_mem _ hz)
          rw [he] at this
          exact Std.lt_irrefl this
        simp [adjust, hne, hy]
      · simp [adjust, hy, ih hmem]

end Place
section Cyclic

variable {α : Type} {lt : α → α → Prop} [DecidableRel lt] {l : List α} {a : α} {i : ℕ}

variable (lt) in
def following (a : α) (l : List α) : Option α := (l.find? fun x => decide (lt a x)).or l.head?

theorem find?_behind (hasymm : ∀ a b, lt a b → ¬ lt b a) (h : l.Pairwise lt) (ha : l[i]? = some a) :
    l.find? (fun x => decide (lt a x)) = l[i + 1]? := by
  induction l generalizing i with
  | nil => simp at ha
  | cons x l ih =>
    obtain ⟨hx, hl⟩ := List.pairwise_cons.mp h
    cases i with
    | zero =>
      obtain rfl : x = a := by simpa using ha
      rw [List.find?_cons_of_neg (by simpa using fun h => hasymm x x h h)]
      cases l with
      | nil => rfl
      | cons y l =>
        rw [List.find?_cons_of_pos (by simpa using hx y List.mem_cons_self)]
        rfl
    | succ i =>
      rw [List.getElem?_cons_succ] at ha
      have hne : ¬ lt a x := hasymm x a (hx a (List.mem_of_getElem? ha))
      rw [List.find?_cons_of_neg (by simpa using hne), ih hl ha, List.getElem?_cons_succ]

theorem following_getElem? (hasymm : ∀ a b, lt a b → ¬ lt b a) (h : l.Pairwise lt) (ha : l[i]? = some a) :
    following lt a l = l[(i + 1) % l.length]? := by
  obtain ⟨hi, -⟩ := List.getElem?_eq_some_iff.mp ha
  rw [following, find?_behind hasymm h ha]
  by_cases hlast : i + 1 < l.length
  · rw [Nat.mod_eq_of_lt hlast, List.getElem?_eq_getElem hlast, Option.some_or]
  · have hend : i + 1 = l.length := by omega
    rw [hend, Nat.mod_self, List.getElem?_eq_none (le_refl _), Option.none_or, List.head?_eq_getElem?]

end Cyclic

section Holes

variable {α : Type} [DecidableEq α]

def fillHole (x : α) : List α → List α
  | [] => []
  | y :: l => if y = x then l.getLast?.toList ++ l.dropLast else y :: fillHole x l

theorem fillHole_perm (x : α) (l : List α) : (fillHole x l).Perm (l.erase x) := by
  induction l with
  | nil => exact List.Perm.nil
  | cons y l ih =>
    unfold fillHole
    by_cases hy : y = x
    · subst hy
      rw [if_pos rfl, List.erase_cons_head]
      rcases List.eq_nil_or_concat l with rfl | ⟨as, z, rfl⟩
      · exact List.Perm.nil
      · simpa using (List.perm_append_singleton z as).symm
    · rw [if_neg hy, List.erase_cons_tail (by simpa using hy)]
      exact ih.cons y

end Holes

end MiniBox.LinearTables
