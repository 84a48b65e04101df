import Ginkgo.Lib.Words

/-!
# Vectors

Removing an element of a vector by moving the last one into its place, and what an update
in place or the removal of a key does.
-/

namespace Ginkgo.Lib

open List

variable {α : Type} {xs : List α} {i : Nat} {a : α} {p : α → Bool} {l : List α} {x : α}

theorem lt_length (h : xs[i]? = some x) : i < xs.length :=
  (List.getElem?_eq_some_iff.mp h).1

theorem exists_of_findIdx? (h : xs.findIdx? p = some i) : ∃ x, xs[i]? = some x ∧ p x = true := by
  obtain ⟨hlt, hp, -⟩ := findIdx?_eq_some_iff_getElem.mp h
  exact ⟨xs[i], getElem?_eq_getElem hlt, hp⟩

theorem forall_mem_set {P : α → Prop} (h : ∀ x ∈ xs, P x) (ha : P a) : ∀ x ∈ xs.set i a, P x := by
  intro x hx
  rcases mem_or_eq_of_mem_set hx with hx | rfl
  · exact h x hx
  · exact ha

/-- Remove position `index` and put the last element there. -/
def swapRemove (xs : List α) (index : Nat) : List α :=
  match xs.getLast? with
  | none => []
  | some last => (xs.set index last).dropLast

/-- Nothing but the removed element is lost. -/
theorem swapRemove_perm {index : Nat} (h : xs[index]? = some x) :
    xs.Perm (x :: swapRemove xs index) := by
  obtain ⟨hlt, hx⟩ := List.getElem?_eq_some_iff.mp h
  rcases eq_nil_or_concat' xs with rfl | ⟨ys, last, rfl⟩
  · simp at hlt
  have hlen : (ys ++ [last]).length = ys.length + 1 := by simp
  simp only [swapRemove, getLast?_append, getLast?_singleton, Option.some_or]
  by_cases hi : index < ys.length
  · rw [set_append_left _ _ hi, dropLast_concat]
    rw [getElem_append_left hi] at hx
    subst hx
    have herase := getElem_cons_eraseIdx_perm hi
    have hset := set_perm_cons_eraseIdx hi last
    calc ys ++ [last]
        _ |>.Perm (last :: ys) := perm_append_singleton last ys
        _ |>.Perm (last :: ys[index] :: ys.eraseIdx index) := herase.symm.cons last
        _ |>.Perm (ys[index] :: last :: ys.eraseIdx index) := List.Perm.swap ..
        _ |>.Perm (ys[index] :: ys.set index last) := hset.symm.cons _
  · have hlast : index = ys.length := by omega
    subst hlast
    simp only [getElem_append_right, Nat.le_refl] at hx
    subst hx
    simp only [set_append_right, Nat.le_refl, Nat.sub_self, set_cons_zero, dropLast_concat]
    exact perm_append_singleton last ys

theorem length_swapRemove {index : Nat} (h : xs[index]? = some x) :
    (swapRemove xs index).length + 1 = xs.length := by
  rw [(swapRemove_perm h).length_eq, length_cons]

theorem getElem?_swapRemove {index : Nat} (h : xs[index]? = some x) (k : Nat)
    (hk : k < (swapRemove xs index).length) :
    (swapRemove xs index)[k]? = if k = index then xs[xs.length - 1]? else xs[k]? := by
  have hlt := lt_length h
  have hlast : xs.getLast? = xs[xs.length - 1]? := getLast?_eq_getElem?
  unfold swapRemove at hk ⊢
  split at hk
  · simp at hk
  rename_i last hsome
  rw [hlast] at hsome
  rw [length_dropLast, length_set] at hk
  rw [getElem?_dropLast, length_set, if_pos hk, hsome, getElem?_set]
  by_cases heq : k = index
  · rw [if_pos heq.symm, if_pos heq, if_pos hlt]
  · rw [if_neg (Ne.symm heq), if_neg heq]

theorem modify_eq_set (h : l[i]? = some a) (f : α → α) : l.modify i f = l.set i (f a) := by
  obtain ⟨hlt, rfl⟩ := List.getElem?_eq_some_iff.mp h
  rw [modify_eq_set_getElem? f i l, getElem?_eq_getElem hlt]
  rfl

theorem set_getElem?_self (h : l[i]? = some a) : l.set i a = l := by
  obtain ⟨hlt, hget⟩ := List.getElem?_eq_some_iff.mp h
  rw [← hget, set_getElem_self]

/-- Where an element stands in a list that was extended by one. -/
theorem concat_eq_append_cons {l before after : List α} {last : α}
    (h : l ++ [last] = before ++ a :: after) :
    after = [] ∧ before = l ∧ a = last ∨
      ∃ rest, after = rest ++ [last] ∧ l = before ++ a :: rest := by
  rcases eq_nil_or_concat' after with rfl | ⟨rest, last', rfl⟩
  · obtain ⟨rfl, hlast⟩ := append_inj' h rfl
    exact .inl ⟨rfl, rfl, (singleton_inj.mp hlast).symm⟩
  · rw [← cons_append, ← append_assoc] at h
    obtain ⟨rfl, hlast⟩ := append_inj' h rfl
    exact .inr ⟨rest, by rw [singleton_inj.mp hlast], rfl⟩

theorem getElem?_set_iff (h : l[i]? = some a) (b : α) (k : Nat) (c : α) :
    (l.set i b)[k]? = some c ↔ k = i ∧ c = b ∨ k ≠ i ∧ l[k]? = some c := by
  have hlt := lt_length h
  by_cases hk : i = k
  · subst hk
    simp [hlt, eq_comm]
  · simp [hk, Ne.symm hk]

/-- Where the other values are does not depend on the element that is set. -/
theorem getElem?_set_other (h : l[i]? = some a) (b c : α) (ha : a ≠ c)
    (hb : b ≠ c) (k : Nat) : (l.set i b)[k]? = some c ↔ l[k]? = some c := by
  rw [getElem?_set_iff h]
  constructor
  · rintro (⟨-, rfl⟩ | ⟨-, hk⟩)
    · exact (hb rfl).elim
    · exact hk
  · refine fun hk => .inr ⟨?_, hk⟩
    rintro rfl
    exact ha (Option.some.inj (h.symm.trans hk))

/-- When keys are distinct, removing the first element of a key removes every one. -/
theorem eraseP_eq_filter {β : Type} [DecidableEq β] {key : α → β} (h : (l.map key).Nodup) (b : β) :
    l.eraseP (fun a => key a == b) = l.filter fun a => key a ≠ b := by
  induction l with
  | nil => rfl
  | cons a l ih =>
    rw [map_cons, nodup_cons] at h
    by_cases ha : key a = b
    · rw [eraseP_cons_of_pos (by simpa using ha), filter_cons_of_neg (by simpa using ha)]
      symm
      rw [filter_eq_self]
      intro c hc
      rw [decide_eq_true_eq]
      intro heq
      exact h.1 (mem_map.mpr ⟨c, hc, heq.trans ha.symm⟩)
    · rw [eraseP_cons_of_neg (by simpa using ha), filter_cons_of_pos (by simpa using ha), ih h.2]

/-- What a loop checks at the first element of each key holds of every key. -/
theorem forall_of_first {β : Type} (key : α → β) {Q : β → Prop} (ok : List α → List α → Prop)
    (hstep : ∀ before a after, ok before (a :: after) →
      ((∃ b ∈ before, key b = key a) ∨ Q (key a)) ∧ ok (before ++ [a]) after)
    {before after : List α} (h : ok before after) (hbefore : ∀ b ∈ before, Q (key b)) :
    ∀ a ∈ after, Q (key a) := by
  induction after generalizing before with
  | nil => simp
  | cons c after ih =>
    obtain ⟨hc, hafter⟩ := hstep before c after h
    have hfirst : Q (key c) := by
      rcases hc with ⟨b, hb, heq⟩ | hc
      · exact heq ▸ hbefore b hb
      · exact hc
    refine forall_mem_cons.mpr ⟨hfirst, ih hafter fun b hb => ?_⟩
    rcases mem_append.mp hb with hb | hb
    · exact hbefore b hb
    · exact mem_singleton.mp hb ▸ hfirst

theorem countP_set_add (h : l[i]? = some a) (b : α) :
    (l.set i b).countP p + (if p a then 1 else 0) = l.countP p + if p b then 1 else 0 := by
  obtain ⟨hlt, rfl⟩ := List.getElem?_eq_some_iff.mp h
  rw [countP_set hlt]
  have hmem : p l[i] = true → 0 < l.countP p := fun hp =>
    countP_pos_iff.mpr ⟨l[i], getElem_mem hlt, hp⟩
  split <;> split <;> rename_i hp _ <;> first | have := hmem hp; omega | omega

theorem sum_map_ite {M : Type} [AddCommMonoid M] (p : α → Prop) [DecidablePred p] (f : α → M)
    (l : List α) : (l.map fun a => if p a then f a else 0).sum = ((l.filter p).map f).sum := by
  simp [List.sum_map_ite]

theorem sum_map_ite_one (p : α → Prop) [DecidablePred p] (l : List α) :
    (l.map fun a => if p a then 1 else 0).sum = l.countP p := by
  rw [sum_map_ite, countP_eq_length_filter]
  simp

theorem sum_map_set {M : Type} [AddCommMonoid M] (h : l[i]? = some a) (f : α → M)
    (b : α) : ((l.set i b).map f).sum + f a = (l.map f).sum + f b := by
  induction l generalizing i with
  | nil => simp at h
  | cons c l ih =>
    cases i with
    | zero =>
      obtain rfl : c = a := by simpa using h
      simp only [set_cons_zero, map_cons, sum_cons]
      rw [add_comm (f b), add_assoc, add_comm (f b), ← add_assoc, add_comm _ (f c)]
    | succ i =>
      have hrest := ih (by simpa using h)
      simp only [set_cons_succ, map_cons, sum_cons]
      rw [add_assoc, hrest, ← add_assoc]

theorem sum_map_range_of_ne {f g : Nat → Nat} {n k : Nat} (hk : k < n)
    (h : ∀ i, i ≠ k → g i = f i) :
    ((List.range n).map g).sum + f k = ((List.range n).map f).sum + g k := by
  induction n with
  | zero => exact absurd hk (Nat.not_lt_zero k)
  | succ n ih =>
    simp only [range_succ, map_append, sum_append, map_cons, map_nil, sum_singleton]
    by_cases heq : k = n
    · have hinit : (List.range n).map g = (List.range n).map f :=
        map_congr_left fun i hi => h i (by have := mem_range.mp hi; omega)
      rw [hinit, heq]
      omega
    · rw [h n (Ne.symm heq)]
      omega

/-- The positions of the elements that meet `p`, in order. -/
def indices (p : α → Bool) (l : List α) : List Nat :=
  (List.range l.length).filter fun i => (l[i]?).any p

theorem mem_indices : i ∈ indices p l ↔ ∃ a, l[i]? = some a ∧ p a = true := by
  unfold indices
  rw [mem_filter, mem_range]
  constructor
  · rintro ⟨hlt, hany⟩
    rw [getElem?_eq_getElem hlt] at hany
    exact ⟨l[i], getElem?_eq_getElem hlt, hany⟩
  · rintro ⟨a, ha, hp⟩
    refine ⟨(lt_length ha), ?_⟩
    rw [ha]
    exact hp

theorem indices_cons (p : α → Bool) (a : α) (l : List α) :
    indices p (a :: l) = (if p a then [0] else []) ++ (indices p l).map (· + 1) := by
  unfold indices
  rw [length_cons, range_succ_eq_map, filter_cons, filter_map]
  by_cases ha : p a
  · simp [ha, Function.comp_def]
  · simp [ha, Function.comp_def]

theorem head?_indices (p : α → Bool) (l : List α) : (indices p l).head? = l.findIdx? p := by
  induction l with
  | nil => rfl
  | cons a l ih =>
    rw [indices_cons, findIdx?_cons, ← ih]
    by_cases ha : p a
    · simp [ha]
    · simp only [ha, Bool.false_eq_true, if_false, nil_append, head?_map]

/-- The first element that meets `p` is replaced by one that does not. -/
theorem indices_set (h : l.findIdx? p = some i) {b : α} (hb : p b = false) :
    indices p l = i :: indices p (l.set i b) := by
  induction l generalizing i with
  | nil => cases h
  | cons a l ih =>
    rw [findIdx?_cons] at h
    by_cases ha : p a
    · simp only [ha, if_true, Option.some.injEq] at h
      subst h
      rw [set_cons_zero, indices_cons, indices_cons]
      simp [ha, hb]
    · simp only [ha, Bool.false_eq_true, if_false, Option.map_eq_some_iff] at h
      obtain ⟨j, hj, rfl⟩ := h
      rw [set_cons_succ, indices_cons, indices_cons, ih hj]
      simp [ha]

/-! ## Two vectors, element by element -/

section Pairwise

variable {β γ : Type} {R : α → β → Prop} {l : List α} {m : List β}

section

variable (h : List.Forall₂ R l m) {i : Nat}
include h

theorem forall₂_getElem? {a : α} (ha : l[i]? = some a) : ∃ b, m[i]? = some b ∧ R a b := by
  induction h generalizing i with
  | nil => simp at ha
  | cons hab hrest ih =>
    cases i with
    | zero =>
      cases ha
      exact ⟨_, rfl, hab⟩
    | succ i => exact ih ha

theorem forall₂_getElem?_right {b : β} (hb : m[i]? = some b) :
    ∃ a, l[i]? = some a ∧ R a b := forall₂_getElem? h.flip hb

/-- The other pairs may be related in another way after the replacement. -/
theorem forall₂_set {S : α → β → Prop} {a : α} {b : β}
    (hrest : ∀ j x y, j ≠ i → l[j]? = some x → m[j]? = some y → R x y → S x y) (hab : S a b) :
    List.Forall₂ S (l.set i a) (m.set i b) := by
  induction h generalizing i with
  | nil => exact .nil
  | cons hhead htail ih =>
    cases i with
    | zero =>
      refine .cons hab (forall₂_iff_get.mpr ⟨htail.length_eq, fun j hj hj' => ?_⟩)
      exact hrest (j + 1) _ _ (Nat.succ_ne_zero j) (getElem?_eq_getElem hj)
        (getElem?_eq_getElem hj') (htail.get hj hj')
    | succ i =>
      refine .cons (hrest 0 _ _ (Nat.succ_ne_zero i).symm rfl rfl hhead) (ih ?_)
      intro j x y hne hx hy
      exact hrest (j + 1) x y (fun heq => hne (Nat.succ_inj.mp heq)) hx hy

end

/-- One element of a vector changes into one that is related to it. -/
theorem forall₂_set_self {R : α → α → Prop} (hrefl : ∀ a, R a a) {a b : α}
    (ha : l[i]? = some a) (hab : R a b) : List.Forall₂ R l (l.set i b) := by
  induction l generalizing i with
  | nil => simp at ha
  | cons c l ih =>
    cases i with
    | zero =>
      cases ha
      exact .cons hab (forall₂_same.mpr fun x _ => hrefl x)
    | succ i => exact .cons (hrefl c) (ih ha)

theorem forall₂_modify_self {R : α → α → Prop} (hrefl : ∀ a, R a a) {f : α → α}
    (hf : ∀ a, R a (f a)) (l : List α) (i : Nat) : List.Forall₂ R l (l.modify i f) := by
  cases ha : l[i]? with
  | some a =>
    rw [modify_eq_set ha]
    exact forall₂_set_self hrefl ha (hf a)
  | none =>
    rw [modify_eq_self (List.getElem?_eq_none_iff.mp ha)]
    exact forall₂_same.mpr fun a _ => hrefl a

theorem forall₂_replicate {R : α → β → Prop} {a : α} {b : β} (h : R a b) (n : Nat) :
    List.Forall₂ R (List.replicate n a) (List.replicate n b) := by
  induction n with
  | zero => exact .nil
  | succ n ih => exact .cons h ih

theorem forall₂_map_eq {δ : Type} {f : α → δ} {g : β → δ} (hfg : ∀ a b, R a b → f a = g b)
    (h : List.Forall₂ R l m) : l.map f = m.map g := by
  rw [← forall₂_eq_eq_eq, forall₂_map_left_iff, forall₂_map_right_iff]
  exact h.imp hfg

theorem optionRel_comp {β γ : Type} {R : α → β → Prop} {S : β → γ → Prop} {T : α → γ → Prop}
    (h : ∀ a b c, R a b → S b c → T a c) {x : Option α} {y : Option β} {z : Option γ}
    (hxy : Option.Rel R x y) (hyz : Option.Rel S y z) : Option.Rel T x z := by
  cases hxy with
  | none =>
    cases hyz
    exact .none
  | some hab =>
    cases hyz with
    | some hbc => exact .some (h _ _ _ hab hbc)

theorem forall₂_comp {S : β → γ → Prop} {T : α → γ → Prop} {n : List γ}
    (hcomp : ∀ a b c, R a b → S b c → T a c) (h : List.Forall₂ R l m) (h' : List.Forall₂ S m n) :
    List.Forall₂ T l n := by
  induction h generalizing n with
  | nil =>
    cases h'
    exact .nil
  | cons hab _ ih =>
    cases h' with
    | cons hbc hrest => exact .cons (hcomp _ _ _ hab hbc) (ih hrest)

theorem findIdx?_forall₂ {p : α → Bool} {q : β → Bool} (hpq : ∀ a b, R a b → p a = q b)
    (h : List.Forall₂ R l m) : l.findIdx? p = m.findIdx? q := by
  induction h with
  | nil => rfl
  | cons hab _ ih => rw [findIdx?_cons, findIdx?_cons, hpq _ _ hab, ih]

end Pairwise

theorem countP_or {q : α → Bool} (h : ∀ a ∈ l, p a = true → q a = false) :
    l.countP (fun a => p a || q a) = l.countP p + l.countP q := by
  induction l with
  | nil => rfl
  | cons a l ih =>
    have ha := h a mem_cons_self
    rw [countP_cons, countP_cons, countP_cons, ih fun b hb => h b (mem_cons_of_mem _ hb)]
    cases hp : p a with
    | false =>
      simp only [Bool.false_or, Bool.false_eq_true, if_false]
      omega
    | true =>
      simp only [Bool.true_or, ha hp, Bool.false_eq_true, if_false]
      omega

theorem countP_lt_countP {q : α → Bool} (h : ∀ b ∈ l, p b → q b) (hmem : a ∈ l)
    (hq : q a = true) (hp : p a = false) : l.countP p < l.countP q := by
  induction l with
  | nil => cases hmem
  | cons b l ih =>
    have hrest : l.countP p ≤ l.countP q :=
      countP_mono_left fun c hc => h c (mem_cons_of_mem _ hc)
    rw [countP_cons, countP_cons]
    rcases mem_cons.mp hmem with rfl | hmem
    · simp only [hp, hq, Bool.false_eq_true, if_false, if_true]
      omega
    have hlt := ih (fun c hc => h c (mem_cons_of_mem _ hc)) hmem
    split <;> rename_i hpb
    · rw [if_pos (h b mem_cons_self hpb)]
      omega
    · omega

theorem length_le_countP_of_gaps {values rest : List Nat} {a : Nat} (h : ∀ before b c after,
    a :: rest = before ++ b :: c :: after → ∃ v ∈ values, b < v ∧ v ≤ c) :
    rest.length ≤ values.countP (a < ·) := by
  induction rest generalizing a with
  | nil => exact Nat.zero_le _
  | cons b rest ih =>
    have hrest := ih fun before b' c after heq => h (a :: before) b' c after (by rw [heq]; rfl)
    obtain ⟨v, hv, hlt, hle⟩ := h [] a b rest rfl
    have hmore : values.countP (b < ·) < values.countP (a < ·) := by
      refine countP_lt_countP (fun c _ hc => ?_) hv (decide_eq_true hlt) ?_
      · exact decide_eq_true (by have := of_decide_eq_true hc; omega)
      · exact decide_eq_false (Nat.not_lt.mpr hle)
    rw [length_cons]
    omega

/-- If a value lies between any two marks, there is at most one mark more than values. -/
theorem length_le_of_gaps {values marks : List Nat} (h : ∀ before a b after,
    marks = before ++ a :: b :: after → ∃ v ∈ values, a < v ∧ v ≤ b) :
    marks.length ≤ values.length + 1 := by
  cases marks with
  | nil => exact Nat.zero_le _
  | cons a rest =>
    have hrest := length_le_countP_of_gaps h
    have hle := countP_le_length (p := (a < ·)) (l := values)
    rw [length_cons]
    omega

/-- Choosing before or after an extraction that the choice can be read off. -/
theorem filterMap_filter_eq {β : Type} {f : α → Option β} {q : β → Bool}
    (h : ∀ a b, f a = some b → q b = p a) (l : List α) :
    (l.filter p).filterMap f = (l.filterMap f).filter q := by
  rw [filterMap_filter, filter_filterMap]
  refine filterMap_congr fun a _ => ?_
  cases hf : f a with
  | none => simp
  | some b => simp [Option.filter, h a b hf]

/-- The first items are changed, the others are not yet. -/
def mapTake (f : α → α) (count : Nat) (l : List α) : List α := (l.take count).map f ++ l.drop count

theorem mapTake_length (f : α → α) (l : List α) : mapTake f l.length l = l.map f := by
  simp [mapTake]

theorem mem_mapTake {f : α → α} {count : Nat} (h : a ∈ mapTake f count l) :
    ∃ b ∈ l, a = b ∨ a = f b := by
  rcases mem_append.mp h with htaken | hleft
  · obtain ⟨b, hb, rfl⟩ := mem_map.mp htaken
    exact ⟨b, mem_of_mem_take hb, .inr rfl⟩
  · exact ⟨a, mem_of_mem_drop hleft, .inl rfl⟩

theorem getElem?_mapTake_self (f : α → α) (count : Nat) (l : List α) :
    (mapTake f count l)[count]? = l[count]? := by
  unfold mapTake
  rcases Nat.lt_or_ge count l.length with hlt | hge
  · rw [getElem?_append_right (by rw [length_map, length_take]; omega),
      length_map, length_take, Nat.min_eq_left (Nat.le_of_lt hlt), Nat.sub_self,
      getElem?_drop, Nat.add_zero]
  · rw [drop_eq_nil_of_le hge, append_nil, List.getElem?_eq_none_iff.mpr hge,
      List.getElem?_eq_none_iff.mpr (by rw [length_map, length_take]; omega)]

theorem set_mapTake (f : α → α) {count : Nat} (h : l[count]? = some a) :
    (mapTake f count l).set count (f a) = mapTake f (count + 1) l := by
  obtain ⟨hlt, rfl⟩ := List.getElem?_eq_some_iff.mp h
  have hlen : ((l.take count).map f).length = count := by
    rw [length_map, length_take, Nat.min_eq_left (Nat.le_of_lt hlt)]
  unfold mapTake
  rw [set_append_right _ _ (by omega), hlen, Nat.sub_self, drop_eq_getElem_cons hlt,
    take_succ_eq_append_getElem hlt, map_append, append_assoc]
  rfl

end Ginkgo.Lib
