import Mathlib.Algebra.Order.Ring.Nat
import Mathlib.Data.List.Perm.Basic

/-!
Lists in which one item is replaced, and lists that grow: what stands at each place afterwards, and
what the items hold together; and what remains true along a list of steps.
-/

namespace PolicyGate.ListUpdate

variable {α : Type} {β : Type} {l : List α} {i j : Nat} {a b c : α}

/-- After a replacement stands either the new item or what stood there before. -/
theorem getElem?_set_cases (h : (l.set i b)[j]? = some c) :
    (j = i ∧ c = b) ∨ (j ≠ i ∧ l[j]? = some c) := by
  rw [List.getElem?_set] at h
  split at h
  · next he =>
    split at h
    · cases h
      exact .inl ⟨he.symm, rfl⟩
    · cases h
  · next he => exact .inr ⟨fun e => he e.symm, h⟩

theorem getElem?_set_of_some (h : l[i]? = some a) (b : α) : (l.set i b)[i]? = some b := by
  obtain ⟨hi, -⟩ := List.getElem?_eq_some_iff.1 h
  simp [hi]

/-- What differs from the item that is replaced stays in the list. -/
theorem mem_set_of_ne (h : l[i]? = some a) (hc : c ∈ l) (hne : c ≠ a) : c ∈ l.set i b := by
  obtain ⟨j, hj⟩ := List.getElem?_of_mem hc
  have hij : i ≠ j := by
    rintro rfl
    exact hne (Option.some.inj (hj.symm.trans h))
  exact List.mem_of_getElem? (by rw [List.getElem?_set_ne hij, hj])

/-- What stands in a list stays where it is when the list grows. -/
theorem getElem?_mono {l' : List α} (h : l <+: l') (hi : l[i]? = some a) :
    l'[i]? = some a := by
  obtain ⟨more, rfl⟩ := h
  rwa [List.getElem?_append_left (List.getElem?_eq_some_iff.1 hi).1]

/-- At the end of a list stands the item that was added, and elsewhere what stood there before. -/
theorem getElem?_concat_cases (h : (l ++ [b])[j]? = some c) :
    l[j]? = some c ∨ (j = l.length ∧ c = b) := by
  rw [List.getElem?_append] at h
  split at h
  · exact .inl h
  · next hlt =>
    obtain ⟨hj, rfl⟩ := List.getElem?_eq_some_iff.1 h
    rw [List.length_singleton, Nat.lt_one_iff] at hj
    exact .inr ⟨Nat.le_antisymm (Nat.sub_eq_zero_iff_le.1 hj) (Nat.not_lt.1 hlt), by simp⟩

/-- A replacement that is not seen through a function changes nothing that is. -/
theorem map_set_of_eq {f : α → β} (h : l[i]? = some a) (hf : f b = f a) :
    (l.set i b).map f = l.map f := by
  obtain ⟨hi, rfl⟩ := List.getElem?_eq_some_iff.1 h
  have hm : f l[i] = (l.map f).get ⟨i, by simpa using hi⟩ := by simp
  rw [List.map_set, hf, hm, List.get_eq_getElem, List.set_getElem_self]

theorem eq_of_nodup_map {f : α → β} (hn : (l.map f).Nodup) (hi : l[i]? = some a)
    (hj : l[j]? = some b) (h : f a = f b) : i = j := by
  have hlt : i < (l.map f).length := by simpa using (List.getElem?_eq_some_iff.1 hi).1
  exact (List.getElem?_inj hlt hn).1 (by simp [hi, hj, h])

/-- What a list holds together, with one item taken out of the others. -/
theorem flatMap_perm (h : l[i]? = some a) (f : α → List β) :
    (l.flatMap f).Perm (f a ++ (l.eraseIdx i).flatMap f) := by
  obtain ⟨hi, rfl⟩ := List.getElem?_eq_some_iff.1 h
  exact ((List.getElem_cons_eraseIdx_perm hi).symm.flatMap_right f)

theorem flatMap_set_perm (h : l[i]? = some a) (b : α) (f : α → List β) :
    ((l.set i b).flatMap f).Perm (f b ++ (l.eraseIdx i).flatMap f) := by
  have := flatMap_perm (getElem?_set_of_some h b) f
  rwa [List.eraseIdx_set_eq] at this

/-- A replacement that takes something out of an item takes it out of the whole. -/
theorem flatMap_set_append_perm {out : List β} {f : α → List β} (h : l[i]? = some a)
    (hp : (out ++ f b).Perm (f a)) : (out ++ (l.set i b).flatMap f).Perm (l.flatMap f) :=
  calc (out ++ (l.set i b).flatMap f).Perm (out ++ (f b ++ (l.eraseIdx i).flatMap f)) :=
        (flatMap_set_perm h b f).append_left out
    _ = (out ++ f b) ++ (l.eraseIdx i).flatMap f := (List.append_assoc ..).symm
    List.Perm _ (f a ++ (l.eraseIdx i).flatMap f) := hp.append_right _
    List.Perm _ (l.flatMap f) := (flatMap_perm h f).symm

/-- A replacement that adds something to an item adds it to the whole. -/
theorem flatMap_set_perm_append {new : List β} {f : α → List β} (h : l[i]? = some a)
    (hp : (f b).Perm (new ++ f a)) : ((l.set i b).flatMap f).Perm (new ++ l.flatMap f) :=
  calc ((l.set i b).flatMap f).Perm (f b ++ (l.eraseIdx i).flatMap f) := flatMap_set_perm h b f
    List.Perm _ ((new ++ f a) ++ (l.eraseIdx i).flatMap f) := hp.append_right _
    _ = new ++ (f a ++ (l.eraseIdx i).flatMap f) := List.append_assoc ..
    List.Perm _ (new ++ l.flatMap f) := (flatMap_perm h f).symm.append_left new

theorem cons_set_perm (h : l[i]? = some a) (b : α) : (a :: l.set i b).Perm (b :: l) := by
  obtain ⟨hi, rfl⟩ := List.getElem?_eq_some_iff.1 h
  calc (l[i] :: l.set i b).Perm (l[i] :: b :: l.eraseIdx i) :=
        (List.set_perm_cons_eraseIdx hi b).cons _
    List.Perm _ (b :: l[i] :: l.eraseIdx i) := .swap ..
    List.Perm _ (b :: l) := (List.getElem_cons_eraseIdx_perm hi).cons b

theorem countP_set {p : α → Bool} (h : l[i]? = some a) (b : α) :
    (l.set i b).countP p + (if p a then 1 else 0) = l.countP p + (if p b then 1 else 0) := by
  simpa only [List.countP_cons] using (cons_set_perm h b).countP_eq p

theorem sum_map_set_lt {f : α → Nat} (h : l[i]? = some a) (hf : f b < f a) :
    ((l.set i b).map f).sum < (l.map f).sum := by
  have hsum := ((cons_set_perm h b).map f).sum_nat
  simp only [List.map_cons, List.sum_cons] at hsum
  omega

/-- What every step of a list keeps is true at the end. -/
theorem exists_of_foldlM {σ : Type u} {step : σ → α → Option σ} {R : σ → Prop} {f : σ → β} {s : σ}
    {b : β} (h : R s) (hs : (l.foldlM step s).map f = some b)
    (hR : ∀ s, ∀ a ∈ l, ∀ s', R s → step s a = some s' → R s') : ∃ s', R s' ∧ f s' = b := by
  induction l generalizing s with
  | nil =>
    cases hs
    exact ⟨s, h, rfl⟩
  | cons a rest ih =>
    obtain ⟨s₂, hfold, hf⟩ := Option.map_eq_some_iff.1 hs
    obtain ⟨s₁, hs₁, hrest⟩ := Option.bind_eq_some_iff.1 hfold
    refine ih (hR s a List.mem_cons_self s₁ h hs₁) ?_ fun s a ha => hR s a (.tail _ ha)
    rw [hrest, Option.map_some, hf]

end PolicyGate.ListUpdate
