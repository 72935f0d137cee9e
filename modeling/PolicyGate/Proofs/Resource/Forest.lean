import Mathlib.Data.List.Nodup
import PolicyGate.Proofs.Resource.Chain

/-!
The forest of resource ids. An id and its spelling with single slashes spell out the same chain, so
repeated slashes add the id itself at the end of the chain and nothing else. Main statement: chains
grow by one id at a time, without repetition, and slashes do not lead around them
(`ancestors_form_forest`).
-/

namespace PolicyGate.ResourceId

/-! ## Paths with single slashes -/

theorem collapse_append_slash (path : List Char) :
    collapse (path ++ ['/']) = collapse path ++ if path.getLast? = some '/' then [] else ['/'] := by
  fun_induction collapse path with
  | case1 => rfl
  | case2 c => by_cases hc : c = '/' <;> simp [collapse, hc]
  | case3 a b rest hab ih =>
    rw [List.cons_append, List.cons_append, collapse, if_pos hab, ← List.cons_append, ih,
      List.getLast?_cons_cons]
  | case4 a b rest hab ih =>
    rw [List.cons_append, List.cons_append, collapse, if_neg hab, ← List.cons_append, ih,
      List.getLast?_cons_cons]
    rfl

theorem head?_collapse (path : List Char) : (collapse path).head? = path.head? := by
  fun_induction collapse path with
  | case1 | case2 | case4 => rfl
  | case3 a b rest hab ih => rw [ih, hab.1, hab.2]; rfl

theorem getLast?_collapse (path : List Char) : (collapse path).getLast? = path.getLast? := by
  fun_induction collapse path with
  | case1 | case2 => rfl
  | case3 a b rest _ ih => rw [ih, List.getLast?_cons_cons]
  | case4 a b rest _ ih =>
    rw [List.getLast?_cons, ih, List.getLast?_cons_cons, List.getLast?_cons]
    rfl

/-- A character before a name goes to the front of it. -/
theorem segments_cons_cons {a b : Char} (ha : a ≠ '/') (hb : b ≠ '/') (rest : List Char) :
    segments (a :: b :: rest) = (segments (b :: rest)).modifyHead (a :: ·) := by
  cases h : Text.splitChars '/' rest with
  | nil => exact absurd h (Text.splitChars_ne_nil '/' rest)
  | cons piece pieces => simp [segments, Text.splitChars, ha, hb, h]

/-- Names begin alike before paths that begin alike and have the same names. -/
theorem segments_cons_congr {path path' : List Char} (a : Char)
    (hhead : path.head? = path'.head?) (h : segments path = segments path') :
    segments (a :: path) = segments (a :: path') := by
  by_cases ha : a = '/'
  · rw [ha, segments_slash, segments_slash, h]
  cases path with
  | nil =>
    cases path' with
    | nil => rfl
    | cons => cases hhead
  | cons b rest =>
    obtain ⟨rest', rfl⟩ := List.head?_eq_some_iff.1 hhead.symm
    by_cases hb : b = '/'
    · subst hb
      have hcut : ∀ rest, segments (a :: '/' :: rest) = segments [a] ++ segments rest :=
        segments_append_slash [a]
      rw [segments_slash, segments_slash] at h
      rw [hcut, hcut, h]
    · rw [segments_cons_cons ha hb, segments_cons_cons ha hb, h]

theorem segments_collapse (path : List Char) : segments (collapse path) = segments path := by
  fun_induction collapse path with
  | case1 | case2 => rfl
  | case3 a b rest hab ih => rw [ih, hab.1, segments_slash]
  | case4 a b rest _ ih => exact segments_cons_congr a (head?_collapse _) ih

theorem beforeSlash_collapse (path : List Char) :
    beforeSlash (collapse path) = beforeSlash path := by
  fun_induction collapse path with
  | case1 | case2 => rfl
  | case3 a b rest hab ih => rw [ih, hab.1, hab.2, beforeSlash_slash, beforeSlash_slash]
  | case4 a b rest _ ih =>
    unfold beforeSlash at ih ⊢
    rw [List.takeWhile_cons, List.takeWhile_cons, ih]

/-- A path with single slashes is spelled by its names. -/
theorem collapse_eq_spelled {path name : List Char} {above : List (List Char)}
    (h : segments path = above ++ [name]) : collapse path =
      spelled (path.head? = some '/') above name (path.getLast? = some '/') := by
  have hjoined : joined (segments path) = joined above ++ name ++ ['/'] := by
    simp [h, joined]
  by_cases hlast : path.getLast? = some '/'
  · rw [collapse_directory hlast, hjoined]
    simp [spelled, hlast]
  · -- with a slash at its end the path is that of a directory
    have hslash := @collapse_directory (path ++ ['/']) (by simp)
    have hnil : segments [] = [] := rfl
    have hhead : (path ++ ['/']).head? = path.head? := by
      cases path with
      | nil => cases above <;> cases h
      | cons => rfl
    rw [collapse_append_slash, if_neg hlast, segments_append_slash, hnil, List.append_nil, hjoined,
      hhead, ← List.append_assoc] at hslash
    simpa [spelled, hlast] using List.append_cancel_right hslash

/-! ## Ids with single slashes -/

theorem schemeAndPath_collapse (cs : List Char) :
    schemeAndPath ((schemeAndPath cs).1 ++ collapse (schemeAndPath cs).2) =
      ((schemeAndPath cs).1, collapse (schemeAndPath cs).2) :=
  schemeAndPath_scheme_append (beforeSlash_collapse _)

/-- Repeated slashes change nothing of what an id spells out. -/
theorem spine_collapse (cs : List Char) :
    spine ((schemeAndPath cs).1 ++ collapse (schemeAndPath cs).2) = spine cs := by
  rw [spine_eq, spine_eq cs, schemeAndPath_collapse]
  simp only [root, start, head?_collapse, getLast?_collapse, segments_collapse]

/-- The chain that an id spells ends with the id under its spelling with single slashes. -/
theorem getLast?_spine_of_ne_nil {cs : List Char} (h : (schemeAndPath cs).2 ≠ []) :
    (spine cs).getLast? = some ((schemeAndPath cs).1 ++ collapse (schemeAndPath cs).2) := by
  rcases List.eq_nil_or_concat (segments (schemeAndPath cs).2) with hnone | ⟨above, name, hsome⟩
  · -- a path without a name is that of a directory
    refine getLast?_spine ?_
    obtain ⟨start, c, hpath⟩ := List.eq_nil_or_concat (schemeAndPath cs).2 |>.resolve_left h
    have hc : c = '/' := eq_slash_of_segments hnone c (by simp [hpath])
    rw [← scheme_append_path cs, hpath, hc]
    simp
  · rw [List.concat_eq_append] at hsome
    rw [spine_eq, collapse_eq_spelled hsome, hsome, descend_append (List.cons_ne_nil _ _)]
    simp [descend, spelled, start]

/-- The way to an id is that of the id with single slashes, and then the id itself if it differs. -/
theorem chain_collapse (cs : List Char) :
    chain cs = chain ((schemeAndPath cs).1 ++ collapse (schemeAndPath cs).2) ++
      if cs = (schemeAndPath cs).1 ++ collapse (schemeAndPath cs).2 then [] else [cs] := by
  by_cases hpath : (schemeAndPath cs).2 = []
  · have hself : (schemeAndPath cs).1 = cs := by simpa [hpath] using scheme_append_path cs
    simp [hpath, hself, collapse]
  · have hlast := getLast?_spine_of_ne_nil hpath
    have hchain : chain ((schemeAndPath cs).1 ++ collapse (schemeAndPath cs).2) = spine cs := by
      rw [chain, spine_collapse, if_pos hlast]
    rw [hchain, chain, hlast]
    by_cases hself : cs = (schemeAndPath cs).1 ++ collapse (schemeAndPath cs).2
    · rw [if_pos (congrArg some hself.symm), if_pos hself, List.append_nil]
    · rw [if_neg fun e => hself (Option.some.inj e).symm, if_neg hself]

/-! ## The forest -/

/-- An id has the ancestors of its collapsed form. -/
theorem ancestors_collapsed (x : ResourceId) :
    x.ancestors = x.collapsed.ancestors ++ if x = x.collapsed then [] else [x] := by
  have hself : x = x.collapsed ↔ x.text.toList =
      (schemeAndPath x.text.toList).1 ++ collapse (schemeAndPath x.text.toList).2 := by
    rw [collapsed, ResourceId.mk.injEq, ← String.toList_inj, String.toList_ofList]
  have hchain : x.collapsed.ancestors = (chain ((schemeAndPath x.text.toList).1 ++
      collapse (schemeAndPath x.text.toList).2)).map fun cs => ⟨String.ofList cs⟩ := by
    rw [ancestors, collapsed, String.toList_ofList]
  rw [hchain, ancestors, chain_collapse, List.map_append]
  by_cases h : x = x.collapsed
  · rw [if_pos (hself.1 h), if_pos h, List.map_nil]
  · rw [if_neg fun e => h (hself.2 e), if_neg h, List.map_singleton, String.ofList_toList]

/-- The chain of an id on a chain is what leads up to it. -/
theorem ancestors_get (x : ResourceId) (i : Fin x.ancestors.length) :
    (x.ancestors.get i).ancestors = x.ancestors.take (i + 1) := by
  have hsplit : x.ancestors =
      x.ancestors.take i ++ x.ancestors.get i :: x.ancestors.drop (i + 1) := by
    rw [List.get_eq_getElem, ← List.drop_eq_getElem_cons, List.take_append_drop]
  rw [ancestors_of_split hsplit, List.get_eq_getElem, List.take_append_getElem]

/-- No id occurs twice among its ancestors. -/
theorem nodup_ancestors (x : ResourceId) : x.ancestors.Nodup := by
  refine List.nodup_iff_injective_get.2 fun i j hij => ?_
  -- two places of one id would give it two chains
  have hchains : x.ancestors.take (i + 1) = x.ancestors.take (j + 1) := by
    rw [← ancestors_get, ← ancestors_get, hij]
  have hlength := congrArg List.length hchains
  rw [List.length_take_of_le i.isLt, List.length_take_of_le j.isLt] at hlength
  exact Fin.ext (Nat.succ.inj hlength)

/-- The chain of an id ends with the id, which stands nowhere else on it, and repeats none. What
leads up to an id on it is the chain of that id. Repeated slashes in its path add the id itself to
the chain of its spelling with single slashes. -/
theorem ancestors_form_forest (x : ResourceId) :
    x.ancestors ≠ [] ∧ x.ancestors.Nodup ∧
    x.ancestors.getLast? = some x ∧ x ∉ x.ancestors.dropLast ∧
    (∀ i : Fin x.ancestors.length,
      (x.ancestors.get i).ancestors = x.ancestors.take (i + 1)) ∧
    x.ancestors = x.collapsed.ancestors ++ if x = x.collapsed then [] else [x] := by
  have hlast := getLast?_ancestors x
  have hnodup := nodup_ancestors x
  refine ⟨ancestors_ne_nil x, hnodup, hlast, fun hm => ?_, ancestors_get x, ancestors_collapsed x⟩
  rw [← List.dropLast_append_getLast? x hlast, List.nodup_append] at hnodup
  exact hnodup.2.2 x hm x List.mem_cons_self rfl

end PolicyGate.ResourceId
