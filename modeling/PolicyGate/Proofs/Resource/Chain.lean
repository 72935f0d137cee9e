import PolicyGate.Proofs.Resource.Directory

/-!
The chains of the ids on a chain. An id on the spine of another one is spelled by the first names of
its path, with the scheme and the root of that path. Main statement: what stands before an id on a
chain, followed by the id itself, is the chain of that id (`ancestors_of_split`).
-/

namespace PolicyGate.ResourceId

/-! ## Names and the paths that they spell -/

theorem splitChars_of_not_mem {name : List Char} (h : '/' ∉ name) :
    Text.splitChars '/' name = [name] := by
  induction name with
  | nil => rfl
  | cons c rest ih =>
    rw [List.mem_cons, not_or] at h
    rw [Text.splitChars, if_neg (Ne.symm h.1), ih h.2]

theorem segments_of_name {name : List Char} (h : name ≠ [] ∧ '/' ∉ name) :
    segments name = [name] := by
  simp [segments, splitChars_of_not_mem h.2, h.1]

theorem segments_joined_append {names : List (List Char)}
    (h : ∀ name ∈ names, name ≠ [] ∧ '/' ∉ name) (rest : List Char) :
    segments (joined names ++ rest) = names ++ segments rest := by
  induction names with
  | nil => rfl
  | cons name names ih =>
    rw [List.forall_mem_cons] at h
    have hcons : joined (name :: names) ++ rest = name ++ '/' :: (joined names ++ rest) := by
      simp [joined]
    rw [hcons, segments_append_slash, segments_of_name h.1, ih h.2]
    rfl

/-! ## The scheme of an id with another path -/

/-- What stands before the first slash. -/
def beforeSlash (path : List Char) : List Char := path.takeWhile (· ≠ '/')

theorem beforeSlash_append {before : List Char} (h : '/' ∉ before) (behind : List Char) :
    beforeSlash (before ++ behind) = before ++ beforeSlash behind :=
  List.takeWhile_append_of_pos fun c hc => by
    simpa using fun e : c = '/' => h (e ▸ hc)

theorem beforeSlash_slash (path : List Char) : beforeSlash ('/' :: path) = [] := by
  simp [beforeSlash]

/-- A path without a slash, or what is before its first one and what is behind it. -/
theorem cut_at_slash (path : List Char) :
    '/' ∉ path ∨ ∃ before behind, path = before ++ '/' :: behind ∧ '/' ∉ before := by
  cases h : Text.splitOnceChars '/' path with
  | none => exact .inl (Text.splitOnceChars_eq_none_iff.1 h)
  | some cut => exact .inr ⟨_, _, Text.splitOnceChars_eq_some h⟩

/-- The first name of a relative path is what stands before its first slash. -/
theorem beforeSlash_of_segments {path first : List Char} {rest : List (List Char)}
    (hhead : path.head? ≠ some '/') (h : segments path = first :: rest) :
    beforeSlash path = first := by
  have hne : path ≠ [] := by rintro rfl; cases h
  rcases cut_at_slash path with hno | ⟨before, behind, rfl, hno⟩
  · have hself := beforeSlash_append hno []
    rw [List.append_nil] at hself
    rw [segments_of_name ⟨hne, hno⟩] at h
    rw [hself, (List.cons.inj h).1]
    exact List.append_nil _
  · have hbefore : before ≠ [] := by rintro rfl; exact hhead rfl
    rw [segments_append_slash, segments_of_name ⟨hbefore, hno⟩] at h
    rw [beforeSlash_append hno, beforeSlash_slash, List.append_nil]
    exact (List.cons.inj h).1

/-- Two paths with the same root and the same first name agree up to their first slash. -/
theorem beforeSlash_eq {path path' first : List Char} {rest rest' : List (List Char)}
    (hhead : path'.head? = some '/' ↔ path.head? = some '/') (h : segments path = first :: rest)
    (h' : segments path' = first :: rest') : beforeSlash path' = beforeSlash path := by
  by_cases hr : path.head? = some '/'
  · obtain ⟨more, rfl⟩ := List.head?_eq_some_iff.1 hr
    obtain ⟨more', rfl⟩ := List.head?_eq_some_iff.1 (hhead.2 hr)
    rw [beforeSlash_slash, beforeSlash_slash]
  · rw [beforeSlash_of_segments hr h, beforeSlash_of_segments (fun e => hr (hhead.1 e)) h']

/-- Without a colon before its first slash, a path has no scheme. -/
theorem schemeAndPath_of_not_mem {path : List Char} (h : ':' ∉ beforeSlash path) :
    schemeAndPath path = ([], path) := by
  unfold schemeAndPath
  cases hs : Text.splitOnceChars ':' path with
  | none => rfl
  | some cut =>
    obtain ⟨before, after⟩ := cut
    obtain ⟨rfl, -⟩ := Text.splitOnceChars_eq_some hs
    by_cases hb : '/' ∈ before
    · simp [hb]
    · rw [beforeSlash_append hb] at h
      simp [beforeSlash] at h

/-- A colon behind the first slash does not stand before it. -/
theorem not_mem_beforeSlash {before : List Char} (hno : ':' ∉ before) (hb : '/' ∈ before)
    (after : List Char) : ':' ∉ beforeSlash (before ++ after) := by
  rcases cut_at_slash before with h | ⟨first, rest, rfl, hf⟩
  · exact absurd hb h
  · rw [List.append_assoc, beforeSlash_append hf, List.cons_append, beforeSlash_slash,
      List.append_nil]
    exact fun hm => hno (List.mem_append_left _ hm)

/-- Behind the scheme of an id there may be any path that agrees with its own up to the first
slash. -/
theorem schemeAndPath_scheme_append {cs path : List Char}
    (h : beforeSlash path = beforeSlash (schemeAndPath cs).2) :
    schemeAndPath ((schemeAndPath cs).1 ++ path) = ((schemeAndPath cs).1, path) := by
  cases hs : Text.splitOnceChars ':' cs with
  | none =>
    have hcs : schemeAndPath cs = ([], cs) := by simp [schemeAndPath, hs]
    rw [hcs] at h ⊢
    refine schemeAndPath_of_not_mem fun hm => ?_
    rw [List.nil_append, h] at hm
    exact Text.splitOnceChars_eq_none_iff.1 hs ((List.takeWhile_sublist _).subset hm)
  | some cut =>
    obtain ⟨before, after⟩ := cut
    obtain ⟨rfl, hno⟩ := Text.splitOnceChars_eq_some hs
    by_cases hb : '/' ∈ before
    · have hcs : schemeAndPath (before ++ ':' :: after) = ([], before ++ ':' :: after) := by
        simp [schemeAndPath, hs, hb]
      rw [hcs] at h ⊢
      refine schemeAndPath_of_not_mem ?_
      rw [List.nil_append, h]
      exact not_mem_beforeSlash hno hb _
    · have hcs : schemeAndPath (before ++ ':' :: after) = (before ++ [':'], after) := by
        simp [schemeAndPath, hs, hb]
      rw [hcs]
      simp [schemeAndPath, Text.splitOnceChars_append hno, hb]

/-! ## The ids on a spine -/

/-- The path of some names, from the root on if it is absolute, and with a slash at its end if it is
that of a directory. -/
def spelled (isAbsolute : Bool) (above : List (List Char)) (name : List Char)
    (isDirectory : Bool) : List Char :=
  (if isAbsolute then ['/'] else []) ++ joined above ++ name ++ if isDirectory then ['/'] else []

section

variable {above : List (List Char)} {name : List Char} (isAbsolute isDirectory : Bool)

theorem head?_spelled (h : ∀ n ∈ above ++ [name], n ≠ [] ∧ '/' ∉ n) :
    (spelled isAbsolute above name isDirectory).head? = some '/' ↔ isAbsolute := by
  cases isAbsolute with
  | true => simp [spelled]
  | false =>
    have hfirst : ∀ first ∈ above ++ [name], ∀ rest, (first ++ rest).head? ≠ some '/' := by
      intro first hm rest e
      obtain ⟨hne, hno⟩ := h first hm
      obtain ⟨c, cs, rfl⟩ := List.exists_cons_of_ne_nil hne
      cases e
      exact hno List.mem_cons_self
    refine iff_of_false ?_ Bool.false_ne_true
    cases above with
    | nil => exact hfirst name (by simp) _
    | cons first rest =>
      have hcons : spelled false (first :: rest) name isDirectory =
          first ++ '/' :: (joined rest ++ name ++ if isDirectory then ['/'] else []) := by
        simp [spelled, joined]
      rw [hcons]
      exact hfirst first List.mem_cons_self _

theorem getLast?_spelled (above : List (List Char)) (h : name ≠ [] ∧ '/' ∉ name) :
    (spelled isAbsolute above name isDirectory).getLast? = some '/' ↔ isDirectory := by
  cases isDirectory with
  | true => simp [spelled]
  | false =>
    obtain ⟨start, c, rfl⟩ := List.eq_nil_or_concat name |>.resolve_left h.1
    have hc : c ≠ '/' := by rintro rfl; exact h.2 (by simp)
    simp [spelled, ← List.append_assoc, hc]

/-- A path has the names that it was spelled with. -/
theorem segments_spelled (h : ∀ n ∈ above ++ [name], n ≠ [] ∧ '/' ∉ n) :
    segments (spelled isAbsolute above name isDirectory) = above ++ [name] := by
  have habove : ∀ n ∈ above, n ≠ [] ∧ '/' ∉ n := fun n hn => h n (List.mem_append_left _ hn)
  have hname := h name (by simp)
  have hlast : segments (name ++ if isDirectory then ['/'] else []) = [name] := by
    cases isDirectory with
    | true =>
      have hslash := segments_append_slash name []
      rwa [segments_of_name hname] at hslash
    | false => simpa using segments_of_name hname
  have hroot : ∀ rest, segments ((if isAbsolute then ['/'] else []) ++ rest) = segments rest := by
    intro rest
    cases isAbsolute with
    | true => exact segments_slash rest
    | false => rfl
  rw [spelled, List.append_assoc, List.append_assoc, hroot, segments_joined_append habove, hlast]

end

/-- The spine of an id whose path has the root and some of the first names of another one. -/
theorem spine_spelled {cs : List Char} {above below : List (List Char)} {name : List Char}
    (h : segments (schemeAndPath cs).2 = above ++ name :: below) (isDirectory : Bool) :
    spine ((schemeAndPath cs).1 ++
        spelled ((schemeAndPath cs).2.head? = some '/') above name isDirectory) =
      root (schemeAndPath cs).1 (schemeAndPath cs).2 ++ descend isDirectory
        (start (schemeAndPath cs).1 (schemeAndPath cs).2) (above ++ [name]) := by
  have hnames : ∀ n ∈ above ++ [name], n ≠ [] ∧ '/' ∉ n := by
    intro n hn
    have hfirst : above ++ [name] <+: above ++ name :: below := ⟨below, by simp⟩
    exact ne_nil_of_mem_segments (h ▸ hfirst.subset hn)
  have hhead := head?_spelled ((schemeAndPath cs).2.head? = some '/') isDirectory hnames
  have hlast := getLast?_spelled ((schemeAndPath cs).2.head? = some '/') isDirectory above
    (hnames name (by simp))
  have hsegments := segments_spelled ((schemeAndPath cs).2.head? = some '/') isDirectory hnames
  generalize spelled _ above name isDirectory = path at hhead hlast hsegments
  rw [decide_eq_true_eq] at hhead
  -- a colon in a later name must not be taken for the end of a scheme
  have hscheme : schemeAndPath ((schemeAndPath cs).1 ++ path) = ((schemeAndPath cs).1, path) := by
    refine schemeAndPath_scheme_append ?_
    cases above with
    | nil => exact beforeSlash_eq hhead h hsegments
    | cons first rest => exact beforeSlash_eq hhead h hsegments
  rw [spine_eq, hscheme]
  simp only [root, start, hhead, hlast, hsegments, Bool.decide_eq_true]

/-- An id on the way down is spelled by the names up to there. -/
theorem descend_split {isDirectory : Bool} {dir y : List Char} {names pre post : List (List Char)}
    (h : descend isDirectory dir names = pre ++ y :: post) : ∃ above name below,
      names = above ++ name :: below ∧
      y = dir ++ joined above ++ name ++ (if isDirectory ∨ below ≠ [] then ['/'] else []) ∧
      pre ++ [y] = descend (isDirectory ∨ below ≠ []) dir (above ++ [name]) := by
  induction names generalizing dir pre with
  | nil => simp [descend] at h
  | cons name rest ih =>
    cases rest with
    | nil =>
      rw [descend] at h
      obtain ⟨rfl, rfl, rfl⟩ : pre = [] ∧ y = _ ∧ post = [] := by
        cases pre with
        | nil => simpa [eq_comm] using h
        | cons => simp at h
      refine ⟨[], name, [], rfl, ?_, ?_⟩ <;> simp [joined, descend]
    | cons next more =>
      rw [descend] at h
      · cases pre with
        | nil =>
          obtain ⟨hy, -⟩ := List.cons.inj h
          refine ⟨[], name, next :: more, rfl, ?_, ?_⟩ <;> simp [joined, descend, ← hy]
        | cons first pre =>
          obtain ⟨hfirst, htail⟩ := List.cons.inj h
          obtain ⟨above, last, below, hnames, hy, hpre⟩ := ih htail
          refine ⟨name :: above, last, below, by rw [hnames]; rfl, by rw [hy]; simp [joined], ?_⟩
          rw [List.cons_append, hpre, ← hfirst, List.cons_append, descend]
          simp
      · simp

/-- What stands before an id on a spine, with the id itself, is the spine of that id. -/
theorem spine_of_split {cs y : List Char} {pre post : List (List Char)}
    (h : spine cs = pre ++ y :: post) : spine y = pre ++ [y] := by
  have hdescend : ∀ pre' : List (List Char), descend ((schemeAndPath cs).2.getLast? = some '/')
      (start (schemeAndPath cs).1 (schemeAndPath cs).2) (segments (schemeAndPath cs).2) =
        pre' ++ y :: post →
      spine y = root (schemeAndPath cs).1 (schemeAndPath cs).2 ++ (pre' ++ [y]) := by
    intro pre' hd
    obtain ⟨above, name, below, hsegments, hy, hpre⟩ := descend_split hd
    have hspine := spine_spelled hsegments
      ((schemeAndPath cs).2.getLast? = some '/' ∨ below ≠ [])
    rw [hpre]
    simpa [hy, start, spelled] using hspine
  rw [spine_eq] at h
  by_cases hroot : (schemeAndPath cs).2.head? = some '/'
  · have hcons : root (schemeAndPath cs).1 (schemeAndPath cs).2 = [(schemeAndPath cs).1 ++ ['/']] :=
      if_pos hroot
    rw [hcons] at h hdescend
    cases pre with
    | cons first pre =>
      obtain ⟨hfirst, htail⟩ := List.cons.inj h
      rw [hdescend pre htail, ← hfirst]
      rfl
    | nil =>
      -- the root itself, whose path has no name
      obtain ⟨hy, -⟩ := List.cons.inj h
      have hslash : beforeSlash ['/'] = beforeSlash (schemeAndPath cs).2 := by
        obtain ⟨more, hmore⟩ := List.head?_eq_some_iff.1 hroot
        rw [hmore, beforeSlash_slash, beforeSlash_slash]
      rw [← hy, spine_eq, schemeAndPath_scheme_append hslash]
      rfl
  · have hnil : root (schemeAndPath cs).1 (schemeAndPath cs).2 = [] := if_neg hroot
    rw [hnil] at h hdescend
    exact hdescend pre h

/-- What stands on the way to an id has the same way up to itself. -/
theorem chain_of_split {cs y : List Char} {pre post : List (List Char)}
    (h : chain cs = pre ++ y :: post) : chain y = pre ++ [y] := by
  have hspine : ∀ post', spine cs = pre ++ y :: post' → chain y = pre ++ [y] := by
    intro post' hs
    have hy := spine_of_split hs
    rw [chain, if_pos (by simp [hy]), hy]
  rcases List.eq_nil_or_concat post with rfl | ⟨post, last, rfl⟩
  · have hlast := getLast?_chain cs
    rw [h, List.getLast?_concat, Option.some.injEq] at hlast
    rw [hlast, ← hlast, ← h, hlast]
  · -- an id before the last one is on the spine in any case
    unfold chain at h
    split at h
    · exact hspine _ h
    · rw [List.concat_eq_append, ← List.cons_append, ← List.append_assoc] at h
      exact hspine post (List.append_inj_left' h rfl)

/-- What stands before an id on a chain, with the id itself, is the chain of that id. -/
theorem ancestors_of_split {x a : ResourceId} {above below : List ResourceId}
    (h : x.ancestors = above ++ a :: below) : a.ancestors = above ++ [a] := by
  unfold ancestors at h
  obtain ⟨pre, rest, hsplit, rfl, hrest⟩ := List.map_eq_append_iff.1 h
  obtain ⟨y, post, rfl, rfl, -⟩ := List.map_eq_cons_iff.1 hrest
  rw [ancestors, String.toList_ofList, chain_of_split hsplit, List.map_append]
  rfl

end PolicyGate.ResourceId
