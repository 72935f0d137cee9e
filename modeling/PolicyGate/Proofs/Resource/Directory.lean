import Mathlib.Data.List.Chain
import PolicyGate.Policy.Service
import PolicyGate.Proofs.Rule.Merge
import PolicyGate.Proofs.Rule.Name

/-!
What reaches a resource from the directories above it. Inner names of a chain are spelled with
single slashes, so a directory passes its rules on under that spelling. Main statements: the chain
of a directory starts the chain of everything below it (`spine_starts`), and the rules stored under
a directory reach what is below it exactly if no two slashes follow each other in its path
(`directory_reaches_below`).
-/

namespace PolicyGate

namespace Text

variable {sep : Char}

theorem splitChars_append (a b : List Char) :
    splitChars sep (a ++ sep :: b) = splitChars sep a ++ splitChars sep b := by
  induction a with
  | nil => simp [splitChars]
  | cons c cs ih =>
    rw [List.cons_append, splitChars, splitChars, ih]
    split
    · rfl
    · cases h : splitChars sep cs with
      | nil => exact absurd h (splitChars_ne_nil sep cs)
      | cons piece pieces => rfl

theorem not_mem_of_mem_splitChars {cs piece : List Char} (h : piece ∈ splitChars sep cs) :
    sep ∉ piece := by
  induction cs generalizing piece with
  | nil => simp_all [splitChars]
  | cons c cs ih =>
    rw [splitChars] at h
    split at h
    · rcases List.mem_cons.1 h with rfl | h
      · exact List.not_mem_nil
      · exact ih h
    · next hc =>
      cases hs : splitChars sep cs with
      | nil => exact absurd hs (splitChars_ne_nil sep cs)
      | cons first rest =>
        rw [hs] at h ih
        rcases List.mem_cons.1 h with rfl | h
        · exact fun hm => (List.mem_cons.1 hm).elim (fun e => hc e.symm)
            (ih List.mem_cons_self)
        · exact ih (List.mem_cons_of_mem _ h)

theorem splitOnceChars_append_right {cs before after : List Char}
    (h : splitOnceChars sep cs = some (before, after)) (more : List Char) :
    splitOnceChars sep (cs ++ more) = some (before, after ++ more) := by
  obtain ⟨rfl, hno⟩ := splitOnceChars_eq_some h
  rw [List.append_assoc, List.cons_append, splitOnceChars_append hno]

end Text

namespace ResourceId

/-! ## Paths -/

/-- The path with one slash in place of every run of slashes. -/
def collapse : List Char → List Char
  | [] => []
  | [c] => [c]
  | a :: b :: rest => if a = '/' ∧ b = '/' then collapse (b :: rest) else a :: collapse (b :: rest)

/-- No two slashes follow each other. -/
abbrev Single (path : List Char) : Prop := path.IsChain fun a b => ¬ (a = '/' ∧ b = '/')

/-- The names with a slash behind each. -/
def joined (names : List (List Char)) : List Char := names.flatMap fun name => name ++ ['/']

theorem length_collapse_le (path : List Char) : (collapse path).length ≤ path.length := by
  fun_induction collapse path with
  | case1 | case2 => exact Nat.le_refl _
  | case3 a b rest _ ih => exact Nat.le_succ_of_le ih
  | case4 a b rest _ ih => exact Nat.succ_le_succ ih

theorem collapse_of_single {path : List Char} (h : Single path) : collapse path = path := by
  fun_induction collapse path with
  | case1 | case2 => rfl
  | case3 a b rest hab => exact absurd hab (List.isChain_cons_cons.1 h).1
  | case4 a b rest _ ih => rw [ih (List.isChain_cons_cons.1 h).2]

theorem segments_slash (path : List Char) : segments ('/' :: path) = segments path := by
  simp [segments, Text.splitChars]

theorem segments_append_slash (a b : List Char) :
    segments (a ++ '/' :: b) = segments a ++ segments b := by
  simp [segments, Text.splitChars_append]

/-- Behind a slash the names of a path go on with those of the rest. -/
theorem segments_append {path : List Char} (h : path.getLast? = some '/') (more : List Char) :
    segments (path ++ more) = segments path ++ segments more := by
  obtain ⟨start, rfl⟩ := List.getLast?_eq_some_iff.1 h
  have hnil : segments [] = [] := rfl
  rw [List.append_assoc, List.singleton_append, segments_append_slash, segments_append_slash, hnil,
    List.append_nil]

theorem ne_nil_of_mem_segments {path name : List Char} (h : name ∈ segments path) :
    name ≠ [] ∧ '/' ∉ name := by
  obtain ⟨hm, hne⟩ := List.mem_filter.1 h
  exact ⟨by simpa using hne, Text.not_mem_of_mem_splitChars hm⟩

/-- Only slashes name nothing. -/
theorem eq_slash_of_segments {path : List Char} (h : segments path = []) :
    ∀ c ∈ path, c = '/' := by
  induction path with
  | nil => exact nofun
  | cons first rest ih =>
    by_cases hf : first = '/'
    · subst hf
      exact List.forall_mem_cons.2 ⟨rfl, ih (segments_slash rest ▸ h)⟩
    · rw [segments, Text.splitChars, if_neg hf] at h
      split at h <;> simp at h

theorem joined_segments_cons {a b : Char} (ha : a ≠ '/') (hb : b ≠ '/') (rest : List Char) :
    joined (segments (a :: b :: rest)) = a :: joined (segments (b :: rest)) := by
  cases h : Text.splitChars '/' rest with
  | nil => exact absurd h (Text.splitChars_ne_nil '/' rest)
  | cons piece pieces => simp [segments, joined, Text.splitChars, ha, hb, h]

/-- The path of a directory with single slashes is spelled by its names. -/
theorem collapse_directory {path : List Char} (h : path.getLast? = some '/') :
    collapse path = (if path.head? = some '/' then ['/'] else []) ++ joined (segments path) := by
  fun_induction collapse path with
  | case1 => cases h
  | case2 c =>
    cases h
    rfl
  | case3 a b rest hab ih =>
    obtain ⟨rfl, rfl⟩ := hab
    rw [List.getLast?_cons_cons] at h
    rw [ih h, segments_slash ('/' :: rest)]
    rfl
  | case4 a b rest hab ih =>
    rw [List.getLast?_cons_cons] at h
    rw [ih h]
    by_cases ha : a = '/'
    · subst ha
      have hb : b ≠ '/' := fun e => hab ⟨rfl, e⟩
      simp [segments_slash, hb]
    · by_cases hb : b = '/'
      · subst hb
        have hs : segments (a :: '/' :: rest) = segments [a] ++ segments rest :=
          segments_append_slash [a] rest
        have hone : segments [a] = [[a]] := by simp [segments, Text.splitChars, ha]
        simp [hs, hone, segments_slash, joined, ha]
      · simp [joined_segments_cons ha hb, ha, hb]

/-! ## The scheme of an id -/

/-- An id is its scheme with its path. -/
theorem scheme_append_path (cs : List Char) :
    (schemeAndPath cs).1 ++ (schemeAndPath cs).2 = cs := by
  unfold schemeAndPath
  split
  · next before after h =>
    obtain ⟨rfl, -⟩ := Text.splitOnceChars_eq_some h
    split <;> simp
  · rfl

/-- What is below a directory has its scheme, and goes on from its path. -/
theorem schemeAndPath_append {cs : List Char} (h : '/' ∈ cs) (more : List Char) :
    schemeAndPath (cs ++ more) = ((schemeAndPath cs).1, (schemeAndPath cs).2 ++ more) := by
  unfold schemeAndPath
  cases hs : Text.splitOnceChars ':' cs with
  | some cut =>
    obtain ⟨before, after⟩ := cut
    rw [Text.splitOnceChars_append_right hs]
    simp only
    split <;> rfl
  | none =>
    cases hm : Text.splitOnceChars ':' (cs ++ more) with
    | none => rfl
    | some cut =>
      obtain ⟨before, after⟩ := cut
      obtain ⟨he, -⟩ := Text.splitOnceChars_eq_some hm
      -- the colon stands behind the slash of the directory, so it ends no scheme
      have hpre : cs <+: before := by
        refine List.prefix_of_prefix_length_le ⟨more, he⟩ (List.prefix_append before _) ?_
        by_contra hlt
        have hcut : before ++ [':'] <+: cs ++ more := ⟨after, by rw [he]; simp⟩
        have hin : before ++ [':'] <+: cs := by
          refine List.prefix_of_prefix_length_le hcut (List.prefix_append _ _) ?_
          simp only [List.length_append, List.length_singleton]
          omega
        exact Text.splitOnceChars_eq_none_iff.1 hs (hin.subset (by simp))
      simp [hpre.subset h]

theorem getLast?_path {cs : List Char} (h : cs.getLast? = some '/') :
    (schemeAndPath cs).2.getLast? = some '/' := by
  unfold schemeAndPath
  split
  · next before after hs =>
    obtain ⟨rfl, -⟩ := Text.splitOnceChars_eq_some hs
    split
    · exact h
    · cases after with
      | nil => simp at h
      | cons c rest =>
        rw [List.getLast?_append] at h
        simpa [List.getLast?_cons_cons] using h
  · exact h

/-! ## Chains -/

/-- The root directory of an absolute path. -/
def root (scheme path : List Char) : List (List Char) :=
  if path.head? = some '/' then [scheme ++ ['/']] else []

/-- What stands before the first name of a path. -/
def start (scheme path : List Char) : List Char :=
  scheme ++ if path.head? = some '/' then ['/'] else []

theorem spine_eq (cs : List Char) : spine cs =
    root (schemeAndPath cs).1 (schemeAndPath cs).2 ++
      descend ((schemeAndPath cs).2.getLast? = some '/')
        (start (schemeAndPath cs).1 (schemeAndPath cs).2) (segments (schemeAndPath cs).2) := by
  unfold spine root start
  generalize schemeAndPath cs = parts
  by_cases h : parts.2.head? = some '/' <;> simp [h]

theorem descend_cons (dir name : List Char) (names : List (List Char)) :
    descend true dir (name :: names) =
      (dir ++ name ++ ['/']) :: descend true (dir ++ name ++ ['/']) names := by
  cases names <;> simp [descend]

/-- To go down a path is to go down its first part and on from there. -/
theorem descend_append {names : List (List Char)} (h : names ≠ []) (isDirectory : Bool)
    (dir : List Char) (above : List (List Char)) : descend isDirectory dir (above ++ names) =
      descend true dir above ++ descend isDirectory (dir ++ joined above) names := by
  induction above generalizing dir with
  | nil => simp [descend, joined]
  | cons name rest ih =>
    have hne : rest ++ names ≠ [] := by simp [h]
    rw [descend_cons, List.cons_append, List.cons_append]
    obtain ⟨next, more, hcons⟩ := List.exists_cons_of_ne_nil hne
    rw [hcons, descend, ← hcons]
    · simp [ih, joined]
    · simp

theorem getLast?_descend {names : List (List Char)} (h : names ≠ []) (dir : List Char) :
    (descend true dir names).getLast? = some (dir ++ joined names) := by
  induction names generalizing dir with
  | nil => exact absurd rfl h
  | cons name rest ih =>
    rw [descend_cons]
    cases rest with
    | nil => simp [descend, joined]
    | cons next more =>
      rw [List.getLast?_cons, ih (by simp)]
      simp [joined]

/-- The chain of a directory starts the chain of everything below it. -/
theorem spine_starts {cs : List Char} (h : cs.getLast? = some '/') (more : List Char) :
    spine cs <+: spine (cs ++ more) := by
  have hp := getLast?_path h
  rw [spine_eq, spine_eq, schemeAndPath_append (List.mem_of_getLast? h)]
  generalize schemeAndPath cs = parts at hp ⊢
  obtain ⟨scheme, path⟩ := parts
  have hhead : (path ++ more).head? = path.head? := by
    cases path with
    | nil => cases hp
    | cons c rest => rfl
  simp only [root, start, hhead, hp, decide_true, segments_append hp]
  by_cases hm : segments more = []
  · -- nothing but slashes: the chain spells the directory itself
    have hlast : (path ++ more).getLast? = some '/' := by
      rw [List.getLast?_append]
      cases hl : more.getLast? with
      | none => exact hp
      | some c => rw [eq_slash_of_segments hm c (List.mem_of_getLast? hl)]; rfl
    simp only [hm, List.append_nil, hlast, decide_true, List.prefix_rfl]
  · rw [descend_append hm, ← List.append_assoc]
    exact List.prefix_append _ _

/-- The chain that a directory spells ends with the directory under its spelling with single
slashes. -/
theorem getLast?_spine {cs : List Char} (h : cs.getLast? = some '/') :
    (spine cs).getLast? = some ((schemeAndPath cs).1 ++ collapse (schemeAndPath cs).2) := by
  have hp := getLast?_path h
  rw [spine_eq]
  generalize schemeAndPath cs = parts at hp ⊢
  obtain ⟨scheme, path⟩ := parts
  simp only [collapse_directory hp, hp, decide_true]
  cases hs : segments path with
  | nil =>
    have hhead : path.head? = some '/' := by
      cases path with
      | nil => cases hp
      | cons c rest => rw [eq_slash_of_segments hs c List.mem_cons_self]; rfl
    simp [root, hhead, descend, joined]
  | cons name names => simp [getLast?_descend, start]

theorem single_append_name {path name : List Char} (hp : Single path)
    (hn : name ≠ [] ∧ '/' ∉ name) : Single (path ++ name) ∧ Single (path ++ name ++ ['/']) := by
  have hname : Single name := by
    refine List.Pairwise.isChain (List.pairwise_of_forall_mem_list fun a ha b _ hab => ?_)
    exact hn.2 (hab.1 ▸ ha)
  have hboth : Single (path ++ name) := by
    refine List.isChain_append.2 ⟨hp, hname, fun a _ b hb hab => ?_⟩
    exact hn.2 (hab.2 ▸ List.mem_of_head? hb)
  refine ⟨hboth, List.isChain_append.2 ⟨hboth, .singleton _, fun a ha b _ hab => ?_⟩⟩
  obtain ⟨c, hc⟩ := List.getLast?_isSome.2 hn.1 |> Option.isSome_iff_exists.1
  rw [List.getLast?_append, hc] at ha
  cases ha
  exact hn.2 (hab.1 ▸ List.mem_of_getLast? hc)

/-- Single slashes stay single on the way down. -/
theorem single_of_mem_descend {isDirectory : Bool} {scheme path x : List Char}
    {names : List (List Char)} (hn : ∀ name ∈ names, name ≠ [] ∧ '/' ∉ name) (hp : Single path)
    (hx : x ∈ descend isDirectory (scheme ++ path) names) :
    ∃ path, x = scheme ++ path ∧ Single path := by
  induction names generalizing path with
  | nil => cases hx
  | cons name rest ih =>
    obtain ⟨hone, hslash⟩ := single_append_name hp (hn name List.mem_cons_self)
    cases rest with
    | nil =>
      rw [List.mem_singleton.1 hx]
      cases isDirectory with
      | true => exact ⟨_, by simp, hslash⟩
      | false => exact ⟨_, by simp, hone⟩
    | cons next more =>
      rw [descend] at hx
      · rcases List.mem_cons.1 hx with rfl | hx
        · exact ⟨_, by simp, hslash⟩
        · refine ih (fun name hm => hn name (List.mem_cons_of_mem _ hm)) hslash ?_
          simpa using hx
      · simp

/-- What an id spells out has its scheme, and single slashes in its path. -/
theorem single_of_mem_spine {cs x : List Char} (h : x ∈ spine cs) :
    ∃ path, x = (schemeAndPath cs).1 ++ path ∧ Single path := by
  rw [spine_eq] at h
  rcases List.mem_append.1 h with h | h
  · unfold root at h
    split at h
    · exact ⟨['/'], List.mem_singleton.1 h, .singleton _⟩
    · cases h
  · refine single_of_mem_descend (fun _ => ne_nil_of_mem_segments) ?_ h
    split
    · exact .singleton _
    · exact .nil

theorem dropLast_chain_subset (cs : List Char) : (chain cs).dropLast ⊆ spine cs := by
  unfold chain
  split
  · exact List.dropLast_subset _
  · rw [List.dropLast_concat]
    exact fun _ h => h

/-- The chain of a directory stands before what is below it. -/
theorem spine_starts_above {cs more : List Char} (h : cs.getLast? = some '/')
    (hm : more ≠ []) : spine cs <+: (chain (cs ++ more)).dropLast := by
  have hpre : spine cs <+: chain (cs ++ more) := by
    unfold chain
    split
    · exact spine_starts h more
    · exact (spine_starts h more).trans (List.prefix_append _ _)
  obtain ⟨rest, hr⟩ := hpre
  have hne : rest ≠ [] := by
    rintro rfl
    rw [List.append_nil] at hr
    have hlast := getLast?_chain (cs ++ more)
    rw [← hr, getLast?_spine h, Option.some.injEq] at hlast
    -- what is below the directory is longer than any spelling of it
    have hlen := congrArg List.length hlast
    have hle := length_collapse_le (schemeAndPath cs).2
    have hcs := congrArg List.length (scheme_append_path cs)
    have hpos := List.length_pos_iff.2 hm
    simp only [List.length_append] at hlen hcs
    omega
  rw [← hr, List.dropLast_append_of_ne_nil hne]
  exact List.prefix_append _ _

/-- A directory is on the way to what is below it just if no two of its slashes follow each other.
-/
theorem mem_dropLast_chain_iff {cs more : List Char} (h : cs.getLast? = some '/')
    (hm : more ≠ []) : cs ∈ (chain (cs ++ more)).dropLast ↔ Single (schemeAndPath cs).2 := by
  constructor
  · intro hin
    obtain ⟨path, hx, hp⟩ := single_of_mem_spine (dropLast_chain_subset _ hin)
    rw [schemeAndPath_append (List.mem_of_getLast? h)] at hx
    rwa [List.append_cancel_left ((scheme_append_path cs).trans hx)]
  · intro hp
    refine (spine_starts_above h hm).subset (List.mem_of_getLast? ?_)
    rw [getLast?_spine h, collapse_of_single hp, scheme_append_path]

/-! ## Ids -/

/-- The id with single slashes in its path. -/
def collapsed (id : ResourceId) : ResourceId :=
  ⟨String.ofList ((schemeAndPath id.text.toList).1 ++ collapse (schemeAndPath id.text.toList).2)⟩

/-- Whether no two slashes follow each other in the path of an id. -/
def IsPlain (id : ResourceId) : Prop := Single (schemeAndPath id.text.toList).2

instance : DecidablePred IsPlain := fun id =>
  inferInstanceAs (Decidable (Single (schemeAndPath id.text.toList).2))

/-- Whether an id is spelled as a directory. -/
def IsDirectory (id : ResourceId) : Prop := id.text.toList.getLast? = some '/'

instance : DecidablePred IsDirectory := fun id =>
  inferInstanceAs (Decidable (id.text.toList.getLast? = some '/'))

/-- Whether an id is that of a directory with something behind it. -/
def IsBelow (id directory : ResourceId) : Prop := ∃ name ≠ "", id.text = directory.text ++ name

variable {d c : ResourceId}

theorem dropLast_ancestors (id : ResourceId) :
    id.ancestors.dropLast = (chain id.text.toList).dropLast.map fun cs => ⟨String.ofList cs⟩ := by
  rw [ancestors, List.map_dropLast]

theorem collapsed_mem_ancestors (hd : d.IsDirectory) (hc : c.IsBelow d) :
    d.collapsed ∈ c.ancestors.dropLast := by
  obtain ⟨name, hne, hc⟩ := hc
  have hname : name.toList ≠ [] := by simpa using hne
  have hpre := spine_starts_above hd hname
  rw [dropLast_ancestors, hc, String.toList_append]
  exact List.mem_map_of_mem (hpre.subset (List.mem_of_getLast? (getLast?_spine hd)))

/-- A directory is an ancestor of what is below it just if it is plain. -/
theorem mem_ancestors_iff (hd : d.IsDirectory) (hc : c.IsBelow d) :
    d ∈ c.ancestors.dropLast ↔ d.IsPlain := by
  obtain ⟨name, hne, hc⟩ := hc
  have hname : name.toList ≠ [] := by simpa using hne
  rw [dropLast_ancestors, hc, String.toList_append, IsPlain,
    ← mem_dropLast_chain_iff hd hname, List.mem_map]
  constructor
  · rintro ⟨cs, hcs, rfl⟩
    simpa using hcs
  · exact fun h => ⟨_, h, by simp⟩

end ResourceId

namespace Declarations

variable {kind : RuleKind} {declared : Declarations kind} {node id : ResourceId}

/-- Whatever set is stored under a node takes part in the rules in force for an id, between those
of the levels above and below it. -/
def Reaches (declared : Declarations kind) (node id : ResourceId)
    (inForce : Option (RuleSet kind)) : Prop :=
  ∀ set, declared.get? node.text = some set → ∃ above below merged,
    declared.levels id = above ++ set :: below ∧ inForce = some merged ∧ set.TakesPart below merged

theorem reaches_of_mem (h : node ∈ id.ancestors) :
    declared.Reaches node id (declared.lookup id) := by
  intro set hs
  obtain ⟨before, behind, hsplit⟩ := List.append_of_mem h
  have hlevels : declared.levels id = before.filterMap (fun node => declared.get? node.text) ++
      set :: behind.filterMap fun node => declared.get? node.text := by
    rw [levels, hsplit, List.filterMap_append, List.filterMap_cons, hs]
  obtain ⟨merged, hm, ht⟩ := RuleSet.mergeHierarchy_takesPart _ set _
  exact ⟨_, _, merged, hlevels, by rw [lookup, hlevels, hm], ht⟩

end Declarations

namespace ResourceId

/-- A directory without repeated slashes in its path stands on the chain of everything below it,
before the id itself, and the rules stored under it take part in those in force there. A directory
with repeated slashes is not on these chains; under its spelling with single slashes it is. -/
theorem directory_reaches_below {d c : ResourceId} (hd : d.IsDirectory) (hc : c.IsBelow d) :
    c.ancestors.getLast? = some c ∧
    (d.IsPlain → d ∈ c.ancestors.dropLast ∧ ∀ (catalog : Catalog) (table : PolicyTable),
      table.resource.Reaches d c ((PolicyService.declared catalog table).resourceRules? c) ∧
      table.record.Reaches d c ((PolicyService.declared catalog table).recordRules? c)) ∧
    (¬ d.IsPlain → d ∉ c.ancestors) ∧ d.collapsed ∈ c.ancestors.dropLast := by
  refine ⟨getLast?_ancestors c, fun hp => ?_, fun hp hm => hp ?_, collapsed_mem_ancestors hd hc⟩
  · have hm := (mem_ancestors_iff hd hc).2 hp
    have hin := List.dropLast_subset _ hm
    exact ⟨hm, fun _ _ => ⟨Declarations.reaches_of_mem hin, Declarations.reaches_of_mem hin⟩⟩
  · rw [← mem_ancestors_iff hd hc]
    have hsplit := List.dropLast_append_getLast? c (getLast?_ancestors c)
    rw [← hsplit] at hm
    refine (List.mem_append.1 hm).resolve_right fun hself => ?_
    -- the id is longer than the directory that it is below
    obtain ⟨name, hne, ht⟩ := hc
    rw [List.mem_singleton.1 hself] at ht
    have hlen := congrArg String.length ht
    rw [String.length_append] at hlen
    exact hne (String.length_eq_zero_iff.1 (by omega))

/-- The lock of a bucket is in force below it, also where the id goes on with more slashes. -/
theorem directory_reaches_below_bucket : ∃ merged,
    (PolicyService.declared .builtins ⟨(∅ : Declarations .resource).declare ⟨"s3:/bucket/"⟩
      ⟨"locked", .ofList [("lock", "deny_all")]⟩, ∅⟩).resourceRules? ⟨"s3:/bucket///x"⟩ =
      some merged ∧ "lock" ∈ merged.rules.ids := by
  have hd : (⟨"s3:/bucket/"⟩ : ResourceId).IsDirectory := by decide
  have hc : (⟨"s3:/bucket///x"⟩ : ResourceId).IsBelow ⟨"s3:/bucket/"⟩ :=
    ⟨"//x", by decide, by decide⟩
  have hs : ((∅ : Declarations .resource).declare ⟨"s3:/bucket/"⟩
      ⟨"locked", .ofList [("lock", "deny_all")]⟩).get? "s3:/bucket/" =
      some ⟨"locked", .ofList [("lock", "deny_all")]⟩ := by decide
  obtain ⟨-, hreach⟩ := (directory_reaches_below hd hc).2.1 (by decide)
  obtain ⟨_, _, merged, -, hm, ht⟩ := (hreach .builtins ⟨_, ∅⟩).1 _ hs
  exact ⟨merged, hm, ht.declared "lock" (by decide)⟩

/-- A lock on a directory of a host does not reach what is below it. -/
theorem directory_with_repeated_slash :
    (⟨"hdfs://nn/data/"⟩ : ResourceId).IsDirectory ∧
    (⟨"hdfs://nn/data/x.csv"⟩ : ResourceId).IsBelow ⟨"hdfs://nn/data/"⟩ ∧
    ⟨"hdfs://nn/data/"⟩ ∉ (⟨"hdfs://nn/data/x.csv"⟩ : ResourceId).ancestors ∧
    (PolicyService.declared .builtins ⟨(∅ : Declarations .resource).declare ⟨"hdfs://nn/data/"⟩
      ⟨"locked", .ofList [("lock", "deny_all")]⟩, ∅⟩).resourceRules? ⟨"hdfs://nn/data/x.csv"⟩ =
      none := by
  refine ⟨by decide, ⟨"x.csv", by decide, by decide⟩, by decide, by decide⟩

end ResourceId

end PolicyGate
