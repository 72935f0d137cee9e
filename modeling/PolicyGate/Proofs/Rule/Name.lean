import PolicyGate.Rule.Apply

/-!
Rule names and the rules behind them. A name is read as a base with an optional argument behind its
first colon. Main statements: compiling a rule set succeeds exactly if all its names resolve
(`compile_eq_ok_iff`), and the built-in rules for resources keep an item exactly if user and context
satisfy every name (`runAll_builtins`).
-/

namespace PolicyGate

/-- How a rule name is read: its base and, behind the first colon, its argument, both trimmed. -/
inductive RuleName : String → String → Option String → Prop
  | bare {base : String} : ':' ∉ base.toList → RuleName base (Text.trim base) none
  | applied {base argument : String} : ':' ∉ base.toList →
    RuleName (base ++ ":" ++ argument) (Text.trim base) (some (Text.trim argument))

/-- A built-in rule for resources that user and context satisfy. -/
inductive Permits (user : User) (context : Context) (name : String) : Prop
  | passThrough : RuleName name "pass_through" none → Permits user context name
  | requireRole {role : String} : RuleName name "require_role" (some role) → user.hasRole role →
    Permits user context name
  | requirePurpose {purpose : String} : RuleName name "require_purpose" (some purpose) →
    context.get? "purpose" = some purpose → Permits user context name

theorem Text.splitOnceChars_append {sep : Char} {before : List Char} (h : sep ∉ before)
    (after : List Char) : splitOnceChars sep (before ++ sep :: after) = some (before, after) := by
  induction before with
  | nil => simp [splitOnceChars]
  | cons c rest ih =>
    rw [List.mem_cons, not_or] at h
    simp [splitOnceChars, Ne.symm h.1, ih h.2]

/-- Splitting a name inverts its spelling. -/
theorem splitRuleName_eq_iff {name base : String} {argument : Option String} :
    splitRuleName name = (base, argument) ↔ RuleName name base argument := by
  constructor
  · intro h
    unfold splitRuleName Text.splitOnce at h
    cases hs : Text.splitOnceChars ':' name.toList with
    | none =>
      rw [hs] at h
      cases h
      exact .bare (Text.splitOnceChars_eq_none_iff.1 hs)
    | some parts =>
      obtain ⟨before, after⟩ := parts
      rw [hs] at h
      cases h
      obtain ⟨hn, hb⟩ := Text.splitOnceChars_eq_some hs
      have : name = String.ofList before ++ ":" ++ String.ofList after := by
        apply String.toList_injective
        simp [hn]
      rw [this]
      exact .applied (by simpa using hb)
  · intro h
    unfold splitRuleName Text.splitOnce
    cases h with
    | bare hb => simp [Text.splitOnceChars_eq_none_iff.2 hb]
    | applied hb => simp [Text.splitOnceChars_append hb]

/-- A name is read in one way. -/
theorem RuleName.unique {name base base' : String} {argument argument' : Option String}
    (h : RuleName name base argument) (h' : RuleName name base' argument') :
    base = base' ∧ argument = argument' :=
  Prod.mk.inj ((splitRuleName_eq_iff.2 h).symm.trans (splitRuleName_eq_iff.2 h'))

/-- The names of the rules of a set. -/
def RuleSet.names {kind : RuleKind} (set : RuleSet kind) : List String :=
  set.rules.toList.map Prod.snd

namespace RuleMap

theorem mem_insertEntry {id name : String} {entries : List (String × String)}
    {entry : String × String} (h : entry ∈ insertEntry id name entries) :
    entry = (id, name) ∨ entry ∈ entries := by
  induction entries with
  | nil => exact .inl (List.mem_singleton.1 h)
  | cons first rest ih =>
    rw [insertEntry] at h
    split at h
    · exact (List.mem_cons.1 h).imp_right (List.mem_cons_of_mem _)
    · rcases List.mem_cons.1 h with rfl | h
      · exact .inr List.mem_cons_self
      · exact (ih h).imp_right (List.mem_cons_of_mem _)

theorem mem_extend {m other : RuleMap} {entry : String × String}
    (h : entry ∈ (m.extend other).toList) : entry ∈ m.toList ∨ entry ∈ other.toList := by
  unfold extend insertMany at h
  unfold toList at h ⊢
  generalize other.entries = entries at h ⊢
  induction entries generalizing m with
  | nil => exact .inl h
  | cons first rest ih =>
    rcases ih h with h | h
    · rcases mem_insertEntry h with rfl | h
      · exact .inr List.mem_cons_self
      · exact .inl h
    · exact .inr (List.mem_cons_of_mem _ h)

end RuleMap

/-- A merge brings in no names of its own. -/
theorem RuleSet.exists_of_mem_names {kind : RuleKind} {sets : List (RuleSet kind)}
    {set : RuleSet kind} {name : String} (h : mergeHierarchy sets = some set)
    (hn : name ∈ set.names) : ∃ level ∈ sets, name ∈ level.names := by
  cases sets with
  | nil => cases h
  | cons first rest =>
    cases h
    induction rest generalizing first with
    | nil => exact ⟨first, List.mem_singleton_self _, hn⟩
    | cons next rest ih =>
      obtain ⟨level, hl, hn⟩ := ih (first.merge next) hn
      rcases List.mem_cons.1 hl with rfl | hl
      · obtain ⟨entry, he, rfl⟩ := List.mem_map.1 hn
        rcases RuleMap.mem_extend he with he | he
        · exact ⟨first, List.mem_cons_self, List.mem_map_of_mem he⟩
        · exact ⟨next, by simp, List.mem_map_of_mem he⟩
      · exact ⟨level, by simp [hl], hn⟩

namespace Registry

variable {α : Type} {r : Registry α} {kind : RuleKind}

/-- Whether a name stands for a rule. -/
def Resolves (r : Registry α) (name : String) : Prop := ∃ rule, r.resolve name = .ok rule

/-- The rules of a set resolve just if all of their names do. -/
theorem resolveAll_eq_ok_iff {entries : List (String × String)} :
    (∃ rules, r.resolveAll entries = .ok rules) ↔ ∀ entry ∈ entries, r.Resolves entry.2 := by
  induction entries with
  | nil => simp [resolveAll]
  | cons entry rest ih =>
    obtain ⟨id, name⟩ := entry
    rw [List.forall_mem_cons, ← ih]
    constructor
    · rintro ⟨rules, h⟩
      rw [resolveAll] at h
      split at h
      · cases h
      · next hr =>
        cases ht : r.resolveAll rest with
        | error => rw [ht] at h; cases h
        | ok tail => exact ⟨⟨_, hr⟩, tail, rfl⟩
    · rintro ⟨⟨rule, hr⟩, tail, ht⟩
      exact ⟨(id, rule) :: tail, by simp [resolveAll, hr, ht, Except.map]⟩

theorem compile_eq_ok_iff {set : RuleSet kind} :
    (∃ compiled, r.compile set = .ok compiled) ↔ ∀ name ∈ set.names, r.Resolves name := by
  have h : (∀ name ∈ set.names, r.Resolves name) ↔
      ∃ rules, r.resolveAll set.rules.toList = .ok rules := by
    rw [resolveAll_eq_ok_iff, RuleSet.names, List.forall_mem_map]
  rw [h, compile]
  cases r.resolveAll set.rules.toList <;> simp [Except.map]

/-- A name resolves by the new factory, or as it did before. -/
theorem resolve_register {base name : String} {factory : RuleFactory α} {rule : Rule α}
    (h : (r.register base factory).resolve name = .ok rule) :
    (∃ argument, RuleName name base argument ∧ factory argument = .ok rule) ∨
      r.resolve name = .ok rule := by
  simp only [resolve, register, SortedMap.get?_insert] at h
  split at h
  · next hf =>
    split at hf
    · next hb =>
      cases hf
      exact .inl ⟨_, splitRuleName_eq_iff.1 (Prod.ext hb rfl), h⟩
    · next hb => exact .inr (by simp only [resolve, hf, h])
  · cases h

theorem resolve_registerInstance {base name : String} {rule rule' : Rule α}
    (h : (r.registerInstance base rule').resolve name = .ok rule) :
    RuleName name base none ∧ rule = rule' ∨ r.resolve name = .ok rule := by
  refine (resolve_register h).imp_left fun ⟨argument, hn, hf⟩ => ?_
  cases argument with
  | none => cases hf; exact ⟨hn, rfl⟩
  | some _ => cases hf

theorem resolve_registerWithArgument {base name : String} {rule : Rule α} {build : String → Rule α}
    (h : (r.registerWithArgument base build).resolve name = .ok rule) :
    (∃ argument, RuleName name base (some argument) ∧ rule = build argument) ∨
      r.resolve name = .ok rule := by
  refine (resolve_register h).imp_left fun ⟨argument, hn, hf⟩ => ?_
  cases argument with
  | none => cases hf
  | some argument =>
    simp only at hf
    split at hf
    · cases hf
    · cases hf; exact ⟨argument, hn, rfl⟩

/-- A built-in rule for items of every kind is a guard, and a name that denies permits nothing. -/
theorem resolve_builtins {name : String} {rule : Rule α}
    (h : (builtins : Registry α).resolve name = .ok rule) :
    ∃ guard, rule = .ofGuard guard ∧
      ∀ user context, guard user context = true ↔ Permits user context name := by
  rcases resolve_registerWithArgument h with ⟨purpose, hn, rfl⟩ | h
  · refine ⟨_, rfl, fun user context => ?_⟩
    rw [decide_eq_true_eq]
    constructor
    · exact .requirePurpose hn
    · rintro (hp | ⟨hp, _⟩ | ⟨hp, hc⟩)
      · cases (hn.unique hp).2
      · exact absurd (hn.unique hp).1 (by decide)
      · cases (hn.unique hp).2; exact hc
  rcases resolve_registerWithArgument h with ⟨role, hn, rfl⟩ | h
  · refine ⟨_, rfl, fun user context => ⟨.requireRole hn, ?_⟩⟩
    rintro (hp | ⟨hp, hr⟩ | ⟨hp, _⟩)
    · cases (hn.unique hp).2
    · cases (hn.unique hp).2; exact hr
    · exact absurd (hn.unique hp).1 (by decide)
  rcases resolve_registerInstance h with ⟨hn, rfl⟩ | h
  · refine ⟨_, rfl, fun user context => ⟨nofun, ?_⟩⟩
    rintro (hp | ⟨hp, _⟩ | ⟨hp, _⟩) <;> exact absurd (hn.unique hp).1 (by decide)
  rcases resolve_registerInstance h with ⟨hn, rfl⟩ | h
  · exact ⟨_, rfl, fun user context => ⟨fun _ => .passThrough hn, fun _ => rfl⟩⟩
  · cases h

/-- Resolved built-in rules keep an item as it is if they permit it, and drop it otherwise. -/
theorem runAll_builtins {entries : List (String × String)} {rules : List (String × Rule α)}
    (h : (builtins : Registry α).resolveAll entries = .ok rules) (item : α) (user : User)
    (context : Context) :
    CompiledRules.runAll item user context rules = .ok (some item) ∧
        (∀ entry ∈ entries, Permits user context entry.2) ∨
      CompiledRules.runAll item user context rules = .ok none ∧
        ∃ entry ∈ entries, ¬ Permits user context entry.2 := by
  induction entries generalizing rules with
  | nil =>
    cases h
    exact .inl ⟨rfl, nofun⟩
  | cons entry rest ih =>
    rw [resolveAll] at h
    split at h
    · cases h
    · next rule hr =>
      cases ht : (builtins : Registry α).resolveAll rest with
      | error => rw [ht] at h; cases h
      | ok tail =>
        rw [ht] at h
        cases h
        obtain ⟨guard, rfl, hg⟩ := resolve_builtins hr
        cases hp : guard user context with
        | true =>
          rcases ih ht with ⟨hk, hall⟩ | ⟨hd, e, he, hno⟩
          · refine .inl ⟨?_, List.forall_mem_cons.2 ⟨(hg ..).1 hp, hall⟩⟩
            simpa [CompiledRules.runAll, Rule.ofGuard, hp] using hk
          · refine .inr ⟨?_, e, List.mem_cons_of_mem _ he, hno⟩
            simpa [CompiledRules.runAll, Rule.ofGuard, hp] using hd
        | false =>
          refine .inr ⟨by simp [CompiledRules.runAll, Rule.ofGuard, hp], entry,
            List.mem_cons_self, fun h => ?_⟩
          rw [(hg ..).2 h] at hp
          cases hp

end Registry

end PolicyGate
