import PolicyGate.Proofs.Rule.Name
import PolicyGate.Proofs.Sorted.Map

/-!
The built-in rules for records. Each masks a field, redacts one, or lets records pass by user and
context alone. Main statements: a record comes out if user and context are admitted by every name
(`runAll_recordBuiltins`), and then each field shows what the names together leave of it, whatever
their order (`get?_alterAll`).
-/

namespace PolicyGate

instance (name base : String) (argument : Option String) :
    Decidable (RuleName name base argument) :=
  decidable_of_iff _ splitRuleName_eq_iff

/-- The rule masks this field. -/
abbrev Masks (name field : String) : Prop := RuleName name "mask_field" (some field)

/-- The rule redacts this field. -/
abbrev Redacts (name field : String) : Prop := RuleName name "redact_field" (some field)

/-- User and context get records past the rule. -/
def Admits (user : User) (context : Context) (name : String) : Prop :=
  (∃ field, Masks name field) ∨ (∃ field, Redacts name field) ∨ Permits user context name

namespace Record

/-- What a rule makes of a record that it lets pass. -/
def alter (record : Record) (name : String) : Record :=
  match splitRuleName name with
  | ("mask_field", some field) =>
    if record.contains field then record.set field .null else record
  | ("redact_field", some field) => record.remove field
  | _ => record

/-- What rules make of a record that they all let pass. -/
def alterAll (record : Record) (names : List String) : Record := names.foldl alter record

/-- What rules leave of a field: nothing if one of them redacts it, null in its place if one of them
masks it. -/
def shown (record : Record) (names : List String) (field : String) : Option Json :=
  if ∃ name ∈ names, Redacts name field then none
  else if ∃ name ∈ names, Masks name field then (record.get? field).map fun _ => .null
  else record.get? field

variable {record record' : Record}

theorem eq_of_get? (h : ∀ field, record.get? field = record'.get? field) : record = record' := by
  cases record
  cases record'
  exact congrArg Record.mk (SortedMap.eq_of_get? h)

/-- Masking a field puts null in the place of its value, if it has one. -/
theorem get?_masked (record : Record) (masked field : String) :
    (if record.contains masked then record.set masked .null else record).get? field =
      if field = masked then (record.get? field).map fun _ => .null else record.get? field := by
  split
  · next hc =>
    rw [get?_set]
    split
    · next hf =>
      obtain ⟨value, hv⟩ := Option.isSome_iff_exists.1 hc
      rw [hf, get?, hv, Option.map_some]
    · rfl
  · next hc =>
    split
    · next hf =>
      rw [hf, get?, Option.not_isSome_iff_eq_none.1 hc, Option.map_none]
    · rfl

theorem alter_of_masks {name field : String} (h : Masks name field) :
    record.alter name = if record.contains field then record.set field .null else record := by
  simp [alter, splitRuleName_eq_iff.2 h]

theorem alter_of_redacts {name field : String} (h : Redacts name field) :
    record.alter name = record.remove field := by
  simp [alter, splitRuleName_eq_iff.2 h]

theorem alter_of_not {name : String} (hm : ∀ field, ¬ Masks name field)
    (hr : ∀ field, ¬ Redacts name field) : record.alter name = record := by
  unfold alter
  split
  · next h => exact absurd (splitRuleName_eq_iff.1 h) (hm _)
  · next h => exact absurd (splitRuleName_eq_iff.1 h) (hr _)
  · rfl

/-- What a rule leaves of a field is what it shows of it. -/
theorem get?_alter (record : Record) (name field : String) :
    (record.alter name).get? field = record.shown [name] field := by
  simp only [shown, List.mem_singleton, exists_eq_left]
  -- a name has one reading: masking, redacting, or neither
  by_cases hm : ∃ masked, Masks name masked
  · obtain ⟨masked, hm⟩ := hm
    have hr : ¬ Redacts name field := fun h => absurd (hm.unique h).1 (by decide)
    have hiff : field = masked ↔ Masks name field :=
      ⟨fun h => h ▸ hm, fun h => Option.some.inj (h.unique hm).2⟩
    rw [alter_of_masks hm, get?_masked, if_neg hr]
    simp only [hiff]
  · rw [not_exists] at hm
    rw [if_neg (hm field)]
    by_cases hr : ∃ redacted, Redacts name redacted
    · obtain ⟨redacted, hr⟩ := hr
      rw [alter_of_redacts hr, get?_remove]
      have hiff : field = redacted ↔ Redacts name field :=
        ⟨fun h => h ▸ hr, fun h => Option.some.inj (h.unique hr).2⟩
      simp only [hiff]
    · rw [not_exists] at hr
      rw [alter_of_not hm hr, if_neg (hr field)]

/-- Each field shows what the rules together leave of it. -/
theorem get?_alterAll (record : Record) (names : List String) (field : String) :
    (record.alterAll names).get? field = record.shown names field := by
  induction names generalizing record with
  | nil => simp [alterAll, shown]
  | cons name rest ih =>
    rw [alterAll, List.foldl_cons, ← alterAll, ih]
    have hnull : (fun _ : Json => Json.null) ∘ (fun _ : Json => Json.null) = fun _ => .null := rfl
    simp only [shown, get?_alter, List.mem_cons, exists_eq_or_imp]
    by_cases hr : Redacts name field <;> by_cases hm : Masks name field <;> simp [hr, hm, hnull]

/-- The order of the rules does not matter, nor how often one occurs. -/
theorem alterAll_congr {names names' : List String} (h : ∀ name, name ∈ names ↔ name ∈ names') :
    record.alterAll names = record.alterAll names' :=
  eq_of_get? fun field => by simp only [get?_alterAll, shown, h]

end Record

namespace Registry

theorem resolve_of_base {α : Type} {r : Registry α} {name base : String}
    {argument : Option String} {rule : Rule α} (h : r.resolve name = .ok rule)
    (hn : RuleName name base argument) : r.factories.get? base ≠ none := by
  intro hb
  simp [resolve, splitRuleName_eq_iff.2 hn, hb] at h

/-- A built-in rule for records makes of a record what its name says if user and context are
admitted, and drops it otherwise. -/
theorem run_recordBuiltins {name : String} {rule : Rule Record}
    (h : recordBuiltins.resolve name = .ok rule) (record : Record) (user : User)
    (context : Context) :
    rule.run record user context = .ok (some (record.alter name)) ∧ Admits user context name ∨
      rule.run record user context = .ok none ∧ ¬ Admits user context name := by
  rcases resolve_registerWithArgument h with ⟨field, hn, rfl⟩ | h
  · refine .inl ⟨?_, .inr (.inl ⟨field, hn⟩)⟩
    rw [Record.alter_of_redacts hn]
    rfl
  rcases resolve_registerWithArgument h with ⟨field, hn, rfl⟩ | h
  · refine .inl ⟨?_, .inl ⟨field, hn⟩⟩
    rw [Record.alter_of_masks hn]
    rfl
  have hm : ∀ field, ¬ Masks name field := fun field hn => resolve_of_base h hn rfl
  have hr : ∀ field, ¬ Redacts name field := fun field hn => resolve_of_base h hn rfl
  obtain ⟨guard, rfl, hg⟩ := resolve_builtins h
  rw [Record.alter_of_not hm hr]
  cases hp : guard user context with
  | true => exact .inl ⟨by simp [Rule.ofGuard, hp], .inr (.inr ((hg ..).1 hp))⟩
  | false =>
    refine .inr ⟨by simp [Rule.ofGuard, hp], ?_⟩
    rintro (⟨field, hn⟩ | ⟨field, hn⟩ | hn)
    · exact hm field hn
    · exact hr field hn
    · rw [(hg ..).2 hn] at hp
      cases hp

/-- Resolved built-in rules make of a record what their names say if user and context are admitted
by each, and drop it otherwise. -/
theorem runAll_recordBuiltins {entries : List (String × String)}
    {rules : List (String × Rule Record)} (h : recordBuiltins.resolveAll entries = .ok rules)
    (record : Record) (user : User) (context : Context) :
    CompiledRules.runAll record user context rules =
          .ok (some (record.alterAll (entries.map Prod.snd))) ∧
        (∀ entry ∈ entries, Admits user context entry.2) ∨
      CompiledRules.runAll record user context rules = .ok none ∧
        ∃ entry ∈ entries, ¬ Admits user context entry.2 := by
  induction entries generalizing rules record with
  | nil =>
    cases h
    exact .inl ⟨rfl, nofun⟩
  | cons entry rest ih =>
    rw [resolveAll] at h
    split at h
    · cases h
    · next rule hr =>
      cases ht : recordBuiltins.resolveAll rest with
      | error => rw [ht] at h; cases h
      | ok tail =>
        rw [ht] at h
        cases h
        rcases run_recordBuiltins hr record user context with ⟨hrun, ha⟩ | ⟨hrun, ha⟩
        · rcases ih ht (record.alter entry.2) with ⟨hk, hall⟩ | ⟨hd, e, he, hno⟩
          · exact .inl ⟨by rw [CompiledRules.runAll, hrun]; exact hk,
              List.forall_mem_cons.2 ⟨ha, hall⟩⟩
          · exact .inr ⟨by rw [CompiledRules.runAll, hrun]; exact hd, e,
              List.mem_cons_of_mem _ he, hno⟩
        · exact .inr ⟨by rw [CompiledRules.runAll, hrun], entry, List.mem_cons_self, ha⟩

variable {set set' : RecordRules} {compiled compiled' : CompiledRules Record}
  {record record' : Record}

/-- Compiled built-in rules never fail: they make of a record what the names of their set say, or
drop it where user and context are not admitted by each. -/
theorem apply_recordBuiltins (h : recordBuiltins.compile set = .ok compiled) (record : Record)
    (user : User) (context : Context) :
    CompiledRules.apply (some compiled) record user context =
          .ok (some (record.alterAll set.names)) ∧
        (∀ name ∈ set.names, Admits user context name) ∨
      CompiledRules.apply (some compiled) record user context = .ok none ∧
        ∃ name ∈ set.names, ¬ Admits user context name := by
  unfold compile at h
  cases hr : recordBuiltins.resolveAll set.rules.toList with
  | error => rw [hr] at h; cases h
  | ok rules =>
    rw [hr] at h
    cases h
    exact (runAll_recordBuiltins hr record user context).imp
      (fun ⟨hk, hall⟩ => ⟨hk, List.forall_mem_map.2 hall⟩)
      (fun ⟨hd, entry, he, hno⟩ => ⟨hd, _, List.mem_map_of_mem he, hno⟩)

/-- Compiled built-in rules give a result for every record. -/
theorem total_recordBuiltins (h : recordBuiltins.compile set = .ok compiled) (record : Record)
    (user : User) (context : Context) :
    ∃ outcome, CompiledRules.apply (some compiled) record user context = .ok outcome := by
  rcases apply_recordBuiltins h record user context with ⟨hk, -⟩ | ⟨hd, -⟩
  · exact ⟨_, hk⟩
  · exact ⟨_, hd⟩

/-- Sets with the same names do the same, whatever the order of their rules, and so they do with
records of which these names leave the same. -/
theorem apply_recordBuiltins_congr (h : recordBuiltins.compile set = .ok compiled)
    (h' : recordBuiltins.compile set' = .ok compiled')
    (hnames : ∀ name, name ∈ set.names ↔ name ∈ set'.names)
    (hleft : record.alterAll set.names = record'.alterAll set.names) (user : User)
    (context : Context) : CompiledRules.apply (some compiled) record user context =
      CompiledRules.apply (some compiled') record' user context := by
  rcases apply_recordBuiltins h record user context with ⟨hk, hall⟩ | ⟨hd, name, hn, hno⟩ <;>
    rcases apply_recordBuiltins h' record' user context with
      ⟨hk', hall'⟩ | ⟨hd', name', hn', hno'⟩
  · rw [hk, hk', hleft, Record.alterAll_congr hnames]
  · exact absurd (hall name' ((hnames _).2 hn')) hno'
  · exact absurd (hall' name ((hnames _).1 hn)) hno
  · rw [hd, hd']

end Registry

end PolicyGate
