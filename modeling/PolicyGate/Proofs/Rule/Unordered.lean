import PolicyGate.Proofs.Rule.Records

/-!
The built-in rules for records as data, with any arguments. Each refuses records for a user and a
context or alters them, and what it leaves of a field depends on the field alone. Main statement:
what a list of them makes of a record is known from which rules are in the list, whatever their
order and however often they occur (`builtins_unordered`).
-/

namespace PolicyGate

/-- A built-in rule for records with its argument. -/
inductive RecordBuiltin where
  | passThrough
  | denyAll
  | requireRole (role : String)
  | requirePurpose (purpose : String)
  | maskField (field : String)
  | redactField (field : String)
  deriving DecidableEq, Repr

namespace RecordBuiltin

def rule : RecordBuiltin → Rule Record
  | passThrough => .passThrough
  | denyAll => .denyAll
  | requireRole role => .requireRole role
  | requirePurpose purpose => .requirePurpose purpose
  | maskField field => .maskField field
  | redactField field => .redactField field

/-- Rules ready to run, each under an id. -/
def compiled (message : String) (rules : List (String × RecordBuiltin)) : CompiledRules Record :=
  ⟨message, rules.map fun entry => (entry.1, entry.2.rule)⟩

/-- The rule lets no record pass. -/
def Refuses (user : User) (context : Context) : RecordBuiltin → Prop
  | denyAll => True
  | requireRole role => user.hasRole role = false
  | requirePurpose purpose => context.purpose? ≠ some purpose
  | _ => False

instance (user : User) (context : Context) : DecidablePred (Refuses user context) := fun b => by
  cases b <;> unfold Refuses <;> infer_instance

/-- What the rule makes of a record that it lets pass. -/
def alter (record : Record) : RecordBuiltin → Record
  | maskField field => if record.contains field then record.set field .null else record
  | redactField field => record.remove field
  | _ => record

/-- What rules together leave of a field with this value, or without one. -/
def shown (rules : List RecordBuiltin) (field : String) (value : Option Json) : Option Json :=
  if .redactField field ∈ rules then none
  else if .maskField field ∈ rules then value.map fun _ => .null
  else value

variable {user : User} {context : Context} {record : Record} {rules rules' : List RecordBuiltin}
  {field : String}

/-! ## One rule -/

/-- A built-in refuses a record, or alters it; it never fails. -/
theorem run_rule (b : RecordBuiltin) (record : Record) (user : User) (context : Context) :
    b.rule.run record user context =
      .ok (if b.Refuses user context then none else some (alter record b)) := by
  cases b with
  | passThrough | denyAll | maskField | redactField => rfl
  | requireRole role =>
    show Except.ok (if user.hasRole role then some record else none) = _
    cases h : user.hasRole role <;> simp [Refuses, alter, h]
  | requirePurpose purpose =>
    show Except.ok (if decide (context.purpose? = some purpose) then some record else none) = _
    by_cases h : context.purpose? = some purpose <;> simp [Refuses, alter, h]

theorem get?_alter (b : RecordBuiltin) (record : Record) (field : String) :
    (alter record b).get? field = shown [b] field (record.get? field) := by
  cases b with
  | passThrough | denyAll | requireRole | requirePurpose => simp [alter, shown]
  | maskField masked =>
    rw [alter, Record.get?_masked]
    simp [shown]
  | redactField redacted =>
    rw [alter, Record.get?_remove]
    simp [shown]

/-! ## All rules of a list -/

theorem shown_cons (b : RecordBuiltin) (rules : List RecordBuiltin) (value : Option Json) :
    shown (b :: rules) field value = shown rules field (shown [b] field value) := by
  have hnull : (fun _ : Json => Json.null) ∘ (fun _ : Json => Json.null) = fun _ => .null := rfl
  simp only [shown, List.mem_cons, List.not_mem_nil, or_false]
  by_cases hr : RecordBuiltin.redactField field = b
  · simp [hr]
  · by_cases hm : RecordBuiltin.maskField field = b <;> simp [hr, hm, hnull]

theorem get?_foldl_alter (rules : List RecordBuiltin) (record : Record) (field : String) :
    (rules.foldl alter record).get? field = shown rules field (record.get? field) := by
  induction rules generalizing record with
  | nil => simp [shown]
  | cons b rest ih => rw [List.foldl_cons, ih, get?_alter, ← shown_cons]

/-- Only which rules there are matters, not their order nor how often one occurs. -/
theorem foldl_alter_congr (h : ∀ b, b ∈ rules ↔ b ∈ rules') :
    rules.foldl alter record = rules'.foldl alter record := by
  apply Record.eq_of_get?
  intro field
  simp only [get?_foldl_alter, shown, h]

/-- What rules have left they leave again. -/
theorem foldl_alter_foldl_alter :
    rules.foldl alter (rules.foldl alter record) = rules.foldl alter record := by
  apply Record.eq_of_get?
  intro field
  simp only [get?_foldl_alter, shown]
  split
  · rfl
  · split
    · rw [Option.map_map]
      rfl
    · rfl

/-- A list of built-ins refuses a record if any of them does, and else alters it by all. -/
theorem runAll_rules (rules : List (String × RecordBuiltin)) (record : Record) :
    CompiledRules.runAll record user context (rules.map fun entry => (entry.1, entry.2.rule)) =
      .ok (if ∃ b ∈ rules.map Prod.snd, b.Refuses user context then none
        else some ((rules.map Prod.snd).foldl alter record)) := by
  induction rules generalizing record with
  | nil => simp [CompiledRules.runAll]
  | cons entry rest ih =>
    rw [List.map_cons, CompiledRules.runAll, run_rule]
    simp only [List.map_cons, List.mem_cons, exists_eq_or_imp, List.foldl_cons]
    by_cases hb : entry.2.Refuses user context
    · simp only [hb, true_or, if_true]
    · simp only [hb, false_or, if_false, ih]

theorem apply_compiled (message : String) (rules : List (String × RecordBuiltin))
    (record : Record) (user : User) (context : Context) :
    CompiledRules.apply (some (compiled message rules)) record user context =
      .ok (if ∃ b ∈ rules.map Prod.snd, b.Refuses user context then none
        else some ((rules.map Prod.snd).foldl alter record)) :=
  runAll_rules rules record

theorem exists_refuses_iff :
    (∃ b ∈ rules, b.Refuses user context) ↔
      denyAll ∈ rules ∨ (∃ role, requireRole role ∈ rules ∧ user.hasRole role = false) ∨
        ∃ purpose, requirePurpose purpose ∈ rules ∧ context.purpose? ≠ some purpose := by
  constructor
  · rintro ⟨b, hb, hr⟩
    cases b with
    | denyAll => exact .inl hb
    | requireRole role => exact .inr (.inl ⟨role, hb, hr⟩)
    | requirePurpose purpose => exact .inr (.inr ⟨purpose, hb, hr⟩)
    | passThrough | maskField | redactField => cases hr
  · rintro (hb | ⟨role, hb, hr⟩ | ⟨purpose, hb, hr⟩)
    · exact ⟨_, hb, trivial⟩
    · exact ⟨_, hb, hr⟩
    · exact ⟨_, hb, hr⟩

/-! ## The rules of a set -/

theorem exists_of_resolve {name : String} {r : Rule Record}
    (h : Registry.recordBuiltins.resolve name = .ok r) : ∃ b : RecordBuiltin, r = b.rule := by
  rcases Registry.resolve_registerWithArgument h with ⟨field, -, rfl⟩ | h
  · exact ⟨.redactField field, rfl⟩
  rcases Registry.resolve_registerWithArgument h with ⟨field, -, rfl⟩ | h
  · exact ⟨.maskField field, rfl⟩
  rcases Registry.resolve_registerWithArgument h with ⟨purpose, -, rfl⟩ | h
  · exact ⟨.requirePurpose purpose, rfl⟩
  rcases Registry.resolve_registerWithArgument h with ⟨role, -, rfl⟩ | h
  · exact ⟨.requireRole role, rfl⟩
  rcases Registry.resolve_registerInstance h with ⟨-, rfl⟩ | h
  · exact ⟨.denyAll, rfl⟩
  rcases Registry.resolve_registerInstance h with ⟨-, rfl⟩ | h
  · exact ⟨.passThrough, rfl⟩
  · cases h

theorem exists_of_resolveAll {entries : List (String × String)} {rs : List (String × Rule Record)}
    (h : Registry.recordBuiltins.resolveAll entries = .ok rs) :
    ∃ rules : List (String × RecordBuiltin),
      rs = rules.map fun entry => (entry.1, entry.2.rule) := by
  induction entries generalizing rs with
  | nil =>
    cases h
    exact ⟨[], rfl⟩
  | cons entry rest ih =>
    rw [Registry.resolveAll] at h
    split at h
    · cases h
    · next r hr =>
      cases ht : Registry.recordBuiltins.resolveAll rest with
      | error => rw [ht] at h; cases h
      | ok tail =>
        rw [ht] at h
        cases h
        obtain ⟨b, rfl⟩ := exists_of_resolve hr
        obtain ⟨rules, rfl⟩ := ih ht
        exact ⟨(entry.1, b) :: rules, rfl⟩

/-- What compiles by the registry of built-ins is a list of built-ins. -/
theorem exists_of_compile {set : RecordRules} {c : CompiledRules Record}
    (h : Registry.recordBuiltins.compile set = .ok c) :
    ∃ rules, c = compiled set.message rules := by
  unfold Registry.compile at h
  cases hr : Registry.recordBuiltins.resolveAll set.rules.toList with
  | error => rw [hr] at h; cases h
  | ok rs =>
    rw [hr] at h
    cases h
    obtain ⟨rules, rfl⟩ := exists_of_resolveAll hr
    exact ⟨rules, rfl⟩

/-- Every rule set that compiles gives a list of built-in rules. Such a list never fails. It drops a
record if and only if one of its rules is the one that drops everything, or requires a role that the
user lacks, or a purpose that is not that of the context. Otherwise a redacted field is gone, a
masked one that was there is null, all others are as they were, and the same rules change nothing
more. A list of the same rules in another order, or with some of them repeated, does the same. -/
theorem builtins_unordered :
    (∀ (set : RecordRules) c, Registry.recordBuiltins.compile set = .ok c →
      ∃ rules, c = compiled set.message rules) ∧
    ∀ message (rules : List (String × RecordBuiltin)) record user context, ∃ outcome,
      CompiledRules.apply (some (compiled message rules)) record user context = .ok outcome ∧
      (outcome = none ↔
        denyAll ∈ rules.map Prod.snd ∨
        (∃ role, requireRole role ∈ rules.map Prod.snd ∧ user.hasRole role = false) ∨
        ∃ purpose, requirePurpose purpose ∈ rules.map Prod.snd ∧
          context.purpose? ≠ some purpose) ∧
      (∀ left, outcome = some left →
        (∀ field, left.get? field =
          if redactField field ∈ rules.map Prod.snd then none
          else if maskField field ∈ rules.map Prod.snd then (record.get? field).map fun _ => .null
          else record.get? field) ∧
        CompiledRules.apply (some (compiled message rules)) left user context = .ok (some left)) ∧
      ∀ message' (rules' : List (String × RecordBuiltin)),
        (∀ b, b ∈ rules.map Prod.snd ↔ b ∈ rules'.map Prod.snd) →
        CompiledRules.apply (some (compiled message' rules')) record user context =
          .ok outcome := by
  refine ⟨fun _ _ => exists_of_compile, fun message rules record user context => ?_⟩
  refine ⟨_, apply_compiled .., ?_, ?_, ?_⟩
  · rw [← exists_refuses_iff]
    simp
  · intro left hleft
    split at hleft
    · cases hleft
    · next hno =>
      cases hleft
      refine ⟨get?_foldl_alter _ record, ?_⟩
      rw [apply_compiled, if_neg hno, foldl_alter_foldl_alter]
  · intro message' rules' hsame
    simp only [apply_compiled, foldl_alter_congr hsame, hsame]

end RecordBuiltin

end PolicyGate
