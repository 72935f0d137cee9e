import PolicyGate.Proofs.Policy.Inherited
import PolicyGate.Proofs.Policy.Reached
import PolicyGate.Proofs.Rule.Records

/-!
What the rules of a directory hide in the records below it. Two records that differ in one field
only become equal under rules that mask or redact it. Main statement: such a rule is in force, and
hides the field, on every resource below its directory, unless a level in between declares its id
anew (`concealed_along_chain`).
-/

namespace PolicyGate

/-- The records have the same fields, and the same values in all of them but one. -/
structure Record.SameBut (record : Record) (field : String) (record' : Record) : Prop where
  contains : ∀ name, record.contains name = record'.contains name
  agree : ∀ name ≠ field, record.get? name = record'.get? name

/-- Rules that always give a result for records, and none that tells of the value of a field. -/
structure CompiledRules.Conceals (rules : CompiledRules Record) (field : String) : Prop where
  total : ∀ record user context, ∃ outcome,
    CompiledRules.apply (some rules) record user context = .ok outcome
  blind : ∀ record record' : Record, record.SameBut field record' → ∀ user context,
    CompiledRules.apply (some rules) record user context =
      CompiledRules.apply (some rules) record' user context
  hidden : ∀ (record kept : Record) user context,
    CompiledRules.apply (some rules) record user context = .ok (some kept) →
    kept.get? field = none ∨ kept.get? field = some .null

namespace Record

variable {record record' : Record} {names : List String} {name field : String}

theorem SameBut.map_null (h : record.SameBut field record') (name : String) :
    (record.get? name).map (fun _ => Json.null) = (record'.get? name).map fun _ => .null := by
  have hc := h.contains name
  simp only [Record.contains, SortedMap.contains, ← get?.eq_def] at hc
  cases hg : record.get? name <;> cases hg' : record'.get? name <;> simp [hg, hg'] at hc ⊢

/-- Masking and redacting leave nothing of the value of a field. -/
theorem shown_of_hides (hn : name ∈ names) (hf : Masks name field ∨ Redacts name field)
    (record : Record) : record.shown names field = none ∨
      record.shown names field = (record.get? field).map fun _ => .null := by
  unfold shown
  split
  · exact .inl rfl
  · next hno =>
    have hm : Masks name field := hf.resolve_right fun hr => hno ⟨name, hn, hr⟩
    rw [if_pos ⟨name, hn, hm⟩]
    exact .inr rfl

/-- Records that differ in a concealed field come out alike. -/
theorem SameBut.alterAll_eq (h : record.SameBut field record') (hn : name ∈ names)
    (hf : Masks name field ∨ Redacts name field) :
    record.alterAll names = record'.alterAll names := by
  refine eq_of_get? fun other => ?_
  rw [get?_alterAll, get?_alterAll]
  by_cases ho : other = field
  · subst ho
    unfold shown
    split
    · rfl
    · next hno =>
      have hm : Masks name other := hf.resolve_right fun hr => hno ⟨name, hn, hr⟩
      rw [if_pos ⟨name, hn, hm⟩, if_pos ⟨name, hn, hm⟩, h.map_null]
  · simp only [shown, h.agree other ho]

end Record

/-- Rules with a name that masks or redacts a field conceal it. -/
theorem Registry.conceals_of_mem_names {set : RecordRules} {compiled : CompiledRules Record}
    {name field : String} (h : recordBuiltins.compile set = .ok compiled) (hn : name ∈ set.names)
    (hf : Masks name field ∨ Redacts name field) : compiled.Conceals field where
  total := total_recordBuiltins h
  blind _ _ hsame := apply_recordBuiltins_congr h h (fun _ => .rfl) (hsame.alterAll_eq hn hf)
  hidden record kept user context hk := by
    rcases apply_recordBuiltins h record user context with ⟨hk', -⟩ | ⟨hd, -⟩
    · cases hk'.symm.trans hk
      rw [Record.get?_alterAll]
      rcases Record.shown_of_hides hn hf record with hs | hs <;> rw [hs]
      · exact .inl rfl
      · cases record.get? field with
        | none => exact .inl rfl
        | some => exact .inr rfl
    · cases hd.symm.trans hk

/-- A name that a level declares is in force below, up to a level that declares its id anew. -/
theorem Declarations.mem_names_of_split {kind : RuleKind} {declared : Declarations kind}
    {x a : ResourceId} {above below : List ResourceId} (h : x.ancestors = above ++ a :: below)
    {set : RuleSet kind} (hs : declared.get? a.text = some set) {id name : String}
    (hid : set.rules.get? id = some name)
    (hbelow : ∀ node ∈ below, ∀ lower ∈ declared.get? node.text, id ∉ lower.rules.ids) :
    ∃ inForce, declared.lookup x = some inForce ∧ name ∈ inForce.names := by
  have hlevels : declared.levels x = declared.along above ++ set :: declared.along below := by
    rw [levels, h, List.filterMap_append, List.filterMap_cons, hs]
    rfl
  have hno : ∀ level ∈ declared.along below, id ∉ level.rules.ids := by
    intro level hl
    obtain ⟨node, hn, hd⟩ := List.mem_filterMap.1 hl
    exact hbelow node hn level hd
  -- the levels below may add rules and rename others, but not this one
  obtain ⟨inForce, hm, htakes⟩ := RuleSet.mergeHierarchy_takesPart (declared.along above) set
    (declared.along below)
  have hmem : id ∈ set.rules.ids := RuleMap.mem_ids_iff.2 (by rw [hid]; rfl)
  have hname : inForce.rules.get? id = some name := by rw [htakes.named id hmem hno, hid]
  exact ⟨inForce, by rw [lookup, hlevels, hm], RuleMap.mem_names_iff.2 ⟨id, hname⟩⟩

namespace PolicyService

/-- Where a level above a resource masks or redacts a field, and no level below it declares the id
of that rule anew, the rules for the records of the resource conceal the field. They compile
wherever the declarations were accepted. -/
theorem concealed_along_chain {table : PolicyTable} {x a : ResourceId}
    {above below : List ResourceId} (h : x.ancestors = above ++ a :: below) {set : RecordRules}
    (hs : table.record.get? a.text = some set) {id name field : String}
    (hid : set.rules.get? id = some name) (hf : Masks name field ∨ Redacts name field)
    (hbelow : ∀ node ∈ below, ∀ lower ∈ table.record.get? node.text, id ∉ lower.rules.ids) :
    ((PolicyService.declared .builtins table).Reached .builtins → ∃ compiled,
      (PolicyService.declared .builtins table).compiledRecordRules x = .ok compiled) ∧
    ∀ compiled, (PolicyService.declared .builtins table).compiledRecordRules x = .ok compiled →
      compiled.Conceals field := by
  obtain ⟨inForce, hl, hn⟩ := Declarations.mem_names_of_split h hs hid hbelow
  constructor
  · intro hr
    obtain ⟨compiled, -, hc⟩ := hr.compiledRecordRules_eq hl
    exact ⟨compiled, hc⟩
  · intro compiled hc
    have hcompile : Catalog.builtins.record.compile inForce = .ok compiled := by
      simpa only [compiledRecordRules, hl] using hc
    exact Registry.conceals_of_mem_names hcompile hn hf

/-- A folder masks a field under a padded name, and a file in it adds rules under other ids. -/
def paddedFolder : PolicyTable :=
  ⟨∅, ((∅ : Declarations .record).declare ⟨"data/"⟩
    ⟨"", .ofList [("hide", "mask_field: ssn ")]⟩).declare ⟨"data/x"⟩
    ⟨"", .ofList [("zip", "redact_field:zip"), ("gate", "require_role:r")]⟩⟩

theorem concealed_along_chain_padded : ∃ compiled,
    (PolicyService.declared .builtins paddedFolder).compiledRecordRules ⟨"data/x"⟩ =
      .ok compiled ∧ compiled.Conceals "ssn" := by
  have hreached : (PolicyService.declared .builtins paddedFolder).Reached .builtins :=
    .record (.record .new ⟨"data/"⟩ ⟨"", .ofList [("hide", "mask_field: ssn ")]⟩)
      ⟨"data/x"⟩ ⟨"", .ofList [("zip", "redact_field:zip"), ("gate", "require_role:r")]⟩
  have hsplit : (⟨"data/x"⟩ : ResourceId).ancestors = [] ++ ⟨"data/"⟩ :: [⟨"data/x"⟩] := by decide
  have hset : paddedFolder.record.get? (⟨"data/"⟩ : ResourceId).text =
      some ⟨"", .ofList [("hide", "mask_field: ssn ")]⟩ := by decide
  have hmasks : Masks "mask_field: ssn " "ssn" := splitRuleName_eq_iff.1 (by decide)
  have hbelow : ∀ node ∈ [(⟨"data/x"⟩ : ResourceId)],
      ∀ lower ∈ paddedFolder.record.get? node.text, "hide" ∉ lower.rules.ids := by decide
  obtain ⟨hcompiles, hconceals⟩ :=
    concealed_along_chain hsplit hset (by decide) (.inl hmasks) hbelow
  obtain ⟨compiled, hc⟩ := hcompiles hreached
  exact ⟨compiled, hc, hconceals compiled hc⟩

end PolicyService

end PolicyGate
