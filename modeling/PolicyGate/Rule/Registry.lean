import PolicyGate.Resource.Basic
import PolicyGate.Rule.Builtin
import PolicyGate.Rule.Set
import PolicyGate.Text.Blank
import PolicyGate.Text.Split

/-!
Registries: the rules known by name. A rule name is a base with an optional argument behind a colon,
both trimmed; the factory registered for the base makes the rule of the argument. Compiling a rule
set resolves all its names up front. Main statement: the compiled rules carry the ids of the set, in
order.
-/

namespace PolicyGate

/-- Makes a rule of the optional argument behind its name. -/
abbrev RuleFactory (α : Type) := Option String → Except RuleError (Rule α)

/-- The factories by name. -/
structure Registry (α : Type) where
  factories : SortedMap (RuleFactory α)

/-- Rules ready to run, in order, with the ids under which they were declared. -/
structure CompiledRules (α : Type) where
  message : String
  rules : List (String × Rule α)

namespace CompiledRules

variable {α : Type}

def empty : CompiledRules α := ⟨RuleSet.unsetMessage, []⟩

def ids (c : CompiledRules α) : List String := c.rules.map Prod.fst

/-- The compiled rules as they are shown for inspection. -/
def inspect (c : CompiledRules α) : String :=
  "CompiledRules \x7b message: " ++ Text.quote c.message ++ ", rules: " ++ Text.quoteList c.ids ++
    " \x7d"

end CompiledRules

/-- The base and the argument of a rule name. -/
def splitRuleName (name : String) : String × Option String :=
  match Text.splitOnce ':' name with
  | some (base, argument) => (Text.trim base, some (Text.trim argument))
  | none => (Text.trim name, none)

namespace Registry

variable {α : Type}

def empty : Registry α := ⟨∅⟩

/-- Registers a factory under a name, in place of the one that was there. -/
def register (r : Registry α) (name : String) (factory : RuleFactory α) : Registry α :=
  ⟨r.factories.insert name factory⟩

/-- Registers a rule that takes no argument. -/
def registerInstance (r : Registry α) (name : String) (rule : Rule α) : Registry α :=
  r.register name fun
    | none => .ok rule
    | some _ => .error (.invalidRule ("rule `" ++ name ++ "` takes no argument"))

/-- Registers a rule that is made of an argument, which must not be empty. -/
def registerWithArgument (r : Registry α) (name : String) (build : String → Rule α) : Registry α :=
  let missing : RuleError :=
    .invalidRule ("rule `" ++ name ++ "` requires an argument (`" ++ name ++ ":<value>`)")
  r.register name fun
    | some argument => if argument = "" then .error missing else .ok (build argument)
    | none => .error missing

/-- Whether the base of a rule name is known. -/
def contains (r : Registry α) (name : String) : Bool := r.factories.contains (splitRuleName name).1

def names (r : Registry α) : List String := r.factories.keys

/-- The registry as it is shown for inspection. -/
def inspect (r : Registry α) : String :=
  "RuleRegistry \x7b names: " ++ Text.quoteList r.names ++ " \x7d"

/-- The rule that a name stands for. -/
def resolve (r : Registry α) (name : String) : Except RuleError (Rule α) :=
  let (base, argument) := splitRuleName name
  match r.factories.get? base with
  | some factory => factory argument
  | none => .error (.unknownRule name)

/-- Resolves a list of declarations, in order, up to the first that does not resolve. -/
def resolveAll (r : Registry α) : List (String × String) → Except RuleError (List (String × Rule α))
  | [] => .ok []
  | (id, name) :: rest =>
    match r.resolve name with
    | .error e => .error (e.inRule id)
    | .ok rule => (r.resolveAll rest).map fun rules => (id, rule) :: rules

/-- Resolves every rule of a set. -/
def compile {kind : RuleKind} (r : Registry α) (set : RuleSet kind) :
    Except RuleError (CompiledRules α) :=
  (r.resolveAll set.rules.toList).map fun rules => ⟨set.message, rules⟩

theorem map_fst_of_resolveAll {r : Registry α} {entries : List (String × String)}
    {rules : List (String × Rule α)} (h : r.resolveAll entries = .ok rules) :
    rules.map Prod.fst = entries.map Prod.fst := by
  induction entries generalizing rules with
  | nil => cases h; rfl
  | cons entry rest ih =>
    simp only [resolveAll] at h
    split at h
    · cases h
    · cases hr : r.resolveAll rest with
      | error e => rw [hr] at h; cases h
      | ok tail => rw [hr] at h; cases h; simp [ih hr]

/-- Compiled rules keep the ids of their set, in order. -/
theorem ids_of_compile {kind : RuleKind} {r : Registry α} {set : RuleSet kind}
    {compiled : CompiledRules α} (h : r.compile set = .ok compiled) :
    compiled.ids = set.rules.ids := by
  unfold compile at h
  cases hr : r.resolveAll set.rules.toList with
  | error e => rw [hr] at h; cases h
  | ok rules =>
    rw [hr] at h
    cases h
    exact map_fst_of_resolveAll hr

/-- The built-in rules that fit items of every kind. -/
def builtins : Registry α :=
  empty
    |>.registerInstance "pass_through" .passThrough
    |>.registerInstance "deny_all" .denyAll
    |>.registerWithArgument "require_role" .requireRole
    |>.registerWithArgument "require_purpose" .requirePurpose

/-- The built-in rules for records. -/
def recordBuiltins : Registry Record :=
  builtins
    |>.registerWithArgument "mask_field" .maskField
    |>.registerWithArgument "redact_field" .redactField

end Registry

/-- The registries for both kinds of rules. -/
structure Catalog where
  resource : Registry Resource
  record : Registry Record

/-- The catalog of the built-in rules. -/
def Catalog.builtins : Catalog := ⟨.builtins, .recordBuiltins⟩

end PolicyGate
