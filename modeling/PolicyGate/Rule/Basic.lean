import PolicyGate.Rule.Error
import PolicyGate.Subject

/-!
Rules: transforms of an item under a user and a context, which may keep, change or drop the item or
fail. A rule can also be given by a plain function or by a predicate. Main statement: a rule given
by a predicate keeps exactly the items that satisfy it.
-/

namespace PolicyGate

/-- What a rule makes of an item: the item to go on with, nothing when the item is dropped, or the
reason of a failure. -/
abbrev RuleOutcome (α : Type) := Except String (Option α)

/-- A rule over items of a type. -/
structure Rule (α : Type) where
  run : α → User → Context → RuleOutcome α

namespace Rule

variable {α : Type}

/-- The rule that changes every item by a function. -/
def ofFunction (f : α → α) : Rule α := ⟨fun item _ _ => .ok (some (f item))⟩

/-- The rule that keeps the items that satisfy a predicate. -/
def ofPredicate (p : α → Bool) : Rule α :=
  ⟨fun item _ _ => .ok (if p item then some item else none)⟩

/-- The rule that keeps the items for which user and context satisfy a predicate. -/
def ofGuard (p : User → Context → Bool) : Rule α :=
  ⟨fun item user context => .ok (if p user context then some item else none)⟩

/-- The rule that fails on every item. -/
def failing (reason : String) : Rule α := ⟨fun _ _ _ => .error reason⟩

theorem run_ofPredicate (p : α → Bool) (item : α) (user : User) (context : Context) :
    (ofPredicate p).run item user context = .ok (some item) ↔ p item = true := by
  by_cases h : p item <;> simp [ofPredicate, h]

end Rule

/-- The ways in which a rule is supplied. -/
inductive WrappedRule (α : Type) where
  | rule (rule : Rule α)
  | function (f : α → α)
  | predicate (p : α → Bool)

namespace WrappedRule

variable {α : Type}

/-- The rule that is supplied when exactly one of its three forms is given. -/
def ofParts (rule : Option (Rule α)) (function : Option (α → α)) (predicate : Option (α → Bool)) :
    Except RuleError (WrappedRule α) :=
  match rule, function, predicate with
  | some r, none, none => .ok (.rule r)
  | none, some f, none => .ok (.function f)
  | none, none, some p => .ok (.predicate p)
  | none, none, none =>
    .error (.invalidRule "wrapped rule needs one of rule, function or predicate")
  | _, _, _ =>
    .error (.invalidRule "wrapped rule accepts only one of rule, function or predicate")

/-- The rule itself. -/
def toRule : WrappedRule α → Rule α
  | .rule r => r
  | .function f => .ofFunction f
  | .predicate p => .ofPredicate p

/-- The wrapped rule as it is shown for inspection. -/
def inspect : WrappedRule α → String
  | .rule _ => "WrappedRule(\"rule\")"
  | .function _ => "WrappedRule(\"function\")"
  | .predicate _ => "WrappedRule(\"predicate\")"

end WrappedRule

end PolicyGate
