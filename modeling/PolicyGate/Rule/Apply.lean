import PolicyGate.Rule.Registry

/-!
Applying compiled rules to an item: the rules run in order, each on what the one before it kept, up
to the first that drops the item or fails. Main statement: rules that are run after others see what
these have kept.
-/

namespace PolicyGate.CompiledRules

variable {α : Type}

/-- Runs rules in order. -/
def runAll (item : α) (user : User) (context : Context) :
    List (String × Rule α) → Except RuleError (Option α)
  | [] => .ok (some item)
  | (id, rule) :: rest =>
    match rule.run item user context with
    | .ok (some next) => runAll next user context rest
    | .ok none => .ok none
    | .error reason => .error (.failed id reason)

/-- What the rules make of an item; without rules the item is kept. -/
def apply (rules : Option (CompiledRules α)) (item : α) (user : User) (context : Context) :
    Except RuleError (Option α) :=
  match rules with
  | none => .ok (some item)
  | some compiled => runAll item user context compiled.rules

/-- To run two lists of rules is to run the second on what the first leaves. -/
theorem runAll_append (item : α) (user : User) (context : Context) (a b : List (String × Rule α)) :
    runAll item user context (a ++ b) =
      match runAll item user context a with
      | .ok (some next) => runAll next user context b
      | .ok none => .ok none
      | .error e => .error e := by
  induction a generalizing item with
  | nil => rfl
  | cons entry rest ih =>
    simp only [List.cons_append, runAll]
    split
    · exact ih _
    · rfl
    · rfl

end PolicyGate.CompiledRules
